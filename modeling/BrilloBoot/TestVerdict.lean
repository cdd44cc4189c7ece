import BrilloBoot.TestHarness

/-!
# The verdict of a test file

`test_harness_run` of `test_harness.h` runs each test in a child process. What a test does is given
as the trace of its checks, up to the step that ends it. The tests are reported in source order, and
the run passes exactly when every test does (`harness_verdict`).
-/

namespace BrilloBoot

open LinkedList

/-! ## The child -/

/-- The number of the signal that `abort` raises. -/
def SIGABRT : ℕ := 6

/-- What `waitpid` says of a child. -/
inductive WaitStatus
  | exited (code : ℤ)
  | signaled (sig : ℕ)
  | other
deriving DecidableEq

/-- What a test does, as far as the harness sees it. -/
inductive Step
  /-- `EXPECT_*`, or `ASSERT_*` if fatal. -/
  | check (holds fatal : Bool)
  /-- The test ends the process itself. -/
  | exit (code : ℤ)
  | signal (sig : ℕ)

/-- The fields of `__test_metadata` that the child writes. -/
structure Outcome where
  passed : ℤ
  trigger : ℤ

/-- `__bail`. There is no result when it aborts. -/
def bail (forRealz : Bool) : Option ℤ := if forRealz then none else some 0

/-- `__EXPECT` and `__EXPECT_STR`, without the handler. -/
def expect (holds : Bool) (m : Outcome) : Outcome := if holds then m else ⟨0, 1⟩

/-- `OPTIONAL_HANDLER`. The loop ends after a turn, since `__bail` gives zero. -/
def optionalHandler (fatal : Bool) (m : Outcome) : Except WaitStatus Outcome :=
  if m.trigger ≠ 0 then
    match bail fatal with
    | none => .error (.signaled SIGABRT)
    | some trigger => .ok { m with trigger }
  else .ok m

/-- A step of a test, on what it has come to. -/
def Step.run : Step → Outcome → Except WaitStatus Outcome
  | .check holds fatal, m => optionalHandler fatal (expect holds m)
  | .exit code, _ => .error (.exited (code % 256))
  | .signal sig, _ => .error (.signaled sig)

/-- The steps of a test, until one of them ends it. -/
def runSteps (steps : List Step) (m : Outcome) : Except WaitStatus Outcome :=
  steps.foldlM (fun m step => step.run m) m

/-- The `fn` of a test: the test itself for `TEST`, a wrapper for `TEST_F`. -/
inductive TestFn
  | test (body : List Step)
  | fixture (setup body teardown : List Step)

/-- A test, with what its fixture does around it. -/
def TestFn.run : TestFn → Outcome → Except WaitStatus Outcome
  | .test body, m => runSteps body m
  | .fixture setup body teardown, m => do
    let m ← runSteps setup m
    -- A setup that fails ends the test early.
    if m.passed = 0 then return m
    let m ← runSteps body m
    runSteps teardown m

/-- The other fields of `__test_metadata`. -/
structure TestMetadata where
  fn : TestFn
  /-- The signal that the test should end with, or `-1`. -/
  termsig : ℤ

/-- The child of `__run_test`, which exits with `passed`. -/
def TestMetadata.child (t : TestMetadata) : WaitStatus :=
  match t.fn.run ⟨1, 0⟩ with
  | .error status => status
  | .ok m => .exited (m.passed % 256)

/-- `__run_test`, as far as the parent. The child is missing if `fork` failed. The result is
`passed`. -/
def TestMetadata.runTest (t : TestMetadata) : Option WaitStatus → ℤ
  | none => 0
  | some (.exited code) => if t.termsig = -1 then code else 0
  | some (.signaled sig) =>
    if sig = SIGABRT then 0 else if (sig : ℤ) = t.termsig then 1 else 0
  | some .other => 1

/-- What `test_harness_run` has found. -/
structure HarnessRun (α : Type*) where
  ret : ℤ
  count : BitVec 32
  passCount : BitVec 32
  /-- The tests it has reported, `OK` or `FAIL`. -/
  reports : List (α × Bool)

section

variable {α : Type*}

/-- A turn of `test_harness_run`. -/
def harnessTurn (tests : α → TestMetadata) (child : α → Option WaitStatus) (r : HarnessRun α)
    (t : α) : HarnessRun α :=
  let passed := (tests t).runTest (child t)
  { ret := if passed ≠ 0 then r.ret else 1
    count := r.count + 1
    passCount := if passed ≠ 0 then r.passCount + 1 else r.passCount
    reports := r.reports ++ [(t, decide (passed ≠ 0))] }

/-- `test_harness_run`, for a number of turns. -/
def testHarnessRun (tests : α → TestMetadata) (child : α → Option WaitStatus) (s : Registry α) :
    ℕ → (Option α × HarnessRun α) ⊕ HarnessRun α :=
  forEach s.next (harnessTurn tests child) s.testList ⟨0, 0, 0, []⟩

end

/-! ## The verdict -/

/-- The step does not end the test, and no check of it fails. -/
def Step.holds : Step → Bool
  | .check holds _ => holds
  | _ => false

/-- How the step ends the process. -/
def Step.ending : Step → Option WaitStatus
  | .check holds fatal => if !holds && fatal then some (.signaled SIGABRT) else none
  | .exit code => some (.exited (code % 256))
  | .signal sig => some (.signaled sig)

/-- How the steps end the process: as the first that does. -/
def endingOf (steps : List Step) : Option WaitStatus := steps.findSome? Step.ending

/-- The steps of a test that count. A setup that fails keeps the others away. -/
def TestFn.steps : TestFn → List Step
  | .test body => body
  | .fixture setup body teardown =>
    if setup.all Step.holds then setup ++ body ++ teardown else setup

/-- When a test passes. A failed `EXPECT` counts only if the test runs to its end, and then the test
must not be one that waits for a signal. -/
def TestMetadata.Passes (t : TestMetadata) : Prop :=
  match endingOf t.fn.steps with
  | none => t.termsig = -1 ∧ t.fn.steps.all Step.holds
  | some (.exited code) => t.termsig = -1 ∧ code ≠ 0
  | some (.signaled sig) => sig ≠ SIGABRT ∧ (sig : ℤ) = t.termsig
  | some .other => True

/-- A step that does not end the test leaves the result of its check. -/
theorem Step.run_of_ending_none {step : Step} (h : step.ending = none) (passed : ℤ) :
    step.run ⟨passed, 0⟩ = .ok ⟨if step.holds then passed else 0, 0⟩ := by
  cases step with
  | check holds fatal =>
    cases holds with
    | true => rfl
    | false =>
      obtain rfl : fatal = false := by simpa [Step.ending] using h
      rfl
  | exit code => simp [Step.ending] at h
  | signal sig => simp [Step.ending] at h

/-- A step that ends the test does so whatever came before. -/
theorem Step.run_of_ending {step : Step} {status : WaitStatus} (h : step.ending = some status)
    (passed : ℤ) : step.run ⟨passed, 0⟩ = .error status := by
  cases step with
  | check holds fatal =>
    obtain ⟨⟨rfl, rfl⟩, rfl⟩ : (holds = false ∧ fatal = true) ∧ .signaled SIGABRT = status := by
      simpa [Step.ending] using h
    rfl
  | exit code =>
    rw [← Option.some.inj h]
    rfl
  | signal sig =>
    rw [← Option.some.inj h]
    rfl

/-- **What a row of steps does** is to end the process as the first step that does, or to note
whether all the checks held. -/
theorem runSteps_eq (steps : List Step) (passed : ℤ) :
    runSteps steps ⟨passed, 0⟩ =
      match endingOf steps with
      | some status => .error status
      | none => .ok ⟨if steps.all Step.holds then passed else 0, 0⟩ := by
  induction steps generalizing passed with
  | nil => rfl
  | cons step steps ih =>
    have hcons : runSteps (step :: steps) ⟨passed, 0⟩ =
        (step.run ⟨passed, 0⟩).bind (runSteps steps) := rfl
    rcases hending : step.ending with _ | status
    · have hrest : endingOf (step :: steps) = endingOf steps := by
        simp [endingOf, hending]
      rw [hcons, Step.run_of_ending_none hending, hrest, Except.bind, ih]
      cases hholds : step.holds <;> simp [hholds]
    · have hstatus : endingOf (step :: steps) = some status := by
        simp [endingOf, hending]
      rw [hcons, Step.run_of_ending hending, hstatus]
      rfl

/-- Steps that hold do not end the process. -/
theorem endingOf_of_holds {steps : List Step} (h : steps.all Step.holds = true) :
    endingOf steps = none := by
  refine List.findSome?_eq_none_iff.mpr fun step hstep => ?_
  have hholds : step.holds = true := List.all_eq_true.mp h step hstep
  cases step with
  | check holds fatal =>
    obtain rfl : holds = true := hholds
    rfl
  | exit code => cases hholds
  | signal sig => cases hholds

/-- One list of steps after another. -/
theorem runSteps_append (xs ys : List Step) (m : Outcome) :
    runSteps (xs ++ ys) m = (runSteps xs m).bind (runSteps ys) :=
  List.foldlM_append

/-- **What a test does**, with its fixture. -/
theorem TestFn.run_eq (fn : TestFn) :
    fn.run ⟨1, 0⟩ =
      match endingOf fn.steps with
      | some status => .error status
      | none => .ok ⟨if fn.steps.all Step.holds then 1 else 0, 0⟩ := by
  cases fn with
  | test body => exact runSteps_eq body 1
  | fixture setup body teardown =>
    cases hsetup : setup.all Step.holds with
    | true =>
      have hrun : runSteps setup ⟨1, 0⟩ = .ok ⟨1, 0⟩ := by
        rw [runSteps_eq, endingOf_of_holds hsetup, hsetup]
        rfl
      have hsteps : (TestFn.fixture setup body teardown).steps = setup ++ body ++ teardown :=
        if_pos hsetup
      rw [hsteps, ← runSteps_eq, runSteps_append, runSteps_append, hrun]
      show (runSteps setup ⟨1, 0⟩).bind _ = _
      rw [hrun]
      rfl
    | false =>
      have hsteps : (TestFn.fixture setup body teardown).steps = setup :=
        if_neg (by simp [hsetup])
      show (runSteps setup ⟨1, 0⟩).bind _ = _
      rw [hsteps, runSteps_eq, hsetup]
      cases endingOf setup <;> rfl

/-- **A test is reported as passed** exactly when it passes. -/
theorem TestMetadata.runTest_ne_zero_iff (t : TestMetadata) :
    t.runTest (some t.child) ≠ 0 ↔ t.Passes := by
  unfold TestMetadata.child TestMetadata.Passes
  rw [TestFn.run_eq]
  rcases endingOf t.fn.steps with _ | ⟨code⟩ | ⟨sig⟩ | _
  · cases t.fn.steps.all Step.holds <;> simp [TestMetadata.runTest]
  · simp [TestMetadata.runTest]
  · simp [TestMetadata.runTest]
  · simp [TestMetadata.runTest]

section

variable {α : Type*}

/-- What a child leaves, if there is one. -/
def childOf (tests : α → TestMetadata) (forks : α → Bool) (t : α) : Option WaitStatus :=
  if forks t then some (tests t).child else none

/-- A test is reported as passed exactly if its child was made and it passes. -/
theorem runTest_childOf (tests : α → TestMetadata) (forks : α → Bool) (t : α) :
    (tests t).runTest (childOf tests forks t) ≠ 0 ↔ forks t = true ∧ (tests t).Passes := by
  unfold childOf
  cases forks t with
  | true => simpa using (tests t).runTest_ne_zero_iff
  | false => simp [TestMetadata.runTest]

/-- **A row of tests.** -/
theorem foldl_harnessTurn (tests : α → TestMetadata) (child : α → Option WaitStatus) (xs : List α)
    (r : HarnessRun α) :
    xs.foldl (harnessTurn tests child) r =
      let ok (t : α) : Bool := decide ((tests t).runTest (child t) ≠ 0)
      { ret := if xs.all ok then r.ret else 1
        count := r.count + BitVec.ofNat 32 xs.length
        passCount := r.passCount + BitVec.ofNat 32 (xs.countP ok)
        reports := r.reports ++ xs.map fun t => (t, ok t) } := by
  induction xs generalizing r with
  | nil => simp
  | cons t xs ih =>
    rw [List.foldl_cons, ih]
    have hnext (c : BitVec 32) (n : ℕ) :
        c + 1#32 + BitVec.ofNat 32 n = c + BitVec.ofNat 32 (n + 1) := by
      rw [Nat.add_comm, BitVec.ofNat_add, BitVec.add_assoc]
    by_cases hpass : (tests t).runTest (child t) = 0
    · simp [harnessTurn, hpass, hnext]
    · simp [harnessTurn, hpass, hnext]

end

/-- **The verdict of a test file**, for every toolchain and whatever the tests do. The tests are
reported in source order, each as passed exactly if its child could be made and it passes, and the
run passes exactly if all of them do. The heading and the last line count the tests of the file, and
the heading one test case more than the file has fixtures. -/
theorem harness_verdict {α : Type*} [DecidableEq α] (toolchain : Toolchain) (file : List (Item α))
    (tests : α → TestMetadata) (forks : α → Bool) (h : (testsOf file).Nodup) :
    ∃ s r, toolchain.registry file = some s ∧
      testHarnessRun tests (childOf tests forks) s ((testsOf file).length + 1) = .inr r ∧
      r.reports.map Prod.fst = testsOf file ∧
      (∀ p ∈ r.reports, p.2 = true ↔ forks p.1 = true ∧ (tests p.1).Passes) ∧
      (r.ret = 0 ↔ ∀ t ∈ testsOf file, forks t = true ∧ (tests t).Passes) ∧
      s.testCount = BitVec.ofNat 32 (testsOf file).length ∧
      r.count = BitVec.ofNat 32 (testsOf file).length ∧
      s.fixtureCount + 1 = BitVec.ofNat 32 (file.countP Item.isFixture + 1) ∧
      r.passCount = BitVec.ofNat 32 (r.reports.countP Prod.snd) := by
  obtain ⟨s, hs, hreg⟩ := exists_registry toolchain h
  have hrun := forEach_eq hreg.linked (harnessTurn tests (childOf tests forks)) ⟨0, 0, 0, []⟩
  rw [← hreg.list, foldl_harnessTurn] at hrun
  refine ⟨s, _, hs, hrun, ?_, ?_, ?_, hreg.count, ?_, ?_, ?_⟩
  · simp [Function.comp_def]
  · intro p hp
    obtain ⟨t, -, rfl⟩ : ∃ t ∈ testsOf file, _ = p := by simpa using hp
    simpa using runTest_childOf tests forks t
  · simp [← runTest_childOf]
  · simp
  · rw [hreg.fixtures, BitVec.ofNat_add]
    rfl
  · simp [Function.comp_def]

/-- A test that fails a check and then ends with the signal it waits for, and a test that waits for
`SIGABRT`. -/
def signalTests : Bool → TestMetadata
  | true => ⟨.test [.check false false, .signal 31], 31⟩
  | false => ⟨.test [.signal SIGABRT], SIGABRT⟩

/-- The first of them is reported as passed, and the second one is not. -/
theorem harness_verdict_signals : ∃ s r,
    Toolchain.forward.registry [.test true, .test false, .main] = some s ∧
      testHarnessRun signalTests (childOf signalTests fun _ => true) s 3 = .inr r ∧
      (∀ p ∈ r.reports, p.2 = p.1) ∧ r.ret ≠ 0 := by
  obtain ⟨s, r, hs, hr, -, hreports, hret, -⟩ := harness_verdict .forward
    [.test true, .test false, .main] signalTests (fun _ => true) (by decide)
  have hfirst : (signalTests true).Passes := ⟨by decide, rfl⟩
  have hsecond : ¬(signalTests false).Passes := fun h => h.1 rfl
  refine ⟨s, r, hs, hr, ?_, fun hzero => hsecond (hret.mp hzero false (by decide)).2⟩
  rintro ⟨t, ok⟩ hp
  rw [Bool.eq_iff_iff, hreports (t, ok) hp]
  cases t with
  | true => exact iff_of_true ⟨rfl, hfirst⟩ rfl
  | false => exact iff_of_false (fun h => hsecond h.2) Bool.false_ne_true

end BrilloBoot
