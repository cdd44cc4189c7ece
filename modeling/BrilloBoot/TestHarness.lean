import BrilloBoot.Lib.LinkedList
import Mathlib.Data.Nat.Notation

/-!
# The test harness of the seccomp tests

`test_harness.h` of `pts/seccomp`. Every test registers itself in a constructor, and toolchains run
the constructors of a file from its start or from its end; the list of the tests is in source order
for both (`registers_in_source_order`).
-/

namespace BrilloBoot

open LinkedList

/-! ## Registration -/

/-- The variables of `test_harness.h`, and the links of the tests. -/
structure Registry (α : Type*) where
  testList : Option α
  /-- An `unsigned int`. -/
  testCount : BitVec 32
  fixtureCount : BitVec 32
  constructorOrder : ℤ
  next : α → Option α
  prev : α → Option α

/-- Before the constructors, everything is zero. -/
def Registry.start (α : Type*) : Registry α := ⟨none, 0, 0, 0, fun _ => none, fun _ => none⟩

/-- `_CONSTRUCTOR_ORDER_FORWARD`. -/
def constructorOrderForward : ℤ := 1

/-- `_CONSTRUCTOR_ORDER_BACKWARD`. -/
def constructorOrderBackward : ℤ := -1

section

variable {α : Type*}

/-- `__constructor_order_first`, at the end of the header: before the items of a file that includes
it. -/
def constructorOrderFirst (s : Registry α) : Registry α :=
  if s.constructorOrder = 0 then { s with constructorOrder := constructorOrderForward } else s

/-- `__constructor_order_last`, where `TEST_HARNESS_MAIN` is. -/
def constructorOrderLast (s : Registry α) : Registry α :=
  if s.constructorOrder = 0 then { s with constructorOrder := constructorOrderBackward } else s

/-- What a test file says, with a constructor for each: `FIXTURE`, `TEST` or `TEST_F`, and
`TEST_HARNESS_MAIN`. -/
inductive Item (α : Type*)
  | fixture
  | test (t : α)
  | main

/-- The test of an item. -/
def Item.test? : Item α → Option α
  | .test t => some t
  | _ => none

/-- The item is a fixture. -/
def Item.isFixture : Item α → Bool
  | .fixture => true
  | _ => false

/-- The tests of a file, in source order. -/
def testsOf (file : List (Item α)) : List α := file.filterMap Item.test?

variable [DecidableEq α]

/-- `__register_test`. There is no result when a null pointer is followed. -/
def registerTest (t : α) (s : Registry α) : Option (Registry α) :=
  let s := { s with testCount := s.testCount + 1 }
  match s.testList with
  | none => some { s with
      testList := some t
      next := Function.update s.next t none
      prev := Function.update s.prev t (some t) }
  | some head =>
    if s.constructorOrder = constructorOrderForward then
      let next := Function.update s.next t none
      let prev := Function.update s.prev t (s.prev head)
      (prev t).map fun last => { s with
        next := Function.update next last (some t)
        prev := Function.update prev head (some t) }
    else
      -- The new head points back to itself.
      let next := Function.update s.next t (some head)
      let prev := Function.update s.prev head (some t)
      some { s with testList := some t, next, prev := Function.update prev t (some t) }

/-- The constructor of an item. -/
def Item.construct : Item α → Registry α → Option (Registry α)
  | .fixture, s => some { s with fixtureCount := s.fixtureCount + 1 }
  | .test t, s => registerTest t s
  | .main, s => some (constructorOrderLast s)

/-- Constructors in a row. -/
def constructAll (items : List (Item α)) (s : Registry α) : Option (Registry α) :=
  items.foldlM (fun s item => item.construct s) s

/-- The order in which a toolchain runs the constructors of a file. -/
inductive Toolchain
  | forward
  | backward
deriving DecidableEq

/-- What the constructors of a file leave, the header's among them. -/
def Toolchain.registry (toolchain : Toolchain) (file : List (Item α)) : Option (Registry α) :=
  match toolchain with
  | .forward => constructAll file (constructorOrderFirst (.start α))
  | .backward => (constructAll file.reverse (.start α)).map constructorOrderFirst

end

/-! ## Source order -/

section

variable {α : Type*} {s : Registry α} {tests : List α} {toolchain : Toolchain}

/-- Where the first test points back to. -/
def Toolchain.back (toolchain : Toolchain) (tests : List α) : Option α :=
  match toolchain with
  | .forward => tests.getLast?
  | .backward => tests.head?

/-- The constructors have registered these tests, in this order. -/
structure Registered (toolchain : Toolchain) (s : Registry α) (tests : List α) : Prop where
  -- The test of `__register_test` tells the toolchains apart, also before the order is known.
  order : s.constructorOrder = constructorOrderForward ↔ toolchain = .forward
  list : s.testList = tests.head?
  count : s.testCount = BitVec.ofNat 32 tests.length
  linked : Linked s.next s.prev tests
  back : ∀ head ∈ tests.head?, s.prev head = toolchain.back tests

/-- The tests with a further one, where the toolchain puts it. -/
def Toolchain.insert (toolchain : Toolchain) (t : α) (tests : List α) : List α :=
  match toolchain with
  | .forward => tests ++ [t]
  | .backward => t :: tests

/-- A test that is inserted is listed, and no other one is lost. -/
theorem Toolchain.mem_insert {x t : α} : x ∈ toolchain.insert t tests ↔ x = t ∨ x ∈ tests := by
  cases toolchain with
  | forward => rw [Toolchain.insert, List.mem_append, List.mem_singleton, or_comm]
  | backward => exact List.mem_cons

/-- The tests with those of further items, each where the toolchain puts it. -/
def Toolchain.insertAll (toolchain : Toolchain) (items : List (Item α)) (tests : List α) : List α :=
  (testsOf items).foldl (fun tests t => toolchain.insert t tests) tests

/-- Constructors that run forward list the tests in order. -/
theorem Toolchain.insertAll_forward (items : List (Item α)) (tests : List α) :
    Toolchain.forward.insertAll items tests = tests ++ testsOf items := by
  unfold Toolchain.insertAll
  generalize testsOf items = new
  induction new generalizing tests with
  | nil => exact (List.append_nil tests).symm
  | cons t new ih =>
    rw [List.foldl_cons, ih]
    exact List.append_assoc tests [t] new

/-- Constructors that run backward list them from the end. -/
theorem Toolchain.insertAll_backward (items : List (Item α)) (tests : List α) :
    Toolchain.backward.insertAll items tests = (testsOf items).reverse ++ tests := by
  unfold Toolchain.insertAll
  generalize testsOf items = new
  induction new generalizing tests with
  | nil => rfl
  | cons t new ih =>
    rw [List.foldl_cons, ih, List.reverse_cons, List.append_assoc]
    rfl

/-- Before the constructors, no test is registered. -/
theorem registered_start : Registered .backward (.start α) [] :=
  ⟨iff_of_false (show (0 : ℤ) ≠ 1 by decide) (by decide), rfl, rfl, linked_nil _ _, by simp⟩

/-- A constructor that runs first finds no test. -/
theorem registered_constructorOrderFirst :
    Registered .forward (constructorOrderFirst (.start α)) [] :=
  ⟨iff_of_true rfl rfl, rfl, rfl, linked_nil _ _, by simp⟩

/-- `TEST_HARNESS_MAIN` changes nothing but the order it has seen. -/
theorem Registered.constructorOrderLast (h : Registered toolchain s tests) :
    Registered toolchain (constructorOrderLast s) tests := by
  unfold BrilloBoot.constructorOrderLast
  split
  · next hzero =>
    have hback : toolchain ≠ .forward := by
      intro heq
      rw [h.order.mpr heq] at hzero
      exact absurd hzero (by decide)
    exact ⟨iff_of_false (show constructorOrderBackward ≠ constructorOrderForward by decide) hback,
      h.list, h.count, h.linked, h.back⟩
  · exact h

variable [DecidableEq α] {t : α}

/-- The first test of a list that is empty. -/
theorem Registered.registerTest_nil (h : Registered toolchain s []) :
    ∃ s', BrilloBoot.registerTest t s = some s' ∧ Registered toolchain s' [t] := by
  have hlist : s.testList = none := h.list
  have hstep : BrilloBoot.registerTest t s = some { s with
      testCount := s.testCount + 1, testList := some t
      next := Function.update s.next t none
      prev := Function.update s.prev t (some t) } := by
    simp only [BrilloBoot.registerTest, hlist]
  refine ⟨_, hstep, h.order, rfl, ?_, ?_, ?_⟩
  · simp [h.count]
  · exact linked_singleton _ _ t
  · intro head hhead
    obtain rfl : t = head := by simpa using hhead
    cases toolchain <;> exact Function.update_self _ _ _

/-- A toolchain that runs the constructors from the start adds a test behind the others. -/
theorem Registered.registerTest_forward (h : Registered .forward s tests) (ht : t ∉ tests)
    (hne : tests ≠ []) :
    ∃ s', BrilloBoot.registerTest t s = some s' ∧ Registered .forward s' (tests ++ [t]) := by
  obtain ⟨head, rest, rfl⟩ := List.exists_cons_of_ne_nil hne
  have horder : s.constructorOrder = constructorOrderForward := h.order.mpr rfl
  have hlist : s.testList = some head := h.list
  have hth : t ≠ head := fun heq => ht (heq ▸ List.mem_cons_self)
  -- The first test points back to the last one, which is therefore found at once.
  obtain ⟨last, hlast⟩ : ∃ last, (head :: rest).getLast? = some last :=
    ⟨_, List.getLast?_eq_some_getLast (List.cons_ne_nil head rest)⟩
  have hback : s.prev head = some last := (h.back head rfl).trans hlast
  have hstep : BrilloBoot.registerTest t s = some { s with
      testCount := s.testCount + 1
      next := Function.update (Function.update s.next t none) last (some t)
      prev := Function.update (Function.update s.prev t (some last)) head (some t) } := by
    simp only [BrilloBoot.registerTest, hlist, if_pos horder, Function.update_self, hback,
      Option.map_some]
  refine ⟨_, hstep, iff_of_true horder rfl, hlist, ?_, ?_, ?_⟩
  · simp [h.count, BitVec.ofNat_add]
  · refine h.linked.append ht hlast ?_ ?_
    · show Function.update (Function.update s.prev t (some last)) head (some t) t = some last
      rw [Function.update_of_ne hth, Function.update_self]
    · intro x hx
      have hxh : x ≠ head := fun heq => (List.nodup_cons.mp h.linked.nodup).1 (heq ▸ hx)
      have hxt : x ≠ t := fun heq => ht (heq ▸ List.mem_cons_of_mem head hx)
      show Function.update (Function.update s.prev t (some last)) head (some t) x = s.prev x
      rw [Function.update_of_ne hxh, Function.update_of_ne hxt]
  · intro x hx
    obtain rfl : head = x := by simpa using hx
    show Function.update (Function.update s.prev t (some last)) head (some t) head = _
    rw [Function.update_self, Toolchain.back, List.getLast?_concat]

/-- A toolchain that runs the constructors from the end adds a test before the others. -/
theorem Registered.registerTest_backward (h : Registered .backward s tests) (ht : t ∉ tests)
    (hne : tests ≠ []) :
    ∃ s', BrilloBoot.registerTest t s = some s' ∧ Registered .backward s' (t :: tests) := by
  obtain ⟨head, rest, rfl⟩ := List.exists_cons_of_ne_nil hne
  have horder : s.constructorOrder ≠ constructorOrderForward := mt h.order.mp (by decide)
  have hlist : s.testList = some head := h.list
  have hth : t ≠ head := fun heq => ht (heq ▸ List.mem_cons_self)
  have hstep : BrilloBoot.registerTest t s = some { s with
      testCount := s.testCount + 1, testList := some t
      next := Function.update s.next t (some head)
      prev := Function.update (Function.update s.prev head (some t)) t (some t) } := by
    simp only [BrilloBoot.registerTest, hlist, if_neg horder]
  refine ⟨_, hstep, iff_of_false horder (by decide), rfl, ?_, ?_, ?_⟩
  · simp [h.count, BitVec.ofNat_add]
  · refine h.linked.prepend ht ?_ ?_
    · show Function.update (Function.update s.prev head (some t)) t (some t) head = some t
      rw [Function.update_of_ne hth.symm, Function.update_self]
    · intro x hx
      have hxh : x ≠ head := fun heq => (List.nodup_cons.mp h.linked.nodup).1 (heq ▸ hx)
      have hxt : x ≠ t := fun heq => ht (heq ▸ List.mem_cons_of_mem head hx)
      show Function.update (Function.update s.prev head (some t)) t (some t) x = s.prev x
      rw [Function.update_of_ne hxt, Function.update_of_ne hxh]
  · intro x hx
    obtain rfl : t = x := by simpa using hx
    exact Function.update_self _ _ _

/-- **Registering a test** puts it where the toolchain needs it. -/
theorem Registered.registerTest (h : Registered toolchain s tests) (ht : t ∉ tests) :
    ∃ s', BrilloBoot.registerTest t s = some s' ∧
      Registered toolchain s' (toolchain.insert t tests) := by
  by_cases hne : tests = []
  · subst hne
    have hinsert : toolchain.insert t [] = [t] := by cases toolchain <;> rfl
    rw [hinsert]
    exact h.registerTest_nil
  · cases toolchain with
    | forward => exact h.registerTest_forward ht hne
    | backward => exact h.registerTest_backward ht hne

/-- Registering a test leaves the number of the fixtures. -/
theorem registerTest_fixtureCount {s' : Registry α} (h : registerTest t s = some s') :
    s'.fixtureCount = s.fixtureCount := by
  unfold registerTest at h
  dsimp only at h
  split at h
  · rw [← Option.some.inj h]
  · split at h
    · obtain ⟨last, -, rfl⟩ := Option.map_eq_some_iff.mp h
      rfl
    · rw [← Option.some.inj h]

/-- **The constructors in a row** register their tests one after the other. -/
theorem Registered.constructAll (items : List (Item α)) (h : Registered toolchain s tests)
    (hnew : (testsOf items).Nodup) (hfresh : ∀ t ∈ testsOf items, t ∉ tests) :
    ∃ s', constructAll items s = some s' ∧
      Registered toolchain s' (toolchain.insertAll items tests) ∧
      s'.fixtureCount = s.fixtureCount + BitVec.ofNat 32 (items.countP Item.isFixture) := by
  induction items generalizing s tests with
  | nil => exact ⟨s, rfl, h, by simp⟩
  | cons item items ih =>
    -- One constructor: it counts a fixture, links in a test, or is that of the main function.
    cases item with
    | fixture =>
      have hfixture : Registered toolchain { s with fixtureCount := s.fixtureCount + 1 } tests :=
        ⟨h.order, h.list, h.count, h.linked, h.back⟩
      obtain ⟨s', hs', hreg, hcount⟩ := ih hfixture hnew hfresh
      refine ⟨s', hs', hreg, hcount.trans ?_⟩
      rw [List.countP_cons_of_pos rfl, Nat.add_comm, BitVec.ofNat_add, BitVec.add_assoc]
      rfl
    | test t =>
      have ht : t ∉ testsOf items := (List.nodup_cons.mp hnew).1
      obtain ⟨s₁, hs₁, hreg₁⟩ := h.registerTest (hfresh t List.mem_cons_self)
      have hfresh₁ : ∀ x ∈ testsOf items, x ∉ toolchain.insert t tests := by
        intro x hx hmem
        obtain rfl | hmem := Toolchain.mem_insert.mp hmem
        · exact ht hx
        · exact hfresh x (List.mem_cons_of_mem t hx) hmem
      obtain ⟨s', hs', hreg, hcount⟩ := ih hreg₁ (List.nodup_cons.mp hnew).2 hfresh₁
      refine ⟨s', ?_, hreg, ?_⟩
      · rw [← hs']
        show (BrilloBoot.registerTest t s).bind _ = _
        rw [hs₁]
        rfl
      · rw [hcount, registerTest_fixtureCount hs₁,
          List.countP_cons_of_neg (by simp [Item.isFixture])]
    | main =>
      obtain ⟨s', hs', hreg, hcount⟩ := ih h.constructorOrderLast hnew hfresh
      have hfixtures : (BrilloBoot.constructorOrderLast s).fixtureCount = s.fixtureCount := by
        unfold BrilloBoot.constructorOrderLast
        split <;> rfl
      refine ⟨s', hs', hreg, ?_⟩
      rw [hcount, hfixtures, List.countP_cons_of_neg (by simp [Item.isFixture])]

/-- The registry of a file. -/
structure InSourceOrder (toolchain : Toolchain) (file : List (Item α)) (s : Registry α) :
    Prop where
  list : s.testList = (testsOf file).head?
  linked : Linked s.next s.prev (testsOf file)
  back : ∀ head ∈ (testsOf file).head?, s.prev head = toolchain.back (testsOf file)
  count : s.testCount = BitVec.ofNat 32 (testsOf file).length
  fixtures : s.fixtureCount = BitVec.ofNat 32 (file.countP Item.isFixture)

/-- Registration ends with the tests in source order. -/
theorem exists_registry (toolchain : Toolchain) {file : List (Item α)} (h : (testsOf file).Nodup) :
    ∃ s, toolchain.registry file = some s ∧ InSourceOrder toolchain file s := by
  cases toolchain with
  | forward =>
    obtain ⟨s, hs, hreg, hfixtures⟩ :=
      registered_constructorOrderFirst.constructAll file h (by simp)
    rw [Toolchain.insertAll_forward, List.nil_append] at hreg
    exact ⟨s, hs, hreg.list, hreg.linked, hreg.back, hreg.count, hfixtures.trans (by simp; rfl)⟩
  | backward =>
    have hrev : testsOf file.reverse = (testsOf file).reverse := List.filterMap_reverse
    have hnodup : (testsOf file.reverse).Nodup := by
      rw [hrev]
      exact List.pairwise_reverse.mpr (h.imp Ne.symm)
    obtain ⟨s, hs, hreg, hfixtures⟩ := registered_start.constructAll file.reverse hnodup (by simp)
    rw [Toolchain.insertAll_backward, hrev, List.reverse_reverse, List.append_nil] at hreg
    refine ⟨constructorOrderFirst s, by rw [Toolchain.registry, hs]; rfl, ?_⟩
    unfold constructorOrderFirst
    split <;>
      exact ⟨hreg.list, hreg.linked, hreg.back, hreg.count, hfixtures.trans (by simp; rfl)⟩

end

/-- The first is the last exactly when there is at most one. -/
theorem head?_eq_getLast? {xs : List α} (hnodup : xs.Nodup) :
    xs.head? = xs.getLast? ↔ xs.length ≤ 1 := by
  cases xs with
  | nil => simp
  | cons x xs =>
    cases xs with
    | nil => simp
    | cons y ys =>
      -- The last test is another one than the first.
      have hlast : (x :: y :: ys).getLast? ≠ some x := by
        rw [List.getLast?_cons_cons]
        exact fun heq => (List.nodup_cons.mp hnodup).1 (List.mem_of_getLast? heq)
      exact iff_of_false (fun heq => hlast heq.symm) (by simp)

/-- **The tests are listed in source order**, whichever way the toolchain runs the constructors and
wherever `TEST_HARNESS_MAIN` stands, and no null pointer is followed on the way. The list is closed
to a ring by its first `prev`, as the source says, only if the constructors run from the start (or
there is one test at most). -/
theorem registers_in_source_order {α : Type*} [DecidableEq α] (toolchain : Toolchain)
    (file : List (Item α)) (h : (testsOf file).Nodup) :
    ∃ s, toolchain.registry file = some s ∧
      s.testList = (testsOf file).head? ∧ Linked s.next s.prev (testsOf file) ∧
      s.testCount = BitVec.ofNat 32 (testsOf file).length ∧
      s.fixtureCount = BitVec.ofNat 32 (file.countP Item.isFixture) ∧
      (Closed s.prev (testsOf file) ↔ toolchain = .forward ∨ (testsOf file).length ≤ 1) := by
  obtain ⟨s, hs, hreg⟩ := exists_registry toolchain h
  refine ⟨s, hs, hreg.list, hreg.linked, hreg.count, hreg.fixtures, ?_⟩
  rcases htests : testsOf file with _ | ⟨head, rest⟩
  · simp [Closed]
  · have hback : s.prev head = toolchain.back (testsOf file) := hreg.back head (by simp [htests])
    have hclosed : Closed s.prev (head :: rest) ↔
        toolchain.back (head :: rest) = (head :: rest).getLast? := by
      simp [Closed, hback, htests]
    rw [hclosed, ← htests]
    cases toolchain with
    | forward => simp [Toolchain.back]
    | backward => simp [Toolchain.back, head?_eq_getLast? h]

/-- Two tests are no ring where the constructors run from the end. -/
theorem registers_backward : ∃ s,
    Toolchain.backward.registry [.fixture, .test 1, .test 2, .main] = some s ∧
      s.testList = some 1 ∧ Linked s.next s.prev [1, 2] ∧ ¬Closed s.prev [1, 2] := by
  obtain ⟨s, hs, hlist, hlinked, -, -, hclosed⟩ :=
    registers_in_source_order .backward [.fixture, .test 1, .test 2, .main] (by decide)
  exact ⟨s, hs, hlist, hlinked, fun hring => absurd (hclosed.mp hring) (by decide)⟩

end BrilloBoot
