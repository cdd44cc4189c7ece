import BrilloBoot.MiscImage

/-!
# The tests of the A/B flow

`GenerateMiscImage` and `CompareMiscImage` of `bub_image_util.cc`, and the steps that the tests of
`bub_ab_flow_unittest.cc` are made of: `ab_init`, `test_ab_flow`, and an `EXPECT_TRUE` of a mark.
The comparison looks at every byte, so that a test passes exactly when each call returns what is
expected and leaves the image of the expected record (`runTest_iff`); for a row of `test_ab_flow`
these are the answers of the schedule and the planned records (`flow_test_passes_iff`).
-/

namespace BrilloBoot

open BubAbData

variable {Path : Type}

section

variable [DecidableEq Path] (ops : MyOps Path)

/-- `AbTest::GenerateMiscImage`. -/
def generateMiscImage (abMetadata : BubAbData) (files : Files Path) : Files Path :=
  writeFile (ops.append miscImg) (makeMetadataImage abMetadata) (some 64) files

/-- The fields that `CompareMiscImage` expects to be equal. -/
def expectEqual (abExpectedBe abActual : BubAbData) : Bool :=
  -- Check magic and version numbers.
  bubMemcmp abExpectedBe.toBytes.toList abActual.toBytes.toList 8 = 0 &&
  -- Check slots values.
  (abExpectedBe.slots 0).priority = (abActual.slots 0).priority &&
  (abExpectedBe.slots 0).triesRemaining = (abActual.slots 0).triesRemaining &&
  (abExpectedBe.slots 0).successfulBoot = (abActual.slots 0).successfulBoot &&
  bubMemcmp (abExpectedBe.slots 0).reserved.toList (abActual.slots 0).reserved.toList 7 = 0 &&
  (abExpectedBe.slots 1).priority = (abActual.slots 1).priority &&
  (abExpectedBe.slots 1).triesRemaining = (abActual.slots 1).triesRemaining &&
  (abExpectedBe.slots 1).successfulBoot = (abActual.slots 1).successfulBoot &&
  bubMemcmp (abExpectedBe.slots 1).reserved.toList (abActual.slots 1).reserved.toList 7 = 0 &&
  -- Check reserved and crc bytes.
  bubMemcmp abActual.reserved2.toList abExpectedBe.reserved2.toList 36 = 0 &&
  abExpectedBe.crc32 = abActual.crc32

/-- `AbTest::CompareMiscImage`: its value, and whether what it expects on the way holds. -/
def compareMiscImage (io : HostIo) (abExpected : BubAbData) (files : Files Path) : ℤ × Bool :=
  let abExpectedBe := { abExpected with crc32 := 0 }
  let abExpectedBe :=
    { abExpectedBe with crc32 := bubBe32toh (bubCrc32 0 abExpectedBe.toBytes.toList) }
  let (ioResult, buf) := (ops.bubOps io).readFromPartition miscPartition 0 64 files
  if ioResult ≠ .ok then (1, true)
  else if h : buf.length = 64 then (0, expectEqual abExpectedBe (.ofBytes ⟨buf, h⟩))
  else (1, true)

/-- A step of a test. -/
inductive TestStep
  /-- `test_ab_flow`: the expected record, result and suffix. -/
  | abFlow (abResult : BubAbData) (expectedResult : BubAbFlowResult) (expectedSuffix : List Byte)
  /-- `EXPECT_TRUE(bub_ab_mark_as_invalid(ops, suffix))`. -/
  | markAsInvalid (invalidSuffix : List Byte)

/-- What a step comes to: whether all that it expects holds, and the files. -/
def TestStep.run (io : HostIo) (step : TestStep) (files : Files Path) : Bool × Files Path :=
  match step with
  | .abFlow abResult expectedResult expectedSuffix =>
    let (result, suffix, files) := bubAbFlow (ops.bubOps io) [0, 0, 0] files
    let (compared, equal) := compareMiscImage ops io abResult files
    (result = expectedResult && bubMemcmp expectedSuffix suffix 3 = 0 && equal && compared = 0,
      files)
  | .markAsInvalid invalidSuffix =>
    let (value, files) := bubAbMarkAsInvalid (ops.bubOps io) invalidSuffix files
    (value ≠ 0, files)

/-- A test passes when all that its steps expect holds. -/
def runTest (io : HostIo) (steps : List TestStep) (files : Files Path) : Bool :=
  (Machine.run (TestStep.run ops io) steps files).1.all id

end

/-! ## The comparison -/

/-- `bub_memcmp` of two byte strings as a whole. -/
theorem bubMemcmp_toList_eq_zero_iff {n : ℕ} {b c : Bytes n} :
    bubMemcmp b.toList c.toList n = 0 ↔ b = c := by
  rw [bubMemcmp_eq_zero_iff (by simp) (by simp), List.take_of_length_le (by simp),
    List.take_of_length_le (by simp), Bytes.ext_iff]

/-- The first eight bytes of a record are those of the fields before the slots. -/
theorem take_toBytes (d : BubAbData) :
    d.toBytes.toList.take 8 =
      d.magic.toList ++ [d.majorVersion, d.minorVersion] ++ d.reserved1.toList := by
  have hbytes : d.toBytes.toList =
      d.magic.toList ++ [d.majorVersion, d.minorVersion] ++ d.reserved1.toList ++
        ((d.slots 0).toBytes.toList ++ ((d.slots 1).toBytes.toList ++ (d.reserved2.toList ++
          leBytes 4 d.crc32))) := by
    simp only [toBytes, body, List.append_assoc]
  rw [hbytes, List.take_left' (by simp)]

/-- The first eight bytes of two records agree when the fields before the slots do. -/
theorem bubMemcmp_toBytes_eq_zero_iff {d e : BubAbData} :
    bubMemcmp d.toBytes.toList e.toBytes.toList 8 = 0 ↔
      d.magic = e.magic ∧ d.majorVersion = e.majorVersion ∧ d.minorVersion = e.minorVersion ∧
        d.reserved1 = e.reserved1 := by
  rw [bubMemcmp_eq_zero_iff (by simp) (by simp), take_toBytes, take_toBytes]
  constructor
  · intro h
    obtain ⟨h, hreserved⟩ := List.append_inj h (by simp)
    obtain ⟨hmagic, hversion⟩ := List.append_inj h (by simp)
    simp only [List.cons.injEq, and_true] at hversion
    exact ⟨Bytes.ext hmagic, hversion.1, hversion.2, Bytes.ext hreserved⟩
  · rintro ⟨hmagic, hmajor, hminor, hreserved⟩
    rw [hmagic, hmajor, hminor, hreserved]

/-- `CompareMiscImage` expects all fields to be equal. -/
theorem expectEqual_iff {d e : BubAbData} : expectEqual d e = true ↔ d = e := by
  simp only [expectEqual, Bool.and_eq_true, decide_eq_true_eq, bubMemcmp_toBytes_eq_zero_iff,
    bubMemcmp_toList_eq_zero_iff]
  constructor
  · rintro ⟨⟨⟨⟨⟨⟨⟨⟨⟨⟨⟨hmagic, hmajor, hminor, hreserved1⟩, hpA⟩, htA⟩, hsA⟩, hrA⟩, hpB⟩, htB⟩, hsB⟩,
      hrB⟩, hreserved2⟩, hcrc⟩
    have hslots : d.slots = e.slots := by
      funext i
      fin_cases i
      · exact BubSlotData.ext hpA htA hsA hrA
      · exact BubSlotData.ext hpB htB hsB hrB
    exact BubAbData.ext hmagic hmajor hminor hreserved1 hslots hreserved2.symm hcrc
  · rintro rfl
    simp

section

variable [DecidableEq Path] (ops : MyOps Path) (files : Files Path) (rest : List Byte)

/-- The comparison passes exactly when the block is the image of the expected record. -/
theorem compareMiscImage_withMiscBlock (abExpected : BubAbData) (block : Bytes 64) :
    compareMiscImage ops (.upTo 64) abExpected (ops.withMiscBlock files rest block) =
      (0, decide (block = abExpected.image)) := by
  have hread := readFromPartition_withMiscBlock ops files rest (.upTo 64) block
  have hmisc : (miscOps (HostIo.upTo 64).misc).readFromPartition miscPartition 0 64 block =
      (.ok, block.toList) := by
    simp [miscOps, HostIo.misc, HostIo.upTo]
  have hequal : expectEqual { abExpected with crc32 := bubBe32toh abExpected.checksum }
      (.ofBytes block) = decide (block = abExpected.image) := by
    rw [Bool.eq_iff_iff, expectEqual_iff, decide_eq_true_iff]
    constructor
    · intro h
      rw [image, h, toBytes_ofBytes]
    · rintro rfl
      rw [image, ofBytes_toBytes]
  rw [hmisc] at hread
  simp only [compareMiscImage, bubCrc32_toBytes, MyOps.bubOps, hread]
  rw [if_neg (by simp), dif_pos block.length_toList, hequal]

/-! ## A test -/

/-- What a step expects of the metadata block. -/
def TestStep.expects (step : TestStep) (block : Bytes 64) : Prop :=
  match step with
  | .abFlow abResult expectedResult expectedSuffix =>
    (bubAbFlow (miscOps .success) [0, 0, 0] block).1 = expectedResult ∧
      bubMemcmp expectedSuffix (bubAbFlow (miscOps .success) [0, 0, 0] block).2.1 3 = 0 ∧
      (bubAbFlow (miscOps .success) [0, 0, 0] block).2.2 = abResult.image
  | .markAsInvalid invalidSuffix =>
    (bubAbMarkAsInvalid (miscOps .success) invalidSuffix block).1 ≠ 0

/-- The call of a step. -/
def TestStep.request : TestStep → Request
  | .abFlow _ _ _ => .abFlow [0, 0, 0]
  | .markAsInvalid invalidSuffix => .markAsInvalid invalidSuffix

/-- Every step of a test finds what it expects. -/
def Meets : List TestStep → Bytes 64 → Prop
  | [], _ => True
  | step :: steps, block =>
    step.expects block ∧ Meets steps (step.request.step (miscOps .success) block).2

/-- A step passes on the files exactly when the block is as it expects. -/
theorem TestStep.run_withMiscBlock (step : TestStep) (block : Bytes 64) :
    ((step.run ops (.upTo 64) (ops.withMiscBlock files rest block)).1 = true ↔
        step.expects block) ∧
      (step.run ops (.upTo 64) (ops.withMiscBlock files rest block)).2 =
        ops.withMiscBlock files rest (step.request.step (miscOps .success) block).2 := by
  have hserves : ServesAlike (ops.bubOps (.upTo 64)) (miscOps .success) (ops.Carries files rest)
      (ops.Carries files rest) :=
    servesAlike_host ops files rest ⟨.upTo 64, fun most h => (Option.some.inj h).le⟩
  cases step with
  | abFlow abResult expectedResult expectedSuffix =>
    obtain ⟨hresult, hsuffix, hfiles⟩ := hserves.flowsAlike (t := block) rfl [0, 0, 0]
    rw [MyOps.Carries] at hfiles
    simp only [run, hresult, hsuffix, hfiles, compareMiscImage_withMiscBlock, expects, request,
      Request.step]
    simp [and_assoc]
  | markAsInvalid invalidSuffix =>
    obtain ⟨hvalue, hfiles⟩ := hserves.marksAlike (t := block) rfl invalidSuffix
    rw [MyOps.Carries] at hfiles
    simp only [run, hvalue, hfiles, expects, request, Request.step]
    simp

/-- **A test passes exactly when every call returns what is expected and leaves the image of the
expected record.** -/
theorem runTest_iff (steps : List TestStep) (block : Bytes 64) :
    runTest ops (.upTo 64) steps (ops.withMiscBlock files rest block) = true ↔
      Meets steps block := by
  induction steps generalizing block with
  | nil => exact iff_of_true rfl trivial
  | cons step steps ih =>
    obtain ⟨hpasses, hfiles⟩ := step.run_withMiscBlock ops files rest block
    rw [runTest, Machine.run_cons_fst, List.all_cons, Bool.and_eq_true, id, hpasses, hfiles,
      ← runTest, ih, Meets]

end

/-! ## A row of `test_ab_flow` -/

/-- The checksum field does not matter to what is planned. -/
theorem image_planned_sealed (d : BubAbData) : d.sealed.planned.image = d.planned.image := by
  have hselected : d.sealed.selected = d.selected := rfl
  have hslots : d.sealed.planned.slots = d.planned.slots := by
    funext i
    rw [planned_slots, planned_slots, hselected, sealed_slots]
  apply image_eq_of_body_eq
  rw [← with_slots_planned d.sealed, ← with_slots_planned d, hslots]
  rfl

/-- The record after `k` calls of `bub_ab_flow`. -/
def plannedAfter (d : BubAbData) : ℕ → BubAbData
  | 0 => d
  | k + 1 => (plannedAfter d k).planned

/-- The records after further calls. -/
theorem plannedAfter_planned (d : BubAbData) (k : ℕ) :
    plannedAfter d.planned k = plannedAfter d (k + 1) := by
  induction k with
  | zero => rfl
  | succ k ih => rw [plannedAfter, ih, ← plannedAfter]

/-- A row of calls on the image of a record: the verdicts on the records after each call. -/
theorem run_bootStep_image {d : BubAbData} (hmagic : d.magic = bubBootCtrlMagic)
    (outs : List (List Byte)) :
    (Machine.run bootStep outs d.image).1 =
      outs.mapIdx fun k out => (plannedAfter d k).verdict out := by
  induction outs generalizing d with
  | nil => rfl
  | cons out outs ih =>
    have hstep : bootStep out d.image = (d.verdict out, d.planned.image) := by
      rw [bootStep, bubAbFlow_success (readBlock_image hmagic), image_planned_sealed]
      rfl
    rw [Machine.run_cons_fst, hstep, ih ((planned_magic d).trans hmagic), List.mapIdx_cons]
    simp only [plannedAfter_planned]
    rfl

/-- The verdict on the record after `k` calls is the answer of the schedule. -/
theorem verdict_plannedAfter {d : BubAbData} (hmagic : d.magic = bubBootCtrlMagic) (k : ℕ)
    (out : List Byte) : (plannedAfter d k).verdict out = answer out (d.bootSchedule k) := by
  have hrow := run_bootStep_image hmagic (List.replicate (k + 1) out)
  rw [run_bootStep (readBlock_image hmagic)] at hrow
  have hk := congrArg (fun answers => answers[k]?) hrow
  simpa using hk.symm

/-- What one `test_ab_flow` expects. The suffix is a string of two characters. -/
structure FlowExpectation where
  abResult : BubAbData
  expectedResult : BubAbFlowResult
  expectedSuffix : Bytes 3

/-- `test_ab_flow`. -/
def FlowExpectation.step (e : FlowExpectation) : TestStep :=
  .abFlow e.abResult e.expectedResult e.expectedSuffix.toList

/-- The expectation is the answer of the schedule to call `k`, and the record after it, but for its
checksum field. -/
structure FlowExpectation.Right (e : FlowExpectation) (d : BubAbData) (k : ℕ) : Prop where
  abResult : e.abResult.sealed = (plannedAfter d (k + 1)).sealed
  expectedResult : e.expectedResult = (answer [0, 0, 0] (d.bootSchedule k)).1
  expectedSuffix : e.expectedSuffix.toList = (answer [0, 0, 0] (d.bootSchedule k)).2

/-- One `test_ab_flow` on the image of a record. -/
theorem FlowExpectation.expects_image_iff (e : FlowExpectation) {d : BubAbData}
    (hmagic : d.magic = bubBootCtrlMagic) : e.step.expects d.image ↔ e.Right d 0 := by
  have hverdict : d.verdict [0, 0, 0] = answer [0, 0, 0] (d.bootSchedule 0) :=
    verdict_plannedAfter hmagic 0 [0, 0, 0]
  have hcall : bubAbFlow (miscOps .success) [0, 0, 0] d.image =
      ((answer [0, 0, 0] (d.bootSchedule 0)).1, (answer [0, 0, 0] (d.bootSchedule 0)).2,
        d.planned.image) := by
    rw [bubAbFlow_success (readBlock_image hmagic), image_planned_sealed, ← hverdict]
    rfl
  have hlength : (answer [0, 0, 0] (d.bootSchedule 0)).2.length = 3 := by
    cases d.bootSchedule 0 with
    | none => rfl
    | some i => fin_cases i <;> rfl
  rw [FlowExpectation.step, TestStep.expects, hcall, bubMemcmp_eq_zero_iff (by simp) hlength.ge,
    List.take_of_length_le (by simp), List.take_of_length_le hlength.le]
  constructor
  · rintro ⟨hresult, hsuffix, himage⟩
    exact ⟨image_inj.mp himage.symm, hresult.symm, hsuffix⟩
  · rintro ⟨hrecord, hresult, hsuffix⟩
    exact ⟨hresult.symm, hsuffix, (image_inj.mpr hrecord).symm⟩

/-- The expectations of later calls, seen from the record after the first. -/
theorem FlowExpectation.right_succ_iff (e : FlowExpectation) {d : BubAbData}
    (hmagic : d.magic = bubBootCtrlMagic) (k : ℕ) : e.Right d (k + 1) ↔ e.Right d.planned k := by
  have hanswer : answer [0, 0, 0] (d.bootSchedule (k + 1)) =
      answer [0, 0, 0] (d.planned.bootSchedule k) := by
    rw [← verdict_plannedAfter hmagic, ← verdict_plannedAfter ((planned_magic d).trans hmagic),
      plannedAfter_planned]
  constructor
  · rintro ⟨hrecord, hresult, hsuffix⟩
    rw [hanswer] at hresult hsuffix
    exact ⟨by rwa [plannedAfter_planned], hresult, hsuffix⟩
  · rintro ⟨hrecord, hresult, hsuffix⟩
    rw [← hanswer] at hresult hsuffix
    exact ⟨by rwa [plannedAfter_planned] at hrecord, hresult, hsuffix⟩

/-- A row of `test_ab_flow` on the image of a record. -/
theorem meets_flow_iff {d : BubAbData} (hmagic : d.magic = bubBootCtrlMagic)
    (expected : List FlowExpectation) :
    Meets (expected.map FlowExpectation.step) d.image ↔
      ∀ k (hk : k < expected.length), (expected.get ⟨k, hk⟩).Right d k := by
  induction expected generalizing d with
  | nil => exact iff_of_true trivial fun k hk => absurd hk (Nat.not_lt_zero k)
  | cons e expected ih =>
    have hleft : ((e.step.request.step (miscOps .success) d.image).2) = d.planned.image := by
      show (bubAbFlow (miscOps .success) [0, 0, 0] d.image).2.2 = _
      rw [bubAbFlow_success (readBlock_image hmagic), image_planned_sealed]
    rw [List.map_cons, Meets, e.expects_image_iff hmagic, hleft,
      ih ((planned_magic d).trans hmagic)]
    constructor
    · rintro ⟨hfirst, hrest⟩ k hk
      cases k with
      | zero => exact hfirst
      | succ k =>
        exact (FlowExpectation.right_succ_iff _ hmagic k).mpr (hrest k (Nat.lt_of_succ_lt_succ hk))
    · intro h
      refine ⟨h 0 (Nat.succ_pos _), fun k hk => ?_⟩
      exact (FlowExpectation.right_succ_iff _ hmagic k).mp (h (k + 1) (Nat.succ_lt_succ hk))

/-- **A row of `test_ab_flow` after `ab_init` passes exactly when its expectations are right**: the
results and the suffixes are those of the boot schedule, and the records those that the calls
leave. -/
theorem flow_test_passes_iff [DecidableEq Path] (ops : MyOps Path)
    (hmisc : ops.append miscImg = ops.imagePath miscPartition) (files : Files Path) {d : BubAbData}
    (hmagic : d.magic = bubBootCtrlMagic) (expected : List FlowExpectation) :
    runTest ops (.upTo 64) (expected.map FlowExpectation.step) (generateMiscImage ops d files)
        = true ↔
      ∀ k (hk : k < expected.length), (expected.get ⟨k, hk⟩).Right d k := by
  have hfiles : generateMiscImage ops d files = ops.withMiscBlock files [] d.image := by
    rw [generateMiscImage, writeFile, hmisc, makeMetadataImage_eq, MyOps.withMiscBlock,
      List.append_nil, List.take_of_length_le (by simp)]
  rw [hfiles, runTest_iff, meets_flow_iff hmagic]

/-- `SingleTryingSlot`: slot A has three tries, and one of them is charged. -/
theorem single_trying_slot_passes :
    runTest (.inDirectory []) (.upTo 64)
      (([⟨writeAbMetadata bubBootCtrlMagic 14 2 0 0 0 0, .ok, ⟨bubSuffixes 0, rfl⟩⟩] :
        List FlowExpectation).map FlowExpectation.step)
      (generateMiscImage (.inDirectory []) (writeAbMetadata bubBootCtrlMagic 14 3 0 0 0 0)
        fun _ => none) = true := by
  have hplanned : writeAbMetadata bubBootCtrlMagic 14 2 0 0 0 0 =
      plannedAfter (writeAbMetadata bubBootCtrlMagic 14 3 0 0 0 0) 1 :=
    BubAbData.ext rfl rfl rfl rfl (by funext i; fin_cases i <;> decide) rfl rfl
  have hanswer : answer [0, 0, 0] ((writeAbMetadata bubBootCtrlMagic 14 3 0 0 0 0).bootSchedule 0)
      = (.ok, bubSuffixes 0) := by decide
  refine (flow_test_passes_iff (.inDirectory []) rfl _ rfl _).mpr fun k hk => ?_
  obtain rfl : k = 0 := Nat.lt_one_iff.mp hk
  exact ⟨congrArg sealed hplanned, (congrArg Prod.fst hanswer).symm,
    (congrArg Prod.snd hanswer).symm⟩

end BrilloBoot
