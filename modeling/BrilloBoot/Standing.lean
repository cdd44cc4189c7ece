import BrilloBoot.Calls

/-!
# What a call hands out, and what calls take away

One call of `bub_ab_flow`, whatever becomes of its I/O, hands out a slot only after the block on
disk accounts for it, and hands out nothing when it fails
(`bubAbFlow_charges_before_handing_out`). Over runs of both functions the slots only lose standing
(`slots_only_lose_standing`): each step is related to the one before by `Weakens`, which composes.

Both results go through the cases of a call in `Calls.lean`. A call leaves the block alone, or
writes the image of a record whose slots are normalized and charged, or cleared; none of these gives
a slot standing (`Call.weakens_step`), and the block stays readable. A slot whose priority is zero
has no budget, and is not selected (`priority_ne_zero_of_handed_out`), so that a slot that has lost
its priority at one point of a run is not handed out at a later one.
-/

namespace BrilloBoot

open BubAbData

/-! ## The caller's buffer -/

/-- A cleared suffix is three zeros. -/
@[simp] theorem take_clearSuffix (out : List Byte) : (clearSuffix out).take 3 = [0, 0, 0] := rfl

/-- A suffix that was handed out is that of its slot. -/
@[simp] theorem take_copySuffix (out : List Byte) (i : Fin 2) :
    (copySuffix out (bubSuffixes i)).take 3 = bubSuffixes i := by
  fin_cases i <;> rfl

/-- A suffix names its slot. -/
theorem bubSuffixes_injective : Function.Injective bubSuffixes := by decide

/-- A cleared buffer names no slot. -/
theorem clearSuffix_ne_bubSuffixes (out : List Byte) (i : Fin 2) :
    (clearSuffix out).take 3 ≠ bubSuffixes i := by
  rw [take_clearSuffix]
  fin_cases i <;> decide

/-! ## One call of `bub_ab_flow` -/

/-- The record of the slot that is handed out: unchanged if it is good, and otherwise not
successful, and with one try fewer. -/
theorem planned_slots_of_selected {d : BubAbData} {i : Fin 2} (h : d.selected = some i) :
    ((d.planned.slots i).triesRemaining = 0#3 ∧ (d.planned.slots i).successfulBoot = 1#1) ∨
    ((d.planned.slots i).successfulBoot = 0#1 ∧
      (d.planned.slots i).triesRemaining.toNat + 1 = (d.slots i).triesRemaining.toNat) := by
  have hbudget := bootBudget_ne_zero_of_selected h
  rw [planned_slots, if_pos h]
  obtain ⟨-, htries, ⟨hgood, hnorm⟩ | ⟨hupdating, hsucc⟩⟩ :=
    BubSlotData.normalizeSlot_of_bootBudget_ne_zero hbudget
  · -- A good slot has no try to charge.
    rw [hnorm, BubSlotData.charged_of_good hgood]
    exact .inl ⟨hgood.2.1, hgood.2.2⟩
  · have hpos : (d.slots i).triesRemaining.toNat ≠ 0 := fun h0 =>
      hupdating.2 (BitVec.eq_of_toNat_eq h0)
    rw [BubSlotData.charged_successfulBoot, BubSlotData.charged_triesRemaining, htries]
    exact .inr ⟨hsucc, by omega⟩

/-- A slot is never handed out before its try is durably charged, and every error leaves no
selection, whatever the block holds and whatever becomes of the I/O of the call. -/
theorem bubAbFlow_charges_before_handing_out (b : Bytes 64) (io : MiscIo) (out : List Byte) :
    ∃ result out' b', bubAbFlow (miscOps io) out b = (result, out', b') ∧
      (result ≠ .ok → out'.take 3 = [0, 0, 0]) ∧
      (result = .errorReadMetadata ∨ result = .errorWriteMetadata → b' = b) ∧
      (result = .errorInvalidMetadata → b' = b ∨
        bubWriteAbDataToMisc (miscOps .success) resetAbData b = (1, b')) ∧
      (result = .ok → ∃ i d d', out'.take 3 = bubSuffixes i ∧
        bubReadAbDataFromMisc (miscOps .success) b = .ok d ∧
        bubReadAbDataFromMisc (miscOps .success) b' = .ok d' ∧
        (((d'.slots i).triesRemaining = 0#3 ∧ (d'.slots i).successfulBoot = 1#1) ∨
          ((d'.slots i).successfulBoot = 0#1 ∧
            (d'.slots i).triesRemaining.toNat + 1 = (d.slots i).triesRemaining.toNat))) := by
  simp only [bubReadAbDataFromMisc_miscOps, bubWriteAbDataToMisc_miscOps, MiscIo.success, if_true]
  rcases bubAbFlow_miscOps_cases io out b with
    ⟨-, h⟩ | ⟨-, -, h⟩ | ⟨-, -, -, -, -, h⟩ | ⟨d, -, hb, -, h⟩
  · exact ⟨_, _, _, h, by simp⟩
  · -- The reset is written, or the block stays as it was.
    refine ⟨_, _, _, h, by simp, by simp, ?_, by simp⟩
    cases io.write <;> simp
  · exact ⟨_, _, _, h, by simp⟩
  · -- The planned record is on disk, and the verdict is returned.
    cases hi : d.selected with
    | none => exact ⟨_, _, _, h, by simp [verdict, answer, hi]⟩
    | some i =>
      refine ⟨_, _, _, h, by simp [verdict, answer, hi], by simp [verdict, answer, hi],
        by simp [verdict, answer, hi], fun _ => ⟨i, d, d.planned.sealed, ?_, hb, ?_, ?_⟩⟩
      · simp [verdict, answer, hi]
      · exact readBlock_planned hb
      · exact planned_slots_of_selected hi

/-! ## Runs of calls -/

/-- A call gives no slot more standing. -/
theorem losesStanding_planned (d : BubAbData) (i : Fin 2) :
    (d.slots i).LosesStanding (d.planned.slots i) := by
  have hnorm := BubSlotData.losesStanding_normalizeSlot (d.slots i)
  rw [planned_slots]
  split_ifs
  · exact hnorm.trans (BubSlotData.losesStanding_charged _)
  · exact hnorm

/-- A mark gives no slot more standing. -/
theorem losesStanding_invalidated (d : BubAbData) (i j : Fin 2) :
    (d.slots j).LosesStanding ((d.invalidated i).slots j) := by
  by_cases hj : j = i
  · subst hj
    simpa [invalidated] using BubSlotData.losesStanding_zero (d.slots j)
  · simpa [invalidated, hj] using BubSlotData.LosesStanding.refl (d.slots j)

/-- If the first block is readable then so is the second, and no slot has gained standing. -/
def Weakens (b b' : Bytes 64) : Prop :=
  ∀ d, readBlock b = .ok d →
    ∃ d', readBlock b' = .ok d' ∧ ∀ i, (d.slots i).LosesStanding (d'.slots i)

/-- A block has no more standing than itself. -/
theorem Weakens.refl (b : Bytes 64) : Weakens b b := fun d hd => ⟨d, hd, fun _ => .refl _⟩

/-- Losses of standing add up, block by block. -/
theorem Weakens.trans {b₁ b₂ b₃ : Bytes 64} (h₁ : Weakens b₁ b₂) (h₂ : Weakens b₂ b₃) :
    Weakens b₁ b₃ := by
  intro d hd
  obtain ⟨d', hd', hstand⟩ := h₁ d hd
  obtain ⟨d'', hd'', hstand'⟩ := h₂ d' hd'
  exact ⟨d'', hd'', fun i => (hstand i).trans (hstand' i)⟩

/-- A block that holds a record with the right magic and less standing. -/
theorem weakens_image {b : Bytes 64} {d e : BubAbData} (hb : readBlock b = .ok d)
    (hmagic : e.magic = d.magic) (hstand : ∀ i, (d.slots i).LosesStanding (e.slots i)) :
    Weakens b e.image := by
  intro d' hd'
  rw [hb, Except.ok.injEq] at hd'
  subst hd'
  exact ⟨e.sealed, readBlock_image (hmagic.trans (magic_of_readBlock hb)), hstand⟩

/-- One call of either function only takes standing away from the slots of a readable block. -/
theorem Call.weakens_step (call : Call) (b : Bytes 64) (hb : ∃ d, readBlock b = .ok d) :
    Weakens b (call.step b).2 := by
  cases call with
  | abFlow out io =>
    simp only [Call.step]
    rcases bubAbFlow_miscOps_cases io out b with
      ⟨-, h⟩ | ⟨-, hbad, -⟩ | ⟨-, -, -, -, -, h⟩ | ⟨d, -, hd, -, h⟩
    · simpa [h] using .refl b
    · obtain ⟨d, hd⟩ := hb
      exact absurd hd (readBlock_eq_error_iff.mp hbad d)
    · simpa [h] using .refl b
    · rw [h]
      exact weakens_image hd (planned_magic d) (losesStanding_planned d)
  | markAsInvalid suffix io =>
    simp only [Call.step]
    rcases bubAbMarkAsInvalid_miscOps_cases io suffix b with
      ⟨-, h⟩ | ⟨-, -, h⟩ | ⟨-, -, -, -, h⟩ | ⟨d, i, -, hd, -, -, h⟩
    · simpa [h] using .refl b
    · simpa [h] using .refl b
    · simpa [h] using .refl b
    · rw [h]
      exact weakens_image hd (invalidated_magic d i) (losesStanding_invalidated d i)

/-- A call keeps a readable block readable. -/
theorem Call.readable_step (call : Call) (b : Bytes 64) (hb : ∃ d, readBlock b = .ok d) :
    ∃ d, readBlock (call.step b).2 = .ok d := by
  obtain ⟨d, hd⟩ := hb
  obtain ⟨d', hd', -⟩ := call.weakens_step b ⟨d, hd⟩ d hd
  exact ⟨d', hd'⟩

/-- Neither function reports a readable block as invalid. -/
def Returned.Valid : Returned → Prop
  | .abFlow result _ => result ≠ .errorInvalidMetadata
  | .markAsInvalid value => value ≠ BubAbFlowResult.errorInvalidMetadata.toInt

/-- On a readable block, no call reports invalid metadata. -/
theorem Call.valid_step (call : Call) (b : Bytes 64) (hb : ∃ d, readBlock b = .ok d) :
    (call.step b).1.Valid := by
  obtain ⟨d, hd⟩ := hb
  cases call with
  | abFlow out io =>
    simp only [Call.step, Returned.Valid]
    rcases bubAbFlow_miscOps_cases io out b with
      ⟨-, h⟩ | ⟨-, hbad, -⟩ | ⟨-, -, -, -, -, h⟩ | ⟨e, -, -, -, h⟩
    · simp [h]
    · exact absurd hd (readBlock_eq_error_iff.mp hbad d)
    · simp [h]
    · cases hi : e.selected <;> simp [h, verdict, answer, hi]
  | markAsInvalid suffix io =>
    simp only [Call.step, Returned.Valid]
    rcases bubAbMarkAsInvalid_miscOps_cases io suffix b with
      ⟨-, h⟩ | ⟨-, hbad, -⟩ | ⟨-, -, -, -, h⟩ | ⟨_, _, -, -, -, -, h⟩
    · simp [h, BubAbFlowResult.toInt]
    · exact absurd hd (readBlock_eq_error_iff.mp hbad d)
    · simp [h, BubAbFlowResult.toInt]
    · simp [h, BubAbFlowResult.toInt]

/-- A slot that is handed out has a positive priority on disk. -/
theorem priority_ne_zero_of_handed_out {b : Bytes 64} {d : BubAbData} (hd : readBlock b = .ok d)
    {io : MiscIo} {out : List Byte} {i : Fin 2}
    (hi : (bubAbFlow (miscOps io) out b).2.1.take 3 = bubSuffixes i) :
    (d.slots i).priority ≠ 0#4 := by
  rcases bubAbFlow_miscOps_cases io out b with
    ⟨-, h⟩ | ⟨-, -, h⟩ | ⟨-, -, -, -, -, h⟩ | ⟨e, -, he, -, h⟩ <;> rw [h] at hi
  · exact absurd hi (clearSuffix_ne_bubSuffixes out i)
  · exact absurd hi (clearSuffix_ne_bubSuffixes out i)
  · exact absurd hi (clearSuffix_ne_bubSuffixes out i)
  · rw [hd, Except.ok.injEq] at he
    subst he
    unfold verdict at hi
    cases hsel : d.selected with
    | none =>
      rw [hsel] at hi
      exact absurd hi (clearSuffix_ne_bubSuffixes out i)
    | some j =>
      rw [hsel, answer, take_copySuffix, bubSuffixes_injective.eq_iff] at hi
      subst hi
      intro hp
      apply bootBudget_ne_zero_of_selected hsel
      exact BubSlotData.bootBudget_of_priority_eq_zero hp

/-- Slots only ever lose standing. In every run of calls that starts from a readable block, from
any point of it, after `before`, to any later point, after `between`: the block is readable; each
slot's priority is as it was or zero, its tries have not grown, and it has not become successful; no
call so far has reported invalid metadata; and the next call of `bub_ab_flow` does not hand out a
slot whose priority was zero at the earlier point. -/
theorem slots_only_lose_standing {b : Bytes 64} {d : BubAbData}
    (h : bubReadAbDataFromMisc (miscOps .success) b = .ok d) (before between : List Call) :
    ∃ d₁ d₂, bubReadAbDataFromMisc (miscOps .success) (Machine.run Call.step before b).2 = .ok d₁ ∧
      bubReadAbDataFromMisc (miscOps .success)
        (Machine.run Call.step (before ++ between) b).2 = .ok d₂ ∧
      (∀ i, ((d₂.slots i).priority = (d₁.slots i).priority ∨ (d₂.slots i).priority = 0#4) ∧
        (d₂.slots i).triesRemaining.toNat ≤ (d₁.slots i).triesRemaining.toNat ∧
        ((d₂.slots i).successfulBoot = 1#1 → (d₁.slots i).successfulBoot = 1#1)) ∧
      (∀ out, .abFlow .errorInvalidMetadata out ∉
        (Machine.run Call.step (before ++ between) b).1) ∧
      .markAsInvalid BubAbFlowResult.errorInvalidMetadata.toInt ∉
        (Machine.run Call.step (before ++ between) b).1 ∧
      ∀ io out i, (d₁.slots i).priority = 0#4 →
        (bubAbFlow (miscOps io) out (Machine.run Call.step (before ++ between) b).2).2.1.take 3 ≠
          bubSuffixes i := by
  simp only [bubReadAbDataFromMisc_miscOps, MiscIo.success, if_true] at h ⊢
  -- The invariant is that the block is readable; under it every step only weakens the block.
  have hweak (calls : List Call) (b : Bytes 64) (hb : ∃ d, readBlock b = .ok d) :
      Weakens b (Machine.run Call.step calls b).2 :=
    Machine.run_related Call.readable_step (fun b _ => .refl b) (fun _ _ _ => .trans)
      Call.weakens_step hb
  have hvalid : ∀ r ∈ (Machine.run Call.step (before ++ between) b).1, r.Valid :=
    Machine.run_outputs Call.readable_step Call.valid_step ⟨d, h⟩
  obtain ⟨d₁, hd₁, -⟩ := hweak before b ⟨d, h⟩ d h
  obtain ⟨d₂, hd₂, hstand⟩ := hweak between _ ⟨d₁, hd₁⟩ d₁ hd₁
  rw [← Machine.run_append_snd] at hd₂
  refine ⟨d₁, d₂, hd₁, hd₂, hstand, fun out hmem => hvalid _ hmem rfl,
    fun hmem => hvalid _ hmem rfl, fun io out i hzero hout => ?_⟩
  -- A priority of zero stays zero up to the later point.
  apply priority_ne_zero_of_handed_out hd₂ hout
  rcases (hstand i).1 with hp | hp
  · rw [hp, hzero]
  · exact hp

/-- Slot A of the reset block, once marked as invalid, is not handed out after another call. -/
theorem slots_only_lose_standing_reset :
    ∃ d₁, bubReadAbDataFromMisc (miscOps .success)
        (Machine.run Call.step [.markAsInvalid (bubSuffixes 0) .success] resetAbData.image).2 =
        .ok d₁ ∧
      ((d₁.slots 0).priority = 0#4 →
        (bubAbFlow (miscOps .success) [] (Machine.run Call.step
          ([.markAsInvalid (bubSuffixes 0) .success] ++ [.abFlow [] .success])
          resetAbData.image).2).2.1.take 3 ≠ bubSuffixes 0) := by
  obtain ⟨d₁, _, h₁, -, -, -, -, hnot⟩ := slots_only_lose_standing
    (bubReadAbDataFromMisc_image (show resetAbData.magic = bubBootCtrlMagic from rfl))
    [.markAsInvalid (bubSuffixes 0) .success] [.abFlow [] .success]
  exact ⟨d₁, h₁, hnot .success [] 0⟩

end BrilloBoot
