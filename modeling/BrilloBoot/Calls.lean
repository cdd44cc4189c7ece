import BrilloBoot.Lib.Machine
import BrilloBoot.Metadata
import BrilloBoot.Slots

/-!
# What one call does

`bub_ab_flow` on a readable record `d` computes the record `planned d`, writes it if it is new, and
answers `verdict d`; `bub_ab_mark_as_invalid` writes the record with one slot cleared. Over the
`misc` partition alone this gives the block that each call leaves for every outcome of its I/O, and
the runs of calls that the rest of the development is about.
-/

namespace BrilloBoot

variable {σ : Type}

/-- The slot that a suffix names, with its terminator. -/
def suffixSlot (suffix : List Byte) : Option (Fin 2) :=
  [0, 1].find? fun i => bubMemcmp (bubSuffixes i) suffix 3 = 0

namespace BubAbData

/-- The record with both slots normalized. -/
def normalized (d : BubAbData) : BubAbData := (normalizeSlots d).2

/-- The slot that `bub_ab_flow` boots, if any. -/
def selected (d : BubAbData) : Option (Fin 2) := targetSlotIndexToBoot d.normalized

/-- The record that `bub_ab_flow` leaves when its I/O succeeds. -/
def planned (d : BubAbData) : BubAbData :=
  match d.selected with
  | none => d.normalized
  | some i => (chargeTry d.normalized i).2

/-- The record with slot `i` cleared whole. -/
def invalidated (d : BubAbData) (i : Fin 2) : BubAbData :=
  { d with slots := Function.update d.slots i .zero }

/-- What `bub_ab_flow` answers for a choice of slot: its result and the caller's buffer. -/
def answer (out : List Byte) : Option (Fin 2) → BubAbFlowResult × List Byte
  | none => (.errorNoValidSlots, clearSuffix out)
  | some i => (.ok, copySuffix (clearSuffix out) (bubSuffixes i))

/-- What `bub_ab_flow` answers when its I/O succeeds. -/
def verdict (d : BubAbData) (out : List Byte) : BubAbFlowResult × List Byte :=
  answer out d.selected

/-! ## The selected slot and the planned record -/

/-- Both slots are normalized alike. -/
@[simp] theorem normalized_slots (d : BubAbData) (i : Fin 2) :
    d.normalized.slots i = (normalizeSlot (d.slots i)).2 := by
  fin_cases i <;> rfl

/-- Clearing a slot keeps the magic. -/
@[simp] theorem invalidated_magic (d : BubAbData) (i : Fin 2) :
    (d.invalidated i).magic = d.magic := rfl

/-- The block that marking a slot leaves does not depend on the checksum that was read. -/
theorem image_invalidated_sealed (d : BubAbData) (i : Fin 2) :
    (d.sealed.invalidated i).image = (d.invalidated i).image := rfl

/-- The selection: the bootable slot with the higher priority, and slot A in a tie. -/
theorem selected_eq (d : BubAbData) :
    d.selected =
      if (d.slots 0).Bootable then
        if (d.slots 1).Bootable ∧ (d.slots 0).priority < (d.slots 1).priority then some 1
        else some 0
      else if (d.slots 1).Bootable then some 1
      else none := by
  -- On the normalized slots, the code's tests are about the slots as they were.
  have hbootable (i : Fin 2) :
      slotIsBootable (d.normalized.slots i) = decide (d.slots i).Bootable := by
    rw [normalized_slots, Bool.eq_iff_iff, BubSlotData.slotIsBootable_normalizeSlot,
      decide_eq_true_iff, BubSlotData.bootable_iff]
  have hpriority (i : Fin 2) (h : (d.slots i).Bootable) :
      (d.normalized.slots i).priority = (d.slots i).priority := by
    rw [normalized_slots]
    exact (BubSlotData.normalizeSlot_of_bootBudget_ne_zero
      ((BubSlotData.bootable_iff _).mp h)).1
  rw [selected, targetSlotIndexToBoot, hbootable, hbootable]
  by_cases h₀ : (d.slots 0).Bootable <;> by_cases h₁ : (d.slots 1).Bootable
  · rw [hpriority 0 h₀, hpriority 1 h₁]
    simp [h₀, h₁]
  · simp [h₀, h₁]
  · simp [h₀, h₁]
  · simp [h₀, h₁]

/-- A selected slot is bootable. -/
theorem bootable_of_selected {d : BubAbData} {i : Fin 2} (h : d.selected = some i) :
    (d.slots i).Bootable := by
  rw [selected_eq] at h
  split_ifs at h with h₀ h₁ h₂ <;> obtain rfl := Option.some.inj h
  · exact h₁.1
  · exact h₀
  · exact h₂

/-- A slot that is selected has boots left. -/
theorem bootBudget_ne_zero_of_selected {d : BubAbData} {i : Fin 2} (h : d.selected = some i) :
    (d.slots i).bootBudget ≠ 0 := (BubSlotData.bootable_iff _).mp (bootable_of_selected h)

/-- When no slot is selected, none is bootable. -/
theorem not_bootable_of_selected_eq_none {d : BubAbData} (h : d.selected = none) (i : Fin 2) :
    ¬ (d.slots i).Bootable := by
  rw [selected_eq] at h
  split_ifs at h with h₀ h₁ h₂
  fin_cases i
  · exact h₀
  · exact h₂

/-- Replacing the slots of a record gives the record back exactly when they are its own. -/
theorem with_slots_eq_self {d : BubAbData} {f : Fin 2 → BubSlotData} :
    ({ d with slots := f } : BubAbData) = d ↔ f = d.slots := by
  constructor
  · intro h
    exact congrArg slots h
  · rintro rfl
    rfl

/-- Normalization reports no change exactly when it makes none. -/
theorem normalizeSlots_fst_eq_false (d : BubAbData) :
    (normalizeSlots d).1 = false ↔ d.normalized = d := by
  have hslots : d.normalized = d ↔ d.normalized.slots = d.slots := with_slots_eq_self
  rw [hslots, funext_iff, Fin.forall_fin_two, normalized_slots, normalized_slots,
    ← BubSlotData.normalizeSlot_fst_eq_false, ← BubSlotData.normalizeSlot_fst_eq_false]
  exact Bool.or_eq_false_iff

/-- The charge is to the one slot. -/
theorem chargeTry_slots (d : BubAbData) (i j : Fin 2) :
    (chargeTry d i).2.slots j = if j = i then (d.slots i).charged else d.slots j := by
  rw [chargeTry, BubSlotData.charged]
  split_ifs with ht hj hj <;> simp [hj]

/-- The slots that the planned record holds: each normalized, and the chosen one charged. -/
theorem planned_slots (d : BubAbData) (j : Fin 2) :
    d.planned.slots j =
      if d.selected = some j then (normalizeSlot (d.slots j)).2.charged
      else (normalizeSlot (d.slots j)).2 := by
  unfold planned
  cases d.selected with
  | none => simp
  | some i =>
    by_cases hj : j = i
    · simp [chargeTry_slots, hj]
    · simp [chargeTry_slots, hj, Ne.symm hj]

/-- The planned record differs from the old one in its slots only. -/
theorem with_slots_planned (d : BubAbData) :
    ({ d with slots := d.planned.slots } : BubAbData) = d.planned := by
  unfold planned
  cases d.selected with
  | none => rfl
  | some i =>
    dsimp only [chargeTry]
    split_ifs <;> rfl

/-- The planned record keeps the magic. -/
@[simp] theorem planned_magic (d : BubAbData) : d.planned.magic = d.magic := by
  rw [← with_slots_planned]

/-- The planned record is readable once it is written. -/
theorem readBlock_planned {b : Bytes 64} {d : BubAbData} (h : readBlock b = .ok d) :
    readBlock d.planned.image = .ok d.planned.sealed :=
  readBlock_image ((planned_magic d).trans (magic_of_readBlock h))

/-- A slot that is charged a try is not as it was before the call. -/
theorem planned_ne_self {d : BubAbData} {i : Fin 2} (hi : d.selected = some i)
    (hcharge : (chargeTry d.normalized i).1 = true) : d.planned ≠ d := by
  have htries : 0 < (normalizeSlot (d.slots i)).2.triesRemaining.toNat := by
    rw [chargeTry, normalized_slots] at hcharge
    split_ifs at hcharge with h
    exact BitVec.lt_def.mp h
  intro h
  -- Otherwise the slot would have as many tries as before and one fewer.
  have hslot := planned_slots d i
  rw [h, if_pos hi] at hslot
  have hle := (BubSlotData.losesStanding_normalizeSlot (d.slots i)).2.1
  have hlt := BubSlotData.charged_triesRemaining (normalizeSlot (d.slots i)).2
  rw [← hslot] at hlt
  omega

/-- Only a charge makes the planned record differ from the normalized one. -/
theorem planned_eq_normalized {d : BubAbData} {i : Fin 2} (hi : d.selected = some i)
    (hcharge : (chargeTry d.normalized i).1 = false) : d.planned = d.normalized := by
  simp only [planned, hi]
  rw [chargeTry] at hcharge ⊢
  split_ifs at hcharge ⊢
  rfl

end BubAbData

open BubAbData

/-! ## Any device -/

/-- **`bub_ab_flow` on a record that it can read**: the planned record is written if it is new, and
the verdict is returned unless that write fails. -/
theorem bubAbFlow_of_read_ok {ops : BubOps σ} {s : σ} {d : BubAbData}
    (h : bubReadAbDataFromMisc ops s = .ok d) (out : List Byte) :
    bubAbFlow ops out s =
      if d.planned = d then ((d.verdict out).1, (d.verdict out).2, s)
      else if (bubWriteAbDataToMisc ops d.planned s).1 = 0 then
        (.errorWriteMetadata, clearSuffix out, (bubWriteAbDataToMisc ops d.planned s).2)
      else
        ((d.verdict out).1, (d.verdict out).2, (bubWriteAbDataToMisc ops d.planned s).2) := by
  -- `new_metadata` before the charge says whether normalization changed the record.
  have hnew : (normalizeSlots d).1 = decide (d.normalized ≠ d) := by
    cases hn : (normalizeSlots d).1 with
    | false => simp [(normalizeSlots_fst_eq_false d).mp hn]
    | true =>
      have hne : d.normalized ≠ d := by
        rw [ne_eq, ← normalizeSlots_fst_eq_false, hn]
        decide
      simp [hne]
  simp only [bubAbFlow, h]
  rw [show targetSlotIndexToBoot (normalizeSlots d).2 = d.selected from rfl, hnew]
  cases hi : d.selected with
  | none =>
    have hplan : d.planned = d.normalized := by simp only [planned, hi]
    have hverdict : d.verdict out = (.errorNoValidSlots, clearSuffix out) := by
      rw [verdict, hi, answer]
    rw [hplan, hverdict, show (normalizeSlots d).2 = d.normalized from rfl]
    by_cases hd : d.normalized = d <;> simp [hd]
  | some i =>
    have hplan : (chargeTry (normalizeSlots d).2 i).2 = d.planned := by
      simp only [planned, hi, normalized]
    have hverdict : d.verdict out = (.ok, copySuffix (clearSuffix out) (bubSuffixes i)) := by
      rw [verdict, hi, answer]
    simp only [hplan, hverdict]
    -- With a charge the record is new; without one it is new if normalization changed it.
    cases hcharge : (chargeTry (normalizeSlots d).2 i).1 with
    | true => simp [planned_ne_self hi hcharge]
    | false =>
      rw [planned_eq_normalized hi hcharge]
      by_cases hd : d.normalized = d <;> simp [hd]

/-- `bub_ab_flow` when the read fails or comes up short. -/
theorem bubAbFlow_of_read_error {ops : BubOps σ} {s : σ}
    (h : bubReadAbDataFromMisc ops s = .error .errorReadMetadata) (out : List Byte) :
    bubAbFlow ops out s = (.errorReadMetadata, clearSuffix out, s) := by
  simp [bubAbFlow, h]

/-- `bub_ab_flow` on a block that the reader rejects: the metadata is reset. -/
theorem bubAbFlow_of_read_invalid {ops : BubOps σ} {s : σ}
    (h : bubReadAbDataFromMisc ops s = .error .errorInvalidMetadata) (out : List Byte) :
    bubAbFlow ops out s =
      (.errorInvalidMetadata, clearSuffix out, (bubWriteAbDataToMisc ops resetAbData s).2) := by
  simp [bubAbFlow, h, resetMetadata]

/-- `bub_ab_flow` hands out the suffix of a slot when it succeeds. -/
theorem exists_suffix_of_bubAbFlow {ops : BubOps σ} {s s' : σ} {out out' : List Byte}
    (h : bubAbFlow ops out s = (.ok, out', s')) :
    ∃ i, out' = copySuffix (clearSuffix out) (bubSuffixes i) := by
  cases hread : bubReadAbDataFromMisc ops s with
  | error r =>
    rcases bubReadAbDataFromMisc_eq_error hread with rfl | rfl
    · rw [bubAbFlow_of_read_error hread] at h
      cases h
    · rw [bubAbFlow_of_read_invalid hread] at h
      cases (Prod.mk.inj h).1
  | ok d =>
    have hverdict : d.verdict out = (.ok, out') := by
      rw [bubAbFlow_of_read_ok hread] at h
      split_ifs at h
      · exact Prod.ext (Prod.mk.inj h).1 (Prod.mk.inj (Prod.mk.inj h).2).1
      · cases (Prod.mk.inj h).1
      · exact Prod.ext (Prod.mk.inj h).1 (Prod.mk.inj (Prod.mk.inj h).2).1
    rw [verdict] at hverdict
    cases hselected : d.selected with
    | none =>
      rw [hselected] at hverdict
      cases hverdict
    | some i =>
      rw [hselected] at hverdict
      exact ⟨i, (Prod.mk.inj hverdict).2.symm⟩

/-- `bub_ab_mark_as_invalid` on a record that it can read. -/
theorem bubAbMarkAsInvalid_of_read_ok {ops : BubOps σ} {s : σ} {d : BubAbData}
    (h : bubReadAbDataFromMisc ops s = .ok d) (suffix : List Byte) :
    bubAbMarkAsInvalid ops suffix s =
      match suffixSlot suffix with
      | some i => bubWriteAbDataToMisc ops (d.invalidated i) s
      | none => (0, s) := by
  simp only [bubAbMarkAsInvalid, h, suffixSlot]
  rfl

/-- `bub_ab_mark_as_invalid` on a record that it cannot read. -/
theorem bubAbMarkAsInvalid_of_read_error {ops : BubOps σ} {s : σ} {r : BubAbFlowResult}
    (h : bubReadAbDataFromMisc ops s = .error r) (suffix : List Byte) :
    bubAbMarkAsInvalid ops suffix s = (r.toInt, s) := by
  simp [bubAbMarkAsInvalid, h]

/-! ## The `misc` partition alone -/

/-- **Everything that a call of `bub_ab_flow` can do to the metadata block**: nothing when the read
fails; a reset when the block is rejected; nothing when a new record cannot be written; and the
planned record and the verdict otherwise. -/
theorem bubAbFlow_miscOps_cases (io : MiscIo) (out : List Byte) (b : Bytes 64) :
    (io.read ≠ .success ∧
      bubAbFlow (miscOps io) out b = (.errorReadMetadata, clearSuffix out, b)) ∨
    (io.read = .success ∧ readBlock b = .error .errorInvalidMetadata ∧
      bubAbFlow (miscOps io) out b =
        (.errorInvalidMetadata, clearSuffix out, if io.write then resetAbData.image else b)) ∨
    (∃ d, io.read = .success ∧ readBlock b = .ok d ∧ d.planned ≠ d ∧ io.write = false ∧
      bubAbFlow (miscOps io) out b = (.errorWriteMetadata, clearSuffix out, b)) ∨
    (∃ d, io.read = .success ∧ readBlock b = .ok d ∧ (d.planned = d ∨ io.write = true) ∧
      bubAbFlow (miscOps io) out b =
        ((d.verdict out).1, (d.verdict out).2, d.planned.image)) := by
  have hread := bubReadAbDataFromMisc_miscOps io b
  -- The read, the check of the block, and the write, in their order.
  by_cases hio : io.read = .success
  · rw [if_pos hio] at hread
    cases hb : readBlock b with
    | error r =>
      obtain rfl := checkAbData_eq_error hb
      refine .inr (.inl ⟨hio, rfl, ?_⟩)
      rw [bubAbFlow_of_read_invalid (hread.trans hb), bubWriteAbDataToMisc_miscOps]
      cases io.write <;> rfl
    | ok d =>
      rw [bubAbFlow_of_read_ok (hread.trans hb), bubWriteAbDataToMisc_miscOps]
      by_cases hd : d.planned = d
      · -- Nothing is written, and the block already holds the planned record.
        have himage : d.planned.image = b := by rw [hd, image_of_readBlock hb]
        exact .inr (.inr (.inr ⟨d, hio, rfl, .inl hd, by rw [if_pos hd, himage]⟩))
      · cases hw : io.write with
        | false => exact .inr (.inr (.inl ⟨d, hio, rfl, hd, rfl, by simp [hd]⟩))
        | true => exact .inr (.inr (.inr ⟨d, hio, rfl, .inr rfl, by simp [hd]⟩))
  · rw [if_neg hio] at hread
    exact .inl ⟨hio, bubAbFlow_of_read_error hread out⟩

/-- **Everything that a call of `bub_ab_mark_as_invalid` can do to the metadata block**: nothing,
unless its I/O succeeds and the suffix names a slot, which it then clears. -/
theorem bubAbMarkAsInvalid_miscOps_cases (io : MiscIo) (suffix : List Byte) (b : Bytes 64) :
    (io.read ≠ .success ∧
      bubAbMarkAsInvalid (miscOps io) suffix b = (BubAbFlowResult.errorReadMetadata.toInt, b)) ∨
    (io.read = .success ∧ readBlock b = .error .errorInvalidMetadata ∧
      bubAbMarkAsInvalid (miscOps io) suffix b =
        (BubAbFlowResult.errorInvalidMetadata.toInt, b)) ∨
    (∃ d, io.read = .success ∧ readBlock b = .ok d ∧
      (suffixSlot suffix = none ∨ io.write = false) ∧
      bubAbMarkAsInvalid (miscOps io) suffix b = (0, b)) ∨
    (∃ d i, io.read = .success ∧ readBlock b = .ok d ∧ suffixSlot suffix = some i ∧
      io.write = true ∧
      bubAbMarkAsInvalid (miscOps io) suffix b = (1, (d.invalidated i).image)) := by
  have hread := bubReadAbDataFromMisc_miscOps io b
  -- The read, the check of the block, the suffix, and the write, in their order.
  by_cases hio : io.read = .success
  · rw [if_pos hio] at hread
    cases hb : readBlock b with
    | error r =>
      obtain rfl := checkAbData_eq_error hb
      exact .inr (.inl ⟨hio, rfl, bubAbMarkAsInvalid_of_read_error (hread.trans hb) suffix⟩)
    | ok d =>
      rw [bubAbMarkAsInvalid_of_read_ok (hread.trans hb)]
      cases hi : suffixSlot suffix with
      | none => exact .inr (.inr (.inl ⟨d, hio, rfl, .inl rfl, rfl⟩))
      | some i =>
        simp only [bubWriteAbDataToMisc_miscOps]
        cases hw : io.write with
        | false => exact .inr (.inr (.inl ⟨d, hio, rfl, .inr rfl, by simp⟩))
        | true => exact .inr (.inr (.inr ⟨d, i, hio, rfl, rfl, rfl, by simp⟩))
  · rw [if_neg hio] at hread
    exact .inl ⟨hio, bubAbMarkAsInvalid_of_read_error hread suffix⟩

/-- A call on the metadata block with all I/O succeeding. -/
theorem bubAbFlow_success {b : Bytes 64} {d : BubAbData} (h : readBlock b = .ok d)
    (out : List Byte) :
    bubAbFlow (miscOps .success) out b =
      ((d.verdict out).1, (d.verdict out).2, d.planned.image) := by
  rcases bubAbFlow_miscOps_cases .success out b with
    ⟨hio, -⟩ | ⟨-, hb, -⟩ | ⟨_, -, -, -, hw, -⟩ | ⟨e, -, he, -, heq⟩
  · exact absurd rfl hio
  · exact absurd h (readBlock_eq_error_iff.mp hb d)
  · exact Bool.noConfusion hw
  · rw [h, Except.ok.injEq] at he
    rw [he, heq]

/-! ## Runs of calls -/

/-- A call of one of the two functions, its string argument, and what becomes of its I/O. -/
inductive Call
  | abFlow (outSelectedSuffix : List Byte) (io : MiscIo)
  | markAsInvalid (invalidSuffix : List Byte) (io : MiscIo)

/-- What a call returns: the result and the caller's buffer, or an `int`. -/
inductive Returned
  | abFlow (result : BubAbFlowResult) (selectedSuffix : List Byte)
  | markAsInvalid (value : ℤ)
deriving DecidableEq

/-- One call on the metadata block. -/
def Call.step (call : Call) (b : Bytes 64) : Returned × Bytes 64 :=
  match call with
  | .abFlow out io =>
    let (result, out, b) := bubAbFlow (miscOps io) out b
    (.abFlow result out, b)
  | .markAsInvalid suffix io =>
    let (value, b) := bubAbMarkAsInvalid (miscOps io) suffix b
    (.markAsInvalid value, b)

/-- One call of `bub_ab_flow` on the metadata block, with all I/O succeeding. -/
def bootStep (out : List Byte) (b : Bytes 64) : (BubAbFlowResult × List Byte) × Bytes 64 :=
  let (result, out, b) := bubAbFlow (miscOps .success) out b
  ((result, out), b)

end BrilloBoot
