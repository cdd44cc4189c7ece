import BrilloBoot.Standing

/-!
# What `bub_ab_flow` changes, and on what it decides

With its I/O succeeding, `bub_ab_flow` changes the records of the slots and the checksum only, each
record in a way that is fixed by `normalize_slot` and by the selection, and it writes nothing when
no record changes. It decides on the three state fields of the slots alone: two blocks that agree on
them, whatever else they hold, have the same outcome. `countWrites` counts the writes of a call.
-/

namespace BrilloBoot

open BubAbData

variable {σ : Type}

/-- A device that counts the writes issued to it. -/
def countWrites (ops : BubOps σ) : BubOps (σ × ℕ) where
  readFromPartition partition offset numBytes s :=
    ops.readFromPartition partition offset numBytes s.1
  writeToPartition partition buf offset s :=
    let (result, t) := ops.writeToPartition partition buf offset s.1
    (result, (t, s.2 + 1))

/-- Counting does not change what is read. -/
theorem bubReadAbDataFromMisc_countWrites (ops : BubOps σ) (s : σ) (n : ℕ) :
    bubReadAbDataFromMisc (countWrites ops) (s, n) = bubReadAbDataFromMisc ops s := rfl

/-- A write is counted, and otherwise is what it was. -/
theorem bubWriteAbDataToMisc_countWrites (ops : BubOps σ) (d : BubAbData) (s : σ) (n : ℕ) :
    bubWriteAbDataToMisc (countWrites ops) d (s, n) =
      ((bubWriteAbDataToMisc ops d s).1, ((bubWriteAbDataToMisc ops d s).2, n + 1)) := by
  have hwrite : ops.writeToPartition miscPartition d.image.toList 0 s = (_, _) := rfl
  have hcounted : (countWrites ops).writeToPartition miscPartition d.image.toList 0 (s, n)
      = (_, (_, n + 1)) := rfl
  rw [bubWriteAbDataToMisc_of_write hwrite, bubWriteAbDataToMisc_of_write hcounted]

/-- A call on a readable block with all I/O succeeding: there is one write if the planned record is
new, and none otherwise. -/
theorem bubAbFlow_countWrites {b : Bytes 64} {d : BubAbData} (h : readBlock b = .ok d)
    (out : List Byte) :
    bubAbFlow (countWrites (miscOps .success)) out (b, 0) =
      ((d.verdict out).1, (d.verdict out).2,
        (d.planned.image, if d.planned = d then 0 else 1)) := by
  have hread : bubReadAbDataFromMisc (countWrites (miscOps .success)) (b, 0) = .ok d := by
    rw [bubReadAbDataFromMisc_countWrites, bubReadAbDataFromMisc_miscOps, MiscIo.success,
      if_pos rfl, h]
  rw [bubAbFlow_of_read_ok hread, bubWriteAbDataToMisc_countWrites, bubWriteAbDataToMisc_miscOps,
    MiscIo.success, if_pos rfl]
  by_cases hd : d.planned = d
  · simp only [hd, if_true, image_of_readBlock h]
  · simp [hd]

namespace BubSlotData

/-- The two records agree on the fields that `bub_ab_flow` looks at. -/
def SameState (s t : BubSlotData) : Prop :=
  s.priority = t.priority ∧ s.triesRemaining = t.triesRemaining ∧
    s.successfulBoot = t.successfulBoot

/-- Normalization looks at the state only. -/
theorem SameState.normalizeSlot {s t : BubSlotData} (h : s.SameState t) :
    (normalizeSlot s).2.SameState (normalizeSlot t).2 := by
  obtain ⟨hp, ht, hs⟩ := h
  unfold BrilloBoot.normalizeSlot SameState
  rw [hp, ht, hs]
  split_ifs <;> simp [hp, ht, hs]

/-- So does a charge. -/
theorem SameState.charged {s t : BubSlotData} (h : s.SameState t) :
    s.charged.SameState t.charged := by
  obtain ⟨hp, ht, hs⟩ := h
  unfold BubSlotData.charged SameState
  rw [ht]
  split_ifs <;> simp [hp, ht, hs]

/-- The three things that normalization can do to a record. -/
theorem normalizeSlot_eq (s : BubSlotData) :
    (BrilloBoot.normalizeSlot s).2 = zero ∨
      (BrilloBoot.normalizeSlot s).2 = { s with successfulBoot := 0 } ∨
      (BrilloBoot.normalizeSlot s).2 = s := by
  rcases normalizeSlot_cases s with ⟨-, h⟩ | ⟨-, -, h⟩ | ⟨-, h⟩ | ⟨-, -, h⟩ | ⟨-, -, h⟩
  · exact .inr (.inr (by rw [h]))
  · exact .inr (.inr (by rw [h]))
  · exact .inr (.inr (by rw [h]))
  · exact .inr (.inl (by rw [h]))
  · exact .inl (by rw [h])

end BubSlotData

/-- Records whose slots agree on the state have the same slot selected. -/
theorem selected_eq_of_sameState {d e : BubAbData} (h : ∀ i, (d.slots i).SameState (e.slots i)) :
    d.selected = e.selected := by
  have hbootable (i : Fin 2) : (d.slots i).Bootable ↔ (e.slots i).Bootable := by
    unfold BubSlotData.Bootable
    rw [(h i).normalizeSlot.1]
  simp only [selected_eq, hbootable, (h 0).1, (h 1).1]

/-- The planned records agree on the state again. -/
theorem sameState_planned {d e : BubAbData} (h : ∀ i, (d.slots i).SameState (e.slots i))
    (i : Fin 2) : (d.planned.slots i).SameState (e.planned.slots i) := by
  rw [planned_slots, planned_slots, selected_eq_of_sameState h]
  split_ifs
  · exact (h i).normalizeSlot.charged
  · exact (h i).normalizeSlot

/-- What a call may change of a record, when it hands out `suffix`: nothing but the slots, of which
the one handed out is normalized and charged, and the others are normalized. -/
structure ChangesSlotsOnly (d d' : BubAbData) (suffix : List Byte) : Prop where
  magic : d'.magic = d.magic
  majorVersion : d'.majorVersion = d.majorVersion
  minorVersion : d'.minorVersion = d.minorVersion
  reserved1 : d'.reserved1 = d.reserved1
  reserved2 : d'.reserved2 = d.reserved2
  handedOut : ∀ i, suffix = bubSuffixes i →
    d'.slots i = (normalizeSlot (d.slots i)).2.charged
  other : ∀ i, suffix ≠ bubSuffixes i → d'.slots i = (normalizeSlot (d.slots i)).2 ∧
    (d'.slots i = .zero ∨ d'.slots i = { d.slots i with successfulBoot := 0 } ∨
      d'.slots i = d.slots i)

/-- The suffix that a call hands out is that of the selected slot. -/
theorem verdict_eq_bubSuffixes_iff (d : BubAbData) (out : List Byte) (i : Fin 2) :
    (d.verdict out).2.take 3 = bubSuffixes i ↔ d.selected = some i := by
  unfold verdict
  cases d.selected with
  | none => exact iff_of_false (clearSuffix_ne_bubSuffixes out i) (by simp)
  | some j => simp only [answer, take_copySuffix, bubSuffixes_injective.eq_iff, Option.some.injEq]

/-- Records with the same selection have the same verdict, whatever the caller's buffer held. -/
theorem verdict_eq_of_selected {d e : BubAbData} (h : d.selected = e.selected)
    (out out' : List Byte) : (d.verdict out).1 = (e.verdict out').1 ∧
      (d.verdict out).2.take 3 = (e.verdict out').2.take 3 := by
  unfold verdict
  rw [h]
  cases e.selected with
  | none => exact ⟨rfl, rfl⟩
  | some i => simp only [answer, take_copySuffix, and_self]

/-- The planned record changes the slots only. -/
theorem changesSlotsOnly_planned (d : BubAbData) (out : List Byte) :
    ChangesSlotsOnly d d.planned.sealed ((d.verdict out).2.take 3) where
  magic := planned_magic d
  majorVersion := by rw [← with_slots_planned]; rfl
  minorVersion := by rw [← with_slots_planned]; rfl
  reserved1 := by rw [← with_slots_planned]; rfl
  reserved2 := by rw [← with_slots_planned]; rfl
  handedOut i hi := by
    rw [verdict_eq_bubSuffixes_iff] at hi
    rw [sealed_slots, planned_slots, if_pos hi]
  other i hi := by
    rw [ne_eq, verdict_eq_bubSuffixes_iff] at hi
    rw [sealed_slots, planned_slots, if_neg hi]
    exact ⟨rfl, BubSlotData.normalizeSlot_eq _⟩

/-- `bub_ab_flow` changes nothing but slot state, and decides on nothing else. On every readable
block, with its I/O succeeding: only the slots change, and the checksum with them; when none does,
no write is issued and the block is as it was; and on every other readable block whose slots have
the same state, the result, the suffix and the state that is left are the same. -/
theorem bubAbFlow_slot_state_only {b : Bytes 64} {d : BubAbData}
    (h : bubReadAbDataFromMisc (miscOps .success) b = .ok d) (out : List Byte) :
    ∃ result out' b' writes d',
      bubAbFlow (countWrites (miscOps .success)) out (b, 0) = (result, out', b', writes) ∧
      bubReadAbDataFromMisc (miscOps .success) b' = .ok d' ∧
      ChangesSlotsOnly d d' (out'.take 3) ∧
      (d'.slots = d.slots → writes = 0 ∧ b' = b) ∧
      ∀ b₂ d₂ out₂, bubReadAbDataFromMisc (miscOps .success) b₂ = .ok d₂ →
        (∀ i, (d.slots i).SameState (d₂.slots i)) →
        ∃ out₂' b₂' writes₂ d₂',
          bubAbFlow (countWrites (miscOps .success)) out₂ (b₂, 0) =
            (result, out₂', b₂', writes₂) ∧
          out₂'.take 3 = out'.take 3 ∧
          bubReadAbDataFromMisc (miscOps .success) b₂' = .ok d₂' ∧
          ∀ i, (d'.slots i).SameState (d₂'.slots i) := by
  simp only [bubReadAbDataFromMisc_miscOps, MiscIo.success, if_true] at h ⊢
  refine ⟨_, _, _, _, _, bubAbFlow_countWrites h out, readBlock_planned h,
    changesSlotsOnly_planned d out, fun hslots => ?_, fun b₂ d₂ out₂ h₂ hstate => ?_⟩
  · have hsame : d.planned = d := by
      rw [← with_slots_planned, with_slots_eq_self]
      exact hslots
    rw [if_pos hsame, hsame]
    exact ⟨rfl, image_of_readBlock h⟩
  · obtain ⟨hresult, hsuffix⟩ := verdict_eq_of_selected (selected_eq_of_sameState hstate) out out₂
    rw [hresult, hsuffix]
    exact ⟨_, _, _, _, bubAbFlow_countWrites h₂ out₂, rfl, readBlock_planned h₂,
      sameState_planned hstate⟩

/-- The first call on the reset block changes the slots only. -/
theorem bubAbFlow_slot_state_only_reset :
    ∃ result out' b' writes d',
      bubAbFlow (countWrites (miscOps .success)) [] (resetAbData.image, 0) =
        (result, out', b', writes) ∧
      bubReadAbDataFromMisc (miscOps .success) b' = .ok d' ∧
      ChangesSlotsOnly resetAbData.sealed d' (out'.take 3) := by
  have hmagic : resetAbData.magic = bubBootCtrlMagic := rfl
  obtain ⟨result, out', b', writes, d', hcall, hread, hchanges, -⟩ :=
    bubAbFlow_slot_state_only (bubReadAbDataFromMisc_image hmagic) []
  exact ⟨result, out', b', writes, d', hcall, hread, hchanges⟩

end BrilloBoot
