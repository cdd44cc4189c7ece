import BrilloBoot.Standing

/-!
# The states that a slot can have on disk

Once a call of `bub_ab_flow` has chosen a slot, or found that there is none, every record on disk is
in one of four states, and one of them, the exhausted one, only while the slot that was handed out
last is on its last try. The invariant `Settled` relates the block to the run so far through the
suffix that was handed out last; calls that fail, and calls that mark a slot as invalid, keep it.
-/

namespace BrilloBoot

open BubAbData

namespace BubSlotData

/-- No try is left, and the slot has not booted successfully. -/
def Exhausted (s : BubSlotData) : Prop :=
  s.priority ≠ 0#4 ∧ s.triesRemaining = 0#3 ∧ s.successfulBoot = 0#1

/-- The states that a record on disk may have: unbootable, being tried, good, or exhausted. -/
def Canonical (s : BubSlotData) : Prop :=
  s.Cleared ∨ (s.Updating ∧ s.successfulBoot = 0#1) ∨ s.Good ∨ s.Exhausted

/-- Normalization brings a record into a canonical state, and leaves none exhausted. -/
theorem canonical_normalizeSlot (s : BubSlotData) :
    (normalizeSlot s).2.Canonical ∧ ¬ (normalizeSlot s).2.Exhausted := by
  unfold Canonical Exhausted
  rcases normalizeSlot_cases s with
    ⟨hz, h⟩ | ⟨hu, hs, h⟩ | ⟨hg, h⟩ | ⟨hu, -, h⟩ | ⟨-, -, h⟩ <;> rw [h]
  · exact ⟨.inl hz, fun he => he.1 hz.1⟩
  · exact ⟨.inr (.inl ⟨hu, hs⟩), fun he => hu.2 he.2.1⟩
  · refine ⟨.inr (.inr (.inl hg)), fun he => ?_⟩
    have hsucc := hg.2.2.symm.trans he.2.2
    exact absurd hsucc (by decide)
  · exact ⟨.inr (.inl ⟨hu, rfl⟩), fun he => hu.2 he.2.1⟩
  · exact ⟨.inl ⟨rfl, rfl, rfl⟩, fun he => he.1 rfl⟩

/-- A charge keeps a record canonical; the last one exhausts it. -/
theorem Canonical.charged {s : BubSlotData} (h : s.Canonical) : s.charged.Canonical := by
  have hsame (ht : s.triesRemaining = 0#3) : s.charged = s := by simp [BubSlotData.charged, ht]
  rcases h with hz | ⟨hu, hs⟩ | hg | he
  · rw [hsame hz.2.1]
    exact .inl hz
  · by_cases ht : s.charged.triesRemaining = 0#3
    · exact .inr (.inr (.inr ⟨by rw [charged_priority]; exact hu.1, ht,
        by rw [charged_successfulBoot, hs]⟩))
    · exact .inr (.inl ⟨⟨by rw [charged_priority]; exact hu.1, ht⟩,
        by rw [charged_successfulBoot, hs]⟩)
  · rw [hsame hg.2.1]
    exact .inr (.inr (.inl hg))
  · rw [hsame he.2.1]
    exact .inr (.inr (.inr he))

end BubSlotData

/-! ## One call -/

/-- The planned record is canonical, and only the slot that is handed out can be exhausted. -/
theorem canonical_planned (d : BubAbData) (i : Fin 2) :
    (d.planned.slots i).Canonical ∧ ((d.planned.slots i).Exhausted → d.selected = some i) := by
  have hnorm := BubSlotData.canonical_normalizeSlot (d.slots i)
  rw [planned_slots]
  split_ifs with hi
  · exact ⟨hnorm.1.charged, fun _ => hi⟩
  · exact ⟨hnorm.1, fun he => absurd he hnorm.2⟩

/-- The suffix that was handed out last: an output of `bub_ab_flow` with `OK` replaces it. -/
def handedOut (last : Option (List Byte)) : Returned → Option (List Byte)
  | .abFlow .ok out => some (out.take 3)
  | _ => last

/-- The output of a call of `bub_ab_flow` that chose a slot, or found that there is none. -/
def Returned.Decided : Returned → Prop
  | .abFlow result _ => result = .ok ∨ result = .errorNoValidSlots
  | .markAsInvalid _ => False

/-- The block is readable, its records are canonical, and an exhausted one belongs to the slot that
was handed out last. -/
def Settled (last : Option (List Byte)) (b : Bytes 64) : Prop :=
  ∃ d, readBlock b = .ok d ∧ ∀ i, (d.slots i).Canonical ∧
    ((d.slots i).Exhausted → last = some (bubSuffixes i))

/-- A call of `bub_ab_flow` that decides settles the block. -/
theorem settled_planned {b : Bytes 64} {d : BubAbData} (hb : readBlock b = .ok d)
    (last : Option (List Byte)) (out : List Byte) :
    Settled (handedOut last (.abFlow (d.verdict out).1 (d.verdict out).2)) d.planned.image := by
  refine ⟨_, readBlock_planned hb, fun i => ⟨(canonical_planned d i).1, fun he => ?_⟩⟩
  have hi := (canonical_planned d i).2 he
  rw [verdict, hi]
  simp only [answer, handedOut, take_copySuffix]

/-- Marking a slot as invalid keeps a block settled. -/
theorem Settled.invalidated {last : Option (List Byte)} {b : Bytes 64} {d : BubAbData}
    (h : Settled last b) (hb : readBlock b = .ok d) (i : Fin 2) :
    Settled last (d.invalidated i).image := by
  obtain ⟨e, he, hslots⟩ := h
  rw [hb, Except.ok.injEq] at he
  subst he
  refine ⟨_, readBlock_image ((invalidated_magic d i).trans (magic_of_readBlock hb)), fun j => ?_⟩
  rw [sealed_slots]
  by_cases hj : j = i
  · -- The cleared record is unbootable.
    have hzero : (d.invalidated i).slots j = .zero := by simp [BubAbData.invalidated, hj]
    rw [hzero]
    exact ⟨.inl ⟨rfl, rfl, rfl⟩, fun he => absurd rfl he.1⟩
  · have hsame : (d.invalidated i).slots j = d.slots j := by simp [BubAbData.invalidated, hj]
    rw [hsame]
    exact hslots j

/-- Every call keeps a block settled, whatever becomes of its I/O. -/
theorem Call.settled_step (call : Call) (last : Option (List Byte)) (b : Bytes 64)
    (h : Settled last b) : Settled (handedOut last (call.step b).1) (call.step b).2 := by
  cases call with
  | abFlow out io =>
    simp only [Call.step]
    rcases bubAbFlow_miscOps_cases io out b with
      ⟨-, hcall⟩ | ⟨-, hbad, -⟩ | ⟨-, -, -, -, -, hcall⟩ | ⟨d, -, hd, -, hcall⟩
    · simpa [hcall, handedOut] using h
    · obtain ⟨d, hd, -⟩ := h
      exact absurd hd (readBlock_eq_error_iff.mp hbad d)
    · simpa [hcall, handedOut] using h
    · rw [hcall]
      exact settled_planned hd last out
  | markAsInvalid suffix io =>
    simp only [Call.step]
    rcases bubAbMarkAsInvalid_miscOps_cases io suffix b with
      ⟨-, hcall⟩ | ⟨-, -, hcall⟩ | ⟨-, -, -, -, hcall⟩ | ⟨d, i, -, hd, -, -, hcall⟩ <;> rw [hcall]
    · exact h
    · exact h
    · exact h
    · exact h.invalidated hd i

/-- A call that decides leaves a settled block, whatever the block was. -/
theorem Call.settled_of_decided (call : Call) (last : Option (List Byte)) (b : Bytes 64)
    (h : (call.step b).1.Decided) : Settled (handedOut last (call.step b).1) (call.step b).2 := by
  cases call with
  | abFlow out io =>
    simp only [Call.step] at h ⊢
    rcases bubAbFlow_miscOps_cases io out b with
      ⟨-, hcall⟩ | ⟨-, -, hcall⟩ | ⟨-, -, -, -, -, hcall⟩ | ⟨d, -, hd, -, hcall⟩ <;>
      rw [hcall] at h ⊢
    · simp [Returned.Decided] at h
    · simp [Returned.Decided] at h
    · simp [Returned.Decided] at h
    · exact settled_planned hd last out
  | markAsInvalid suffix io => exact h.elim

/-! ## Runs of calls -/

/-- Canonical slot states on disk. In every run of calls from any block, once a call of
`bub_ab_flow` has returned `OK` or `NO_VALID_SLOTS`: the block is readable, every record is in one
of the four states, at most one is exhausted, and it belongs to the slot that the most recent `OK`
handed out. -/
theorem canonical_states (calls : List Call) (b : Bytes 64)
    (h : ∃ result out, .abFlow result out ∈ (Machine.run Call.step calls b).1 ∧
      (result = .ok ∨ result = .errorNoValidSlots)) :
    ∃ d, bubReadAbDataFromMisc (miscOps .success) (Machine.run Call.step calls b).2 = .ok d ∧
      (∀ i, (d.slots i).Canonical) ∧
      (∀ i j, (d.slots i).Exhausted → (d.slots j).Exhausted → i = j) ∧
      ∀ i, (d.slots i).Exhausted →
        (Machine.run Call.step calls b).1.foldl handedOut none = some (bubSuffixes i) := by
  obtain ⟨result, out, hmem, hresult⟩ := h
  have hout : ∃ o ∈ (Machine.run Call.step calls b).1, o.Decided := ⟨_, hmem, hresult⟩
  obtain ⟨d, hd, hslots⟩ := Machine.run_gather_established (P := Settled) (a := none)
    Call.settled_step Call.settled_of_decided hout
  refine ⟨d, ?_, fun i => (hslots i).1, fun i j hi hj => ?_, fun i => (hslots i).2⟩
  · rw [bubReadAbDataFromMisc_miscOps, MiscIo.success, if_pos rfl, hd]
  · have hsame := ((hslots i).2 hi).symm.trans ((hslots j).2 hj)
    exact bubSuffixes_injective (Option.some.inj hsame)

/-- The first call on the reset block decides, and leaves canonical records. -/
theorem canonical_states_reset :
    ∃ d, bubReadAbDataFromMisc (miscOps .success)
        (Machine.run Call.step [.abFlow [] .success] resetAbData.image).2 = .ok d ∧
      ∀ i, (d.slots i).Canonical := by
  obtain ⟨d, hd, hcanonical, -⟩ := canonical_states [.abFlow [] .success] resetAbData.image
    ⟨.ok, bubSuffixes 0, by decide +kernel, .inl rfl⟩
  exact ⟨d, hd, hcanonical⟩

end BrilloBoot
