import BrilloBoot.Lib.Arbiter
import BrilloBoot.Standing

/-!
# The boot schedule

With its I/O succeeding and no other writer, `bub_ab_flow` hands out the slots as an arbiter does
that grants the preferred bootable slot as often as its budget allows, and then the other:
`candidates` is the arbiter's queue for a record, and one call takes one turn
(`candidates_planned`). The schedule of the source's slot states, `bootSchedule`, is that of the
queue, and a rejected block starts over from the schedule of the reset record.
-/

namespace BrilloBoot

/-- The two slots are each other's reverse. -/
theorem ne_rev (x : Fin 2) : x ≠ x.rev := by decide +revert

/-- There is one other slot. -/
theorem eq_or_eq_rev (x z : Fin 2) : z = x ∨ z = x.rev := by decide +revert

namespace BubAbData

/-- Slot `x` is the preferred bootable slot: the other is not bootable, or has a lower priority, or
is slot B with the same one. -/
def Preferred (d : BubAbData) (x : Fin 2) : Prop :=
  (d.slots x).Bootable ∧ ((d.slots x.rev).Bootable →
    (d.slots x.rev).priority < (d.slots x).priority ∨
      (d.slots x.rev).priority = (d.slots x).priority ∧ x = 0)

/-- The preference can be decided. -/
instance (d : BubAbData) (x : Fin 2) : Decidable (d.Preferred x) := by
  unfold Preferred
  infer_instance

/-- The preferred bootable slot, if there is a bootable slot. -/
def preferred (d : BubAbData) : Option (Fin 2) := [0, 1].find? fun x => d.Preferred x

/-- The slot that the `k`-th of a row of calls hands out, if any. The preferred slot `x` comes
first, forever if it is good and else as often as it has tries; then the other one, likewise. -/
def bootSchedule (d : BubAbData) (k : ℕ) : Option (Fin 2) :=
  match d.preferred with
  | none => none
  | some x =>
    if (d.slots x).Good then some x
    else if k < (d.slots x).triesRemaining.toNat then some x
    else if (d.slots x.rev).Good then some x.rev
    else if (d.slots x.rev).Updating ∧
        k - (d.slots x).triesRemaining.toNat < (d.slots x.rev).triesRemaining.toNat then
      some x.rev
    else none

/-- The checksum does not matter to the schedule. -/
@[simp] theorem bootSchedule_sealed (d : BubAbData) (k : ℕ) :
    d.sealed.bootSchedule k = d.bootSchedule k := rfl

/-- The arbiter's queue: the bootable slots in order of preference, with their budgets. -/
def candidates (d : BubAbData) : List (Fin 2 × ℕ∞) :=
  match d.selected with
  | none => []
  | some x =>
    (x, (d.slots x).bootBudget) ::
      if (d.slots x.rev).Bootable then [(x.rev, (d.slots x.rev).bootBudget)] else []

/-! ## The selected slot is the preferred one -/

/-- The slot that `bub_ab_flow` selects is the preferred one. -/
theorem selected_eq_some_iff {d : BubAbData} {x : Fin 2} :
    d.selected = some x ↔ d.Preferred x := by
  rw [selected_eq, Preferred]
  by_cases h₀ : (d.slots 0).Bootable <;> by_cases h₁ : (d.slots 1).Bootable
  · fin_cases x <;> simp [h₀, h₁]
    bv_omega
  · fin_cases x <;> simp [h₀, h₁]
  · fin_cases x <;> simp [h₀, h₁]
  · fin_cases x <;> simp [h₀, h₁]

/-- The selection, as a search for the preferred slot. -/
theorem selected_eq_preferred (d : BubAbData) : d.selected = d.preferred := by
  unfold preferred
  cases h : d.selected with
  | none =>
    have hnot (x : Fin 2) : ¬ d.Preferred x := by
      rw [← selected_eq_some_iff, h]
      simp
    simp [hnot]
  | some x =>
    have hpref (y : Fin 2) : d.Preferred y ↔ x = y := by
      rw [← selected_eq_some_iff, h, Option.some.injEq]
    simp only [hpref]
    fin_cases x <;> rfl

/-- The schedule of the slot states is that of the arbiter's queue. -/
theorem schedule_candidates (d : BubAbData) (k : ℕ) :
    Arbiter.schedule d.candidates k = d.bootSchedule k := by
  unfold candidates bootSchedule
  rw [← selected_eq_preferred]
  cases hx : d.selected with
  | none => rfl
  | some x =>
    -- The tail of the queue, whether or not the other slot is in it.
    have hsecond (m : ℕ) : Arbiter.schedule
        (if (d.slots x.rev).Bootable then [(x.rev, (d.slots x.rev).bootBudget)] else []) m =
        if (d.slots x.rev).Good then some x.rev
        else if (d.slots x.rev).Updating ∧ m < (d.slots x.rev).triesRemaining.toNat then
          some x.rev
        else none := by
      by_cases hy : (d.slots x.rev).Bootable
      · rw [if_pos hy]
        rcases BubSlotData.good_or_updating ((BubSlotData.bootable_iff _).mp hy) with hg | hu
        · simp [Arbiter.schedule, BubSlotData.bootBudget_of_good hg, hg]
        · have hng : ¬ (d.slots x.rev).Good := fun hg => hu.2 hg.2.1
          simp [Arbiter.schedule, BubSlotData.bootBudget_of_updating hu, hng, hu]
      · have hng : ¬ (d.slots x.rev).Good := fun hg =>
          hy ((BubSlotData.bootable_iff _).mpr (BubSlotData.bootBudget_ne_zero_of_good hg))
        have hnu : ¬ (d.slots x.rev).Updating := fun hu =>
          hy ((BubSlotData.bootable_iff _).mpr (BubSlotData.bootBudget_ne_zero_of_updating hu))
        simp [Arbiter.schedule, hy, hng, hnu]
    have hbudget := bootBudget_ne_zero_of_selected hx
    simp only [Arbiter.schedule, hsecond]
    rcases BubSlotData.good_or_updating hbudget with hg | hu
    · simp [BubSlotData.bootBudget_of_good hg, hg]
    · have hng : ¬ (d.slots x).Good := fun hg => hu.2 hg.2.1
      simp [BubSlotData.bootBudget_of_updating hu, hng]

/-! ## One call takes one turn -/

/-- The first candidate is the slot that is selected. -/
theorem next_candidates_fst (d : BubAbData) : (Arbiter.next d.candidates).1 = d.selected := by
  unfold candidates
  cases d.selected <;> rfl

/-- The candidates have boots left. -/
theorem candidates_live (d : BubAbData) : Arbiter.Live d.candidates := by
  unfold candidates
  rw [Arbiter.Live]
  cases hx : d.selected with
  | none => simp
  | some x =>
    rw [List.forall_mem_cons]
    refine ⟨bootBudget_ne_zero_of_selected hx, ?_⟩
    split_ifs with hy
    · simpa using (BubSlotData.bootable_iff _).mp hy
    · simp

/-- The budgets that a call leaves: one less for the slot that it hands out. -/
theorem bootBudget_planned (d : BubAbData) (x : Fin 2) :
    (d.planned.slots x).bootBudget =
      if d.selected = some x then (d.slots x).bootBudget - 1 else (d.slots x).bootBudget := by
  rw [planned_slots]
  split_ifs with hx
  · exact BubSlotData.bootBudget_charged (bootBudget_ne_zero_of_selected hx)
  · exact BubSlotData.bootBudget_normalizeSlot _

/-- A call leaves the priority of a slot that was bootable as it was. -/
theorem priority_planned {d : BubAbData} {x : Fin 2} (h : (d.slots x).Bootable) :
    (d.planned.slots x).priority = (d.slots x).priority := by
  have hnorm :=
    (BubSlotData.normalizeSlot_of_bootBudget_ne_zero ((BubSlotData.bootable_iff _).mp h)).1
  rw [planned_slots]
  split_ifs
  · rw [BubSlotData.charged_priority, hnorm]
  · exact hnorm

/-- A call changes the budget of the slot that it hands out only. -/
theorem bootBudget_planned_rev {d : BubAbData} {x : Fin 2} (hx : d.selected = some x) :
    (d.planned.slots x.rev).bootBudget = (d.slots x.rev).bootBudget := by
  have hother := bootBudget_planned d x.rev
  rwa [hx, if_neg (by simpa using ne_rev x)] at hother

/-- The slot that is not selected keeps its boots. -/
theorem bootable_planned_rev {d : BubAbData} {x : Fin 2} (hx : d.selected = some x) :
    (d.planned.slots x.rev).Bootable ↔ (d.slots x.rev).Bootable := by
  rw [BubSlotData.bootable_iff, BubSlotData.bootable_iff, bootBudget_planned_rev hx]

/-- A slot that is handed out on its last try is lost. -/
theorem not_bootable_planned {d : BubAbData} {x : Fin 2} (hx : d.selected = some x)
    (hone : (d.slots x).bootBudget = 1) : ¬ (d.planned.slots x).Bootable := by
  rw [BubSlotData.bootable_iff, bootBudget_planned, if_pos hx, hone]
  simp

/-- A slot that has a boot left after this one keeps its priority, and is selected again. -/
theorem selected_planned {d : BubAbData} {x : Fin 2} (hx : d.selected = some x)
    (hone : (d.slots x).bootBudget ≠ 1) : d.planned.selected = some x := by
  have hbootable := bootable_of_selected hx
  have hleft : (d.planned.slots x).Bootable := by
    rw [BubSlotData.bootable_iff, bootBudget_planned, if_pos hx, ne_eq, tsub_eq_zero_iff_le]
    intro hle
    exact hone (le_antisymm hle
      (Order.one_le_iff_ne_zero.mpr (bootBudget_ne_zero_of_selected hx)))
  rw [selected_eq_some_iff] at hx ⊢
  refine ⟨hleft, fun hy => ?_⟩
  rw [bootable_planned_rev (selected_eq_some_iff.mpr hx)] at hy
  rw [priority_planned hy, priority_planned hbootable]
  exact hx.2 hy

/-- One call takes one turn of the arbiter. -/
theorem candidates_planned (d : BubAbData) :
    d.planned.candidates = (Arbiter.next d.candidates).2 := by
  cases hx : d.selected with
  | none =>
    -- No slot has a budget, and none gets one.
    have hnot (x : Fin 2) : ¬ (d.planned.slots x).Bootable := by
      rw [BubSlotData.bootable_iff, bootBudget_planned, hx, if_neg (by simp),
        ← BubSlotData.bootable_iff]
      exact not_bootable_of_selected_eq_none hx x
    have hnone : d.planned.selected = none := by simp [selected_eq, hnot]
    simp [candidates, hx, hnone, Arbiter.next]
  | some x =>
    have hother := bootBudget_planned_rev hx
    have hother_iff := bootable_planned_rev hx
    by_cases hone : (d.slots x).bootBudget = 1
    · -- The last try of `x`: the other slot, if it is bootable, moves up.
      have hgone := not_bootable_planned hx hone
      by_cases hy : (d.slots x.rev).Bootable
      · have hnext : d.planned.selected = some x.rev := by
          rw [selected_eq_some_iff, Preferred, Fin.rev_rev]
          exact ⟨hother_iff.mpr hy, fun h => absurd h hgone⟩
        simp [candidates, hx, hnext, Arbiter.next, hone, hy, hgone, hother]
      · have hnot : ∀ z, ¬ (d.planned.slots z).Bootable := by
          intro z
          rcases eq_or_eq_rev x z with rfl | rfl
          · exact hgone
          · rwa [hother_iff]
        have hnone : d.planned.selected = none := by simp [selected_eq, hnot]
        simp [candidates, hx, hnone, Arbiter.next, hone, hy]
    · -- The budget of `x` goes down by one.
      have hself := bootBudget_planned d x
      rw [if_pos hx] at hself
      simp [candidates, hx, selected_planned hx hone, Arbiter.next, hone, hself, hother,
        hother_iff]

end BubAbData

open BubAbData

/-! ## Rows of calls -/

/-- The record that the reader finds, and its queue. -/
def Holds (b : Bytes 64) (q : List (Fin 2 × ℕ∞)) : Prop :=
  ∃ d, readBlock b = .ok d ∧ q = d.candidates

/-- One call takes one turn of the queue that the block holds. -/
theorem bootStep_holds (out : List Byte) (b : Bytes 64) (q : List (Fin 2 × ℕ∞)) (h : Holds b q) :
    (bootStep out b).1 = answer out (Arbiter.next q).1 ∧
      Holds (bootStep out b).2 (Arbiter.next q).2 := by
  obtain ⟨d, hb, rfl⟩ := h
  unfold bootStep
  rw [bubAbFlow_success hb, next_candidates_fst]
  refine ⟨rfl, d.planned.sealed, readBlock_planned hb, ?_⟩
  rw [← candidates_planned]
  rfl

/-- A row of calls on a readable block hands out the slots of the schedule. -/
theorem run_bootStep {b : Bytes 64} {d : BubAbData} (h : readBlock b = .ok d)
    (outs : List (List Byte)) :
    (Machine.run bootStep outs b).1 = outs.mapIdx fun k out => answer out (d.bootSchedule k) := by
  -- The row simulates the arbiter on the queue of the record, whose outputs are its schedule.
  have hsim : (Machine.run bootStep outs b).1 = (Machine.run
      (fun out q => (answer out (Arbiter.next q).1, (Arbiter.next q).2)) outs d.candidates).1 :=
    (Machine.run_simulates bootStep_holds ⟨d, h, rfl⟩).1
  rw [hsim, Arbiter.run_next answer d.candidates_live]
  simp only [schedule_candidates]

/-- The block is readable, and the state fields of both slots are zero. -/
def Spent (b : Bytes 64) : Prop := ∃ d, readBlock b = .ok d ∧ ∀ i, (d.slots i).Cleared

/-- A cleared slot stays cleared, as it has no standing to lose. -/
theorem Weakens.spent {b b' : Bytes 64} (h : Weakens b b') (hb : Spent b) : Spent b' := by
  obtain ⟨d, hd, hclear⟩ := hb
  obtain ⟨d', hd', hstand⟩ := h d hd
  refine ⟨d', hd', fun i => ?_⟩
  obtain ⟨hprio, htries, hsucc⟩ := hstand i
  obtain ⟨hp, ht, hs⟩ := hclear i
  refine ⟨by simpa [hp] using hprio, ?_, ?_⟩
  · apply BitVec.eq_of_toNat_eq
    simpa [ht] using htries
  · rw [hs] at hsucc
    bv_omega

/-- Every call keeps a readable block readable. -/
theorem readable_bootStep (out : List Byte) (b : Bytes 64) (hb : ∃ d, readBlock b = .ok d) :
    ∃ d, readBlock (bootStep out b).2 = .ok d :=
  Call.readable_step (.abFlow out .success) b hb

/-- Every call keeps the slots cleared once they are. -/
theorem spent_bootStep (out : List Byte) (b : Bytes 64) (hb : Spent b) :
    Spent (bootStep out b).2 := by
  have hreadable : ∃ d, readBlock b = .ok d := hb.imp fun _ hd => hd.1
  exact (Call.weakens_step (.abFlow out .success) b hreadable).spent hb

/-- A call that finds no slot to boot leaves none. -/
theorem spent_of_no_valid_slots (out : List Byte) (b : Bytes 64) (hb : ∃ d, readBlock b = .ok d)
    (h : (bootStep out b).1.1 = .errorNoValidSlots) : Spent (bootStep out b).2 := by
  obtain ⟨d, hd⟩ := hb
  unfold bootStep at h ⊢
  rw [bubAbFlow_success hd] at h ⊢
  cases hsel : d.selected with
  | some i => simp [verdict, hsel, answer] at h
  | none =>
    refine ⟨d.planned.sealed, readBlock_planned hd, fun i => ?_⟩
    have hbudget : (d.slots i).bootBudget = 0 := by
      simpa [BubSlotData.bootable_iff] using not_bootable_of_selected_eq_none hsel i
    rw [sealed_slots, planned_slots, hsel, if_neg (by simp)]
    exact BubSlotData.cleared_normalizeSlot hbudget

/-- The schedule of the record that a reset leaves. -/
theorem bootSchedule_resetAbData (k : ℕ) :
    resetAbData.bootSchedule k = if k < 7 then some 0 else if k < 14 then some 1 else none := by
  have hpref : resetAbData.preferred = some 0 := by decide
  have hgood (i : Fin 2) : ¬ (resetAbData.slots i).Good := by decide +revert
  have hupdating (i : Fin 2) : (resetAbData.slots i).Updating := by decide +revert
  have htries (i : Fin 2) : (resetAbData.slots i).triesRemaining.toNat = 7 := by decide +revert
  simp only [bootSchedule, hpref, hgood, hupdating, htries, if_false, true_and, Fin.rev_zero]
  split_ifs <;> first | rfl | omega

/-- The exact boot schedule. On a readable block, any number of calls of `bub_ab_flow` in a row,
with all I/O succeeding and no other writer, return the slots of `bootSchedule` in order and
`BUB_AB_FLOW_ERROR_NO_VALID_SLOTS` where it has none left; and once that has been returned, the
state fields of both slots are zero on disk. -/
theorem boot_schedule {b : Bytes 64} {d : BubAbData}
    (h : bubReadAbDataFromMisc (miscOps .success) b = .ok d) (outs : List (List Byte)) :
    (Machine.run bootStep outs b).1 = outs.mapIdx (fun k out => answer out (d.bootSchedule k)) ∧
      ((∃ r ∈ (Machine.run bootStep outs b).1, r.1 = .errorNoValidSlots) →
        ∃ d', bubReadAbDataFromMisc (miscOps .success) (Machine.run bootStep outs b).2 = .ok d' ∧
          ∀ i, (d'.slots i).Cleared) := by
  simp only [bubReadAbDataFromMisc_miscOps, MiscIo.success, if_true] at h ⊢
  refine ⟨run_bootStep h outs, fun hout => ?_⟩
  exact Machine.run_established readable_bootStep spent_bootStep spent_of_no_valid_slots ⟨d, h⟩ hout

/-- The schedule of the reset block starts with slot A twice. -/
theorem boot_schedule_reset_twice :
    (Machine.run bootStep [[0, 0, 0], [0, 0, 0]] resetAbData.image).1 =
      [(.ok, bubSuffixes 0), (.ok, bubSuffixes 0)] := by
  have hread := bubReadAbDataFromMisc_image (show resetAbData.magic = bubBootCtrlMagic from rfl)
  rw [(boot_schedule hread _).1]
  simp only [List.mapIdx_cons, List.mapIdx_nil, bootSchedule_sealed, bootSchedule_resetAbData]
  rfl

/-- Recovery from any corrupted metadata. On a block that the reader rejects, with all I/O
succeeding and no other writer, the first call of `bub_ab_flow` returns
`BUB_AB_FLOW_ERROR_INVALID_METADATA` and clears the suffix; the calls after it return slot A seven
times, then slot B seven times, and then `BUB_AB_FLOW_ERROR_NO_VALID_SLOTS` forever. -/
theorem recovery_from_corruption {b : Bytes 64}
    (h : bubReadAbDataFromMisc (miscOps .success) b = .error .errorInvalidMetadata)
    (out : List Byte) (outs : List (List Byte)) :
    (Machine.run bootStep (out :: outs) b).1 =
      (.errorInvalidMetadata, clearSuffix out) :: outs.mapIdx fun k out =>
        if k < 7 then (.ok, copySuffix (clearSuffix out) (bubSuffixes 0))
        else if k < 14 then (.ok, copySuffix (clearSuffix out) (bubSuffixes 1))
        else (.errorNoValidSlots, clearSuffix out) := by
  -- The first call resets the block, and the rest is the schedule of the reset record.
  have hfirst : bootStep out b = ((.errorInvalidMetadata, clearSuffix out), resetAbData.image) := by
    unfold bootStep
    rw [bubAbFlow_of_read_invalid h, bubWriteAbDataToMisc_miscOps]
    rfl
  have hreset : readBlock resetAbData.image = .ok resetAbData.sealed := readBlock_image rfl
  have hanswer (k : ℕ) (out : List Byte) : answer out (resetAbData.sealed.bootSchedule k) =
      if k < 7 then (.ok, copySuffix (clearSuffix out) (bubSuffixes 0))
      else if k < 14 then (.ok, copySuffix (clearSuffix out) (bubSuffixes 1))
      else (.errorNoValidSlots, clearSuffix out) := by
    rw [bootSchedule_sealed, bootSchedule_resetAbData]
    split_ifs <;> rfl
  simp only [Machine.run_cons_fst, hfirst, run_bootStep hreset, hanswer]

/-- Recovery from a block of zeros. -/
theorem recovery_from_zeros :
    (Machine.run bootStep [[0, 0, 0], [0, 0, 0]] (Bytes.zero 64)).1 =
      [(.errorInvalidMetadata, [0, 0, 0]), (.ok, bubSuffixes 0)] :=
  recovery_from_corruption (bubReadAbDataFromMisc_of_magic_ne (by decide)) [0, 0, 0] [[0, 0, 0]]

end BrilloBoot
