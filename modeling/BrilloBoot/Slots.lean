import BrilloBoot.AbFlow
import Mathlib.Data.ENat.Basic

/-!
# What a slot stands for

A slot offers a number of boots, its budget: as many as it has tries left while it is being tried,
any number once it has booted successfully, and none when its priority is zero or it is exhausted.
`normalize_slot` keeps the budget and brings the record into one of the three proper states, where
`slot_is_bootable` says whether the budget is positive. Charging a slot for a boot takes one from
the budget.

What `normalize_slot` can do to a slot is said once, with the conditions of its branches, in
`normalizeSlot_cases`; the facts about normalization are read off its five cases. The rest of the
development asks for the budget of a slot and for what is left of the record when it has one
(`normalizeSlot_of_bootBudget_ne_zero`) or has none (`cleared_normalizeSlot`). `LosesStanding`
orders the records by what they still entitle a slot to; normalizing, charging and clearing go down
in it.
-/

namespace BrilloBoot

namespace BubSlotData

/-- The slot has booted successfully, and is not being tried. -/
def Good (s : BubSlotData) : Prop :=
  s.priority ≠ 0#4 ∧ s.triesRemaining = 0#3 ∧ s.successfulBoot = 1#1

/-- The slot is being tried, whatever `successful_boot` says. -/
def Updating (s : BubSlotData) : Prop := s.priority ≠ 0#4 ∧ s.triesRemaining ≠ 0#3

/-- The normalized record has a positive priority. -/
def Bootable (s : BubSlotData) : Prop := (normalizeSlot s).2.priority ≠ 0#4

/-- The three state fields of the record are zero. -/
def Cleared (s : BubSlotData) : Prop :=
  s.priority = 0#4 ∧ s.triesRemaining = 0#3 ∧ s.successfulBoot = 0#1

/-- Whether a slot is good can be decided. -/
instance (s : BubSlotData) : Decidable s.Good := by unfold Good; infer_instance

/-- Whether a slot is updating can be decided. -/
instance (s : BubSlotData) : Decidable s.Updating := by unfold Updating; infer_instance

/-- Whether a slot is bootable can be decided. -/
instance (s : BubSlotData) : Decidable s.Bootable := by unfold Bootable; infer_instance

/-- Whether a slot is cleared can be decided. -/
instance (s : BubSlotData) : Decidable s.Cleared := by unfold Cleared; infer_instance

/-- The number of boots that the slot offers. -/
def bootBudget (s : BubSlotData) : ℕ∞ :=
  if s.Good then ⊤ else if s.priority = 0#4 then 0 else s.triesRemaining.toNat

/-- The record after one boot is charged to it, if it is being tried. -/
def charged (s : BubSlotData) : BubSlotData :=
  if 0 < s.triesRemaining then { s with triesRemaining := s.triesRemaining - 1 } else s

/-! ## Budgets -/

/-- An updating slot has a boot for each try. -/
theorem bootBudget_of_updating {s : BubSlotData} (h : s.Updating) :
    s.bootBudget = s.triesRemaining.toNat := by
  have hgood : ¬ s.Good := fun hg => h.2 hg.2.1
  unfold bootBudget
  rw [if_neg hgood, if_neg h.1]

/-- A good slot has no limit. -/
theorem bootBudget_of_good {s : BubSlotData} (h : s.Good) : s.bootBudget = ⊤ := by
  unfold bootBudget
  rw [if_pos h]

/-- Without a priority there is no boot. -/
theorem bootBudget_of_priority_eq_zero {s : BubSlotData} (h : s.priority = 0#4) :
    s.bootBudget = 0 := by
  simp [bootBudget, Good, h]

/-- An updating slot has boots left. -/
theorem bootBudget_ne_zero_of_updating {s : BubSlotData} (h : s.Updating) :
    s.bootBudget ≠ 0 := by
  have ht : s.triesRemaining.toNat ≠ 0 := fun h0 => h.2 (BitVec.eq_of_toNat_eq h0)
  rw [bootBudget_of_updating h]
  exact_mod_cast ht

/-- A good slot has boots left. -/
theorem bootBudget_ne_zero_of_good {s : BubSlotData} (h : s.Good) : s.bootBudget ≠ 0 := by
  simp [bootBudget_of_good h]

/-! ## The cases of `normalize_slot` -/

attribute [local simp] BitVec.pos_iff_ne_zero

/-- Everything that `normalize_slot` can do: a proper record is left alone, a record that is both
being tried and successful loses the success, and every other record offers no boot and is cleared
whole. -/
theorem normalizeSlot_cases (s : BubSlotData) :
    (s.Cleared ∧ normalizeSlot s = (false, s)) ∨
    (s.Updating ∧ s.successfulBoot = 0#1 ∧ normalizeSlot s = (false, s)) ∨
    (s.Good ∧ normalizeSlot s = (false, s)) ∨
    (s.Updating ∧ s.successfulBoot = 1#1 ∧
      normalizeSlot s = (true, { s with successfulBoot := 0 })) ∨
    (s.bootBudget = 0 ∧ ¬ s.Cleared ∧ normalizeSlot s = (true, zero)) := by
  have hsucc : s.successfulBoot = 0#1 ∨ s.successfulBoot = 1#1 := by bv_omega
  by_cases hp : s.priority = 0#4
  · -- Unbootable: proper only when the other state fields are zero too.
    by_cases hempty : s.triesRemaining = 0#3 ∧ s.successfulBoot = 0#1
    · exact .inl ⟨⟨hp, hempty⟩, by simp [normalizeSlot, hp, hempty]⟩
    · have hdirty : s.triesRemaining ≠ 0#3 ∨ s.successfulBoot ≠ 0#1 := by
        rwa [ne_eq, ne_eq, ← not_and_or]
      exact .inr (.inr (.inr (.inr ⟨bootBudget_of_priority_eq_zero hp, fun h => hempty h.2,
        by simp only [normalizeSlot]; simp [hp, hdirty]⟩)))
  · by_cases ht : s.triesRemaining = 0#3
    · -- No tries left: exhausted, or good.
      rcases hsucc with hs | hs
      · have hbudget : s.bootBudget = 0 := by simp [bootBudget, Good, ht, hs]
        exact .inr (.inr (.inr (.inr ⟨hbudget, fun h => hp h.1,
          by simp [normalizeSlot, hp, ht, hs]⟩)))
      · exact .inr (.inr (.inl ⟨⟨hp, ht, hs⟩, by simp [normalizeSlot, hp, ht, hs]⟩))
    · -- Being tried: a success is dropped.
      rcases hsucc with hs | hs
      · exact .inr (.inl ⟨⟨hp, ht⟩, hs, by simp [normalizeSlot, hp, ht, hs]⟩)
      · exact .inr (.inr (.inr (.inl ⟨⟨hp, ht⟩, hs, by simp [normalizeSlot, hp, ht, hs]⟩)))

/-- A slot with a budget is good or being tried. -/
theorem good_or_updating {s : BubSlotData} (h : s.bootBudget ≠ 0) : s.Good ∨ s.Updating := by
  rcases normalizeSlot_cases s with ⟨hz, -⟩ | ⟨hu, -⟩ | ⟨hg, -⟩ | ⟨hu, -⟩ | ⟨hz, -⟩
  · exact absurd (bootBudget_of_priority_eq_zero hz.1) h
  · exact .inr hu
  · exact .inl hg
  · exact .inr hu
  · exact absurd hz h

/-- Normalization keeps the budget. -/
@[simp] theorem bootBudget_normalizeSlot (s : BubSlotData) :
    (normalizeSlot s).2.bootBudget = s.bootBudget := by
  rcases normalizeSlot_cases s with ⟨-, h⟩ | ⟨-, -, h⟩ | ⟨-, h⟩ | ⟨hu, -, h⟩ | ⟨hz, -, h⟩
  · rw [h]
  · rw [h]
  · rw [h]
  · have hu' : Updating { s with successfulBoot := 0 } := hu
    rw [h, bootBudget_of_updating hu, bootBudget_of_updating hu']
  · rw [h, hz, bootBudget_of_priority_eq_zero rfl]

/-- A slot is bootable exactly when it has a budget. -/
theorem bootable_iff (s : BubSlotData) : s.Bootable ↔ s.bootBudget ≠ 0 := by
  unfold Bootable
  rcases normalizeSlot_cases s with ⟨hz, h⟩ | ⟨hu, -, h⟩ | ⟨hg, h⟩ | ⟨hu, -, h⟩ | ⟨hz, -, h⟩
  · simp [h, hz.1, bootBudget_of_priority_eq_zero hz.1]
  · simp [h, hu.1, bootBudget_ne_zero_of_updating hu]
  · simp [h, hg.1, bootBudget_of_good hg]
  · simp [h, hu.1, bootBudget_ne_zero_of_updating hu]
  · simp [h, hz, zero]

/-- On a normalized slot, `slot_is_bootable` decides whether there is a budget. -/
theorem slotIsBootable_normalizeSlot (s : BubSlotData) :
    slotIsBootable (normalizeSlot s).2 = true ↔ s.bootBudget ≠ 0 := by
  rcases normalizeSlot_cases s with ⟨hz, h⟩ | ⟨hu, -, h⟩ | ⟨hg, h⟩ | ⟨hu, -, h⟩ | ⟨hz, -, h⟩
  · simp [h, slotIsBootable, hz.2, bootBudget_of_priority_eq_zero hz.1]
  · simp [h, slotIsBootable, hu.2, bootBudget_ne_zero_of_updating hu]
  · simp [h, slotIsBootable, hg.2.2, bootBudget_of_good hg]
  · simp [h, slotIsBootable, hu.2, bootBudget_ne_zero_of_updating hu]
  · simp [h, hz, slotIsBootable, zero]

/-- What normalization leaves of a slot that has a budget: its priority and tries, and no success
unless it is good. -/
theorem normalizeSlot_of_bootBudget_ne_zero {s : BubSlotData} (h : s.bootBudget ≠ 0) :
    (normalizeSlot s).2.priority = s.priority ∧
      (normalizeSlot s).2.triesRemaining = s.triesRemaining ∧
      (s.Good ∧ (normalizeSlot s).2 = s ∨
        s.Updating ∧ (normalizeSlot s).2.successfulBoot = 0#1) := by
  rcases normalizeSlot_cases s with ⟨hz, -⟩ | ⟨hu, hs, h'⟩ | ⟨hg, h'⟩ | ⟨hu, -, h'⟩ | ⟨hz, -⟩
  · exact absurd (bootBudget_of_priority_eq_zero hz.1) h
  · rw [h']
    exact ⟨rfl, rfl, .inr ⟨hu, hs⟩⟩
  · rw [h']
    exact ⟨rfl, rfl, .inl ⟨hg, rfl⟩⟩
  · rw [h']
    exact ⟨rfl, rfl, .inr ⟨hu, rfl⟩⟩
  · exact absurd hz h

/-- A slot without a budget is normalized to a cleared record. -/
theorem cleared_normalizeSlot {s : BubSlotData} (h : s.bootBudget = 0) :
    (normalizeSlot s).2.Cleared := by
  rcases normalizeSlot_cases s with ⟨hz, h'⟩ | ⟨hu, -⟩ | ⟨hg, -⟩ | ⟨hu, -⟩ | ⟨-, -, h'⟩
  · rwa [h']
  · exact absurd h (bootBudget_ne_zero_of_updating hu)
  · exact absurd h (bootBudget_ne_zero_of_good hg)
  · exact absurd h (bootBudget_ne_zero_of_updating hu)
  · rw [h']
    exact ⟨rfl, rfl, rfl⟩

/-- Normalization leaves zero reserved bytes zero. -/
theorem reserved_normalizeSlot {s : BubSlotData} (h : s.reserved = .zero 7) :
    (normalizeSlot s).2.reserved = .zero 7 := by
  rcases normalizeSlot_cases s with ⟨-, h'⟩ | ⟨-, -, h'⟩ | ⟨-, h'⟩ | ⟨-, -, h'⟩ | ⟨-, -, h'⟩
  · rwa [h']
  · rwa [h']
  · rwa [h']
  · rwa [h']
  · rw [h']
    rfl

/-- `normalize_slot` reports no change exactly when it makes none. -/
theorem normalizeSlot_fst_eq_false (s : BubSlotData) :
    (normalizeSlot s).1 = false ↔ (normalizeSlot s).2 = s := by
  rcases normalizeSlot_cases s with ⟨-, h⟩ | ⟨-, -, h⟩ | ⟨-, h⟩ | ⟨-, hs, h⟩ | ⟨-, hz, h⟩
  · simp [h]
  · simp [h]
  · simp [h]
  · have hne : ({ s with successfulBoot := 0 } : BubSlotData) ≠ s := by
      intro he
      have := congrArg successfulBoot he
      simp [hs] at this
    rw [h]
    exact iff_of_false Bool.noConfusion hne
  · have hne : zero ≠ s := fun he => hz (he ▸ ⟨rfl, rfl, rfl⟩)
    rw [h]
    exact iff_of_false Bool.noConfusion hne

/-! ## Charging -/

/-- A charge keeps the priority. -/
@[simp] theorem charged_priority (s : BubSlotData) : s.charged.priority = s.priority := by
  unfold charged
  split_ifs <;> rfl

/-- A charge keeps the success. -/
@[simp] theorem charged_successfulBoot (s : BubSlotData) :
    s.charged.successfulBoot = s.successfulBoot := by
  unfold charged
  split_ifs <;> rfl

/-- A charge keeps the reserved bytes. -/
@[simp] theorem charged_reserved (s : BubSlotData) : s.charged.reserved = s.reserved := by
  unfold charged
  split_ifs <;> rfl

/-- A charged slot has one try fewer, if it had any. -/
theorem charged_triesRemaining (s : BubSlotData) :
    s.charged.triesRemaining.toNat = s.triesRemaining.toNat - 1 := by
  unfold charged
  split_ifs with h
  · have hne : s.triesRemaining ≠ 0#3 := by simpa using h
    have hsub : (s.triesRemaining - 1).toNat = s.triesRemaining.toNat - 1 := by bv_omega
    exact hsub
  · have hz : s.triesRemaining = 0#3 := by simpa using h
    simp [hz]

/-- A good slot has no try to charge. -/
theorem charged_of_good {s : BubSlotData} (h : s.Good) : s.charged = s := by
  simp [charged, h.2.1]

/-- Charging takes one from the budget of a normalized slot that has one. -/
theorem bootBudget_charged {s : BubSlotData} (h : s.bootBudget ≠ 0) :
    (normalizeSlot s).2.charged.bootBudget = s.bootBudget - 1 := by
  obtain ⟨hp, ht, ⟨hg, hn⟩ | ⟨hu, hs⟩⟩ := normalizeSlot_of_bootBudget_ne_zero h
  · rw [hn, charged_of_good hg, bootBudget_of_good hg]
    rfl
  · -- The last charge leaves a slot without tries, which is not good, as it never succeeded.
    have hgood : ¬ (normalizeSlot s).2.charged.Good := by
      intro hc
      have := hc.2.2
      simp [hs] at this
    have hpne : (normalizeSlot s).2.charged.priority ≠ 0#4 := by
      rw [charged_priority, hp]
      exact hu.1
    rw [bootBudget, if_neg hgood, if_neg hpne, charged_triesRemaining, ht,
      bootBudget_of_updating hu, ENat.natCast_sub, Nat.cast_one]

/-! ## Losing standing -/

/-- `t` has at most the standing of `s`: its priority is the same or zero, it has no more tries
left, and it is successful only if `s` is. -/
def LosesStanding (s t : BubSlotData) : Prop :=
  (t.priority = s.priority ∨ t.priority = 0#4) ∧ t.triesRemaining.toNat ≤ s.triesRemaining.toNat ∧
    (t.successfulBoot = 1#1 → s.successfulBoot = 1#1)

/-- A slot has no more standing than itself. -/
theorem LosesStanding.refl (s : BubSlotData) : s.LosesStanding s := ⟨.inl rfl, le_refl _, id⟩

/-- Losses of standing add up. -/
theorem LosesStanding.trans {s t u : BubSlotData} (h₁ : s.LosesStanding t)
    (h₂ : t.LosesStanding u) : s.LosesStanding u := by
  refine ⟨?_, h₂.2.1.trans h₁.2.1, h₁.2.2 ∘ h₂.2.2⟩
  rcases h₂.1 with h | h
  · rw [h]
    exact h₁.1
  · exact .inr h

/-- A cleared slot has no standing. -/
theorem losesStanding_zero (s : BubSlotData) : s.LosesStanding zero :=
  ⟨.inr rfl, Nat.zero_le _, fun h => absurd h (by decide)⟩

/-- Normalization gives no standing. -/
theorem losesStanding_normalizeSlot (s : BubSlotData) : s.LosesStanding (normalizeSlot s).2 := by
  rcases normalizeSlot_cases s with ⟨-, h⟩ | ⟨-, -, h⟩ | ⟨-, h⟩ | ⟨-, hs, h⟩ | ⟨-, -, h⟩
  · rw [h]
    exact .refl s
  · rw [h]
    exact .refl s
  · rw [h]
    exact .refl s
  · rw [h]
    exact ⟨.inl rfl, le_refl _, fun _ => hs⟩
  · rw [h]
    exact losesStanding_zero s

/-- A charge gives no standing. -/
theorem losesStanding_charged (s : BubSlotData) : s.LosesStanding s.charged :=
  ⟨.inl s.charged_priority, by rw [charged_triesRemaining]; exact Nat.sub_le _ _,
    fun h => s.charged_successfulBoot ▸ h⟩

end BubSlotData

end BrilloBoot
