import Mathlib.Data.Nat.Find
import Mathlib.Data.Nat.Notation
import Mathlib.Tactic.Common

/-!
# Loops that test after their body

The body of a do-while loop either goes on, from a new state, or leaves the loop with a result; it
may depend on the number of the turn. `run body s k` is what `k` turns come to: the state after all
of them, or the result of the one that left the loop. A loop that is not left has no result, so a
fact about its end says that it has one. A loop whose every further turn lowers a measure is left
within as many turns as the measure allows (`exists_run_eq_inr`).
-/

namespace DoWhile

variable {σ ρ : Type*}

/-- What the first `k` turns from a state come to. -/
def run (body : ℕ → σ → σ ⊕ ρ) (s : σ) : ℕ → σ ⊕ ρ
  | 0 => .inl s
  | k + 1 =>
    match run body s k with
    | .inl s' => body k s'
    | .inr r => .inr r

variable {body : ℕ → σ → σ ⊕ ρ} {s s' : σ} {r : ρ} {k : ℕ}

/-- The turn after `k` turns that did not leave the loop. -/
theorem run_succ_of_inl (h : run body s k = .inl s') : run body s (k + 1) = body k s' := by
  rw [run, h]

/-- A loop that was left stays left. -/
theorem run_succ_of_inr (h : run body s k = .inr r) : run body s (k + 1) = .inr r := by
  rw [run, h]

/-- The result does not depend on how many turns are allowed beyond the last. -/
theorem run_of_le {k' : ℕ} (h : run body s k = .inr r) (hle : k ≤ k') :
    run body s k' = .inr r := by
  induction hle with
  | refl => exact h
  | step _ ih => exact run_succ_of_inr ih

/-- A loop has one result. -/
theorem result_unique {r' : ρ} {k' : ℕ} (h : run body s k = .inr r)
    (h' : run body s k' = .inr r') : r = r' := by
  have hmax := run_of_le h (Nat.le_max_left k k')
  have hmax' := run_of_le h' (Nat.le_max_right k k')
  exact Sum.inr.inj (hmax.symm.trans hmax')

/-- A loop that goes on after a turn went on before it. -/
theorem exists_of_run_succ_eq_inl {s'' : σ} (h : run body s (k + 1) = .inl s'') :
    ∃ s', run body s k = .inl s' ∧ body k s' = .inl s'' := by
  rw [run] at h
  cases hk : run body s k with
  | inl s' =>
    rw [hk] at h
    exact ⟨s', rfl, h⟩
  | inr r =>
    rw [hk] at h
    cases h

/-- A loop that was left was left by one of its turns. -/
theorem exists_of_run_eq_inr (h : run body s k = .inr r) :
    ∃ j s', run body s j = .inl s' ∧ body j s' = .inr r := by
  induction k with
  | zero => cases h
  | succ k ih =>
    cases hk : run body s k with
    | inl s' => exact ⟨k, s', hk, (run_succ_of_inl hk).symm.trans h⟩
    | inr r' =>
      rw [run_succ_of_inr hk, ← hk] at h
      exact ih h

/-- What holds at the start and is kept by every turn holds as long as the loop goes on. -/
theorem invariant_of_run_eq_inl {P : σ → Prop} (hstart : P s)
    (hturn : ∀ k s' s'', P s' → body k s' = .inl s'' → P s'') (h : run body s k = .inl s') :
    P s' := by
  induction k generalizing s' with
  | zero =>
    obtain rfl := Sum.inl.inj h
    exact hstart
  | succ k ih =>
    obtain ⟨s₁, h₁, hk⟩ := exists_of_run_succ_eq_inl h
    exact hturn k s₁ s' (ih h₁) hk

/-- A loop whose turns are followed by those of another loop is followed by it as long as it goes
on. -/
theorem exists_run_eq_inl_of_sim {τ υ : Type*} (body' : ℕ → τ → τ ⊕ υ) {t : τ} {R : σ → τ → Prop}
    (hturn : ∀ k s' s'' t', R s' t' → body k s' = .inl s'' →
      ∃ t'', body' k t' = .inl t'' ∧ R s'' t'')
    (hstart : R s t) (h : run body s k = .inl s') :
    ∃ t', run body' t k = .inl t' ∧ R s' t' := by
  induction k generalizing s' with
  | zero =>
    obtain rfl := Sum.inl.inj h
    exact ⟨t, rfl, hstart⟩
  | succ k ih =>
    obtain ⟨s₁, h₁, hk⟩ := exists_of_run_succ_eq_inl h
    obtain ⟨t₁, ht₁, hrel⟩ := ih h₁
    obtain ⟨t', ht', hrel'⟩ := hturn k s₁ s' t₁ hrel hk
    exact ⟨t', (run_succ_of_inl ht₁).trans ht', hrel'⟩

section Measure

variable {μ : σ → ℕ}

/-- When every further turn lowers a measure, it pays for the turns so far. -/
theorem measure_add_le
    (hdec : ∀ k s' s'', run body s k = .inl s' → body k s' = .inl s'' → μ s'' < μ s')
    (h : run body s k = .inl s') : μ s' + k ≤ μ s := by
  induction k generalizing s' with
  | zero =>
    obtain rfl := Sum.inl.inj h
    exact Nat.le_refl _
  | succ k ih =>
    obtain ⟨s₁, h₁, hturn⟩ := exists_of_run_succ_eq_inl h
    have hlt := hdec k s₁ s' h₁ hturn
    have hle := ih h₁
    omega

/-- When every further turn lowers a measure, the loop is left. -/
theorem exists_run_eq_inr
    (hdec : ∀ k s' s'', run body s k = .inl s' → body k s' = .inl s'' → μ s'' < μ s')
    (hk : μ s < k) : ∃ r, run body s k = .inr r := by
  cases h : run body s k with
  | inl s' =>
    have hle := measure_add_le hdec h
    omega
  | inr r => exact ⟨r, rfl⟩

/-- When no turn raises a measure, it does not rise while the loop goes on. -/
theorem measure_le_of_le (hle : ∀ k s s', body k s = .inl s' → μ s' ≤ μ s) {j : ℕ} {s₁ s₂ : σ}
    (h₁ : run body s j = .inl s₁) (h₂ : run body s k = .inl s₂) (hjk : j ≤ k) : μ s₂ ≤ μ s₁ := by
  induction hjk generalizing s₂ with
  | refl =>
    obtain rfl := Sum.inl.inj (h₁.symm.trans h₂)
    exact Nat.le_refl _
  | step _ ih =>
    obtain ⟨s', h', hturn⟩ := exists_of_run_succ_eq_inl h₂
    exact Nat.le_trans (hle _ s' s₂ hturn) (ih h')

/-- When no turn raises a measure, it is the same from some turn on, as long as the loop goes on. -/
theorem exists_stall (hle : ∀ k s s', body k s = .inl s' → μ s' ≤ μ s) :
    ∃ n s', run body s n = .inl s' ∧
      ∀ k, n ≤ k → ∀ s'', run body s k = .inl s'' → μ s'' = μ s' := by
  have hreached : ∃ m k s', run body s k = .inl s' ∧ μ s' = m := ⟨μ s, 0, s, rfl, rfl⟩
  classical
  -- The turn to take is one after which the measure is least.
  obtain ⟨n, s', hn, hmin⟩ := Nat.find_spec hreached
  refine ⟨n, s', hn, fun k hk s'' hs'' => Nat.le_antisymm (measure_le_of_le hle hn hs'' hk) ?_⟩
  rw [hmin]
  exact Nat.find_min' hreached ⟨k, s'', hs'', rfl⟩

end Measure

end DoWhile
