import BrilloBoot.Lib.Machine
import Mathlib.Data.ENat.Basic

/-!
# Grants from a queue of budgeted claimants

Claimants wait in order of preference, each with a budget of grants, which may be infinite. Each
turn grants the claimant at the head and charges it one; a claimant whose budget is used up leaves.
`schedule` is the closed form of the turns that follow: the first claimant as often as its budget
allows, then the second, and nobody once all budgets are used up. Claimants that cannot use a grant
may be cut short to one (`cutShort`).
-/

namespace Arbiter

variable {ι : Type*}

/-- One turn: who is granted, and the queue that is left. -/
def next : List (ι × ℕ∞) → Option ι × List (ι × ℕ∞)
  | [] => (none, [])
  | (x, n) :: rest => (some x, if n = 1 then rest else (x, n - 1) :: rest)

/-- Who is granted at turn `k` of a queue. -/
def schedule : List (ι × ℕ∞) → ℕ → Option ι
  | [], _ => none
  | (x, n) :: rest, k => if (k : ℕ∞) < n then some x else schedule rest (k - n.toNat)

/-- Every claimant in the queue has a grant left. -/
def Live (q : List (ι × ℕ∞)) : Prop := ∀ c ∈ q, c.2 ≠ 0

/-- What is live stays live. -/
theorem Live.next {q : List (ι × ℕ∞)} (h : Live q) : Live (next q).2 := by
  cases q with
  | nil => exact h
  | cons c rest =>
    obtain ⟨x, n⟩ := c
    rw [Live, List.forall_mem_cons] at h
    simp only [Arbiter.next]
    split_ifs with h1
    · exact h.2
    · rw [Live, List.forall_mem_cons]
      refine ⟨?_, h.2⟩
      rw [ne_eq, tsub_eq_zero_iff_le]
      intro hle
      exact h1 (le_antisymm hle (Order.one_le_iff_ne_zero.mpr h.1))

/-- The first turn of the schedule is the next turn. -/
theorem schedule_zero {q : List (ι × ℕ∞)} (h : Live q) : schedule q 0 = (next q).1 := by
  cases q with
  | nil => rfl
  | cons c rest =>
    have hpos : 0 < c.2 := pos_iff_ne_zero.mpr (h c (by simp))
    simp [schedule, next, hpos]

/-- The later turns of the schedule are those of the queue that is left. -/
theorem schedule_succ {q : List (ι × ℕ∞)} (h : Live q) (k : ℕ) :
    schedule q (k + 1) = schedule (next q).2 k := by
  cases q with
  | nil => rfl
  | cons c rest =>
    obtain ⟨x, n⟩ := c
    have hn : n ≠ 0 := h (x, n) (by simp)
    by_cases h1 : n = 1
    · subst h1
      simp [schedule, next]
    · simp only [schedule, next, if_neg h1]
      cases n with
      | top => simp
      | coe m =>
        have hm : m ≠ 0 := by exact_mod_cast hn
        -- Both sides count the grants that are left to the head of the queue.
        have hlt : (((k + 1 : ℕ) : ℕ∞) < (m : ℕ∞)) ↔ ((k : ℕ∞) < ((m : ℕ∞) - 1)) := by
          norm_cast
          omega
        have hsub : k + 1 - m = k - (m - 1) := by omega
        have htoNat : ((m : ℕ∞) - 1).toNat = m - 1 := by norm_cast
        rw [htoNat, ENat.toNat_natCast, hsub]
        exact if_congr hlt rfl rfl

/-- The outputs of a run of turns are the entries of the schedule. An input may ask for its output
in a form of its own. -/
theorem run_next {κ ω : Type*} (f : κ → Option ι → ω) {q : List (ι × ℕ∞)} (h : Live q)
    (inputs : List κ) :
    (Machine.run (fun x q => (f x (next q).1, (next q).2)) inputs q).1 =
      inputs.mapIdx fun k x => f x (schedule q k) := by
  induction inputs generalizing q with
  | nil => rfl
  | cons x inputs ih =>
    rw [Machine.run_cons_fst, ih h.next, List.mapIdx_cons, schedule_zero h]
    congr 2
    funext k y
    rw [schedule_succ h]

/-! ## Claimants that cannot use a grant -/

/-- The queue in which the claimants that cannot use a grant leave with their first. -/
def cutShort (usable : ι → Bool) (q : List (ι × ℕ∞)) : List (ι × ℕ∞) :=
  q.map fun c => (c.1, if usable c.1 then c.2 else 1)

variable {usable : ι → Bool} {q : List (ι × ℕ∞)}

/-- Cutting budgets short leaves a live queue live. -/
theorem Live.cutShort (h : Live q) : Live (cutShort usable q) := by
  intro c hc
  obtain ⟨c', hc', rfl⟩ := List.mem_map.mp hc
  dsimp only
  split_ifs
  · exact h c' hc'
  · exact one_ne_zero

/-- It leaves the next candidate as it is. -/
theorem next_cutShort_fst : (next (cutShort usable q)).1 = (next q).1 := by
  cases q <;> rfl

/-- A turn whose grant can be used is a turn of the queue. -/
theorem next_cutShort_of_usable (h : ∀ x, (next q).1 = some x → usable x = true) :
    (next (cutShort usable q)).2 = cutShort usable (next q).2 := by
  cases q with
  | nil => rfl
  | cons c rest =>
    have hc : usable c.1 = true := h c.1 rfl
    by_cases hone : c.2 = 1 <;> simp [next, cutShort, hc, hone]

/-- A turn whose grant cannot be used removes its claimant. -/
theorem next_cutShort_of_not_usable {x : ι} (h : (next q).1 = some x) (hx : usable x = false) :
    (next (cutShort usable q)).2 = cutShort usable q.tail := by
  cases q with
  | nil => rfl
  | cons c rest =>
    obtain rfl : c.1 = x := Option.some.inj h
    simp [next, cutShort, hx]

end Arbiter
