import BrilloBoot.Lib.DoWhile
import Mathlib.Algebra.Group.Nat.Defs
import Mathlib.Data.Nat.Find

/-!
# Searching with a counter of a fixed width

`for (i = 0; i < bound; ++i) if (found(i)) return i;` with a counter of `w` bits and a bound of any
width. After `2 ^ w` turns the counter is at zero again, so that the loop only ever looks at indices
below `2 ^ w`, and with a bound that the counter cannot reach it ends only by finding something
(`search_ends_iff`). Up to its end it looks at the indices in order (`search_eq_inl_iff`), so that
those it looks at are the ones up to its first match (`examines_iff`).
-/

namespace CounterSearch

variable {w : ℕ} (bound : ℕ) (found : ℕ → Bool)

/-- One turn: the test of the bound, the search's own test, and the increment, which wraps. -/
def turn (_ : ℕ) (i : BitVec w) : BitVec w ⊕ Option ℕ :=
  if i.toNat < bound then if found i.toNat then .inr (some i.toNat) else .inl (i + 1#w)
  else .inr none

/-- The first `k` turns: the index of a match, `none` when the bound is reached. -/
def search (w k : ℕ) : BitVec w ⊕ Option ℕ := DoWhile.run (turn bound found) 0#w k

/-- The search looks at index `i`: some turn starts there, below the bound. -/
def Examines (w i : ℕ) : Prop :=
  ∃ k c, search bound found w k = .inl c ∧ c.toNat = i ∧ i < bound

variable {bound found}

/-- As long as the search goes on, the counter has counted the turns, and nothing was found. -/
theorem search_eq_inl_iff {k : ℕ} {c : BitVec w} :
    search bound found w k = .inl c ↔
      c = BitVec.ofNat w k ∧ ∀ j < k, j % 2 ^ w < bound ∧ found (j % 2 ^ w) = false := by
  induction k generalizing c with
  | zero =>
    constructor
    · intro h
      exact ⟨(Sum.inl.inj h).symm, by simp⟩
    · rintro ⟨rfl, -⟩
      rfl
  | succ k ih =>
    have hcount : (BitVec.ofNat w k).toNat = k % 2 ^ w := BitVec.toNat_ofNat k w
    constructor
    · intro h
      obtain ⟨c', hc', hturn⟩ := DoWhile.exists_of_run_succ_eq_inl h
      obtain ⟨rfl, hbefore⟩ := ih.mp hc'
      unfold turn at hturn
      rw [hcount] at hturn
      split_ifs at hturn with hbound hfound
      refine ⟨?_, fun j hj => ?_⟩
      · rw [← Sum.inl.inj hturn, BitVec.ofNat_add]
      · rcases Nat.lt_succ_iff_lt_or_eq.mp hj with hlt | rfl
        · exact hbefore j hlt
        · exact ⟨hbound, by simpa using hfound⟩
    · rintro ⟨rfl, hall⟩
      have hbefore : search bound found w k = .inl (BitVec.ofNat w k) :=
        ih.mpr ⟨rfl, fun j hj => hall j (by omega)⟩
      obtain ⟨hbound, hfound⟩ := hall k (by omega)
      rw [search, DoWhile.run_succ_of_inl hbefore, turn, hcount, if_pos hbound,
        if_neg (by simp [hfound]), BitVec.ofNat_add]

/-- The first match is returned. -/
theorem search_eq_some {m : ℕ} (hw : m < 2 ^ w) (hbound : m < bound) (hfound : found m = true)
    (hbefore : ∀ j < m, found j = false) : search bound found w (m + 1) = .inr (some m) := by
  have hreach : search bound found w m = .inl (BitVec.ofNat w m) := by
    refine search_eq_inl_iff.mpr ⟨rfl, fun j hj => ?_⟩
    rw [Nat.mod_eq_of_lt (by omega)]
    exact ⟨by omega, hbefore j hj⟩
  have hcount : (BitVec.ofNat w m).toNat = m := by
    rw [BitVec.toNat_ofNat, Nat.mod_eq_of_lt hw]
  rw [search, DoWhile.run_succ_of_inl hreach, turn, hcount, if_pos hbound, if_pos hfound]

/-- A bound that the counter can reach is reached when nothing is found. -/
theorem search_eq_none (hw : bound < 2 ^ w) (hnone : ∀ j < bound, found j = false) :
    search bound found w (bound + 1) = .inr none := by
  have hreach : search bound found w bound = .inl (BitVec.ofNat w bound) := by
    refine search_eq_inl_iff.mpr ⟨rfl, fun j hj => ?_⟩
    rw [Nat.mod_eq_of_lt (by omega)]
    exact ⟨hj, hnone j hj⟩
  have hcount : (BitVec.ofNat w bound).toNat = bound := by
    rw [BitVec.toNat_ofNat, Nat.mod_eq_of_lt hw]
  rw [search, DoWhile.run_succ_of_inl hreach, turn, hcount, if_neg (Nat.lt_irrefl bound)]

/-- A bound that the counter cannot reach is never reached. -/
theorem search_never_ends (hw : 2 ^ w ≤ bound) (hnone : ∀ j < 2 ^ w, found j = false) (k : ℕ) :
    search bound found w k = .inl (BitVec.ofNat w k) := by
  refine search_eq_inl_iff.mpr ⟨rfl, fun j _ => ?_⟩
  have hlt : j % 2 ^ w < 2 ^ w := Nat.mod_lt j (Nat.two_pow_pos w)
  exact ⟨by omega, hnone _ hlt⟩

/-- The three ways in which a search goes. -/
theorem search_cases (w bound : ℕ) (found : ℕ → Bool) :
    (∃ m < 2 ^ w, m < bound ∧ found m = true ∧ (∀ j < m, found j = false) ∧
      search bound found w (m + 1) = .inr (some m)) ∨
    (bound < 2 ^ w ∧ (∀ j < bound, found j = false) ∧
      search bound found w (bound + 1) = .inr none) ∨
    (2 ^ w ≤ bound ∧ (∀ j < 2 ^ w, found j = false) ∧
      ∀ k, search bound found w k = .inl (BitVec.ofNat w k)) := by
  by_cases hmatch : ∃ m, m < 2 ^ w ∧ m < bound ∧ found m = true
  · -- The least of the matches.
    obtain ⟨hw, hbound, hfound⟩ := Nat.find_spec hmatch
    have hbefore : ∀ j < Nat.find hmatch, found j = false := by
      intro j hj
      have hmin := Nat.find_min hmatch hj
      simpa [show j < 2 ^ w by omega, show j < bound by omega] using hmin
    exact .inl ⟨_, hw, hbound, hfound, hbefore, search_eq_some hw hbound hfound hbefore⟩
  · have hnone : ∀ j, j < 2 ^ w → j < bound → found j = false := by
      intro j hw hbound
      simpa [hw, hbound] using fun h => hmatch ⟨j, hw, hbound, h⟩
    rcases Nat.lt_or_ge bound (2 ^ w) with hlt | hge
    · have hnone' : ∀ j < bound, found j = false := fun j hj => hnone j (by omega) hj
      exact .inr (.inl ⟨hlt, hnone', search_eq_none hlt hnone'⟩)
    · have hnone' : ∀ j < 2 ^ w, found j = false := fun j hj => hnone j hj (by omega)
      exact .inr (.inr ⟨hge, hnone', search_never_ends hge hnone'⟩)

/-- The search ends within the turns that its bound allows, exactly when the counter can reach the
bound or a match. -/
theorem search_ends_iff :
    (∃ result, search bound found w (bound + 1) = .inr result) ↔
      bound < 2 ^ w ∨ ∃ i < 2 ^ w, found i = true := by
  rcases search_cases w bound found with
    ⟨m, hw, hbound, hfound, -, h⟩ | ⟨hw, -, h⟩ | ⟨hw, hnone, h⟩
  · exact iff_of_true ⟨_, DoWhile.run_of_le h (by omega)⟩ (.inr ⟨m, hw, hfound⟩)
  · exact iff_of_true ⟨_, h⟩ (.inl hw)
  · refine iff_of_false ?_ ?_
    · rintro ⟨result, hresult⟩
      rw [h] at hresult
      cases hresult
    · rintro (hlt | ⟨i, hi, hfound⟩)
      · omega
      · rw [hnone i hi] at hfound
        cases hfound

/-- The search looks at the indices up to its first match. -/
theorem examines_iff {i : ℕ} :
    Examines bound found w i ↔ i < 2 ^ w ∧ i < bound ∧ ∀ j < i, found j = false := by
  constructor
  · rintro ⟨k, c, hk, rfl, hbound⟩
    obtain ⟨rfl, hbefore⟩ := search_eq_inl_iff.mp hk
    rw [BitVec.toNat_ofNat] at hbound ⊢
    have hlt : k % 2 ^ w < 2 ^ w := Nat.mod_lt k (Nat.two_pow_pos w)
    have hle : k % 2 ^ w ≤ k := Nat.mod_le k _
    refine ⟨hlt, hbound, fun j hj => ?_⟩
    have hj' := (hbefore j (by omega)).2
    rwa [Nat.mod_eq_of_lt (by omega)] at hj'
  · rintro ⟨hw, hbound, hbefore⟩
    refine ⟨i, BitVec.ofNat w i, search_eq_inl_iff.mpr ⟨rfl, fun j hj => ?_⟩, ?_, hbound⟩
    · rw [Nat.mod_eq_of_lt (by omega)]
      exact ⟨by omega, hbefore j hj⟩
    · rw [BitVec.toNat_ofNat, Nat.mod_eq_of_lt hw]

/-- What is returned was looked at, and matches. -/
theorem examines_of_search_eq_some {k i : ℕ} (h : search bound found w k = .inr (some i)) :
    Examines bound found w i ∧ found i = true := by
  obtain ⟨j, c, hj, hturn⟩ := DoWhile.exists_of_run_eq_inr h
  unfold turn at hturn
  split_ifs at hturn with hbound hfound
  · obtain rfl := Option.some.inj (Sum.inr.inj hturn)
    exact ⟨⟨j, c, hj, rfl, hbound⟩, hfound⟩
  · cases hturn

/-- The search stays below `n` exactly when its bound does, or a match stops it there. -/
theorem examines_lt_iff {n : ℕ} (hn : n < 2 ^ w) :
    (∀ i, Examines bound found w i → i < n) ↔ bound ≤ n ∨ ∃ i < n, found i = true := by
  simp only [examines_iff]
  constructor
  · intro h
    by_contra hnot
    rw [not_or, Nat.not_le] at hnot
    have hnone : ∀ j < n, found j = false := by
      intro j hj
      simpa using fun hfound => hnot.2 ⟨j, hj, hfound⟩
    exact Nat.lt_irrefl n (h n ⟨hn, hnot.1, hnone⟩)
  · rintro (hle | ⟨m, hm, hfound⟩) i ⟨-, hbound, hbefore⟩
    · omega
    · by_contra hge
      have hclash := hbefore m (by omega)
      rw [hfound] at hclash
      cases hclash

end CounterSearch
