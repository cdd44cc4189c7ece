import BrilloBoot.Lib.DoWhile
import Mathlib.Data.List.Chain
import Mathlib.Logic.Function.Basic

/-!
# Linked lists

A list in memory whose cells point to the next cell and to the previous one. `Linked` says which
cells it has; where the first of them points back to is left open, so that a list may be closed to a
ring there. A cell is linked in behind the last one (`Linked.append`) or before the first one
(`Linked.prepend`), and a loop over the list meets its cells in order (`forEach_eq`).
-/

namespace LinkedList

variable {α σ : Type*}

/-- The cells `xs` are linked in this order. -/
structure Linked (next prev : α → Option α) (xs : List α) : Prop where
  nodup : xs.Nodup
  links : xs.IsChain fun x y => next x = some y ∧ prev y = some x
  last : ∀ x ∈ xs.getLast?, next x = none

/-- The first cell points back to the last one. -/
def Closed (prev : α → Option α) (xs : List α) : Prop :=
  ∀ x ∈ xs.head?, prev x = xs.getLast?

/-- No cells are linked. -/
theorem linked_nil (next prev : α → Option α) : Linked next prev [] :=
  ⟨List.nodup_nil, List.isChain_nil, by simp⟩

section

variable [DecidableEq α] {next prev : α → Option α} {xs : List α} {t : α}

/-- A cell on its own. -/
theorem linked_singleton (next prev : α → Option α) (t : α) :
    Linked (Function.update next t none) prev [t] :=
  ⟨by simp, List.isChain_singleton t, by simp⟩

/-- A cell is linked in behind the last one. Where the first cell points back to may change. -/
theorem Linked.append {last : α} {prev' : α → Option α} (h : Linked next prev xs) (ht : t ∉ xs)
    (hlast : xs.getLast? = some last) (hback : prev' t = some last)
    (hprev : ∀ x ∈ xs.tail, prev' x = prev x) :
    Linked (Function.update (Function.update next t none) last (some t)) prev' (xs ++ [t]) := by
  have hmem : last ∈ xs := List.mem_of_getLast? hlast
  have hne : t ≠ last := fun heq => ht (heq ▸ hmem)
  refine ⟨?_, ?_, ?_⟩
  · rw [List.nodup_append]
    exact ⟨h.nodup, by simp, fun a ha b hb heq => ht (List.mem_singleton.mp hb ▸ heq ▸ ha)⟩
  · refine List.IsChain.append (h.links.imp_of_mem_tail_imp ?_) (List.isChain_singleton t) ?_
    · rintro a b ha hb ⟨hnext, hback⟩
      -- A cell with a next one is not the last.
      have halast : a ≠ last := by
        rintro rfl
        rw [h.last a hlast] at hnext
        cases hnext
      have hat : a ≠ t := fun heq => ht (heq ▸ ha)
      rw [Function.update_of_ne halast, Function.update_of_ne hat, hprev b hb]
      exact ⟨hnext, hback⟩
    · rintro a ha b hb
      obtain rfl : last = a := Option.some.inj (hlast.symm.trans ha)
      obtain rfl : t = b := Option.some.inj hb
      exact ⟨Function.update_self _ _ _, hback⟩
  · intro x hx
    obtain rfl : t = x := by simpa using hx
    rw [Function.update_of_ne hne, Function.update_self]

/-- A cell is linked in before the first one. Where it points back to is left open. -/
theorem Linked.prepend {head : α} {prev' : α → Option α} (h : Linked next prev (head :: xs))
    (ht : t ∉ head :: xs) (hback : prev' head = some t) (hprev : ∀ x ∈ xs, prev' x = prev x) :
    Linked (Function.update next t (some head)) prev' (t :: head :: xs) := by
  refine ⟨List.nodup_cons.mpr ⟨ht, h.nodup⟩, ?_, ?_⟩
  · refine List.isChain_cons_cons.mpr ⟨⟨Function.update_self _ _ _, hback⟩, ?_⟩
    refine h.links.imp_of_mem_tail_imp ?_
    rintro a b ha hb ⟨hnext, hback'⟩
    have hat : a ≠ t := fun heq => ht (heq ▸ ha)
    rw [Function.update_of_ne hat, hprev b hb]
    exact ⟨hnext, hback'⟩
  · intro x hx
    rw [List.getLast?_cons_cons] at hx
    have hxt : x ≠ t := fun heq => ht (heq ▸ List.mem_of_getLast? hx)
    rw [Function.update_of_ne hxt]
    exact h.last x hx

end

/-- A loop over a list, for a number of turns. -/
def forEach (next : α → Option α) (f : σ → α → σ) (cell : Option α) (s : σ) :
    ℕ → (Option α × σ) ⊕ σ :=
  DoWhile.run (fun _ (cell, s) =>
    match cell with
    | none => .inr s
    | some x => .inl (next x, f s x)) (cell, s)

/-- A cell points to the one behind it. -/
theorem Linked.next_getElem {next prev : α → Option α} {xs : List α} (h : Linked next prev xs)
    {k : ℕ} (hk : k < xs.length) : next xs[k] = (xs.drop (k + 1)).head? := by
  rw [List.head?_drop]
  rcases Nat.lt_or_ge (k + 1) xs.length with hlt | hge
  · rw [List.getElem?_eq_getElem hlt]
    exact (List.isChain_iff_getElem.mp h.links k hlt).1
  · have hlast : xs.getLast? = some xs[k] := by
      rw [List.getLast?_eq_getElem?, (by omega : xs.length - 1 = k), List.getElem?_eq_getElem hk]
    rw [List.getElem?_eq_none hge]
    exact h.last _ hlast

/-- The loop meets the cells in their order. -/
theorem forEach_eq {next prev : α → Option α} {xs : List α} (h : Linked next prev xs)
    (f : σ → α → σ) (s : σ) :
    forEach next f xs.head? s (xs.length + 1) = .inr (xs.foldl f s) := by
  have hturns (k : ℕ) (hk : k ≤ xs.length) :
      forEach next f xs.head? s k = .inl ((xs.drop k).head?, (xs.take k).foldl f s) := by
    induction k with
    | zero => rfl
    | succ k ih =>
      have hcell : (xs.drop k).head? = some xs[k] := by
        rw [List.head?_drop, List.getElem?_eq_getElem hk]
      rw [forEach, DoWhile.run_succ_of_inl (ih (Nat.le_of_succ_le hk)), hcell]
      simp only [h.next_getElem hk, List.take_succ_eq_append_getElem hk, List.foldl_append]
      rfl
  have hend : (xs.drop xs.length).head? = none := by simp
  rw [forEach, DoWhile.run_succ_of_inl (hturns xs.length (Nat.le_refl _)), hend, List.take_length]

end LinkedList
