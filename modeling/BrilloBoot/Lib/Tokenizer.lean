import Mathlib.Data.List.TakeWhile
import Mathlib.Tactic.Common

/-!
# Tokens between delimiters

A tokenizer that is asked for one token after the other (`getNext`). The tokens of a list are its
fields, what stands between the delimiters, without the empty ones (`tokens`); the tokenizer hands
them out in their order (`tokens_of_getNext`).
-/

namespace Tokenizer

variable {α : Type*} [DecidableEq α] (d : α)

/-- The next token and what is left behind it. Delimiters before it are skipped. -/
def getNext (s : List α) : Option (List α × List α) :=
  let s := s.dropWhile (· = d)
  if s = [] then none else some (s.takeWhile (· ≠ d), s.dropWhile (· ≠ d))

/-- The fields that are not empty. -/
def tokens (s : List α) : List (List α) := (s.splitOn d).filter (· ≠ [])

variable {d} {s token rest : List α}

/-- There is nothing in the empty string. -/
@[simp]
theorem tokens_nil : tokens d [] = [] := by
  simp [tokens]

/-- Splitting at a delimiter. -/
theorem tokens_append_cons (s s' : List α) :
    tokens d (s ++ d :: s') = tokens d s ++ tokens d s' := by
  unfold tokens
  rw [List.splitOn_append_cons_self, List.filter_append]

/-- A delimiter in front is skipped. -/
theorem tokens_cons_self (s : List α) : tokens d (d :: s) = tokens d s := tokens_append_cons [] s

/-- A string without delimiters is one token. -/
theorem tokens_of_notMem (hne : s ≠ []) (h : d ∉ s) : tokens d s = [s] := by
  unfold tokens
  rw [List.splitOn_eq_singleton h]
  simp [hne]

/-- When no field is empty, the fields are the tokens. -/
theorem tokens_eq_splitOn (h : ∀ field ∈ s.splitOn d, field ≠ []) : tokens d s = s.splitOn d := by
  unfold tokens
  rw [List.filter_eq_self]
  intro field hfield
  simpa using h field hfield

/-- What holds of the delimiter and within the fields holds throughout. -/
theorem forall_mem_of_splitOn {P : α → Prop} (hd : P d)
    (h : ∀ field ∈ s.splitOn d, ∀ c ∈ field, P c) : ∀ c ∈ s, P c := by
  induction s with
  | nil => simp
  | cons c s ih =>
    rw [List.splitOn_cons_eq_if_modifyHead] at h
    split_ifs at h with hc
    · obtain rfl := eq_of_beq hc
      rw [List.forall_mem_cons] at h ⊢
      exact ⟨hd, ih h.2⟩
    · -- The first field starts with the character.
      cases hs : s.splitOn d with
      | nil => exact absurd hs (List.splitOn_ne_nil _ _)
      | cons field fields =>
        rw [hs, List.modifyHead_cons] at h
        rw [hs] at ih
        rw [List.forall_mem_cons, List.forall_mem_cons] at h
        rw [List.forall_mem_cons]
        exact ⟨h.1.1, ih (List.forall_mem_cons.mpr ⟨h.1.2, h.2⟩)⟩

/-- Delimiters in front make no token. -/
theorem tokens_dropWhile (s : List α) : tokens d (s.dropWhile (· = d)) = tokens d s := by
  induction s with
  | nil => rfl
  | cons c s ih =>
    by_cases hc : c = d
    · rw [List.dropWhile_cons_of_pos (by simpa using hc), ih, hc, tokens_cons_self]
    · rw [List.dropWhile_cons_of_neg (by simpa using hc)]

/-- Behind the delimiters stands something else. -/
theorem ne_of_dropWhile {c : α} (h : s.dropWhile (· = d) = c :: rest) : c ≠ d := by
  have hhead := List.head?_dropWhile_not (· = d) s
  rw [h, List.head?_cons] at hhead
  simpa using hhead

/-- Behind a token stands a delimiter. -/
theorem eq_of_dropWhile {c : α} (h : s.dropWhile (· ≠ d) = c :: rest) : c = d := by
  have hhead := List.head?_dropWhile_not (· ≠ d) s
  rw [h, List.head?_cons] at hhead
  simpa using hhead

/-- A list that does not start with a delimiter starts with a token. -/
theorem tokens_of_head_ne {c : α} (hc : c ≠ d) (s : List α) :
    tokens d (c :: s) = (c :: s).takeWhile (· ≠ d) :: tokens d ((c :: s).dropWhile (· ≠ d)) := by
  have hsplit := List.takeWhile_append_dropWhile (p := fun x => decide (x ≠ d)) (l := c :: s)
  have hfront : (c :: s).takeWhile (· ≠ d) ≠ [] := by
    rw [List.takeWhile_cons_of_pos (by simpa using hc)]
    exact List.cons_ne_nil _ _
  have hnotMem : d ∉ (c :: s).takeWhile (· ≠ d) := by
    intro hmem
    have hp := List.mem_takeWhile_imp hmem
    simp at hp
  generalize (c :: s).takeWhile (· ≠ d) = front at hsplit hfront hnotMem ⊢
  cases hback : (c :: s).dropWhile (· ≠ d) with
  | nil =>
    rw [hback, List.append_nil] at hsplit
    rw [← hsplit, tokens_nil, tokens_of_notMem hfront hnotMem]
  | cons c' back =>
    obtain rfl := eq_of_dropWhile hback
    rw [hback] at hsplit
    rw [← hsplit, tokens_append_cons, tokens_cons_self, tokens_of_notMem hfront hnotMem,
      List.singleton_append]

/-- There is no next token exactly when there is none at all. -/
theorem getNext_eq_none_iff : getNext d s = none ↔ tokens d s = [] := by
  unfold getNext
  rw [← tokens_dropWhile s]
  cases hs : s.dropWhile (· = d) with
  | nil => simp
  | cons c back =>
    have hc := ne_of_dropWhile hs
    rw [tokens_of_head_ne hc]
    simp

/-- The tokenizer hands out the first token, and the others are left. -/
theorem tokens_of_getNext (h : getNext d s = some (token, rest)) :
    tokens d s = token :: tokens d rest := by
  unfold getNext at h
  rw [← tokens_dropWhile s]
  cases hs : s.dropWhile (· = d) with
  | nil =>
    rw [hs] at h
    cases h
  | cons c back =>
    have hc := ne_of_dropWhile hs
    rw [hs] at h
    obtain ⟨rfl, rfl⟩ := Prod.mk.inj (Option.some.inj h)
    exact tokens_of_head_ne hc back

end Tokenizer
