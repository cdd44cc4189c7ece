import Mathlib.Data.List.Basic
import Mathlib.Tactic.Common

/-!
# Pools of buffers

A pool of a fixed number of buffers, each in use or not. `acquire` hands out the first buffer that
is not in use; when there is none it has no result, and its caller waits. A caller that acquires
buffers and returns none has one more of them in use after each, so that it has to wait once it has
acquired as many as there are (`inUse_of_acquire`, `acquire_eq_none_iff`).
-/

namespace BufferPool

variable {β : Type*}

/-- A buffer of a pool. -/
structure Entry (β : Type*) where
  buffer : β
  inUse : Bool

/-- The place and the contents of the first buffer that is not in use, and the pool with this buffer
in use. -/
def acquire : List (Entry β) → Option (ℕ × β × List (Entry β))
  | [] => none
  | entry :: pool =>
    if entry.inUse then
      (acquire pool).map fun (i, buffer, pool) => (i + 1, buffer, entry :: pool)
    else some (0, entry.buffer, { entry with inUse := true } :: pool)

/-- The pool with other contents in a buffer. -/
def store (pool : List (Entry β)) (i : ℕ) (buffer : β) : List (Entry β) :=
  pool.modify i fun entry => { entry with buffer }

/-- The pool with a buffer returned to it. -/
def release (pool : List (Entry β)) (i : ℕ) : List (Entry β) :=
  pool.modify i fun entry => { entry with inUse := false }

/-- The number of buffers in use. -/
def inUse (pool : List (Entry β)) : ℕ := pool.countP Entry.inUse

variable {pool pool' : List (Entry β)} {i : ℕ} {buffer : β}

/-- What is acquired stands behind buffers that are in use. -/
theorem exists_of_acquire (h : acquire pool = some (i, buffer, pool')) :
    ∃ front back, pool = front ++ ⟨buffer, false⟩ :: back ∧ i = front.length ∧
      pool' = front ++ ⟨buffer, true⟩ :: back := by
  induction pool generalizing i buffer pool' with
  | nil => cases h
  | cons entry pool ih =>
    rw [acquire] at h
    split_ifs at h with huse
    · obtain ⟨⟨j, buffer', pool''⟩, hrest, heq⟩ := Option.map_eq_some_iff.mp h
      obtain ⟨rfl, rfl, rfl⟩ : j + 1 = i ∧ buffer' = buffer ∧ entry :: pool'' = pool' := by
        simpa using heq
      obtain ⟨front, back, rfl, rfl, rfl⟩ := ih hrest
      exact ⟨entry :: front, back, rfl, rfl, rfl⟩
    · obtain ⟨rfl, rfl, rfl⟩ : 0 = i ∧ entry.buffer = buffer ∧
          { entry with inUse := true } :: pool = pool' := by simpa using h
      refine ⟨[], pool, ?_, rfl, rfl⟩
      rw [← Bool.eq_false_iff.mpr huse]
      rfl

/-- No more buffers are in use than there are. -/
theorem inUse_le_length (pool : List (Entry β)) : inUse pool ≤ pool.length := List.countP_le_length

/-- A caller waits when every buffer is in use. -/
theorem acquire_eq_none_iff : acquire pool = none ↔ inUse pool = pool.length := by
  induction pool with
  | nil => simp [acquire, inUse]
  | cons entry pool ih =>
    have hle := inUse_le_length pool
    unfold inUse at ih hle ⊢
    rw [acquire, List.length_cons]
    split_ifs with huse
    · rw [List.countP_cons_of_pos huse, Option.map_eq_none_iff, ih]
      omega
    · rw [List.countP_cons_of_neg huse]
      simp
      omega

/-- A buffer that is acquired stays in the pool. -/
theorem length_of_acquire (h : acquire pool = some (i, buffer, pool')) :
    pool'.length = pool.length := by
  obtain ⟨front, back, rfl, rfl, rfl⟩ := exists_of_acquire h
  simp

/-- One more buffer is in use. -/
theorem inUse_of_acquire (h : acquire pool = some (i, buffer, pool')) :
    inUse pool' = inUse pool + 1 := by
  obtain ⟨front, back, rfl, rfl, rfl⟩ := exists_of_acquire h
  unfold inUse
  rw [List.countP_append, List.countP_append, List.countP_cons_of_pos rfl,
    List.countP_cons_of_neg Bool.false_ne_true, Nat.add_assoc]

/-- Storing keeps the length of the pool. -/
@[simp]
theorem length_store (pool : List (Entry β)) (i : ℕ) (buffer : β) :
    (store pool i buffer).length = pool.length := List.length_modify _ _ _

/-- The contents of a buffer do not change whether it is in use. -/
@[simp]
theorem inUse_store (pool : List (Entry β)) (i : ℕ) (buffer : β) :
    inUse (store pool i buffer) = inUse pool := by
  unfold inUse store
  induction pool generalizing i with
  | nil => rw [List.modify_nil]
  | cons entry pool ih =>
    cases i with
    | zero => rfl
    | succ i => rw [List.modify_succ_cons, List.countP_cons, List.countP_cons, ih]

/-- The entry behind a front is the one that is changed. -/
theorem modify_append_cons (front back : List (Entry β)) (entry : Entry β)
    (f : Entry β → Entry β) :
    (front ++ entry :: back).modify front.length f = front ++ f entry :: back := by
  induction front with
  | nil => rfl
  | cons e front ih => rw [List.cons_append, List.length_cons, List.modify_succ_cons, ih]; rfl

/-- A buffer that is acquired, filled and returned is not in use. -/
theorem inUse_release_of_acquire (h : acquire pool = some (i, buffer, pool')) (buffer' : β) :
    inUse (release (store pool' i buffer') i) = inUse pool := by
  obtain ⟨front, back, rfl, rfl, rfl⟩ := exists_of_acquire h
  unfold inUse release store
  rw [modify_append_cons, modify_append_cons, List.countP_append, List.countP_append,
    List.countP_cons_of_neg Bool.false_ne_true, List.countP_cons_of_neg Bool.false_ne_true]

/-- When none is in use, each is free. -/
theorem inUse_eq_zero_iff : inUse pool = 0 ↔ ∀ entry ∈ pool, entry.inUse = false := by
  unfold inUse
  rw [List.countP_eq_zero]
  simp only [Bool.not_eq_true]

end BufferPool
