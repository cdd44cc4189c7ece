import BrilloBoot.Lib.Bytes

/-!
# Byte-addressed disks

A disk is an unbounded array of bytes. `read` and `write` transfer a contiguous range of it; a write
is seen by the reads of its own range and by no read of a range apart from it.
-/

/-- The contents of a disk. -/
def Disk := ℕ → Byte

/-- A disk of zeros. -/
instance : Inhabited Disk := ⟨fun _ => 0⟩

namespace Disk

variable (d : Disk) (pos : ℕ)

/-- The `n` bytes from `pos` on. -/
def read (n : ℕ) : List Byte := (List.range n).map fun i => d (pos + i)

/-- The disk with the bytes from `pos` on replaced by those of a buffer. -/
def write (buf : List Byte) : Disk := fun a =>
  if pos ≤ a ∧ a < pos + buf.length then buf.getD (a - pos) 0 else d a

/-- As many bytes are read as were asked for. -/
@[simp] theorem length_read (n : ℕ) : (d.read pos n).length = n := by simp [read]

/-- Byte `i` of a read. -/
theorem getD_read (n i : ℕ) (fill : Byte) :
    (d.read pos n).getD i fill = if i < n then d (pos + i) else fill := by
  unfold read
  split_ifs with h
  · simp [h]
  · simp [h]

/-- A read in two parts. -/
theorem read_add (m n : ℕ) : d.read pos (m + n) = d.read pos m ++ d.read (pos + m) n := by
  simp only [read, List.range_add, List.map_append, List.map_map, Function.comp_def,
    Nat.add_assoc]

/-- Writing nothing changes nothing. -/
@[simp] theorem write_nil : d.write pos [] = d := by
  funext a
  exact if_neg (by simp)

/-- A write changes only the bytes of its range. -/
theorem write_of_not_mem {buf : List Byte} {a : ℕ} (h : ¬ (pos ≤ a ∧ a < pos + buf.length)) :
    d.write pos buf a = d a := if_neg h

/-- Reading back what was written. -/
@[simp] theorem read_write_self (buf : List Byte) :
    (d.write pos buf).read pos buf.length = buf := by
  apply List.ext_getElem (by simp)
  intro i h₁ h₂
  simp [read, write, h₂]

/-- A read depends on its own range only. -/
theorem read_congr {d d' : Disk} {n : ℕ} (h : ∀ a, pos ≤ a → a < pos + n → d a = d' a) :
    d.read pos n = d'.read pos n := by
  apply List.map_congr_left
  intro i hi
  rw [List.mem_range] at hi
  exact h _ (by omega) (by omega)

/-- A read apart from a write does not see it. -/
theorem read_write_of_apart {buf : List Byte} {pos' n : ℕ}
    (h : pos' + n ≤ pos ∨ pos + buf.length ≤ pos') :
    (d.write pos buf).read pos' n = d.read pos' n := by
  apply read_congr
  intro a ha ha'
  exact write_of_not_mem d pos (by omega)

/-- Reads from two places agree on every disk only when they are empty or the places are the
same. -/
theorem forall_read_eq_iff {p q n : ℕ} :
    (∀ d : Disk, d.read p n = d.read q n) ↔ n = 0 ∨ p = q := by
  constructor
  · intro h
    cases n with
    | zero => exact .inl rfl
    | succ n =>
      -- A disk on which the first byte of one of the reads is the only one that is set.
      have hfirst := h fun a => if a = p then 1 else 0
      simp only [read, List.range_succ_eq_map, List.map_cons, List.cons.injEq, Nat.add_zero,
        if_true] at hfirst
      by_contra hpq
      have hne : q ≠ p := fun hq => hpq (.inr hq.symm)
      rw [if_neg hne] at hfirst
      exact absurd hfirst.1 (by decide)
  · rintro (rfl | rfl) d
    · rfl
    · rfl

/-- Writing a range's own bytes over it changes nothing. -/
@[simp] theorem write_read_self (n : ℕ) : d.write pos (d.read pos n) = d := by
  funext a
  unfold write
  split_ifs with h
  · rw [length_read] at h
    have hlt : a - pos < n := by omega
    simp [read, hlt, Nat.add_sub_cancel' h.1]
  · rfl

/-- A write changes nothing exactly when the range holds its bytes already. -/
theorem write_eq_self_iff {buf : List Byte} :
    d.write pos buf = d ↔ d.read pos buf.length = buf := by
  constructor
  · intro h
    have hself := d.read_write_self pos buf
    rwa [h] at hself
  · intro h
    have hself := d.write_read_self pos buf.length
    rwa [h] at hself

/-- A second write over the same range replaces the first. -/
@[simp] theorem write_write_self {buf buf' : List Byte} (h : buf.length = buf'.length) :
    (d.write pos buf).write pos buf' = d.write pos buf' := by
  funext a
  simp only [write, h]
  split_ifs <;> rfl

end Disk
