import Mathlib.Data.List.Basic
import Mathlib.Tactic.Common

/-!
# Fixed-size byte strings and little-endian words

`Bytes n` is a byte string that carries its length, so that a record of a fixed layout can be cut
out of it with no side conditions. `leWord` is the word that a little-endian host reads from a byte
string, and `leBytes` the bytes that it stores for a word. `Bytes.torn` is what a store of `n` bytes
leaves when only its first bytes reach the medium.
-/

/-- A byte. -/
abbrev Byte := BitVec 8

/-! ## Byte strings of a fixed length -/

/-- A byte string of length `n`. -/
@[ext]
structure Bytes (n : ℕ) where
  /-- The bytes, in order. -/
  toList : List Byte
  /-- There are `n` of them. -/
  length_toList : toList.length = n
deriving DecidableEq

namespace Bytes

variable {n : ℕ}

attribute [simp] length_toList

/-- A byte by its index. -/
instance : GetElem (Bytes n) ℕ Byte (fun _ i => i < n) where
  getElem b i h := b.toList.get ⟨i, by rw [b.length_toList]; exact h⟩

/-- It is that of the list. -/
theorem getElem_eq (b : Bytes n) (i : ℕ) (h : i < n) :
    b[i] = getElem b.toList i (by rw [b.length_toList]; exact h) := rfl

/-- A piece of a byte string starts with the byte at its offset. -/
theorem take_drop_eq_cons (b : Bytes n) {i j : ℕ} (hi : i < n) :
    (b.toList.drop i).take (j + 1) = b[i] :: (b.toList.drop (i + 1)).take j := by
  rw [List.drop_eq_getElem_cons (by simpa using hi), List.take_succ_cons]
  rfl

/-- A byte string is made of its bytes. -/
theorem mk_eq {bytes : List Byte} {hlen : bytes.length = n} {b : Bytes n} (h : bytes = b.toList) :
    ⟨bytes, hlen⟩ = b := Bytes.ext h

/-- `n` zero bytes. -/
def zero (n : ℕ) : Bytes n := ⟨List.replicate n 0, by simp⟩

/-- The `len` bytes from `off` on. -/
def sub (b : Bytes n) (off len : ℕ) (h : off + len ≤ n := by decide) : Bytes len :=
  ⟨(b.toList.drop off).take len, by simp; omega⟩

/-- The first `k` bytes of `new` followed by the rest of `old`: what is on the medium when a store
of `new` over `old` stops after `k` bytes. -/
def torn (new old : Bytes n) (k : ℕ) : Bytes n :=
  ⟨new.toList.take k ++ old.toList.drop k, by simp; omega⟩

/-- A torn byte string has the bytes of `new` below `k`. -/
theorem torn_getElem_of_lt (new old : Bytes n) {k i : ℕ} (hi : i < n) (hk : i < k) :
    (new.torn old k)[i] = new[i] := by
  have hlen : i < (new.toList.take k).length := by simp; omega
  simp only [getElem_eq, torn]
  rw [List.getElem_append_left hlen, List.getElem_take]

/-- A torn byte string has the bytes of `old` from `k` on. -/
theorem torn_getElem_of_le (new old : Bytes n) {k i : ℕ} (hi : i < n) (hk : k ≤ i) :
    (new.torn old k)[i] = old[i] := by
  have hlen : (new.toList.take k).length ≤ i := by simp; omega
  simp only [getElem_eq, torn]
  rw [List.getElem_append_right hlen, List.getElem_drop]
  congr 1
  simp
  omega

/-- The byte string with the bytes from `off` on replaced by those of `new`, which end within it. -/
def splice (old : Bytes n) (off : ℕ) (new : List Byte) (h : off + new.length ≤ n) : Bytes n :=
  ⟨old.toList.take off ++ new ++ old.toList.drop (off + new.length), by simp; omega⟩

/-- A splice that reaches the end leaves what is before it. -/
theorem toList_splice_of_add_eq {old : Bytes n} {off : ℕ} {new : List Byte}
    {hfit : off + new.length ≤ n} (h : off + new.length = n) :
    (old.splice off new hfit).toList = old.toList.take off ++ new := by
  have hrest : old.toList.drop (off + new.length) = [] := by
    rw [List.drop_eq_nil_iff, length_toList]
    omega
  show old.toList.take off ++ new ++ old.toList.drop (off + new.length) = _
  rw [hrest, List.append_nil]

end Bytes

/-- Two adjacent pieces of a list make up the piece that spans both. -/
theorem List.take_drop_append_take_drop {α : Type*} (l : List α) (i j k : ℕ) :
    (l.drop i).take j ++ (l.drop (i + j)).take k = (l.drop i).take (j + k) := by
  rw [List.take_add, List.drop_drop]

/-! ## Little-endian words -/

/-- The word of width `w` that a little-endian host reads from a byte string. -/
def leWord (w : ℕ) : List Byte → BitVec w
  | [] => 0
  | b :: bs => b.setWidth w ||| (leWord w bs <<< 8)

/-- The first `n` bytes that a little-endian host stores for a word. -/
def leBytes {w : ℕ} (n : ℕ) (v : BitVec w) : List Byte :=
  (List.range n).map fun i => v.extractLsb' (8 * i) 8

/-- The number of the bytes. -/
@[simp] theorem length_leBytes {w : ℕ} (n : ℕ) (v : BitVec w) : (leBytes n v).length = n := by
  simp [leBytes]

/-- Bit `i` of a little-endian word is bit `i % 8` of byte `i / 8`. -/
theorem getLsbD_leWord {w : ℕ} (bs : List Byte) (i : ℕ) :
    (leWord w bs).getLsbD i = (decide (i < w) && (bs.getD (i / 8) 0).getLsbD (i % 8)) := by
  induction bs generalizing i with
  | nil => simp [leWord]
  | cons b bs ih =>
    rw [leWord, BitVec.getLsbD_or, BitVec.getLsbD_setWidth, BitVec.getLsbD_shiftLeft, ih]
    rcases Nat.lt_or_ge i 8 with hi | hi
    · have hd : i / 8 = 0 := by omega
      have hm : i % 8 = i := by omega
      simp [hi, hd, hm]
    · -- Above the first byte, the bit is that of the rest, eight places down.
      obtain ⟨j, rfl⟩ := Nat.exists_eq_add_of_le hi
      have hd : (8 + j) / 8 = j / 8 + 1 := by omega
      have hm : (8 + j) % 8 = j % 8 := by omega
      have hb : b.getLsbD (8 + j) = false := BitVec.getLsbD_of_ge _ _ (by omega)
      rw [hd, hm, hb]
      by_cases hw : 8 + j < w
      · simp [hw, show j < w by omega]
      · simp [hw]

/-- A little-endian word determines its bytes, when it is wide enough to hold them. -/
theorem leWord_injective {w : ℕ} {xs ys : List Byte} (hlen : xs.length = ys.length)
    (hw : 8 * xs.length ≤ w) (h : leWord w xs = leWord w ys) : xs = ys := by
  apply List.ext_getElem hlen
  intro k hx hy
  apply BitVec.eq_of_getLsbD_eq
  intro i hi
  have hbit := congrArg (fun v => v.getLsbD (8 * k + i)) h
  have hd : (8 * k + i) / 8 = k := by omega
  have hm : (8 * k + i) % 8 = i := by omega
  simp only [getLsbD_leWord, hd, hm] at hbit
  simpa [hx, hy, show 8 * k + i < w by omega] using hbit

/-- Storing a word and reading it back gives the word. -/
theorem leWord_leBytes {n w : ℕ} (hw : w = 8 * n) (v : BitVec w) : leWord w (leBytes n v) = v := by
  apply BitVec.eq_of_getLsbD_eq
  intro i hi
  have hk : i / 8 < n := by omega
  have hi' : 8 * (i / 8) + i % 8 = i := Nat.div_add_mod i 8
  rw [getLsbD_leWord]
  simp [leBytes, hk, hi, hi', Nat.mod_lt]

/-- Different words of this width have different bytes. -/
theorem leBytes_injective {n w : ℕ} (hw : w = 8 * n) :
    Function.Injective (leBytes n : BitVec w → List Byte) :=
  Function.LeftInverse.injective (leWord_leBytes hw)

/-- Reading a word from `n` bytes and storing it gives the bytes. -/
theorem leBytes_leWord {n : ℕ} {bs : List Byte} (hlen : bs.length = n) :
    leBytes n (leWord (8 * n) bs) = bs :=
  leWord_injective (by simp [hlen]) (by simp) (leWord_leBytes rfl _)
