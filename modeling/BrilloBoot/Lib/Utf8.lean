import BrilloBoot.Lib.Bytes
import Mathlib.Algebra.Group.Nat.Defs

/-!
# UTF-8 on the basic plane

The encoding of text is that of Lean's own characters, which are the Unicode scalar values. A scalar
of the basic plane is one unit of 16 bits; its encoding has one to three bytes, and spreads the bits
of the unit over them (`shape_encodeChar`). Every other scalar has a first byte of its own kind
(`encodeChar_of_not_basic`).

`Shape` says how the bits of a unit are spread, without arithmetic: each byte is a row of fixed bits
before a row of bits of the unit. A value is brought into its shape length by length (`shape_one`,
`shape_two`, `shape_three`). The way back goes by uniqueness: the unit of a shape is that of some
character (`Shape.exists_unit`), which has a shape for it as well, and there is one shape for a unit
(`Shape.unique`), so that the bytes are the encoding of that character
(`Shape.exists_encodeChar`).
-/

namespace Utf8

/-- The bytes of a scalar value. -/
def encodeChar (c : Char) : List Byte := (String.utf8EncodeChar c).map UInt8.toBitVec

/-- The bytes of a text. -/
def encode (text : List Char) : List Byte := text.flatMap encodeChar

/-- The scalar value is in the basic plane. -/
def Basic (c : Char) : Prop := c.toNat ≤ 0xFFFF

/-- The plane of a character can be decided. -/
instance (c : Char) : Decidable (Basic c) := inferInstanceAs (Decidable (c.toNat ≤ 0xFFFF))

/-- The unit of 16 bits that stands for a scalar value of the basic plane. -/
def unit (c : Char) : BitVec 16 := BitVec.ofNat 16 c.toNat

/-- The encoding of no text. -/
@[simp]
theorem encode_nil : encode [] = [] := rfl

/-- The encoding of a text, from its first character on. -/
theorem encode_cons (c : Char) (text : List Char) :
    encode (c :: text) = encodeChar c ++ encode text := List.flatMap_cons

/-- The encoding of one text after another. -/
theorem encode_append (text text' : List Char) :
    encode (text ++ text') = encode text ++ encode text' := List.flatMap_append

/-- The encoding of a text, up to its last character. -/
theorem encode_concat (text : List Char) (c : Char) :
    encode (text ++ [c]) = encode text ++ encodeChar c := by
  rw [encode_append, encode_cons, encode_nil, List.append_nil]

/-! ## Pieces -/

/-- The value of two pieces. -/
theorem toNat_append {m n : ℕ} (x : BitVec m) (y : BitVec n) :
    (x ++ y).toNat = x.toNat * 2 ^ n + y.toNat := by
  rw [BitVec.toNat_append, ← Nat.shiftLeft_add_eq_or_of_lt y.isLt, Nat.shiftLeft_eq]

/-- A word is two pieces when its value is theirs. -/
theorem ofNat_eq_append {m n v : ℕ} {x : BitVec m} {y : BitVec n}
    (h : v % 2 ^ (m + n) = x.toNat * 2 ^ n + y.toNat) : BitVec.ofNat (m + n) v = x ++ y := by
  apply BitVec.eq_of_toNat_eq
  rw [toNat_append, BitVec.toNat_ofNat, h]

/-- The bytes of a scalar value of the basic plane, beside its unit. An encoding is as short as it
can be, and a surrogate has none. -/
inductive Shape : List Byte → BitVec 16 → Prop
  | one (x : BitVec 7) : Shape [0#1 ++ x] (0#9 ++ x)
  | two (x : BitVec 5) (y : BitVec 6) (hshort : 2 ≤ x.toNat) :
    Shape [6#3 ++ x, 2#2 ++ y] (0#5 ++ x ++ y)
  | three (x : BitVec 4) (y z : BitVec 6) (hshort : x.toNat = 0 → 32 ≤ y.toNat)
      (hscalar : x.toNat = 13 → y.toNat < 32) :
    Shape [14#4 ++ x, 2#2 ++ y, 2#2 ++ z] (x ++ y ++ z)

/-- The byte for six bits of a value that are not its first. -/
theorem continuation_eq (v : ℕ) : BitVec.ofNat 8 (v % 64 + 128) = 2#2 ++ BitVec.ofNat 6 v := by
  refine ofNat_eq_append (m := 2) (n := 6) ?_
  simp
  omega

/-- A value of seven bits, in one byte. -/
theorem shape_one {v : ℕ} (h : v ≤ 0x7F) : Shape [BitVec.ofNat 8 v] (BitVec.ofNat 16 v) := by
  have hshape := Shape.one (BitVec.ofNat 7 v)
  have hunit : BitVec.ofNat 16 v = 0#9 ++ BitVec.ofNat 7 v := by
    refine ofNat_eq_append (m := 9) (n := 7) ?_
    simp
    omega
  have hbyte : BitVec.ofNat 8 v = 0#1 ++ BitVec.ofNat 7 v := by
    refine ofNat_eq_append (m := 1) (n := 7) ?_
    simp
    omega
  rw [← hunit, ← hbyte] at hshape
  exact hshape

/-- A value of eleven bits, in two bytes. -/
theorem shape_two {v : ℕ} (h : 0x7F < v) (h' : v ≤ 0x7FF) :
    Shape [BitVec.ofNat 8 (v / 64 % 32 + 192), BitVec.ofNat 8 (v % 64 + 128)]
      (BitVec.ofNat 16 v) := by
  have hshort : 2 ≤ (BitVec.ofNat 5 (v / 64)).toNat := by
    simp
    omega
  have hshape := Shape.two (BitVec.ofNat 5 (v / 64)) (BitVec.ofNat 6 v) hshort
  have hunit : BitVec.ofNat 16 v = 0#5 ++ BitVec.ofNat 5 (v / 64) ++ BitVec.ofNat 6 v := by
    refine ofNat_eq_append (m := 5 + 5) (n := 6) ?_
    rw [toNat_append]
    simp
    omega
  have hfirst : BitVec.ofNat 8 (v / 64 % 32 + 192) = 6#3 ++ BitVec.ofNat 5 (v / 64) := by
    refine ofNat_eq_append (m := 3) (n := 5) ?_
    simp
    omega
  rw [← hunit, ← hfirst, ← continuation_eq] at hshape
  exact hshape

/-- A value of sixteen bits that is no surrogate, in three bytes. -/
theorem shape_three {v : ℕ} (h : 0x7FF < v) (h' : v ≤ 0xFFFF) (hscalar : v < 0xD800 ∨ 0xDFFF < v) :
    Shape [BitVec.ofNat 8 (v / 4096 % 16 + 224), BitVec.ofNat 8 (v / 64 % 64 + 128),
      BitVec.ofNat 8 (v % 64 + 128)] (BitVec.ofNat 16 v) := by
  have hshort : (BitVec.ofNat 4 (v / 4096)).toNat = 0 → 32 ≤ (BitVec.ofNat 6 (v / 64)).toNat := by
    simp
    omega
  have hsurrogate : (BitVec.ofNat 4 (v / 4096)).toNat = 13 →
      (BitVec.ofNat 6 (v / 64)).toNat < 32 := by
    simp
    omega
  have hshape := Shape.three (BitVec.ofNat 4 (v / 4096)) (BitVec.ofNat 6 (v / 64))
    (BitVec.ofNat 6 v) hshort hsurrogate
  have hunit : BitVec.ofNat 16 v
      = BitVec.ofNat 4 (v / 4096) ++ BitVec.ofNat 6 (v / 64) ++ BitVec.ofNat 6 v := by
    refine ofNat_eq_append (m := 4 + 6) (n := 6) ?_
    rw [toNat_append]
    simp
    omega
  have hfirst : BitVec.ofNat 8 (v / 4096 % 16 + 224) = 14#4 ++ BitVec.ofNat 4 (v / 4096) := by
    refine ofNat_eq_append (m := 4) (n := 4) ?_
    simp
    omega
  rw [← hunit, ← hfirst, ← continuation_eq, ← continuation_eq] at hshape
  exact hshape

/-- Every character of the basic plane has one of the three shapes. -/
theorem shape_encodeChar {c : Char} (h : Basic c) : Shape (encodeChar c) (unit c) := by
  have hvalid : c.val.toNat < 0xD800 ∨ 0xDFFF < c.val.toNat ∧ c.val.toNat < 0x110000 := c.valid
  unfold Basic at h
  unfold encodeChar String.utf8EncodeChar unit
  simp only [Char.toNat] at h ⊢
  generalize c.val.toNat = v at h hvalid ⊢
  split_ifs with h₁ h₂
  · exact shape_one h₁
  · exact shape_two (by omega) h₂
  · exact shape_three (by omega) h (by omega)

/-- The first byte of the other scalar values. -/
theorem encodeChar_of_not_basic {c : Char} (h : ¬Basic c) :
    ∃ (x : BitVec 3) (rest : List Byte), encodeChar c = (30#5 ++ x) :: rest := by
  unfold Basic at h
  unfold encodeChar String.utf8EncodeChar
  simp only [Char.toNat] at h ⊢
  generalize c.val.toNat = v at h ⊢
  rw [if_neg (by omega), if_neg (by omega), if_neg (by omega), List.map_cons]
  refine ⟨BitVec.ofNat 3 (v / 262144), _, congrArg (· :: _) (ofNat_eq_append (m := 5) (n := 3) ?_)⟩
  simp
  omega

/-- An encoding has one to three bytes. -/
theorem Shape.length {bytes : List Byte} {u : BitVec 16} (h : Shape bytes u) :
    1 ≤ bytes.length ∧ bytes.length ≤ 3 := by
  cases h <;> simp

/-- Only the unit 0 has a null byte in its encoding. -/
theorem Shape.ne_zero {bytes : List Byte} {u : BitVec 16} (h : Shape bytes u) (hu : u ≠ 0) :
    ∀ b ∈ bytes, b ≠ 0 := by
  have hcontinuation : ∀ y : BitVec 6, 2#2 ++ y ≠ (0 : Byte) := by decide
  cases h with
  | one x =>
    have hsingle : ∀ x : BitVec 7, 0#9 ++ x ≠ (0 : BitVec 16) → 0#1 ++ x ≠ (0 : Byte) := by decide
    simpa using hsingle x hu
  | two x y hshort =>
    have hlead : ∀ x : BitVec 5, 6#3 ++ x ≠ (0 : Byte) := by decide
    simpa using ⟨hlead x, hcontinuation y⟩
  | three x y z hshort hscalar =>
    have hlead : ∀ x : BitVec 4, 14#4 ++ x ≠ (0 : Byte) := by decide
    simpa using ⟨hlead x, hcontinuation y, hcontinuation z⟩

/-- A text has no more scalar values than bytes. -/
theorem length_le_length_encode (text : List Char) : text.length ≤ (encode text).length := by
  induction text with
  | nil => exact Nat.le_refl 0
  | cons c cs ih =>
    have hc : 1 ≤ (encodeChar c).length := by
      by_cases hbasic : Basic c
      · exact (shape_encodeChar hbasic).length.1
      · obtain ⟨x, rest, hbytes⟩ := encodeChar_of_not_basic hbasic
        rw [hbytes, List.length_cons]
        omega
    rw [encode_cons, List.length_append, List.length_cons]
    omega

/-- A text of the basic plane has at most three bytes for a unit. -/
theorem length_encode_le {text : List Char} (h : ∀ c ∈ text, Basic c) :
    (encode text).length ≤ 3 * text.length := by
  induction text with
  | nil => exact Nat.le_refl 0
  | cons c cs ih =>
    have hc := (shape_encodeChar (h c List.mem_cons_self)).length
    have hcs := ih fun c' hc' => h c' (List.mem_cons_of_mem c hc')
    rw [encode_cons, List.length_append, List.length_cons]
    omega

/-! ## Units -/

/-- The unit of a character has its value. -/
theorem toNat_unit {c : Char} (h : Basic c) : (unit c).toNat = c.toNat := by
  unfold Basic at h
  rw [unit, BitVec.toNat_ofNat, Nat.mod_eq_of_lt (by omega)]

/-- A character that is not NUL has a unit that is not zero. -/
theorem unit_ne_zero {c : Char} (h : Basic c) (hc : c.toNat ≠ 0) : unit c ≠ 0 := by
  intro hzero
  rw [← toNat_unit h, hzero] at hc
  exact hc rfl

/-- A unit stands for one scalar value. -/
theorem unit_inj {c c' : Char} (h : Basic c) (h' : Basic c') (heq : unit c = unit c') : c = c' := by
  have hval := congrArg BitVec.toNat heq
  rw [toNat_unit h, toNat_unit h'] at hval
  exact Char.ext (UInt32.toNat_inj.mp hval)

/-- The value of a shape is that of a scalar value. -/
theorem Shape.exists_unit {bytes : List Byte} {u : BitVec 16} (h : Shape bytes u) :
    ∃ c, Basic c ∧ unit c = u := by
  have hvalid : u.toNat.isValidChar := by
    cases h with
    | one x =>
      have hlt := x.isLt
      rw [toNat_append, Nat.isValidChar]
      simp
      omega
    | two x y hshort =>
      have hx := x.isLt
      have hy := y.isLt
      rw [toNat_append, toNat_append, Nat.isValidChar]
      simp
      omega
    | three x y z hshort hscalar =>
      have hx := x.isLt
      have hy := y.isLt
      have hz := z.isLt
      rw [toNat_append, toNat_append, Nat.isValidChar]
      simp
      omega
  have hchar : (Char.ofNatAux u.toNat hvalid).toNat = u.toNat := rfl
  have hlt := u.isLt
  refine ⟨Char.ofNatAux u.toNat hvalid, ?_, ?_⟩
  · rw [Basic, hchar]
    omega
  · rw [unit, hchar, BitVec.ofNat_toNat, BitVec.setWidth_eq]

/-- There is one encoding for a unit. -/
theorem Shape.unique {bytes bytes' : List Byte} {u u' : BitVec 16} (h : Shape bytes u)
    (h' : Shape bytes' u') (heq : u.toNat = u'.toNat) : bytes = bytes' := by
  -- Shapes of different lengths have units in different ranges, since none is longer than it must
  -- be.
  cases h with
  | one x =>
    have hx := x.isLt
    cases h' with
    | one x' =>
      rw [toNat_append, toNat_append, Nat.add_left_cancel_iff] at heq
      rw [BitVec.eq_of_toNat_eq heq]
    | two x' y' hshort =>
      simp only [toNat_append, BitVec.toNat_ofNat] at heq
      omega
    | three x' y' z' hshort hscalar =>
      simp only [toNat_append, BitVec.toNat_ofNat] at heq
      omega
  | two x y hshort =>
    have hx := x.isLt
    have hy := y.isLt
    cases h' with
    | one x' =>
      have hx' := x'.isLt
      simp only [toNat_append, BitVec.toNat_ofNat] at heq
      omega
    | two x' y' hshort' =>
      have hy' := y'.isLt
      simp only [toNat_append, BitVec.toNat_ofNat] at heq
      rw [BitVec.eq_of_toNat_eq (x := x) (y := x') (by omega),
        BitVec.eq_of_toNat_eq (x := y) (y := y') (by omega)]
    | three x' y' z' hshort' hscalar' =>
      simp only [toNat_append, BitVec.toNat_ofNat] at heq
      omega
  | three x y z hshort hscalar =>
    have hy := y.isLt
    have hz := z.isLt
    cases h' with
    | one x' =>
      have hx' := x'.isLt
      simp only [toNat_append, BitVec.toNat_ofNat] at heq
      omega
    | two x' y' hshort' =>
      have hx' := x'.isLt
      have hy' := y'.isLt
      simp only [toNat_append, BitVec.toNat_ofNat] at heq
      omega
    | three x' y' z' hshort' hscalar' =>
      have hy' := y'.isLt
      have hz' := z'.isLt
      simp only [toNat_append] at heq
      rw [BitVec.eq_of_toNat_eq (x := x) (y := x') (by omega),
        BitVec.eq_of_toNat_eq (x := y) (y := y') (by omega),
        BitVec.eq_of_toNat_eq (x := z) (y := z') (by omega)]

/-- A shape is the encoding of a scalar value. -/
theorem Shape.exists_encodeChar {bytes : List Byte} {u : BitVec 16} (h : Shape bytes u) :
    ∃ c, Basic c ∧ encodeChar c = bytes ∧ unit c = u := by
  obtain ⟨c, hbasic, rfl⟩ := h.exists_unit
  exact ⟨c, hbasic, (shape_encodeChar hbasic).unique h rfl, rfl⟩

end Utf8
