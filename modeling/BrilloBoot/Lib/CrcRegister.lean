import BrilloBoot.Lib.Bytes
import Mathlib.Algebra.Group.Nat.Defs
import Mathlib.Logic.Function.Iterate

/-!
# The register of a reflected cyclic redundancy check

A reflected CRC of width `w` shifts its register right by one for each bit of the message and xors
the polynomial in when the bit that falls out is set. `shift` is one such step, `byteStep` the eight
steps for one byte of the message, and `feed` the register after a whole message.

The shift is linear over xor, and injective when the polynomial's top bit is set. The error
detection of the check follows from these two facts alone:

- `feed_window_ne`: two messages that differ only inside one window no longer than the register
  leave different registers;
- `feed_pair_ne`: so do two messages that differ in two bytes a fixed distance apart, when the
  polynomial does not let one byte travel that distance and stay a byte (`Separates`).

Zeros after a message move the register on, and return it to where it was only if it was zero
(`iterate_shift_two_pow_eq_self_iff`).

`table_step` is the step of the table-driven form, for any table of the eight-step remainders.
-/

namespace CrcRegister

variable {w : ℕ} (poly : BitVec w)

/-! ## One bit -/

/-- One step of the register: shift right, and xor the polynomial in when a set bit falls out. -/
def shift (c : BitVec w) : BitVec w :=
  if c.getLsbD 0 then (c >>> 1) ^^^ poly else c >>> 1

/-- The shift is linear over xor. -/
theorem shift_xor (a b : BitVec w) : shift poly (a ^^^ b) = shift poly a ^^^ shift poly b := by
  simp only [shift, BitVec.getLsbD_xor, BitVec.ushiftRight_xor_distrib]
  cases a.getLsbD 0 <;> cases b.getLsbD 0
  · rfl
  · simp [BitVec.xor_assoc]
  · simp [BitVec.xor_assoc, BitVec.xor_comm poly]
  · simp [BitVec.xor_assoc, BitVec.xor_comm poly]

/-- A cleared register stays cleared. -/
@[simp] theorem shift_zero : shift poly 0#w = 0#w := by simp [shift]

/-- The iterated shift is linear over xor. -/
theorem iterate_shift_xor (n : ℕ) (a b : BitVec w) :
    (shift poly)^[n] (a ^^^ b) = (shift poly)^[n] a ^^^ (shift poly)^[n] b := by
  induction n generalizing a b with
  | zero => rfl
  | succ n ih => simp only [Function.iterate_succ_apply, shift_xor, ih]

/-- It does so for any number of shifts. -/
@[simp] theorem iterate_shift_zero (n : ℕ) : (shift poly)^[n] 0#w = 0#w := by
  induction n with
  | zero => rfl
  | succ n ih => rw [Function.iterate_succ_apply, shift_zero, ih]

/-- With the polynomial's top bit set, the top bit of the shifted register is the bit that fell
out, so that the shift loses nothing. -/
theorem shift_injective (hpoly : poly.msb = true) : Function.Injective (shift poly) := by
  -- The bit that falls out comes back as the top bit.
  have hmsb : ∀ c : BitVec w, (shift poly c).msb = c.getLsbD 0 := by
    intro c
    cases w with
    | zero => simp [BitVec.msb_of_zero_length] at hpoly
    | succ n =>
      unfold shift
      cases c.getLsbD 0
      · simp [BitVec.msb_ushiftRight]
      · simp [hpoly, BitVec.msb_xor, BitVec.msb_ushiftRight]
  intro a b hab
  have h0 : a.getLsbD 0 = b.getLsbD 0 := by rw [← hmsb a, ← hmsb b, hab]
  have hshift : a >>> 1 = b >>> 1 := by
    simp only [shift, h0] at hab
    split_ifs at hab
    · exact (BitVec.xor_left_inj _).mp hab
    · exact hab
  apply BitVec.eq_of_getLsbD_eq
  intro i _
  cases i with
  | zero => exact h0
  | succ j =>
    have hj := congrArg (fun v : BitVec w => v.getLsbD j) hshift
    simpa [BitVec.getLsbD_ushiftRight, Nat.add_comm 1 j] using hj

/-- No shifts lose anything. -/
theorem iterate_shift_injective (hpoly : poly.msb = true) (n : ℕ) :
    Function.Injective ((shift poly)^[n]) := (shift_injective poly hpoly).iterate n

/-- A register whose low bit is clear is only moved down. -/
theorem shift_shiftLeft_one {c : BitVec w} (hc : c.msb = false) : shift poly (c <<< 1) = c := by
  have h0 : (c <<< 1).getLsbD 0 = false := by simp
  rw [shift, h0]
  apply BitVec.eq_of_getLsbD_eq
  intro i hi
  have htop : c.getLsbD (w - 1) = false := by rw [← BitVec.msb_eq_getLsbD_last]; exact hc
  rcases Nat.lt_or_ge (i + 1) w with h | h
  · simp [Nat.add_comm 1 i, h, BitVec.getLsbD_eq_getElem hi]
  · have : i = w - 1 := by omega
    subst this
    simp [BitVec.getLsbD_ushiftRight, htop, show ¬ 1 + (w - 1) < w by omega]

/-- A register whose low `n` bits are clear is only moved down by `n` shifts. -/
theorem iterate_shift_shiftLeft {n : ℕ} {c : BitVec w} (hc : ∀ i, w ≤ i + n → c.getLsbD i = false) :
    (shift poly)^[n] (c <<< n) = c := by
  induction n with
  | zero => simp
  | succ n ih =>
    have hmsb : (c <<< n).msb = false := by
      rw [BitVec.msb_eq_getLsbD_last, BitVec.getLsbD_shiftLeft, hc _ (by omega)]
      simp
    rw [Function.iterate_succ_apply, BitVec.shiftLeft_add, shift_shiftLeft_one poly hmsb]
    exact ih fun i hi => hc i (by omega)

/-! ## Bytes and messages -/

/-- The register after one byte of the message. -/
def byteStep (c : BitVec w) (b : Byte) : BitVec w := (shift poly)^[8] (c ^^^ b.setWidth w)

/-- The register after a message. -/
def feed (c : BitVec w) (message : List Byte) : BitVec w := message.foldl (byteStep poly) c

/-- Bytes are fed one list after the other. -/
theorem feed_append (c : BitVec w) (xs ys : List Byte) :
    feed poly c (xs ++ ys) = feed poly (feed poly c xs) ys := List.foldl_append

/-- Two registers fed the same message differ, at its end, by the shift of their difference. -/
theorem feed_xor_feed (a b : BitVec w) (message : List Byte) :
    feed poly a message ^^^ feed poly b message
      = (shift poly)^[8 * message.length] (a ^^^ b) := by
  induction message generalizing a b with
  | nil => rfl
  | cons x xs ih =>
    have hstep : byteStep poly a x ^^^ byteStep poly b x = (shift poly)^[8] (a ^^^ b) := by
      unfold byteStep
      rw [← iterate_shift_xor]
      congr 1
      simp [BitVec.xor_assoc, BitVec.xor_comm (x.setWidth w)]
    calc feed poly a (x :: xs) ^^^ feed poly b (x :: xs)
        = (shift poly)^[8 * xs.length] (byteStep poly a x ^^^ byteStep poly b x) := ih _ _
      _ = (shift poly)^[8 * xs.length + 8] (a ^^^ b) := by
          rw [hstep, Function.iterate_add_apply]
      _ = (shift poly)^[8 * (x :: xs).length] (a ^^^ b) := by
          rw [List.length_cons, Nat.mul_add]

/-- A message leads different registers to different registers. -/
theorem feed_injective (hpoly : poly.msb = true) (message : List Byte) :
    Function.Injective fun c => feed poly c message := by
  intro a b (hab : feed poly a message = feed poly b message)
  have h := feed_xor_feed poly a b message
  rw [hab, BitVec.xor_self] at h
  have hz : a ^^^ b = 0#w := iterate_shift_injective poly hpoly _ (h.symm.trans (by simp))
  exact BitVec.xor_eq_zero_iff.mp hz

/-- A message no longer than the register acts as the little-endian word of its bytes. -/
theorem feed_eq_iterate_shift (c : BitVec w) {message : List Byte} (hlen : 8 * message.length ≤ w) :
    feed poly c message = (shift poly)^[8 * message.length] (c ^^^ leWord w message) := by
  induction message generalizing c with
  | nil => simp [feed, leWord]
  | cons b bs ih =>
    rw [List.length_cons] at hlen
    -- The bytes after the first are below the top eight bits, so eight shifts bring them down.
    have hclear : ∀ i, w ≤ i + 8 → (leWord w bs).getLsbD i = false := by
      intro i hi
      have hout : bs.length ≤ i / 8 := by omega
      simp [getLsbD_leWord, List.getElem?_eq_none hout]
    have hor : b.setWidth w ||| (leWord w bs <<< 8) = b.setWidth w ^^^ (leWord w bs <<< 8) := by
      apply BitVec.eq_of_getLsbD_eq
      intro i _
      rcases Nat.lt_or_ge i 8 with hi | hi
      · simp [hi]
      · simp [BitVec.getLsbD_of_ge b i hi]
    calc feed poly c (b :: bs)
        = (shift poly)^[8 * bs.length] (byteStep poly c b ^^^ leWord w bs) := ih _ (by omega)
      _ = (shift poly)^[8 * bs.length] ((shift poly)^[8] (c ^^^ leWord w (b :: bs))) := by
          rw [leWord, hor, ← BitVec.xor_assoc, iterate_shift_xor poly 8,
            iterate_shift_shiftLeft poly hclear, byteStep]
      _ = (shift poly)^[8 * (b :: bs).length] (c ^^^ leWord w (b :: bs)) := by
          rw [← Function.iterate_add_apply, List.length_cons, Nat.mul_add]

/-! ## What the check detects -/

/-- **Burst errors.** Two messages that differ only inside one window no longer than the register
leave different registers. -/
theorem feed_window_ne (hpoly : poly.msb = true) (c : BitVec w) (before after : List Byte)
    {xs ys : List Byte} (hlen : xs.length = ys.length) (hw : 8 * xs.length ≤ w) (hne : xs ≠ ys) :
    feed poly c (before ++ xs ++ after) ≠ feed poly c (before ++ ys ++ after) := by
  simp only [feed_append]
  intro h
  generalize feed poly c before = r at h
  have hmid : feed poly r xs = feed poly r ys := feed_injective poly hpoly after h
  rw [feed_eq_iterate_shift poly _ hw, feed_eq_iterate_shift poly _ (by omega), ← hlen] at hmid
  have hword := (BitVec.xor_right_inj r).mp (iterate_shift_injective poly hpoly _ hmid)
  exact hne (leWord_injective hlen hw hword)

/-- No nonzero byte, moved on by `gap` bytes, is a byte again: two byte errors `gap` apart cannot
cancel. -/
def Separates (gap : ℕ) : Prop :=
  ∀ x y : Byte, (shift poly)^[8 * gap] (x.setWidth w) = y.setWidth w → x = 0

/-- **Two byte errors.** Two messages that differ in one byte, and perhaps in a second byte `gap`
later, leave different registers when the polynomial separates that distance. -/
theorem feed_pair_ne (hpoly : poly.msb = true) (c : BitVec w) (before middle after : List Byte)
    (hsep : Separates poly (middle.length + 1)) {x x' : Byte} (y y' : Byte) (hne : x ≠ x') :
    feed poly c (before ++ x :: middle ++ y :: after)
      ≠ feed poly c (before ++ x' :: middle ++ y' :: after) := by
  simp only [feed_append]
  intro h
  generalize feed poly c before = r at h
  have hy : byteStep poly (feed poly r (x :: middle)) y
      = byteStep poly (feed poly r (x' :: middle)) y' := feed_injective poly hpoly after h
  have hword := iterate_shift_injective poly hpoly 8 hy
  -- The registers before the second byte differ by the first byte's error, moved on.
  have hdiff : feed poly r (x :: middle) ^^^ feed poly r (x' :: middle)
      = (shift poly)^[8 * (middle.length + 1)] ((x ^^^ x').setWidth w) := by
    calc feed poly r (x :: middle) ^^^ feed poly r (x' :: middle)
        = (shift poly)^[8 * middle.length] (byteStep poly r x ^^^ byteStep poly r x') :=
          feed_xor_feed poly _ _ middle
      _ = (shift poly)^[8 * middle.length] ((shift poly)^[8] ((x ^^^ x').setWidth w)) := by
          unfold byteStep
          rw [← iterate_shift_xor, BitVec.setWidth_xor]
          congr 2
          rw [BitVec.xor_comm r, BitVec.xor_assoc, ← BitVec.xor_assoc r, BitVec.xor_self,
            BitVec.zero_xor]
      _ = _ := by rw [← Function.iterate_add_apply, Nat.mul_add]
  have hcancel : feed poly r (x :: middle) ^^^ feed poly r (x' :: middle)
      = (y ^^^ y').setWidth w := by
    generalize feed poly r (x :: middle) = a at hword
    generalize feed poly r (x' :: middle) = b at hword
    rw [BitVec.setWidth_xor]
    calc a ^^^ b = (a ^^^ y.setWidth w) ^^^ y.setWidth w ^^^ b := by
          rw [BitVec.xor_assoc a, BitVec.xor_self, BitVec.xor_zero]
      _ = y.setWidth w ^^^ y'.setWidth w := by
          rw [hword, BitVec.xor_comm b, BitVec.xor_assoc (y'.setWidth w), BitVec.xor_comm b,
            ← BitVec.xor_assoc, BitVec.xor_assoc, BitVec.xor_self, BitVec.xor_zero,
            BitVec.xor_comm]
  exact hne (BitVec.xor_eq_zero_iff.mp (hsep _ _ (hdiff.symm.trans hcancel)))

/-! ## Trailing zeros -/

/-- Zero bytes only move the register on. -/
theorem feed_replicate_zero (c : BitVec w) (n : ℕ) :
    feed poly c (List.replicate n 0) = (shift poly)^[8 * n] c := by
  induction n generalizing c with
  | zero => rfl
  | succ n ih =>
    have hstep : byteStep poly c 0 = (shift poly)^[8] c := by simp [byteStep]
    calc feed poly c (List.replicate (n + 1) 0)
        = feed poly (byteStep poly c 0) (List.replicate n 0) := rfl
      _ = (shift poly)^[8 * n + 8] c := by rw [ih, hstep, Function.iterate_add_apply]
      _ = (shift poly)^[8 * (n + 1)] c := by rw [Nat.mul_add]

/-- The Gray code of a word determines it. -/
theorem xor_ushiftRight_one_injective :
    Function.Injective fun c : BitVec w => c ^^^ (c >>> 1) := by
  intro a b (h : a ^^^ (a >>> 1) = b ^^^ (b >>> 1))
  have hbit (i : ℕ) : (a.getLsbD i ^^ a.getLsbD (i + 1)) = (b.getLsbD i ^^ b.getLsbD (i + 1)) := by
    have := congrArg (fun c : BitVec w => c.getLsbD i) h
    simpa [BitVec.getLsbD_xor, BitVec.getLsbD_ushiftRight, Nat.add_comm 1 i] using this
  -- Downwards from the top bit, above which both are clear.
  have hdown (k : ℕ) : ∀ i, w ≤ i + k → a.getLsbD i = b.getLsbD i := by
    induction k with
    | zero =>
      intro i hi
      rw [Nat.add_zero] at hi
      rw [BitVec.getLsbD_of_ge _ _ hi, BitVec.getLsbD_of_ge _ _ hi]
    | succ k ih =>
      intro i hi
      have hnext := ih (i + 1) (by omega)
      have hsum := hbit i
      rw [hnext] at hsum
      exact Bool.xor_left_inj.mp hsum
  apply BitVec.eq_of_getLsbD_eq
  intro i hi
  exact hdown w i (by omega)

/-- A shift leaves only the zero register as it is, when the polynomial is the Gray code of a word
whose low bit is clear, that is, when it has an even number of bits. -/
theorem eq_zero_of_shift_eq_self {g : BitVec w} (hg : g ^^^ (g >>> 1) = poly)
    (hlow : g.getLsbD 0 = false) {c : BitVec w} (h : shift poly c = c) : c = 0#w := by
  cases hc : c.getLsbD 0 with
  | false =>
    have hgray : c ^^^ (c >>> 1) = 0#w ^^^ (0#w >>> 1) := by
      rw [shift, if_neg (by simp [hc])] at h
      simp [h]
    exact xor_ushiftRight_one_injective hgray
  | true =>
    -- Otherwise the register is the word itself, whose low bit is clear.
    have hgray : c ^^^ (c >>> 1) = g ^^^ (g >>> 1) := by
      rw [shift, if_pos hc] at h
      calc c ^^^ (c >>> 1) = ((c >>> 1) ^^^ poly) ^^^ (c >>> 1) := by rw [h]
        _ = g ^^^ (g >>> 1) := by
          rw [BitVec.xor_comm (c >>> 1), BitVec.xor_assoc, BitVec.xor_self, BitVec.xor_zero, hg]
    have hcg : c = g := xor_ushiftRight_one_injective hgray
    rw [hcg, hlow] at hc
    cases hc

/-- When only the zero register survives `n` shifts, so it is for twice as many. -/
theorem eq_zero_of_iterate_shift_two_mul {n : ℕ}
    (hfix : ∀ c : BitVec w, (shift poly)^[n] c = c → c = 0#w) {c : BitVec w}
    (h : (shift poly)^[2 * n] c = c) : c = 0#w := by
  rw [Nat.two_mul, Function.iterate_add_apply] at h
  -- What the first `n` shifts change is itself unchanged by the next `n`.
  have hdiff : (shift poly)^[n] (c ^^^ (shift poly)^[n] c) = c ^^^ (shift poly)^[n] c := by
    rw [iterate_shift_xor, h, BitVec.xor_comm]
  exact hfix c (BitVec.xor_eq_zero_iff.mp (hfix _ hdiff)).symm

/-- Only the zero register survives a number of shifts that is a power of two. -/
theorem iterate_shift_two_pow_eq_self_iff {g : BitVec w} (hg : g ^^^ (g >>> 1) = poly)
    (hlow : g.getLsbD 0 = false) (k : ℕ) {c : BitVec w} :
    (shift poly)^[2 ^ k] c = c ↔ c = 0#w := by
  constructor
  · induction k generalizing c with
    | zero => exact eq_zero_of_shift_eq_self poly hg hlow
    | succ k ih =>
      rw [Nat.pow_succ']
      exact eq_zero_of_iterate_shift_two_mul poly fun c => ih
  · rintro rfl
    exact iterate_shift_zero poly _

/-! ## The table-driven form -/

/-- The step of the table-driven form: with `table` the eight-step remainders of the bytes, the
entry for the low byte of the register xored with the message byte, xored into the register moved
down by a byte, is `byteStep`. -/
theorem table_step {table : Byte → BitVec w}
    (htable : ∀ i, table i = (shift poly)^[8] (i.setWidth w)) (c : BitVec w) (b : Byte) :
    table ((c ^^^ b.setWidth w).setWidth 8) ^^^ (c >>> 8) = byteStep poly c b := by
  -- The index of the table is the low byte; the rest is moved down.
  have hsplit : c ^^^ b.setWidth w
      = (((c ^^^ b.setWidth w).setWidth 8).setWidth w) ^^^ ((c >>> 8) <<< 8) := by
    apply BitVec.eq_of_getLsbD_eq
    intro i hi
    rcases Nat.lt_or_ge i 8 with h | h
    · simp [h, hi]
    · have hb : b.getLsbD i = false := BitVec.getLsbD_of_ge _ _ h
      simp [Nat.not_lt.mpr h, hi, hb, show 8 + (i - 8) = i by omega]
  have hdown : (shift poly)^[8] ((c >>> 8) <<< 8) = c >>> 8 := by
    apply iterate_shift_shiftLeft
    intro i hi
    rw [BitVec.getLsbD_ushiftRight]
    exact BitVec.getLsbD_of_ge _ _ (by omega)
  rw [htable, byteStep]
  conv_rhs => rw [hsplit, iterate_shift_xor, hdown]

end CrcRegister
