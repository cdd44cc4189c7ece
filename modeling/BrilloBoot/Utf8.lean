import BrilloBoot.Lib.Bytes
import BrilloBoot.Lib.DoWhile
import Mathlib.Algebra.Group.Nat.Defs
import Mathlib.Data.Int.Notation
import Mathlib.Logic.Function.Basic

/-!
# From UTF-8 to UCS-2

`utf8_to_ucs2` of `bub_util.c`. The two buffers are functions from their indices, so that what lies
behind them in memory is there too: the loop takes one to three bytes on the word of the first, and
looks at the length of its input only afterwards.
-/

namespace BrilloBoot

/-- The state of the loop of `utf8_to_ucs2`. -/
structure Utf8State where
  i8 : BitVec 32
  i2 : BitVec 32
  ucs2Data : ℕ → BitVec 16

/-- The code unit that the bytes from `i8` on stand for and the number of bytes that it takes,
`none` where the function gives up: at a character that is too long, and at invalid UTF-8. -/
def utf8Unit (utf8Data : ℕ → Byte) (i8 : BitVec 32) : Option (BitVec 16 × BitVec 32) :=
  let byte (k : BitVec 32) : BitVec 16 := (utf8Data (i8 + k).toNat).setWidth 16
  if byte 0 &&& 0xF8 = 0xF0 then none
  else if byte 0 &&& 0xF0 = 0xE0 then
    some ((byte 0 <<< 12) ||| ((byte 1 <<< 6) &&& 0x0FC0) ||| (byte 2 &&& 0x003F), 3)
  else if byte 0 &&& 0xE0 = 0xC0 then
    some (((byte 0 <<< 6) &&& 0x07C0) ||| (byte 1 &&& 0x003F), 2)
  else if byte 0 >>> 7 = 0 then some (byte 0 &&& 0x00FF, 1)
  else none

/-- One turn of the loop: on, or out with the value returned and the output. -/
def utf8Turn (utf8Data : ℕ → Byte) (utf8NumBytes : BitVec 64) (_ : ℕ) (s : Utf8State) :
    Utf8State ⊕ (ℤ × (ℕ → BitVec 16)) :=
  match utf8Unit utf8Data s.i8 with
  | none => .inr (1, s.ucs2Data)
  | some (unit, taken) =>
    let ucs2Data := Function.update s.ucs2Data s.i2.toNat unit
    if (s.i8 + taken).setWidth 64 < utf8NumBytes - 1 then
      .inl ⟨s.i8 + taken, s.i2 + 1, ucs2Data⟩
    else .inr (0, ucs2Data)

/-- `utf8_to_ucs2`, for a number of turns. -/
def utf8ToUcs2 (turns : ℕ) (utf8Data : ℕ → Byte) (utf8NumBytes : BitVec 64)
    (ucs2Data : ℕ → BitVec 16) : Utf8State ⊕ (ℤ × (ℕ → BitVec 16)) :=
  DoWhile.run (utf8Turn utf8Data utf8NumBytes) ⟨0, 0, ucs2Data⟩ turns

/-! ## The terminator -/

section

variable {utf8Data : ℕ → Byte}

/-- A code unit takes one to three bytes. -/
theorem taken_of_utf8Unit {i8 taken : BitVec 32} {unit : BitVec 16}
    (h : utf8Unit utf8Data i8 = some (unit, taken)) : 1 ≤ taken.toNat ∧ taken.toNat ≤ 3 := by
  unfold utf8Unit at h
  dsimp only at h
  split_ifs at h
  all_goals
    obtain ⟨-, rfl⟩ := Prod.mk.inj (Option.some.inj h)
    decide

/-- A zero byte stands for the terminator. -/
theorem utf8Unit_of_zero {i8 : BitVec 32} (h : utf8Data i8.toNat = 0) :
    utf8Unit utf8Data i8 = some (0, 1) := by
  simp [utf8Unit, h]

/-- The test of the loop on a string of `n` bytes. -/
theorem on_iff {n : ℕ} (hn : n + 1 < 2 ^ 64) (i8 : BitVec 32) :
    i8.setWidth 64 < BitVec.ofNat 64 (n + 1) - 1 ↔ i8.toNat < n := by
  have hlast : (BitVec.ofNat 64 (n + 1) - 1).toNat = n := by
    rw [BitVec.toNat_sub, BitVec.toNat_ofNat]
    simp only [BitVec.ofNat_eq_ofNat, BitVec.toNat_ofNat]
    omega
  rw [BitVec.lt_def, hlast, BitVec.toNat_setWidth_of_le (by decide)]

/-- Between the turns on a string of `n` bytes: no more units than bytes, and behind the units the
buffer is clear. -/
structure Utf8State.Inside (n : ℕ) (s : Utf8State) : Prop where
  units : s.i2.toNat ≤ s.i8.toNat
  bytes : s.i8.toNat < n ∨ s.i8.toNat = 0
  clear : ∀ j, s.i2.toNat ≤ j → s.ucs2Data j = 0

/-- A turn that goes on keeps the state so, for strings whose length leaves room in the counter. -/
theorem Utf8State.Inside.turn {n k : ℕ} (hn : n < 2 ^ 32 - 3) {s s' : Utf8State}
    (h : s.Inside n) (hturn : utf8Turn utf8Data (BitVec.ofNat 64 (n + 1)) k s = .inl s') :
    s'.Inside n := by
  have hbytes := h.bytes
  have hunits := h.units
  unfold utf8Turn at hturn
  split at hturn
  · cases hturn
  · rename_i unit taken hunit
    obtain ⟨hpos, hle⟩ := taken_of_utf8Unit hunit
    dsimp only at hturn
    split_ifs at hturn with hon
    obtain rfl := Sum.inl.inj hturn
    have hsum : (s.i8 + taken).toNat = s.i8.toNat + taken.toNat := by
      rw [BitVec.toNat_add, Nat.mod_eq_of_lt (by omega)]
    have hnext : (s.i2 + 1).toNat = s.i2.toNat + 1 := by
      rw [BitVec.toNat_add]
      simp only [BitVec.ofNat_eq_ofNat, BitVec.toNat_ofNat]
      omega
    rw [on_iff (by omega), hsum] at hon
    refine ⟨?_, ?_, fun j hj => ?_⟩
    · dsimp only
      omega
    · dsimp only
      omega
    · dsimp only at hj ⊢
      rw [Function.update_of_ne (by omega)]
      exact h.clear j (by omega)

/-- The conversion leaves the last unit of a cleared buffer alone, or puts the terminator there. -/
theorem terminated_of_utf8ToUcs2 {turns n : ℕ} (hn : n < 2 ^ 32 - 3)
    (hfirst : n = 0 → utf8Data 0 = 0) {ucs2Data : ℕ → BitVec 16}
    (h : utf8ToUcs2 turns utf8Data (BitVec.ofNat 64 (n + 1)) (fun _ => 0) = .inr (0, ucs2Data)) :
    ucs2Data n = 0 := by
  obtain ⟨k, s, hreach, hturn⟩ := DoWhile.exists_of_run_eq_inr h
  have hstart : Utf8State.Inside n ⟨0, 0, fun _ => 0⟩ := ⟨Nat.le_refl _, .inr rfl, fun _ _ => rfl⟩
  have hinside : s.Inside n :=
    DoWhile.invariant_of_run_eq_inl hstart (fun _ _ _ hs hgo => hs.turn hn hgo) hreach
  have hbytes := hinside.bytes
  have hunits := hinside.units
  unfold utf8Turn at hturn
  split at hturn
  · cases hturn
  · rename_i unit taken hunit
    dsimp only at hturn
    split_ifs at hturn
    obtain ⟨-, rfl⟩ := Prod.mk.inj (Sum.inr.inj hturn)
    by_cases hi2 : n = s.i2.toNat
    · -- The unit behind all others is written for the empty string only.
      have hi8 : s.i8.toNat = 0 := by omega
      have hzero : utf8Data s.i8.toNat = 0 := by
        rw [hi8]
        exact hfirst (by omega)
      rw [utf8Unit_of_zero hzero] at hunit
      obtain ⟨rfl, -⟩ := Prod.mk.inj (Option.some.inj hunit)
      rw [hi2, Function.update_self]
    · rw [Function.update_of_ne hi2]
      exact hinside.clear n (by omega)

end

end BrilloBoot
