import BrilloBoot.Lib.Bytes
import Mathlib.Algebra.GroupWithZero.Nat
import Mathlib.Data.Fin.VecNotation
import Mathlib.Data.Fintype.Basic
import Mathlib.Tactic.FinCases

/-!
# The A/B metadata block

`BubSlotData` and `BubAbData` of `bub_ab_flow.h`, and their packed layout in memory and on the
`misc` partition. A slot's bit fields have the widths that the source declares, so that every value
of the record is one that the block can hold, and `BubAbData` and the 64-byte blocks are in
bijection (`ofBytes_toBytes`, `toBytes_ofBytes`).

The image of a record is its fields one after the other, so that a record is found in it by the
lengths of the fields before (`body_inj`). In one byte of a slot three fields share the bits, and
are told apart there first (`stateByte_inj`). That the reader's record has the image that was read
is then a matter of putting the pieces back together (`body_ofBytes`); the other direction follows,
since different records have different images (`toBytes_injective`).
-/

namespace BrilloBoot

/-- There are two slots, and `0` and `1` name them in `Fin 2`: one instance for every module. -/
instance twoSlots : NeZero 2 := ⟨two_ne_zero⟩

/-- `BubSlotData`: the state of one slot. -/
@[ext]
structure BubSlotData where
  /-- 15 is the highest priority, 1 the lowest, and 0 marks the slot unbootable. -/
  priority : BitVec 4
  /-- The boots of this slot that are left to attempt. -/
  triesRemaining : BitVec 3
  /-- 1 if this slot has booted successfully, 0 otherwise. -/
  successfulBoot : BitVec 1
  /-- Reserved for further use. -/
  reserved : Bytes 7
deriving DecidableEq

namespace BubSlotData

/-- The record that `bub_memset(slot, 0, sizeof(BubSlotData))` leaves. -/
def zero : BubSlotData := ⟨0, 0, 0, Bytes.zero 7⟩

/-- The byte that holds the three bit fields, the first declared in the low bits. -/
def stateByte (s : BubSlotData) : Byte := s.successfulBoot ++ s.triesRemaining ++ s.priority

/-- The eight bytes of a slot. -/
def toBytes (s : BubSlotData) : Bytes 8 := ⟨s.stateByte :: s.reserved.toList, by simp⟩

/-- The slot that eight bytes hold. -/
def ofBytes (b : Bytes 8) : BubSlotData where
  priority := b[0].extractLsb' 0 4
  triesRemaining := b[0].extractLsb' 4 3
  successfulBoot := b[0].extractLsb' 7 1
  reserved := b.sub 1 7

/-- The three bit fields of a state byte make it up. -/
theorem append_extractLsb' (b : Byte) :
    (b.extractLsb' 7 1 ++ b.extractLsb' 4 3 ++ b.extractLsb' 0 4 : Byte) = b := by
  apply BitVec.eq_of_getLsbD_eq
  intro i hi
  simp only [BitVec.getLsbD_append, BitVec.getLsbD_extractLsb']
  split_ifs with h₁ h₂
  · simp [h₁]
  · simp [h₂, show 4 + (i - 4) = i by omega]
  · simp [show i - 4 - 3 < 1 by omega, show 7 + (i - 4 - 3) = i by omega]

/-- A state byte determines the three bit fields. -/
theorem stateByte_inj {s t : BubSlotData} (h : s.stateByte = t.stateByte) :
    s.priority = t.priority ∧ s.triesRemaining = t.triesRemaining ∧
      s.successfulBoot = t.successfulBoot := by
  -- The priority is in bits 0 to 3, the tries in bits 4 to 6, the success in bit 7.
  have hbit (i : ℕ) := congrArg (fun v : Byte => v.getLsbD i) h
  simp only [stateByte, BitVec.getLsbD_append] at hbit
  refine ⟨BitVec.eq_of_getLsbD_eq fun i hi => ?_, BitVec.eq_of_getLsbD_eq fun i hi => ?_,
    BitVec.eq_of_getLsbD_eq fun i hi => ?_⟩
  · simpa [hi] using hbit i
  · simpa [hi, show ¬ 4 + i < 4 by omega, show 4 + i - 4 = i by omega] using hbit (4 + i)
  · simpa [show ¬ 7 + i < 4 by omega, show ¬ 7 + i - 4 < 3 by omega,
      show 7 + i - 4 - 3 = i by omega] using hbit (7 + i)

/-- Different records have different images. -/
theorem toBytes_injective : Function.Injective toBytes := by
  intro s t h
  have hlist := congrArg Bytes.toList h
  simp only [toBytes, List.cons.injEq] at hlist
  obtain ⟨hp, ht, hs⟩ := stateByte_inj hlist.1
  exact BubSlotData.ext hp ht hs (Bytes.ext hlist.2)

/-- An image is that of the record that it holds. -/
theorem toBytes_ofBytes (b : Bytes 8) : (ofBytes b).toBytes = b := by
  apply Bytes.ext
  have hcons : b[0] :: (b.toList.drop 1).take 7 = b.toList := by
    rw [Bytes.getElem_eq, List.take_of_length_le (by simp)]
    exact List.getElem_cons_drop (by simp : 0 < b.toList.length)
  simpa [toBytes, ofBytes, stateByte, append_extractLsb', Bytes.sub] using hcons

/-- A record is what its image holds. -/
theorem ofBytes_toBytes (s : BubSlotData) : ofBytes s.toBytes = s :=
  toBytes_injective (toBytes_ofBytes _)

end BubSlotData

/-- `BubAbData`: the A/B metadata. -/
@[ext]
structure BubAbData where
  /-- The magic number, see `bubBootCtrlMagic`. -/
  magic : Bytes 4
  /-- Major version number. -/
  majorVersion : Byte
  /-- Minor version number. -/
  minorVersion : Byte
  /-- Reserved for slot alignment. -/
  reserved1 : Bytes 2
  /-- Per-slot information: slot A is `slots 0`, slot B is `slots 1`. -/
  slots : Fin 2 → BubSlotData
  /-- Reserved for further use. -/
  reserved2 : Bytes 36
  /-- The checksum, as the host reads the four bytes. -/
  crc32 : BitVec 32
deriving DecidableEq

namespace BubAbData

/-- The 60 bytes before the checksum field. -/
def body (d : BubAbData) : List Byte :=
  d.magic.toList ++ [d.majorVersion, d.minorVersion] ++ d.reserved1.toList
    ++ (d.slots 0).toBytes.toList ++ (d.slots 1).toBytes.toList ++ d.reserved2.toList

/-- The body is what stands before the checksum. -/
@[simp] theorem length_body (d : BubAbData) : d.body.length = 60 := by simp [body]

/-- The 64 bytes of the record in memory. -/
def toBytes (d : BubAbData) : Bytes 64 := ⟨d.body ++ leBytes 4 d.crc32, by simp⟩

/-- The record that 64 bytes of memory hold. -/
def ofBytes (b : Bytes 64) : BubAbData where
  magic := b.sub 0 4
  majorVersion := b[4]
  minorVersion := b[5]
  reserved1 := b.sub 6 2
  slots := ![.ofBytes (b.sub 8 8), .ofBytes (b.sub 16 8)]
  reserved2 := b.sub 24 36
  crc32 := leWord 32 (b.sub 60 4).toList

/-- The bytes before the checksum determine every other field. -/
theorem body_inj {d e : BubAbData} (h : d.body = e.body) :
    { d with crc32 := e.crc32 } = e := by
  simp only [body] at h
  -- The fields have fixed lengths, so the pieces agree one by one, from the last.
  obtain ⟨h, h₆⟩ := List.append_inj h (by simp)
  obtain ⟨h, h₅⟩ := List.append_inj h (by simp)
  obtain ⟨h, h₄⟩ := List.append_inj h (by simp)
  obtain ⟨h, h₃⟩ := List.append_inj h (by simp)
  obtain ⟨h₁, h₂⟩ := List.append_inj h (by simp)
  simp only [List.cons.injEq, and_true] at h₂
  have hslots : d.slots = e.slots := by
    funext i
    fin_cases i
    · exact BubSlotData.toBytes_injective (Bytes.ext h₄)
    · exact BubSlotData.toBytes_injective (Bytes.ext h₅)
  exact BubAbData.ext (Bytes.ext h₁) h₂.1 h₂.2 (Bytes.ext h₃) hslots (Bytes.ext h₆) rfl

/-- Different records have different images. -/
theorem toBytes_injective : Function.Injective toBytes := by
  intro d e h
  obtain ⟨hbody, hcrc⟩ := List.append_inj (congrArg Bytes.toList h) (by simp)
  have hc : d.crc32 = e.crc32 := leBytes_injective rfl hcrc
  rw [← body_inj hbody, ← hc]

/-- The record before the checksum field is the block's first 60 bytes. -/
theorem body_ofBytes (b : Bytes 64) : (ofBytes b).body = b.toList.take 60 := by
  have hone (i : ℕ) (hi : i < 64) : [b[i]] = (b.toList.drop i).take 1 :=
    (List.take_one_drop_eq_of_lt_length (by simpa using hi)).symm
  have htwo : [b[4], b[5]] = (b.toList.drop 4).take 2 := by
    rw [← List.take_drop_append_take_drop b.toList 4 1 1, ← hone 4 (by omega), ← hone 5 (by omega)]
    rfl
  have hzero : (b.toList.drop 0).take 4 = b.toList.take 4 := by simp
  simp only [body, ofBytes, BubSlotData.toBytes_ofBytes, Matrix.cons_val_zero, Matrix.cons_val_one,
    Matrix.cons_val_fin_one, htwo, Bytes.sub]
  -- The six pieces follow each other without a gap.
  rw [List.take_drop_append_take_drop _ 0, List.take_drop_append_take_drop _ 0,
    List.take_drop_append_take_drop _ 0, List.take_drop_append_take_drop _ 0,
    List.take_drop_append_take_drop _ 0, List.drop_zero]

/-- An image is that of the record that it holds. -/
theorem toBytes_ofBytes (b : Bytes 64) : (ofBytes b).toBytes = b := by
  apply Bytes.ext
  have hcrc : leBytes 4 (ofBytes b).crc32 = b.toList.drop 60 := by
    rw [ofBytes, leBytes_leWord (by simp)]
    simp [Bytes.sub, List.take_of_length_le]
  simp only [toBytes, body_ofBytes, hcrc, List.take_append_drop]

/-- A record is what its image holds. -/
theorem ofBytes_toBytes (d : BubAbData) : ofBytes d.toBytes = d :=
  toBytes_injective (toBytes_ofBytes _)

end BubAbData

end BrilloBoot
