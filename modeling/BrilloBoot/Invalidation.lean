import BrilloBoot.Calls

/-!
# The contract of marking a slot as invalid

`bub_ab_flow.h` documents that `bub_ab_mark_as_invalid` returns 0 on success and 1 on failure, and
`efi_main` relies on it. The function returns what the writer returns, which is 1 on success, and 0
for a suffix that names no slot. `markContract_iff` says on which blocks, suffixes and outcomes of
the I/O it meets the contract nevertheless.
-/

namespace BrilloBoot

open BubAbData

/-- The second block is the first with the eight bytes of slot `i` cleared and the checksum updated;
the bytes on both sides of the slot are as they were. -/
structure SlotCleared (b : Bytes 64) (i : Fin 2) (b' : Bytes 64) : Prop where
  body : b'.toList.take 60 = b.toList.take (8 + 8 * i) ++ List.replicate 8 0
    ++ (b.toList.take 60).drop (16 + 8 * i)
  checksum : ∃ d, bubReadAbDataFromMisc (miscOps .success) b' = .ok d

/-- What success means: the block was readable, the suffix names a slot, and this slot is cleared on
disk. -/
def Invalidated (io : MiscIo) (suffix : List Byte) (b b' : Bytes 64) : Prop :=
  (∃ d, bubReadAbDataFromMisc (miscOps io) b = .ok d) ∧
    ∃ i, suffix = bubSuffixes i ∧ SlotCleared b i b'

/-- The contract of `bub_ab_mark_as_invalid`, for what one call returns and leaves on disk. -/
structure MarkContract (io : MiscIo) (suffix : List Byte) (b : Bytes 64)
    (returned : ℤ × Bytes 64) : Prop where
  success : returned.1 = 0 ↔ Invalidated io suffix b returned.2
  failure : ¬ Invalidated io suffix b returned.2 → returned.2 = b

/-! ## Clearing a slot -/

/-- A string of two characters and a terminator names the slot whose suffix it is. -/
theorem suffixSlot_eq_some_iff {suffix : List Byte} (hlen : suffix.length = 3) (i : Fin 2) :
    suffixSlot suffix = some i ↔ suffix = bubSuffixes i := by
  have hmatch (j : Fin 2) : bubMemcmp (bubSuffixes j) suffix 3 = 0 ↔ suffix = bubSuffixes j := by
    have hj : (bubSuffixes j).length = 3 := by fin_cases j <;> rfl
    rw [bubMemcmp_eq_zero_iff hj.ge hlen.ge, List.take_of_length_le hj.le,
      List.take_of_length_le hlen.le, eq_comm]
  have hdiff : bubSuffixes 0 ≠ bubSuffixes 1 := by decide
  simp only [suffixSlot, List.find?_cons, hmatch, List.find?_nil]
  by_cases h₀ : suffix = bubSuffixes 0
  · fin_cases i <;> simp [h₀, hdiff]
  · by_cases h₁ : suffix = bubSuffixes 1
    · fin_cases i <;> simp [h₁, hdiff.symm]
    · fin_cases i <;> simp [h₀, h₁]

/-- The bytes of a record with a slot cleared. -/
theorem body_invalidated (d : BubAbData) (i : Fin 2) :
    (d.invalidated i).body = d.body.take (8 + 8 * i) ++ List.replicate 8 0
      ++ d.body.drop (16 + 8 * i) := by
  have hzero : (BubSlotData.zero).toBytes.toList = List.replicate 8 0 := by decide
  -- The slot's eight bytes lie between the fields before it and the fields after it.
  have hsplice (front slot back : List Byte) {k : ℕ} (hk : front.length = k)
      (hslot : slot.length = 8) :
      (front ++ slot ++ back).take k ++ List.replicate 8 0 ++ (front ++ slot ++ back).drop (k + 8)
        = front ++ List.replicate 8 0 ++ back := by
    subst hk
    rw [List.append_assoc front, List.take_left, ← List.drop_drop, List.drop_left,
      List.drop_left' hslot]
  let header := d.magic.toList ++ [d.majorVersion, d.minorVersion] ++ d.reserved1.toList
  fin_cases i
  · have h := hsplice header (d.slots 0).toBytes.toList
      ((d.slots 1).toBytes.toList ++ d.reserved2.toList) (k := 8) (by simp [header]) (by simp)
    simpa [body, invalidated, hzero, header] using h.symm
  · have h := hsplice (header ++ (d.slots 0).toBytes.toList) (d.slots 1).toBytes.toList
      d.reserved2.toList (k := 16) (by simp [header]) (by simp)
    simpa [body, invalidated, hzero, header] using h.symm

/-- On a readable block, clearing a slot leaves one block only. -/
theorem slotCleared_iff {b b' : Bytes 64} {d : BubAbData} (hb : readBlock b = .ok d) (i : Fin 2) :
    SlotCleared b i b' ↔ b' = (d.invalidated i).image := by
  have hbody : b.toList.take 60 = d.body := by rw [← image_of_readBlock hb, take_image]
  have hpieces : b.toList.take (8 + 8 * i) ++ List.replicate 8 0
      ++ (b.toList.take 60).drop (16 + 8 * i) = (d.invalidated i).body := by
    rw [body_invalidated, ← hbody, List.take_take, Nat.min_eq_left (by omega)]
  constructor
  · rintro ⟨hb', d', hread⟩
    rw [bubReadAbDataFromMisc_miscOps, MiscIo.success, if_pos rfl] at hread
    -- An image is determined by its first 60 bytes.
    have hd' : d'.body = (d.invalidated i).body := by
      rw [← hpieces, ← hb', ← image_of_readBlock hread, take_image]
    rw [← image_of_readBlock hread]
    exact image_eq_of_body_eq hd'
  · rintro rfl
    constructor
    · rw [take_image, hpieces]
    · have hmagic := (invalidated_magic d i).trans (magic_of_readBlock hb)
      exact ⟨_, bubReadAbDataFromMisc_image hmagic⟩

/-- A block is its own clearing exactly when the slot is clear already. -/
theorem slotCleared_self_iff {b : Bytes 64} {d : BubAbData} (hb : readBlock b = .ok d)
    (i : Fin 2) : SlotCleared b i b ↔ (BubAbData.ofBytes b).slots i = .zero := by
  have hslots : (BubAbData.ofBytes b).slots = d.slots := by
    rw [← image_of_readBlock hb, image, ofBytes_toBytes]
  rw [slotCleared_iff hb, hslots]
  conv_lhs => rw [← image_of_readBlock hb]
  rw [image_inj]
  constructor
  · intro h
    have hslot := congrArg (fun e : BubAbData => e.slots i) h
    simpa [invalidated] using hslot
  · intro h
    have hsame : d.invalidated i = d := by
      rw [invalidated, with_slots_eq_self, ← h, Function.update_eq_self]
    rw [hsame]

/-! ## The contract -/

/-- A block that is not readable, with an error that is reported as such. -/
theorem markContract_of_not_readable {io : MiscIo} {b : Bytes 64}
    (h : ∀ d, bubReadAbDataFromMisc (miscOps io) b ≠ .ok d) (suffix : List Byte) {value : ℤ}
    (hvalue : value ≠ 0) : MarkContract io suffix b (value, b) := by
  constructor
  · exact iff_of_false hvalue fun hinv => hinv.1.elim h
  · intro _
    rfl

/-- A slot that was cleared, with a 1 that is returned for it. -/
theorem not_markContract_of_cleared {io : MiscIo} {suffix : List Byte} {b : Bytes 64}
    {d : BubAbData} {i : Fin 2} (hread : bubReadAbDataFromMisc (miscOps io) b = .ok d)
    (hb : readBlock b = .ok d) (hsuffix : suffix = bubSuffixes i) :
    ¬ MarkContract io suffix b (1, (d.invalidated i).image) := by
  intro h
  have hinv : Invalidated io suffix b (d.invalidated i).image :=
    ⟨⟨d, hread⟩, i, hsuffix, (slotCleared_iff hb i).mpr rfl⟩
  have hzero : (1 : ℤ) = 0 := h.success.mpr hinv
  exact absurd hzero (by decide)

/-- `bub_ab_mark_as_invalid` meets its contract exactly when the block was not readable, or the
slot that the suffix names is clear already and the write fails. -/
theorem markContract_iff (io : MiscIo) (suffix : Bytes 2) (b : Bytes 64) :
    MarkContract io (suffix.toList ++ [0]) b
        (bubAbMarkAsInvalid (miscOps io) (suffix.toList ++ [0]) b) ↔
      (∀ d, bubReadAbDataFromMisc (miscOps io) b ≠ .ok d) ∨
        ∃ i, suffix.toList ++ [0] = bubSuffixes i ∧ (BubAbData.ofBytes b).slots i = .zero ∧
          io.write = false := by
  have hlen : (suffix.toList ++ [0]).length = 3 := by simp
  generalize suffix.toList ++ [0] = s at hlen
  have hread := bubReadAbDataFromMisc_miscOps io b
  -- When the read fails, or rejects the block, a failure is returned, as documented.
  rcases bubAbMarkAsInvalid_miscOps_cases io s b with
    ⟨hio, h⟩ | ⟨hio, hbad, h⟩ | ⟨d, hio, hb, hfail, h⟩ | ⟨d, i, hio, hb, hi, hw, h⟩
  · have hbad : ∀ d, bubReadAbDataFromMisc (miscOps io) b ≠ .ok d := by simp [hread, hio]
    rw [h]
    exact iff_of_true (markContract_of_not_readable hbad s (by decide)) (.inl hbad)
  · have hnone : ∀ d, bubReadAbDataFromMisc (miscOps io) b ≠ .ok d := by simp [hread, hio, hbad]
    rw [h]
    exact iff_of_true (markContract_of_not_readable hnone s (by decide)) (.inl hnone)
  · -- The 0 that is returned claims a success, on a block that was left as it is.
    rw [if_pos hio, hb] at hread
    rw [h]
    have hcontract : MarkContract io s b (0, b) ↔ ∃ i, s = bubSuffixes i ∧ SlotCleared b i b :=
      ⟨fun hc => (hc.success.mp rfl).2, fun hc => ⟨iff_of_true rfl ⟨⟨d, hread⟩, hc⟩, fun _ => rfl⟩⟩
    rw [hcontract]
    constructor
    · rintro ⟨i, hs, hclear⟩
      rw [slotCleared_self_iff hb] at hclear
      have hname := (suffixSlot_eq_some_iff hlen i).mpr hs
      refine .inr ⟨i, hs, hclear, hfail.resolve_left ?_⟩
      rw [hname]
      exact Option.some_ne_none i
    · rintro (hbad | ⟨i, hs, hclear, -⟩)
      · exact absurd hread (hbad d)
      · exact ⟨i, hs, (slotCleared_self_iff hb i).mpr hclear⟩
  · rw [if_pos hio, hb] at hread
    rw [h]
    refine iff_of_false (not_markContract_of_cleared hread hb ?_) ?_
    · exact (suffixSlot_eq_some_iff hlen i).mp hi
    · rintro (hbad | ⟨-, -, -, hw'⟩)
      · exact hbad d hread
      · rw [hw] at hw'
        cases hw'

/-- Marking slot A of the reset block as invalid, with all I/O succeeding, returns the failure
code. -/
theorem mark_reset_not_markContract :
    ¬ MarkContract .success (bubSuffixes 0) resetAbData.image
      (bubAbMarkAsInvalid (miscOps .success) (bubSuffixes 0) resetAbData.image) := by
  have hmagic : resetAbData.magic = bubBootCtrlMagic := rfl
  have hread := bubReadAbDataFromMisc_image hmagic
  have hname : suffixSlot (bubSuffixes 0) = some 0 := by decide
  rw [bubAbMarkAsInvalid_of_read_ok hread, hname]
  simp only [bubWriteAbDataToMisc_miscOps, MiscIo.success, if_true]
  exact not_markContract_of_cleared hread (readBlock_image hmagic) rfl

end BrilloBoot
