import BrilloBoot.PartitionIo

/-!
# Which bytes of a partition a request reaches

The last block of a partition belongs to it, but `IMG_SIZE` leaves it out. A request from the start
that crosses the end of that size is cut short or refused, one from the end of the partition is a
block off, and a byte whose address does not fit 64 bits is never reached: `addressable_iff`. For
the size as the code computes it, `readContract_iff` says which reads follow the documented contract
for partial transfers.
-/

namespace BrilloBoot

section

variable {bub : MyBubOps} {name : List Byte} {entry : GPTEntry} {offset : BitVec 64}

/-! ## The whole partition -/

/-- A request that starts in the partition or at its end, and ends there too. -/
def RequestWithin (entry : GPTEntry) (blockSize : BitVec 32) (offset : BitVec 64) (n : ℕ) : Prop :=
  entry.start blockSize ≤ requestedByte entry blockSize offset 0 ∧
    requestedByte entry blockSize offset 0 + n ≤ entry.stop blockSize

/-- A request is carried out whole, at the place that it names. -/
structure Addressable (bub : MyBubOps) (name : List Byte) (entry : GPTEntry)
    (offset n : BitVec 64) : Prop where
  read : ∀ disk, bubReadFromPartition bub ⟨true, true⟩ name offset n disk =
    (.ok, disk.read (requestedByte entry bub.blockSize offset 0).toNat n.toNat)
  write : ∀ disk buf, buf.length = n.toNat →
    bubWriteToPartition bub ⟨true, true⟩ name buf offset disk =
      (.ok, disk.write (requestedByte entry bub.blockSize offset 0).toNat buf)

/-- The requests that are carried out: from the start, the empty ones, and those that do not cross
the end of the computed size and whose address fits 64 bits; from the end, empty ones only. -/
def ReachedAsNamed (entry : GPTEntry) (blockSize : BitVec 32) (offset n : BitVec 64) : Prop :=
  if offset.toInt < 0 then
    n.toNat = 0 ∧ 2 ^ 64 - offset.toNat ≤ (imgSize entry blockSize).toNat
  else n.toNat = 0 ∨
    (entry.start blockSize + offset.toNat < 2 ^ 64 ∧
      ¬ (offset.toNat ≤ (imgSize entry blockSize).toNat ∧
        (imgSize entry blockSize).toNat < offset.toNat + n.toNat))

/-- Where a request from the start begins. -/
theorem requestedByte_of_nonneg (entry : GPTEntry) (blockSize : BitVec 32)
    (hsign : offset.toNat < 2 ^ 63) :
    requestedByte entry blockSize offset 0 = (entry.start blockSize + offset.toNat : ℕ) := by
  have hint := toInt_of_nonneg hsign
  rw [requestedByte, hint, if_neg (by omega)]
  push_cast
  omega

/-- Where a request from the end begins. -/
theorem requestedByte_of_neg (entry : GPTEntry) (blockSize : BitVec 32)
    (hsign : 2 ^ 63 ≤ offset.toNat) :
    requestedByte entry blockSize offset 0
      = entry.stop blockSize - (2 ^ 64 - offset.toNat : ℕ) := by
  have hlt := offset.isLt
  have hint := toInt_of_neg hsign
  rw [requestedByte, hint, if_pos (by omega)]
  omega

/-- A request whose offset is inside the range is carried out when what is left of the computed size
holds it, and its place is the one named or it is empty. -/
theorem addressable_iff_of_offsetFromStart (hentry : bub.entryByName name = some entry)
    {o : BitVec 64} (hoffset : offsetFromStart (imgSize entry bub.blockSize) offset = some o)
    (n : BitVec 64) :
    Addressable bub name entry offset n ↔
      n.toNat ≤ (imgSize entry bub.blockSize - o).toNat ∧
        (n.toNat = 0 ∨ (entry.start bub.blockSize + o.toNat) % 2 ^ 64
          = (requestedByte entry bub.blockSize offset 0).toNat) := by
  constructor
  · intro h
    have hread (disk : Disk) := h.read disk
    simp only [bubReadFromPartition_of_offsetFromStart hentry hoffset, if_true, Prod.mk.injEq,
      true_and] at hread
    have hlen := congrArg List.length (hread default)
    rw [Disk.length_read, Disk.length_read] at hlen
    rw [hlen] at hread
    exact ⟨by omega, Disk.forall_read_eq_iff.mp hread⟩
  · rintro ⟨hfit, hplace⟩
    constructor
    · intro disk
      rw [bubReadFromPartition_of_offsetFromStart hentry hoffset, if_pos rfl, Nat.min_eq_left hfit,
        Disk.forall_read_eq_iff.mpr hplace disk]
    · intro disk buf hbuf
      rw [bubWriteToPartition_of_offsetFromStart hentry hoffset _ (by omega),
        if_neg (by omega), if_pos rfl]
      rcases hplace with hempty | hplace
      · rw [hempty, List.length_eq_zero_iff] at hbuf
        rw [hbuf, Disk.write_nil, Disk.write_nil]
      · rw [hplace]

/-- Requests from the start. -/
theorem addressable_iff_of_nonneg (hentry : bub.entryByName name = some entry)
    (hordered : entry.firstLba.toNat ≤ entry.lastLba.toNat)
    (hsize : entry.stop bub.blockSize - entry.start bub.blockSize < 2 ^ 63)
    (hsign : offset.toNat < 2 ^ 63) {n : BitVec 64}
    (hin : RequestWithin entry bub.blockSize offset n.toNat) :
    Addressable bub name entry offset n ↔ n.toNat = 0 ∨
      (entry.start bub.blockSize + offset.toNat < 2 ^ 64 ∧
        ¬ (offset.toNat ≤ (imgSize entry bub.blockSize).toNat ∧
          (imgSize entry bub.blockSize).toNat < offset.toNat + n.toNat)) := by
  have hbyte := requestedByte_of_nonneg entry bub.blockSize hsign
  obtain ⟨-, hend⟩ := hin
  have hcomputed := GPTEntry.start_add_imgSize hordered (Nat.lt_trans hsize (by decide))
  -- Beyond the computed size the difference wraps, and holds every request.
  have hleft : n.toNat ≤ (imgSize entry bub.blockSize - offset).toNat ↔
      ¬ (offset.toNat ≤ (imgSize entry bub.blockSize).toNat ∧
        (imgSize entry bub.blockSize).toNat < offset.toNat + n.toNat) := by
    rw [BitVec.toNat_sub]
    omega
  rw [addressable_iff_of_offsetFromStart hentry (offsetFromStart_of_nonneg hsign), hleft, hbyte]
  omega

/-- Requests from the end. -/
theorem addressable_iff_of_neg (hentry : bub.entryByName name = some entry)
    (hordered : entry.firstLba.toNat ≤ entry.lastLba.toNat)
    (hsize : entry.stop bub.blockSize - entry.start bub.blockSize < 2 ^ 63)
    (hsign : 2 ^ 63 ≤ offset.toNat) {n : BitVec 64}
    (hin : RequestWithin entry bub.blockSize offset n.toNat) :
    Addressable bub name entry offset n ↔
      n.toNat = 0 ∧ 2 ^ 64 - offset.toNat ≤ (imgSize entry bub.blockSize).toNat := by
  have hbyte := requestedByte_of_neg entry bub.blockSize hsign
  obtain ⟨hstart, hend⟩ := hin
  have hcomputed := GPTEntry.start_add_imgSize hordered (Nat.lt_trans hsize (by decide))
  rcases offsetFromStart_of_neg (imgSize entry bub.blockSize) hsign with
    ⟨hout, hoffset⟩ | ⟨hwithin, o, hoffset, ho⟩
  · refine iff_of_false (fun h => ?_) (by omega)
    have hread := h.read default
    rw [bubReadFromPartition_of_none hentry hoffset, Prod.mk.injEq] at hread
    exact absurd hread.1 (by decide)
  · -- The place is a whole block before the one named.
    have hlt := offset.isLt
    have hleft : (imgSize entry bub.blockSize - o).toNat = 2 ^ 64 - offset.toNat := by
      rw [BitVec.toNat_sub_of_le (by rw [BitVec.le_def]; omega), ho]
      omega
    have hblock : bub.blockSize.toNat ≠ 0 := by
      intro hzero
      rw [hbyte, GPTEntry.stop, GPTEntry.start, hzero] at hstart
      omega
    have hwrap := Nat.mod_le (entry.start bub.blockSize + o.toNat) (2 ^ 64)
    rw [addressable_iff_of_offsetFromStart hentry hoffset, hleft, hbyte]
    omega

/-- A request inside a partition is carried out whole, at the place that it names, exactly when it
is one that `ReachedAsNamed` describes. -/
theorem addressable_iff (hentry : bub.entryByName name = some entry)
    (hordered : entry.firstLba.toNat ≤ entry.lastLba.toNat)
    (hsize : entry.stop bub.blockSize - entry.start bub.blockSize < 2 ^ 63) {n : BitVec 64}
    (hin : RequestWithin entry bub.blockSize offset n.toNat) :
    Addressable bub name entry offset n ↔ ReachedAsNamed entry bub.blockSize offset n := by
  have hlt := offset.isLt
  unfold ReachedAsNamed
  rcases Nat.lt_or_ge offset.toNat (2 ^ 63) with hsign | hsign
  · have hint := toInt_of_nonneg hsign
    rw [if_neg (by omega), addressable_iff_of_nonneg hentry hordered hsize hsign hin]
  · have hint := toInt_of_neg hsign
    rw [if_pos (by omega), addressable_iff_of_neg hentry hordered hsize hsign hin]

end

/-- A partition of the ten blocks from block 10 on. -/
def tenBlocks : GPTEntry := ⟨.zero 16, .zero 16, 10, 19, 0, fun _ => 0⟩

/-- A device of 512-byte blocks with that partition only. -/
def tenBlocksBub : MyBubOps := ⟨512, fun _ => some tenBlocks⟩

/-- A read of the whole partition of ten blocks comes up a block short. -/
theorem whole_partition_not_addressable :
    tenBlocks.firstLba.toNat ≤ tenBlocks.lastLba.toNat ∧
      tenBlocks.stop 512 - tenBlocks.start 512 < 2 ^ 63 ∧
      RequestWithin tenBlocks 512 0 5120 ∧
      ¬ Addressable tenBlocksBub miscPartition tenBlocks 0 5120 := by
  have hentry : tenBlocksBub.entryByName miscPartition = some tenBlocks := rfl
  refine ⟨by decide, by decide, ⟨by decide, by decide⟩, fun h => ?_⟩
  rw [addressable_iff_of_offsetFromStart hentry rfl] at h
  exact absurd h.1 (by decide)

/-- Its first byte is reached. -/
theorem first_byte_addressable : Addressable tenBlocksBub miscPartition tenBlocks 0 1 := by
  have hentry : tenBlocksBub.entryByName miscPartition = some tenBlocks := rfl
  have hin : RequestWithin tenBlocks tenBlocksBub.blockSize 0 (1 : BitVec 64).toNat :=
    ⟨by decide, by decide⟩
  exact (addressable_iff hentry (by decide) (by decide) hin).mpr (.inr ⟨by decide, by decide⟩)

/-! ## Partial transfers -/

section

variable {bub : MyBubOps} {name : List Byte} {entry : GPTEntry} {offset : BitVec 64}

/-- The offset from the start of the computed size `size` that an offset stands for. -/
def countedFromStart (size : ℕ) (offset : BitVec 64) : ℕ :=
  (if offset.toInt < 0 then size + offset.toInt else offset.toInt).toNat

/-- An offset in the range is translated to what it counts from the start. -/
theorem offsetFromStart_of_range {size : BitVec 64} (hsize : size.toNat < 2 ^ 63)
    (hlow : -(size.toNat : ℤ) ≤ offset.toInt) (hhigh : offset.toInt ≤ size.toNat) :
    ∃ o, offsetFromStart size offset = some o ∧ o.toNat = countedFromStart size.toNat offset ∧
      o ≤ size := by
  have hlt := offset.isLt
  rcases Nat.lt_or_ge offset.toNat (2 ^ 63) with hsign | hsign
  · have hint := toInt_of_nonneg hsign
    refine ⟨offset, offsetFromStart_of_nonneg hsign, ?_, by rw [BitVec.le_def]; omega⟩
    rw [countedFromStart, hint, if_neg (by omega), Int.toNat_natCast]
  · have hint := toInt_of_neg hsign
    rcases offsetFromStart_of_neg size hsign with ⟨hout, -⟩ | ⟨-, o, hoffset, ho⟩
    · omega
    · refine ⟨o, hoffset, ?_, by rw [BitVec.le_def]; omega⟩
      rw [countedFromStart, hint, if_pos (by omega)]
      omega

/-- The documented contract of `read_from_partition` for transfers that are cut short, with the size
as the code computes it. -/
structure ReadContract (bub : MyBubOps) (name : List Byte) (entry : GPTEntry)
    (offset n : BitVec 64) : Prop where
  /-- An offset in the range is read from up to the end of the size. -/
  inside : -((imgSize entry bub.blockSize).toNat : ℤ) ≤ offset.toInt →
    offset.toInt ≤ (imgSize entry bub.blockSize).toNat → ∀ disk,
      bubReadFromPartition bub ⟨true, true⟩ name offset n disk =
        (.ok, disk.read
          (entry.start bub.blockSize + countedFromStart (imgSize entry bub.blockSize).toNat offset)
          (min n.toNat ((imgSize entry bub.blockSize).toNat
            - countedFromStart (imgSize entry bub.blockSize).toNat offset)))
  /-- Every other offset is an error. -/
  outside : ¬ (-((imgSize entry bub.blockSize).toNat : ℤ) ≤ offset.toInt ∧
      offset.toInt ≤ (imgSize entry bub.blockSize).toNat) → ∀ disk,
    bubReadFromPartition bub ⟨true, true⟩ name offset n disk = (.errorRangeOutsidePartition, [])
  /-- No byte from the end of the size on has an influence. -/
  beyond : ∀ disk disk' : Disk,
    (∀ a < entry.start bub.blockSize + (imgSize entry bub.blockSize).toNat, disk a = disk' a) →
    bubReadFromPartition bub ⟨true, true⟩ name offset n disk =
      bubReadFromPartition bub ⟨true, true⟩ name offset n disk'

/-- A read in the range follows the contract when it is empty or its address does not wrap. -/
theorem readContract_iff_of_inside (hentry : bub.entryByName name = some entry) {o : BitVec 64}
    (hoffset : offsetFromStart (imgSize entry bub.blockSize) offset = some o)
    (ho : o ≤ imgSize entry bub.blockSize)
    (hcount : countedFromStart (imgSize entry bub.blockSize).toNat offset = o.toNat)
    (hin : -((imgSize entry bub.blockSize).toNat : ℤ) ≤ offset.toInt ∧
      offset.toInt ≤ (imgSize entry bub.blockSize).toNat) (n : BitVec 64) :
    ReadContract bub name entry offset n ↔
      min n.toNat ((imgSize entry bub.blockSize).toNat - o.toNat) = 0 ∨
        entry.start bub.blockSize + o.toNat < 2 ^ 64 := by
  have hread (disk : Disk) :=
    bubReadFromPartition_of_offsetFromStart hentry hoffset ⟨true, true⟩ n disk
  simp only [BitVec.toNat_sub_of_le ho, if_true] at hread
  have haddress : (entry.start bub.blockSize + o.toNat) % 2 ^ 64
      = entry.start bub.blockSize + o.toNat ↔ entry.start bub.blockSize + o.toNat < 2 ^ 64 := by
    omega
  rw [← haddress, ← Disk.forall_read_eq_iff]
  constructor
  · intro h disk
    have hinside := h.inside hin.1 hin.2 disk
    rw [hread, hcount, Prod.mk.injEq] at hinside
    exact hinside.2
  · intro h
    have hplain (disk : Disk) := (hread disk).trans (by rw [h])
    refine ⟨fun _ _ disk => ?_, fun hout => absurd hin hout, fun disk disk' hsame => ?_⟩
    · rw [hplain, hcount]
    · -- The bytes that are read lie below the end of the size.
      rw [hplain, hplain, Disk.read_congr]
      intro a _ ha
      have hle : o.toNat ≤ (imgSize entry bub.blockSize).toNat := BitVec.le_def.mp ho
      exact hsame a (by omega)

/-- A read follows the contract exactly when its offset is not beyond the computed size, and the
address of its first byte, if it has one, fits 64 bits. -/
theorem readContract_iff (hentry : bub.entryByName name = some entry)
    (hsize : (imgSize entry bub.blockSize).toNat < 2 ^ 63) (n : BitVec 64) :
    ReadContract bub name entry offset n ↔
      offset.toInt ≤ (imgSize entry bub.blockSize).toNat ∧
      (-((imgSize entry bub.blockSize).toNat : ℤ) ≤ offset.toInt →
        min n.toNat ((imgSize entry bub.blockSize).toNat
            - countedFromStart (imgSize entry bub.blockSize).toNat offset) = 0 ∨
          entry.start bub.blockSize
            + countedFromStart (imgSize entry bub.blockSize).toNat offset < 2 ^ 64) := by
  have hlt := offset.isLt
  rcases Int.lt_or_le (imgSize entry bub.blockSize).toNat offset.toInt with hbeyond | hhigh
  · -- Beyond the size the difference wraps, and the read succeeds.
    have hsign : offset.toNat < 2 ^ 63 := by
      by_contra hneg
      rw [toInt_of_neg (by omega)] at hbeyond
      omega
    refine iff_of_false (fun h => ?_) (by omega)
    have hrange := h.outside (by omega) default
    rw [bubReadFromPartition_of_offsetFromStart hentry (offsetFromStart_of_nonneg hsign),
      if_pos rfl, Prod.mk.injEq] at hrange
    exact absurd hrange.1 (by decide)
  rcases Int.lt_or_le offset.toInt (-((imgSize entry bub.blockSize).toNat : ℤ)) with hbelow | hlow
  · have hsign : 2 ^ 63 ≤ offset.toNat := by
      by_contra hpos
      rw [toInt_of_nonneg (by omega)] at hbelow
      omega
    have hint := toInt_of_neg hsign
    -- Before the start of the partition the read is refused, as documented.
    have hoffset : offsetFromStart (imgSize entry bub.blockSize) offset = none := by
      rcases offsetFromStart_of_neg (imgSize entry bub.blockSize) hsign with
        ⟨-, hnone⟩ | ⟨hwithin, -⟩
      · exact hnone
      · omega
    have hread := bubReadFromPartition_of_none hentry hoffset ⟨true, true⟩ n
    refine iff_of_true ⟨by omega, fun _ disk => hread disk, fun disk disk' _ => ?_⟩ (by omega)
    rw [hread, hread]
  · obtain ⟨o, hoffset, hcount, hle⟩ := offsetFromStart_of_range hsize hlow hhigh
    rw [readContract_iff_of_inside hentry hoffset hle hcount.symm ⟨hlow, hhigh⟩, hcount]
    exact ⟨fun h => ⟨hhigh, fun _ => h⟩, fun h => h.2 hlow⟩

end

/-- A read of one byte at offset 6000 of the partition of ten blocks, whose computed size is 4608,
is carried out. -/
theorem beyond_size_not_readContract :
    (imgSize tenBlocks 512).toNat < 2 ^ 63 ∧
      ¬ ReadContract tenBlocksBub miscPartition tenBlocks 6000 1 := by
  have hentry : tenBlocksBub.entryByName miscPartition = some tenBlocks := rfl
  refine ⟨by decide, fun h => ?_⟩
  have hrange := h.outside (by decide) default
  rw [bubReadFromPartition_of_offsetFromStart hentry rfl, if_pos rfl, Prod.mk.injEq] at hrange
  exact absurd hrange.1 (by decide)

/-- A read of the whole partition follows the contract, a block short. -/
theorem whole_partition_readContract :
    ReadContract tenBlocksBub miscPartition tenBlocks 0 5120 := by
  have hentry : tenBlocksBub.entryByName miscPartition = some tenBlocks := rfl
  exact (readContract_iff hentry (by decide) 5120).mpr ⟨by decide, fun _ => .inr (by decide)⟩

end BrilloBoot
