import BrilloBoot.Lib.Disk
import BrilloBoot.Ops
import Mathlib.Algebra.Group.Int.Defs
import Mathlib.Algebra.Group.Nat.Defs

/-!
# Partition I/O over a disk

`bub_read_from_partition` and `bub_write_to_partition` of `bub_ops_uefi.c`. A byte of the disk has
an address below `2^64`, and the 64-bit arithmetic of the two functions wraps. The write's check of
its range is sound for offsets from the end and for offsets up to the size that the code computes;
beyond that size the subtraction in the check wraps, and the exact condition for the documented
contract is `writeContract_iff`.
-/

namespace BrilloBoot

/-- `GPTEntry`: an entry of the partition table. -/
structure GPTEntry where
  typeGUID : Bytes 16
  uniqueGUID : Bytes 16
  firstLba : BitVec 64
  /-- The last block of the partition, which belongs to it. -/
  lastLba : BitVec 64
  flags : BitVec 64
  name : Fin 36 → BitVec 16

/-- `IMG_SIZE`. -/
def imgSize (entry : GPTEntry) (blockSize : BitVec 32) : BitVec 64 :=
  (entry.lastLba - entry.firstLba) * blockSize.setWidth 64

/-- What the partition I/O reads of `MyBubOps` and of the partition table. The table does not change
while the boot loader runs, so that the search by name is a function of the name. -/
structure MyBubOps where
  /-- `block_io->Media->BlockSize`. -/
  blockSize : BitVec 32
  /-- The entry that `bub_partition_entry_by_name` finds, `none` for `EFI_NOT_FOUND`. -/
  entryByName : List Byte → Option GPTEntry

/-- Whether the transfers of one call succeed. One that fails leaves the disk as it is. -/
structure DiskIo where
  /-- `disk_io->ReadDisk`. -/
  read : Bool
  /-- `disk_io->WriteDisk`. -/
  write : Bool
deriving DecidableEq

/-- The offset from the start of a partition for an offset that may be negative, and then counts
from its end; `none` when it is outside the range. The two functions do this alike. -/
def offsetFromStart (partitionSize offset : BitVec 64) : Option (BitVec 64) :=
  if offset.slt 0 then
    if -offset > partitionSize then none else some (partitionSize - -offset)
  else some offset

/-- `bub_read_from_partition`: the result, and the bytes that it put in the buffer. -/
def bubReadFromPartition (bub : MyBubOps) (io : DiskIo) (partitionName : List Byte)
    (offset numBytes : BitVec 64) (disk : Disk) : BubIOResult × List Byte :=
  match bub.entryByName partitionName with
  | none => (.errorNoSuchPartition, [])
  | some entry =>
    let partitionSize := imgSize entry bub.blockSize
    match offsetFromStart partitionSize offset with
    | none => (.errorRangeOutsidePartition, [])
    | some offset =>
      -- A read past the partition's end is cut short there.
      let numRead :=
        if numBytes > partitionSize - offset then partitionSize - offset else numBytes
      if io.read then
        (.ok, disk.read (entry.firstLba * bub.blockSize.setWidth 64 + offset).toNat numRead.toNat)
      else (.errorIo, [])

/-- `bub_write_to_partition` of a whole buffer: the result and the disk. -/
def bubWriteToPartition (bub : MyBubOps) (io : DiskIo) (partitionName : List Byte)
    (buf : List Byte) (offset : BitVec 64) (disk : Disk) : BubIOResult × Disk :=
  match bub.entryByName partitionName with
  | none => (.errorNoSuchPartition, disk)
  | some entry =>
    let partitionSize := imgSize entry bub.blockSize
    match offsetFromStart partitionSize offset with
    | none => (.errorRangeOutsidePartition, disk)
    | some offset =>
      -- A write past the partition's end is an error.
      if BitVec.ofNat 64 buf.length > partitionSize - offset then
        (.errorRangeOutsidePartition, disk)
      else if io.write then
        (.ok, disk.write (entry.firstLba * bub.blockSize.setWidth 64 + offset).toNat buf)
      else (.errorIo, disk)

/-! ## Sizes and offsets -/

namespace GPTEntry

variable (entry : GPTEntry) (blockSize : BitVec 32)

/-- The address of the partition's first byte. -/
def start : ℕ := entry.firstLba.toNat * blockSize.toNat

/-- The address after the partition's last byte. -/
def stop : ℕ := (entry.lastLba.toNat + 1) * blockSize.toNat

/-- The partition's blocks are in order, and its bytes have addresses below `2^63`. -/
structure WellPlaced : Prop where
  ordered : entry.firstLba.toNat ≤ entry.lastLba.toNat
  bounded : entry.stop blockSize < 2 ^ 63

end GPTEntry

section

variable {entry : GPTEntry} {blockSize : BitVec 32}

/-- The blocks of a partition: the last one, and those before it. -/
theorem GPTEntry.stop_eq (h : entry.firstLba.toNat ≤ entry.lastLba.toNat) :
    entry.stop blockSize = entry.start blockSize
      + (entry.lastLba.toNat - entry.firstLba.toNat) * blockSize.toNat + blockSize.toNat := by
  rw [GPTEntry.stop, GPTEntry.start, ← Nat.add_mul, Nat.add_sub_cancel' h, Nat.succ_mul]

/-- The size that the code computes leaves out the last block, and wraps. -/
theorem toNat_imgSize (h : entry.firstLba.toNat ≤ entry.lastLba.toNat) :
    (imgSize entry blockSize).toNat
      = (entry.lastLba.toNat - entry.firstLba.toNat) * blockSize.toNat % 2 ^ 64 := by
  rw [imgSize, BitVec.toNat_mul, BitVec.toNat_sub_of_le h, BitVec.toNat_setWidth_of_le (by omega)]

/-- Within the size that the code computes, there is a block more to the partition's end. -/
theorem GPTEntry.start_add_imgSize_le (h : entry.firstLba.toNat ≤ entry.lastLba.toNat) :
    entry.start blockSize + (imgSize entry blockSize).toNat + blockSize.toNat
      ≤ entry.stop blockSize := by
  have hwrap := Nat.mod_le ((entry.lastLba.toNat - entry.firstLba.toNat) * blockSize.toNat) (2 ^ 64)
  rw [toNat_imgSize h, GPTEntry.stop_eq h]
  omega

/-- The size that the code computes is one block short of the partition's, unless it wraps. -/
theorem GPTEntry.start_add_imgSize (h : entry.firstLba.toNat ≤ entry.lastLba.toNat)
    (hsize : entry.stop blockSize - entry.start blockSize < 2 ^ 64) :
    entry.start blockSize + (imgSize entry blockSize).toNat + blockSize.toNat
      = entry.stop blockSize := by
  rw [GPTEntry.stop_eq h] at hsize ⊢
  rw [toNat_imgSize h, Nat.mod_eq_of_lt (by omega)]

/-- On a partition in place the size does not wrap. -/
theorem GPTEntry.WellPlaced.start_add_imgSize (h : entry.WellPlaced blockSize) :
    entry.start blockSize + (imgSize entry blockSize).toNat + blockSize.toNat
      = entry.stop blockSize := by
  have hbound := h.bounded
  exact GPTEntry.start_add_imgSize h.ordered (by omega)

/-- The address on disk for an offset from the start wraps. -/
theorem GPTEntry.toNat_address_mod (o : BitVec 64) :
    (entry.firstLba * blockSize.setWidth 64 + o).toNat
      = (entry.start blockSize + o.toNat) % 2 ^ 64 := by
  rw [BitVec.toNat_add, BitVec.toNat_mul, BitVec.toNat_setWidth_of_le (by omega), Nat.mod_add_mod,
    GPTEntry.start]

/-- The sign of an offset. -/
theorem slt_zero_iff (offset : BitVec 64) : offset.slt 0 = true ↔ 2 ^ 63 ≤ offset.toNat := by
  rw [BitVec.ofNat_eq_ofNat, BitVec.slt_zero_eq_msb, BitVec.msb_eq_decide, decide_eq_true_iff]

/-- The value of an offset from the start. -/
theorem toInt_of_nonneg {offset : BitVec 64} (h : offset.toNat < 2 ^ 63) :
    offset.toInt = offset.toNat := by
  rw [BitVec.toInt_eq_toNat_cond, if_pos (by omega)]

/-- The value of an offset from the end. -/
theorem toInt_of_neg {offset : BitVec 64} (h : 2 ^ 63 ≤ offset.toNat) :
    offset.toInt = offset.toNat - 2 ^ 64 := by
  rw [BitVec.toInt_eq_toNat_cond, if_neg (by omega)]
  rfl

/-- An offset that is not negative counts from the start as it is. -/
theorem offsetFromStart_of_nonneg {size offset : BitVec 64} (h : offset.toNat < 2 ^ 63) :
    offsetFromStart size offset = some offset := by
  unfold offsetFromStart
  rw [if_neg]
  rw [slt_zero_iff]
  omega

/-- A negative offset counts from the end of the computed size, and may not go below zero. -/
theorem offsetFromStart_of_neg (size : BitVec 64) {offset : BitVec 64}
    (h : 2 ^ 63 ≤ offset.toNat) :
    (size.toNat < 2 ^ 64 - offset.toNat ∧ offsetFromStart size offset = none) ∨
    (2 ^ 64 - offset.toNat ≤ size.toNat ∧ ∃ o, offsetFromStart size offset = some o ∧
      o.toNat = size.toNat - (2 ^ 64 - offset.toNat)) := by
  have hneg : (-offset).toNat = 2 ^ 64 - offset.toNat := by
    rw [BitVec.toNat_neg, Nat.mod_eq_of_lt (by omega)]
  unfold offsetFromStart
  rw [if_pos ((slt_zero_iff offset).mpr h)]
  rcases Nat.lt_or_ge size.toNat (2 ^ 64 - offset.toNat) with hlt | hge
  · have hout : -offset > size := by
      rw [gt_iff_lt, BitVec.lt_def, hneg]
      exact hlt
    exact .inl ⟨hlt, if_pos hout⟩
  · have hin : -offset ≤ size := by
      rw [BitVec.le_def, hneg]
      exact hge
    refine .inr ⟨hge, _, if_neg (BitVec.not_lt.mpr hin), ?_⟩
    rw [BitVec.toNat_sub_of_le hin, hneg]

end

section

variable {bub : MyBubOps} {name : List Byte} {entry : GPTEntry} {offset o : BitVec 64}

/-- A read whose offset is inside the range is cut short at the size that the code computes. -/
theorem bubReadFromPartition_of_offsetFromStart (hentry : bub.entryByName name = some entry)
    (hoffset : offsetFromStart (imgSize entry bub.blockSize) offset = some o) (io : DiskIo)
    (n : BitVec 64) (disk : Disk) :
    bubReadFromPartition bub io name offset n disk =
      if io.read then (.ok, disk.read ((entry.start bub.blockSize + o.toNat) % 2 ^ 64)
        (min n.toNat (imgSize entry bub.blockSize - o).toNat))
      else (.errorIo, []) := by
  have hread : (if n > imgSize entry bub.blockSize - o then imgSize entry bub.blockSize - o
      else n).toNat = min n.toNat (imgSize entry bub.blockSize - o).toNat := by
    simp only [gt_iff_lt, BitVec.lt_def]
    split_ifs <;> omega
  simp only [bubReadFromPartition, hentry, hoffset, GPTEntry.toNat_address_mod, hread]

/-- A read whose offset is outside the range. -/
theorem bubReadFromPartition_of_none (hentry : bub.entryByName name = some entry)
    (hoffset : offsetFromStart (imgSize entry bub.blockSize) offset = none) (io : DiskIo)
    (n : BitVec 64) (disk : Disk) :
    bubReadFromPartition bub io name offset n disk = (.errorRangeOutsidePartition, []) := by
  simp only [bubReadFromPartition, hentry, hoffset]

/-- A read at an offset from the start of a well-placed partition. -/
theorem bubReadFromPartition_of_nonneg (hentry : bub.entryByName name = some entry)
    (hplace : entry.WellPlaced bub.blockSize) (io : DiskIo) (ho : o.toNat < 2 ^ 63)
    (n : BitVec 64) (disk : Disk) :
    bubReadFromPartition bub io name o n disk =
      if io.read then (.ok, disk.read (entry.start bub.blockSize + o.toNat)
        (min n.toNat (imgSize entry bub.blockSize - o).toNat))
      else (.errorIo, []) := by
  have hsize := hplace.start_add_imgSize
  have hbound := hplace.bounded
  rw [bubReadFromPartition_of_offsetFromStart hentry (offsetFromStart_of_nonneg ho),
    Nat.mod_eq_of_lt (by omega)]

/-- A write whose offset is inside the range: the check of its length, and the transfer. -/
theorem bubWriteToPartition_of_offsetFromStart (hentry : bub.entryByName name = some entry)
    (hoffset : offsetFromStart (imgSize entry bub.blockSize) offset = some o) (io : DiskIo)
    {buf : List Byte} (hlen : buf.length < 2 ^ 64) (disk : Disk) :
    bubWriteToPartition bub io name buf offset disk =
      if (imgSize entry bub.blockSize - o).toNat < buf.length then
        (.errorRangeOutsidePartition, disk)
      else if io.write then
        (.ok, disk.write ((entry.start bub.blockSize + o.toNat) % 2 ^ 64) buf)
      else (.errorIo, disk) := by
  have hlength : (BitVec.ofNat 64 buf.length).toNat = buf.length := by
    rw [BitVec.toNat_ofNat, Nat.mod_eq_of_lt hlen]
  simp only [bubWriteToPartition, hentry, hoffset, GPTEntry.toNat_address_mod, gt_iff_lt,
    BitVec.lt_def, hlength]

/-- A write whose offset is outside the range. -/
theorem bubWriteToPartition_of_none (hentry : bub.entryByName name = some entry)
    (hoffset : offsetFromStart (imgSize entry bub.blockSize) offset = none) (io : DiskIo)
    (buf : List Byte) (disk : Disk) :
    bubWriteToPartition bub io name buf offset disk = (.errorRangeOutsidePartition, disk) := by
  simp only [bubWriteToPartition, hentry, hoffset]

end

/-! ## The contract of a write -/

/-- Where byte `j` of a request lies: from the start of the partition, or from its end for a
negative offset. -/
def requestedByte (entry : GPTEntry) (blockSize : BitVec 32) (offset : BitVec 64) (j : ℕ) : ℤ :=
  (if offset.toInt < 0 then entry.stop blockSize else entry.start blockSize : ℕ) + offset.toInt + j

/-- Every byte of a request lies in the partition. -/
def RequestInside (entry : GPTEntry) (blockSize : BitVec 32) (offset : BitVec 64) (n : ℕ) : Prop :=
  ∀ j < n, entry.start blockSize ≤ requestedByte entry blockSize offset j ∧
    requestedByte entry blockSize offset j < entry.stop blockSize

/-- The documented contract of `write_to_partition`, for what one call returns. -/
structure WriteContract (entry : GPTEntry) (blockSize : BitVec 32) (offset : BitVec 64) (n : ℕ)
    (disk : Disk) (returned : BubIOResult × Disk) : Prop where
  /-- Success changes bytes of the partition only, and an error changes none. -/
  contained : (returned.1 = .ok ∧ ∀ a, ¬ (entry.start blockSize ≤ a ∧ a < entry.stop blockSize) →
      returned.2 a = disk a) ∨ (returned.1 ≠ .ok ∧ returned.2 = disk)
  /-- A request that is not inside the partition is an error of its own. -/
  outside : ¬ RequestInside entry blockSize offset n → returned.1 = .errorRangeOutsidePartition

/-- The requests that get past the check of the range: they start beyond the size that the code
computes, they have a byte beyond the partition's end, and they are not so long that they reach the
wrapped difference. -/
def Overshoots (entry : GPTEntry) (blockSize : BitVec 32) (offset : BitVec 64) (n : ℕ) : Prop :=
  offset.toNat < 2 ^ 63 ∧ (imgSize entry blockSize).toNat < offset.toNat ∧ 0 < n ∧
    entry.stop blockSize < entry.start blockSize + offset.toNat + n ∧
    n + (offset.toNat - (imgSize entry blockSize).toNat) ≤ 2 ^ 64

section

variable {bub : MyBubOps} {io : DiskIo} {name buf : List Byte} {entry : GPTEntry}
  {offset : BitVec 64} {disk : Disk}

/-- A write to a well-placed partition, at an offset inside the range. -/
theorem bubWriteToPartition_of_offset (hentry : bub.entryByName name = some entry)
    (hplace : entry.WellPlaced bub.blockSize) (hlen : buf.length < 2 ^ 64) {o : BitVec 64}
    (hoffset : offsetFromStart (imgSize entry bub.blockSize) offset = some o)
    (ho : o.toNat < 2 ^ 63) :
    bubWriteToPartition bub io name buf offset disk =
      if (imgSize entry bub.blockSize - o).toNat < buf.length then
        (.errorRangeOutsidePartition, disk)
      else if io.write then (.ok, disk.write (entry.start bub.blockSize + o.toNat) buf)
      else (.errorIo, disk) := by
  have hsize := hplace.start_add_imgSize
  have hbound := hplace.bounded
  rw [bubWriteToPartition_of_offsetFromStart hentry hoffset io hlen,
    Nat.mod_eq_of_lt (by omega)]

/-- An error of the range satisfies the contract. -/
theorem writeContract_range (n : ℕ) :
    WriteContract entry bub.blockSize offset n disk (.errorRangeOutsidePartition, disk) :=
  ⟨.inr ⟨by simp, rfl⟩, fun _ => rfl⟩

/-- A transfer into the partition satisfies the contract, when the request is inside. -/
theorem writeContract_transfer {o : ℕ} (hin : RequestInside entry bub.blockSize offset buf.length)
    (hfit : buf.length = 0 ∨
      entry.start bub.blockSize + o + buf.length ≤ entry.stop bub.blockSize) :
    WriteContract entry bub.blockSize offset buf.length disk
      (if io.write then (.ok, disk.write (entry.start bub.blockSize + o) buf)
        else (.errorIo, disk)) := by
  refine ⟨?_, fun hout => absurd hin hout⟩
  cases io.write with
  | false => exact .inr ⟨by simp, rfl⟩
  | true =>
    refine .inl ⟨rfl, fun a ha => Disk.write_of_not_mem disk _ ?_⟩
    omega

/-- A transfer never reports an error of the range. -/
theorem not_writeContract_transfer {o : ℕ}
    (hout : ¬ RequestInside entry bub.blockSize offset buf.length) :
    ¬ WriteContract entry bub.blockSize offset buf.length disk
      (if io.write then (.ok, disk.write (entry.start bub.blockSize + o) buf)
        else (.errorIo, disk)) := by
  intro h
  have hrange := h.outside hout
  cases hw : io.write <;> simp [hw] at hrange

/-- A request from the start is inside unless it goes beyond the end. -/
theorem requestInside_of_nonneg (entry : GPTEntry) (blockSize : BitVec 32)
    (hsign : offset.toNat < 2 ^ 63) (n : ℕ) :
    RequestInside entry blockSize offset n ↔
      n = 0 ∨ entry.start blockSize + offset.toNat + n ≤ entry.stop blockSize := by
  have hint := toInt_of_nonneg hsign
  simp only [RequestInside, requestedByte, hint]
  rw [if_neg (by omega)]
  constructor
  · intro h
    rcases Nat.eq_zero_or_pos n with hn | hn
    · exact .inl hn
    · -- The last byte decides.
      have := h (n - 1) (by omega)
      omega
  · intro h j hj
    omega

/-- A request from the end is inside if it does not go beyond the start. -/
theorem requestInside_of_neg (hsign : 2 ^ 63 ≤ offset.toNat)
    (hin : 2 ^ 64 - offset.toNat ≤ (imgSize entry bub.blockSize).toNat)
    (hplace : entry.WellPlaced bub.blockSize) {n : ℕ} (hn : n ≤ 2 ^ 64 - offset.toNat) :
    RequestInside entry bub.blockSize offset n := by
  have hsize := hplace.start_add_imgSize
  have hint := toInt_of_neg hsign
  have hlt := offset.isLt
  intro j hj
  simp only [requestedByte, hint]
  rw [if_pos (by omega)]
  omega

/-- A request up to the size that the code computes: the difference is what is left of it. -/
theorem writeContract_of_le_imgSize (hentry : bub.entryByName name = some entry)
    (hplace : entry.WellPlaced bub.blockSize) (hlen : buf.length < 2 ^ 64)
    (hsign : offset.toNat < 2 ^ 63)
    (hwithin : offset.toNat ≤ (imgSize entry bub.blockSize).toNat) :
    WriteContract entry bub.blockSize offset buf.length disk
      (bubWriteToPartition bub io name buf offset disk) := by
  have hsize := hplace.start_add_imgSize
  have hsub : (imgSize entry bub.blockSize - offset).toNat
      = (imgSize entry bub.blockSize).toNat - offset.toNat := BitVec.toNat_sub_of_le hwithin
  rw [bubWriteToPartition_of_offset hentry hplace hlen (offsetFromStart_of_nonneg hsign) hsign,
    hsub]
  by_cases hlong : (imgSize entry bub.blockSize).toNat - offset.toNat < buf.length
  · rw [if_pos hlong]
    exact writeContract_range _
  · rw [if_neg hlong]
    have hfit : entry.start bub.blockSize + offset.toNat + buf.length
        ≤ entry.stop bub.blockSize := by omega
    have hinside := requestInside_of_nonneg entry bub.blockSize hsign buf.length
    exact writeContract_transfer (hinside.mpr (.inr hfit)) (.inr hfit)

/-- A request beyond the size that the code computes: the difference wraps, and only a request that
is longer than that is stopped. -/
theorem writeContract_of_imgSize_lt (hentry : bub.entryByName name = some entry)
    (hplace : entry.WellPlaced bub.blockSize) (hlen : buf.length < 2 ^ 64)
    (hsign : offset.toNat < 2 ^ 63)
    (hbeyond : (imgSize entry bub.blockSize).toNat < offset.toNat) :
    WriteContract entry bub.blockSize offset buf.length disk
        (bubWriteToPartition bub io name buf offset disk) ↔
      ¬ Overshoots entry bub.blockSize offset buf.length := by
  have hinside := requestInside_of_nonneg entry bub.blockSize hsign buf.length
  have hsub : (imgSize entry bub.blockSize - offset).toNat
      = 2 ^ 64 - (offset.toNat - (imgSize entry bub.blockSize).toNat) := by
    rw [BitVec.toNat_sub]
    omega
  rw [bubWriteToPartition_of_offset hentry hplace hlen (offsetFromStart_of_nonneg hsign) hsign,
    hsub]
  by_cases hlong : 2 ^ 64 - (offset.toNat - (imgSize entry bub.blockSize).toNat) < buf.length
  · rw [if_pos hlong]
    refine iff_of_true (writeContract_range _) fun h => ?_
    have := h.2.2.2.2
    omega
  · rw [if_neg hlong]
    by_cases hin : RequestInside entry bub.blockSize offset buf.length
    · -- The request is empty, or lies in the last block, which the computed size leaves out.
      refine iff_of_true (writeContract_transfer hin (hinside.mp hin)) fun h => ?_
      have := h.2.2
      rw [hinside] at hin
      omega
    · refine iff_of_false (not_writeContract_transfer hin) (not_not_intro ?_)
      rw [hinside] at hin
      exact ⟨hsign, hbeyond, by omega, by omega, by omega⟩

/-- A request from the end of the partition. -/
theorem writeContract_of_neg (hentry : bub.entryByName name = some entry)
    (hplace : entry.WellPlaced bub.blockSize) (hlen : buf.length < 2 ^ 64)
    (hsign : 2 ^ 63 ≤ offset.toNat) :
    WriteContract entry bub.blockSize offset buf.length disk
      (bubWriteToPartition bub io name buf offset disk) := by
  have hsize := hplace.start_add_imgSize
  have hbound := hplace.bounded
  rcases offsetFromStart_of_neg (imgSize entry bub.blockSize) hsign with
    ⟨-, hoffset⟩ | ⟨hin, o, hoffset, ho⟩
  · rw [bubWriteToPartition_of_none hentry hoffset]
    exact writeContract_range _
  · -- What is left of the computed size is the distance of the offset from the end.
    have hsub : (imgSize entry bub.blockSize - o).toNat = 2 ^ 64 - offset.toNat := by
      rw [BitVec.toNat_sub_of_le (by rw [BitVec.le_def]; omega), ho]
      omega
    rw [bubWriteToPartition_of_offset hentry hplace hlen hoffset (by omega), hsub]
    by_cases hlong : 2 ^ 64 - offset.toNat < buf.length
    · rw [if_pos hlong]
      exact writeContract_range _
    · rw [if_neg hlong]
      exact writeContract_transfer (requestInside_of_neg hsign hin hplace (by omega))
        (.inr (by omega))

/-- A write to a partition meets the documented contract exactly when its request does not
overshoot. -/
theorem writeContract_iff (hentry : bub.entryByName name = some entry)
    (hplace : entry.WellPlaced bub.blockSize) (hlen : buf.length < 2 ^ 64) :
    WriteContract entry bub.blockSize offset buf.length disk
        (bubWriteToPartition bub io name buf offset disk) ↔
      ¬ Overshoots entry bub.blockSize offset buf.length := by
  rcases Nat.lt_or_ge offset.toNat (2 ^ 63) with hsign | hsign
  · rcases Nat.lt_or_ge (imgSize entry bub.blockSize).toNat offset.toNat with hbeyond | hwithin
    · exact writeContract_of_imgSize_lt hentry hplace hlen hsign hbeyond
    · refine iff_of_true (writeContract_of_le_imgSize hentry hplace hlen hsign hwithin) fun h => ?_
      have := h.2.1
      omega
  · refine iff_of_true (writeContract_of_neg hentry hplace hlen hsign) fun h => ?_
    have := h.1
    omega

end

/-- On a partition of ten blocks of 512 bytes, a write of one byte at offset 6000 succeeds and
overwrites a byte of the blocks that follow. -/
theorem write_past_partition_end :
    let entry : GPTEntry := ⟨.zero 16, .zero 16, 10, 19, 0, fun _ => 0⟩
    let bub : MyBubOps := ⟨512, fun _ => some entry⟩
    let disk : Disk := fun _ => 0
    entry.WellPlaced bub.blockSize ∧
      ¬ WriteContract entry bub.blockSize 6000 1 disk
        (bubWriteToPartition bub ⟨true, true⟩ miscPartition [0xFF] 6000 disk) := by
  intro entry bub disk
  refine ⟨⟨by decide, by decide⟩, fun h => ?_⟩
  rcases h.contained with ⟨-, hsame⟩ | ⟨hresult, -⟩
  · have hbyte := hsame 11120 (by decide)
    revert hbyte
    decide
  · exact hresult (by decide)

/-- On the same partition, a write at offset 0 meets the contract. -/
theorem write_at_partition_start :
    let entry : GPTEntry := ⟨.zero 16, .zero 16, 10, 19, 0, fun _ => 0⟩
    let bub : MyBubOps := ⟨512, fun _ => some entry⟩
    let disk : Disk := fun _ => 0
    WriteContract entry bub.blockSize 0 1 disk
      (bubWriteToPartition bub ⟨true, true⟩ miscPartition [0xFF] 0 disk) := by
  intro entry bub disk
  have hplace : entry.WellPlaced bub.blockSize := ⟨by decide, by decide⟩
  have hentry : bub.entryByName miscPartition = some entry := rfl
  have hlen : [0xFF#8].length < 2 ^ 64 := by decide
  exact (writeContract_iff hentry hplace hlen).mpr fun h => absurd h.2.1 (by decide)

end BrilloBoot
