import BrilloBoot.BootKernel
import BrilloBoot.Calls

/-!
# The device that the boot loader runs on

`bub_init` gives the A/B flow the partition I/O of `PartitionIo.lean`. On a device with a `misc`
partition that holds the block, the flow does there what it does on the block alone
(`bubAbFlow_uefiOps`, `bubAbMarkAsInvalid_uefiOps`), and the boot partitions do not notice.

`BootDevice` carries what is asked of its partitions: they are in place, `misc` has room for the
metadata, and the boot partitions are apart from it. Under these facts the arithmetic of the
partition I/O is exact, so that the two operations come down to the read of one block and to its
replacement (`miscBlock`, `withMiscBlock`). The reader and the writer of the metadata are taken
there first; the two calls only use these, and follow by their cases.
-/

namespace BrilloBoot

open BubAbData

/-- The operations that `bub_init` installs, with what becomes of the transfers of one call. -/
def uefiOps (bub : MyBubOps) (io : DiskIo) : BubOps Disk where
  readFromPartition := bubReadFromPartition bub io
  writeToPartition := bubWriteToPartition bub io

/-- The partition that holds the boot image of a slot, `"boot_a"` or `"boot_b"`. -/
def bootPartition (i : Fin 2) : List Byte :=
  ascii ['b', 'o', 'o', 't'] ++ ![ascii ['_', 'a'], ascii ['_', 'b']] i

/-- A device with the partitions that the boot loader uses: `misc` has room for the metadata in the
size that the code computes, and lies apart from the boot partitions. -/
structure BootDevice extends MyBubOps where
  misc : GPTEntry
  boot : Fin 2 → GPTEntry
  misc_entry : entryByName miscPartition = some misc
  boot_entry : ∀ i, entryByName (bootPartition i) = some (boot i)
  misc_wellPlaced : misc.WellPlaced blockSize
  boot_wellPlaced : ∀ i, (boot i).WellPlaced blockSize
  misc_room : 64 ≤ (imgSize misc blockSize).toNat
  apart : ∀ i, (boot i).stop blockSize ≤ misc.start blockSize ∨
    misc.stop blockSize ≤ (boot i).start blockSize

namespace BootDevice

variable (dev : BootDevice)

/-- The metadata block on the disk. -/
def miscBlock (disk : Disk) : Bytes 64 :=
  ⟨disk.read (dev.misc.start dev.blockSize) 64, by simp⟩

/-- The disk with another metadata block. -/
def withMiscBlock (disk : Disk) (b : Bytes 64) : Disk :=
  disk.write (dev.misc.start dev.blockSize) b.toList

/-- The block that was written is there. -/
@[simp] theorem miscBlock_withMiscBlock (disk : Disk) (b : Bytes 64) :
    dev.miscBlock (dev.withMiscBlock disk b) = b := by
  apply Bytes.ext
  have hself := Disk.read_write_self disk (dev.misc.start dev.blockSize) b.toList
  rwa [b.length_toList] at hself

/-- Writing the block that is there changes nothing. -/
@[simp] theorem withMiscBlock_miscBlock (disk : Disk) :
    dev.withMiscBlock disk (dev.miscBlock disk) = disk :=
  Disk.write_read_self disk _ 64

/-- The last block that is written stays. -/
@[simp] theorem withMiscBlock_withMiscBlock (disk : Disk) (b b' : Bytes 64) :
    dev.withMiscBlock (dev.withMiscBlock disk b) b' = dev.withMiscBlock disk b' :=
  Disk.write_write_self disk _ (by simp)

/-- The header of a boot image does not depend on the metadata block. -/
@[simp] theorem headerAt_withMiscBlock (i : Fin 2) (io : BootIo) (disk : Disk) (b : Bytes 64) :
    headerAt dev.toMyBubOps (dev.boot i) io (dev.withMiscBlock disk b) =
      headerAt dev.toMyBubOps (dev.boot i) io disk := by
  apply headerAt_write_of_apart (dev.boot_wellPlaced i)
  have hroom := dev.misc_room
  have hsize := dev.misc_wellPlaced.start_add_imgSize
  have hapart := dev.apart i
  rw [b.length_toList]
  omega

/-- The image of slot `i` has a valid format. -/
def ImageValid (io : BootIo) (disk : Disk) (i : Fin 2) : Prop :=
  BrilloBoot.ImageValid dev.toMyBubOps (dev.boot i) io disk

/-- The format of a boot image can be decided. -/
instance (io : BootIo) (disk : Disk) (i : Fin 2) : Decidable (dev.ImageValid io disk i) := by
  unfold ImageValid
  infer_instance

/-- So its format does not depend on the metadata block. -/
@[simp] theorem imageValid_withMiscBlock (io : BootIo) (disk : Disk) (b : Bytes 64) (i : Fin 2) :
    dev.ImageValid io (dev.withMiscBlock disk b) i ↔ dev.ImageValid io disk i := by
  rw [ImageValid, ImageValid, BrilloBoot.ImageValid, BrilloBoot.ImageValid, headerAt_withMiscBlock]

end BootDevice

/-- An entry for the blocks from `first` to `last`. -/
def partitionAt (first last : BitVec 64) : GPTEntry :=
  ⟨.zero 16, .zero 16, first, last, 0, fun _ => 0⟩

/-- A device of blocks of 512 bytes, with eight blocks of `misc` and sixteen for each boot image. -/
def smallDevice : BootDevice where
  blockSize := 512
  entryByName name :=
    if name = miscPartition then some (partitionAt 8 15)
    else if name = bootPartition 0 then some (partitionAt 16 31)
    else if name = bootPartition 1 then some (partitionAt 32 47)
    else none
  misc := partitionAt 8 15
  boot := ![partitionAt 16 31, partitionAt 32 47]
  misc_entry := rfl
  boot_entry i := by fin_cases i <;> rfl
  misc_wellPlaced := ⟨by decide, by decide⟩
  boot_wellPlaced i := by fin_cases i <;> exact ⟨by decide, by decide⟩
  misc_room := by decide
  apart := by decide

/-- A disk of zeros. -/
def blankDisk : Disk := fun _ => 0

/-- A blank boot image has an invalid format. -/
theorem not_imageValid_blankDisk (i : Fin 2) : ¬ smallDevice.ImageValid .success blankDisk i := by
  fin_cases i <;> decide +kernel

/-! ## The metadata functions on the device -/

/-- The outcome of a call's transfers, as an outcome on the block alone. -/
def DiskIo.misc (io : DiskIo) : MiscIo := ⟨if io.read then .success else .failure, io.write⟩

variable (dev : BootDevice)

/-- The metadata of the device is read from its block. -/
theorem bubReadAbDataFromMisc_uefiOps (io : DiskIo) (disk : Disk) :
    bubReadAbDataFromMisc (uefiOps dev.toMyBubOps io) disk =
      bubReadAbDataFromMisc (miscOps io.misc) (dev.miscBlock disk) := by
  -- The block fits into the computed size, so that the read is not cut short.
  have hroom : min (64 : BitVec 64).toNat (imgSize dev.misc dev.blockSize - 0).toNat = 64 := by
    have := dev.misc_room
    simp
    omega
  have hread : bubReadFromPartition dev.toMyBubOps io miscPartition 0 64 disk =
      if io.read then (.ok, (dev.miscBlock disk).toList) else (.errorIo, []) := by
    rw [bubReadFromPartition_of_nonneg dev.misc_entry dev.misc_wellPlaced io (by decide), hroom]
    rfl
  rw [bubReadAbDataFromMisc_miscOps]
  obtain ⟨read, write⟩ := io
  cases read with
  | false => exact bubReadAbDataFromMisc_of_not_ok hread (.inl (by decide))
  | true => exact bubReadAbDataFromMisc_of_ok hread

/-- The metadata of the device is written to its block. -/
theorem bubWriteAbDataToMisc_uefiOps (io : DiskIo) (d : BubAbData) (disk : Disk) :
    bubWriteAbDataToMisc (uefiOps dev.toMyBubOps io) d disk =
      ((bubWriteAbDataToMisc (miscOps io.misc) d (dev.miscBlock disk)).1,
        dev.withMiscBlock disk
          (bubWriteAbDataToMisc (miscOps io.misc) d (dev.miscBlock disk)).2) := by
  have hzero : (0 : BitVec 64).toNat < 2 ^ 63 := by decide
  have hlen : d.image.toList.length < 2 ^ 64 := by simp
  -- For the same reason the write is inside the range.
  have hroom : ¬ (imgSize dev.misc dev.blockSize - 0).toNat < d.image.toList.length := by
    have := dev.misc_room
    simp
    omega
  have hwrite : bubWriteToPartition dev.toMyBubOps io miscPartition d.image.toList 0 disk =
      if io.write then (.ok, dev.withMiscBlock disk d.image) else (.errorIo, disk) := by
    rw [bubWriteToPartition_of_offset dev.misc_entry dev.misc_wellPlaced hlen
      (offsetFromStart_of_nonneg hzero) hzero, if_neg hroom]
    rfl
  rw [bubWriteAbDataToMisc_miscOps]
  obtain ⟨read, write⟩ := io
  cases write with
  | false =>
    rw [bubWriteAbDataToMisc_of_write hwrite]
    simp [DiskIo.misc]
  | true =>
    rw [bubWriteAbDataToMisc_of_write hwrite]
    simp [DiskIo.misc]

/-- `bub_ab_flow` on the device does what it does on the metadata block. -/
theorem bubAbFlow_uefiOps (io : DiskIo) (out : List Byte) (disk : Disk) :
    bubAbFlow (uefiOps dev.toMyBubOps io) out disk =
      ((bubAbFlow (miscOps io.misc) out (dev.miscBlock disk)).1,
        (bubAbFlow (miscOps io.misc) out (dev.miscBlock disk)).2.1,
        dev.withMiscBlock disk (bubAbFlow (miscOps io.misc) out (dev.miscBlock disk)).2.2) := by
  have hread := bubReadAbDataFromMisc_uefiOps dev io disk
  cases hblock : bubReadAbDataFromMisc (miscOps io.misc) (dev.miscBlock disk) with
  | ok d =>
    rw [bubAbFlow_of_read_ok (hread.trans hblock), bubAbFlow_of_read_ok hblock,
      bubWriteAbDataToMisc_uefiOps]
    split_ifs <;> simp
  | error r =>
    by_cases hr : r = .errorInvalidMetadata
    · subst hr
      rw [bubAbFlow_of_read_invalid (hread.trans hblock), bubAbFlow_of_read_invalid hblock,
        bubWriteAbDataToMisc_uefiOps]
    · simp [bubAbFlow, hread, hblock, hr]

/-- `bub_ab_mark_as_invalid` on the device does what it does on the metadata block. -/
theorem bubAbMarkAsInvalid_uefiOps (io : DiskIo) (suffix : List Byte) (disk : Disk) :
    bubAbMarkAsInvalid (uefiOps dev.toMyBubOps io) suffix disk =
      ((bubAbMarkAsInvalid (miscOps io.misc) suffix (dev.miscBlock disk)).1,
        dev.withMiscBlock disk
          (bubAbMarkAsInvalid (miscOps io.misc) suffix (dev.miscBlock disk)).2) := by
  have hread := bubReadAbDataFromMisc_uefiOps dev io disk
  cases hblock : bubReadAbDataFromMisc (miscOps io.misc) (dev.miscBlock disk) with
  | ok d =>
    rw [bubAbMarkAsInvalid_of_read_ok (hread.trans hblock), bubAbMarkAsInvalid_of_read_ok hblock]
    cases suffixSlot suffix with
    | none => simp
    | some i => exact bubWriteAbDataToMisc_uefiOps dev io _ disk
  | error r =>
    rw [bubAbMarkAsInvalid_of_read_error (hread.trans hblock),
      bubAbMarkAsInvalid_of_read_error hblock, dev.withMiscBlock_miscBlock]

end BrilloBoot
