import BrilloBoot.AbFlow
import BrilloBoot.PartitionIo

/-!
# Booting a kernel

`bub_boot_kernel` and `LoadParameters` of `bub_boot_kernel.c`, over the partition I/O of
`PartitionIo.lean`. The firmware's calls succeed or fail as `BootIo` says, and what they allocate
holds arbitrary bytes. `none` stands for an access outside a buffer, after which the C program has
no defined behaviour.
-/

namespace BrilloBoot

/-- `BubBootResult`. -/
inductive BubBootResult
  | ok
  | errorOom
  | errorIo
  | errorPartitionInvalidFormat
  | errorLoadKernel
  | errorParameterLoad
  | errorStartKernel
deriving DecidableEq

/-- `boot_img_hdr`, the fields that the boot loader uses. -/
structure BootImgHdr where
  magic : Bytes 8
  kernelSize : BitVec 32
  pageSize : BitVec 32
  cmdline : Bytes 512

/-- The header that 1632 bytes of memory hold. -/
def BootImgHdr.ofBytes (b : Bytes 1632) : BootImgHdr where
  magic := b.sub 0 8
  kernelSize := leWord 32 (b.sub 8 4).toList
  pageSize := leWord 32 (b.sub 36 4).toList
  cmdline := b.sub 64 512

/-- `BOOT_MAGIC`. -/
def bootMagic : Bytes 8 := ⟨ascii ['A', 'N', 'D', 'R', 'O', 'I', 'D', '!'], rfl⟩

/-- What becomes of the firmware's calls of one `bub_boot_kernel`, in their order. -/
structure BootIo where
  /-- `AllocatePool` for the header. -/
  allocHeader : Bool
  /-- What the header's buffer holds before it is read into. -/
  headerPool : Bytes 1632
  readHeader : Bool
  /-- `bub_partition_entry_by_name`, apart from finding the name. -/
  findEntry : Bool
  /-- `AllocatePool` for the kernel. -/
  allocKernel : Bool
  /-- What the kernel's buffer holds before it is read into. -/
  kernelPool : ℕ → Byte
  readKernel : Bool
  loadImage : Bool
  handleProtocol : Bool
  /-- `AllocatePool` for `LoadOptions`. -/
  allocOptions : Bool
  startImage : Bool

/-- A kernel that was started, with what the firmware was given for it. -/
structure StartedKernel where
  /-- The partition that it was read from. -/
  partitionName : List Byte
  /-- The buffer passed to `LoadImage`. -/
  image : List Byte
  /-- The string in `LoadOptions`, with its terminator. -/
  loadOptions : List (BitVec 16)
  loadOptionsSize : BitVec 32

/-- A buffer of `n` bytes after its first bytes were replaced. -/
def overwrite {n : ℕ} (buf : List Byte) (old : Bytes n) : Bytes n :=
  ⟨(buf ++ old.toList.drop buf.length).take n, by simp; omega⟩

/-- The loop of `LoadParameters` over the bytes of `cmdline`, up to its NUL; `none` when it runs
past them. -/
def copyCmdline : List Byte → Option (List (BitVec 16))
  | [] => none
  | c :: cmdline => if c = 0 then some [] else (copyCmdline cmdline).map (c.setWidth 16 :: ·)

/-- The part of `LoadParameters` after its calls of the firmware: `LoadOptions` and
`LoadOptionsSize`. -/
def loadParameters (head : BootImgHdr) : Option (List (BitVec 16) × BitVec 32) :=
  (copyCmdline head.cmdline.toList).map fun string =>
    (string ++ [0], BitVec.ofNat 32 (string.length * 2))

/-- The header that `bub_boot_kernel` reads, with the result of the read. -/
def readBootImgHdr (bub : MyBubOps) (io : BootIo) (name : List Byte) (disk : Disk) :
    BubIOResult × BootImgHdr :=
  let (ioResult, buf) := bubReadFromPartition bub ⟨io.readHeader, true⟩ name 0 1632 disk
  -- The number of bytes read is not looked at: the rest of the buffer is what the pool held.
  (ioResult, .ofBytes (overwrite buf io.headerPool))

/-- The format checks of `bub_boot_kernel`: the magic, the kernel's size, and the page size. -/
def formatValid (imgSize : BitVec 64) (head : BootImgHdr) : Bool :=
  bubMemcmp bootMagic.toList head.magic.toList 8 = 0 &&
    !decide (head.kernelSize.setWidth 64 > imgSize) &&
    -- The difference wraps for a partition that is shorter than the header.
    !decide (head.pageSize.setWidth 64 > imgSize - 1632)

/-- `bub_boot_kernel` after the format checks: the result, and the kernel that it started, if it
did. -/
def startBootImage (bub : MyBubOps) (io : BootIo) (name : List Byte) (head : BootImgHdr)
    (disk : Disk) : Option (BubBootResult × Option StartedKernel) :=
  if !io.allocKernel then some (.errorOom, none)
  else
    let (ioResult, buf) := bubReadFromPartition bub ⟨io.readKernel, true⟩ name
      (head.pageSize.setWidth 64) (head.kernelSize.setWidth 64) disk
    if ioResult ≠ .ok then some (.errorIo, none)
    else if !io.loadImage then some (.errorLoadKernel, none)
    -- The two calls of the firmware in `LoadParameters`.
    else if !(io.handleProtocol && io.allocOptions) then some (.errorParameterLoad, none)
    else match loadParameters head with
    | none => none
    | some (loadOptions, loadOptionsSize) =>
      if !io.startImage then some (.errorStartKernel, none)
      else
        let image := (List.range head.kernelSize.toNat).map fun i =>
          buf.getD i (io.kernelPool i)
        some (.ok, some ⟨name, image, loadOptions, loadOptionsSize⟩)

/-- `bub_boot_kernel`. -/
def bubBootKernel (bub : MyBubOps) (io : BootIo) (name : List Byte) (disk : Disk) :
    Option (BubBootResult × Option StartedKernel) :=
  if !io.allocHeader then some (.errorOom, none)
  else
    let (ioResult, head) := readBootImgHdr bub io name disk
    if ioResult ≠ .ok then some (.errorIo, none)
    -- The entry is looked up again, for the size of the partition.
    else match if io.findEntry then bub.entryByName name else none with
    | none => some (.errorIo, none)
    | some entry =>
      if formatValid (imgSize entry bub.blockSize) head then startBootImage bub io name head disk
      else some (.errorPartitionInvalidFormat, none)

/-! ## The loop over the command line -/

/-- The copy ends inside the command line exactly when there is a NUL in it. -/
theorem copyCmdline_isSome (cmdline : List Byte) :
    (copyCmdline cmdline).isSome = true ↔ 0#8 ∈ cmdline := by
  induction cmdline with
  | nil => simp [copyCmdline]
  | cons c cmdline ih =>
    by_cases hc : c = 0#8
    · simp [copyCmdline, hc]
    · have hne : ¬ 0#8 = c := fun h => hc h.symm
      simp [copyCmdline, hc, hne, ih]

/-- The copy ends inside the header exactly when its command line is terminated. -/
theorem loadParameters_isSome (head : BootImgHdr) :
    (loadParameters head).isSome = true ↔ 0#8 ∈ head.cmdline.toList := by
  rw [loadParameters, Option.isSome_map, copyCmdline_isSome]

/-! ## Booting with a firmware that does not fail -/

/-- Every call of the firmware succeeds. -/
structure BootIo.Succeeds (io : BootIo) : Prop where
  allocHeader : io.allocHeader = true
  readHeader : io.readHeader = true
  findEntry : io.findEntry = true
  allocKernel : io.allocKernel = true
  readKernel : io.readKernel = true
  loadImage : io.loadImage = true
  handleProtocol : io.handleProtocol = true
  allocOptions : io.allocOptions = true
  startImage : io.startImage = true

/-- A firmware that does not fail, and whose pool is cleared. -/
def BootIo.success : BootIo where
  allocHeader := true
  headerPool := .zero 1632
  readHeader := true
  findEntry := true
  allocKernel := true
  kernelPool _ := 0
  readKernel := true
  loadImage := true
  handleProtocol := true
  allocOptions := true
  startImage := true

/-- This firmware does not fail. -/
theorem BootIo.success_succeeds : BootIo.success.Succeeds :=
  ⟨rfl, rfl, rfl, rfl, rfl, rfl, rfl, rfl, rfl⟩

section

variable {bub : MyBubOps} {name : List Byte} {entry : GPTEntry}

/-- The header that `bub_boot_kernel` finds at the start of a partition. -/
def headerAt (bub : MyBubOps) (entry : GPTEntry) (io : BootIo) (disk : Disk) : BootImgHdr :=
  .ofBytes (overwrite (disk.read (entry.start bub.blockSize)
    (min 1632 (imgSize entry bub.blockSize).toNat)) io.headerPool)

/-- The header depends on the bytes of the partition only. -/
theorem headerAt_write_of_apart (hplace : entry.WellPlaced bub.blockSize) (io : BootIo)
    (disk : Disk) {pos : ℕ} {buf : List Byte}
    (hapart : entry.stop bub.blockSize ≤ pos ∨ pos + buf.length ≤ entry.start bub.blockSize) :
    headerAt bub entry io (disk.write pos buf) = headerAt bub entry io disk := by
  have hsize := hplace.start_add_imgSize
  rw [headerAt, Disk.read_write_of_apart _ _ (by omega), headerAt]

/-- The boot image of a partition has a valid format. -/
def ImageValid (bub : MyBubOps) (entry : GPTEntry) (io : BootIo) (disk : Disk) : Prop :=
  formatValid (imgSize entry bub.blockSize) (headerAt bub entry io disk) = true

/-- The format of an image can be decided. -/
instance (bub : MyBubOps) (entry : GPTEntry) (io : BootIo) (disk : Disk) :
    Decidable (ImageValid bub entry io disk) := by
  unfold ImageValid
  infer_instance

/-- Everything that `bub_boot_kernel` can do up to its format checks. -/
theorem bubBootKernel_cases (hentry : bub.entryByName name = some entry)
    (hplace : entry.WellPlaced bub.blockSize) (io : BootIo) (disk : Disk) :
    (¬ (io.allocHeader ∧ io.readHeader ∧ io.findEntry) ∧
      ∃ result, result ≠ .ok ∧ result ≠ .errorPartitionInvalidFormat ∧
        bubBootKernel bub io name disk = some (result, none)) ∨
    ((io.allocHeader ∧ io.readHeader ∧ io.findEntry) ∧ ¬ ImageValid bub entry io disk ∧
      bubBootKernel bub io name disk = some (.errorPartitionInvalidFormat, none)) ∨
    ((io.allocHeader ∧ io.readHeader ∧ io.findEntry) ∧ ImageValid bub entry io disk ∧
      bubBootKernel bub io name disk =
        startBootImage bub io name (headerAt bub entry io disk) disk) := by
  have hread : readBootImgHdr bub io name disk =
      if io.readHeader then (.ok, headerAt bub entry io disk)
      else (.errorIo, .ofBytes (overwrite [] io.headerPool)) := by
    have hzero : (0 : BitVec 64).toNat < 2 ^ 63 := by decide
    unfold readBootImgHdr
    rw [bubReadFromPartition_of_nonneg hentry hplace _ hzero, headerAt]
    cases io.readHeader <;> simp
  unfold bubBootKernel
  rw [hread]
  -- The calls before the format checks, in their order.
  cases halloc : io.allocHeader
  · exact .inl ⟨by simp, .errorOom, by decide, by decide, rfl⟩
  cases hheader : io.readHeader
  · exact .inl ⟨by simp, .errorIo, by decide, by decide, rfl⟩
  cases hfind : io.findEntry
  · exact .inl ⟨by simp, .errorIo, by decide, by decide, rfl⟩
  by_cases hvalid : ImageValid bub entry io disk
  · refine .inr (.inr ⟨by simp, hvalid, ?_⟩)
    unfold ImageValid at hvalid
    simp [hentry, hvalid]
  · refine .inr (.inl ⟨by simp, hvalid, ?_⟩)
    unfold ImageValid at hvalid
    simp [hentry, hvalid]

/-- After the format checks, the format is not reported as invalid any more. -/
theorem startBootImage_ne_invalid (io : BootIo) (head : BootImgHdr) (disk : Disk)
    (started : Option StartedKernel) :
    startBootImage bub io name head disk ≠ some (.errorPartitionInvalidFormat, started) := by
  unfold startBootImage
  -- No exit on the way returns that code.
  cases loadParameters head <;> dsimp only <;> split_ifs <;> simp

/-- After the format checks, a firmware that does not fail starts the kernel if the command line is
terminated. -/
theorem startBootImage_of_succeeds (hentry : bub.entryByName name = some entry)
    (hplace : entry.WellPlaced bub.blockSize) {io : BootIo} (hio : io.Succeeds)
    (head : BootImgHdr) (disk : Disk) :
    (0#8 ∉ head.cmdline.toList ∧ startBootImage bub io name head disk = none) ∨
    (0#8 ∈ head.cmdline.toList ∧ ∃ kernel, kernel.partitionName = name ∧
      startBootImage bub io name head disk = some (.ok, some kernel)) := by
  -- A page size of 32 bits is an offset from the start.
  have hpage : (head.pageSize.setWidth 64).toNat < 2 ^ 63 := by
    rw [BitVec.toNat_setWidth_of_le (by omega)]
    omega
  unfold startBootImage
  rw [bubReadFromPartition_of_nonneg hentry hplace _ hpage, hio.allocKernel,
    hio.readKernel, hio.loadImage, hio.handleProtocol, hio.allocOptions, hio.startImage,
    ← loadParameters_isSome]
  cases loadParameters head with
  | none => exact .inl ⟨by simp, rfl⟩
  | some options => exact .inr ⟨rfl, _, rfl, rfl⟩

end

end BrilloBoot
