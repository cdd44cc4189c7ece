import BrilloBoot.Addressing
import BrilloBoot.BootKernel

/-!
# Which bytes are booted

`bub_boot_kernel` is taken apart at its call of `LoadImage`, together with the two requests to
`ReadDisk` that filled its buffers. The two format checks bound the kernel's size and the page size
each on its own, the reads are cut short at the end of the size that the code computes, and the
number of bytes that were read is not looked at, so that a buffer may be filled in part only. When
the bytes that are booted all come from the boot partition nevertheless is `bootsPartitionOnly_iff`.
-/

namespace BrilloBoot

/-! ## Requests to the disk -/

/-- A request to `ReadDisk`. -/
structure DiskRequest where
  offset : BitVec 64
  numBytes : BitVec 64

namespace DiskRequest

/-- The bytes that the request transfers. -/
def transfer (request : DiskRequest) (disk : Disk) : List Byte :=
  disk.read request.offset.toNat request.numBytes.toNat

/-- The request fills byte `j` of the buffer from address `a`. -/
def Fills (request : DiskRequest) (j a : ℕ) : Prop :=
  j < request.numBytes.toNat ∧ request.offset.toNat + j = a

/-- A byte that the request fills is the disk's. -/
theorem getD_transfer {request : DiskRequest} {j a : ℕ} (h : request.Fills j a) (disk : Disk)
    (pool : Byte) : (request.transfer disk).getD j pool = disk a := by
  obtain ⟨hj, rfl⟩ := h
  simp [transfer, Disk.read, hj]

end DiskRequest

/-- The part of `bub_read_from_partition` before `ReadDisk`. -/
def bubReadRequest (bub : MyBubOps) (partitionName : List Byte) (offset numBytes : BitVec 64) :
    Except BubIOResult DiskRequest :=
  match bub.entryByName partitionName with
  | none => .error .errorNoSuchPartition
  | some entry =>
    let partitionSize := imgSize entry bub.blockSize
    match offsetFromStart partitionSize offset with
    | none => .error .errorRangeOutsidePartition
    | some offset => .ok
      { offset := entry.firstLba * bub.blockSize.setWidth 64 + offset
        numBytes :=
          if numBytes > partitionSize - offset then partitionSize - offset else numBytes }

/-- `bub_read_from_partition` makes its request, and returns what it transfers. -/
theorem bubReadFromPartition_eq (bub : MyBubOps) (io : DiskIo) (name : List Byte)
    (offset n : BitVec 64) (disk : Disk) :
    bubReadFromPartition bub io name offset n disk =
      match bubReadRequest bub name offset n with
      | .error result => (result, [])
      | .ok request => if io.read then (.ok, request.transfer disk) else (.errorIo, []) := by
  unfold bubReadFromPartition bubReadRequest
  cases bub.entryByName name with
  | none => rfl
  | some entry =>
    dsimp only
    cases offsetFromStart (imgSize entry bub.blockSize) offset with
    | none => rfl
    | some o => rfl

/-- A request that is not made is an error. -/
theorem ne_ok_of_bubReadRequest_eq_error {bub : MyBubOps} {name : List Byte}
    {offset n : BitVec 64} {result : BubIOResult}
    (h : bubReadRequest bub name offset n = .error result) : result ≠ .ok := by
  unfold bubReadRequest at h
  split at h
  · obtain rfl := Except.error.inj h
    decide
  · dsimp only at h
    split at h
    · obtain rfl := Except.error.inj h
      decide
    · cases h

/-! ## The call of `LoadImage` -/

/-- The state in which `bub_boot_kernel` calls `LoadImage`: the header that it inspected, the buffer
that it passes, and the requests that filled the two. -/
structure LoadImageCall where
  head : BootImgHdr
  headRequest : DiskRequest
  kernelRequest : DiskRequest
  sourceBuffer : List Byte

/-- `bub_boot_kernel` up to its call of `LoadImage`. -/
def untilLoadImage (bub : MyBubOps) (io : BootIo) (name : List Byte) (disk : Disk) :
    BubBootResult ⊕ LoadImageCall :=
  if !io.allocHeader then .inl .errorOom
  else match bubReadRequest bub name 0 1632 with
  | .error _ => .inl .errorIo
  | .ok headRequest =>
    if !io.readHeader then .inl .errorIo
    else
      let head := BootImgHdr.ofBytes (overwrite (headRequest.transfer disk) io.headerPool)
      match if io.findEntry then bub.entryByName name else none with
      | none => .inl .errorIo
      | some entry =>
        if !formatValid (imgSize entry bub.blockSize) head then .inl .errorPartitionInvalidFormat
        else if !io.allocKernel then .inl .errorOom
        else match bubReadRequest bub name (head.pageSize.setWidth 64)
            (head.kernelSize.setWidth 64) with
        | .error _ => .inl .errorIo
        | .ok kernelRequest =>
          if !io.readKernel then .inl .errorIo
          else .inr
            { head, headRequest, kernelRequest
              sourceBuffer := (List.range head.kernelSize.toNat).map fun i =>
                (kernelRequest.transfer disk).getD i (io.kernelPool i) }

/-- `bub_boot_kernel` from its call of `LoadImage` on. -/
def fromLoadImage (io : BootIo) (name : List Byte) (call : LoadImageCall) :
    Option (BubBootResult × Option StartedKernel) :=
  if !io.loadImage then some (.errorLoadKernel, none)
  else if !(io.handleProtocol && io.allocOptions) then some (.errorParameterLoad, none)
  else match loadParameters call.head with
  | none => none
  | some (loadOptions, loadOptionsSize) =>
    if !io.startImage then some (.errorStartKernel, none)
    else some (.ok, some ⟨name, call.sourceBuffer, loadOptions, loadOptionsSize⟩)

/-- The two parts are `bub_boot_kernel`. -/
theorem bubBootKernel_eq (bub : MyBubOps) (io : BootIo) (name : List Byte) (disk : Disk) :
    bubBootKernel bub io name disk =
      match untilLoadImage bub io name disk with
      | .inl result => some (result, none)
      | .inr call => fromLoadImage io name call := by
  unfold bubBootKernel untilLoadImage readBootImgHdr
  rw [bubReadFromPartition_eq]
  -- The calls of the firmware and the checks, in their order.
  cases io.allocHeader
  · rfl
  cases hhead : bubReadRequest bub name 0 1632 with
  | error result => simp [ne_ok_of_bubReadRequest_eq_error hhead]
  | ok headRequest =>
    cases io.readHeader
    · rfl
    simp only [if_true]
    generalize BootImgHdr.ofBytes (overwrite (headRequest.transfer disk) io.headerPool) = head
    cases (if io.findEntry then bub.entryByName name else none) with
    | none => rfl
    | some entry =>
      cases hvalid : formatValid (imgSize entry bub.blockSize) head
      · simp [hvalid]
      simp only [hvalid]
      unfold startBootImage
      rw [bubReadFromPartition_eq]
      cases io.allocKernel
      · rfl
      cases hkernel : bubReadRequest bub name (head.pageSize.setWidth 64)
          (head.kernelSize.setWidth 64) with
      | error result => simp [ne_ok_of_bubReadRequest_eq_error hkernel]
      | ok kernelRequest =>
        cases io.readKernel
        · rfl
        · rfl

/-! ## Booting from the partition only -/

/-- The allocations, the reads, and the search of the partition table succeed. -/
structure BootIo.Reads (io : BootIo) : Prop where
  allocHeader : io.allocHeader = true
  readHeader : io.readHeader = true
  findEntry : io.findEntry = true
  allocKernel : io.allocKernel = true
  readKernel : io.readKernel = true

/-- Only bytes of the boot partition are booted: the header and the kernel that reach `LoadImage`
are filled whole, from the partition, and what does not fit the partition is rejected. -/
structure BootsPartitionOnly (bub : MyBubOps) (io : BootIo) (name : List Byte) (entry : GPTEntry)
    (disk : Disk) : Prop where
  header : ∀ call, untilLoadImage bub io name disk = .inr call → ∀ j < 1632,
    call.headRequest.Fills j (entry.start bub.blockSize + j) ∧
      entry.start bub.blockSize + j < entry.stop bub.blockSize
  kernel : ∀ call, untilLoadImage bub io name disk = .inr call →
    ∀ j < call.head.kernelSize.toNat,
      call.kernelRequest.Fills j (entry.start bub.blockSize + call.head.pageSize.toNat + j) ∧
        entry.start bub.blockSize + call.head.pageSize.toNat + j < entry.stop bub.blockSize
  image : ∀ call, untilLoadImage bub io name disk = .inr call →
    call.sourceBuffer = disk.read (entry.start bub.blockSize + call.head.pageSize.toNat)
      call.head.kernelSize.toNat
  rejects : ∀ head, head = (readBootImgHdr bub io name disk).2 →
    (entry.stop bub.blockSize - entry.start bub.blockSize < 1632 ∨
      entry.stop bub.blockSize - entry.start bub.blockSize
        < head.pageSize.toNat + head.kernelSize.toNat) →
    bubBootKernel bub io name disk = some (.errorPartitionInvalidFormat, none)

/-- The header and the kernel lie in the size that the code computes, and their addresses fit 64
bits. -/
structure ImageInside (entry : GPTEntry) (blockSize : BitVec 32) (head : BootImgHdr) : Prop where
  header : 1632 ≤ (imgSize entry blockSize).toNat
  kernel : head.pageSize.toNat + head.kernelSize.toNat ≤ (imgSize entry blockSize).toNat
  headerAddress : entry.start blockSize < 2 ^ 64
  kernelAddress : head.kernelSize.toNat = 0 ∨
    entry.start blockSize + head.pageSize.toNat < 2 ^ 64

/-- The request for `n` bytes at offset `o` from the start of a partition. -/
def requestAt (entry : GPTEntry) (blockSize : BitVec 32) (o n : BitVec 64) : DiskRequest where
  offset := entry.firstLba * blockSize.setWidth 64 + o
  numBytes :=
    if n > imgSize entry blockSize - o then imgSize entry blockSize - o else n

section

variable {bub : MyBubOps} {io : BootIo} {name : List Byte} {entry : GPTEntry} {disk : Disk}

/-- A request from the start, in the terms of the entry. -/
theorem bubReadRequest_of_nonneg (hentry : bub.entryByName name = some entry) {o : BitVec 64}
    (ho : o.toNat < 2 ^ 63) (n : BitVec 64) :
    bubReadRequest bub name o n = .ok (requestAt entry bub.blockSize o n) := by
  simp only [bubReadRequest, hentry, offsetFromStart_of_nonneg ho, requestAt]

/-- A request that starts in the computed size fills a buffer as far as that size goes. -/
theorem fills_requestAt_iff {blockSize : BitVec 32} {o : BitVec 64}
    (ho : o.toNat ≤ (imgSize entry blockSize).toNat) (n : BitVec 64) (j : ℕ) :
    (requestAt entry blockSize o n).Fills j (entry.start blockSize + o.toNat + j) ↔
      j < n.toNat ∧ o.toNat + j < (imgSize entry blockSize).toNat ∧
        entry.start blockSize + o.toNat < 2 ^ 64 := by
  have hleft : (imgSize entry blockSize - o).toNat = (imgSize entry blockSize).toNat - o.toNat :=
    BitVec.toNat_sub_of_le ho
  unfold DiskRequest.Fills requestAt
  dsimp only
  rw [GPTEntry.toNat_address_mod]
  split_ifs with hlong
  · rw [gt_iff_lt, BitVec.lt_def, hleft] at hlong
    omega
  · rw [gt_iff_lt, BitVec.lt_def, hleft] at hlong
    omega

/-- The header that is inspected. -/
theorem readBootImgHdr_snd (hentry : bub.entryByName name = some entry) (hio : io.Reads)
    (disk : Disk) : (readBootImgHdr bub io name disk).2
      = .ofBytes (overwrite ((requestAt entry bub.blockSize 0 1632).transfer disk)
          io.headerPool) := by
  rw [readBootImgHdr, bubReadFromPartition_eq, bubReadRequest_of_nonneg hentry (by decide)]
  simp only [hio.readHeader, if_true]

/-- The kernel that the format checks let through reaches `LoadImage`. -/
theorem untilLoadImage_eq (hentry : bub.entryByName name = some entry) (hio : io.Reads)
    (disk : Disk) {head : BootImgHdr} (hhead : head = (readBootImgHdr bub io name disk).2) :
    untilLoadImage bub io name disk =
      if formatValid (imgSize entry bub.blockSize) head then .inr
        { head
          headRequest := requestAt entry bub.blockSize 0 1632
          kernelRequest := requestAt entry bub.blockSize (head.pageSize.setWidth 64)
            (head.kernelSize.setWidth 64)
          sourceBuffer := (List.range head.kernelSize.toNat).map fun i =>
            ((requestAt entry bub.blockSize (head.pageSize.setWidth 64)
              (head.kernelSize.setWidth 64)).transfer disk).getD i (io.kernelPool i) }
      else .inl .errorPartitionInvalidFormat := by
  have hpage : (head.pageSize.setWidth 64).toNat < 2 ^ 63 := by
    rw [BitVec.toNat_setWidth_of_le (by omega)]
    omega
  have hkernel := bubReadRequest_of_nonneg hentry hpage (head.kernelSize.setWidth 64)
  rw [readBootImgHdr_snd hentry hio] at hhead
  unfold untilLoadImage
  rw [hio.allocHeader, bubReadRequest_of_nonneg hentry (by decide), hio.readHeader, hio.findEntry,
    hio.allocKernel, hio.readKernel]
  simp only [← hhead, hkernel, hentry, if_true]
  cases formatValid (imgSize entry bub.blockSize) head <;> rfl

/-- What the first request fills of the header. -/
theorem fills_header_iff {blockSize : BitVec 32} (j : ℕ) :
    (requestAt entry blockSize 0 1632).Fills j (entry.start blockSize + j) ↔
      j < 1632 ∧ j < (imgSize entry blockSize).toNat ∧ entry.start blockSize < 2 ^ 64 := by
  have ho : (0 : BitVec 64).toNat ≤ (imgSize entry blockSize).toNat := by simp
  have hfills := fills_requestAt_iff ho 1632 j
  simpa using hfills

/-- What the second request fills of the kernel. -/
theorem fills_kernel_iff {blockSize pageSize : BitVec 32}
    (hpage : pageSize.toNat ≤ (imgSize entry blockSize).toNat) (kernelSize : BitVec 32) (j : ℕ) :
    (requestAt entry blockSize (pageSize.setWidth 64) (kernelSize.setWidth 64)).Fills j
        (entry.start blockSize + pageSize.toNat + j) ↔
      j < kernelSize.toNat ∧ pageSize.toNat + j < (imgSize entry blockSize).toNat ∧
        entry.start blockSize + pageSize.toNat < 2 ^ 64 := by
  have hwide (v : BitVec 32) : (v.setWidth 64).toNat = v.toNat :=
    BitVec.toNat_setWidth_of_le (by decide)
  have ho : (pageSize.setWidth 64).toNat ≤ (imgSize entry blockSize).toNat := by rwa [hwide]
  have hfills := fills_requestAt_iff ho (kernelSize.setWidth 64) j
  rwa [hwide, hwide] at hfills

/-- The format checks bound the page size when there is room for a header. -/
theorem pageSize_le_of_formatValid {size : BitVec 64} {head : BootImgHdr}
    (h : formatValid size head = true) (hroom : 1632 ≤ size.toNat) :
    head.pageSize.toNat ≤ size.toNat := by
  have hpage : (head.pageSize.setWidth 64).toNat = head.pageSize.toNat :=
    BitVec.toNat_setWidth_of_le (by decide)
  have hsub : (size - 1632).toNat = size.toNat - 1632 :=
    BitVec.toNat_sub_of_le (BitVec.le_def.mpr hroom)
  unfold formatValid at h
  simp only [Bool.and_eq_true, Bool.not_eq_true', decide_eq_false_iff_not, gt_iff_lt,
    BitVec.lt_def, hsub, hpage] at h
  omega

/-- The image that a boot from the partition only describes lies in the size that the code
computes. -/
theorem BootsPartitionOnly.imageInside (h : BootsPartitionOnly bub io name entry disk)
    (hentry : bub.entryByName name = some entry) (hio : io.Reads) {head : BootImgHdr}
    (hhead : head = (readBootImgHdr bub io name disk).2)
    (hvalid : formatValid (imgSize entry bub.blockSize) head = true) :
    ImageInside entry bub.blockSize head := by
  have hcall := untilLoadImage_eq hentry hio disk hhead
  rw [hvalid, if_pos rfl] at hcall
  -- The last byte of the header, and the last one of the kernel, decide.
  have hheader := (fills_header_iff 1631).mp (h.header _ hcall 1631 (by decide)).1
  have hpage := pageSize_le_of_formatValid hvalid hheader.2.1
  refine ⟨hheader.2.1, ?_, hheader.2.2, ?_⟩
  · rcases Nat.eq_zero_or_pos head.kernelSize.toNat with hzero | hpos
    · omega
    · have hlast := h.kernel _ hcall (head.kernelSize.toNat - 1) (by dsimp only; omega)
      have hfills := (fills_kernel_iff hpage _ _).mp hlast.1
      omega
  · rcases Nat.eq_zero_or_pos head.kernelSize.toNat with hzero | hpos
    · exact .inl hzero
    · have hlast := h.kernel _ hcall 0 hpos
      exact .inr ((fills_kernel_iff hpage _ _).mp hlast.1).2.2

/-- An image that lies in the size that the code computes is booted from the partition only. -/
theorem ImageInside.bootsPartitionOnly {head : BootImgHdr}
    (hinside : ImageInside entry bub.blockSize head)
    (hentry : bub.entryByName name = some entry)
    (hordered : entry.firstLba.toNat ≤ entry.lastLba.toNat) (hio : io.Reads)
    (hhead : head = (readBootImgHdr bub io name disk).2)
    (hvalid : formatValid (imgSize entry bub.blockSize) head = true) :
    BootsPartitionOnly bub io name entry disk := by
  have hcall := untilLoadImage_eq hentry hio disk hhead
  rw [hvalid, if_pos rfl] at hcall
  have hend : entry.start bub.blockSize + (imgSize entry bub.blockSize).toNat
      + bub.blockSize.toNat ≤ entry.stop bub.blockSize := GPTEntry.start_add_imgSize_le hordered
  have hpage := pageSize_le_of_formatValid hvalid hinside.header
  have hroom := hinside.kernel
  have hheader := hinside.header
  -- Every byte of the kernel is one of the partition, and its request is filled.
  have hkernel (j : ℕ) (hj : j < head.kernelSize.toNat) :=
    (fills_kernel_iff hpage head.kernelSize j).mpr
      ⟨hj, by omega, hinside.kernelAddress.resolve_left (by omega)⟩
  constructor
  · intro call hreached j hj
    obtain rfl := Sum.inr.inj (hcall.symm.trans hreached)
    exact ⟨(fills_header_iff j).mpr ⟨hj, by omega, hinside.headerAddress⟩, by omega⟩
  · intro call hreached j hj
    obtain rfl := Sum.inr.inj (hcall.symm.trans hreached)
    dsimp only at hj ⊢
    exact ⟨hkernel j hj, by omega⟩
  · intro call hreached
    obtain rfl := Sum.inr.inj (hcall.symm.trans hreached)
    apply List.map_congr_left
    intro i hi
    exact DiskRequest.getD_transfer (hkernel i (List.mem_range.mp hi)) disk _
  · intro head' hhead' hout
    obtain rfl := hhead'.trans hhead.symm
    omega

/-- `bub_boot_kernel` boots bytes of the boot partition only exactly when the header is rejected, or
the image that it describes lies in the size that the code computes. -/
theorem bootsPartitionOnly_iff (hentry : bub.entryByName name = some entry)
    (hordered : entry.firstLba.toNat ≤ entry.lastLba.toNat) (hio : io.Reads) (disk : Disk) :
    BootsPartitionOnly bub io name entry disk ↔
      formatValid (imgSize entry bub.blockSize) (readBootImgHdr bub io name disk).2 = false ∨
        ImageInside entry bub.blockSize (readBootImgHdr bub io name disk).2 := by
  cases hvalid : formatValid (imgSize entry bub.blockSize) (readBootImgHdr bub io name disk).2 with
  | false =>
    -- Nothing is booted.
    have hcall := untilLoadImage_eq hentry hio disk rfl
    rw [hvalid] at hcall
    have hreturned : bubBootKernel bub io name disk
        = some (.errorPartitionInvalidFormat, none) := by
      rw [bubBootKernel_eq, hcall]
      rfl
    refine iff_of_true ⟨?_, ?_, ?_, fun _ _ _ => hreturned⟩ (.inl rfl) <;> simp [hcall]
  | true =>
    constructor
    · intro h
      exact .inr (h.imageInside hentry hio rfl hvalid)
    · rintro (hinvalid | hinside)
      · cases hinvalid
      · exact hinside.bootsPartitionOnly hentry hordered hio rfl hvalid

end

/-- A disk on which the partition of ten blocks starts with a header of the given sizes. -/
def imageDisk (kernelSize pageSize : BitVec 32) : Disk :=
  Disk.write default (tenBlocks.start 512)
    (bootMagic.toList ++ leBytes 4 kernelSize ++ List.replicate 24 0 ++ leBytes 4 pageSize)

/-- A kernel of the partition's computed size, four blocks into it: its last bytes are whatever the
buffer held. -/
theorem overlong_kernel_is_booted :
    tenBlocks.firstLba.toNat ≤ tenBlocks.lastLba.toNat ∧ BootIo.success.Reads ∧
      ¬ BootsPartitionOnly tenBlocksBub .success miscPartition tenBlocks (imageDisk 4608 2048) := by
  have hentry : tenBlocksBub.entryByName miscPartition = some tenBlocks := rfl
  have hio : BootIo.success.Reads := ⟨rfl, rfl, rfl, rfl, rfl⟩
  refine ⟨by decide, hio, fun h => ?_⟩
  have hcall := untilLoadImage_eq hentry hio (imageDisk 4608 2048) rfl
  have hvalid : formatValid (imgSize tenBlocks tenBlocksBub.blockSize)
      (readBootImgHdr tenBlocksBub .success miscPartition (imageDisk 4608 2048)).2 = true := by
    decide +kernel
  rw [if_pos hvalid] at hcall
  have hlast := (h.kernel _ hcall 4607 (by decide +kernel)).1.1
  revert hlast
  decide +kernel

/-- A kernel of one block, four blocks into the partition, is booted from it. -/
theorem short_kernel_is_booted :
    BootsPartitionOnly tenBlocksBub .success miscPartition tenBlocks (imageDisk 512 2048) := by
  have hentry : tenBlocksBub.entryByName miscPartition = some tenBlocks := rfl
  have hio : BootIo.success.Reads := ⟨rfl, rfl, rfl, rfl, rfl⟩
  exact (bootsPartitionOnly_iff hentry (by decide) hio _).mpr
    (.inr ⟨by decide, by decide +kernel, by decide, .inr (by decide +kernel)⟩)

end BrilloBoot
