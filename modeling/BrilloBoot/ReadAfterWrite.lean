import BrilloBoot.Addressing
import BrilloBoot.GptSearch

/-!
# Reading back what was written

The partition I/O over a disk that holds the partition table, which both functions search. A write
that succeeds is read back, from either end, and leaves the bytes of every other partition as they
are, unless the address of its first byte does not fit 64 bits: then it goes to the wrapped address,
and what it changes there belongs to others (`readAfterWrite_iff`).
-/

namespace BrilloBoot

/-- What the partition I/O finds in the table of a disk. -/
def MyBubOps.ofDisk (turns : ℕ) (blockSize : BitVec 32) (io : LookupIo) (disk : Disk) :
    MyBubOps where
  blockSize := blockSize
  entryByName partitionName :=
    match bubPartitionEntryByName turns blockSize io partitionName disk with
    | .returned .success (.entry entry) => some entry
    | _ => none

/-- The blocks are those of the device. -/
@[simp] theorem MyBubOps.ofDisk_blockSize (turns : ℕ) (blockSize : BitVec 32) (io : LookupIo)
    (disk : Disk) : (MyBubOps.ofDisk turns blockSize io disk).blockSize = blockSize := rfl

/-! ## The table stays -/

/-- The partition shares no byte with the header and the entries of the table. -/
structure GPTEntry.ApartFromTable (entry : GPTEntry) (blockSize : BitVec 32) : Prop where
  header : entry.stop blockSize ≤ blockSize.toNat ∨
    blockSize.toNat + 512 ≤ entry.start blockSize
  entries : entry.stop blockSize ≤ 2 * blockSize.toNat ∨
    2 * blockSize.toNat + entriesNumBytes blockSize ≤ entry.start blockSize

section

variable {turns : ℕ} {blockSize : BitVec 32} {io : LookupIo} {disk : Disk} {entry : GPTEntry}

/-- A write within such a partition leaves the table as it is. -/
theorem bubPartitionEntryByName_write (hapart : entry.ApartFromTable blockSize) {p : ℕ}
    {buf : List Byte} (hstart : entry.start blockSize ≤ p)
    (hstop : p + buf.length ≤ entry.stop blockSize) (name : List Byte) :
    bubPartitionEntryByName turns blockSize io name (disk.write p buf)
      = bubPartitionEntryByName turns blockSize io name disk := by
  have hheader : (disk.write p buf).read blockSize.toNat 512 = disk.read blockSize.toNat 512 := by
    rcases hapart.header with hbelow | habove
    · exact disk.read_write_of_apart p (.inr (by omega))
    · exact disk.read_write_of_apart p (.inl (by omega))
  have hentries : (disk.write p buf).read (2 * blockSize.toNat) (entriesNumBytes blockSize)
      = disk.read (2 * blockSize.toNat) (entriesNumBytes blockSize) := by
    rcases hapart.entries with hbelow | habove
    · exact disk.read_write_of_apart p (.inr (by omega))
    · exact disk.read_write_of_apart p (.inl (by omega))
  exact bubPartitionEntryByName_congr hheader hentries

/-- So the partition I/O finds what it found before. -/
theorem MyBubOps.ofDisk_write (hapart : entry.ApartFromTable blockSize) {p : ℕ} {buf : List Byte}
    (hstart : entry.start blockSize ≤ p) (hstop : p + buf.length ≤ entry.stop blockSize) :
    MyBubOps.ofDisk turns blockSize io (disk.write p buf)
      = MyBubOps.ofDisk turns blockSize io disk := by
  unfold MyBubOps.ofDisk
  simp only [bubPartitionEntryByName_write hapart hstart hstop]

end

/-! ## The two ends -/

/-- The offset that counts to the same place from the other end of the computed size. -/
def fromOtherEnd (size offset : BitVec 64) : BitVec 64 :=
  if offset.toInt < 0 then size + offset else offset - size

section

variable {size offset : BitVec 64}

/-- The offset from the other end has no wrap. -/
theorem toInt_fromOtherEnd (hsize : size.toNat < 2 ^ 63) (hlow : -(size.toNat : ℤ) ≤ offset.toInt)
    (hhigh : offset.toInt ≤ size.toNat) :
    (fromOtherEnd size offset).toInt
      = if offset.toInt < 0 then size.toNat + offset.toInt else offset.toInt - size.toNat := by
  have hint := toInt_of_nonneg hsize
  unfold fromOtherEnd
  split_ifs with hneg
  · rw [BitVec.toInt_add, hint, Int.bmod_eq_of_le (by omega) (by omega)]
  · rw [BitVec.toInt_sub, hint, Int.bmod_eq_of_le (by omega) (by omega)]

/-- It counts to the same place, except that the end of the size has no offset from the end. -/
theorem countedFromStart_fromOtherEnd (hsize : size.toNat < 2 ^ 63)
    (hlow : -(size.toNat : ℤ) ≤ offset.toInt) (hhigh : offset.toInt < size.toNat) :
    countedFromStart size.toNat (fromOtherEnd size offset)
      = countedFromStart size.toNat offset := by
  have hother := toInt_fromOtherEnd hsize hlow hhigh.le
  unfold countedFromStart
  rw [hother]
  split_ifs <;> omega

end

/-! ## Writing and reading back -/

/-- What is expected of a write to a partition, for what one call returns. -/
structure ReadAfterWrite (blockSize : BitVec 32) (name : List Byte) (entry : GPTEntry)
    (offset : BitVec 64) (buf : List Byte) (disk : Disk) (returned : BubIOResult × Disk) :
    Prop where
  /-- A lookup that found the partition finds it again, and a read at the same place, counted from
  either end, has the bytes. -/
  readBack : returned.1 = .ok → ∀ turns lookupIo,
    (MyBubOps.ofDisk turns blockSize lookupIo disk).entryByName name = some entry →
    ∀ offset', offset' = offset ∨ offset' = fromOtherEnd (imgSize entry blockSize) offset →
    ∀ io : DiskIo, io.read = true →
      bubReadFromPartition (.ofDisk turns blockSize lookupIo returned.2) io name offset'
        (BitVec.ofNat 64 buf.length) returned.2 = (.ok, buf)
  /-- No byte of a partition of other blocks changes. -/
  isolated : returned.1 = .ok → ∀ other : GPTEntry,
    other.firstLba.toNat ≤ other.lastLba.toNat →
    other.lastLba.toNat < entry.firstLba.toNat ∨ entry.lastLba.toNat < other.firstLba.toNat →
    ∀ a, other.start blockSize ≤ a → a < other.stop blockSize → returned.2 a = disk a

/-- The writes that go astray: they get past the checks, the address of their first byte does not
fit 64 bits, and the bytes at the wrapped address are not those written. -/
structure Misplaced (blockSize : BitVec 32) (io : DiskIo) (entry : GPTEntry) (offset : BitVec 64)
    (buf : List Byte) (disk : Disk) : Prop where
  wraps : 2 ^ 64 ≤ entry.start blockSize
    + countedFromStart (imgSize entry blockSize).toNat offset
  fits : countedFromStart (imgSize entry blockSize).toNat offset + buf.length
    ≤ (imgSize entry blockSize).toNat
  succeeds : io.write = true
  changes : disk.read ((entry.start blockSize
    + countedFromStart (imgSize entry blockSize).toNat offset) % 2 ^ 64) buf.length ≠ buf

section

variable {turns : ℕ} {blockSize : BitVec 32} {lookupIo : LookupIo} {io : DiskIo}
  {name buf : List Byte} {entry : GPTEntry} {offset : BitVec 64} {disk : Disk}

/-- Blocks before a partition end where it starts. -/
theorem GPTEntry.stop_le_start {other : GPTEntry}
    (h : other.lastLba.toNat < entry.firstLba.toNat) :
    other.stop blockSize ≤ entry.start blockSize :=
  Nat.mul_le_mul_right blockSize.toNat h

/-- A byte below a partition belongs to a block that is not one of its own. -/
theorem GPTEntry.exists_block_before {a : ℕ} (hbelow : a < entry.start blockSize) :
    ∃ other : GPTEntry, other.firstLba.toNat ≤ other.lastLba.toNat ∧
      other.lastLba.toNat < entry.firstLba.toNat ∧
      other.start blockSize ≤ a ∧ a < other.stop blockSize := by
  unfold GPTEntry.start at hbelow
  have hblock : 0 < blockSize.toNat := by
    rcases Nat.eq_zero_or_pos blockSize.toNat with hzero | hpos
    · rw [hzero] at hbelow
      omega
    · exact hpos
  have hlba : a / blockSize.toNat < entry.firstLba.toNat := by
    rw [Nat.div_lt_iff_lt_mul hblock]
    exact hbelow
  have hlt := entry.firstLba.isLt
  have hnat : (BitVec.ofNat 64 (a / blockSize.toNat)).toNat = a / blockSize.toNat := by
    rw [BitVec.toNat_ofNat, Nat.mod_eq_of_lt (by omega)]
  refine ⟨{ entry with
    firstLba := .ofNat 64 (a / blockSize.toNat), lastLba := .ofNat 64 (a / blockSize.toNat) },
    Nat.le_refl _, ?_, ?_, ?_⟩
  · rw [hnat]
    exact hlba
  · rw [GPTEntry.start, hnat]
    exact Nat.div_mul_le_self a blockSize.toNat
  · rw [GPTEntry.stop, hnat]
    exact Nat.lt_mul_of_div_lt (Nat.lt_succ_self _) hblock

/-- A read of what fits takes all of it from the same place, counted from either end. -/
theorem bubReadFromPartition_eitherEnd {bub : MyBubOps}
    (hentry : bub.entryByName name = some entry)
    (hsize : (imgSize entry bub.blockSize).toNat < 2 ^ 63)
    (hlow : -((imgSize entry bub.blockSize).toNat : ℤ) ≤ offset.toInt)
    (hhigh : offset.toInt ≤ (imgSize entry bub.blockSize).toNat) {o : ℕ}
    (ho : countedFromStart (imgSize entry bub.blockSize).toNat offset = o)
    (hfits : o + buf.length ≤ (imgSize entry bub.blockSize).toNat) {offset' : BitVec 64}
    (hoffset' : offset' = offset ∨ offset' = fromOtherEnd (imgSize entry bub.blockSize) offset)
    (hread : io.read = true) (disk : Disk) :
    bubReadFromPartition bub io name offset' (BitVec.ofNat 64 buf.length) disk
      = (.ok, disk.read ((entry.start bub.blockSize + o) % 2 ^ 64) buf.length) := by
  have hother := toInt_fromOtherEnd hsize hlow hhigh
  have hrange : -((imgSize entry bub.blockSize).toNat : ℤ) ≤ offset'.toInt ∧
      offset'.toInt ≤ (imgSize entry bub.blockSize).toNat := by
    rcases hoffset' with rfl | rfl
    · exact ⟨hlow, hhigh⟩
    · rw [hother]
      split_ifs <;> omega
  obtain ⟨o', hoffset, ho', hle⟩ := offsetFromStart_of_range hsize hrange.1 hrange.2
  have hlength : (BitVec.ofNat 64 buf.length).toNat = buf.length := by
    rw [BitVec.toNat_ofNat, Nat.mod_eq_of_lt (by omega)]
  rw [bubReadFromPartition_of_offsetFromStart hentry hoffset, if_pos hread,
    BitVec.toNat_sub_of_le hle, hlength]
  -- At the very end of the size nothing is left to read, and the place does not matter.
  have hplace : buf.length = 0 ∨ o'.toNat = o := by
    rcases hoffset' with rfl | rfl
    · exact .inr (ho'.trans ho)
    · rcases hhigh.lt_or_eq with hlt | heq
      · exact .inr ((ho'.trans (countedFromStart_fromOtherEnd hsize hlow hlt)).trans ho)
      · left
        rw [countedFromStart, heq, if_neg (by omega), Int.toNat_natCast] at ho
        omega
  rcases hplace with hempty | hplace
  · rw [hempty, Nat.zero_min]
    rfl
  · rw [hplace, Nat.min_eq_left (by omega)]

/-- A write to an address that fits stays in the partition. -/
theorem readAfterWrite_of_inside (hordered : entry.firstLba.toNat ≤ entry.lastLba.toNat)
    (hsize : (imgSize entry blockSize).toNat < 2 ^ 63) (hapart : entry.ApartFromTable blockSize)
    (hlow : -((imgSize entry blockSize).toNat : ℤ) ≤ offset.toInt)
    (hhigh : offset.toInt ≤ (imgSize entry blockSize).toNat) {o : ℕ}
    (ho : countedFromStart (imgSize entry blockSize).toNat offset = o)
    (hfits : o + buf.length ≤ (imgSize entry blockSize).toNat)
    (haddress : entry.start blockSize + o < 2 ^ 64) :
    ReadAfterWrite blockSize name entry offset buf disk
      (.ok, disk.write (entry.start blockSize + o) buf) := by
  have hstop : entry.start blockSize + (imgSize entry blockSize).toNat + blockSize.toNat
      ≤ entry.stop blockSize := GPTEntry.start_add_imgSize_le hordered
  constructor
  · intro _ turns lookupIo hentry offset' hoffset' io hread
    have htable : MyBubOps.ofDisk turns blockSize lookupIo
        (disk.write (entry.start blockSize + o) buf)
          = MyBubOps.ofDisk turns blockSize lookupIo disk :=
      MyBubOps.ofDisk_write hapart (Nat.le_add_right _ _) (by omega)
    rw [htable, bubReadFromPartition_eitherEnd hentry hsize hlow hhigh ho hfits hoffset' hread,
      MyBubOps.ofDisk_blockSize, Nat.mod_eq_of_lt haddress, Disk.read_write_self]
  · intro _ other hother hdisjoint a ha ha'
    apply Disk.write_of_not_mem
    rcases hdisjoint with hbefore | hafter
    · have hle : other.stop blockSize ≤ entry.start blockSize := GPTEntry.stop_le_start hbefore
      omega
    · have hle : entry.stop blockSize ≤ other.start blockSize := GPTEntry.stop_le_start hafter
      omega

/-- A write to a wrapped address does what is expected only if it changes nothing. -/
theorem readAfterWrite_iff_of_wraps (hsize : (imgSize entry blockSize).toNat < 2 ^ 63)
    (hlow : -((imgSize entry blockSize).toNat : ℤ) ≤ offset.toInt)
    (hhigh : offset.toInt ≤ (imgSize entry blockSize).toNat) {o : ℕ}
    (ho : countedFromStart (imgSize entry blockSize).toNat offset = o)
    (hfits : o + buf.length ≤ (imgSize entry blockSize).toNat)
    (hwraps : 2 ^ 64 ≤ entry.start blockSize + o) :
    ReadAfterWrite blockSize name entry offset buf disk
        (.ok, disk.write ((entry.start blockSize + o) % 2 ^ 64) buf) ↔
      disk.read ((entry.start blockSize + o) % 2 ^ 64) buf.length = buf := by
  constructor
  · intro h
    rw [← Disk.write_eq_self_iff]
    funext a
    by_cases hin : (entry.start blockSize + o) % 2 ^ 64 ≤ a ∧
      a < (entry.start blockSize + o) % 2 ^ 64 + buf.length
    · -- The size is below `2 ^ 63`, so that what wraps ends before the partition starts.
      have hbelow : a < entry.start blockSize := by omega
      obtain ⟨other, hother, hbefore, ha, ha'⟩ := GPTEntry.exists_block_before hbelow
      exact h.isolated rfl other hother (.inl hbefore) a ha ha'
    · exact Disk.write_of_not_mem disk _ hin
  · intro hsame
    rw [(disk.write_eq_self_iff _).mpr hsame]
    refine ⟨fun _ turns lookupIo hentry offset' hoffset' io hread => ?_, fun _ _ _ _ _ _ _ => rfl⟩
    rw [bubReadFromPartition_eitherEnd hentry hsize hlow hhigh ho hfits hoffset' hread]
    exact congrArg (Prod.mk _) hsame

/-- A write that is not carried out has nothing to be read back. -/
theorem readAfterWrite_of_ne_ok {returned : BubIOResult × Disk} (h : returned.1 ≠ .ok) :
    ReadAfterWrite blockSize name entry offset buf disk returned :=
  ⟨fun hok => absurd hok h, fun hok => absurd hok h⟩

/-- A write in the range of the computed size is read back from either end and leaves the other
partitions alone, exactly when it does not go astray. -/
theorem readAfterWrite_iff
    (hentry : (MyBubOps.ofDisk turns blockSize lookupIo disk).entryByName name = some entry)
    (hordered : entry.firstLba.toNat ≤ entry.lastLba.toNat)
    (hsize : (imgSize entry blockSize).toNat < 2 ^ 63) (hapart : entry.ApartFromTable blockSize)
    (hlow : -((imgSize entry blockSize).toNat : ℤ) ≤ offset.toInt)
    (hhigh : offset.toInt ≤ (imgSize entry blockSize).toNat) (hlen : buf.length < 2 ^ 64) :
    ReadAfterWrite blockSize name entry offset buf disk
        (bubWriteToPartition (.ofDisk turns blockSize lookupIo disk) io name buf offset disk) ↔
      ¬ Misplaced blockSize io entry offset buf disk := by
  obtain ⟨o, hoffset, ho, hle⟩ := offsetFromStart_of_range hsize hlow hhigh
  have hwrite := bubWriteToPartition_of_offsetFromStart hentry hoffset io hlen disk
  rw [MyBubOps.ofDisk_blockSize, BitVec.toNat_sub_of_le hle] at hwrite
  rw [hwrite]
  have hinside : o.toNat ≤ (imgSize entry blockSize).toNat := hle
  -- A write that is refused, or fails, promises nothing and misplaces nothing.
  by_cases hlong : (imgSize entry blockSize).toNat - o.toNat < buf.length
  · rw [if_pos hlong]
    refine iff_of_true (readAfterWrite_of_ne_ok (by simp)) fun h => ?_
    have hfits := h.fits
    omega
  · rw [if_neg hlong]
    cases hsucceeds : io.write with
    | false =>
      refine iff_of_true (readAfterWrite_of_ne_ok (by simp)) fun h => ?_
      have hwritten := h.succeeds
      rw [hsucceeds] at hwritten
      cases hwritten
    | true =>
      rw [if_pos rfl]
      -- A write that succeeds is in its place, or wraps.
      rcases Nat.lt_or_ge (entry.start blockSize + o.toNat) (2 ^ 64) with haddress | hwraps
      · rw [Nat.mod_eq_of_lt haddress]
        refine iff_of_true (readAfterWrite_of_inside hordered hsize hapart hlow hhigh ho.symm
          (by omega) haddress) fun h => ?_
        have hwraps := h.wraps
        omega
      · rw [readAfterWrite_iff_of_wraps hsize hlow hhigh ho.symm (by omega) hwraps]
        constructor
        · intro hsame h
          have hchanges := h.changes
          rw [← ho] at hchanges
          exact hchanges hsame
        · intro h
          by_contra hchanges
          rw [ho] at hwraps hchanges
          exact h ⟨hwraps, by omega, hsucceeds, hchanges⟩

end

/-- The 128 bytes of an entry of the table. -/
def tableEntry (name : List Char) (firstLba lastLba : BitVec 64) : List Byte :=
  List.replicate 32 0 ++ leBytes 8 firstLba ++ leBytes 8 lastLba ++ List.replicate 8 0
    ++ ((ascii name).flatMap fun c => [c, 0]) ++ List.replicate (72 - 2 * name.length) 0

/-- A disk with a table of two partitions: the metadata partition in the given blocks, and that of
slot A in block 100. -/
def twoPartitions (firstLba lastLba : BitVec 64) : Disk :=
  ((tableDisk 2).write 1024 (tableEntry ['m', 'i', 's', 'c'] firstLba lastLba)).write 1152
    (tableEntry ['b', 'o', 'o', 't', '_', 'a'] 100 100)

/-- The metadata partition starts `2 ^ 64` bytes behind that of slot A. -/
def farPartition : Disk := twoPartitions 0x80000000000064 0x80000000000065

/-- The first byte of the partition from block `2 ^ 55 + 100` on is written over that of slot A's
partition, whose block is the hundredth. -/
theorem wrapped_write_not_readAfterWrite :
    ∃ entry other : GPTEntry,
      (MyBubOps.ofDisk 7 512 .success farPartition).entryByName miscPartition = some entry ∧
      (MyBubOps.ofDisk 7 512 .success farPartition).entryByName
        (ascii ['b', 'o', 'o', 't', '_', 'a']) = some other ∧
      entry.firstLba.toNat ≤ entry.lastLba.toNat ∧ (imgSize entry 512).toNat < 2 ^ 63 ∧
      entry.ApartFromTable 512 ∧ other.firstLba.toNat ≤ other.lastLba.toNat ∧
      other.lastLba.toNat < entry.firstLba.toNat ∧
      ¬ ReadAfterWrite 512 miscPartition entry 0 [1] farPartition
        (bubWriteToPartition (.ofDisk 7 512 .success farPartition) ⟨true, true⟩ miscPartition [1] 0
          farPartition) := by
  have hmisc : ((MyBubOps.ofDisk 7 512 .success farPartition).entryByName miscPartition).map
      (fun e => (e.firstLba, e.lastLba)) = some (0x80000000000064, 0x80000000000065) := by
    decide +kernel
  have hboot : ((MyBubOps.ofDisk 7 512 .success farPartition).entryByName
      (ascii ['b', 'o', 'o', 't', '_', 'a'])).map (fun e => (e.firstLba, e.lastLba))
        = some (100, 100) := by
    decide +kernel
  obtain ⟨entry, hentry, hblocks⟩ := Option.map_eq_some_iff.mp hmisc
  obtain ⟨other, hother, hblocks'⟩ := Option.map_eq_some_iff.mp hboot
  obtain ⟨hfirst, hlast⟩ := Prod.mk.inj hblocks
  obtain ⟨hfirst', hlast'⟩ := Prod.mk.inj hblocks'
  have hsize : imgSize entry 512 = 512 := by
    rw [imgSize, hfirst, hlast]
    decide
  -- Block 100 of the disk is 2^64 bytes before the start of `misc`.
  have hstart : entry.start 512 = 18446744073709602816 := by
    rw [GPTEntry.start, hfirst]
    decide
  have hordered' : other.firstLba.toNat ≤ other.lastLba.toNat := by
    rw [hfirst', hlast']
  have hbefore : other.lastLba.toNat < entry.firstLba.toNat := by
    rw [hlast', hfirst]
    decide
  refine ⟨entry, other, hentry, hother, ?_, ?_, ⟨.inr ?_, .inr ?_⟩, hordered', hbefore, fun h => ?_⟩
  · rw [hfirst, hlast]
    decide
  · rw [hsize]
    decide
  · rw [hstart]
    decide
  · rw [hstart]
    decide
  · have hoffset : offsetFromStart (imgSize entry 512) 0 = some 0 :=
      offsetFromStart_of_nonneg (by decide)
    have hlen : [(1 : Byte)].length < 2 ^ 64 := by decide
    have hwrite := bubWriteToPartition_of_offsetFromStart hentry hoffset ⟨true, true⟩ hlen
      farPartition
    rw [MyBubOps.ofDisk_blockSize, hsize, hstart, if_neg (by decide), if_pos rfl] at hwrite
    rw [hwrite] at h
    -- The first byte of `boot_a` is the one that was written.
    have hbyte := h.isolated rfl other hordered' (.inl hbefore) 51200
      (by rw [GPTEntry.start, hfirst']; decide) (by rw [GPTEntry.stop, hlast']; decide)
    exact absurd hbyte (by decide +kernel)

/-- A write over the last three bytes of the computed size is read back. -/
theorem last_bytes_readAfterWrite :
    ∃ entry : GPTEntry,
      (MyBubOps.ofDisk 5 512 .success (twoPartitions 40 49)).entryByName miscPartition
        = some entry ∧
      ReadAfterWrite 512 miscPartition entry (-3) [1, 2, 3] (twoPartitions 40 49)
        (bubWriteToPartition (.ofDisk 5 512 .success (twoPartitions 40 49)) ⟨true, true⟩
          miscPartition [1, 2, 3] (-3) (twoPartitions 40 49)) := by
  have hmisc : ((MyBubOps.ofDisk 5 512 .success (twoPartitions 40 49)).entryByName
      miscPartition).map (fun e => (e.firstLba, e.lastLba)) = some (40, 49) := by
    decide +kernel
  obtain ⟨entry, hentry, hblocks⟩ := Option.map_eq_some_iff.mp hmisc
  obtain ⟨hfirst, hlast⟩ := Prod.mk.inj hblocks
  have hsize : imgSize entry 512 = 4608 := by
    rw [imgSize, hfirst, hlast]
    decide
  have hstart : entry.start 512 = 20480 := by
    rw [GPTEntry.start, hfirst]
    decide
  have hordered : entry.firstLba.toNat ≤ entry.lastLba.toNat := by
    rw [hfirst, hlast]
    decide
  have hapart : entry.ApartFromTable 512 :=
    ⟨.inr (by rw [hstart]; decide), .inr (by rw [hstart]; decide)⟩
  refine ⟨entry, hentry, (readAfterWrite_iff hentry hordered (by rw [hsize]; decide) hapart
    (by rw [hsize]; decide) (by rw [hsize]; decide) (by decide)).mpr fun h => ?_⟩
  have hwraps := h.wraps
  rw [hstart, hsize] at hwraps
  exact absurd hwraps (by decide)

end BrilloBoot
