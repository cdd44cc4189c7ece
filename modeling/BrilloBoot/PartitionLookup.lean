import BrilloBoot.Gpt
import BrilloBoot.Lib.CounterSearch
import BrilloBoot.Utf8

/-!
# Looking up a partition

`bub_partition_entry_by_name` of `bub_boot_kernel.c`, over the disk that holds the table. Its loops
are run for a number of turns, after which the function is still `running`. The array of entries is
a function from its indices, so that what lies behind it on the stack is there too.
-/

namespace BrilloBoot

/-- What becomes of the firmware's calls of one `bub_partition_entry_by_name`, in their order, and
what its memory holds before. -/
structure LookupIo where
  /-- The allocation of the header. -/
  allocHeader : Bool
  /-- The allocation of the entries that are returned. -/
  allocEntry : Bool
  readHeader : Bool
  /-- The allocation of the name in UCS-2. -/
  allocName : Bool
  readEntries : Bool
  /-- What follows the terminator of the name. -/
  nameTail : ℕ → Byte
  /-- The bytes of `all_gpt_entries`, and what follows them. -/
  stack : ℕ → Byte

/-- `*entry_buf` when the function returns. -/
inductive EntryBuf
  /-- As the caller left it. -/
  | untouched
  | null
  /-- A buffer with a copy of the entry. -/
  | entry (e : GPTEntry)

/-- What comes of `bub_partition_entry_by_name`. -/
inductive Lookup
  /-- A loop has not ended yet. -/
  | running
  /-- The entry is copied through a null pointer. -/
  | nullCopy
  | returned (status : EfiStatus) (entryBuf : EntryBuf)

/-- `ReadBlocks` of `n` bytes. They must be whole blocks. -/
def readBlocks (blockSize : BitVec 32) (succeeds : Bool) (lba n : ℕ) (disk : Disk) :
    Option (Bytes n) :=
  if succeeds ∧ n % blockSize.toNat = 0 then
    some ⟨disk.read (lba * blockSize.toNat) n, by simp⟩
  else none

/-- A C string with its terminator in memory. -/
def cString (string : List Byte) (tail : ℕ → Byte) (i : ℕ) : Byte :=
  (string ++ [0]).getD i (tail i)

/-- `bub_strlen`. -/
def bubStrlen (string : List Byte) : ℕ := (string.takeWhile fun c => c ≠ 0).length

/-- `StrLen` of a string with a terminator among its first `capacity` units. -/
def strLen (string : ℕ → BitVec 16) (capacity : ℕ) : Option ℕ :=
  (List.range capacity).find? fun n => string n = 0

/-- `StrLen` of the string is `n`. -/
def strLenIs (string : ℕ → BitVec 16) (n : ℕ) : Bool :=
  ((List.range n).all fun k => string k ≠ 0) && decide (string n = 0)

/-- `entries_num_bytes`: the bytes of `MAX_GPT_ENTRIES / ENTRIES_PER_BLOCK` blocks. -/
def entriesNumBytes (blockSize : BitVec 32) : ℕ := (blockSize * 32).toNat

/-- What the search for the name works on. -/
structure SearchInput where
  /-- The header that was read. -/
  gptHeader : GPTHeader
  /-- `bub_strlen(partition_name)`. -/
  nameLength : ℕ
  partitionNameUcs2 : ℕ → BitVec 16
  /-- The bytes of the array, and what follows them in memory. -/
  allGptEntries : ℕ → Byte

namespace SearchInput

variable (input : SearchInput)

/-- Code unit `k` of the name of entry `i`. -/
def entryName (i k : ℕ) : BitVec 16 :=
  leWord 16 [input.allGptEntries (128 * i + 56 + 2 * k),
    input.allGptEntries (128 * i + 56 + 2 * k + 1)]

/-- The test of the search on entry `i`: the lengths agree, and the bytes of as many units as the
name has bytes in UTF-8. The name has its terminator (`exists_strLen_partitionNameUcs2`). -/
def isMatch (i : ℕ) : Bool :=
  match strLen input.partitionNameUcs2 (input.nameLength + 1) with
  | none => false
  | some n =>
    strLenIs (input.entryName i) n &&
      bubMemcmp ((List.range input.nameLength).flatMap fun k => leBytes 2 (input.entryName i k))
        ((List.range input.nameLength).flatMap fun k => leBytes 2 (input.partitionNameUcs2 k))
        (2 * input.nameLength) = 0

/-- `all_gpt_entries[i]`. -/
def entry (i : ℕ) : GPTEntry :=
  .ofBytes ⟨(List.range 128).map fun k => input.allGptEntries (128 * i + k), by simp⟩

/-- The loop of the search, for a number of turns. Its counter has eight bits. -/
def search (turns : ℕ) : BitVec 8 ⊕ Option ℕ :=
  CounterSearch.search input.gptHeader.entryCount.toNat input.isMatch 8 turns

end SearchInput

/-- `bub_partition_entry_by_name` up to its search. -/
def prepareSearch (turns : ℕ) (blockSize : BitVec 32) (io : LookupIo) (partitionName : List Byte)
    (disk : Disk) : Lookup ⊕ SearchInput :=
  if !io.allocHeader then .inl (.returned .notFound .untouched)
  else
    -- Whether the second allocation succeeded is not looked at.
    match readBlocks blockSize io.readHeader 1 512 disk with
    | none => .inl (.returned .notFound .null)
    | some header =>
      if !io.allocName then .inl (.returned .notFound .null)
      else
        let partitionNameBytes := BitVec.ofNat 64 (bubStrlen partitionName + 1)
        match utf8ToUcs2 turns (cString partitionName io.nameTail) partitionNameBytes
            fun _ => 0 with
        | .inl _ => .inl .running
        | .inr (failed, ucs2) =>
          if failed ≠ 0 then .inl (.returned .notFound .null)
          else match readBlocks blockSize io.readEntries 2 (entriesNumBytes blockSize) disk with
          | none => .inl (.returned .notFound .null)
          | some entries => .inr
            { gptHeader := .ofBytes header
              nameLength := bubStrlen partitionName
              partitionNameUcs2 := ucs2
              allGptEntries := fun a => entries.toList.getD a (io.stack a) }

/-- `bub_partition_entry_by_name`, for a number of turns of its loops. -/
def bubPartitionEntryByName (turns : ℕ) (blockSize : BitVec 32) (io : LookupIo)
    (partitionName : List Byte) (disk : Disk) : Lookup :=
  match prepareSearch turns blockSize io partitionName disk with
  | .inl lookup => lookup
  | .inr input =>
    match input.search turns with
    | .inl _ => .running
    | .inr none => .returned .notFound .null
    | .inr (some i) =>
      if io.allocEntry then .returned .success (.entry (input.entry i)) else .nullCopy

/-! ## Reaching the search -/

/-- The calls of the firmware that come before the search succeed. -/
structure LookupIo.Reaches (io : LookupIo) : Prop where
  allocHeader : io.allocHeader = true
  readHeader : io.readHeader = true
  allocName : io.allocName = true
  readEntries : io.readEntries = true

/-- What the search works on, with the name converted to `ucs2`. -/
def searchInput (blockSize : BitVec 32) (io : LookupIo) (partitionName : List Byte) (disk : Disk)
    (ucs2 : ℕ → BitVec 16) : SearchInput where
  gptHeader := .ofBytes ⟨disk.read blockSize.toNat 512, by simp⟩
  nameLength := bubStrlen partitionName
  partitionNameUcs2 := ucs2
  allGptEntries a :=
    (disk.read (2 * blockSize.toNat) (entriesNumBytes blockSize)).getD a (io.stack a)

section

variable {turns : ℕ} {blockSize : BitVec 32} {io : LookupIo} {name : List Byte} {disk : Disk}
  {input : SearchInput}

/-- The header that the search has is the one on disk. -/
theorem gptHeader_searchInput {gptHeader : GPTHeader} {ucs2 : ℕ → BitVec 16}
    (h : disk.read blockSize.toNat 512 = gptHeader.toBytes.toList) :
    (searchInput blockSize io name disk ucs2).gptHeader = gptHeader := by
  rw [searchInput, Bytes.mk_eq h, GPTHeader.ofBytes_toBytes]

/-- When blocks are read, and which. -/
theorem readBlocks_eq_some_iff {succeeds : Bool} {lba n : ℕ} {bytes : Bytes n} :
    readBlocks blockSize succeeds lba n disk = some bytes ↔
      succeeds = true ∧ n % blockSize.toNat = 0 ∧
        bytes = ⟨disk.read (lba * blockSize.toNat) n, by simp⟩ := by
  unfold readBlocks
  split_ifs with h
  · rw [Option.some.injEq, eq_comm]
    exact ⟨fun hb => ⟨h.1, h.2, hb⟩, fun hb => hb.2.2⟩
  · exact iff_of_false (by simp) fun hb => h ⟨hb.1, hb.2.1⟩

/-- The search is reached when the firmware's calls before it succeed and the name converts. -/
theorem prepareSearch_eq_inr_iff :
    prepareSearch turns blockSize io name disk = .inr input ↔
      io.Reaches ∧ 512 % blockSize.toNat = 0 ∧ entriesNumBytes blockSize % blockSize.toNat = 0 ∧
        ∃ ucs2, utf8ToUcs2 turns (cString name io.nameTail) (BitVec.ofNat 64 (bubStrlen name + 1))
            (fun _ => 0) = .inr (0, ucs2) ∧ input = searchInput blockSize io name disk ucs2 := by
  constructor
  · intro h
    -- Every exit on the way to the search is excluded in turn.
    unfold prepareSearch at h
    cases halloc : io.allocHeader
    · simp [halloc] at h
    cases hheader : readBlocks blockSize io.readHeader 1 512 disk with
    | none => simp [halloc, hheader] at h
    | some header =>
      cases hname : io.allocName
      · simp [halloc, hheader, hname] at h
      simp only [halloc, hheader, hname, Bool.not_true, Bool.false_eq_true, if_false] at h
      split at h
      · cases h
      · rename_i failed ucs2 hutf8
        split_ifs at h with hfailed
        rw [ne_eq, not_not] at hfailed
        subst hfailed
        cases hentries : readBlocks blockSize io.readEntries 2 (entriesNumBytes blockSize) disk with
        | none => simp [hentries] at h
        | some entries =>
          rw [hentries] at h
          obtain ⟨hread, hblocks, rfl⟩ := readBlocks_eq_some_iff.mp hheader
          obtain ⟨hread', hblocks', rfl⟩ := readBlocks_eq_some_iff.mp hentries
          refine ⟨⟨halloc, hread, hname, hread'⟩, hblocks, hblocks', ucs2, hutf8, ?_⟩
          rw [← Sum.inr.inj h]
          simp only [searchInput, Nat.one_mul]
  · rintro ⟨hio, hblocks, hblocks', ucs2, hutf8, rfl⟩
    have hheader : readBlocks blockSize io.readHeader 1 512 disk = some _ :=
      readBlocks_eq_some_iff.mpr ⟨hio.readHeader, hblocks, rfl⟩
    have hentries : readBlocks blockSize io.readEntries 2 (entriesNumBytes blockSize) disk
        = some _ := readBlocks_eq_some_iff.mpr ⟨hio.readEntries, hblocks', rfl⟩
    unfold prepareSearch
    simp only [hio.allocHeader, hheader, hio.allocName, hutf8, hentries, searchInput, Nat.one_mul]
    rfl

/-- More turns reach the same search. -/
theorem prepareSearch_of_le {turns' : ℕ}
    (h : prepareSearch turns blockSize io name disk = .inr input) (hle : turns ≤ turns') :
    prepareSearch turns' blockSize io name disk = .inr input := by
  rw [prepareSearch_eq_inr_iff] at h ⊢
  obtain ⟨hio, hblocks, hblocks', ucs2, hutf8, hinput⟩ := h
  exact ⟨hio, hblocks, hblocks', ucs2, DoWhile.run_of_le hutf8 hle, hinput⟩

/-- There is one search to reach. -/
theorem prepareSearch_unique {turns' : ℕ} {input' : SearchInput}
    (h : prepareSearch turns blockSize io name disk = .inr input)
    (h' : prepareSearch turns' blockSize io name disk = .inr input') : input = input' := by
  rcases Nat.le_total turns turns' with hle | hle
  · exact Sum.inr.inj ((prepareSearch_of_le h hle).symm.trans h')
  · exact Sum.inr.inj (h.symm.trans (prepareSearch_of_le h' hle))

/-- `StrLen` finds the end of the name that the search compares with. -/
theorem exists_strLen_partitionNameUcs2 (hlen : bubStrlen name < 2 ^ 32 - 3)
    (h : prepareSearch turns blockSize io name disk = .inr input) :
    ∃ n, strLen input.partitionNameUcs2 (input.nameLength + 1) = some n := by
  obtain ⟨-, -, -, ucs2, hutf8, rfl⟩ := prepareSearch_eq_inr_iff.mp h
  have hfirst : bubStrlen name = 0 → cString name io.nameTail 0 = 0 := by
    intro hzero
    cases name with
    | nil => rfl
    | cons c cs =>
      by_contra hc
      have hchar : c ≠ 0 := hc
      rw [bubStrlen, List.takeWhile_cons_of_pos] at hzero
      · cases hzero
      · exact decide_eq_true hchar
  have hend : ucs2 (bubStrlen name) = 0 := terminated_of_utf8ToUcs2 hlen hfirst hutf8
  rw [← Option.isSome_iff_exists]
  unfold strLen
  rw [List.find?_isSome]
  exact ⟨bubStrlen name, List.mem_range.mpr (Nat.lt_succ_self _), decide_eq_true hend⟩

/-- The function depends on the disk only through the header and the entries that it reads. -/
theorem bubPartitionEntryByName_congr {disk' : Disk}
    (hheader : disk.read blockSize.toNat 512 = disk'.read blockSize.toNat 512)
    (hentries : disk.read (2 * blockSize.toNat) (entriesNumBytes blockSize)
      = disk'.read (2 * blockSize.toNat) (entriesNumBytes blockSize)) :
    bubPartitionEntryByName turns blockSize io name disk
      = bubPartitionEntryByName turns blockSize io name disk' := by
  unfold bubPartitionEntryByName prepareSearch readBlocks
  simp only [Nat.one_mul, hheader, hentries]

/-- The exits before the search do not succeed. -/
theorem prepareSearch_ne_success (e : EntryBuf) :
    prepareSearch turns blockSize io name disk ≠ .inl (.returned .success e) := by
  -- Every exit on the way reports that nothing was found, or has not been reached yet.
  unfold prepareSearch
  split
  · simp
  split
  · simp
  split
  · simp
  dsimp only
  split
  · simp
  split
  · simp
  split <;> simp

/-- Success comes from the search. -/
theorem bubPartitionEntryByName_eq_success_iff {e : GPTEntry} :
    bubPartitionEntryByName turns blockSize io name disk = .returned .success (.entry e) ↔
      io.allocEntry = true ∧ ∃ input i, prepareSearch turns blockSize io name disk = .inr input ∧
        input.search turns = .inr (some i) ∧ e = input.entry i := by
  constructor
  · intro h
    unfold bubPartitionEntryByName at h
    split at h
    · rename_i lookup hprep
      rw [h] at hprep
      exact absurd hprep (prepareSearch_ne_success _)
    · rename_i input hprep
      split at h
      · cases h
      · cases h
      · rename_i i hsearch
        split_ifs at h with halloc
        refine ⟨halloc, input, i, hprep, hsearch, ?_⟩
        cases h
        rfl
  · rintro ⟨halloc, input, i, hprep, hsearch, rfl⟩
    simp only [bubPartitionEntryByName, hprep, hsearch, halloc, if_true]

end

end BrilloBoot
