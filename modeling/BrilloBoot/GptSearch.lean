import BrilloBoot.Crc32
import BrilloBoot.PartitionLookup

/-!
# The search through the partition table

The search counts with eight bits up to a number of entries that has 32 and comes from the disk;
`validate_gpt` puts no bound on it, and the array holds 128 entries. Past 255 entries the counter
wraps, so that the search ends only by a match (`searchTerminates_iff`), and past 128 it looks at
entries that were never read, unless a match stops it before (`examinesReadEntries_iff`).
-/

namespace BrilloBoot

/-! ## Tables without a match -/

/-- A valid header of a table with the given number of entries. -/
def tableHeader (entryCount : BitVec 32) : GPTHeader :=
  let header : GPTHeader :=
    { signature := ⟨ascii ['E', 'F', 'I', ' ', 'P', 'A', 'R', 'T'], rfl⟩, revision := 0x00010000
      headerSize := 92, headerCrc32 := 0, reserved := 0, headerLba := 1, alternateHeaderLba := 0
      firstUsableLba := 34, lastUsableLba := 0, diskGuid := .zero 16, entryLba := 2, entryCount
      entrySize := 128, entryCrc32 := 0, reserved2 := .zero 420 }
  { header with headerCrc32 := bubCrc32 0 (header.toBytes.toList.take 92) }

/-- A disk with that header and nothing else. -/
def tableDisk (entryCount : BitVec 32) : Disk :=
  Disk.write default 512 (tableHeader entryCount).toBytes.toList

/-- A firmware that does not fail, on cleared memory. -/
def LookupIo.success : LookupIo := ⟨true, true, true, true, true, fun _ => 0, fun _ => 0⟩

/-- The header that is read from that disk. -/
theorem gptHeader_tableDisk (entryCount : BitVec 32) (ucs2 : ℕ → BitVec 16) :
    (searchInput 512 .success miscPartition (tableDisk entryCount) ucs2).gptHeader
      = tableHeader entryCount := by
  apply gptHeader_searchInput
  have hself := Disk.read_write_self default 512 (tableHeader entryCount).toBytes.toList
  rw [Bytes.length_toList] at hself
  exact hself

/-- The empty name is no other name. -/
theorem isMatch_eq_false {input : SearchInput} {n : ℕ}
    (hlen : strLen input.partitionNameUcs2 (input.nameLength + 1) = some n)
    (hn : 0 < n) {i : ℕ} (hempty : input.entryName i 0 = 0) : input.isMatch i = false := by
  have hname : strLenIs (input.entryName i) n = false := by
    have hfirst : ((List.range n).all fun k => input.entryName i k ≠ 0) = false := by
      rw [List.all_eq_false]
      exact ⟨0, List.mem_range.mpr hn, by simp [hempty]⟩
    rw [strLenIs, hfirst, Bool.false_and]
  unfold SearchInput.isMatch
  rw [hlen]
  simp only [hname, Bool.false_and]

/-- No entry of an empty table matches. -/
theorem isMatch_tableDisk {ucs2 : ℕ → BitVec 16} (hlen : strLen ucs2 5 = some 4)
    (entryCount : BitVec 32) (i : ℕ) :
    (searchInput 512 .success miscPartition (tableDisk entryCount) ucs2).isMatch i = false := by
  -- From the entries on, the disk is empty.
  have hbyte (a : ℕ) : tableDisk entryCount (2 * (512 : BitVec 32).toNat + a) = 0 := by
    have hstart : (512 : BitVec 32).toNat = 512 := rfl
    exact Disk.write_of_not_mem _ _ (by rw [Bytes.length_toList]; omega)
  have hempty (a : ℕ) : (searchInput 512 .success miscPartition (tableDisk entryCount)
      ucs2).allGptEntries a = 0 := by
    unfold searchInput LookupIo.success
    simp only [Disk.getD_read, hbyte, ite_self]
  have hword : leWord 16 [0, 0] = 0 := by decide
  have hlength : bubStrlen miscPartition = 4 := by decide
  refine isMatch_eq_false (n := 4) ?_ (by decide) ?_
  · rw [← hlen]
    simp only [searchInput, hlength]
  · rw [SearchInput.entryName, hempty, hempty, hword]

/-- The search through an empty table is reached, and finds no match. -/
theorem prepareSearch_tableDisk (entryCount : BitVec 32) :
    ∃ input, prepareSearch 4 512 .success miscPartition (tableDisk entryCount) = .inr input ∧
      input.gptHeader = tableHeader entryCount ∧ ∀ i, input.isMatch i = false := by
  have hconvert : ∃ ucs2, utf8ToUcs2 4 (cString miscPartition LookupIo.success.nameTail)
      (BitVec.ofNat 64 (bubStrlen miscPartition + 1)) (fun _ => 0) = .inr (0, ucs2) ∧
      strLen ucs2 5 = some 4 := ⟨_, rfl, by decide⟩
  obtain ⟨ucs2, hucs2, hlen⟩ := hconvert
  refine ⟨_, prepareSearch_eq_inr_iff.mpr ?_, gptHeader_tableDisk entryCount ucs2,
    isMatch_tableDisk hlen entryCount⟩
  exact ⟨⟨rfl, rfl, rfl, rfl⟩, by decide, by decide, ucs2, hucs2, rfl⟩

/-! ## The end of the search -/

section

variable {turns : ℕ} {blockSize : BitVec 32} {io : LookupIo} {name : List Byte} {disk : Disk}
  {input : SearchInput}

/-- The search that is reached ends within as many iterations as the header counts entries, and when
no entry matches the function says so. -/
structure SearchTerminates (blockSize : BitVec 32) (io : LookupIo) (name : List Byte) (disk : Disk)
    (input : SearchInput) : Prop where
  /-- The last turn only finds that the bound is reached. -/
  ends : ∃ result, input.search (input.gptHeader.entryCount.toNat + 1) = .inr result
  notFound : (∀ i < input.gptHeader.entryCount.toNat, input.isMatch i = false) →
    ∃ turns, bubPartitionEntryByName turns blockSize io name disk = .returned .notFound .null

/-- The search terminates exactly when its counter can reach the number of entries or a match. -/
theorem searchTerminates_iff (hprep : prepareSearch turns blockSize io name disk = .inr input) :
    SearchTerminates blockSize io name disk input ↔
      input.gptHeader.entryCount.toNat < 256 ∨ ∃ i < 256, input.isMatch i = true := by
  have hends : (∃ result, input.search (input.gptHeader.entryCount.toNat + 1) = .inr result) ↔
      input.gptHeader.entryCount.toNat < 2 ^ 8 ∨ ∃ i < 2 ^ 8, input.isMatch i = true :=
    CounterSearch.search_ends_iff
  constructor
  · intro h
    exact hends.mp h.ends
  · intro h
    refine ⟨hends.mpr h, fun hnone => ?_⟩
    -- Without a match it is the bound that is reached.
    have hreached : input.gptHeader.entryCount.toNat < 2 ^ 8 := by
      rcases h with hlt | ⟨i, hi, hmatch⟩
      · exact hlt
      · by_contra hge
        rw [hnone i (by omega)] at hmatch
        cases hmatch
    have hsearch := CounterSearch.search_eq_none hreached hnone
    refine ⟨max turns (input.gptHeader.entryCount.toNat + 1), ?_⟩
    have hprep' := prepareSearch_of_le hprep
      (Nat.le_max_left turns (input.gptHeader.entryCount.toNat + 1))
    have hsearch' : input.search (max turns (input.gptHeader.entryCount.toNat + 1)) = .inr none :=
      DoWhile.run_of_le hsearch (Nat.le_max_right _ _)
    simp only [bubPartitionEntryByName, hprep', hsearch']

end

/-- A header that counts 256 entries is valid. Over a table in which no name is found, the search
goes round for ever. -/
theorem full_circle_not_searchTerminates :
    validateGpt (bubCrc32 0) (tableHeader 256) = .success ∧
      ∃ input, prepareSearch 4 512 .success miscPartition (tableDisk 256) = .inr input ∧
        input.gptHeader = tableHeader 256 ∧
        ¬ SearchTerminates 512 .success miscPartition (tableDisk 256) input := by
  obtain ⟨input, hprep, hheader, hnone⟩ := prepareSearch_tableDisk 256
  refine ⟨by decide +kernel, input, hprep, hheader, fun h => ?_⟩
  obtain ⟨result, hresult⟩ := h.ends
  have hbound : 2 ^ 8 ≤ input.gptHeader.entryCount.toNat := by
    rw [hheader]
    decide
  have hnever := CounterSearch.search_never_ends hbound (fun i _ => hnone i)
  unfold SearchInput.search at hresult
  rw [hnever] at hresult
  cases hresult

/-- The search through an empty table of 128 entries terminates. -/
theorem empty_table_searchTerminates :
    ∃ input, prepareSearch 4 512 .success miscPartition (tableDisk 128) = .inr input ∧
      SearchTerminates 512 .success miscPartition (tableDisk 128) input := by
  obtain ⟨input, hprep, hheader, -⟩ := prepareSearch_tableDisk 128
  refine ⟨input, hprep, (searchTerminates_iff hprep).mpr (.inl ?_)⟩
  rw [hheader]
  decide

/-! ## The entries that are looked at -/

section

variable {turns : ℕ} {blockSize : BitVec 32} {io : LookupIo} {name : List Byte} {disk : Disk}
  {input : SearchInput}

/-- Entry `i` of the table on disk. -/
def entryOnDisk (blockSize : BitVec 32) (disk : Disk) (i : ℕ) : GPTEntry :=
  .ofBytes ⟨disk.read (2 * blockSize.toNat + 128 * i) 128, by simp⟩

/-- The search looks only at entries that were read from disk, and only such an entry is
returned. -/
structure ExaminesReadEntries (blockSize : BitVec 32) (io : LookupIo) (name : List Byte)
    (disk : Disk) (input : SearchInput) : Prop where
  examined : ∀ i, CounterSearch.Examines input.gptHeader.entryCount.toNat input.isMatch 8 i →
    i < 128 ∧ 128 * (i + 1) ≤ entriesNumBytes blockSize
  returned : ∀ turns e,
    bubPartitionEntryByName turns blockSize io name disk = .returned .success (.entry e) →
      ∃ i < 128, e = entryOnDisk blockSize disk i

/-- At most 128 entries are read. -/
theorem entriesNumBytes_le (h : 512 % blockSize.toNat = 0) : entriesNumBytes blockSize ≤ 16384 := by
  have hdvd : blockSize.toNat ∣ 512 := Nat.dvd_of_mod_eq_zero h
  have hle : blockSize.toNat ≤ 512 := Nat.le_of_dvd (by decide) hdvd
  rw [entriesNumBytes, BitVec.toNat_mul]
  have hmod := Nat.mod_le (blockSize.toNat * (32 : BitVec 32).toNat) (2 ^ 32)
  have h32 : (32 : BitVec 32).toNat = 32 := rfl
  rw [h32] at hmod ⊢
  omega

/-- An entry that was read is the one on disk. -/
theorem entry_eq_entryOnDisk (hprep : prepareSearch turns blockSize io name disk = .inr input)
    {i : ℕ} (hi : 128 * (i + 1) ≤ entriesNumBytes blockSize) :
    input.entry i = entryOnDisk blockSize disk i := by
  obtain ⟨-, -, -, ucs2, -, rfl⟩ := prepareSearch_eq_inr_iff.mp hprep
  unfold SearchInput.entry entryOnDisk
  congr 2
  apply List.map_congr_left
  intro k hk
  rw [List.mem_range] at hk
  have hlt : 128 * i + k < entriesNumBytes blockSize := by omega
  simp only [searchInput, Disk.getD_read, if_pos hlt, Nat.add_assoc]

/-- Only entries that were read are looked at and returned exactly when there are no more of them in
the header, or one of them matches. -/
theorem examinesReadEntries_iff
    (hprep : prepareSearch turns blockSize io name disk = .inr input) :
    ExaminesReadEntries blockSize io name disk input ↔
      input.gptHeader.entryCount.toNat ≤ entriesNumBytes blockSize / 128 ∨
        ∃ i < entriesNumBytes blockSize / 128, input.isMatch i = true := by
  have hblocks := (prepareSearch_eq_inr_iff.mp hprep).2.1
  have hbytes := entriesNumBytes_le hblocks
  have hread : entriesNumBytes blockSize / 128 < 2 ^ 8 := by omega
  rw [← CounterSearch.examines_lt_iff hread]
  constructor
  · intro h i hi
    have hin := h.examined i hi
    omega
  · intro h
    refine ⟨fun i hi => ?_, fun turns' e he => ?_⟩
    · have hlt := h i hi
      omega
    · obtain ⟨-, input', i, hprep', hsearch, rfl⟩ :=
        bubPartitionEntryByName_eq_success_iff.mp he
      obtain rfl := prepareSearch_unique hprep hprep'
      have hlt := h i (CounterSearch.examines_of_search_eq_some hsearch).1
      exact ⟨i, by omega, entry_eq_entryOnDisk hprep (by omega)⟩

end

/-- With a valid header that counts 129 entries, the search looks at entry 128. -/
theorem last_entry_not_examinesReadEntries :
    validateGpt (bubCrc32 0) (tableHeader 129) = .success ∧
      ∃ input, prepareSearch 4 512 .success miscPartition (tableDisk 129) = .inr input ∧
        input.gptHeader = tableHeader 129 ∧
        ¬ ExaminesReadEntries 512 .success miscPartition (tableDisk 129) input := by
  obtain ⟨input, hprep, hheader, hnone⟩ := prepareSearch_tableDisk 129
  refine ⟨by decide +kernel, input, hprep, hheader, fun h => ?_⟩
  have hcount : 128 < input.gptHeader.entryCount.toNat := by
    rw [hheader]
    decide
  have hin := h.examined 128 (CounterSearch.examines_iff.mpr
    ⟨by decide, hcount, fun j _ => hnone j⟩)
  omega

/-- In an empty table of 128 entries, the search looks only at entries that were read. -/
theorem empty_table_examinesReadEntries :
    ∃ input, prepareSearch 4 512 .success miscPartition (tableDisk 128) = .inr input ∧
      ExaminesReadEntries 512 .success miscPartition (tableDisk 128) input := by
  obtain ⟨input, hprep, hheader, -⟩ := prepareSearch_tableDisk 128
  refine ⟨input, hprep, (examinesReadEntries_iff hprep).mpr (.inl ?_)⟩
  rw [hheader]
  decide

end BrilloBoot
