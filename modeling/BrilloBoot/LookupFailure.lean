import BrilloBoot.ReadAfterWrite
import BrilloBoot.Utf8Scan

/-!
# The failure contract of the lookup

Whether `bub_partition_entry_by_name` succeeds, and what it leaves in `*entry_buf`, for every
outcome of its allocations and reads. Two exits break the contract. When the allocation of the
header fails the pointer is left as it was, and the result of the second allocation is not looked
at, so that a match is copied through a null pointer (`failureContract_iff`).
-/

namespace BrilloBoot

/-- The pointer is null when the function returns, for a caller whose pointer was null before or
not. -/
def EntryBuf.IsNull (callerNull : Bool) : EntryBuf → Prop
  | .untouched => callerNull = true
  | .null => True
  | .entry _ => False

/-- The header is read whole. -/
theorem length_header (blockSize : BitVec 32) (disk : Disk) :
    (disk.read blockSize.toNat 512).length = 512 := disk.length_read _ _

/-- The header that is read. -/
def headerOnDisk (blockSize : BitVec 32) (disk : Disk) : GPTHeader :=
  .ofBytes ⟨disk.read blockSize.toNat 512, length_header blockSize disk⟩

/-- The calls before the search succeed, the name converts, and `entry` is the first entry that
matches. -/
structure FindsEntry (blockSize : BitVec 32) (io : LookupIo) (name : List Byte) (disk : Disk)
    (entry : GPTEntry) : Prop where
  calls : io.Reaches
  /-- A read is of whole blocks. -/
  headerBlocks : 512 % blockSize.toNat = 0
  entriesBlocks : entriesNumBytes blockSize % blockSize.toNat = 0
  found : ∃ turns ucs2 i,
    utf8ToUcs2 turns (cString name io.nameTail) (BitVec.ofNat 64 (bubStrlen name + 1))
      (fun _ => 0) = .inr (0, ucs2) ∧
    i < (headerOnDisk blockSize disk).entryCount.toNat ∧
    (searchInput blockSize io name disk ucs2).isMatch i = true ∧
    (∀ j, j < i → (searchInput blockSize io name disk ucs2).isMatch j = false) ∧
    entry = (searchInput blockSize io name disk ucs2).entry i

/-- The function returns success and the entry when everything succeeds and there is one, and
otherwise that nothing was found and a null pointer. It never copies through a null pointer. -/
structure FailureContract (blockSize : BitVec 32) (io : LookupIo) (name : List Byte) (disk : Disk)
    (callerNull : Bool) : Prop where
  returns : ∃ turns status entryBuf,
    bubPartitionEntryByName turns blockSize io name disk = .returned status entryBuf ∧
      ((∃ entry, io.allocEntry = true ∧ FindsEntry blockSize io name disk entry ∧
        status = .success ∧ entryBuf = .entry entry) ∨
      (¬(io.allocEntry = true ∧ ∃ entry, FindsEntry blockSize io name disk entry) ∧
        status = .notFound ∧ entryBuf.IsNull callerNull))
  neverNullCopy : ∀ turns, bubPartitionEntryByName turns blockSize io name disk ≠ .nullCopy

/-! ## One result -/

section

variable {turns turns' : ℕ} {blockSize : BitVec 32} {io : LookupIo} {name : List Byte} {disk : Disk}
  {input : SearchInput} {lookup lookup' : Lookup}

/-- The calls before the conversion succeed. -/
structure ReachesConversion (blockSize : BitVec 32) (io : LookupIo) : Prop where
  allocHeader : io.allocHeader = true
  readHeader : io.readHeader = true
  headerBlocks : 512 % blockSize.toNat = 0
  allocName : io.allocName = true

/-- The exits before the search. -/
theorem prepareSearch_exits (h : prepareSearch turns blockSize io name disk = .inl lookup) :
    (io.allocHeader = false ∧ lookup = .returned .notFound .untouched) ∨
    (io.allocHeader = true ∧ lookup = .returned .notFound .null) ∨
    (lookup = .running ∧ ReachesConversion blockSize io ∧
      ∃ s, utf8ToUcs2 turns (cString name io.nameTail) (BitVec.ofNat 64 (bubStrlen name + 1))
        (fun _ => 0) = .inl s) := by
  unfold prepareSearch at h
  cases halloc : io.allocHeader
  · rw [halloc] at h
    exact .inl ⟨rfl, (Sum.inl.inj h).symm⟩
  rw [halloc, Bool.not_true, if_neg (by decide)] at h
  cases hheader : readBlocks blockSize io.readHeader 1 512 disk with
  | none =>
    rw [hheader] at h
    exact .inr (.inl ⟨rfl, (Sum.inl.inj h).symm⟩)
  | some header =>
    obtain ⟨hread, hblocks, -⟩ := readBlocks_eq_some_iff.mp hheader
    rw [hheader] at h
    cases hname : io.allocName
    · simp only [hname, Bool.not_false, if_true] at h
      exact .inr (.inl ⟨rfl, (Sum.inl.inj h).symm⟩)
    simp only [hname, Bool.not_true, Bool.false_eq_true, if_false] at h
    split at h
    · rename_i s hutf8
      exact .inr (.inr ⟨(Sum.inl.inj h).symm, ⟨halloc, hread, hblocks, hname⟩, s, hutf8⟩)
    · split_ifs at h
      · exact .inr (.inl ⟨rfl, (Sum.inl.inj h).symm⟩)
      · split at h
        · exact .inr (.inl ⟨rfl, (Sum.inl.inj h).symm⟩)
        · cases h

/-- The search is prepared alike with the same result of the conversion. -/
theorem prepareSearch_congr_turns
    (h : utf8ToUcs2 turns (cString name io.nameTail) (BitVec.ofNat 64 (bubStrlen name + 1))
        (fun _ => 0) =
      utf8ToUcs2 turns' (cString name io.nameTail) (BitVec.ofNat 64 (bubStrlen name + 1))
        (fun _ => 0)) :
    prepareSearch turns blockSize io name disk = prepareSearch turns' blockSize io name disk := by
  unfold prepareSearch
  dsimp only
  rw [h]

/-- The function waits for the conversion. -/
theorem prepareSearch_eq_running (h : ReachesConversion blockSize io) {s : Utf8State}
    (hutf8 : utf8ToUcs2 turns (cString name io.nameTail) (BitVec.ofNat 64 (bubStrlen name + 1))
      (fun _ => 0) = .inl s) :
    prepareSearch turns blockSize io name disk = .inl .running := by
  have hheader : readBlocks blockSize io.readHeader 1 512 disk = some _ :=
    readBlocks_eq_some_iff.mpr ⟨h.readHeader, h.headerBlocks, rfl⟩
  unfold prepareSearch
  simp only [h.allocHeader, hheader, h.allocName, hutf8]
  rfl

/-- An exit before the conversion does not depend on how many turns are allowed. -/
theorem prepareSearch_of_not_reaches (h : ¬ReachesConversion blockSize io) :
    prepareSearch turns blockSize io name disk = prepareSearch turns' blockSize io name disk := by
  unfold prepareSearch
  cases halloc : io.allocHeader
  · rfl
  cases hheader : readBlocks blockSize io.readHeader 1 512 disk with
  | none => rfl
  | some header =>
    obtain ⟨hread, hblocks, -⟩ := readBlocks_eq_some_iff.mp hheader
    cases hname : io.allocName
    · rfl
    · exact absurd ⟨halloc, hread, hblocks, hname⟩ h

/-- An exit before the search is taken with more turns too. -/
theorem prepareSearch_of_exit (h : prepareSearch turns blockSize io name disk = .inl lookup)
    (hends : lookup ≠ .running) (hle : turns ≤ turns') :
    prepareSearch turns' blockSize io name disk = .inl lookup := by
  rw [← h]
  by_cases hreach : ReachesConversion blockSize io
  · cases hutf8 : utf8ToUcs2 turns (cString name io.nameTail)
      (BitVec.ofNat 64 (bubStrlen name + 1)) (fun _ => 0) with
    | inl s =>
      rw [prepareSearch_eq_running hreach hutf8] at h
      exact absurd (Sum.inl.inj h).symm hends
    | inr r => exact prepareSearch_congr_turns ((DoWhile.run_of_le hutf8 hle).trans hutf8.symm)
  · exact prepareSearch_of_not_reaches hreach

/-- What the function comes to does not depend on how many turns are allowed. -/
theorem bubPartitionEntryByName_of_le
    (h : bubPartitionEntryByName turns blockSize io name disk = lookup)
    (hends : lookup ≠ .running) (hle : turns ≤ turns') :
    bubPartitionEntryByName turns' blockSize io name disk = lookup := by
  unfold bubPartitionEntryByName at h ⊢
  cases hprep : prepareSearch turns blockSize io name disk with
  | inl exit =>
    rw [hprep] at h
    obtain rfl : exit = lookup := h
    rw [prepareSearch_of_exit hprep hends hle]
  | inr input =>
    rw [hprep] at h
    rw [prepareSearch_of_le hprep hle]
    dsimp only at h ⊢
    cases hsearch : input.search turns with
    | inl c =>
      rw [hsearch] at h
      exact absurd h.symm hends
    | inr result =>
      have hsearch' : input.search turns' = .inr result := DoWhile.run_of_le hsearch hle
      rw [hsearch] at h
      rw [hsearch', ← h]

/-- The function comes to one end. -/
theorem bubPartitionEntryByName_unique
    (h : bubPartitionEntryByName turns blockSize io name disk = lookup)
    (h' : bubPartitionEntryByName turns' blockSize io name disk = lookup')
    (hends : lookup ≠ .running) (hends' : lookup' ≠ .running) : lookup = lookup' := by
  have hmax := bubPartitionEntryByName_of_le h hends (Nat.le_max_left turns turns')
  have hmax' := bubPartitionEntryByName_of_le h' hends' (Nat.le_max_right turns turns')
  exact hmax.symm.trans hmax'

/-! ## The exits -/

/-- An entry that is found is copied to the buffer, if there is one. -/
theorem FindsEntry.exists_lookup {entry : GPTEntry} (h : FindsEntry blockSize io name disk entry)
    (hcount : (headerOnDisk blockSize disk).entryCount.toNat ≤ 128) :
    ∃ turns, bubPartitionEntryByName turns blockSize io name disk =
      if io.allocEntry then .returned .success (.entry entry) else .nullCopy := by
  obtain ⟨turns, ucs2, i, hutf8, hi, hmatch, hbefore, rfl⟩ := h.found
  have hprep : prepareSearch turns blockSize io name disk
      = .inr (searchInput blockSize io name disk ucs2) :=
    prepareSearch_eq_inr_iff.mpr ⟨h.calls, h.headerBlocks, h.entriesBlocks, ucs2, hutf8, rfl⟩
  have hsearch : (searchInput blockSize io name disk ucs2).search (i + 1) = .inr (some i) :=
    CounterSearch.search_eq_some (by omega) hi hmatch hbefore
  have hprep' := prepareSearch_of_le hprep (Nat.le_max_left turns (i + 1))
  have hsearch' : (searchInput blockSize io name disk ucs2).search (max turns (i + 1))
      = .inr (some i) := DoWhile.run_of_le hsearch (Nat.le_max_right turns (i + 1))
  refine ⟨max turns (i + 1), ?_⟩
  simp only [bubPartitionEntryByName, hprep', hsearch']

/-- A search that stops at an entry has found it. -/
theorem findsEntry_of_search {i : ℕ}
    (hprep : prepareSearch turns blockSize io name disk = .inr input)
    (hsearch : input.search turns = .inr (some i)) :
    FindsEntry blockSize io name disk (input.entry i) := by
  obtain ⟨hcalls, hheader, hentries, ucs2, hutf8, rfl⟩ := prepareSearch_eq_inr_iff.mp hprep
  obtain ⟨hexamines, hmatch⟩ := CounterSearch.examines_of_search_eq_some hsearch
  obtain ⟨-, hi, hbefore⟩ := CounterSearch.examines_iff.mp hexamines
  exact ⟨hcalls, hheader, hentries, turns, ucs2, i, hutf8, hi, hmatch, hbefore, rfl⟩

/-- What the function comes to. -/
theorem lookup_cases (h : bubPartitionEntryByName turns blockSize io name disk = lookup)
    (hends : lookup ≠ .running) :
    (io.allocHeader = false ∧ lookup = .returned .notFound .untouched) ∨
    lookup = .returned .notFound .null ∨
    ∃ entry, FindsEntry blockSize io name disk entry ∧
      lookup = if io.allocEntry then .returned .success (.entry entry) else .nullCopy := by
  unfold bubPartitionEntryByName at h
  cases hprep : prepareSearch turns blockSize io name disk with
  | inl exit =>
    rw [hprep] at h
    obtain rfl : exit = lookup := h
    rcases prepareSearch_exits hprep with hfirst | ⟨-, hnull⟩ | ⟨hrunning, -⟩
    · exact .inl hfirst
    · exact .inr (.inl hnull)
    · exact absurd hrunning hends
  | inr input =>
    rw [hprep] at h
    dsimp only at h
    cases hsearch : input.search turns with
    | inl c =>
      rw [hsearch] at h
      exact absurd h.symm hends
    | inr result =>
      rw [hsearch] at h
      cases result with
      | none => exact .inr (.inl h.symm)
      | some i => exact .inr (.inr ⟨input.entry i, findsEntry_of_search hprep hsearch, h.symm⟩)

/-- A function that is still running is in the loop of its conversion or in its search. -/
theorem running_cases (h : bubPartitionEntryByName turns blockSize io name disk = .running) :
    (ReachesConversion blockSize io ∧
      ∃ s, utf8ToUcs2 turns (cString name io.nameTail) (BitVec.ofNat 64 (bubStrlen name + 1))
        (fun _ => 0) = .inl s) ∨
    ∃ input, prepareSearch turns blockSize io name disk = .inr input ∧
      ∃ i, input.search turns = .inl i := by
  unfold bubPartitionEntryByName at h
  cases hprep : prepareSearch turns blockSize io name disk with
  | inl exit =>
    rw [hprep] at h
    obtain rfl : exit = .running := h
    rcases prepareSearch_exits hprep with ⟨-, hexit⟩ | ⟨-, hexit⟩ | ⟨-, hreach, hutf8⟩
    · cases hexit
    · cases hexit
    · exact .inl ⟨hreach, hutf8⟩
  | inr input =>
    rw [hprep] at h
    dsimp only at h
    cases hsearch : input.search turns with
    | inl i => exact .inr ⟨input, rfl, i, hsearch⟩
    | inr result =>
      rw [hsearch] at h
      cases result with
      | none => cases h
      | some i =>
        dsimp only at h
        split_ifs at h

/-- A search over at most 128 entries ends. -/
theorem search_ne_inl {i : BitVec 8}
    (hprep : prepareSearch turns blockSize io name disk = .inr input)
    (hcount : (headerOnDisk blockSize disk).entryCount.toNat ≤ 128) (hturns : 129 ≤ turns) :
    input.search turns ≠ .inl i := by
  have hinput : input.gptHeader = headerOnDisk blockSize disk := by
    obtain ⟨-, -, -, ucs2, -, rfl⟩ := prepareSearch_eq_inr_iff.mp hprep
    rfl
  obtain ⟨result, hsearch⟩ : ∃ result,
      input.search (input.gptHeader.entryCount.toNat + 1) = .inr result :=
    CounterSearch.search_ends_iff.mpr (.inl (by rw [hinput]; omega))
  intro hrunning
  cases hrunning.symm.trans (DoWhile.run_of_le hsearch (by rw [hinput]; omega))

/-- The function comes to an end when the conversion does, if it is reached. -/
theorem exists_lookup_ne_running
    (hconversion : ReachesConversion blockSize io → ∃ turns r,
      utf8ToUcs2 turns (cString name io.nameTail) (BitVec.ofNat 64 (bubStrlen name + 1))
        (fun _ => 0) = .inr r)
    (hcount : (headerOnDisk blockSize disk).entryCount.toNat ≤ 128) :
    ∃ turns, bubPartitionEntryByName turns blockSize io name disk ≠ .running := by
  obtain ⟨turns, hturns⟩ : ∃ turns, ReachesConversion blockSize io → ∃ r,
      utf8ToUcs2 turns (cString name io.nameTail) (BitVec.ofNat 64 (bubStrlen name + 1))
        (fun _ => 0) = .inr r := by
    by_cases hreach : ReachesConversion blockSize io
    · obtain ⟨turns, hends⟩ := hconversion hreach
      exact ⟨turns, fun _ => hends⟩
    · exact ⟨0, fun h => absurd h hreach⟩
  -- As many turns as the conversion takes, or the search of 128 entries.
  refine ⟨max turns 129, fun hrunning => ?_⟩
  rcases running_cases hrunning with ⟨hreach, s, hs⟩ | ⟨input, hprep, i, hsearch⟩
  · obtain ⟨r, hutf8⟩ := hturns hreach
    cases hs.symm.trans (DoWhile.run_of_le hutf8 (Nat.le_max_left turns 129))
  · exact search_ne_inl hprep hcount (Nat.le_max_right turns 129) hsearch

end

/-! ## The contract -/

/-- The pointer is null where the function leaves it alone, the allocation of the entry succeeds
where there is one to copy, and the conversion ends where it is reached: the scan by lead bytes
comes to the end of the name or to a lead byte that is not taken. -/
structure FailsCleanly (blockSize : BitVec 32) (io : LookupIo) (name : List Byte) (disk : Disk)
    (callerNull : Bool) : Prop where
  header : io.allocHeader = true ∨ callerNull = true
  entry : (∃ entry, FindsEntry blockSize io name disk entry) → io.allocEntry = true
  ends : ReachesConversion blockSize io →
    ScanEnds (cString name io.nameTail) (bubStrlen name) ∨
      ScanFails (cString name io.nameTail) (bubStrlen name)

section

variable {blockSize : BitVec 32} {io : LookupIo} {name : List Byte} {disk : Disk}
  {callerNull : Bool}

/-- The conversion of a name ends when the counter has room for its length. -/
theorem conversion_ends (tail : ℕ → Byte) (h : bubStrlen name < 2 ^ 32 - 3) :
    ScanEnds (cString name tail) (bubStrlen name) ∨
      ScanFails (cString name tail) (bubStrlen name) :=
  (returns_iff (by omega) fun _ => 0).mp (exists_utf8ToUcs2_eq_inr h _)

/-- A caller whose pointer the contract makes null had a null pointer, or the function sets it. -/
theorem FailureContract.header (h : FailureContract blockSize io name disk callerNull) :
    io.allocHeader = true ∨ callerNull = true := by
  by_contra hnot
  rw [not_or, Bool.not_eq_true, Bool.not_eq_true] at hnot
  obtain ⟨halloc, hcaller⟩ := hnot
  obtain ⟨turns, status, entryBuf, hlookup, hresult⟩ := h.returns
  have hfirst : bubPartitionEntryByName turns blockSize io name disk
      = .returned .notFound .untouched := by
    unfold bubPartitionEntryByName prepareSearch
    rw [halloc]
    rfl
  obtain ⟨-, rfl⟩ := Lookup.returned.inj (hlookup.symm.trans hfirst)
  rcases hresult with ⟨entry, -, -, -, hentry⟩ | ⟨-, -, hnull⟩
  · cases hentry
  · exact absurd (hcaller.symm.trans hnull) Bool.false_ne_true

/-- An entry that is found is copied to a buffer that was allocated. -/
theorem FailureContract.entry (h : FailureContract blockSize io name disk callerNull)
    (hcount : (headerOnDisk blockSize disk).entryCount.toNat ≤ 128)
    (hfinds : ∃ entry, FindsEntry blockSize io name disk entry) : io.allocEntry = true := by
  by_contra halloc
  obtain ⟨entry, hfinds⟩ := hfinds
  obtain ⟨turns, hnull⟩ := hfinds.exists_lookup hcount
  rw [if_neg halloc] at hnull
  exact h.neverNullCopy turns hnull

/-- A function that returns has left the loop of its conversion. -/
theorem FailureContract.ends (h : FailureContract blockSize io name disk callerNull)
    (hsize : bubStrlen name + 1 < 2 ^ 64) (hreach : ReachesConversion blockSize io) :
    ScanEnds (cString name io.nameTail) (bubStrlen name) ∨
      ScanFails (cString name io.nameTail) (bubStrlen name) := by
  obtain ⟨turns, status, entryBuf, hlookup, -⟩ := h.returns
  rw [← returns_iff hsize fun _ => 0]
  cases hutf8 : utf8ToUcs2 turns (cString name io.nameTail)
    (BitVec.ofNat 64 (bubStrlen name + 1)) (fun _ => 0) with
  | inl s =>
    unfold bubPartitionEntryByName at hlookup
    rw [prepareSearch_eq_running hreach hutf8] at hlookup
    cases hlookup
  | inr r => exact ⟨turns, r, hutf8⟩

/-- A copy through a null pointer needs an entry that is found and a buffer that is missing. -/
theorem FailsCleanly.not_nullCopy (h : FailsCleanly blockSize io name disk callerNull)
    (turns : ℕ) : bubPartitionEntryByName turns blockSize io name disk ≠ .nullCopy := by
  intro hnull
  rcases lookup_cases hnull (by simp) with ⟨-, hl⟩ | hl | ⟨entry, hfinds, hl⟩
  · cases hl
  · cases hl
  · rw [if_pos (h.entry ⟨entry, hfinds⟩)] at hl
    cases hl

/-- Every exit of the lookup is one of the contract. -/
theorem FailsCleanly.failureContract (h : FailsCleanly blockSize io name disk callerNull)
    (hsize : bubStrlen name + 1 < 2 ^ 64)
    (hcount : (headerOnDisk blockSize disk).entryCount.toNat ≤ 128) :
    FailureContract blockSize io name disk callerNull := by
  obtain ⟨turns, hends⟩ := exists_lookup_ne_running
    (fun hreach => (returns_iff hsize _).mpr (h.ends hreach)) hcount
  refine ⟨?_, h.not_nullCopy⟩
  rcases lookup_cases rfl hends with ⟨halloc, hl⟩ | hl | ⟨entry, hfinds, hl⟩
  · -- Without a buffer for the header nothing is found, and the pointer is the caller's.
    refine ⟨turns, _, _, hl, .inr ⟨?_, rfl, h.header.resolve_left ?_⟩⟩
    · rintro ⟨-, entry, hfinds⟩
      rw [hfinds.calls.allocHeader] at halloc
      cases halloc
    · rw [halloc]
      exact Bool.false_ne_true
  · -- An entry that is found would be the result of a longer run.
    refine ⟨turns, _, _, hl, .inr ⟨?_, rfl, trivial⟩⟩
    rintro ⟨halloc, entry, hfinds⟩
    obtain ⟨turns', hsuccess⟩ := hfinds.exists_lookup hcount
    rw [if_pos halloc] at hsuccess
    cases bubPartitionEntryByName_unique hl hsuccess (by simp) (by simp)
  · have halloc := h.entry ⟨entry, hfinds⟩
    rw [if_pos halloc] at hl
    exact ⟨turns, _, _, hl, .inl ⟨entry, halloc, hfinds, rfl, rfl⟩⟩

end

/-- With at most 128 entries the failure contract holds exactly when the pointer that is left alone
was null, the allocation whose result is not looked at does not fail before a match, and the
conversion ends. -/
theorem failureContract_iff (blockSize : BitVec 32) (io : LookupIo) (name : List Byte) (disk : Disk)
    (callerNull : Bool) (hsize : bubStrlen name + 1 < 2 ^ 64)
    (hcount : (headerOnDisk blockSize disk).entryCount.toNat ≤ 128) :
    FailureContract blockSize io name disk callerNull ↔
      FailsCleanly blockSize io name disk callerNull := by
  constructor
  · intro h
    exact ⟨h.header, h.entry hcount, h.ends hsize⟩
  · intro h
    exact h.failureContract hsize hcount

/-- The lookup of the metadata partition, which meets the condition. -/
theorem failureContract_iff_misc :
    (FailureContract 512 .success miscPartition (twoPartitions 40 49) true ↔
        FailsCleanly 512 .success miscPartition (twoPartitions 40 49) true) ∧
      FailureContract 512 .success miscPartition (twoPartitions 40 49) true := by
  have hiff := failureContract_iff 512 .success miscPartition (twoPartitions 40 49) true (by decide)
    (by decide +kernel)
  have hclean : FailsCleanly 512 .success miscPartition (twoPartitions 40 49) true :=
    ⟨.inl rfl, fun _ => rfl, fun _ => conversion_ends _ (by decide)⟩
  exact ⟨hiff, hiff.mpr hclean⟩

/-- Without a buffer for the entry, the metadata partition is copied through a null pointer. Without
one for the header, the caller's pointer stays. -/
theorem misc_not_failureContract :
    (headerOnDisk 512 (twoPartitions 40 49)).entryCount.toNat ≤ 128 ∧
    ¬FailureContract 512 { LookupIo.success with allocEntry := false } miscPartition
      (twoPartitions 40 49) true ∧
    ¬FailureContract 512 { LookupIo.success with allocHeader := false } miscPartition
      (twoPartitions 40 49) false := by
  have hnull : bubPartitionEntryByName 7 512 { LookupIo.success with allocEntry := false }
      miscPartition (twoPartitions 40 49) = .nullCopy := by
    have hcopied : (match bubPartitionEntryByName 7 512
        { LookupIo.success with allocEntry := false } miscPartition (twoPartitions 40 49) with
      | .nullCopy => true
      | _ => false) = true := by decide +kernel
    split at hcopied
    · rename_i hlookup
      exact hlookup
    · cases hcopied
  refine ⟨by decide +kernel, fun h => h.neverNullCopy 7 hnull, fun h => ?_⟩
  rcases h.header with halloc | hcaller
  · exact Bool.false_ne_true halloc
  · exact Bool.false_ne_true hcaller

end BrilloBoot
