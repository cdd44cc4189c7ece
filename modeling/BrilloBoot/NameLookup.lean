import BrilloBoot.GptSearch
import BrilloBoot.Metadata
import BrilloBoot.Utf8Soundness
import Mathlib.Data.List.TakeWhile

/-!
# Looking up a name

The search compares as many units as the name has bytes in UTF-8, which are more than it has units
when it is not ASCII. Behind the 36 units of an entry's name it looks at the next entry. A name of
up to 36 bytes is found where it stands in the table; a longer one only if the memory behind it is
clear (`looksUpName_iff`).
-/

namespace BrilloBoot

open Utf8 (Basic encode)

/-- The name ends before the last of its 36 units, and behind its end there are only zeros. -/
def GPTEntry.NamePadded (entry : GPTEntry) : Prop :=
  ∃ n : ℕ, n < 36 ∧ ∀ k : Fin 36, entry.name k = 0 ↔ n ≤ (k : ℕ)

/-- The name of the entry is the text in units of 16 bits. -/
def GPTEntry.Named (entry : GPTEntry) (text : List Char) : Prop :=
  text.length < 36 ∧ ∀ k : Fin 36, entry.name k = unitsOver text (fun _ => 0) k

/-- What the search for a text works on. -/
def textInput (blockSize : BitVec 32) (io : LookupIo) (text : List Char) (disk : Disk) :
    SearchInput := searchInput blockSize io (encode text) disk (unitsOver text fun _ => 0)

/-! ## The comparison -/

section

variable {input : SearchInput} {text : List Char} {f g : ℕ → BitVec 16} {i n : ℕ}

/-- The name of an entry, unit by unit. -/
theorem name_entry (k : Fin 36) : (input.entry i).name k = input.entryName i k := by
  have hunit : (((List.range 128).map fun k => input.allGptEntries (128 * i + k)).drop
      (56 + 2 * (k : ℕ))).take 2 = [input.allGptEntries (128 * i + 56 + 2 * k),
        input.allGptEntries (128 * i + 56 + 2 * k + 1)] := by
    apply List.ext_getElem
    · simp
      omega
    · intro j hj hj'
      have hcases : j = 0 ∨ j = 1 := by
        simp at hj'
        omega
      rcases hcases with rfl | rfl <;> simp [Nat.add_assoc]
  unfold SearchInput.entry GPTEntry.ofBytes SearchInput.entryName Bytes.sub
  exact congrArg (leWord 16) hunit

/-- What the length of a string says of its units. -/
theorem strLenIs_eq_true_iff : strLenIs f n = true ↔ (∀ k, k < n → f k ≠ 0) ∧ f n = 0 := by
  unfold strLenIs
  simp

/-- The bytes of units determine the units. -/
theorem unitBytes_eq_iff : ((List.range n).flatMap fun k => leBytes 2 (f k))
    = ((List.range n).flatMap fun k => leBytes 2 (g k)) ↔ ∀ k, k < n → f k = g k := by
  induction n with
  | zero => exact iff_of_true rfl fun k hk => absurd hk (Nat.not_lt_zero k)
  | succ n ih =>
    rw [List.range_succ, List.flatMap_append, List.flatMap_append, List.flatMap_singleton,
      List.flatMap_singleton]
    constructor
    · intro h k hk
      obtain ⟨hfront, hlast⟩ := List.append_inj' h (by simp)
      rcases Nat.lt_succ_iff_lt_or_eq.mp hk with hlt | rfl
      · exact ih.mp hfront k hlt
      · exact leBytes_injective rfl hlast
    · intro h
      rw [ih.mpr fun k hk => h k (Nat.lt_succ_of_lt hk), h n (Nat.lt_succ_self n)]

/-- Comparing the bytes of units compares the units. -/
theorem bubMemcmp_units :
    bubMemcmp ((List.range n).flatMap fun k => leBytes 2 (f k))
      ((List.range n).flatMap fun k => leBytes 2 (g k)) (2 * n) = 0 ↔ ∀ k, k < n → f k = g k := by
  have hlen : ∀ h : ℕ → BitVec 16,
      ((List.range n).flatMap fun k => leBytes 2 (h k)).length = 2 * n := by
    intro h
    simp [List.length_flatMap, Nat.mul_comm]
  rw [bubMemcmp_eq_zero_iff (hlen f).ge (hlen g).ge, List.take_of_length_le (hlen f).le,
    List.take_of_length_le (hlen g).le, unitBytes_eq_iff]

/-- `StrLen` of a text without null characters. -/
theorem strLen_unitsOver (htext : ∀ c ∈ text, Basic c ∧ c.toNat ≠ 0) (hn : text.length ≤ n) :
    strLen (unitsOver text fun _ => 0) (n + 1) = some text.length := by
  have hend : unitsOver text (fun _ => 0) text.length = 0 := unitsOver_of_le (Nat.le_refl _)
  have hunits : ∀ k, k < text.length → unitsOver text (fun _ => 0) k ≠ 0 := by
    intro k hk
    obtain ⟨hbasic, hc⟩ := htext _ (List.getElem_mem hk)
    rw [unitsOver_of_lt hk]
    exact Utf8.unit_ne_zero hbasic hc
  unfold strLen
  rw [List.find?_range_eq_some]
  refine ⟨decide_eq_true hend, List.mem_range.mpr (Nat.lt_succ_of_le hn), fun j hj => ?_⟩
  simpa using hunits j hj

/-- The length of a text is that of its encoding. -/
theorem bubStrlen_encode (htext : ∀ c ∈ text, Basic c ∧ c.toNat ≠ 0) :
    bubStrlen (encode text) = (encode text).length := by
  unfold bubStrlen
  rw [List.takeWhile_eq_self_iff.mpr]
  intro b hb
  obtain ⟨c, hc, hmem⟩ := List.mem_flatMap.mp hb
  obtain ⟨hbasic, hnul⟩ := htext c hc
  have hne := (Utf8.shape_encodeChar hbasic).ne_zero (Utf8.unit_ne_zero hbasic hnul) b hmem
  exact decide_eq_true hne

/-- What the search compares: the terminators, and as many units as the text has bytes. -/
theorem isMatch_eq_true_iff (htext : ∀ c ∈ text, Basic c ∧ c.toNat ≠ 0)
    (hlength : input.nameLength = (encode text).length)
    (hucs2 : input.partitionNameUcs2 = unitsOver text fun _ => 0) :
    input.isMatch i = true ↔
      ((∀ k, k < text.length → input.entryName i k ≠ 0) ∧ input.entryName i text.length = 0) ∧
        ∀ k, k < (encode text).length → input.entryName i k = unitsOver text (fun _ => 0) k := by
  unfold SearchInput.isMatch
  rw [hlength, hucs2, strLen_unitsOver htext (Utf8.length_le_length_encode text)]
  simp only [Bool.and_eq_true, decide_eq_true_eq, strLenIs_eq_true_iff, bubMemcmp_units]

/-- An entry matches when it has the name and the memory behind the units of its name is clear, as
far as the search looks. -/
theorem isMatch_iff (htext : ∀ c ∈ text, Basic c ∧ c.toNat ≠ 0)
    (hlength : input.nameLength = (encode text).length)
    (hucs2 : input.partitionNameUcs2 = unitsOver text fun _ => 0)
    (hpadded : (input.entry i).NamePadded) :
    input.isMatch i = true ↔ (input.entry i).Named text ∧
      ∀ k, 36 ≤ k → k < (encode text).length → input.entryName i k = 0 := by
  have hcount := Utf8.length_le_length_encode text
  obtain ⟨n, hn, hzero⟩ := hpadded
  have hname : ∀ k, k < 36 → (input.entryName i k = 0 ↔ n ≤ k) := by
    intro k hk
    rw [← hzero ⟨k, hk⟩, name_entry]
  rw [isMatch_eq_true_iff htext hlength hucs2]
  constructor
  · rintro ⟨⟨hunits, hend⟩, heq⟩
    -- The terminator of the entry's name is that of the text.
    have hshort : text.length = n := by
      have hle : text.length ≤ n := by
        by_contra hlt
        exact hunits n (by omega) ((hname n hn).mpr (Nat.le_refl n))
      exact Nat.le_antisymm hle ((hname text.length (by omega)).mp hend)
    refine ⟨⟨by omega, fun k => ?_⟩, fun k hk hlt => ?_⟩
    · rw [name_entry]
      rcases Nat.lt_or_ge (k : ℕ) (encode text).length with hk | hk
      · exact heq k hk
      · rw [unitsOver_of_le (hcount.trans hk), hname k k.isLt]
        omega
    · rw [heq k hlt, unitsOver_of_le (by omega)]
  · rintro ⟨⟨hshort, hnamed⟩, hclear⟩
    have hunit : ∀ k, k < 36 → input.entryName i k = unitsOver text (fun _ => 0) k := by
      intro k hk
      rw [← hnamed ⟨k, hk⟩, name_entry]
    refine ⟨⟨fun k hk => ?_, ?_⟩, fun k hk => ?_⟩
    · obtain ⟨hbasic, hc⟩ := htext _ (List.getElem_mem hk)
      rw [hunit k (by omega), unitsOver_of_lt hk]
      exact Utf8.unit_ne_zero hbasic hc
    · rw [hunit _ hshort, unitsOver_of_le (Nat.le_refl _)]
    · rcases Nat.lt_or_ge k 36 with hlt | hge
      · exact hunit k hlt
      · rw [hclear k hge hk, unitsOver_of_le (by omega)]

end

/-! ## The search -/

section

variable {turns : ℕ} {blockSize : BitVec 32} {io : LookupIo} {name : List Byte} {disk : Disk}
  {input : SearchInput} {text : List Char} {e : GPTEntry}

/-- A search with fewer entries than its counter can count returns the first match. -/
theorem returns_success_iff (hprep : prepareSearch turns blockSize io name disk = .inr input)
    (halloc : io.allocEntry = true) (hcount : input.gptHeader.entryCount.toNat < 256) :
    (∃ turns, bubPartitionEntryByName turns blockSize io name disk
        = .returned .success (.entry e)) ↔
      ∃ i, i < input.gptHeader.entryCount.toNat ∧ input.isMatch i = true ∧
        (∀ j, j < i → input.isMatch j = false) ∧ e = input.entry i := by
  constructor
  · rintro ⟨turns', h⟩
    obtain ⟨-, input', i, hprep', hsearch, rfl⟩ := bubPartitionEntryByName_eq_success_iff.mp h
    obtain rfl := prepareSearch_unique hprep hprep'
    obtain ⟨hexamines, hmatch⟩ := CounterSearch.examines_of_search_eq_some hsearch
    obtain ⟨-, hi, hbefore⟩ := CounterSearch.examines_iff.mp hexamines
    exact ⟨i, hi, hmatch, hbefore, rfl⟩
  · rintro ⟨i, hi, hmatch, hbefore, rfl⟩
    have hsearch : input.search (i + 1) = .inr (some i) :=
      CounterSearch.search_eq_some (by omega) hi hmatch hbefore
    refine ⟨max turns (i + 1), bubPartitionEntryByName_eq_success_iff.mpr ⟨halloc, input, i,
      prepareSearch_of_le hprep (Nat.le_max_left _ _), ?_, rfl⟩⟩
    exact DoWhile.run_of_le hsearch (Nat.le_max_right _ _)

/-- Whole blocks of entries are read when the header is whole blocks. -/
theorem entriesNumBytes_mod (h : 512 % blockSize.toNat = 0) :
    entriesNumBytes blockSize % blockSize.toNat = 0 := by
  have hle : blockSize.toNat ≤ 512 := Nat.le_of_dvd (by decide) (Nat.dvd_of_mod_eq_zero h)
  have h32 : (32 : BitVec 32).toNat = 32 := rfl
  have hsmall : blockSize.toNat * 32 < 2 ^ 32 := by omega
  rw [entriesNumBytes, BitVec.toNat_mul, h32, Nat.mod_eq_of_lt hsmall, Nat.mul_mod_right]

/-- The search for a text is reached. -/
theorem exists_prepareSearch_encode (disk : Disk) (htext : ∀ c ∈ text, Basic c ∧ c.toNat ≠ 0)
    (hlen : (encode text).length < 2 ^ 32) (hio : io.Reaches)
    (hblocks : 512 % blockSize.toNat = 0) :
    ∃ turns, prepareSearch turns blockSize io (encode text) disk
      = .inr (textInput blockSize io text disk) := by
  obtain ⟨turns, r, hrun⟩ := exists_utf8ToUcs2_encode hlen io.nameTail fun _ => 0
  refine ⟨turns, prepareSearch_eq_inr_iff.mpr
    ⟨hio, hblocks, entriesNumBytes_mod hblocks, unitsOver text fun _ => 0, ?_, rfl⟩⟩
  rw [bubStrlen_encode htext]
  rcases result_of_utf8ToUcs2_encode hlen rfl hrun with ⟨-, rfl⟩ | ⟨⟨c, hc, hnot⟩, -⟩
  · exact hrun
  · exact absurd (htext c hc).1 hnot

/-- A name that is too long for the counter does not convert. -/
theorem length_lt_of_prepareSearch (htext : ∀ c ∈ text, Basic c ∧ c.toNat ≠ 0)
    (hsize : (encode text).length + 1 < 2 ^ 64)
    (hprep : prepareSearch turns blockSize io (encode text) disk = .inr input) :
    (encode text).length < 2 ^ 32 := by
  obtain ⟨-, -, -, ucs2, hrun, -⟩ := prepareSearch_eq_inr_iff.mp hprep
  rw [bubStrlen_encode htext] at hrun
  exact length_lt_of_scanEnds ((converts_iff hsize).mp ⟨ucs2, turns, hrun⟩)

end

/-- The lookup of a text succeeds exactly when an entry of the table has the name, and returns the
first such entry. -/
structure LooksUpName (blockSize : BitVec 32) (io : LookupIo) (text : List Char) (disk : Disk)
    (input : SearchInput) : Prop where
  found_iff : (∃ turns e, bubPartitionEntryByName turns blockSize io (encode text) disk
      = .returned .success (.entry e)) ↔
    ∃ i, i < input.gptHeader.entryCount.toNat ∧ (input.entry i).Named text
  first : ∀ turns e, bubPartitionEntryByName turns blockSize io (encode text) disk
      = .returned .success (.entry e) →
    ∃ i, input.search turns = .inr (some i) ∧ i < input.gptHeader.entryCount.toNat ∧
      (input.entry i).Named text ∧ (∀ j, j < i → ¬(input.entry j).Named text) ∧ e = input.entry i

section

variable {turns : ℕ} {blockSize : BitVec 32} {io : LookupIo} {text : List Char} {disk : Disk}
  {input : SearchInput} {P : ℕ → Prop}

/-- Among the entries of a name there is a first one. -/
theorem exists_first_named {i : ℕ} (h : (input.entry i).Named text) :
    ∃ m, m ≤ i ∧ (input.entry m).Named text ∧ ∀ j, j < m → ¬(input.entry j).Named text := by
  classical
  have hex : ∃ m, (input.entry m).Named text := ⟨i, h⟩
  exact ⟨Nat.find hex, Nat.find_min' hex h, Nat.find_spec hex, fun j hj => Nat.find_min hex hj⟩

/-- The first entry of a name matches when it is clear behind its name. -/
theorem exists_match_of_named {i : ℕ}
    (hmatch : ∀ i, i < input.gptHeader.entryCount.toNat →
      (input.isMatch i = true ↔ (input.entry i).Named text ∧ P i))
    (hclear : ∀ i, i < input.gptHeader.entryCount.toNat → (input.entry i).Named text →
      (∀ j, j < i → ¬(input.entry j).Named text) → P i)
    (hi : i < input.gptHeader.entryCount.toNat) (hnamed : (input.entry i).Named text) :
    ∃ m, m ≤ i ∧ input.isMatch m = true ∧ ∀ j, j < m → ¬(input.entry j).Named text := by
  obtain ⟨m, hm, hnamed', hfirst⟩ := exists_first_named hnamed
  have hlt := Nat.lt_of_le_of_lt hm hi
  exact ⟨m, hm, (hmatch m hlt).mpr ⟨hnamed', hclear m hlt hnamed' hfirst⟩, hfirst⟩

/-- Where a match is an entry of the name that is clear behind it, the lookup is right when the
first entry of the name is clear. -/
theorem looksUpName_iff_of_match
    (hprep : prepareSearch turns blockSize io (encode text) disk = .inr input)
    (halloc : io.allocEntry = true) (hcount : input.gptHeader.entryCount.toNat < 256)
    (hmatch : ∀ i, i < input.gptHeader.entryCount.toNat →
      (input.isMatch i = true ↔ (input.entry i).Named text ∧ P i)) :
    LooksUpName blockSize io text disk input ↔
      ∀ i, i < input.gptHeader.entryCount.toNat → (input.entry i).Named text →
        (∀ j, j < i → ¬(input.entry j).Named text) → P i := by
  have hnotMatch : ∀ i j, i < input.gptHeader.entryCount.toNat → j < i →
      ¬(input.entry j).Named text → input.isMatch j = false := by
    intro i j hi hj hnot
    by_contra h
    exact hnot ((hmatch j (by omega)).mp (Bool.of_not_eq_false h)).1
  constructor
  · intro h i hi hnamed hfirst
    obtain ⟨turns', e, hsuccess⟩ := h.found_iff.mpr ⟨i, hi, hnamed⟩
    obtain ⟨i', hsearch, hi', hnamed', hfirst', -⟩ := h.first turns' e hsuccess
    obtain rfl : i = i' := by
      rcases Nat.lt_trichotomy i i' with hlt | heq | hlt
      · exact absurd hnamed (hfirst' i hlt)
      · exact heq
      · exact absurd hnamed' (hfirst i' hlt)
    have hfound := (CounterSearch.examines_of_search_eq_some hsearch).2
    exact ((hmatch i hi).mp hfound).2
  · intro h
    refine ⟨⟨?_, ?_⟩, ?_⟩
    · rintro ⟨turns', e, hsuccess⟩
      obtain ⟨i, hi, hfound, -⟩ :=
        (returns_success_iff hprep halloc hcount).mp ⟨turns', hsuccess⟩
      exact ⟨i, hi, ((hmatch i hi).mp hfound).1⟩
    · rintro ⟨i, hi, hnamed⟩
      obtain ⟨m, hm, hfound, hfirst⟩ := exists_match_of_named hmatch h hi hnamed
      have hlt := Nat.lt_of_le_of_lt hm hi
      obtain ⟨turns', hsuccess⟩ := (returns_success_iff hprep halloc hcount).mpr
        ⟨m, hlt, hfound, fun j hj => hnotMatch m j hlt hj (hfirst j hj), rfl⟩
      exact ⟨turns', input.entry m, hsuccess⟩
    · intro turns' e hsuccess
      obtain ⟨-, input', i, hprep', hsearch, rfl⟩ :=
        bubPartitionEntryByName_eq_success_iff.mp hsuccess
      obtain rfl := prepareSearch_unique hprep hprep'
      obtain ⟨hexamines, hfound⟩ := CounterSearch.examines_of_search_eq_some hsearch
      obtain ⟨-, hi, hbefore⟩ := CounterSearch.examines_iff.mp hexamines
      refine ⟨i, hsearch, hi, ((hmatch i hi).mp hfound).1, fun j hj hnamed => ?_, rfl⟩
      -- The first entry of the name would have stopped the search.
      obtain ⟨m, hm, hfound', -⟩ := exists_match_of_named hmatch h (by omega) hnamed
      rw [hbefore m (by omega)] at hfound'
      cases hfound'

end

/-! ## A name of 39 bytes -/

/-- A table whose first entry has the name, and whose second entry has a type and no name. -/
def namedDisk (name : List Char) : Disk :=
  ((tableDisk 2).write 1080 (name.flatMap fun c => leBytes 2 (Utf8.unit c))).write 1152
    (List.replicate 16 0xFF)

/-- Thirteen euro signs: 13 units, 39 bytes in UTF-8. -/
def euroName : List Char := List.replicate 13 (Char.ofNat 0x20AC)

/-- The table with that name. -/
def euroDisk : Disk := namedDisk euroName

/-- The name of the partition of the metadata. -/
def miscName : List Char := ['m', 'i', 's', 'c']

/-- The array holds the table. -/
theorem entryName_namedDisk (name text : List Char) {i k : ℕ} (hi : i < 2) (hk : k < 64) :
    (textInput 512 .success text (namedDisk name)).entryName i k
      = leWord 16 [namedDisk name (1024 + (128 * i + 56 + 2 * k)),
        namedDisk name (1024 + (128 * i + 56 + 2 * k + 1))] := by
  have hbytes : entriesNumBytes 512 = 16384 := rfl
  have hstart : 2 * (512 : BitVec 32).toNat = 1024 := rfl
  unfold textInput searchInput SearchInput.entryName
  simp only [Disk.getD_read, hbytes, hstart]
  rw [if_pos (by omega), if_pos (by omega)]

/-- The header of that disk. -/
theorem gptHeader_namedDisk (name text : List Char) :
    (textInput 512 .success text (namedDisk name)).gptHeader = tableHeader 2 := by
  apply gptHeader_searchInput
  have hstart : (512 : BitVec 32).toNat = 512 := rfl
  have hself := Disk.read_write_self default 512 (tableHeader 2).toBytes.toList
  rw [Bytes.length_toList] at hself
  unfold namedDisk
  rw [hstart, Disk.read_write_of_apart _ _ (.inl (by decide)),
    Disk.read_write_of_apart _ _ (.inl (by decide))]
  exact hself

/-- The names of the entries, for the two names that are looked up here. -/
theorem name_namedDisk {name : List Char} (hname : name = euroName ∨ name = miscName)
    (text : List Char) (k : Fin 36) :
    ((textInput 512 .success text (namedDisk name)).entry 0).name k
      = unitsOver name (fun _ => 0) k ∧
    ((textInput 512 .success text (namedDisk name)).entry 1).name k = 0 := by
  rw [name_entry, name_entry, entryName_namedDisk name text (by decide) (by omega),
    entryName_namedDisk name text (by decide) (by omega)]
  rcases hname with rfl | rfl
  · revert k
    decide +kernel
  · revert k
    decide +kernel

/-- The names of its entries are padded. -/
theorem namePadded_namedDisk {name : List Char} (hname : name = euroName ∨ name = miscName)
    (text : List Char) {i : ℕ} (hi : i < 2) :
    ((textInput 512 .success text (namedDisk name)).entry i).NamePadded := by
  have hunits := name_namedDisk hname text
  have hcases : i = 0 ∨ i = 1 := by omega
  rcases hcases with rfl | rfl
  · rcases hname with rfl | rfl
    · refine ⟨13, by decide, fun k => ?_⟩
      rw [(hunits k).1]
      revert k
      decide
    · refine ⟨4, by decide, fun k => ?_⟩
      rw [(hunits k).1]
      revert k
      decide
  · exact ⟨0, by decide, fun k => iff_of_true (hunits k).2 (Nat.zero_le _)⟩

/-! ## Exactness -/

/-- With at most 128 entries whose names are padded, the lookup of a text is right exactly when the
memory behind the units of the first entry that has the name is clear, as far as the name has more
bytes than an entry has units. -/
theorem looksUpName_iff (blockSize : BitVec 32) (io : LookupIo) (text : List Char) (disk : Disk)
    (htext : ∀ c ∈ text, c.toNat ≤ 0xFFFF ∧ c.toNat ≠ 0)
    (hsize : (encode text).length + 1 < 2 ^ 64) (hio : io.Reaches) (halloc : io.allocEntry = true)
    (hblocks : 512 % blockSize.toNat = 0)
    (hcount : (textInput blockSize io text disk).gptHeader.entryCount.toNat ≤ 128)
    (hpadded : ∀ i, i < (textInput blockSize io text disk).gptHeader.entryCount.toNat →
      ((textInput blockSize io text disk).entry i).NamePadded) :
    LooksUpName blockSize io text disk (textInput blockSize io text disk) ↔
      ∀ i, i < (textInput blockSize io text disk).gptHeader.entryCount.toNat →
        ((textInput blockSize io text disk).entry i).Named text →
        (∀ j, j < i → ¬((textInput blockSize io text disk).entry j).Named text) →
        ∀ k, 36 ≤ k → k < (encode text).length →
          (textInput blockSize io text disk).entryName i k = 0 := by
  by_cases hlen : (encode text).length < 2 ^ 32
  · obtain ⟨turns, hprep⟩ := exists_prepareSearch_encode disk htext hlen hio hblocks
    exact looksUpName_iff_of_match hprep halloc (by omega) fun i hi =>
      isMatch_iff htext (bubStrlen_encode htext) rfl (hpadded i hi)
  · -- No entry has the name, and it does not convert.
    have hbytes := Utf8.length_encode_le fun c hc => (htext c hc).1
    have hnot : ∀ i, ¬((textInput blockSize io text disk).entry i).Named text := by
      intro i hnamed
      have hshort := hnamed.1
      omega
    have hfails : ∀ turns e, bubPartitionEntryByName turns blockSize io (encode text) disk
        ≠ .returned .success (.entry e) := by
      intro turns e hsuccess
      obtain ⟨-, input, i, hprep, -⟩ := bubPartitionEntryByName_eq_success_iff.mp hsuccess
      exact hlen (length_lt_of_prepareSearch htext hsize hprep)
    refine iff_of_true ⟨iff_of_false ?_ ?_, ?_⟩ fun i _ hnamed => absurd hnamed (hnot i)
    · rintro ⟨turns, e, hsuccess⟩
      exact hfails turns e hsuccess
    · rintro ⟨i, -, hnamed⟩
      exact hnot i hnamed
    · intro turns e hsuccess
      exact absurd hsuccess (hfails turns e)

/-- The name of the metadata partition, in a table that has it. -/
theorem looksUpName_iff_misc :
    LooksUpName 512 .success miscName (namedDisk miscName)
        (textInput 512 .success miscName (namedDisk miscName)) ↔
      ∀ i, i < (textInput 512 .success miscName (namedDisk miscName)).gptHeader.entryCount.toNat →
        ((textInput 512 .success miscName (namedDisk miscName)).entry i).Named miscName →
        (∀ j, j < i →
          ¬((textInput 512 .success miscName (namedDisk miscName)).entry j).Named miscName) →
        ∀ k, 36 ≤ k → k < (encode miscName).length →
          (textInput 512 .success miscName (namedDisk miscName)).entryName i k = 0 := by
  have hcount :
      (textInput 512 .success miscName (namedDisk miscName)).gptHeader.entryCount.toNat = 2 := by
    rw [gptHeader_namedDisk]
    rfl
  have hbasic : ∀ c ∈ miscName, Basic c ∧ c.toNat ≠ 0 := by
    simp only [miscName, List.forall_mem_cons, List.not_mem_nil, false_imp_iff, implies_true,
      and_true]
    decide
  exact looksUpName_iff 512 .success miscName (namedDisk miscName) hbasic (by decide)
    ⟨rfl, rfl, rfl, rfl⟩ rfl (by decide) (by omega)
    fun i hi => namePadded_namedDisk (.inr rfl) _ (by omega)

/-- The entry of the thirteen euro signs is not found: the entry behind it has a type. -/
theorem euroName_not_looksUpName :
    validateGpt (bubCrc32 0) (tableHeader 2) = .success ∧
      (textInput 512 .success euroName euroDisk).gptHeader = tableHeader 2 ∧
      (∀ i, i < 2 → ((textInput 512 .success euroName euroDisk).entry i).NamePadded) ∧
      ((textInput 512 .success euroName euroDisk).entry 0).Named euroName ∧
      ¬LooksUpName 512 .success euroName euroDisk (textInput 512 .success euroName euroDisk) := by
  have hbasic : ∀ c ∈ euroName, Basic c ∧ c.toNat ≠ 0 := by
    intro c hc
    rw [List.eq_of_mem_replicate hc]
    decide
  have hlen : (encode euroName).length = 39 := by decide
  have hcount : (textInput 512 .success euroName euroDisk).gptHeader.entryCount.toNat = 2 := by
    rw [euroDisk, gptHeader_namedDisk]
    rfl
  have hnamed : ((textInput 512 .success euroName euroDisk).entry 0).Named euroName :=
    ⟨by decide, fun k => (name_namedDisk (.inl rfl) euroName k).1⟩
  refine ⟨by decide +kernel, gptHeader_namedDisk _ _,
    fun i hi => namePadded_namedDisk (.inl rfl) _ hi, hnamed, fun h => ?_⟩
  obtain ⟨turns, hprep⟩ : ∃ turns, prepareSearch turns 512 .success (encode euroName) euroDisk
      = .inr (textInput 512 .success euroName euroDisk) :=
    exists_prepareSearch_encode euroDisk hbasic (by omega) ⟨rfl, rfl, rfl, rfl⟩ (by decide)
  have hmatch : ∀ i, i < (textInput 512 .success euroName euroDisk).gptHeader.entryCount.toNat →
      ((textInput 512 .success euroName euroDisk).isMatch i = true ↔
        ((textInput 512 .success euroName euroDisk).entry i).Named euroName ∧ ∀ k, 36 ≤ k →
          k < (encode euroName).length →
            (textInput 512 .success euroName euroDisk).entryName i k = 0) := fun i hi =>
    isMatch_iff hbasic (bubStrlen_encode hbasic) rfl (namePadded_namedDisk (.inl rfl) _ (by omega))
  -- If it looked up the name, the unit behind that of the entry would have to be zero.
  have hclear := (looksUpName_iff_of_match hprep rfl (by omega) hmatch).mp h 0 (by omega) hnamed
    (fun j hj => absurd hj (Nat.not_lt_zero j)) 36 (Nat.le_refl _) (by omega)
  rw [euroDisk, entryName_namedDisk euroName euroName (by decide) (by decide)] at hclear
  exact absurd hclear (by decide +kernel)

end BrilloBoot
