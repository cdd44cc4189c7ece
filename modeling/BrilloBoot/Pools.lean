import BrilloBoot.Lib.Ledger
import BrilloBoot.ReadAfterWrite

/-!
# The pools of a lookup

What the functions of `bub_boot_kernel.c` and `bub_ops_uefi.c` that look up a partition allocate and
free, exit by exit. A lookup frees what it allocates but for the entry that it returns; it frees a
null pointer when that one was not allocated (`lookup_pools`). The partition I/O frees the entry, so
that a transfer leaves no pool behind (`holds_transferPools`). The proofs go from one call to the
next by the rules of `Ledger.Holds`. The messages on the way have a pool of their own each, which
is freed before the next call, and are left out.
-/

namespace BrilloBoot

/-! ## The lookup -/

/-- The allocation of the entries that are returned, which may fail. -/
def allocEntryBuf (succeeds : Bool) (l : Ledger) : Option Ptr × Ledger :=
  if succeeds then (some l.alloc.1, l.alloc.2) else (none, l)

/-- `bub_partition_entry_by_name`, with the entry's pointer and the account of the pools. -/
def lookupWithPools (turns : ℕ) (blockSize : BitVec 32) (io : LookupIo) (partitionName : List Byte)
    (disk : Disk) (l : Ledger) : Lookup × Option Ptr × Ledger :=
  if !io.allocHeader then (.returned .notFound .untouched, none, l)
  else
    let (gptHeader, l) := l.alloc
    -- Whether the second allocation succeeded is not looked at.
    let (entryBuf, l) := allocEntryBuf io.allocEntry l
    match readBlocks blockSize io.readHeader 1 512 disk with
    | none => (.returned .notFound .null, none, (l.free gptHeader).free entryBuf)
    | some header =>
      if !io.allocName then (.returned .notFound .null, none, (l.free gptHeader).free entryBuf)
      else
        let (nameUcs2, l) := l.alloc
        let partitionNameBytes := BitVec.ofNat 64 (bubStrlen partitionName + 1)
        match utf8ToUcs2 turns (cString partitionName io.nameTail) partitionNameBytes
            fun _ => 0 with
        | .inl _ => (.running, entryBuf, l)
        | .inr (failed, ucs2) =>
          if failed ≠ 0 then
            (.returned .notFound .null, none, ((l.free gptHeader).free nameUcs2).free entryBuf)
          else match readBlocks blockSize io.readEntries 2 (entriesNumBytes blockSize) disk with
          | none =>
            (.returned .notFound .null, none, ((l.free gptHeader).free nameUcs2).free entryBuf)
          | some entries =>
            let input : SearchInput :=
              { gptHeader := .ofBytes header
                nameLength := bubStrlen partitionName
                partitionNameUcs2 := ucs2
                allGptEntries := fun a => entries.toList.getD a (io.stack a) }
            match input.search turns with
            | .inl _ => (.running, entryBuf, l)
            | .inr none =>
              (.returned .notFound .null, none, ((l.free nameUcs2).free gptHeader).free entryBuf)
            | .inr (some i) =>
              if io.allocEntry then
                (.returned .success (.entry (input.entry i)), entryBuf,
                  (l.free nameUcs2).free gptHeader)
              else (.nullCopy, none, l)

/-- What a lookup does to the pools: it holds that of the entry that it returns, or nothing. When
the entries were not allocated, it frees a null pointer. -/
def LookupPools (io : LookupIo) (l : Ledger) (r : Lookup × Option Ptr × Ledger) : Prop :=
  match r.1 with
  | .returned .success _ => ∃ pool, r.2.1 = some (Ledger.start pool) ∧
      Ledger.Holds l r.2.2 {pool} 0 0
  | .returned .notFound _ => r.2.1 = none ∧
      Ledger.Holds l r.2.2 ∅ 0 (if io.allocHeader && !io.allocEntry then 1 else 0)
  | .running => True
  | .nullCopy => True

/-- The exits that find nothing before the name is allocated. -/
theorem holds_early_exit (l : Ledger) (succeeds : Bool) :
    let (entryBuf, l₁) := allocEntryBuf succeeds l.alloc.2
    Ledger.Holds l ((l₁.free l.alloc.1).free entryBuf) ∅ 0 (if succeeds then 0 else 1) := by
  cases succeeds with
  | false =>
    have hheader : Ledger.Holds l l.alloc.2 {l.next} 0 0 := (Ledger.Holds.refl l).alloc
    exact (hheader.frees_all [l.next] (by simp) (by simp)).free_refused (p := none) (by simp)
  | true =>
    have hentry : Ledger.Holds l l.alloc.2.alloc.2 {l.next + 1, l.next} 0 0 :=
      (Ledger.Holds.refl l).alloc.alloc
    exact hentry.frees_all [l.next, l.next + 1] (by simp) (by ext; simp; tauto)

/-- The exits that find nothing after the name is allocated, with both orders of their frees. -/
theorem holds_late_exit (l : Ledger) (succeeds : Bool) :
    let (entryBuf, l₁) := allocEntryBuf succeeds l.alloc.2
    Ledger.Holds l (((l₁.alloc.2.free l.alloc.1).free l₁.alloc.1).free entryBuf) ∅ 0
        (if succeeds then 0 else 1) ∧
      Ledger.Holds l (((l₁.alloc.2.free l₁.alloc.1).free l.alloc.1).free entryBuf) ∅ 0
        (if succeeds then 0 else 1) := by
  cases succeeds with
  | false =>
    have hname : Ledger.Holds l l.alloc.2.alloc.2 {l.next + 1, l.next} 0 0 :=
      (Ledger.Holds.refl l).alloc.alloc
    have hfirst := hname.frees_all [l.next, l.next + 1] (by simp) (by ext; simp; tauto)
    have hsecond := hname.frees_all [l.next + 1, l.next] (by simp) (by ext; simp)
    exact ⟨hfirst.free_refused (p := none) (by simp), hsecond.free_refused (p := none) (by simp)⟩
  | true =>
    have hname : Ledger.Holds l l.alloc.2.alloc.2.alloc.2 {l.next + 2, l.next + 1, l.next} 0 0 :=
      (Ledger.Holds.refl l).alloc.alloc.alloc
    exact ⟨hname.frees_all [l.next, l.next + 2, l.next + 1] (by simp) (by ext; simp; tauto),
      hname.frees_all [l.next + 2, l.next, l.next + 1] (by simp) (by ext; simp; tauto)⟩

/-- The exit that returns the entry. -/
theorem holds_success (l : Ledger) :
    Ledger.Holds l ((l.alloc.2.alloc.2.alloc.2.free l.alloc.2.alloc.2.alloc.1).free l.alloc.1)
      {l.next + 1} 0 0 := by
  have hname : Ledger.Holds l l.alloc.2.alloc.2.alloc.2 {l.next + 2, l.next + 1, l.next} 0 0 :=
    (Ledger.Holds.refl l).alloc.alloc.alloc
  have hfreed := hname.frees [l.next + 2, l.next] (by simp) (by simp)
  have hentry : ({l.next + 2, l.next + 1, l.next} : Finset ℕ) \ [l.next + 2, l.next].toFinset
      = {l.next + 1} := by
    ext
    simp
    omega
  rwa [hentry] at hfreed

section

variable {turns : ℕ} {blockSize : BitVec 32} {io : LookupIo} {name : List Byte} {disk : Disk}

/-- **What a lookup does to the pools**, and that the account does not change what it finds. -/
theorem lookup_pools (l : Ledger) :
    (lookupWithPools turns blockSize io name disk l).1 =
        bubPartitionEntryByName turns blockSize io name disk ∧
      LookupPools io l (lookupWithPools turns blockSize io name disk l) := by
  have hearly := holds_early_exit l io.allocEntry
  obtain ⟨hlate, hlate'⟩ := holds_late_exit l io.allocEntry
  have hrefusals : (if true && !io.allocEntry then 1 else 0) = if io.allocEntry then 0 else 1 := by
    cases io.allocEntry <;> rfl
  unfold lookupWithPools bubPartitionEntryByName prepareSearch LookupPools
  -- The exits, in their order.
  cases halloc : io.allocHeader
  · exact ⟨rfl, rfl, Ledger.Holds.refl l⟩
  simp only [Bool.not_true, Bool.false_eq_true, if_false, hrefusals]
  generalize (if io.allocEntry = true then 0 else 1) = refusals at hearly hlate hlate' ⊢
  cases hheader : readBlocks blockSize io.readHeader 1 512 disk with
  | none => exact ⟨rfl, rfl, hearly⟩
  | some header =>
    cases hname : io.allocName
    · exact ⟨rfl, rfl, hearly⟩
    simp only [Bool.not_true, Bool.false_eq_true, if_false]
    cases hutf8 : utf8ToUcs2 turns (cString name io.nameTail)
        (BitVec.ofNat 64 (bubStrlen name + 1)) (fun _ => 0) with
    | inl s => exact ⟨rfl, trivial⟩
    | inr converted =>
      obtain ⟨failed, ucs2⟩ := converted
      dsimp only
      by_cases hfailed : failed ≠ 0
      · rw [if_pos hfailed, if_pos hfailed]
        exact ⟨rfl, rfl, hlate⟩
      rw [if_neg hfailed, if_neg hfailed]
      cases hentries : readBlocks blockSize io.readEntries 2 (entriesNumBytes blockSize) disk with
      | none => exact ⟨rfl, rfl, hlate⟩
      | some entries =>
        dsimp only
        cases hsearch : SearchInput.search _ turns with
        | inl i => exact ⟨rfl, trivial⟩
        | inr found =>
          cases found with
          | none => exact ⟨rfl, rfl, hlate'⟩
          | some i =>
            cases hentry : io.allocEntry
            · exact ⟨rfl, trivial⟩
            · exact ⟨rfl, l.next + 1, rfl, holds_success l⟩

/-- A lookup that succeeds has got its entry's buffer. -/
theorem allocEntry_of_success {entryBuf : EntryBuf}
    (h : bubPartitionEntryByName turns blockSize io name disk = .returned .success entryBuf) :
    io.allocEntry = true := by
  unfold bubPartitionEntryByName at h
  split at h
  · next lookup hprep =>
    rw [h] at hprep
    exact absurd hprep (prepareSearch_ne_success _)
  · split at h
    · cases h
    · cases h
    · split_ifs at h with halloc
      exact halloc

end

/-! ## The partition I/O -/

/-- The frees of a null pointer in a lookup that finds nothing. -/
def LookupIo.nullFrees (io : LookupIo) : ℕ := if io.allocHeader && !io.allocEntry then 1 else 0

section

variable (turns : ℕ) (blockSize : BitVec 32) (io : LookupIo) (partitionName : List Byte)
  (disk : Disk) (l : Ledger)

/-- `bub_read_from_partition` and `bub_write_to_partition`: every exit behind the lookup frees the
entry. There is no account after a lookup that does not end, or copies the entry through a null
pointer. -/
def transferPools : Option Ledger :=
  match lookupWithPools turns blockSize io partitionName disk l with
  | (.returned .success _, partitionEntry, l) => some (l.free partitionEntry)
  | (.returned .notFound _, _, l) => some l
  | (.running, _, _) => none
  | (.nullCopy, _, _) => none

/-- The lookup of `bub_boot_kernel`, which does not free the entry. -/
def lookupPools : Option Ledger :=
  match lookupWithPools turns blockSize io partitionName disk l with
  | (.returned _ _, _, l) => some l
  | (.running, _, _) => none
  | (.nullCopy, _, _) => none

end

section

variable {turns : ℕ} {blockSize : BitVec 32} {io : LookupIo} {name : List Byte} {disk : Disk}
  {l l' : Ledger}

/-- A lookup that finds its entry frees no null pointer. -/
theorem nullFrees_of_found {entry : GPTEntry}
    (h : (MyBubOps.ofDisk turns blockSize io disk).entryByName name = some entry) :
    io.nullFrees = 0 := by
  unfold MyBubOps.ofDisk at h
  dsimp only at h
  split at h
  · next hlookup => simp [LookupIo.nullFrees, allocEntry_of_success hlookup]
  · cases h

/-- **A transfer leaves no pool behind.** -/
theorem holds_transferPools (h : transferPools turns blockSize io name disk l = some l') :
    Ledger.Holds l l' ∅ 0 io.nullFrees := by
  obtain ⟨hlookup, hpools⟩ := @lookup_pools turns blockSize io name disk l
  unfold transferPools at h
  unfold LookupPools at hpools
  generalize lookupWithPools turns blockSize io name disk l = r at h hlookup hpools
  obtain ⟨lookup, entry, l₁⟩ := r
  cases lookup with
  | running => cases h
  | nullCopy => cases h
  | returned status entryBuf =>
    cases status with
    | notFound =>
      obtain rfl := Option.some.inj h
      exact hpools.2
    | success =>
      obtain ⟨pool, rfl, hheld⟩ := hpools
      obtain rfl := Option.some.inj h
      have hfrees : io.nullFrees = 0 := by
        simp [LookupIo.nullFrees, allocEntry_of_success hlookup.symm]
      have hfreed := hheld.free (Finset.mem_singleton_self pool)
      rw [Finset.erase_singleton] at hfreed
      rw [hfrees]
      exact hfreed

/-- The lookup of `bub_boot_kernel` leaves the entry that it finds behind. -/
theorem holds_lookupPools {entry : GPTEntry}
    (h : lookupPools turns blockSize io name disk l = some l')
    (hfound : (MyBubOps.ofDisk turns blockSize io disk).entryByName name = some entry) :
    Ledger.Holds l l' ∅ 1 0 := by
  obtain ⟨hlookup, hpools⟩ := @lookup_pools turns blockSize io name disk l
  unfold MyBubOps.ofDisk at hfound
  dsimp only at hfound
  rw [← hlookup] at hfound
  unfold lookupPools at h
  unfold LookupPools at hpools
  generalize lookupWithPools turns blockSize io name disk l = r at h hfound hpools
  obtain ⟨lookup, entry, l₁⟩ := r
  cases lookup with
  | running => cases h
  | nullCopy => cases h
  | returned status entryBuf =>
    cases status with
    | notFound => cases hfound
    | success =>
      obtain ⟨pool, -, hheld⟩ := hpools
      obtain rfl := Option.some.inj h
      have hlost := hheld.lose (Finset.mem_singleton_self pool)
      rwa [Finset.erase_singleton] at hlost

end

end BrilloBoot
