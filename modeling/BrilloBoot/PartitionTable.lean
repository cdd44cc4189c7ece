import BrilloBoot.PowerCycles
import BrilloBoot.ReadAfterWrite

/-!
# The boot loader over the partition table

The partition I/O searches the table on the disk at every call, and the A/B flow writes to the disk
in between. Here the boot loop is run so: `find` says what the search by name finds on a disk. On a
device whose `misc` partition is apart from the table, every history is that of the device on which
the search is a function of the name alone (`history_over_table`), which the rest of the development
is about.
-/

namespace BrilloBoot

/-- The operations that `bub_init` installs, which search the disk that they are called on. -/
def tableOps (find : Disk → MyBubOps) (io : DiskIo) : BubOps Disk where
  readFromPartition partition offset numBytes disk :=
    bubReadFromPartition (find disk) io partition offset numBytes disk
  writeToPartition partition buf offset disk :=
    bubWriteToPartition (find disk) io partition buf offset disk

/-- One turn of the loop of `efi_main` over these operations. -/
def efiMainTurnOverTable (find : Disk → MyBubOps) (io : TurnIo) (s : MainState) :
    MainState ⊕ MainEnd :=
  let (abResult, slotSuffix, disk) := bubAbFlow (tableOps find io.abFlow) s.slotSuffix s.disk
  if abResult ≠ .ok then .inr ⟨.aborted "Could not choose A/B slot.\n", none, disk⟩
  else
    let bootName := s.bootName.take 4 ++ slotSuffix.take 3 ++ s.bootName.drop 7
    -- `bub_boot_kernel` does not write.
    match bubBootKernel (find disk) io.boot (bootName.takeWhile (· ≠ 0)) disk with
    | none => .inr ⟨.fault, none, disk⟩
    | some (bootResult, started) =>
      if bootResult = .errorPartitionInvalidFormat then
        let (marked, disk) := bubAbMarkAsInvalid (tableOps find io.mark) slotSuffix disk
        if marked ≠ 0 then .inr ⟨.aborted "Could not mark slot invalid.", none, disk⟩
        else .inl ⟨slotSuffix, bootName, disk⟩
      else if bootResult ≠ .ok then .inr ⟨.aborted "Error loading kernel.\n", none, disk⟩
      else .inr ⟨.returned, started, disk⟩

/-- `efi_main` over the table: `find k` is what the search finds in turn `k`. -/
def efiMainOverTable (init : Bool) (find : ℕ → Disk → MyBubOps) (io : ℕ → TurnIo) (disk : Disk)
    (turns : ℕ) : MainState ⊕ MainEnd :=
  if init then
    DoWhile.run (fun k => efiMainTurnOverTable (find k) (io k))
      ⟨[0, 0, 0], ascii ['b', 'o', 'o', 't'] ++ [0, 0, 0], disk⟩ turns
  else .inr ⟨.aborted "Could not initialize Brillo Uefi object.", none, disk⟩

/-- A power-on over the table. -/
def powerCycleOverTable (find : PowerOn → ℕ → Disk → MyBubOps) (c : PowerOn) (disk : Disk) :
    (MainState ⊕ MainEnd) × Disk :=
  let r := efiMainOverTable c.init (find c) c.io disk c.turns
  (r, diskOf r)

/-! ## The searches of one call -/

/-- Two objects of `bub_init` that cannot be told apart by the I/O on one partition. -/
def MyBubOps.SameAt (bub bub' : MyBubOps) (name : List Byte) : Prop :=
  bub.blockSize = bub'.blockSize ∧ bub.entryByName name = bub'.entryByName name

section

variable {bub bub' : MyBubOps} {name : List Byte}

/-- They read the partition alike. -/
theorem bubReadFromPartition_congr (h : bub.SameAt bub' name) (io : DiskIo) :
    bubReadFromPartition bub io name = bubReadFromPartition bub' io name := by
  funext offset numBytes disk
  unfold bubReadFromPartition
  rw [h.1, h.2]

/-- They write the partition alike. -/
theorem bubWriteToPartition_congr (h : bub.SameAt bub' name) (io : DiskIo) :
    bubWriteToPartition bub io name = bubWriteToPartition bub' io name := by
  funext buf offset disk
  unfold bubWriteToPartition
  rw [h.1, h.2]

/-- The metadata functions use the `misc` partition only. -/
theorem bubReadAbDataFromMisc_congr (h : bub.SameAt bub' miscPartition) (io : DiskIo) :
    bubReadAbDataFromMisc (uefiOps bub io) = bubReadAbDataFromMisc (uefiOps bub' io) := by
  have hread : (uefiOps bub io).readFromPartition miscPartition =
      (uefiOps bub' io).readFromPartition miscPartition := bubReadFromPartition_congr h io
  funext disk
  unfold bubReadAbDataFromMisc
  rw [hread]

/-- They write the metadata alike. -/
theorem bubWriteAbDataToMisc_congr (h : bub.SameAt bub' miscPartition) (io : DiskIo) :
    bubWriteAbDataToMisc (uefiOps bub io) = bubWriteAbDataToMisc (uefiOps bub' io) := by
  have hwrite : (uefiOps bub io).writeToPartition miscPartition =
      (uefiOps bub' io).writeToPartition miscPartition := bubWriteToPartition_congr h io
  funext d disk
  unfold bubWriteAbDataToMisc
  rw [hwrite]

/-- The A/B flow does the same over both. -/
theorem bubAbFlow_congr (h : bub.SameAt bub' miscPartition) (io : DiskIo) :
    bubAbFlow (uefiOps bub io) = bubAbFlow (uefiOps bub' io) := by
  funext out disk
  unfold bubAbFlow resetMetadata
  rw [bubReadAbDataFromMisc_congr h, bubWriteAbDataToMisc_congr h]

/-- So does marking a slot as invalid. -/
theorem bubAbMarkAsInvalid_congr (h : bub.SameAt bub' miscPartition) (io : DiskIo) :
    bubAbMarkAsInvalid (uefiOps bub io) = bubAbMarkAsInvalid (uefiOps bub' io) := by
  funext suffix disk
  unfold bubAbMarkAsInvalid
  rw [bubReadAbDataFromMisc_congr h, bubWriteAbDataToMisc_congr h]

/-- `bub_boot_kernel` uses the partition that it boots from. -/
theorem bubBootKernel_congr (h : bub.SameAt bub' name) (io : BootIo) (disk : Disk) :
    bubBootKernel bub io name disk = bubBootKernel bub' io name disk := by
  unfold bubBootKernel readBootImgHdr startBootImage
  rw [h.1, h.2]
  simp only [bubReadFromPartition_congr h]

end

section

variable {find : Disk → MyBubOps} {io : DiskIo} {disk : Disk}

/-- The A/B flow reads and writes the disk that it is called on. -/
theorem bubAbFlow_tableOps (out : List Byte) :
    bubAbFlow (tableOps find io) out disk = bubAbFlow (uefiOps (find disk) io) out disk := rfl

/-- Marking a slot uses the disk that it is called on, too. -/
theorem bubAbMarkAsInvalid_tableOps (suffix : List Byte) :
    bubAbMarkAsInvalid (tableOps find io) suffix disk =
      bubAbMarkAsInvalid (uefiOps (find disk) io) suffix disk := rfl

end

/-! ## The searches of one history -/

section

variable {dev : BootDevice} {disk : Disk}

/-- The search finds the partitions of the device. -/
structure FindsPartitions (bub : MyBubOps) (dev : BootDevice) : Prop where
  blockSize : bub.blockSize = dev.blockSize
  misc : bub.entryByName miscPartition = some dev.misc
  boot : ∀ i, bub.entryByName (bootPartition i) = some (dev.boot i)

/-- The search finds the metadata where the device has it. -/
theorem FindsPartitions.sameAt_misc {bub : MyBubOps} (h : FindsPartitions bub dev) :
    bub.SameAt dev.toMyBubOps miscPartition :=
  ⟨h.blockSize, h.misc.trans dev.misc_entry.symm⟩

/-- It finds the boot partitions where the device has them. -/
theorem FindsPartitions.sameAt_boot {bub : MyBubOps} (h : FindsPartitions bub dev) (i : Fin 2) :
    bub.SameAt dev.toMyBubOps (bootPartition i) :=
  ⟨h.blockSize, (h.boot i).trans (dev.boot_entry i).symm⟩

/-- A turn over the table is one on the device. -/
theorem efiMainTurnOverTable_eq {find : Disk → MyBubOps} {s : MainState} (hs : s.Named)
    (h : ∀ b, FindsPartitions (find (dev.withMiscBlock s.disk b)) dev) (io : TurnIo) :
    efiMainTurnOverTable find io s = efiMainTurn dev.toMyBubOps io s := by
  have hself : FindsPartitions (find s.disk) dev := by
    have hmisc := h (dev.miscBlock s.disk)
    rwa [dev.withMiscBlock_miscBlock] at hmisc
  unfold efiMainTurnOverTable efiMainTurn
  rw [bubAbFlow_tableOps, bubAbFlow_congr hself.sameAt_misc]
  obtain ⟨⟨abResult, out, disk'⟩, hflow⟩ :
      ∃ r, bubAbFlow (uefiOps dev.toMyBubOps io.abFlow) s.slotSuffix s.disk = r := ⟨_, rfl⟩
  rw [hflow]
  dsimp only
  by_cases hok : abResult ≠ .ok
  · rw [if_pos hok, if_pos hok]
  · rw [if_neg hok, if_neg hok]
    rw [ne_eq, not_not] at hok
    subst hok
    obtain ⟨i, rfl⟩ := exists_suffix_of_bubAbFlow hflow
    have hi : (copySuffix (clearSuffix s.slotSuffix) (bubSuffixes i)).take 3 = bubSuffixes i :=
      take_copySuffix _ i
    -- The disk that the flow leaves is searched next, for the partition of the slot.
    have hdisk : FindsPartitions (find disk') dev := by
      rw [bubAbFlow_uefiOps] at hflow
      rw [← (Prod.mk.inj (Prod.mk.inj hflow).2).2]
      exact h _
    rewrite [hi, hs.bootName, bubBootKernel_congr (hdisk.sameAt_boot i),
      bubAbMarkAsInvalid_tableOps, bubAbMarkAsInvalid_congr hdisk.sameAt_misc]
    rfl

/-- A turn changes the metadata block only. -/
theorem efiMainTurn_frame (dev : BootDevice) (io : TurnIo) (s : MainState) :
    ∃ b, diskOf (efiMainTurn dev.toMyBubOps io s) = dev.withMiscBlock s.disk b := by
  unfold efiMainTurn
  simp only [bubAbFlow_uefiOps, bubAbMarkAsInvalid_uefiOps, dev.withMiscBlock_withMiscBlock]
  split
  · exact ⟨_, rfl⟩
  · split
    · exact ⟨_, rfl⟩
    · split_ifs <;> exact ⟨_, rfl⟩

/-- So do all turns. -/
theorem efiMain_frame (dev : BootDevice) (io : ℕ → TurnIo) (disk : Disk) (k : ℕ) :
    ∃ b, diskOf (efiMain (some dev.toMyBubOps) io disk k) = dev.withMiscBlock disk b := by
  induction k with
  | zero => exact ⟨dev.miscBlock disk, (dev.withMiscBlock_miscBlock disk).symm⟩
  | succ k ih =>
    obtain ⟨b, hb⟩ := ih
    cases hrun : efiMain (some dev.toMyBubOps) io disk k with
    | inl s =>
      rw [hrun] at hb
      have hs : s.disk = dev.withMiscBlock disk b := hb
      obtain ⟨b', hb'⟩ := efiMainTurn_frame dev (io k) s
      have hnext : efiMain (some dev.toMyBubOps) io disk (k + 1) =
          efiMainTurn dev.toMyBubOps (io k) s := DoWhile.run_succ_of_inl hrun
      rw [hs, dev.withMiscBlock_withMiscBlock] at hb'
      exact ⟨b', by rw [hnext, hb']⟩
    | inr e =>
      have hnext : efiMain (some dev.toMyBubOps) io disk (k + 1) = .inr e :=
        DoWhile.run_succ_of_inr hrun
      rw [hrun] at hb
      exact ⟨b, by rw [hnext, hb]⟩

/-- A power-on over the table is one on the device, and changes the metadata block only. -/
theorem powerCycleOverTable_eq {find : PowerOn → ℕ → Disk → MyBubOps} {c : PowerOn}
    (h : ∀ k b, FindsPartitions (find c k (dev.withMiscBlock disk b)) dev) :
    powerCycleOverTable find c disk = powerCycle dev c disk ∧
      ∃ b, (powerCycle dev c disk).2 = dev.withMiscBlock disk b := by
  -- The two loops go on from the same states.
  have hturns (n : ℕ) : efiMainOverTable true (find c) c.io disk n =
      efiMain (some dev.toMyBubOps) c.io disk n := by
    induction n with
    | zero => rfl
    | succ n ih =>
      cases hrun : efiMain (some dev.toMyBubOps) c.io disk n with
      | inl s =>
        obtain ⟨b, hb⟩ := efiMain_frame dev c.io disk n
        rw [hrun] at ih hb
        have hs : s.disk = dev.withMiscBlock disk b := hb
        have hfinds (b' : Bytes 64) :
            FindsPartitions (find c n (dev.withMiscBlock s.disk b')) dev := by
          rw [hs, dev.withMiscBlock_withMiscBlock]
          exact h n b'
        have hnext : efiMain (some dev.toMyBubOps) c.io disk (n + 1) =
            efiMainTurn dev.toMyBubOps (c.io n) s := DoWhile.run_succ_of_inl hrun
        have hnext' : efiMainOverTable true (find c) c.io disk (n + 1) =
            efiMainTurnOverTable (find c n) (c.io n) s := DoWhile.run_succ_of_inl ih
        rw [hnext, hnext']
        exact efiMainTurnOverTable_eq (named_of_efiMain hrun) hfinds (c.io n)
      | inr e =>
        rw [hrun] at ih
        have hnext : efiMain (some dev.toMyBubOps) c.io disk (n + 1) = .inr e :=
          DoWhile.run_succ_of_inr hrun
        have hnext' : efiMainOverTable true (find c) c.io disk (n + 1) = .inr e :=
          DoWhile.run_succ_of_inr ih
        rw [hnext, hnext']
  unfold powerCycleOverTable powerCycle
  cases c.init with
  | false => exact ⟨rfl, dev.miscBlock disk, (dev.withMiscBlock_miscBlock disk).symm⟩
  | true =>
    rw [hturns]
    exact ⟨rfl, efiMain_frame dev c.io disk c.turns⟩

/-- So it is for whole histories. -/
theorem run_powerCycleOverTable (find : PowerOn → ℕ → Disk → MyBubOps) {cycles : List PowerOn}
    (h : ∀ c ∈ cycles, ∀ k b, FindsPartitions (find c k (dev.withMiscBlock disk b)) dev) :
    Machine.run (powerCycleOverTable find) cycles disk = Machine.run (powerCycle dev) cycles disk ∧
      ∃ b, (Machine.run (powerCycle dev) cycles disk).2 = dev.withMiscBlock disk b := by
  induction cycles generalizing disk with
  | nil => exact ⟨rfl, dev.miscBlock disk, (dev.withMiscBlock_miscBlock disk).symm⟩
  | cons c cycles ih =>
    rw [List.forall_mem_cons] at h
    obtain ⟨hcycle, b, hb⟩ := powerCycleOverTable_eq h.1
    have hnext : ∀ c' ∈ cycles, ∀ k b',
        FindsPartitions (find c' k (dev.withMiscBlock (powerCycle dev c disk).2 b')) dev := by
      intro c' hc' k b'
      rw [hb, dev.withMiscBlock_withMiscBlock]
      exact h.2 c' hc' k b'
    obtain ⟨hrest, b', hb'⟩ := ih hnext
    refine ⟨?_, b', ?_⟩
    · unfold Machine.run
      rw [hcycle, hrest]
    · rw [Machine.run_cons_snd, hb', hb, dev.withMiscBlock_withMiscBlock]

/-- A write of the metadata block leaves the table as it is. -/
theorem bubPartitionEntryByName_withMiscBlock (hapart : dev.misc.ApartFromTable dev.blockSize)
    (turns : ℕ) (io : LookupIo) (name : List Byte) (b : Bytes 64) :
    bubPartitionEntryByName turns dev.blockSize io name (dev.withMiscBlock disk b) =
      bubPartitionEntryByName turns dev.blockSize io name disk := by
  have hsize := dev.misc_wellPlaced.start_add_imgSize
  have hroom := dev.misc_room
  refine bubPartitionEntryByName_write hapart (le_refl _) ?_ name
  rw [b.length_toList]
  omega

/-- So the searches find what they found before. -/
theorem ofDisk_withMiscBlock (hapart : dev.misc.ApartFromTable dev.blockSize) (turns : ℕ)
    (io : LookupIo) (b : Bytes 64) :
    MyBubOps.ofDisk turns dev.blockSize io (dev.withMiscBlock disk b) =
      MyBubOps.ofDisk turns dev.blockSize io disk := by
  unfold MyBubOps.ofDisk
  simp only [bubPartitionEntryByName_withMiscBlock hapart]

/-- **The boot loader over the partition table** is that over fixed partitions. Let the searches of
a history find the partitions of the device on the disk that it starts from. Then, if `misc` is
apart from the table, the history is that of the device, and at its end every search finds what it
found at the start. -/
theorem history_over_table (hapart : dev.misc.ApartFromTable dev.blockSize)
    (turns : PowerOn → ℕ → ℕ) (lookupIo : PowerOn → ℕ → LookupIo) {cycles : List PowerOn}
    (hfinds : ∀ c ∈ cycles, ∀ k,
      FindsPartitions (.ofDisk (turns c k) dev.blockSize (lookupIo c k) disk) dev) :
    Machine.run (powerCycleOverTable fun c k => .ofDisk (turns c k) dev.blockSize (lookupIo c k))
        cycles disk = Machine.run (powerCycle dev) cycles disk ∧
      ∀ turns io, MyBubOps.ofDisk turns dev.blockSize io
        (Machine.run (powerCycle dev) cycles disk).2 =
          MyBubOps.ofDisk turns dev.blockSize io disk := by
  have hall : ∀ c ∈ cycles, ∀ k b, FindsPartitions
      (.ofDisk (turns c k) dev.blockSize (lookupIo c k) (dev.withMiscBlock disk b)) dev := by
    intro c hc k b
    rw [ofDisk_withMiscBlock hapart]
    exact hfinds c hc k
  obtain ⟨hrun, b, hb⟩ := run_powerCycleOverTable
    (fun c k => .ofDisk (turns c k) dev.blockSize (lookupIo c k)) hall
  refine ⟨hrun, fun turns io => ?_⟩
  rw [hb, ofDisk_withMiscBlock hapart]

end

/-- A disk with a table of the three partitions, and nothing in them. -/
def threePartitions : Disk :=
  (((tableDisk 3).write 1024 (tableEntry ['m', 'i', 's', 'c'] 40 47)).write 1152
    (tableEntry ['b', 'o', 'o', 't', '_', 'a'] 48 63)).write 1280
      (tableEntry ['b', 'o', 'o', 't', '_', 'b'] 64 79)

/-- What the search finds on this disk. -/
def threeEntries : MyBubOps := .ofDisk 7 512 .success threePartitions

/-- The entry that a search finds, by its blocks. -/
theorem exists_entry (bub : MyBubOps) (name : List Byte) (first last : BitVec 64)
    (h : (bub.entryByName name).map (fun e => (e.firstLba, e.lastLba)) = some (first, last)) :
    ∃ entry, bub.entryByName name = some entry ∧ entry.firstLba = first ∧ entry.lastLba = last := by
  obtain ⟨entry, hentry, hblocks⟩ := Option.map_eq_some_iff.mp h
  exact ⟨entry, hentry, Prod.mk.inj hblocks⟩

/-- The device of this disk. -/
theorem exists_threeDevice :
    ∃ dev : BootDevice, dev.toMyBubOps = threeEntries ∧ dev.misc.ApartFromTable dev.blockSize := by
  -- The three entries are read from the table on the disk; the rest is about their blocks.
  obtain ⟨misc, hmisc, hmisc₁, hmisc₂⟩ := exists_entry threeEntries
    miscPartition 40 47 (by decide +kernel)
  obtain ⟨bootA, hbootA, hbootA₁, hbootA₂⟩ := exists_entry threeEntries
    (bootPartition 0) 48 63 (by decide +kernel)
  obtain ⟨bootB, hbootB, hbootB₁, hbootB₂⟩ := exists_entry threeEntries
    (bootPartition 1) 64 79 (by decide +kernel)
  have hsize : threeEntries.blockSize = 512 := rfl
  generalize threeEntries = bub at hmisc hbootA hbootB hsize ⊢
  have hstart (entry : GPTEntry) : entry.start bub.blockSize = entry.firstLba.toNat * 512 := by
    rw [GPTEntry.start, hsize]
    rfl
  have hstop (entry : GPTEntry) : entry.stop bub.blockSize = (entry.lastLba.toNat + 1) * 512 := by
    rw [GPTEntry.stop, hsize]
    rfl
  have hplaced {entry : GPTEntry} {first last : BitVec 64} (hfirst : entry.firstLba = first)
      (hlast : entry.lastLba = last) (h : first.toNat ≤ last.toNat ∧ last.toNat < 80) :
      entry.WellPlaced bub.blockSize := by
    refine ⟨by rw [hfirst, hlast]; exact h.1, ?_⟩
    rw [hstop, hlast]
    omega
  refine ⟨⟨bub, misc, ![bootA, bootB], hmisc, Fin.forall_fin_two.mpr ⟨hbootA, hbootB⟩,
    hplaced hmisc₁ hmisc₂ (by decide), Fin.forall_fin_two.mpr
      ⟨hplaced hbootA₁ hbootA₂ (by decide), hplaced hbootB₁ hbootB₂ (by decide)⟩, ?_,
    Fin.forall_fin_two.mpr ⟨.inr ?_, .inr ?_⟩⟩, rfl, .inr ?_, .inr ?_⟩
  · rw [imgSize, hmisc₁, hmisc₂, hsize]
    decide
  · show misc.stop bub.blockSize ≤ bootA.start bub.blockSize
    rw [hstop, hstart, hmisc₂, hbootA₁]
    decide
  · show misc.stop bub.blockSize ≤ bootB.start bub.blockSize
    rw [hstop, hstart, hmisc₂, hbootB₁]
    decide
  · show bub.blockSize.toNat + 512 ≤ misc.start bub.blockSize
    rw [hstart, hmisc₁, hsize]
    decide
  · show 2 * bub.blockSize.toNat + entriesNumBytes bub.blockSize ≤ misc.start bub.blockSize
    rw [hstart, hmisc₁, hsize]
    decide

/-- A power-on of this disk. -/
theorem history_over_threePartitions : ∃ dev : BootDevice, dev.toMyBubOps = threeEntries ∧
    Machine.run (powerCycleOverTable fun _ _ => .ofDisk 7 dev.blockSize .success) [workingPowerOn]
      threePartitions = Machine.run (powerCycle dev) [workingPowerOn] threePartitions := by
  obtain ⟨dev, hdev, hapart⟩ := exists_threeDevice
  have hfound : MyBubOps.ofDisk 7 dev.blockSize .success threePartitions = dev.toMyBubOps := by
    rw [hdev]
    rfl
  refine ⟨dev, hdev, (history_over_table hapart (fun _ _ => 7) (fun _ _ => .success)
    fun _ _ _ => ?_).1⟩
  rw [hfound]
  exact ⟨rfl, dev.misc_entry, dev.boot_entry⟩

end BrilloBoot
