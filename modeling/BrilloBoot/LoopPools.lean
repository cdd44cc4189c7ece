import BrilloBoot.PartitionTable
import BrilloBoot.Pools

/-!
# The pools of the boot loop

The boot loop over the partition table, with its pools. Every lookup of a turn has its own outcome.
`bub_boot_kernel` frees nothing of what it allocates, so that a turn that goes on leaves two pools
behind, and the one that starts a kernel four; and as it goes on only after the write of its mark
has failed, the null pointer of that lookup is the only one that is freed (`bootLoop_pools`). What
the loop does is what it does on the device with its fixed partitions, on which the transfer behind
a lookup that finds nothing fails (`efiMainWithPools_eq`).

`Leaves` says what a call has left behind, and adds up over one call after another; a transfer
leaves nothing, an allocation that is never freed one pool (`leaves_transferPools`,
`leaves_alloc`). From these come the two calls of the A/B flow, `bub_boot_kernel` and one turn
(`leaves_efiMainTurnWithPools`), and the run by induction. A lookup that has found its partition has
freed no null pointer, so that only a transfer that fails counts, and a turn that goes on has but
one. The comparison with the device goes the same way, call by call (`bubAbFlow_poolOps`,
`bubBootKernelWithPools_eq`, `efiMainTurnWithPools_eq`).
-/

namespace BrilloBoot

/-- What becomes of the lookups of one turn of the boot loop, in their order. -/
structure TurnLookups where
  flowRead : LookupIo
  flowWrite : LookupIo
  /-- That of the read of the header. -/
  header : LookupIo
  /-- That of `bub_boot_kernel` itself. -/
  entry : LookupIo
  kernel : LookupIo
  markRead : LookupIo
  markWrite : LookupIo

section

variable (turns : ℕ) (blockSize : BitVec 32)

/-- The operations that `bub_init` installs, with the pools of their writes. -/
def poolOps (reading writing : LookupIo) (io : DiskIo) : BubOps (Disk × Option Ledger) where
  readFromPartition partition offset numBytes s :=
    bubReadFromPartition (.ofDisk turns blockSize reading s.1) io partition offset numBytes s.1
  writeToPartition partition buf offset s :=
    let (ioResult, disk) :=
      bubWriteToPartition (.ofDisk turns blockSize writing s.1) io partition buf offset s.1
    (ioResult, disk, s.2.bind (transferPools turns blockSize writing partition s.1))

/-- The disk and the pools after the read with which both calls of the A/B flow begin. -/
def afterRead (reading : LookupIo) (disk : Disk) (l : Option Ledger) : Disk × Option Ledger :=
  (disk, l.bind (transferPools turns blockSize reading miscPartition disk))

/-- `bub_boot_kernel` after the format checks. -/
def startBootImageWithPools (kernel : LookupIo) (io : BootIo) (name : List Byte)
    (head : BootImgHdr) (disk : Disk) (l : Option Ledger) :
    Option (BubBootResult × Option StartedKernel) × Option Ledger :=
  let bub := MyBubOps.ofDisk turns blockSize kernel disk
  let result := startBootImage bub io name head disk
  if !io.allocKernel then (result, l)
  else
    let l := l.map (·.alloc.2)
    let l := l.bind (transferPools turns blockSize kernel name disk)
    let (ioResult, _) := bubReadFromPartition bub ⟨io.readKernel, true⟩ name
      (head.pageSize.setWidth 64) (head.kernelSize.setWidth 64) disk
    if ioResult ≠ .ok then (result, l)
    else if !io.loadImage then (result, l)
    else if !(io.handleProtocol && io.allocOptions) then (result, l)
    -- `LoadOptions`.
    else (result, l.map (·.alloc.2))

/-- `bub_boot_kernel`. -/
def bubBootKernelWithPools (lookups : TurnLookups) (io : BootIo) (name : List Byte) (disk : Disk)
    (l : Option Ledger) : Option (BubBootResult × Option StartedKernel) × Option Ledger :=
  if !io.allocHeader then (some (.errorOom, none), l)
  else
    let l := l.map (·.alloc.2)
    let (ioResult, head) :=
      readBootImgHdr (.ofDisk turns blockSize lookups.header disk) io name disk
    let l := l.bind (transferPools turns blockSize lookups.header name disk)
    if ioResult ≠ .ok then (some (.errorIo, none), l)
    else
      -- The outcome of this lookup takes the place of `io.findEntry`.
      let l := l.bind (lookupPools turns blockSize lookups.entry name disk)
      match (MyBubOps.ofDisk turns blockSize lookups.entry disk).entryByName name with
      | none => (some (.errorIo, none), l)
      | some entry =>
        if formatValid (imgSize entry blockSize) head then
          startBootImageWithPools turns blockSize lookups.kernel io name head disk l
        else (some (.errorPartitionInvalidFormat, none), l)

/-- One turn of the loop of `efi_main`. -/
def efiMainTurnWithPools (lookups : TurnLookups) (io : TurnIo) (s : MainState × Option Ledger) :
    (MainState × Option Ledger) ⊕ (MainEnd × Option Ledger) :=
  let (s, l) := s
  let (abResult, slotSuffix, disk, l) :=
    bubAbFlow (poolOps turns blockSize lookups.flowRead lookups.flowWrite io.abFlow) s.slotSuffix
      (afterRead turns blockSize lookups.flowRead s.disk l)
  if abResult ≠ .ok then .inr (⟨.aborted "Could not choose A/B slot.\n", none, disk⟩, l)
  else
    let bootName := s.bootName.take 4 ++ slotSuffix.take 3 ++ s.bootName.drop 7
    match bubBootKernelWithPools turns blockSize lookups io.boot (bootName.takeWhile (· ≠ 0)) disk l
      with
    | (none, l) => .inr (⟨.fault, none, disk⟩, l)
    | (some (bootResult, started), l) =>
      if bootResult = .errorPartitionInvalidFormat then
        let (marked, disk, l) :=
          bubAbMarkAsInvalid (poolOps turns blockSize lookups.markRead lookups.markWrite io.mark)
            slotSuffix (afterRead turns blockSize lookups.markRead disk l)
        if marked ≠ 0 then .inr (⟨.aborted "Could not mark slot invalid.", none, disk⟩, l)
        else .inl (⟨slotSuffix, bootName, disk⟩, l)
      else if bootResult ≠ .ok then .inr (⟨.aborted "Error loading kernel.\n", none, disk⟩, l)
      else .inr (⟨.returned, started, disk⟩, l)

/-- `efi_main` after `bub_init`, as far as a number of turns of its loop. -/
def efiMainWithPools (lookups : ℕ → TurnLookups) (io : ℕ → TurnIo) (disk : Disk) (l : Ledger)
    (k : ℕ) : (MainState × Option Ledger) ⊕ (MainEnd × Option Ledger) :=
  DoWhile.run (fun k => efiMainTurnWithPools turns blockSize (lookups k) (io k))
    (⟨[0, 0, 0], ascii ['b', 'o', 'o', 't'] ++ [0, 0, 0], disk⟩, some l) k

end

/-! ## What the calls leave behind -/

/-- There is an account before a call and after it, and the call leaves so many pools behind. -/
def Leaves (l : Option Ledger) (l' : Ledger) (lost refused : ℕ) : Prop :=
  ∃ l₀, l = some l₀ ∧ Ledger.Holds l₀ l' ∅ lost refused

section

variable {turns : ℕ} {blockSize : BitVec 32} {lookup reading writing : LookupIo} {io : DiskIo}
  {name : List Byte} {disk : Disk} {l l₁ : Option Ledger} {l' : Ledger}
  {lost lost' refused refused' : ℕ}

/-- Nothing is left behind by no call. -/
theorem Leaves.refl (h : l = some l') : Leaves l l' 0 0 := ⟨l', h, Ledger.Holds.refl l'⟩

/-- One call after another. -/
theorem Leaves.after (h : Leaves l₁ l' lost' refused')
    (hcall : ∀ m, l₁ = some m → Leaves l m lost refused) :
    Leaves l l' (lost + lost') (refused + refused') := by
  obtain ⟨m, hm, hheld⟩ := h
  obtain ⟨l₀, hl, hheld₀⟩ := hcall m hm
  exact ⟨l₀, hl, hheld₀.trans hheld⟩

/-- A pool is allocated, and never freed. -/
theorem leaves_alloc (h : l.map (·.alloc.2) = some l') : Leaves l l' 1 0 := by
  obtain ⟨l₀, hl, rfl⟩ := Option.map_eq_some_iff.mp h
  exact ⟨l₀, hl, (Ledger.Holds.refl l₀).alloc_lose⟩

/-- A transfer leaves nothing behind. -/
theorem leaves_transferPools
    (h : l.bind (transferPools turns blockSize lookup name disk) = some l') :
    Leaves l l' 0 lookup.nullFrees := by
  obtain ⟨l₀, hl, hpools⟩ := Option.bind_eq_some_iff.mp h
  exact ⟨l₀, hl, holds_transferPools hpools⟩

/-- A transfer that finds its partition frees no null pointer. -/
theorem leaves_transferPools_of_found {entry : GPTEntry}
    (hfound : (MyBubOps.ofDisk turns blockSize lookup disk).entryByName name = some entry)
    (h : l.bind (transferPools turns blockSize lookup name disk) = some l') :
    Leaves l l' 0 0 := by
  have hleaves := leaves_transferPools h
  rwa [nullFrees_of_found hfound] at hleaves

/-- A read that succeeds has found its partition. -/
theorem found_of_read_ok {bub : MyBubOps} {offset numBytes : BitVec 64}
    (h : (bubReadFromPartition bub io name offset numBytes disk).1 = .ok) :
    ∃ entry, bub.entryByName name = some entry := by
  unfold bubReadFromPartition at h
  cases hentry : bub.entryByName name with
  | none =>
    rw [hentry] at h
    cases h
  | some entry => exact ⟨entry, rfl⟩

/-- So has a write. -/
theorem found_of_write_ok {bub : MyBubOps} {offset : BitVec 64} {buf : List Byte}
    (h : (bubWriteToPartition bub io name buf offset disk).1 = .ok) :
    ∃ entry, bub.entryByName name = some entry := by
  unfold bubWriteToPartition at h
  cases hentry : bub.entryByName name with
  | none =>
    rw [hentry] at h
    cases h
  | some entry => exact ⟨entry, rfl⟩

/-- The metadata that was read was found. -/
theorem found_of_bubReadAbDataFromMisc {d : BubAbData}
    (h : bubReadAbDataFromMisc (poolOps turns blockSize reading writing io) (disk, l) = .ok d) :
    ∃ entry, (MyBubOps.ofDisk turns blockSize reading disk).entryByName miscPartition =
      some entry := by
  obtain ⟨⟨ioResult, buf⟩, hread⟩ : ∃ r, bubReadFromPartition
      (.ofDisk turns blockSize reading disk) io miscPartition 0 64 disk = r := ⟨_, rfl⟩
  have hops : (poolOps turns blockSize reading writing io).readFromPartition miscPartition 0 64
      (disk, l) = (ioResult, buf) := hread
  by_cases hok : ioResult = .ok
  · exact found_of_read_ok ((congrArg Prod.fst hread).trans hok)
  · rw [bubReadAbDataFromMisc_of_not_ok hops (.inl hok)] at h
    cases h

/-- The write of the metadata: the pools after it, and that a write which succeeds has found the
partition. -/
theorem leaves_bubWriteAbDataToMisc {d : BubAbData} {written : ℤ} {disk' : Disk}
    (h : bubWriteAbDataToMisc (poolOps turns blockSize reading writing io) d (disk, l) =
      (written, disk', some l')) :
    Leaves l l' 0 writing.nullFrees ∧ (written ≠ 0 → Leaves l l' 0 0) := by
  obtain ⟨⟨ioResult, disk₁⟩, hwrite⟩ : ∃ r, bubWriteToPartition
      (.ofDisk turns blockSize writing disk) io miscPartition d.image.toList 0 disk = r := ⟨_, rfl⟩
  have hops : (poolOps turns blockSize reading writing io).writeToPartition miscPartition
      d.image.toList 0 (disk, l) =
      (ioResult, disk₁, l.bind (transferPools turns blockSize writing miscPartition disk)) := by
    simp only [poolOps, hwrite]
  rw [bubWriteAbDataToMisc_of_write hops] at h
  obtain ⟨hwritten, hstate⟩ := Prod.mk.inj h
  have hpools := (Prod.mk.inj hstate).2
  refine ⟨leaves_transferPools hpools, fun hne => ?_⟩
  by_cases hok : ioResult = .ok
  · obtain ⟨entry, hentry⟩ := found_of_write_ok ((congrArg Prod.fst hwrite).trans hok)
    exact leaves_transferPools_of_found hentry hpools
  · rw [if_neg hok] at hwritten
    exact absurd hwritten.symm hne

/-- **A call of `bub_ab_flow` that hands out a slot** leaves nothing behind. -/
theorem leaves_bubAbFlow {out out' : List Byte} {disk' : Disk}
    (h : bubAbFlow (poolOps turns blockSize reading writing io) out
      (afterRead turns blockSize reading disk l) = (.ok, out', disk', some l')) :
    Leaves l l' 0 0 := by
  unfold afterRead at h
  cases hread : bubReadAbDataFromMisc (poolOps turns blockSize reading writing io)
      (disk, l.bind (transferPools turns blockSize reading miscPartition disk)) with
  | error r =>
    rcases bubReadAbDataFromMisc_eq_error hread with rfl | rfl
    · rw [bubAbFlow_of_read_error hread] at h
      cases h
    · rw [bubAbFlow_of_read_invalid hread] at h
      cases (Prod.mk.inj h).1
  | ok d =>
    obtain ⟨entry, hentry⟩ := found_of_bubReadAbDataFromMisc hread
    have hfirst (m : Ledger)
        (hm : l.bind (transferPools turns blockSize reading miscPartition disk) = some m) :
        Leaves l m 0 0 := leaves_transferPools_of_found hentry hm
    rw [bubAbFlow_of_read_ok hread] at h
    split_ifs at h with hsame hfailed
    · exact hfirst l' (Prod.mk.inj (Prod.mk.inj (Prod.mk.inj h).2).2).2
    · cases (Prod.mk.inj h).1
    · have hstate := (Prod.mk.inj (Prod.mk.inj h).2).2
      exact ((leaves_bubWriteAbDataToMisc (Prod.ext rfl hstate)).2 hfailed).after hfirst

/-- **A call of `bub_ab_mark_as_invalid` that returns 0** has failed to write, and leaves nothing
behind. -/
theorem leaves_bubAbMarkAsInvalid {suffix : List Byte} {i : Fin 2} {disk' : Disk}
    (hsuffix : suffixSlot suffix = some i)
    (h : bubAbMarkAsInvalid (poolOps turns blockSize reading writing io) suffix
      (afterRead turns blockSize reading disk l) = (0, disk', some l')) :
    Leaves l l' 0 writing.nullFrees := by
  unfold afterRead at h
  cases hread : bubReadAbDataFromMisc (poolOps turns blockSize reading writing io)
      (disk, l.bind (transferPools turns blockSize reading miscPartition disk)) with
  | error r =>
    rw [bubAbMarkAsInvalid_of_read_error hread] at h
    rcases bubReadAbDataFromMisc_eq_error hread with rfl | rfl
    · exact absurd (Prod.mk.inj h).1 (by decide)
    · exact absurd (Prod.mk.inj h).1 (by decide)
  | ok d =>
    obtain ⟨entry, hentry⟩ := found_of_bubReadAbDataFromMisc hread
    rw [bubAbMarkAsInvalid_of_read_ok hread, hsuffix] at h
    have hleaves := (leaves_bubWriteAbDataToMisc h).1.after fun m hm =>
      leaves_transferPools_of_found hentry hm
    rwa [Nat.zero_add, Nat.zero_add] at hleaves

/-- `bub_boot_kernel` after the format checks leaves two pools behind when it starts the kernel, and
does not reject the format any more. -/
theorem leaves_startBootImageWithPools {kernel : LookupIo} {io : BootIo} {head : BootImgHdr}
    {result : BubBootResult} {started : Option StartedKernel}
    (h : startBootImageWithPools turns blockSize kernel io name head disk l =
      (some (result, started), some l')) :
    result ≠ .errorPartitionInvalidFormat ∧ (result = .ok → Leaves l l' 2 0) := by
  have hresult : startBootImage (.ofDisk turns blockSize kernel disk) io name head disk =
      some (result, started) := by
    unfold startBootImageWithPools at h
    dsimp only at h
    split_ifs at h <;> exact (Prod.mk.inj h).1
  refine ⟨fun hinvalid => startBootImage_ne_invalid io head disk started (hinvalid ▸ hresult), ?_⟩
  rintro rfl
  obtain ⟨⟨ioResult, buf⟩, hread⟩ : ∃ r, bubReadFromPartition
      (.ofDisk turns blockSize kernel disk) ⟨io.readKernel, true⟩ name
      (head.pageSize.setWidth 64) (head.kernelSize.setWidth 64) disk = r := ⟨_, rfl⟩
  unfold startBootImageWithPools at h
  unfold startBootImage at hresult
  dsimp only at h
  rw [hread] at h hresult
  dsimp only at h hresult
  -- A kernel that was started has passed all checks.
  have hchecks : io.allocKernel = true ∧ ioResult = .ok ∧ io.loadImage = true ∧
      (io.handleProtocol && io.allocOptions) = true := by
    split_ifs at hresult with halloc hio hload hoptions
    any_goals cases hresult
    all_goals
      exact ⟨by simpa using halloc, not_not.mp hio, by simpa using hload, by simpa using hoptions⟩
  obtain ⟨halloc, hio, hload, hoptions⟩ := hchecks
  simp only [halloc, hio, hload, hoptions, Bool.not_true, Bool.false_eq_true, ne_eq, not_true,
    if_false] at h
  obtain ⟨entry, hentry⟩ := found_of_read_ok ((congrArg Prod.fst hread).trans hio)
  exact (leaves_alloc (Prod.mk.inj h).2).after fun m hm =>
    (leaves_transferPools_of_found hentry hm).after fun m hm => leaves_alloc hm

/-- **`bub_boot_kernel`** leaves two pools behind when it rejects the format, and four when it
starts the kernel. -/
theorem leaves_bubBootKernelWithPools {lookups : TurnLookups} {io : BootIo}
    {result : BubBootResult} {started : Option StartedKernel}
    (h : bubBootKernelWithPools turns blockSize lookups io name disk l =
      (some (result, started), some l')) :
    (result = .errorPartitionInvalidFormat → Leaves l l' 2 0) ∧
      (result = .ok → Leaves l l' 4 0) := by
  obtain ⟨⟨ioResult, head⟩, hread⟩ : ∃ r, readBootImgHdr
      (.ofDisk turns blockSize lookups.header disk) io name disk = r := ⟨_, rfl⟩
  -- Nothing is said of the other results.
  have hother {code : BubBootResult} {kernel : Option StartedKernel} {m : Option Ledger}
      (h : (some (code, kernel), m) = (some (result, started), some l'))
      (hinvalid : code ≠ .errorPartitionInvalidFormat) (hok : code ≠ .ok) :
      (result = .errorPartitionInvalidFormat → Leaves l l' 2 0) ∧
        (result = .ok → Leaves l l' 4 0) := by
    obtain ⟨rfl, -⟩ := Prod.mk.inj (Option.some.inj (Prod.mk.inj h).1)
    exact ⟨fun hresult => absurd hresult hinvalid, fun hresult => absurd hresult hok⟩
  unfold bubBootKernelWithPools at h
  rw [hread] at h
  dsimp only at h
  split_ifs at h with halloc hio
  · exact hother h (by decide) (by decide)
  · exact hother h (by decide) (by decide)
  · rw [ne_eq, not_not] at hio
    have hok : (bubReadFromPartition (.ofDisk turns blockSize lookups.header disk)
        ⟨io.readHeader, true⟩ name 0 1632 disk).1 = .ok := (congrArg Prod.fst hread).trans hio
    obtain ⟨headerEntry, hheader⟩ := found_of_read_ok hok
    cases hentry : (MyBubOps.ofDisk turns blockSize lookups.entry disk).entryByName name with
    | none =>
      rw [hentry] at h
      exact hother h (by decide) (by decide)
    | some entry =>
      rw [hentry] at h
      dsimp only at h
      -- The header's buffer and the entry are what is left behind up to the format checks.
      have hchecks (m : Ledger)
          (hm : ((l.map (·.alloc.2)).bind (transferPools turns blockSize lookups.header name
            disk)).bind (lookupPools turns blockSize lookups.entry name disk) = some m) :
          Leaves l m 2 0 := by
        obtain ⟨m₀, hm₀, hpools⟩ := Option.bind_eq_some_iff.mp hm
        have hlookup : Leaves ((l.map (·.alloc.2)).bind
            (transferPools turns blockSize lookups.header name disk)) m 1 0 :=
          ⟨m₀, hm₀, holds_lookupPools hpools hentry⟩
        exact hlookup.after fun m hm =>
          (leaves_transferPools_of_found hheader hm).after fun m hm => leaves_alloc hm
      split_ifs at h with hvalid
      · obtain ⟨hne, hstart⟩ := leaves_startBootImageWithPools h
        exact ⟨fun hinvalid => absurd hinvalid hne, fun hok => (hstart hok).after hchecks⟩
      · obtain ⟨hresult, hl⟩ := Prod.mk.inj h
        obtain ⟨rfl, -⟩ := Prod.mk.inj (Option.some.inj hresult)
        exact ⟨fun _ => hchecks l' hl, fun hok => (by cases hok)⟩

/-- **One turn**: it leaves two pools behind when the loop goes on, and four when it has started a
kernel. -/
theorem leaves_efiMainTurnWithPools {lookups : TurnLookups} {io : TurnIo} {s : MainState} :
    (∀ s', efiMainTurnWithPools turns blockSize lookups io (s, l) = .inl (s', some l') →
      Leaves l l' 2 lookups.markWrite.nullFrees) ∧
    (∀ e, efiMainTurnWithPools turns blockSize lookups io (s, l) = .inr (e, some l') →
      e.exit = .returned → Leaves l l' 4 0) := by
  obtain ⟨⟨abResult, slotSuffix, disk, l₁⟩, hflow⟩ : ∃ r, bubAbFlow
      (poolOps turns blockSize lookups.flowRead lookups.flowWrite io.abFlow) s.slotSuffix
      (afterRead turns blockSize lookups.flowRead s.disk l) = r := ⟨_, rfl⟩
  -- Nothing is said of a turn that ends the loop without a kernel.
  have hends {ended : MainEnd} {m : Option Ledger} (hexit : ended.exit ≠ .returned) (e : MainEnd)
      (h : (.inr (ended, m) : (MainState × Option Ledger) ⊕ (MainEnd × Option Ledger)) =
        .inr (e, some l')) (hreturned : e.exit = .returned) : Leaves l l' 4 0 := by
    rw [← (Prod.mk.inj (Sum.inr.inj h)).1] at hreturned
    exact absurd hreturned hexit
  unfold efiMainTurnWithPools
  dsimp only
  rw [hflow]
  dsimp only
  by_cases hok : abResult ≠ .ok
  · rw [if_pos hok]
    exact ⟨fun _ h => (by cases h), hends fun h => by cases h⟩
  rw [if_neg hok]
  rw [ne_eq, not_not] at hok
  subst hok
  obtain ⟨⟨result, l₂⟩, hboot⟩ : ∃ r, bubBootKernelWithPools turns blockSize lookups io.boot
      ((s.bootName.take 4 ++ slotSuffix.take 3 ++ s.bootName.drop 7).takeWhile (· ≠ 0)) disk l₁ =
        r := ⟨_, rfl⟩
  rw [hboot]
  cases result with
  | none => exact ⟨fun _ h => (by cases h), hends fun h => by cases h⟩
  | some boot =>
    obtain ⟨bootResult, started⟩ := boot
    dsimp only
    split_ifs with hinvalid hmarked hstarted
    · exact ⟨fun _ h => (by cases h), hends fun h => by cases h⟩
    · -- The slot that was handed out is the one that is marked, and the mark was not written.
      refine ⟨fun s' h => ?_, fun _ h => by cases h⟩
      obtain ⟨⟨marked, disk₁, l₃⟩, hmark⟩ : ∃ r, bubAbMarkAsInvalid
          (poolOps turns blockSize lookups.markRead lookups.markWrite io.mark) slotSuffix
          (afterRead turns blockSize lookups.markRead disk l₂) = r := ⟨_, rfl⟩
      rw [hmark] at h hmarked
      rw [ne_eq, not_not] at hmarked
      obtain rfl : l₃ = some l' := (Prod.mk.inj (Sum.inl.inj h)).2
      dsimp only at hmarked
      subst hmarked
      -- The mark begins where the kernel's calls have left off.
      obtain ⟨i, rfl⟩ := exists_suffix_of_bubAbFlow hflow
      have hleaves := (leaves_bubAbMarkAsInvalid (suffixSlot_copySuffix _ i) hmark).after
        fun m hm => ((leaves_bubBootKernelWithPools (hm ▸ hboot)).1 hinvalid).after
          fun m hm => leaves_bubAbFlow (hm ▸ hflow)
      rwa [Nat.zero_add, Nat.zero_add] at hleaves
    · exact ⟨fun _ h => (by cases h), hends fun h => by cases h⟩
    · rw [ne_eq, not_not] at hstarted
      refine ⟨fun _ h => (by cases h), fun e h _ => ?_⟩
      obtain rfl : l₂ = some l' := (Prod.mk.inj (Sum.inr.inj h)).2
      exact ((leaves_bubBootKernelWithPools hboot).2 hstarted).after fun m hm =>
        leaves_bubAbFlow (hm ▸ hflow)

end

/-! ## The loop on the device -/

/-- The boot loader looks up this partition. -/
def LookedUp (name : List Byte) : Prop := name = miscPartition ∨ ∃ i, name = bootPartition i

/-- What a lookup comes to on a disk of the device: it returns, and finds the partitions of the
device, or none. -/
structure LookupIo.Settles (lookup : LookupIo) (turns : ℕ) (dev : BootDevice) (disk : Disk)
    (found : Bool) : Prop where
  returns : ∀ name, LookedUp name → ∃ status entryBuf,
    bubPartitionEntryByName turns dev.blockSize lookup name disk = .returned status entryBuf
  entry : ∀ name, LookedUp name →
    (MyBubOps.ofDisk turns dev.blockSize lookup disk).entryByName name =
      if found then dev.entryByName name else none

/-- The lookups of a turn. -/
def TurnLookups.all (lookups : TurnLookups) : List LookupIo :=
  [lookups.flowRead, lookups.flowWrite, lookups.header, lookups.entry, lookups.kernel,
    lookups.markRead, lookups.markWrite]

/-- A fact about all of them. -/
theorem TurnLookups.forall_mem_all {lookups : TurnLookups} {P : LookupIo → Prop} :
    (∀ lookup ∈ lookups.all, P lookup) ↔ P lookups.flowRead ∧ P lookups.flowWrite ∧
      P lookups.header ∧ P lookups.entry ∧ P lookups.kernel ∧ P lookups.markRead ∧
        P lookups.markWrite := by
  simp [all]

/-- A turn on the device: the transfer behind a lookup that finds nothing fails. -/
def TurnIo.behind (io : TurnIo) (lookups : TurnLookups) (found : LookupIo → Bool) : TurnIo where
  abFlow := ⟨io.abFlow.read && found lookups.flowRead, io.abFlow.write && found lookups.flowWrite⟩
  boot :=
    { io.boot with
      readHeader := io.boot.readHeader && found lookups.header
      findEntry := found lookups.entry
      readKernel := io.boot.readKernel && found lookups.kernel }
  mark := ⟨io.mark.read && found lookups.markRead, io.mark.write && found lookups.markWrite⟩

section

variable {turns : ℕ} {dev : BootDevice} {disk : Disk} {lookup : LookupIo} {io io' : DiskIo}
  {found : Bool} {name : List Byte}

/-- A read behind a lookup is the device's, or fails as it does. -/
theorem bubReadFromPartition_behind (h : lookup.Settles turns dev disk found)
    (hname : LookedUp name) (hio : io'.read = (io.read && found)) (offset numBytes : BitVec 64) :
    let bub := MyBubOps.ofDisk turns dev.blockSize lookup disk
    bubReadFromPartition bub io name offset numBytes disk =
        bubReadFromPartition dev.toMyBubOps io' name offset numBytes disk ∨
      (bubReadFromPartition bub io name offset numBytes disk).1 ≠ .ok ∧
        (bubReadFromPartition dev.toMyBubOps io' name offset numBytes disk).1 ≠ .ok := by
  have hentry := h.entry name hname
  -- The partition is found, or the read fails on both sides, for reasons of their own.
  cases found with
  | true =>
    have hread : io'.read = io.read := by rw [hio, Bool.and_true]
    refine .inl ?_
    unfold bubReadFromPartition
    rw [hentry, hread]
    rfl
  | false =>
    have hread : io'.read = false := by rw [hio, Bool.and_false]
    refine .inr ⟨?_, ?_⟩
    · unfold bubReadFromPartition
      rw [hentry]
      exact fun h => by cases h
    · unfold bubReadFromPartition
      rw [hread]
      split
      · exact fun h => by cases h
      · dsimp only
        split <;> exact fun h => by cases h

/-- A write behind a lookup is the device's, or both fail and leave the disk as it is. -/
theorem bubWriteToPartition_behind (h : lookup.Settles turns dev disk found)
    (hname : LookedUp name) (hio : io'.write = (io.write && found)) (buf : List Byte)
    (offset : BitVec 64) :
    let bub := MyBubOps.ofDisk turns dev.blockSize lookup disk
    bubWriteToPartition bub io name buf offset disk =
        bubWriteToPartition dev.toMyBubOps io' name buf offset disk ∨
      (∃ r, r ≠ .ok ∧ bubWriteToPartition bub io name buf offset disk = (r, disk)) ∧
        ∃ r, r ≠ .ok ∧
          bubWriteToPartition dev.toMyBubOps io' name buf offset disk = (r, disk) := by
  have hentry := h.entry name hname
  -- The partition is found, or the write fails on both sides, for reasons of their own.
  cases found with
  | true =>
    have hwrite : io'.write = io.write := by rw [hio, Bool.and_true]
    refine .inl ?_
    unfold bubWriteToPartition
    rw [hentry, hwrite]
    rfl
  | false =>
    have hwrite : io'.write = false := by rw [hio, Bool.and_false]
    refine .inr ⟨⟨.errorNoSuchPartition, by decide, ?_⟩, ?_⟩
    · unfold bubWriteToPartition
      rw [hentry]
      rfl
    · unfold bubWriteToPartition
      rw [hwrite]
      split
      · exact ⟨.errorNoSuchPartition, by decide, rfl⟩
      · dsimp only
        split
        · exact ⟨.errorRangeOutsidePartition, by decide, rfl⟩
        · split
          · exact ⟨.errorRangeOutsidePartition, by decide, rfl⟩
          · exact ⟨.errorIo, by decide, rfl⟩

end

section

variable {turns : ℕ} {dev : BootDevice} {disk : Disk} {lookup reading writing kernel : LookupIo}
  {found : LookupIo → Bool} {io : DiskIo} {l : Option Ledger} {name : List Byte}

/-- A lookup that returns does so with an account. -/
theorem exists_lookupWithPools {status : EfiStatus} {entryBuf : EntryBuf}
    (h : bubPartitionEntryByName turns dev.blockSize lookup name disk = .returned status entryBuf)
    (l : Ledger) : ∃ entry l', lookupWithPools turns dev.blockSize lookup name disk l =
      (.returned status entryBuf, entry, l') :=
  ⟨_, _, Prod.ext ((lookup_pools l).1.trans h) rfl⟩

/-- The account goes on after a transfer whose lookup returns. -/
theorem isSome_transferPools
    (h : ∃ status entryBuf, bubPartitionEntryByName turns dev.blockSize lookup name disk =
      .returned status entryBuf) :
    (l.bind (transferPools turns dev.blockSize lookup name disk)).isSome = l.isSome := by
  obtain ⟨status, entryBuf, h⟩ := h
  cases l with
  | none => rfl
  | some l =>
    obtain ⟨entry, l₁, hlookup⟩ := exists_lookupWithPools h l
    rw [Option.bind_some, transferPools, hlookup]
    cases status <;> rfl

/-- The same of the lookup of `bub_boot_kernel`. -/
theorem isSome_lookupPools
    (h : ∃ status entryBuf, bubPartitionEntryByName turns dev.blockSize lookup name disk =
      .returned status entryBuf) :
    (l.bind (lookupPools turns dev.blockSize lookup name disk)).isSome = l.isSome := by
  obtain ⟨status, entryBuf, h⟩ := h
  cases l with
  | none => rfl
  | some l =>
    obtain ⟨entry, l₁, hlookup⟩ := exists_lookupWithPools h l
    rewrite [Option.bind_some, lookupPools, hlookup]
    rfl

/-- The metadata that is read behind a lookup is that of the device. -/
theorem bubReadAbDataFromMisc_poolOps
    (h : reading.Settles turns dev disk (found reading)) {io' : DiskIo}
    (hio : io'.read = (io.read && found reading)) :
    bubReadAbDataFromMisc (poolOps turns dev.blockSize reading writing io) (disk, l) =
      bubReadAbDataFromMisc (uefiOps dev.toMyBubOps io') disk := by
  have hops : (poolOps turns dev.blockSize reading writing io).readFromPartition miscPartition 0 64
      (disk, l) = bubReadFromPartition (.ofDisk turns dev.blockSize reading disk) io miscPartition
        0 64 disk := rfl
  have hops' : (uefiOps dev.toMyBubOps io').readFromPartition miscPartition 0 64 disk =
      bubReadFromPartition dev.toMyBubOps io' miscPartition 0 64 disk := rfl
  rcases bubReadFromPartition_behind h (.inl rfl) hio 0 64 with hsame | ⟨hfailed, hfailed'⟩
  · unfold bubReadAbDataFromMisc
    rw [hops, hops', hsame]
  · rw [bubReadAbDataFromMisc_of_not_ok hops (.inl hfailed),
      bubReadAbDataFromMisc_of_not_ok hops' (.inl hfailed')]

/-- So is the metadata that is written. -/
theorem bubWriteAbDataToMisc_poolOps
    (h : writing.Settles turns dev disk (found writing)) {io' : DiskIo}
    (hio : io'.write = (io.write && found writing)) (d : BubAbData) :
    bubWriteAbDataToMisc (poolOps turns dev.blockSize reading writing io) d (disk, l) =
      ((bubWriteAbDataToMisc (uefiOps dev.toMyBubOps io') d disk).1,
        (bubWriteAbDataToMisc (uefiOps dev.toMyBubOps io') d disk).2,
        l.bind (transferPools turns dev.blockSize writing miscPartition disk)) := by
  obtain ⟨⟨r, disk₁⟩, hwrite⟩ : ∃ r, bubWriteToPartition
      (.ofDisk turns dev.blockSize writing disk) io miscPartition d.image.toList 0 disk = r :=
    ⟨_, rfl⟩
  have hops : (poolOps turns dev.blockSize reading writing io).writeToPartition miscPartition
      d.image.toList 0 (disk, l) =
      (r, disk₁, l.bind (transferPools turns dev.blockSize writing miscPartition disk)) := by
    simp only [poolOps, hwrite]
  have hops' : (uefiOps dev.toMyBubOps io').writeToPartition miscPartition d.image.toList 0 disk =
      bubWriteToPartition dev.toMyBubOps io' miscPartition d.image.toList 0 disk := rfl
  rw [bubWriteAbDataToMisc_of_write hops]
  rcases bubWriteToPartition_behind h (.inl rfl) hio d.image.toList 0 with
    hsame | ⟨⟨r₁, hne, hfailed⟩, r₂, hne', hfailed'⟩
  · rw [bubWriteAbDataToMisc_of_write (hops'.trans (hsame.symm.trans hwrite))]
  · obtain ⟨rfl, rfl⟩ := Prod.mk.inj (hwrite.symm.trans hfailed)
    rw [bubWriteAbDataToMisc_of_write (hops'.trans hfailed'), if_neg hne, if_neg hne']

/-- The metadata functions behind the two lookups of a call of the A/B flow are those of the
device, and the account goes on. -/
theorem exists_poolOps (hreading : reading.Settles turns dev disk (found reading))
    (hwriting : writing.Settles turns dev disk (found writing)) (io : DiskIo)
    (l : Option Ledger) :
    let ops := poolOps turns dev.blockSize reading writing io
    let ops' := uefiOps dev.toMyBubOps ⟨io.read && found reading, io.write && found writing⟩
    ∃ l₁, afterRead turns dev.blockSize reading disk l = (disk, l₁) ∧ l₁.isSome = l.isSome ∧
      bubReadAbDataFromMisc ops (disk, l₁) = bubReadAbDataFromMisc ops' disk ∧
      ∀ d, ∃ l₂, bubWriteAbDataToMisc ops d (disk, l₁) =
          ((bubWriteAbDataToMisc ops' d disk).1, (bubWriteAbDataToMisc ops' d disk).2, l₂) ∧
        l₂.isSome = l.isSome := by
  have hsome : (l.bind (transferPools turns dev.blockSize reading miscPartition disk)).isSome =
      l.isSome := isSome_transferPools (hreading.returns miscPartition (.inl rfl))
  refine ⟨_, rfl, hsome, bubReadAbDataFromMisc_poolOps hreading rfl, fun d => ⟨_,
    bubWriteAbDataToMisc_poolOps hwriting rfl d, ?_⟩⟩
  rw [isSome_transferPools (hwriting.returns miscPartition (.inl rfl)), hsome]

/-- `bub_ab_flow` does what it does on the device. -/
theorem bubAbFlow_poolOps (hreading : reading.Settles turns dev disk (found reading))
    (hwriting : writing.Settles turns dev disk (found writing)) (io : DiskIo) (out : List Byte)
    (l : Option Ledger) :
    let flow := bubAbFlow
      (uefiOps dev.toMyBubOps ⟨io.read && found reading, io.write && found writing⟩) out disk
    ∃ l', bubAbFlow (poolOps turns dev.blockSize reading writing io) out
        (afterRead turns dev.blockSize reading disk l) = (flow.1, flow.2.1, flow.2.2, l') ∧
      l'.isSome = l.isSome := by
  obtain ⟨l₁, hafter, hsome, hread, hwrite⟩ := exists_poolOps hreading hwriting io l
  rw [hafter]
  generalize (⟨io.read && found reading, io.write && found writing⟩ : DiskIo) = io'
    at hread hwrite ⊢
  -- Both flows read the same; what they write then, they write alike.
  cases hmetadata : bubReadAbDataFromMisc (uefiOps dev.toMyBubOps io') disk with
  | error r =>
    rcases bubReadAbDataFromMisc_eq_error hmetadata with rfl | rfl
    · rw [bubAbFlow_of_read_error hmetadata, bubAbFlow_of_read_error (hread.trans hmetadata)]
      exact ⟨l₁, rfl, hsome⟩
    · obtain ⟨l₂, hreset, hsome₂⟩ := hwrite resetAbData
      rw [bubAbFlow_of_read_invalid hmetadata, bubAbFlow_of_read_invalid (hread.trans hmetadata),
        hreset]
      exact ⟨l₂, rfl, hsome₂⟩
  | ok d =>
    obtain ⟨l₂, hplanned, hsome₂⟩ := hwrite d.planned
    rw [bubAbFlow_of_read_ok hmetadata, bubAbFlow_of_read_ok (hread.trans hmetadata), hplanned]
    split_ifs
    · exact ⟨l₁, rfl, hsome⟩
    · exact ⟨l₂, rfl, hsome₂⟩
    · exact ⟨l₂, rfl, hsome₂⟩

/-- So does `bub_ab_mark_as_invalid`. -/
theorem bubAbMarkAsInvalid_poolOps (hreading : reading.Settles turns dev disk (found reading))
    (hwriting : writing.Settles turns dev disk (found writing)) (io : DiskIo)
    (suffix : List Byte) (l : Option Ledger) :
    let mark := bubAbMarkAsInvalid
      (uefiOps dev.toMyBubOps ⟨io.read && found reading, io.write && found writing⟩) suffix disk
    ∃ l', bubAbMarkAsInvalid (poolOps turns dev.blockSize reading writing io) suffix
        (afterRead turns dev.blockSize reading disk l) = (mark.1, mark.2, l') ∧
      l'.isSome = l.isSome := by
  obtain ⟨l₁, hafter, hsome, hread, hwrite⟩ := exists_poolOps hreading hwriting io l
  rw [hafter]
  generalize (⟨io.read && found reading, io.write && found writing⟩ : DiskIo) = io'
    at hread hwrite ⊢
  -- Both marks read the same; what they write then, they write alike.
  cases hmetadata : bubReadAbDataFromMisc (uefiOps dev.toMyBubOps io') disk with
  | error r =>
    rw [bubAbMarkAsInvalid_of_read_error hmetadata,
      bubAbMarkAsInvalid_of_read_error (hread.trans hmetadata)]
    exact ⟨l₁, rfl, hsome⟩
  | ok d =>
    rw [bubAbMarkAsInvalid_of_read_ok hmetadata,
      bubAbMarkAsInvalid_of_read_ok (hread.trans hmetadata)]
    cases suffixSlot suffix with
    | none => exact ⟨l₁, rfl, hsome⟩
    | some i =>
      obtain ⟨l₂, hmark, hsome₂⟩ := hwrite (d.invalidated i)
      dsimp only
      rw [hmark]
      exact ⟨l₂, rfl, hsome₂⟩

/-- `bub_boot_kernel` after the format checks does what it does on the device. -/
theorem startBootImageWithPools_eq (hkernel : kernel.Settles turns dev disk (found kernel))
    (hname : LookedUp name) (io : BootIo) (head : BootImgHdr) (readHeader findEntry : Bool) :
    (startBootImageWithPools turns dev.blockSize kernel io name head disk l).1 =
        startBootImage dev.toMyBubOps
          { io with readHeader, findEntry, readKernel := io.readKernel && found kernel }
          name head disk ∧
      (startBootImageWithPools turns dev.blockSize kernel io name head disk l).2.isSome =
        l.isSome := by
  have hpools : ((l.map (·.alloc.2)).bind
      (transferPools turns dev.blockSize kernel name disk)).isSome = l.isSome := by
    rw [isSome_transferPools (hkernel.returns name hname), Option.isSome_map]
  -- A read of the kernel that fails ends both alike, whatever its code is.
  have hresult : startBootImage (.ofDisk turns dev.blockSize kernel disk) io name head disk =
      startBootImage dev.toMyBubOps
        { io with readHeader, findEntry, readKernel := io.readKernel && found kernel }
        name head disk := by
    unfold startBootImage
    dsimp only
    rcases @bubReadFromPartition_behind turns dev disk kernel ⟨io.readKernel, true⟩
      ⟨io.readKernel && found kernel, true⟩ (found kernel) name hkernel hname rfl
      (head.pageSize.setWidth 64) (head.kernelSize.setWidth 64) with hsame | ⟨hfailed, hfailed'⟩
    · rw [hsame]
    · rw [if_pos hfailed, if_pos hfailed']
  unfold startBootImageWithPools
  dsimp only
  rw [hresult]
  split_ifs
  · exact ⟨rfl, rfl⟩
  · exact ⟨rfl, hpools⟩
  · exact ⟨rfl, hpools⟩
  · exact ⟨rfl, hpools⟩
  · exact ⟨rfl, Option.isSome_map.trans hpools⟩

/-- So does the whole of `bub_boot_kernel`. -/
theorem bubBootKernelWithPools_eq {lookups : TurnLookups} (io : TurnIo) (hname : LookedUp name)
    (h : ∀ lookup ∈ lookups.all, lookup.Settles turns dev disk (found lookup)) :
    (bubBootKernelWithPools turns dev.blockSize lookups io.boot name disk l).1 =
        bubBootKernel dev.toMyBubOps (io.behind lookups found).boot name disk ∧
      (bubBootKernelWithPools turns dev.blockSize lookups io.boot name disk l).2.isSome =
        l.isSome := by
  obtain ⟨-, -, hheader, hentry, hkernel, -, -⟩ := TurnLookups.forall_mem_all.mp h
  have hpools : ((l.map (·.alloc.2)).bind
      (transferPools turns dev.blockSize lookups.header name disk)).isSome = l.isSome := by
    rw [isSome_transferPools (hheader.returns name hname), Option.isSome_map]
  have hpools' := (isSome_lookupPools (hentry.returns name hname)).trans hpools
  unfold bubBootKernelWithPools bubBootKernel TurnIo.behind
  dsimp only
  by_cases halloc : (!io.boot.allocHeader) = true
  · rw [if_pos halloc, if_pos halloc]
    exact ⟨rfl, rfl⟩
  rw [if_neg halloc, if_neg halloc]
  unfold readBootImgHdr
  dsimp only
  rcases @bubReadFromPartition_behind turns dev disk lookups.header ⟨io.boot.readHeader, true⟩
    ⟨io.boot.readHeader && found lookups.header, true⟩ (found lookups.header) name hheader hname
    rfl 0 1632 with hsame | ⟨hfailed, hfailed'⟩
  · rw [hsame]
    by_cases hio : (bubReadFromPartition dev.toMyBubOps
        ⟨io.boot.readHeader && found lookups.header, true⟩ name 0 1632 disk).1 ≠ .ok
    · rw [if_pos hio, if_pos hio]
      exact ⟨rfl, hpools⟩
    rw [if_neg hio, if_neg hio, hentry.entry name hname]
    -- The entry that is looked up next is that of the device, or none.
    cases if found lookups.entry then dev.entryByName name else none with
    | none => exact ⟨rfl, hpools'⟩
    | some entry =>
      dsimp only
      split_ifs
      · obtain ⟨hresult, hsome⟩ := startBootImageWithPools_eq hkernel hname io.boot _
          (io.boot.readHeader && found lookups.header) (found lookups.entry)
        exact ⟨hresult, hsome.trans hpools'⟩
      · exact ⟨rfl, hpools'⟩
  · rw [if_pos hfailed, if_pos hfailed']
    exact ⟨rfl, hpools⟩

/-- **A turn is one on the device**, and the account goes on. -/
theorem efiMainTurnWithPools_eq {lookups : TurnLookups} (io : TurnIo) {s : MainState}
    (hs : s.Named) (l : Option Ledger)
    (h : ∀ b, ∀ lookup ∈ lookups.all,
      lookup.Settles turns dev (dev.withMiscBlock s.disk b) (found lookup)) :
    ∃ l', efiMainTurnWithPools turns dev.blockSize lookups io (s, l) =
        Sum.map (·, l') (·, l') (efiMainTurn dev.toMyBubOps (io.behind lookups found) s) ∧
      l'.isSome = l.isSome := by
  have hself : ∀ lookup ∈ lookups.all, lookup.Settles turns dev s.disk (found lookup) := by
    have hmisc := h (dev.miscBlock s.disk)
    rwa [dev.withMiscBlock_miscBlock] at hmisc
  obtain ⟨hflowRead, hflowWrite, -⟩ := TurnLookups.forall_mem_all.mp hself
  obtain ⟨l₁, hflow, hsome₁⟩ := bubAbFlow_poolOps hflowRead hflowWrite io.abFlow s.slotSuffix l
  obtain ⟨⟨abResult, slotSuffix, disk⟩, hdevice⟩ : ∃ r, bubAbFlow (uefiOps dev.toMyBubOps
      (io.behind lookups found).abFlow) s.slotSuffix s.disk = r := ⟨_, rfl⟩
  have hframe : ∃ b, disk = dev.withMiscBlock s.disk b := by
    rw [bubAbFlow_uefiOps] at hdevice
    exact ⟨_, (Prod.mk.inj (Prod.mk.inj hdevice).2).2.symm⟩
  have hflow' : bubAbFlow (poolOps turns dev.blockSize lookups.flowRead lookups.flowWrite io.abFlow)
      s.slotSuffix (afterRead turns dev.blockSize lookups.flowRead s.disk l) =
        (abResult, slotSuffix, disk, l₁) := by
    rw [hflow]
    exact congrArg (fun r => (r.1, r.2.1, r.2.2, l₁)) hdevice
  unfold efiMainTurnWithPools efiMainTurn
  dsimp only
  rw [hflow', hdevice]
  dsimp only
  by_cases hok : abResult ≠ .ok
  · rw [if_pos hok, if_pos hok]
    exact ⟨l₁, rfl, hsome₁⟩
  rw [if_neg hok, if_neg hok]
  rw [ne_eq, not_not] at hok
  subst hok
  -- The flow hands out a slot, and the kernel is looked for in its partition.
  obtain ⟨i, rfl⟩ := exists_suffix_of_bubAbFlow hdevice
  obtain ⟨b, rfl⟩ := hframe
  have hname : LookedUp ((s.bootName.take 4 ++
      (copySuffix (clearSuffix s.slotSuffix) (bubSuffixes i)).take 3 ++
        s.bootName.drop 7).takeWhile (· ≠ 0)) := by
    rw [take_copySuffix, hs.bootName]
    exact .inr ⟨i, rfl⟩
  obtain ⟨hboot, hsome₂⟩ := bubBootKernelWithPools_eq (l := l₁) io hname (h b)
  generalize (s.bootName.take 4 ++
    (copySuffix (clearSuffix s.slotSuffix) (bubSuffixes i)).take 3 ++
      s.bootName.drop 7) = bootName at hboot hsome₂ ⊢
  generalize bubBootKernelWithPools turns dev.blockSize lookups io.boot
    (bootName.takeWhile (· ≠ 0)) (dev.withMiscBlock s.disk b) l₁ = boot at hboot hsome₂ ⊢
  obtain ⟨result, l₂⟩ := boot
  dsimp only at hboot hsome₂ ⊢
  rw [← hboot]
  have hsome := hsome₂.trans hsome₁
  cases result with
  | none => exact ⟨l₂, rfl, hsome⟩
  | some boot =>
    obtain ⟨bootResult, started⟩ := boot
    dsimp only
    by_cases hinvalid : bootResult = .errorPartitionInvalidFormat
    · rw [if_pos hinvalid, if_pos hinvalid]
      obtain ⟨-, -, -, -, -, hmarkRead, hmarkWrite⟩ := TurnLookups.forall_mem_all.mp (h b)
      obtain ⟨l₃, hmark, hsome₃⟩ := bubAbMarkAsInvalid_poolOps hmarkRead hmarkWrite io.mark
        (copySuffix (clearSuffix s.slotSuffix) (bubSuffixes i)) l₂
      refine ⟨l₃, ?_, hsome₃.trans hsome⟩
      rw [hmark]
      unfold TurnIo.behind
      dsimp only
      split_ifs <;> rfl
    · rw [if_neg hinvalid, if_neg hinvalid]
      refine ⟨l₂, ?_, hsome⟩
      split_ifs <;> rfl

/-- What a lookup comes to does not depend on the metadata block. -/
theorem LookupIo.Settles.withMiscBlock {found : Bool} (h : lookup.Settles turns dev disk found)
    (hapart : dev.misc.ApartFromTable dev.blockSize) (b : Bytes 64) :
    lookup.Settles turns dev (dev.withMiscBlock disk b) found where
  returns name hname := by
    rw [bubPartitionEntryByName_withMiscBlock hapart]
    exact h.returns name hname
  entry name hname := by
    rw [ofDisk_withMiscBlock hapart]
    exact h.entry name hname

/-- **The boot loop over the table, with a lookup for every transfer, is that of the device**, on
which the transfer behind a lookup that finds nothing fails. The account of its pools never ends. -/
theorem efiMainWithPools_eq (hapart : dev.misc.ApartFromTable dev.blockSize)
    {lookups : ℕ → TurnLookups}
    (h : ∀ k, ∀ lookup ∈ (lookups k).all, lookup.Settles turns dev disk (found lookup))
    (io : ℕ → TurnIo) (l : Ledger) (k : ℕ) :
    ∃ l', efiMainWithPools turns dev.blockSize lookups io disk l k =
      Sum.map (·, some l') (·, some l') (efiMain (some dev.toMyBubOps)
        (fun k => (io k).behind (lookups k) found) disk k) := by
  -- The disk differs from the first one in the metadata block only, so that lookups settle as
  -- before.
  induction k with
  | zero => exact ⟨l, rfl⟩
  | succ k ih =>
    obtain ⟨l₁, hrun⟩ := ih
    obtain ⟨b, hframe⟩ := efiMain_frame dev (fun k => (io k).behind (lookups k) found) disk k
    cases hdevice : efiMain (some dev.toMyBubOps) (fun k => (io k).behind (lookups k) found) disk k
      with
    | inl s =>
      rw [hdevice] at hrun hframe
      have hs : s.disk = dev.withMiscBlock disk b := hframe
      have hsettles (b' : Bytes 64) : ∀ lookup ∈ (lookups k).all,
          lookup.Settles turns dev (dev.withMiscBlock s.disk b') (found lookup) := by
        intro lookup hlookup
        rw [hs, dev.withMiscBlock_withMiscBlock]
        exact (h k lookup hlookup).withMiscBlock hapart b'
      obtain ⟨l', hturn, hsome⟩ :=
        efiMainTurnWithPools_eq (io k) (named_of_efiMain hdevice) (some l₁) hsettles
      obtain ⟨l₂, rfl⟩ := Option.isSome_iff_exists.mp hsome
      have hnext : efiMain (some dev.toMyBubOps) (fun k => (io k).behind (lookups k) found) disk
          (k + 1) = efiMainTurn dev.toMyBubOps ((io k).behind (lookups k) found) s :=
        DoWhile.run_succ_of_inl hdevice
      have hnext' : efiMainWithPools turns dev.blockSize lookups io disk l (k + 1) =
          efiMainTurnWithPools turns dev.blockSize (lookups k) (io k) (s, some l₁) :=
        DoWhile.run_succ_of_inl hrun
      exact ⟨l₂, by rw [hnext, hnext', hturn]⟩
    | inr e =>
      rw [hdevice] at hrun
      have hnext : efiMain (some dev.toMyBubOps) (fun k => (io k).behind (lookups k) found) disk
          (k + 1) = .inr e := DoWhile.run_succ_of_inr hdevice
      have hnext' : efiMainWithPools turns dev.blockSize lookups io disk l (k + 1) =
          .inr (e, some l₁) := DoWhile.run_succ_of_inr hrun
      rewrite [hnext, hnext']
      exact ⟨l₁, rfl⟩

end

/-! ## The pools of a run -/

/-- The frees of a null pointer in the turns of a run that goes on: those of its marks. -/
def nullFreesOf (lookups : ℕ → TurnLookups) (k : ℕ) : ℕ :=
  (List.range k).countP fun j =>
    (lookups j).markWrite.allocHeader && !(lookups j).markWrite.allocEntry

/-- The frees of one more turn. -/
theorem nullFreesOf_succ (lookups : ℕ → TurnLookups) (k : ℕ) :
    nullFreesOf lookups (k + 1) = nullFreesOf lookups k + (lookups k).markWrite.nullFrees := by
  rw [nullFreesOf, List.range_succ, List.countP_append, List.countP_singleton]
  rfl

/-- **The boot loop leaves two pools behind at every turn**, and the turn that starts a kernel
leaves four. A free is refused for each mark whose lookup got no buffer for its entry. -/
theorem bootLoop_pools (turns : ℕ) (blockSize : BitVec 32) (lookups : ℕ → TurnLookups)
    (io : ℕ → TurnIo) (disk : Disk) (l : Ledger) {k : ℕ} {s : MainState} {l' : Ledger}
    (h : efiMainWithPools turns blockSize lookups io disk l k = .inl (s, some l')) :
    Ledger.Holds l l' ∅ (2 * k) (nullFreesOf lookups k) ∧
      ∀ e l'', efiMainWithPools turns blockSize lookups io disk l (k + 1) = .inr (e, some l'') →
        e.exit = .returned → Ledger.Holds l l'' ∅ (2 * k + 4) (nullFreesOf lookups k) := by
  have hturns : Ledger.Holds l l' ∅ (2 * k) (nullFreesOf lookups k) := by
    induction k generalizing s l' with
    | zero =>
      obtain rfl : l = l' := Option.some.inj (Prod.mk.inj (Sum.inl.inj h)).2
      exact Ledger.Holds.refl l
    | succ k ih =>
      obtain ⟨⟨s₁, l₁⟩, hrun, hturn⟩ := DoWhile.exists_of_run_succ_eq_inl h
      obtain ⟨m, rfl, hheld⟩ := leaves_efiMainTurnWithPools.1 s hturn
      rw [nullFreesOf_succ]
      exact (ih hrun).trans hheld
  refine ⟨hturns, fun e l'' he hexit => ?_⟩
  have hturn : efiMainTurnWithPools turns blockSize (lookups k) (io k) (s, some l') =
      .inr (e, some l'') := (DoWhile.run_succ_of_inl h).symm.trans he
  obtain ⟨m, hm, hheld⟩ := leaves_efiMainTurnWithPools.2 e hturn hexit
  obtain rfl := Option.some.inj hm
  exact hturns.trans hheld

/-- A lookup that gets no buffer for its entry, and cannot read the header. -/
def LookupIo.starved : LookupIo :=
  { LookupIo.success with allocEntry := false, readHeader := false }

/-- Such a lookup comes back without an entry. -/
theorem settles_starved (turns : ℕ) (dev : BootDevice) (disk : Disk) :
    LookupIo.starved.Settles turns dev disk false := by
  have hlookup (name : List Byte) :
      bubPartitionEntryByName turns dev.blockSize .starved name disk = .returned .notFound .null :=
    rfl
  refine ⟨fun name _ => ⟨_, _, hlookup name⟩, fun name _ => ?_⟩
  simp only [MyBubOps.ofDisk, hlookup]
  rfl

/-- A lookup that finds the partitions of the device returns. -/
theorem settles_of_ofDisk {turns : ℕ} {dev : BootDevice} {disk : Disk} {lookup : LookupIo}
    (h : MyBubOps.ofDisk turns dev.blockSize lookup disk = dev.toMyBubOps) :
    lookup.Settles turns dev disk true := by
  refine ⟨fun name hname => ?_, fun name _ => by rw [h]; rfl⟩
  have hfound : ∃ entry, (MyBubOps.ofDisk turns dev.blockSize lookup disk).entryByName name =
      some entry := by
    rw [h]
    rcases hname with rfl | ⟨i, rfl⟩
    · exact ⟨_, dev.misc_entry⟩
    · exact ⟨_, dev.boot_entry i⟩
  obtain ⟨entry, hentry⟩ := hfound
  unfold MyBubOps.ofDisk at hentry
  dsimp only at hentry
  split at hentry
  · next hlookup => exact ⟨_, _, hlookup⟩
  · cases hentry

/-- The lookups of a turn, the last of which is starved. -/
def starvedMark : TurnLookups :=
  ⟨.success, .success, .success, .success, .success, .success, .starved⟩

/-- The first boot image of the three partitions is blank. -/
theorem bubBootKernel_threeEntries :
    (bubBootKernel threeEntries .success (bootPartition 0) threePartitions).map Prod.fst =
      some .errorPartitionInvalidFormat := by
  decide +kernel

/-- With a good slot A and a blank image, a mark that is starved lets the loop go on. -/
theorem exists_starvedMark : ∃ dev : BootDevice, ∃ s l',
    efiMainWithPools 7 dev.blockSize (fun _ => starvedMark) (fun _ => workingTurn)
      (dev.withMiscBlock threePartitions goodSlotA.image) .empty 1 = .inl (s, some l') := by
  obtain ⟨dev, hdev, hapart⟩ := exists_threeDevice
  have htable : MyBubOps.ofDisk 7 dev.blockSize .success threePartitions = dev.toMyBubOps := by
    rw [hdev]
    rfl
  have hsettles : ∀ lookup ∈ starvedMark.all, lookup.Settles 7 dev
      (dev.withMiscBlock threePartitions goodSlotA.image) lookup.readHeader := by
    have hsuccess := (settles_of_ofDisk htable).withMiscBlock hapart goodSlotA.image
    have hstarved := settles_starved 7 dev (dev.withMiscBlock threePartitions goodSlotA.image)
    exact TurnLookups.forall_mem_all.mpr
      ⟨hsuccess, hsuccess, hsuccess, hsuccess, hsuccess, hsuccess, hstarved⟩
  obtain ⟨l', hrun⟩ :=
    efiMainWithPools_eq hapart (fun _ => hsettles) (fun _ => workingTurn) .empty 1
  -- On the device, the first turn rejects the image, and cannot write its mark.
  have hinvalid : ¬ dev.ImageValid .success threePartitions 0 := by
    have hkernel := bubBootKernel_threeEntries
    rw [← hdev] at hkernel
    rcases bubBootKernel_cases (dev.boot_entry 0) (dev.boot_wellPlaced 0) .success threePartitions
      with ⟨hfailed, -⟩ | ⟨-, hinvalid, -⟩ | ⟨-, -, hstart⟩
    · exact absurd ⟨rfl, rfl, rfl⟩ hfailed
    · exact hinvalid
    · rw [hstart] at hkernel
      obtain ⟨⟨result, started⟩, hresult, rfl⟩ := Option.map_eq_some_iff.mp hkernel
      exact absurd hresult (startBootImage_ne_invalid _ _ _ started)
  have hrejects : Rejects dev (workingTurn.behind starvedMark LookupIo.readHeader)
      (dev.withMiscBlock threePartitions goodSlotA.image) 0 := by
    refine ⟨rfl, rfl, rfl, ?_⟩
    rw [dev.imageValid_withMiscBlock]
    exact hinvalid
  have hstart : MainState.Named ⟨[0, 0, 0], ascii ['b', 'o', 'o', 't'] ++ [0, 0, 0],
      dev.withMiscBlock threePartitions goodSlotA.image⟩ := rfl
  obtain ⟨s, hturn, -⟩ := efiMainTurn_goodSlotA hstart (dev.miscBlock_withMiscBlock _ _) rfl
    hrejects rfl rfl
  have hdevice : efiMain (some dev.toMyBubOps)
      (fun _ => workingTurn.behind starvedMark LookupIo.readHeader)
      (dev.withMiscBlock threePartitions goodSlotA.image) 1 = .inl s := hturn
  rw [hdevice] at hrun
  exact ⟨dev, s, l', hrun⟩

/-- That turn leaves two pools behind, and a free of it is refused. -/
theorem starvedMark_pools : ∃ dev : BootDevice, ∃ s l',
    efiMainWithPools 7 dev.blockSize (fun _ => starvedMark) (fun _ => workingTurn)
        (dev.withMiscBlock threePartitions goodSlotA.image) .empty 1 = .inl (s, some l') ∧
      Ledger.Holds .empty l' ∅ 2 1 := by
  obtain ⟨dev, s, l', hrun⟩ := exists_starvedMark
  exact ⟨dev, s, l', hrun, (bootLoop_pools 7 dev.blockSize _ _ _ .empty hrun).1⟩

end BrilloBoot
