import BrilloBoot.GptSearch
import BrilloBoot.Lib.DevicePath
import BrilloBoot.Lib.DoWhile
import BrilloBoot.Lib.Ledger

/-!
# Finding the disk

`walk_path`, `getDiskBlockIo` and `bub_init` of `bub_boot_kernel.c`. From the device path of the
device that the boot loader was loaded from, the loop asks the firmware for the device nearest to
each longer and longer front of the path, until one of them is a whole disk with a valid GPT header.
The firmware is a parameter. When it answers as it is documented to, the disk that is found is the
topmost one that can be (`bubInit_topmost`). `LocateDevicePath` moves the pointers that the loop
then frees, so that every turn that finds a device leaves its two pools behind; and the messages for
debugging print texts of paths that nobody frees (`bubInit_pools`). The account follows the turns of
the walk: what one turn does to the pools is in `locateDevices_cases`.
-/

namespace BrilloBoot

open DevicePath

/-- `BlockIoProtocol` and `DiskIoProtocol`. -/
inductive Protocol
  | blockIo
  | diskIo
deriving DecidableEq

/-- What the loop looks at of `EFI_BLOCK_IO_MEDIA`. -/
structure Media where
  logicalPartition : Bool
  mediaPresent : Bool

/-- The firmware. The interface that a handle has for a protocol is named by the handle. -/
structure Firmware (Handle : Type*) where
  /-- The memory from the device path of a handle on. -/
  devicePathFromHandle : Handle → Option Disk
  /-- The handle that is located, and how far the pointer to the path is moved. -/
  locateDevicePath : Protocol → List Byte → Option (Handle × ℕ)
  handleProtocol : Protocol → Handle → Bool
  media : Handle → Media
  /-- `ReadBlocks` of the block of the GPT header. -/
  readHeader : Handle → Option (Bytes 512)
  calculateCrc : List Byte → BitVec 32
  /-- The account of the pools after `DevicePathToStr`. Its text is printed, and not freed. -/
  devicePathToStr : Ledger → Ledger

/-- Which allocations of one turn succeed. -/
structure WalkIo where
  ioPath : Bool
  diskPath : Bool

/-- Both allocations succeed. -/
def WalkIo.success : WalkIo := ⟨true, true⟩

/-- `walk_path`: a copy of the nodes up to the walker's, with an end. -/
def walkPath (alloc : Bool) (init : Disk) (walker : ℕ) (pools : Ledger) :
    Option (List Byte × Ptr × Ledger) :=
  if alloc then
    let walkerBytes := next init walker
    some (init.read 0 walkerBytes ++ endNode, pools.alloc)
  else none

/-- The walker, the members of `MyBubOps` that are set, and the account of the pools. -/
structure WalkState (Handle : Type*) where
  walkerPath : ℕ
  blockIo : Option Handle
  diskIo : Option Handle
  path : Option Ptr
  pools : Ledger

/-- How the walk ends. -/
inductive WalkEnd (Handle : Type*)
  /-- The path is copied through a null pointer. -/
  | nullCopy
  | returned (status : EfiStatus) (s : WalkState Handle)

section

variable {Handle : Type*} (fw : Firmware Handle)

/-- `bub_free` of the two copies of the path, before a `continue`. -/
def WalkState.freePaths (s : WalkState Handle) (diskPath : Ptr) : WalkState Handle :=
  { s with pools := (s.pools.free s.path).free (some diskPath) }

/-- The turn from the first `HandleProtocol` on. -/
def checkDevices (s : WalkState Handle) (diskPath : Ptr) (blockHandle diskHandle : Handle) :
    WalkState Handle ⊕ WalkEnd Handle :=
  if !fw.handleProtocol .blockIo blockHandle then
    .inl (WalkState.freePaths { s with blockIo := none } diskPath)
  else
    let s := { s with blockIo := some blockHandle }
    if !fw.handleProtocol .diskIo diskHandle then
      .inl (WalkState.freePaths { s with diskIo := none } diskPath)
    else
      let s := { s with diskIo := some diskHandle }
      let media := fw.media blockHandle
      if media.logicalPartition || !media.mediaPresent then .inl (s.freePaths diskPath)
      else match fw.readHeader blockHandle with
      | none => .inl (s.freePaths diskPath)
      | some gptHeader =>
        if validateGpt fw.calculateCrc (.ofBytes gptHeader) ≠ .success then
          .inl (s.freePaths diskPath)
        -- The copy in `disk_path` is not freed.
        else .inr (.returned .success { s with pools := fw.devicePathToStr s.pools })

/-- The turn from the first `LocateDevicePath` on, with the copies of a path. -/
def locateDevices (s : WalkState Handle) (path : List Byte) (ioPath diskPath : Ptr) :
    WalkState Handle ⊕ WalkEnd Handle :=
  match fw.locateDevicePath .blockIo path with
  | none => .inl (WalkState.freePaths { s with path := some ioPath } diskPath)
  | some (blockHandle, blockBytes) =>
    let s := { s with path := some (ioPath.advance blockBytes) }
    match fw.locateDevicePath .diskIo path with
    | none => .inl (s.freePaths diskPath)
    | some (diskHandle, diskBytes) =>
      checkDevices fw s (diskPath.advance diskBytes) blockHandle diskHandle

/-- One turn of the loop of `getDiskBlockIo`. -/
def getDiskBlockIoTurn (init : Disk) (io : WalkIo) (s : WalkState Handle) :
    WalkState Handle ⊕ WalkEnd Handle :=
  if isEnd init s.walkerPath then .inr (.returned .notFound { s with blockIo := none })
  else
    let s := { s with walkerPath := next init s.walkerPath }
    match walkPath io.ioPath init s.walkerPath s.pools with
    | none => .inr (.returned .notFound { s with path := none })
    | some (path, ioPath, pools) =>
      let pools := fw.devicePathToStr pools
      -- Whether this allocation succeeded is not looked at.
      if !io.diskPath then .inr .nullCopy
      else
        let (diskPath, pools) := pools.alloc
        locateDevices fw { s with pools } path ioPath diskPath

/-- `getDiskBlockIo`, for a number of turns of its loop. The members of `MyBubOps` that it sets hold
anything before. -/
def getDiskBlockIo (io : ℕ → WalkIo) (blockHandle : Handle) (s : WalkState Handle) (turns : ℕ) :
    WalkState Handle ⊕ WalkEnd Handle :=
  let s := { s with pools := fw.devicePathToStr s.pools }
  match fw.devicePathFromHandle blockHandle with
  | none => .inr (.returned .notFound s)
  | some init =>
    DoWhile.run (fun k => getDiskBlockIoTurn fw init (io k)) { s with walkerPath := 0 } turns

/-- How `bub_init` ends. -/
inductive InitEnd (Handle : Type*)
  | nullCopy
  | returned (value : ℕ) (s : WalkState Handle)

/-- `bub_init`, for a number of turns of the loop. `loadedImage` is the device that the boot loader
was loaded from, if `HandleProtocol` tells. -/
def bubInit (io : ℕ → WalkIo) (loadedImage : Option Handle) (s : WalkState Handle) (turns : ℕ) :
    WalkState Handle ⊕ InitEnd Handle :=
  match loadedImage with
  | none => .inr (.returned 0 s)
  | some deviceHandle =>
    -- The text is that of the path of the image file.
    let s := { s with pools := fw.devicePathToStr s.pools }
    match getDiskBlockIo fw io deviceHandle s turns with
    | .inl s => .inl s
    | .inr .nullCopy => .inr .nullCopy
    | .inr (.returned .notFound s) => .inr (.returned 0 s)
    | .inr (.returned .success s) => .inr (.returned 1 s)

end

/-! ## What the firmware says about a path -/

section

variable {Handle : Type*} (fw : Firmware Handle)

/-- The two devices have the protocols, and are a whole disk with a valid GPT header. -/
def Firmware.accepts (block disk : Handle) : Bool :=
  fw.handleProtocol .blockIo block && fw.handleProtocol .diskIo disk &&
    !((fw.media block).logicalPartition || !(fw.media block).mediaPresent) &&
    (fw.readHeader block).any fun gptHeader =>
      validateGpt fw.calculateCrc (.ofBytes gptHeader) = .success

/-- The devices that a turn takes for a path. -/
def Firmware.devices (path : List Byte) : Option (Handle × Handle) :=
  match fw.locateDevicePath .blockIo path, fw.locateDevicePath .diskIo path with
  | some (block, _), some (disk, _) => if fw.accepts block disk then some (block, disk) else none
  | _, _ => none

/-- What is documented of `DevicePathToStr`: it allocates the text that it returns. -/
def Firmware.AllocatesTexts : Prop := ∀ l, Ledger.Holds l (fw.devicePathToStr l) ∅ 1 0

/-- The pools of a turn on a path whose pointers are moved. -/
def Firmware.moved (path : List Byte) : ℕ :=
  match fw.locateDevicePath .blockIo path with
  | none => 0
  | some (_, blockBytes) =>
    Ledger.misses blockBytes +
      match fw.locateDevicePath .diskIo path with
      | none => 0
      | some (_, diskBytes) => Ledger.misses diskBytes

variable {fw} {init : Disk} {s : WalkState Handle}

/-- The two copies of a path are freed through the pointers that the firmware has moved. -/
theorem holds_freePaths {l : Ledger} {s : WalkState Handle} {p q lost : ℕ} (n m : ℕ)
    (hpath : s.path = some ((Ledger.start p).advance n))
    (hpools : Ledger.Holds l s.pools {q, p} lost 0) (hne : q ≠ p) :
    Ledger.Holds l (s.freePaths ((Ledger.start q).advance m)).pools ∅
      (lost + (Ledger.misses n + Ledger.misses m)) (Ledger.misses n + Ledger.misses m) := by
  have hnone : ((({q, p} : Finset ℕ).erase p).erase q) = ∅ := by
    ext pool
    simp
    tauto
  have hfreed := (hpools.free_advance (by simp : p ∈ _) n).free_advance
    (Finset.mem_erase.mpr ⟨hne, by simp⟩ : q ∈ _) m
  rw [hnone, Nat.zero_add, Nat.add_assoc] at hfreed
  rwa [WalkState.freePaths, hpath]

/-- The account in a turn, with both copies of its path and with their text. -/
def Firmware.copyPools (fw : Firmware Handle) (l : Ledger) : Ledger :=
  (fw.devicePathToStr l.alloc.2).alloc.2

/-- The pool of the copy for the Disk I/O. -/
def Firmware.diskPool (fw : Firmware Handle) (l : Ledger) : ℕ := (fw.devicePathToStr l.alloc.2).next

/-- A turn holds its two copies, and has lost the text. -/
theorem holds_copyPools (htext : fw.AllocatesTexts) (l : Ledger) :
    Ledger.Holds l (fw.copyPools l) {fw.diskPool l, l.next} 1 0 ∧ fw.diskPool l ≠ l.next := by
  have hcopy : Ledger.Holds l (fw.devicePathToStr l.alloc.2) {l.next} 1 0 := by
    have hpath := (Ledger.Holds.refl l).alloc.trans (htext l.alloc.2)
    rwa [insert_empty_eq, Nat.zero_add] at hpath
  exact ⟨hcopy.alloc, fun heq =>
    hcopy.next_notMem (Finset.mem_singleton.mpr heq)⟩

variable (fw) in
/-- Devices that are accepted end the loop; with others, the copies are freed. -/
theorem checkDevices_cases (s : WalkState Handle) (diskPath : Ptr) (block disk : Handle) :
    (fw.accepts block disk = true ∧ checkDevices fw s diskPath block disk =
      .inr (.returned .success { s with
        blockIo := some block
        diskIo := some disk
        pools := fw.devicePathToStr s.pools })) ∨
    (fw.accepts block disk = false ∧ ∃ blockIo diskIo, checkDevices fw s diskPath block disk =
      .inl (WalkState.freePaths { s with blockIo, diskIo } diskPath)) := by
  unfold Firmware.accepts checkDevices
  -- The checks, in their order.
  cases hblock : fw.handleProtocol .blockIo block
  · exact .inr ⟨rfl, none, s.diskIo, rfl⟩
  cases hdisk : fw.handleProtocol .diskIo disk
  · exact .inr ⟨rfl, some block, none, rfl⟩
  cases hmedia : (fw.media block).logicalPartition || !(fw.media block).mediaPresent
  · cases hread : fw.readHeader block with
    | none => exact .inr ⟨rfl, some block, some disk, by simp only [hmedia]; rfl⟩
    | some gptHeader =>
      by_cases hvalid : validateGpt fw.calculateCrc (.ofBytes gptHeader) = .success
      · exact .inl ⟨by simp [hvalid], by simp only [hmedia, hvalid]; rfl⟩
      · refine .inr ⟨by simp [hvalid], some block, some disk, ?_⟩
        simp only [hmedia]
        exact if_pos hvalid
  · exact .inr ⟨rfl, some block, some disk, by simp only [hmedia]; rfl⟩

variable (fw) in
/-- What comes of the copies of a path: both are held until `bub_init` has returned; or they are
freed as far as they can be. -/
theorem locateDevices_cases (s : WalkState Handle) (p q : ℕ) (path : List Byte) :
    (∃ block disk n, fw.devices path = some (block, disk) ∧
      locateDevices fw s path (Ledger.start p) (Ledger.start q) =
        .inr (.returned .success { s with
          blockIo := some block
          diskIo := some disk
          path := some ((Ledger.start p).advance n)
          pools := fw.devicePathToStr s.pools })) ∨
    (fw.devices path = none ∧ ∃ s',
      locateDevices fw s path (Ledger.start p) (Ledger.start q) = .inl s' ∧
      s'.walkerPath = s.walkerPath ∧
      ∀ l lost, Ledger.Holds l s.pools {q, p} lost 0 → q ≠ p →
        Ledger.Holds l s'.pools ∅ (lost + fw.moved path) (fw.moved path)) := by
  unfold Firmware.devices Firmware.moved locateDevices
  -- A pointer is moved once its device is located; the frees go through what the pointers are then.
  cases hblock : fw.locateDevicePath .blockIo path with
  | none =>
    refine .inr ⟨rfl, _, rfl, rfl, fun l lost hpools hne => ?_⟩
    exact holds_freePaths (p := p) 0 0 rfl hpools hne
  | some block =>
    obtain ⟨block, n⟩ := block
    cases hdisk : fw.locateDevicePath .diskIo path with
    | none =>
      refine .inr ⟨rfl, _, rfl, rfl, fun l lost hpools hne => ?_⟩
      exact holds_freePaths n 0 rfl hpools hne
    | some disk =>
      obtain ⟨disk, m⟩ := disk
      rcases checkDevices_cases fw
        { s with path := some ((Ledger.start p).advance n) }
        ((Ledger.start q).advance m) block disk with
        ⟨haccepts, heq⟩ | ⟨haccepts, blockIo, diskIo, heq⟩
      · exact .inl ⟨block, disk, n, by simp [haccepts], heq⟩
      · refine .inr ⟨by simp [haccepts], _, heq, rfl, fun l lost hpools hne => ?_⟩
        exact holds_freePaths n m rfl hpools hne

end

/-! ## The walk -/

section

variable {Handle : Type*} {fw : Firmware Handle} {init : Disk} {nodes : List Node}

/-- The path that the turn at a node asks for: the nodes up to the one behind it, with an end.
Behind the last node this is the end of the path itself, so that the path has two ends. -/
def walkedPath (nodes : List Node) (i : ℕ) : List Byte :=
  toBytes (nodes.take (i + 2)) ++ if i + 1 < nodes.length then [] else endNode

/-- The copy of the path that `walk_path` makes in the turn at a node. -/
theorem read_walkedPath (hinit : DevicePath.Holds init 0 (toBytes nodes)) {i : ℕ}
    (hi : i < nodes.length) :
    init.read 0 (next init (next init (offset nodes i))) ++ endNode = walkedPath nodes i := by
  rw [next_offset hinit hi, walkedPath]
  rcases Nat.lt_or_ge (i + 1) nodes.length with hlt | hge
  · rw [if_pos hlt, next_offset hinit hlt, read_offset hinit, List.append_nil, toBytes]
  · have hlast : i + 1 = nodes.length := Nat.le_antisymm hi hge
    rw [if_neg (Nat.not_lt.mpr hge), hlast, (end_of_holds (holds_end hinit)).2, ← length_toBytes,
      hinit, List.take_of_length_le (by omega)]

/-- The pools of the first turns whose pointers are moved. -/
def movedSum (fw : Firmware Handle) (nodes : List Node) : ℕ → ℕ
  | 0 => 0
  | k + 1 => movedSum fw nodes k + fw.moved (walkedPath nodes k)

/-- A turn at a node, when its allocations succeed. -/
theorem getDiskBlockIoTurn_eq (hinit : DevicePath.Holds init 0 (toBytes nodes)) {i : ℕ}
    (hi : i < nodes.length) {s : WalkState Handle} (hs : s.walkerPath = offset nodes i) :
    getDiskBlockIoTurn fw init .success s =
      locateDevices fw
        { s with walkerPath := offset nodes (i + 1), pools := fw.copyPools s.pools }
        (walkedPath nodes i) (Ledger.start s.pools.next) (Ledger.start (fw.diskPool s.pools)) := by
  have hend : isEnd init s.walkerPath = false := by
    rw [hs, isEnd_offset hinit hi.le, decide_eq_false (Nat.ne_of_lt hi)]
  have hread := read_walkedPath hinit hi
  rw [next_offset hinit hi] at hread
  unfold getDiskBlockIoTurn walkPath
  rw [hend]
  simp only [hs, next_offset hinit hi, hread]
  rfl

/-- At the end of the path, the loop ends. -/
theorem getDiskBlockIoTurn_of_end (hinit : DevicePath.Holds init 0 (toBytes nodes)) (io : WalkIo)
    {s : WalkState Handle} (hs : s.walkerPath = offset nodes nodes.length) :
    getDiskBlockIoTurn fw init io s = .inr (.returned .notFound { s with blockIo := none }) := by
  rw [getDiskBlockIoTurn, hs, isEnd_offset hinit (Nat.le_refl _), decide_eq_true rfl]
  rfl

variable {io : ℕ → WalkIo} {s : WalkState Handle}

/-- The loop of `getDiskBlockIo`. -/
def walk (fw : Firmware Handle) (init : Disk) (io : ℕ → WalkIo) (s : WalkState Handle) :
    ℕ → WalkState Handle ⊕ WalkEnd Handle :=
  DoWhile.run (fun k => getDiskBlockIoTurn fw init (io k)) { s with walkerPath := 0 }

/-- The turn after turns that went on from node to node. -/
theorem walk_succ (hinit : DevicePath.Holds init 0 (toBytes nodes)) (hio : ∀ k, io k = .success)
    {k : ℕ} (hk : k < nodes.length) {s' : WalkState Handle} (hrun : walk fw init io s k = .inl s')
    (hs' : s'.walkerPath = offset nodes k) :
    walk fw init io s (k + 1) =
      locateDevices fw
        { s' with walkerPath := offset nodes (k + 1), pools := fw.copyPools s'.pools }
        (walkedPath nodes k) (Ledger.start s'.pools.next)
        (Ledger.start (fw.diskPool s'.pools)) := by
  rw [walk, DoWhile.run_succ_of_inl hrun, hio, getDiskBlockIoTurn_eq hinit hk hs']

/-- As long as no turn finds devices, the loop goes on from node to node. -/
theorem walk_of_none (hinit : DevicePath.Holds init 0 (toBytes nodes))
    (hio : ∀ k, io k = .success) {k : ℕ} (hk : k ≤ nodes.length)
    (hnone : ∀ i < k, fw.devices (walkedPath nodes i) = none) :
    ∃ s', walk fw init io s k = .inl s' ∧ s'.walkerPath = offset nodes k ∧
      (fw.AllocatesTexts →
        Ledger.Holds s.pools s'.pools ∅ (movedSum fw nodes k + k) (movedSum fw nodes k)) := by
  induction k with
  | zero => exact ⟨_, rfl, rfl, fun _ => Ledger.Holds.refl _⟩
  | succ k ih =>
    obtain ⟨s', hrun, hs', hpools⟩ := ih (Nat.le_of_succ_le hk) fun i hi =>
      hnone i (Nat.lt_succ_of_lt hi)
    rcases locateDevices_cases fw
      { s' with walkerPath := offset nodes (k + 1), pools := fw.copyPools s'.pools }
      s'.pools.next (fw.diskPool s'.pools) (walkedPath nodes k) with
      ⟨block, disk, n, hfound, -⟩ | ⟨-, s'', hturn, hwalker, hfreed⟩
    · rw [hnone k (Nat.lt_succ_self k)] at hfound
      cases hfound
    · refine ⟨s'', (walk_succ hinit hio hk hrun hs').trans hturn, hwalker, fun htext => ?_⟩
      obtain ⟨hcopies, hne⟩ := holds_copyPools htext s'.pools
      have hlost : movedSum fw nodes k + k + (1 + fw.moved (walkedPath nodes k)) =
          movedSum fw nodes (k + 1) + (k + 1) := by
        rw [movedSum]
        omega
      exact hlost ▸ (hpools htext).trans (hfreed _ _ hcopies hne)

/-- The first turn that finds devices ends the loop with them. It holds the pool of `bub->path`, and
loses the one of the other copy and two texts. -/
theorem walk_of_some (hinit : DevicePath.Holds init 0 (toBytes nodes))
    (hio : ∀ k, io k = .success) {k : ℕ} (hk : k < nodes.length)
    (hnone : ∀ i < k, fw.devices (walkedPath nodes i) = none)
    {block disk : Handle} (hfound : fw.devices (walkedPath nodes k) = some (block, disk)) :
    ∃ s' pool n, walk fw init io s (k + 1) = .inr (.returned .success s') ∧
      s'.blockIo = some block ∧ s'.diskIo = some disk ∧ s'.path = some ⟨pool, n⟩ ∧
      (fw.AllocatesTexts → Ledger.Holds s.pools s'.pools {pool} (movedSum fw nodes k + k + 3)
        (movedSum fw nodes k)) := by
  obtain ⟨s', hrun, hs', hpools⟩ := walk_of_none (s := s) hinit hio hk.le hnone
  rcases locateDevices_cases fw
    { s' with walkerPath := offset nodes (k + 1), pools := fw.copyPools s'.pools }
    s'.pools.next (fw.diskPool s'.pools) (walkedPath nodes k) with
    ⟨block', disk', n, hfound', hturn⟩ | ⟨hnone', -⟩
  · rw [hfound] at hfound'
    cases hfound'
    refine ⟨_, s'.pools.next, n, (walk_succ hinit hio hk hrun hs').trans hturn, rfl, rfl,
      by simp [Ptr.advance, Ledger.start], fun htext => ?_⟩
    have hheld := (((hpools htext).alloc.trans (htext _)).alloc_lose).trans (htext _)
    rwa [insert_empty_eq] at hheld
  · rw [hfound] at hnone'
    cases hnone'

/-- A walk that finds no devices ends behind the last node, and clears `bub->block_io`. -/
theorem walk_not_found (hinit : DevicePath.Holds init 0 (toBytes nodes))
    (hio : ∀ k, io k = .success)
    (hnone : ∀ i < nodes.length, fw.devices (walkedPath nodes i) = none) :
    ∃ s', walk fw init io s (nodes.length + 1) = .inr (.returned .notFound s') ∧
      s'.blockIo = none ∧
      (fw.AllocatesTexts → Ledger.Holds s.pools s'.pools ∅
        (movedSum fw nodes nodes.length + nodes.length) (movedSum fw nodes nodes.length)) := by
  obtain ⟨s', hrun, hs', hpools⟩ := walk_of_none (s := s) hinit hio (Nat.le_refl _) hnone
  refine ⟨{ s' with blockIo := none }, ?_, rfl, hpools⟩
  rw [walk, DoWhile.run_succ_of_inl hrun, hio, getDiskBlockIoTurn_of_end hinit _ hs']

end

/-! ## The topmost disk -/

section

variable {Handle : Type*} (fw : Firmware Handle) (deviceAt : List Node → Option Handle)

/-- What is documented of `LocateDevicePath`: it locates the device whose path is the longest front
of a path, and moves the pointer behind that front. What follows the first end of a path is not
looked at. Every device has the Disk I/O protocol when it has the Block I/O protocol. -/
structure Firmware.Documented : Prop where
  located : ∀ protocol path rest n h, n ≤ path.length → deviceAt (path.take n) = some h →
    (∀ m, n < m → m ≤ path.length → deviceAt (path.take m) = none) →
    fw.locateDevicePath protocol (toBytes path ++ rest) = some (h, offset path n)
  not_located : ∀ protocol path rest, (∀ n ≤ path.length, deviceAt (path.take n) = none) →
    fw.locateDevicePath protocol (toBytes path ++ rest) = none
  /-- No device has the empty path. -/
  root : deviceAt [] = none

variable {fw deviceAt} {path : List Node} {i n : ℕ} {h : Handle}

/-- The device at the front of `n` nodes of a path. The walk comes to it when the front has two
nodes or more, or no longer front of up to two nodes has a device. -/
structure WalkedTo (deviceAt : List Node → Option Handle) (path : List Node) (n : ℕ) (h : Handle) :
    Prop where
  le : n ≤ path.length
  device : deviceAt (path.take n) = some h
  nearest : ∀ m, n < m → m ≤ 2 → m ≤ path.length → deviceAt (path.take m) = none

/-- The device at the shortest front that the walk comes to and accepts. -/
structure Topmost (fw : Firmware Handle) (deviceAt : List Node → Option Handle)
    (path : List Node) (n : ℕ) (h : Handle) : Prop extends WalkedTo deviceAt path n h where
  accepted : fw.accepts h h = true
  shortest : ∀ m < n, ∀ g, WalkedTo deviceAt path m g → fw.accepts g g = false

/-- In the turn at a node, the front of `n` nodes is the longest with a device. -/
structure NearestIn (deviceAt : List Node → Option Handle) (path : List Node) (i n : ℕ)
    (h : Handle) : Prop where
  le : n ≤ path.length
  le_turn : n ≤ i + 2
  device : deviceAt (path.take n) = some h
  nearest : ∀ m, n < m → m ≤ i + 2 → m ≤ path.length → deviceAt (path.take m) = none

/-- What the firmware locates at the longest front with a device. -/
theorem NearestIn.located (hn : NearestIn deviceAt path i n h) (hdoc : fw.Documented deviceAt)
    (protocol : Protocol) :
    fw.locateDevicePath protocol (walkedPath path i) = some (h, offset path n) := by
  rw [walkedPath, ← offset_take hn.le_turn]
  apply hdoc.located
  · rw [List.length_take]
    exact Nat.le_min.mpr ⟨hn.le_turn, hn.le⟩
  · rw [List.take_take, Nat.min_eq_left hn.le_turn, hn.device]
  · intro m hnm hm
    rw [List.length_take, Nat.le_min] at hm
    rw [List.take_take, Nat.min_eq_left hm.1]
    exact hn.nearest m hnm hm.1 hm.2

/-- The front has a node. -/
theorem NearestIn.ne_zero (hn : NearestIn deviceAt path i n h) (hdoc : fw.Documented deviceAt) :
    n ≠ 0 := by
  rintro rfl
  have hdevice := hn.device
  rw [List.take_zero, hdoc.root] at hdevice
  cases hdevice

/-- A turn takes the device at the longest front, if it accepts it, and both pointers are moved. -/
theorem NearestIn.devices (hn : NearestIn deviceAt path i n h) (hdoc : fw.Documented deviceAt) :
    fw.devices (walkedPath path i) = (if fw.accepts h h then some (h, h) else none) ∧
      fw.moved (walkedPath path i) = 2 := by
  have hoffset : offset path n ≠ 0 := offset_ne_zero (hn.ne_zero hdoc) hn.le
  unfold Firmware.devices Firmware.moved
  rw [hn.located hdoc, hn.located hdoc]
  exact ⟨rfl, by simp [Ledger.misses, hoffset]⟩

/-- A turn with no device on any front finds none, and moves no pointer. -/
theorem devices_of_no_front (hdoc : fw.Documented deviceAt)
    (hnone : ∀ m ≤ path.length, m ≤ i + 2 → deviceAt (path.take m) = none) :
    fw.devices (walkedPath path i) = none ∧ fw.moved (walkedPath path i) = 0 := by
  have hlocate (protocol : Protocol) :
      fw.locateDevicePath protocol (walkedPath path i) = none := by
    rw [walkedPath]
    apply hdoc.not_located
    intro m hm
    rw [List.length_take, Nat.le_min] at hm
    rw [List.take_take, Nat.min_eq_left hm.1]
    exact hnone m hm.2 hm.1
  unfold Firmware.devices Firmware.moved
  rw [hlocate, hlocate]
  exact ⟨rfl, rfl⟩

/-- In every turn, there is a longest front with a device, or no front has one. -/
theorem nearestIn_or (deviceAt : List Node → Option Handle) (path : List Node) (i : ℕ) :
    (∃ n h, NearestIn deviceAt path i n h) ∨
      ∀ m ≤ path.length, m ≤ i + 2 → deviceAt (path.take m) = none := by
  -- From the fronts of up to `k` nodes to one more.
  have hlongest (k : ℕ) : (∃ n h, n ≤ k ∧ deviceAt (path.take n) = some h ∧
      ∀ m, n < m → m ≤ k → deviceAt (path.take m) = none) ∨
      ∀ m ≤ k, deviceAt (path.take m) = none := by
    induction k with
    | zero =>
      cases h : deviceAt (path.take 0) with
      | none => exact .inr fun m hm => Nat.le_zero.mp hm ▸ h
      | some g => exact .inl ⟨0, g, Nat.le_refl _, h, fun m hm hle => absurd hm (by omega)⟩
    | succ k ih =>
      cases h : deviceAt (path.take (k + 1)) with
      | some g => exact .inl ⟨k + 1, g, Nat.le_refl _, h, fun m hm hle => absurd hm (by omega)⟩
      | none =>
        have hext (m : ℕ) (hle : m ≤ k + 1) (hrest : m ≤ k → deviceAt (path.take m) = none) :
            deviceAt (path.take m) = none := by
          rcases Nat.lt_or_eq_of_le hle with hlt | rfl
          · exact hrest (Nat.le_of_lt_succ hlt)
          · exact h
        rcases ih with ⟨n, g, hn, hdevice, hnearest⟩ | hnone
        · exact .inl ⟨n, g, Nat.le_succ_of_le hn, hdevice, fun m hm hle =>
            hext m hle (hnearest m hm)⟩
        · exact .inr fun m hle => hext m hle (hnone m)
  rcases hlongest (min (i + 2) path.length) with ⟨n, h, hn, hdevice, hnearest⟩ | hnone
  · rw [Nat.le_min] at hn
    exact .inl ⟨n, h, hn.2, hn.1, hdevice, fun m hm hle hlen =>
      hnearest m hm (Nat.le_min.mpr ⟨hle, hlen⟩)⟩
  · exact .inr fun m hlen hle => hnone m (Nat.le_min.mpr ⟨hle, hlen⟩)

/-- The walk comes to what is nearest in one of its turns. -/
theorem NearestIn.walkedTo (hn : NearestIn deviceAt path i n h) : WalkedTo deviceAt path n h :=
  ⟨hn.le, hn.device, fun m hm htwo => hn.nearest m hm (by omega)⟩

/-- The walk comes to the device at a front of `n` nodes first in turn `n - 2`. -/
theorem WalkedTo.nearestIn (hn : WalkedTo deviceAt path n h) :
    NearestIn deviceAt path (n - 2) n h :=
  ⟨hn.le, by omega, hn.device, fun m hm hle hlen => hn.nearest m hm (by omega) hlen⟩

/-- The first turn that finds devices finds the topmost one. -/
theorem topmost_of_first (hdoc : fw.Documented deviceAt)
    (hnone : ∀ j < i, fw.devices (walkedPath path j) = none) {block disk : Handle}
    (hfound : fw.devices (walkedPath path i) = some (block, disk)) :
    ∃ n, Topmost fw deviceAt path n block ∧ disk = block ∧ i = n - 2 := by
  rcases nearestIn_or deviceAt path i with ⟨n, h, hn⟩ | hfronts
  · rw [(hn.devices hdoc).1] at hfound
    obtain ⟨haccepted, heq⟩ := Option.ite_none_right_eq_some.mp hfound
    obtain ⟨rfl, rfl⟩ := Prod.mk.inj (Option.some.inj heq)
    -- No turn before `i` finds a device that is accepted.
    have hrejected {m : ℕ} {g : Handle} (hm : WalkedTo deviceAt path m g) (hlt : m - 2 < i) :
        fw.accepts g g = false := by
      have hdevices := (hm.nearestIn.devices hdoc).1
      rw [hnone _ hlt] at hdevices
      by_contra htrue
      rw [if_pos (Bool.not_eq_false _ ▸ htrue)] at hdevices
      cases hdevices
    have hle := hn.le_turn
    refine ⟨n, ⟨hn.walkedTo, haccepted, fun m hm g hg => hrejected hg ?_⟩, rfl, ?_⟩
    · -- A longer front, that of `n` nodes, would be nearer in turn `m - 2`.
      by_contra hge
      have hdevice := hg.nearestIn.nearest n hm (by omega) hn.le
      rw [hn.device] at hdevice
      cases hdevice
    · by_contra hne
      have hfalse := hrejected hn.walkedTo (by omega)
      rw [haccepted] at hfalse
      cases hfalse
  · rw [(devices_of_no_front hdoc hfronts).1] at hfound
    cases hfound

/-- When no turn finds devices, none that the walk comes to is accepted. -/
theorem not_accepts_of_none (hdoc : fw.Documented deviceAt)
    (hnone : ∀ j < path.length, fw.devices (walkedPath path j) = none)
    (hn : WalkedTo deviceAt path n h) : fw.accepts h h = false := by
  have hzero := hn.nearestIn.ne_zero hdoc
  have hle := hn.le
  have hdevices := (hn.nearestIn.devices hdoc).1
  rw [hnone _ (by omega)] at hdevices
  by_contra htrue
  rw [if_pos (Bool.not_eq_false _ ▸ htrue)] at hdevices
  cases hdevices

/-- From the first front with a device on, every turn moves both its pointers. -/
theorem movedSum_eq (hdoc : fw.Documented deviceAt) {f : ℕ} (hf : f ≤ path.length)
    (hdevice : deviceAt (path.take f) ≠ none) (hfirst : ∀ m < f, deviceAt (path.take m) = none)
    (k : ℕ) : movedSum fw path k = 2 * (k - (f - 2)) := by
  induction k with
  | zero => simp [movedSum]
  | succ k ih =>
    rw [movedSum, ih]
    rcases nearestIn_or deviceAt path k with ⟨n, h, hn⟩ | hfronts
    · have hle : f ≤ n := by
        by_contra hlt
        have hnone := hfirst n (by omega)
        rw [hn.device] at hnone
        cases hnone
      have hturn := hn.le_turn
      rw [(hn.devices hdoc).2]
      omega
    · have hlt : k + 2 < f := by
        by_contra hge
        exact hdevice (hfronts f hf (by omega))
      rw [(devices_of_no_front hdoc hfronts).2]
      omega

variable {init : Disk} {io : ℕ → WalkIo} {handle : Handle} {s : WalkState Handle}

/-- The variables before the walk. The texts of two paths have been printed. -/
def Firmware.beforeWalk (fw : Firmware Handle) (s : WalkState Handle) : WalkState Handle :=
  { s with pools := fw.devicePathToStr (fw.devicePathToStr s.pools) }

/-- `bub_init` is the walk over the path of the device that the boot loader was loaded from. -/
theorem bubInit_eq_inr (hpath : fw.devicePathFromHandle handle = some init) {k : ℕ}
    (hk : k ≤ path.length + 1) {status : EfiStatus} {s' : WalkState Handle}
    (hwalk : walk fw init io (fw.beforeWalk s) k = .inr (.returned status s')) :
    bubInit fw io (some handle) s (path.length + 1) =
      .inr (.returned (if status = .success then 1 else 0) s') := by
  have hrun : getDiskBlockIo fw io handle { s with pools := fw.devicePathToStr s.pools }
      (path.length + 1) = .inr (.returned status s') := by
    unfold getDiskBlockIo
    simp only [hpath]
    exact DoWhile.run_of_le hwalk hk
  unfold bubInit
  simp only [hrun]
  cases status <;> rfl

/-- How the walk ends, and what it does to the pools. -/
theorem walk_ends (hdoc : fw.Documented deviceAt) (hinit : DevicePath.Holds init 0 (toBytes path))
    (hio : ∀ k, io k = .success) (s : WalkState Handle) :
    (∃ n h s' pool o, Topmost fw deviceAt path n h ∧ n - 2 < path.length ∧
      walk fw init io s (n - 2 + 1) = .inr (.returned .success s') ∧
      s'.blockIo = some h ∧ s'.diskIo = some h ∧ s'.path = some ⟨pool, o⟩ ∧
      (fw.AllocatesTexts → Ledger.Holds s.pools s'.pools {pool}
        (movedSum fw path (n - 2) + (n - 2) + 3) (movedSum fw path (n - 2)))) ∨
    ((∀ n h, WalkedTo deviceAt path n h → fw.accepts h h = false) ∧
      ∃ s', walk fw init io s (path.length + 1) = .inr (.returned .notFound s') ∧
        s'.blockIo = none ∧
        (fw.AllocatesTexts → Ledger.Holds s.pools s'.pools ∅
          (movedSum fw path path.length + path.length) (movedSum fw path path.length))) := by
  by_cases hsome : ∃ i, i < path.length ∧ (fw.devices (walkedPath path i)).isSome
  · -- The first turn that finds devices.
    obtain ⟨hlen, hfound⟩ := Nat.find_spec hsome
    have hnone (j : ℕ) (hj : j < Nat.find hsome) : fw.devices (walkedPath path j) = none := by
      have hmin := Nat.find_min hsome hj
      rwa [not_and, Option.not_isSome_iff_eq_none, imp_iff_right (hj.trans hlen)] at hmin
    obtain ⟨⟨block, disk⟩, hdevices⟩ := Option.isSome_iff_exists.mp hfound
    obtain ⟨n, htop, rfl, hi⟩ := topmost_of_first hdoc hnone hdevices
    rw [hi] at hlen hnone hdevices
    obtain ⟨s', pool, o, hrun, hblock, hdisk, hptr, hpools⟩ :=
      walk_of_some (s := s) hinit hio hlen hnone hdevices
    exact .inl ⟨n, disk, s', pool, o, htop, hlen, hrun, hblock, hdisk, hptr, hpools⟩
  · have hnone (i : ℕ) (hi : i < path.length) : fw.devices (walkedPath path i) = none := by
      rw [← Option.not_isSome_iff_eq_none]
      exact fun hfound => hsome ⟨i, hi, hfound⟩
    exact .inr ⟨fun n h hn => not_accepts_of_none hdoc hnone hn,
      walk_not_found hinit hio hnone⟩

/-- **`bub_init` finds the topmost disk**, and returns 0 when it accepts none of those that it comes
to. -/
theorem bubInit_topmost (hdoc : fw.Documented deviceAt)
    (hpath : fw.devicePathFromHandle handle = some init)
    (hinit : DevicePath.Holds init 0 (toBytes path))
    (hio : ∀ k, io k = .success) (s : WalkState Handle) :
    (∃ n h s', Topmost fw deviceAt path n h ∧
      bubInit fw io (some handle) s (path.length + 1) = .inr (.returned 1 s') ∧
      s'.blockIo = some h ∧ s'.diskIo = some h) ∨
    ((∀ n h, WalkedTo deviceAt path n h → fw.accepts h h = false) ∧
      ∃ s', bubInit fw io (some handle) s (path.length + 1) = .inr (.returned 0 s') ∧
        s'.blockIo = none) := by
  rcases walk_ends hdoc hinit hio (fw.beforeWalk s) with
    ⟨n, h, s', pool, o, htop, hlen, hrun, hblock, hdisk, -⟩ | ⟨hnone, s', hrun, hblock, -⟩
  · exact .inl ⟨n, h, s', htop, bubInit_eq_inr hpath (Nat.succ_le_succ hlen.le) hrun, hblock,
      hdisk⟩
  · exact .inr ⟨hnone, s', bubInit_eq_inr hpath (Nat.le_refl _) hrun, hblock⟩

/-- The nodes of a PCI bridge, of a controller on it and of a drive at that. -/
def bridgeNode : Node := ⟨1, 1, [0, 0x1C], by decide, by decide⟩

/-- The controller. -/
def controllerNode : Node := ⟨1, 1, [2, 0x1F], by decide, by decide⟩

/-- The drive. -/
def driveNode : Node := ⟨3, 18, [0, 0, 0xFF, 0xFF, 0, 0], by decide, by decide⟩

/-- The path of the drive. -/
def drivePath : List Node := [bridgeNode, controllerNode, driveNode]

/-- The devices with a Block I/O protocol: a reader at the controller that has no medium, and the
drive. -/
inductive BlockDevice
  | reader
  | drive
deriving DecidableEq

/-- A firmware with these devices. The drive has a table of 128 entries. -/
def driveFirmware : Firmware BlockDevice where
  devicePathFromHandle _ := some (Disk.write default 0 (toBytes drivePath))
  locateDevicePath _ path :=
    if nodeBytes drivePath <+: path then some (.drive, (nodeBytes drivePath).length)
    else if nodeBytes (drivePath.take 2) <+: path then
      some (.reader, (nodeBytes (drivePath.take 2)).length)
    else none
  handleProtocol _ _ := true
  media device := ⟨false, device = .drive⟩
  readHeader _ := some (tableHeader 128).toBytes
  calculateCrc := bubCrc32 0
  devicePathToStr l := l.alloc.2

/-- The devices of `driveFirmware`, by their paths. -/
def driveDevice (path : List Node) : Option BlockDevice :=
  if path = drivePath then some .drive else if path = drivePath.take 2 then some .reader else none

/-- Of its two devices, the firmware has a medium with a table for the drive only. -/
theorem driveFirmware_accepts (device : BlockDevice) :
    driveFirmware.accepts device device = decide (device = .drive) := by
  have hvalid : validateGpt (bubCrc32 0) (tableHeader 128) = .success := by decide +kernel
  cases device with
  | reader => rfl
  | drive =>
    simp only [Firmware.accepts, driveFirmware, GPTHeader.ofBytes_toBytes, Option.any_some, hvalid]
    rfl

/-- `driveFirmware` behaves as documented. -/
theorem driveFirmware_documented : driveFirmware.Documented driveDevice where
  located protocol path rest n h hn hdevice hnearest := by
    unfold driveDevice at hdevice hnearest
    simp only [driveFirmware, nodeBytes_prefix_iff]
    by_cases hdrive : path.take n = drivePath
    · rw [if_pos hdrive] at hdevice
      rw [if_pos (hdrive ▸ List.take_prefix n path), offset, hdrive, ← Option.some.inj hdevice]
    · rw [if_neg hdrive] at hdevice
      obtain ⟨hreader, hsome⟩ := Option.ite_none_right_eq_some.mp hdevice
      have htwo : n = 2 := by
        have hlength := congrArg List.length hreader
        rw [List.length_take, Nat.min_eq_left hn] at hlength
        exact hlength
      subst htwo
      -- The front of three nodes would be nearer.
      have hnot : ¬drivePath <+: path := fun hprefix => by
        have hthree : path.take 3 = drivePath := (List.prefix_iff_eq_take.mp hprefix).symm
        have hnone := hnearest 3 (by decide) hprefix.length_le
        rw [if_pos hthree] at hnone
        cases hnone
      rw [if_neg hnot, if_pos (hreader ▸ List.take_prefix 2 path), offset, hreader,
        ← Option.some.inj hsome]
  not_located protocol path rest hnone := by
    unfold driveDevice at hnone
    simp only [driveFirmware, nodeBytes_prefix_iff]
    have hnot {front : List Node} (hfront : front = drivePath ∨ front = drivePath.take 2) :
        ¬front <+: path := fun hprefix => by
      have hdevice := hnone front.length hprefix.length_le
      rw [← List.prefix_iff_eq_take.mp hprefix] at hdevice
      rcases hfront with rfl | rfl
      · rw [if_pos rfl] at hdevice
        cases hdevice
      · rw [if_neg (by decide), if_pos rfl] at hdevice
        cases hdevice
    rw [if_neg (hnot (.inl rfl)), if_neg (hnot (.inr rfl))]
  root := by decide

/-- It allocates the texts of paths. -/
theorem driveFirmware_allocatesTexts : driveFirmware.AllocatesTexts := fun l =>
  (Ledger.Holds.refl l).alloc_lose

/-- The path of the drive is in memory. -/
theorem holds_drivePath :
    DevicePath.Holds (Disk.write default 0 (toBytes drivePath)) 0 (toBytes drivePath) :=
  Disk.read_write_self _ _ _

/-- The walk comes to the drive after three nodes. -/
theorem walkedTo_drive : WalkedTo driveDevice drivePath 3 .drive :=
  ⟨by decide, by decide, fun m hm htwo _ => absurd htwo (by omega)⟩

/-- The only disk is the drive. -/
theorem Topmost.eq_drive {n : ℕ} {h : BlockDevice}
    (htop : Topmost driveFirmware driveDevice drivePath n h) :
    n = 3 ∧ h = .drive := by
  have hdrive : h = .drive := by
    have haccepted := htop.accepted
    rwa [driveFirmware_accepts, decide_eq_true_iff] at haccepted
  refine ⟨?_, hdrive⟩
  have hdevice := htop.device
  unfold driveDevice at hdevice
  split_ifs at hdevice with hfront htwo
  · have hlength := congrArg List.length hfront
    rwa [List.length_take, Nat.min_eq_left htop.le] at hlength
  · rw [hdrive] at hdevice
    cases hdevice

/-- `bub_init` before it is called, with no pools. -/
def driveStart : WalkState BlockDevice := ⟨0, none, none, none, .empty⟩

/-- The walk rejects the reader, and finds the drive behind it. -/
theorem driveFirmware_found : ∃ s',
    bubInit driveFirmware (fun _ => .success) (some .drive) driveStart 4 =
        .inr (.returned 1 s') ∧
      s'.blockIo = some .drive ∧ s'.diskIo = some .drive := by
  have hpath : driveFirmware.devicePathFromHandle .drive = some _ := rfl
  have hio (k : ℕ) : (fun _ => WalkIo.success) k = .success := rfl
  rcases bubInit_topmost driveFirmware_documented hpath holds_drivePath hio driveStart with
    ⟨_, h, s', htop, heq, hblock, hdisk⟩ | ⟨hnone, -⟩
  · obtain ⟨-, rfl⟩ := htop.eq_drive
    exact ⟨s', heq, hblock, hdisk⟩
  · have haccepts := hnone 3 .drive walkedTo_drive
    rw [driveFirmware_accepts] at haccepts
    cases haccepts

/-- **What `bub_init` does to the pools.** Every turn loses the text of its path. Let the shortest
front with a device have `f` nodes. Every turn from the first on that asks for this front fails to
free its two copies of the path, but for the one that succeeds: it holds the pool of `bub->path`,
and loses the other and one more text. The texts of two other paths are lost before the walk. -/
theorem bubInit_pools (hdoc : fw.Documented deviceAt) (htext : fw.AllocatesTexts)
    (hpath : fw.devicePathFromHandle handle = some init)
    (hinit : DevicePath.Holds init 0 (toBytes path))
    (hio : ∀ k, io k = .success) (s : WalkState Handle) {f : ℕ} (hf : f ≤ path.length)
    (hdevice : deviceAt (path.take f) ≠ none) (hfirst : ∀ m < f, deviceAt (path.take m) = none) :
    (∃ n h s' pool o, Topmost fw deviceAt path n h ∧
      bubInit fw io (some handle) s (path.length + 1) = .inr (.returned 1 s') ∧
      s'.path = some ⟨pool, o⟩ ∧
      Ledger.Holds s.pools s'.pools {pool} (2 * ((n - 2) - (f - 2)) + (n - 2) + 5)
        (2 * ((n - 2) - (f - 2)))) ∨
    ((∀ n h, WalkedTo deviceAt path n h → fw.accepts h h = false) ∧
      ∃ s', bubInit fw io (some handle) s (path.length + 1) = .inr (.returned 0 s') ∧
        Ledger.Holds s.pools s'.pools ∅ (2 * (path.length - (f - 2)) + path.length + 2)
          (2 * (path.length - (f - 2)))) := by
  have hsum := movedSum_eq hdoc hf hdevice hfirst
  -- The texts of the path of the image file, and of the path of the device.
  have hbefore : Ledger.Holds s.pools (fw.beforeWalk s).pools ∅ 2 0 :=
    (htext _).trans (htext _)
  rcases walk_ends hdoc hinit hio (fw.beforeWalk s) with
    ⟨n, h, s', pool, o, htop, hlen, hrun, -, -, hptr, hpools⟩ | ⟨hnone, s', hrun, -, hpools⟩
  · have hall := hbefore.call (hpools htext)
    rw [hsum, Nat.zero_add, Nat.add_comm 2] at hall
    exact .inl ⟨n, h, s', pool, o, htop, bubInit_eq_inr hpath (Nat.succ_le_succ hlen.le) hrun,
      hptr, hall⟩
  · have hall := hbefore.call (hpools htext)
    rw [hsum, Nat.zero_add, Nat.add_comm 2] at hall
    exact .inr ⟨hnone, s', bubInit_eq_inr hpath (Nat.le_refl _) hrun, hall⟩

/-- The walk to the drive holds a pool and loses eight others: in the turn of the reader two copies
of a path, to two frees that are refused, and a text; and a copy and four texts besides. -/
theorem driveFirmware_pools : ∃ s' pool,
    bubInit driveFirmware (fun _ => .success) (some .drive) driveStart 4 =
        .inr (.returned 1 s') ∧
      Ledger.Holds driveStart.pools s'.pools {pool} 8 2 := by
  have hpath : driveFirmware.devicePathFromHandle .drive = some _ := rfl
  have hio (k : ℕ) : (fun _ => WalkIo.success) k = .success := rfl
  rcases bubInit_pools driveFirmware_documented driveFirmware_allocatesTexts hpath holds_drivePath
    hio driveStart (f := 2) (by decide) (by decide) (by decide) with
    ⟨n, _, s', pool, _, htop, heq, -, hpools⟩ | ⟨hnone, -⟩
  · obtain ⟨rfl, -⟩ := htop.eq_drive
    exact ⟨s', pool, heq, hpools⟩
  · have haccepts := hnone 3 .drive walkedTo_drive
    rw [driveFirmware_accepts] at haccepts
    cases haccepts

end

end BrilloBoot
