import BrilloBoot.Fallback
import BrilloBoot.Lib.Trace
import BrilloBoot.LoopBound

/-!
# One power-on after another

A device is switched on, runs `efi_main`, and is switched off, again and again; the disk is what
lives on. As an abstract machine this is a record that moves by `TurnStep` and shows the slots whose
kernels were started, and every history of the device is a trace of it (`powerCycles_trace`),
whatever the firmware fails to do. So no slot is started more often than it has boots left
(`starts_within_budget`), and a device with a good slot can always be booted again
(`good_slot_recovers`). When the firmware does not fail, the history follows the arbiter's schedule
(`working_boots`).

A power cut inside a turn leaves the disk that a failing call of the firmware leaves.
-/

namespace BrilloBoot

open BubAbData

/-- One power-on of the device. -/
structure PowerOn where
  /-- Whether `bub_init` succeeds. -/
  init : Bool
  /-- What becomes of the firmware's calls in each turn of the boot loop. -/
  io : ℕ → TurnIo
  /-- The turns that the device has before it is switched off. -/
  turns : ℕ

/-- The disk that a run of `efi_main` leaves. -/
def diskOf : MainState ⊕ MainEnd → Disk
  | .inl s => s.disk
  | .inr e => e.disk

/-- The partition whose kernel a run of `efi_main` started, if it did. -/
def bootedFrom : MainState ⊕ MainEnd → Option (List Byte)
  | .inl _ => none
  | .inr e => e.started.map StartedKernel.partitionName

/-- What a power-on comes to, and the disk that it leaves. -/
def powerCycle (dev : BootDevice) (c : PowerOn) (disk : Disk) : (MainState ⊕ MainEnd) × Disk :=
  let r := efiMain (if c.init then some dev.toMyBubOps else none) c.io disk c.turns
  (r, diskOf r)

/-! ## The record alone -/

/-- What a turn of the boot loop can do to the record, and the slot whose kernel it starts. Those
slots may be `rejected` whose image may turn out to be invalid. -/
inductive TurnStep (rejected : Fin 2 → Prop) : BubAbData → Option (Fin 2) → BubAbData → Prop
  | fails (d : BubAbData) : TurnStep rejected d none d
  | plans (d : BubAbData) : TurnStep rejected d none d.planned.sealed
  | marks {d : BubAbData} {i : Fin 2} (selected : d.selected = some i) (invalid : rejected i) :
      TurnStep rejected d none (d.planned.invalidated i).sealed
  | starts {d : BubAbData} {i : Fin 2} (selected : d.selected = some i) :
      TurnStep rejected d (some i) d.planned.sealed

section

variable {rejected : Fin 2 → Prop} {d e : BubAbData} {o : Option (Fin 2)} {i : Fin 2}

/-- The slot that is marked is cleared. -/
theorem invalidated_slots_self (d : BubAbData) (i : Fin 2) : (d.invalidated i).slots i = .zero :=
  Function.update_self _ _ _

/-- The other slot stays. -/
theorem invalidated_slots_of_ne (d : BubAbData) {i j : Fin 2} (h : j ≠ i) :
    (d.invalidated i).slots j = d.slots j := Function.update_of_ne h _ _

/-- A kernel that is started is paid for from the budget of its slot. -/
theorem TurnStep.budget (h : TurnStep rejected d o e) :
    (if o = some i then 1 else 0) + (e.slots i).bootBudget ≤ (d.slots i).bootBudget := by
  have hplanned : (d.planned.slots i).bootBudget ≤ (d.slots i).bootBudget := by
    rw [bootBudget_planned]
    split_ifs
    · exact tsub_le_self
    · exact le_refl _
  cases h with
  | fails => simp
  | plans => simpa using hplanned
  | @marks j hj =>
    by_cases hi : i = j
    · subst hi
      simp [invalidated_slots_self, BubSlotData.bootBudget_of_priority_eq_zero, BubSlotData.zero]
    · simpa [invalidated_slots_of_ne _ hi] using hplanned
  | @starts j hj =>
    by_cases hi : j = i
    · subst hi
      have hpos : 1 ≤ (d.slots j).bootBudget :=
        Order.one_le_iff_ne_zero.mpr (bootBudget_ne_zero_of_selected hj)
      rw [if_pos rfl, sealed_slots, bootBudget_planned, if_pos hj, add_tsub_cancel_of_le hpos]
    · simpa [hi] using hplanned

end

/-! ## A turn of the boot loop -/

section

variable {dev : BootDevice} {rejected : Fin 2 → Prop} {io : TurnIo} {s : MainState} {disk : Disk}
  {d : BubAbData} {i : Fin 2}

/-- A kernel that `bub_boot_kernel` starts is that of the partition it was asked for. -/
theorem partitionName_of_bubBootKernel {bub : MyBubOps} {io : BootIo} {name : List Byte}
    {r : BubBootResult} {kernel : StartedKernel}
    (h : bubBootKernel bub io name disk = some (r, some kernel)) :
    kernel.partitionName = name := by
  have hstart (head : BootImgHdr)
      (hk : startBootImage bub io name head disk = some (r, some kernel)) :
      kernel.partitionName = name := by
    unfold startBootImage at hk
    cases hparameters : loadParameters head with
    | none =>
      simp only [hparameters] at hk
      split_ifs at hk
      all_goals cases hk
    | some options =>
      simp only [hparameters] at hk
      split_ifs at hk
      -- The last exit is the only one with a kernel.
      all_goals cases hk
      rfl
  unfold bubBootKernel at h
  cases hentry : (if io.findEntry then bub.entryByName name else none) with
  | none =>
    simp only [hentry] at h
    split_ifs at h
    all_goals cases h
  | some entry =>
    simp only [hentry] at h
    split_ifs at h
    all_goals first | exact hstart _ h | cases h

/-- A turn in which `bub_ab_flow` fails is the last, on the disk that it left. -/
theorem efiMainTurn_of_flow_ne_ok {result : BubAbFlowResult} {out : List Byte} {b : Bytes 64}
    (h : bubAbFlow (miscOps io.abFlow.misc) s.slotSuffix (dev.miscBlock s.disk) = (result, out, b))
    (hne : result ≠ .ok) : efiMainTurn dev.toMyBubOps io s =
      .inr ⟨.aborted "Could not choose A/B slot.\n", none, dev.withMiscBlock s.disk b⟩ := by
  rw [efiMainTurn, bubAbFlow_uefiOps, h]
  exact if_pos hne

/-- A turn that does not reject the image of the slot that it hands out leaves the planned record,
and may start the kernel of this slot. -/
theorem efiMainTurn_of_not_rejects_disk (hs : s.Named) (h : HandsOut dev io s.disk d i)
    (hr : ¬ Rejects dev io s.disk i) : ∃ exit started, efiMainTurn dev.toMyBubOps io s =
      .inr ⟨exit, started, dev.withMiscBlock s.disk d.planned.image⟩ ∧
        ∀ kernel, started = some kernel → kernel.partitionName = bootPartition i := by
  obtain ⟨e, he⟩ := efiMainTurn_of_not_rejects hs h hr
  rw [efiMainTurn_of_handsOut hs h] at he ⊢
  cases hk : bubBootKernel dev.toMyBubOps io.boot (bootPartition i)
      (dev.withMiscBlock s.disk d.planned.image) with
  | none =>
    simp only [hk]
    exact ⟨_, _, rfl, fun kernel hkernel => by cases hkernel⟩
  | some result =>
    obtain ⟨bootResult, started⟩ := result
    simp only [hk] at he ⊢
    by_cases hinvalid : bootResult = .errorPartitionInvalidFormat
    · -- Only the rejection of the image returns that code.
      rcases bubBootKernel_cases (dev.boot_entry i) (dev.boot_wellPlaced i) io.boot
        (dev.withMiscBlock s.disk d.planned.image) with
        ⟨-, other, -, hne, heq⟩ | ⟨⟨ha, hb, hc⟩, hformat, -⟩ | ⟨-, -, heq⟩
      · rw [hk, Option.some.injEq, Prod.mk.injEq] at heq
        exact absurd (heq.1.symm.trans hinvalid) hne
      · exact absurd ⟨ha, hb, hc, fun hvalid => hformat
          ((dev.imageValid_withMiscBlock io.boot s.disk d.planned.image i).mpr hvalid)⟩ hr
      · rw [hk, hinvalid] at heq
        exact absurd heq.symm (startBootImage_ne_invalid io.boot _ _ started)
    · rw [if_neg hinvalid]
      split_ifs
      · exact ⟨_, _, rfl, fun kernel hkernel => by cases hkernel⟩
      · refine ⟨_, _, rfl, fun kernel hkernel => ?_⟩
        rw [hkernel] at hk
        exact partitionName_of_bubBootKernel hk

/-- What a result of `efi_main` stands for that left the record `e`: the disk differs from `disk` in
the metadata block only, and the kernel that was started is that of the slot `o`. -/
structure Shows (dev : BootDevice) (disk : Disk) (r : MainState ⊕ MainEnd) (o : Option (Fin 2))
    (e : BubAbData) : Prop where
  booted : bootedFrom r = o.map bootPartition
  block : readBlock (dev.miscBlock (diskOf r)) = .ok e
  frame : diskOf r = dev.withMiscBlock disk (dev.miscBlock (diskOf r))

/-- A result that left the block of a record. -/
theorem shows_image {r : MainState ⊕ MainEnd} {o : Option (Fin 2)} {e : BubAbData}
    (hbooted : bootedFrom r = o.map bootPartition) (hmagic : e.magic = bubBootCtrlMagic)
    (hdisk : diskOf r = dev.withMiscBlock disk e.image) : Shows dev disk r o e.sealed := by
  refine ⟨hbooted, ?_, ?_⟩
  · rw [hdisk, dev.miscBlock_withMiscBlock]
    exact readBlock_image hmagic
  · rw [hdisk, dev.miscBlock_withMiscBlock]

/-- A result that left the block as it was. -/
theorem shows_self {r : MainState ⊕ MainEnd} (hblock : readBlock (dev.miscBlock disk) = .ok d)
    (hbooted : bootedFrom r = none) (hdisk : diskOf r = disk) : Shows dev disk r none d := by
  refine ⟨hbooted, ?_, ?_⟩
  · rw [hdisk, hblock]
  · rw [hdisk, dev.withMiscBlock_miscBlock]

/-- A turn is a move of the record. -/
theorem turnStep_efiMainTurn (hs : s.Named) (hblock : readBlock (dev.miscBlock s.disk) = .ok d)
    (hrejected : ∀ i, ¬ dev.ImageValid io.boot s.disk i → rejected i) :
    ∃ o e, TurnStep rejected d o e ∧ Shows dev s.disk (efiMainTurn dev.toMyBubOps io s) o e := by
  have hmagic := magic_of_readBlock hblock
  have hplanned : d.planned.magic = bubBootCtrlMagic := (planned_magic d).trans hmagic
  -- A flow that fails leaves the record; otherwise the planned record is on disk.
  rcases bubAbFlow_miscOps_cases io.abFlow.misc s.slotSuffix (dev.miscBlock s.disk) with
    ⟨-, heq⟩ | ⟨-, hbad, -⟩ | ⟨-, -, -, -, -, heq⟩ | ⟨e, hread, he, hwrite, heq⟩
  · rw [efiMainTurn_of_flow_ne_ok heq (by decide)]
    exact ⟨none, d, .fails d, shows_self hblock rfl (dev.withMiscBlock_miscBlock _)⟩
  · exact absurd hblock (readBlock_eq_error_iff.mp hbad d)
  · rw [efiMainTurn_of_flow_ne_ok heq (by decide)]
    exact ⟨none, d, .fails d, shows_self hblock rfl (dev.withMiscBlock_miscBlock _)⟩
  · rw [hblock, Except.ok.injEq] at he
    subst he
    cases hsel : d.selected with
    | none =>
      rw [efiMainTurn_of_flow_ne_ok heq (by simp [verdict, answer, hsel])]
      exact ⟨none, _, .plans d, shows_image rfl hplanned rfl⟩
    | some i =>
      have hio : io.abFlow.read = true := by
        by_contra hfalse
        simp [DiskIo.misc, hfalse] at hread
      have hout : HandsOut dev io s.disk d i := ⟨hblock, hsel, hio, hwrite⟩
      -- The image of the slot is rejected, and the slot marked or not; or its kernel is started.
      by_cases hr : Rejects dev io s.disk i
      · rcases efiMainTurn_of_rejects hs hout hr with
          ⟨-, hturn⟩ | ⟨-, -, hturn⟩ | ⟨-, -, hturn⟩
        · rw [hturn]
          exact ⟨none, _, .plans d, shows_image rfl hplanned rfl⟩
        · rw [hturn]
          exact ⟨none, _, .marks hsel (hrejected i hr.invalid), shows_image rfl hplanned rfl⟩
        · rw [hturn]
          exact ⟨none, _, .plans d, shows_image rfl hplanned rfl⟩
      · obtain ⟨exit, started, hturn, hname⟩ := efiMainTurn_of_not_rejects_disk hs hout hr
        rw [hturn]
        cases started with
        | none => exact ⟨none, _, .plans d, shows_image rfl hplanned rfl⟩
        | some kernel =>
          exact ⟨some i, _, .starts hsel,
            shows_image (congrArg some (hname kernel rfl)) hplanned rfl⟩

end

/-! ## Histories -/

/-- The record that the reader finds on a disk that differs from `start` in the metadata block
only. -/
structure Stands (dev : BootDevice) (start disk : Disk) (d : BubAbData) : Prop where
  block : readBlock (dev.miscBlock disk) = .ok d
  frame : disk = dev.withMiscBlock start (dev.miscBlock disk)

section

variable {dev : BootDevice} {rejected : Fin 2 → Prop} {start disk : Disk} {d : BubAbData}

/-- Before the first turn nothing has changed. -/
theorem stands_self (h : readBlock (dev.miscBlock disk) = .ok d) : Stands dev disk disk d :=
  ⟨h, (dev.withMiscBlock_miscBlock disk).symm⟩

/-- The images are those of the disk that the history started from. -/
theorem Stands.imageValid_iff (h : Stands dev start disk d) (io : BootIo) (i : Fin 2) :
    dev.ImageValid io disk i ↔ dev.ImageValid io start i := by
  rw [h.frame, dev.imageValid_withMiscBlock]

/-- What a turn shows stands on the disk that it leaves. -/
theorem Shows.stands {r : MainState ⊕ MainEnd} {o : Option (Fin 2)} {e : BubAbData}
    (h : Shows dev disk r o e) (hd : Stands dev start disk d) : Stands dev start (diskOf r) e where
  block := h.block
  frame := by
    have hframe := h.frame
    rwa [hd.frame, dev.withMiscBlock_withMiscBlock] at hframe

/-- A power-on is a trace of the record. -/
theorem trace_powerCycle (c : PowerOn)
    (hrejected : ∀ k i, ¬ dev.ImageValid (c.io k).boot start i → rejected i)
    (h : Stands dev start disk d) :
    ∃ labels e, Trace (TurnStep rejected) d labels e ∧
      (bootedFrom (powerCycle dev c disk).1).toList = labels.map bootPartition ∧
      Stands dev start (powerCycle dev c disk).2 e := by
  cases hinit : c.init with
  | false => exact ⟨[], d, .nil d, by simp [powerCycle, hinit, efiMain, bootedFrom],
      by simpa [powerCycle, hinit, efiMain, diskOf] using h⟩
  | true =>
    have hcycle : (powerCycle dev c disk) = (efiMain (some dev.toMyBubOps) c.io disk c.turns,
        diskOf (efiMain (some dev.toMyBubOps) c.io disk c.turns)) := by
      simp only [powerCycle, hinit, if_true]
    rw [hcycle]
    unfold efiMain
    dsimp only
    -- Every turn of the loop is a move of the machine; the loop is a trace by the rule for loops.
    have hturn (k : ℕ) (s : MainState) (a : BubAbData) (hs : s.Named)
        (ha : Stands dev start s.disk a) : ∃ o e, TurnStep rejected a o e ∧
          Shows dev s.disk (efiMainTurn dev.toMyBubOps (c.io k) s) o e :=
      turnStep_efiMainTurn hs ha.block fun i hi =>
        hrejected k i fun hvalid => hi ((ha.imageValid_iff _ i).mpr hvalid)
    have hgo (k : ℕ) (s s' : MainState) (a : BubAbData) (ha : s.Named ∧ Stands dev start s.disk a)
        (h : efiMainTurn dev.toMyBubOps (c.io k) s = .inl s') :
        ∃ b, TurnStep rejected a none b ∧ s'.Named ∧ Stands dev start s'.disk b := by
      obtain ⟨o, b, hmove, hshows⟩ := hturn k s a ha.1 ha.2
      rw [h] at hshows
      obtain rfl : o = none := Option.map_eq_none_iff.mp hshows.booted.symm
      obtain ⟨-, -, -, -, -, -, hs', -⟩ := efiMainTurn_eq_inl ha.1 h
      exact ⟨b, hmove, hs', hshows.stands ha.2⟩
    have hend (k : ℕ) (s : MainState) (e : MainEnd) (a : BubAbData)
        (ha : s.Named ∧ Stands dev start s.disk a)
        (h : efiMainTurn dev.toMyBubOps (c.io k) s = .inr e) :
        ∃ o b, TurnStep rejected a o b ∧ bootedFrom (.inr e) = o.map bootPartition ∧
          Stands dev start e.disk b := by
      obtain ⟨o, b, hmove, hshows⟩ := hturn k s a ha.1 ha.2
      rw [h] at hshows
      exact ⟨o, b, hmove, hshows.booted, hshows.stands ha.2⟩
    have hnamed : MainState.Named ⟨[0, 0, 0], ascii ['b', 'o', 'o', 't'] ++ [0, 0, 0], disk⟩ := rfl
    rcases DoWhile.run_trace hgo hend ⟨hnamed, h⟩ c.turns with
      ⟨s, b, hrun, htrace, -, hb⟩ | ⟨e, o, b, hrun, htrace, hbooted, hb⟩
    · rw [hrun]
      exact ⟨[], b, htrace, rfl, hb⟩
    · rw [hrun]
      refine ⟨o.toList, b, htrace, ?_, hb⟩
      rw [hbooted]
      cases o <;> rfl

/-- A history of the device is a trace of the record. -/
theorem powerCycles_trace (rejected : Fin 2 → Prop) (cycles : List PowerOn)
    (hrejected : ∀ c ∈ cycles, ∀ k i, ¬ dev.ImageValid (c.io k).boot disk i → rejected i)
    (h : readBlock (dev.miscBlock disk) = .ok d) :
    ∃ labels e, Trace (TurnStep rejected) d labels e ∧
      (Machine.run (powerCycle dev) cycles disk).1.filterMap bootedFrom =
        labels.map bootPartition ∧
      Stands dev disk (Machine.run (powerCycle dev) cycles disk).2 e :=
  Machine.run_trace (fun c hc _ _ ha => trace_powerCycle c (hrejected c hc) ha) (stands_self h)

/-- The reader finds the record of the metadata block. -/
theorem read_eq_readBlock (dev : BootDevice) (disk : Disk) :
    bubReadAbDataFromMisc (uefiOps dev.toMyBubOps ⟨true, true⟩) disk =
      readBlock (dev.miscBlock disk) := by
  rw [bubReadAbDataFromMisc_uefiOps, bubReadAbDataFromMisc_miscOps]
  rfl

/-- The two slots have different partitions. -/
theorem bootPartition_injective : Function.Injective bootPartition := by decide

/-- **No slot is started more often than it has boots left**, over any number of power-ons, whatever
the firmware fails to do. What is left of its budget is still on disk, no other partition is booted
from, and nothing but the metadata block is ever written. -/
theorem starts_within_budget
    (h : bubReadAbDataFromMisc (uefiOps dev.toMyBubOps ⟨true, true⟩) disk = .ok d)
    (history : List PowerOn) :
    ∃ d', bubReadAbDataFromMisc (uefiOps dev.toMyBubOps ⟨true, true⟩)
        (Machine.run (powerCycle dev) history disk).2 = .ok d' ∧
      (∀ i, ((((Machine.run (powerCycle dev) history disk).1.filterMap bootedFrom).count
          (bootPartition i) : ℕ) : ℕ∞) + (d'.slots i).bootBudget ≤ (d.slots i).bootBudget) ∧
      (∀ name ∈ (Machine.run (powerCycle dev) history disk).1.filterMap bootedFrom,
        ∃ i, name = bootPartition i) ∧
      ∃ b, (Machine.run (powerCycle dev) history disk).2 = dev.withMiscBlock disk b := by
  rw [read_eq_readBlock] at h
  obtain ⟨labels, e, htrace, hbooted, hstands⟩ :=
    powerCycles_trace (fun _ => True) history (by simp) h
  refine ⟨e, (read_eq_readBlock dev _).trans hstands.block, fun i => ?_, fun name hname => ?_,
    _, hstands.frame⟩
  · rw [hbooted, List.count_map_of_injective _ _ bootPartition_injective]
    exact htrace.count_add_le (μ := fun d => (d.slots i).bootBudget) fun _ _ _ => TurnStep.budget
  · rw [hbooted] at hname
    obtain ⟨i, -, rfl⟩ := List.mem_map.mp hname
    exact ⟨i, rfl⟩

/-- A power-on in which nothing fails. -/
def workingPowerOn : PowerOn := ⟨true, fun _ => workingTurn, 1⟩

/-- Slot B of the reset record, which has the only image, is started at most seven times. -/
theorem starts_within_budget_reset :
    ((Machine.run (powerCycle smallDevice) (List.replicate 9 workingPowerOn)
      (oneImage 1)).1.filterMap bootedFrom).count (bootPartition 1) ≤ 7 := by
  obtain ⟨d', -, hbudget, -⟩ :=
    starts_within_budget (read_oneImage 1) (List.replicate 9 workingPowerOn)
  have hseven : (resetAbData.sealed.slots 1).bootBudget = 7 :=
    BubSlotData.bootBudget_of_updating (by decide)
  have hle := le_trans le_self_add (hseven ▸ hbudget 1)
  exact_mod_cast hle

/-! ## Power-ons in which nothing fails -/

/-- Nothing fails in the power-on, and it is not switched off before its first turn. -/
structure PowerOn.Works (c : PowerOn) : Prop where
  init : c.init = true
  succeeds : (c.io 0).Succeeds
  turns : 0 < c.turns

/-- The headers that a power-on reads of the two boot images. -/
def ReadsHeaders (dev : BootDevice) (disk : Disk) (head : Fin 2 → BootImgHdr)
    (c : PowerOn) : Prop :=
  ∀ k i, headerAt dev.toMyBubOps (dev.boot i) (c.io k).boot disk = head i

/-- A boot partition with room for a header is read in the same way at every power-on. -/
theorem readsHeaders_of_room (hroom : ∀ i, 1632 ≤ (imgSize (dev.boot i) dev.blockSize).toNat)
    (c : PowerOn) :
    ReadsHeaders dev disk (fun i => headerAt dev.toMyBubOps (dev.boot i) .success disk) c := by
  intro k i
  have hfull : min 1632 (imgSize (dev.boot i) dev.blockSize).toNat = 1632 :=
    Nat.min_eq_left (hroom i)
  have hlength : (disk.read ((dev.boot i).start dev.blockSize) 1632).length = 1632 := by simp
  -- Nothing is left of what the pool held.
  unfold headerAt overwrite
  simp only [hfull, hlength, (Bytes.length_toList _).le, List.drop_eq_nil_of_le]

/-- The format of the image with this header is valid. -/
def UsableImage (dev : BootDevice) (head : Fin 2 → BootImgHdr) (i : Fin 2) : Bool :=
  formatValid (imgSize (dev.boot i) dev.blockSize) (head i)

/-- What is seen of a run of `efi_main`: how it ended, if it did, and what it booted. -/
def observed (r : MainState ⊕ MainEnd) : Option Exit × Option (List Byte) :=
  (r.getRight?.map MainEnd.exit, bootedFrom r)

/-- What a power-on comes to that hands out the slot `o`. -/
def bootOutcome (dev : BootDevice) (head : Fin 2 → BootImgHdr) (o : Option (Fin 2)) :
    Option Exit × Option (List Byte) :=
  match o with
  | none => (some (.aborted "Could not choose A/B slot.\n"), none)
  | some i =>
    if !UsableImage dev head i then (some (.aborted "Could not mark slot invalid."), none)
    else if 0#8 ∈ (head i).cmdline.toList then (some .returned, some (bootPartition i))
    else (some .fault, none)

/-- The record that it leaves. -/
def bootedRecord (dev : BootDevice) (head : Fin 2 → BootImgHdr) (d : BubAbData) : BubAbData :=
  match d.selected with
  | none => d.planned
  | some i => if UsableImage dev head i then d.planned else d.planned.invalidated i

variable {head : Fin 2 → BootImgHdr} {c : PowerOn}

/-- A power-on in which nothing fails takes one turn. -/
theorem powerCycle_of_works (hc : c.Works) (hhead : ReadsHeaders dev disk head c)
    (hblock : readBlock (dev.miscBlock disk) = .ok d) :
    observed (powerCycle dev c disk).1 = bootOutcome dev head d.selected ∧
      (powerCycle dev c disk).2 = dev.withMiscBlock disk (bootedRecord dev head d).image := by
  have hs : MainState.Named ⟨[0, 0, 0], ascii ['b', 'o', 'o', 't'] ++ [0, 0, 0], disk⟩ := rfl
  have hfirst {e : MainEnd} (h : efiMainTurn dev.toMyBubOps (c.io 0)
      ⟨[0, 0, 0], ascii ['b', 'o', 'o', 't'] ++ [0, 0, 0], disk⟩ = .inr e) :
      powerCycle dev c disk = (.inr e, e.disk) := by
    have hrun : efiMain (some dev.toMyBubOps) c.io disk c.turns = .inr e :=
      DoWhile.run_of_le (k := 1) h hc.turns
    simp only [powerCycle, hc.init, if_true, hrun, diskOf]
  have hvalid_iff (i : Fin 2) :
      UsableImage dev head i = true ↔ dev.ImageValid (c.io 0).boot disk i := by
    rw [UsableImage, BootDevice.ImageValid, ImageValid, hhead 0 i]
  unfold bootedRecord
  cases hsel : d.selected with
  | none =>
    have hio : (c.io 0).abFlow.misc = .success := by rw [hc.succeeds.abFlow]; rfl
    have hflow := bubAbFlow_success hblock [0, 0, 0]
    rw [← hio] at hflow
    rw [hfirst (efiMainTurn_of_flow_ne_ok hflow (by simp [verdict, answer, hsel]))]
    exact ⟨rfl, rfl⟩
  | some i =>
    have hout : HandsOut dev (c.io 0) disk d i :=
      ⟨hblock, hsel, by rw [hc.succeeds.abFlow], .inr (by rw [hc.succeeds.abFlow])⟩
    by_cases hvalid : dev.ImageValid (c.io 0).boot disk i
    · have husable := (hvalid_iff i).mpr hvalid
      obtain ⟨exit, started, hturn, -⟩ :=
        efiMainTurn_of_not_rejects_disk hs hout fun hr => hr.invalid hvalid
      rw [hfirst hturn]
      simp only [husable, if_true, and_true, bootOutcome, Bool.not_true, Bool.false_eq_true,
        if_false]
      -- How it ends depends on the command line.
      rcases efiMain_of_imageValid hc.succeeds hout hvalid with
        ⟨disk', hterm, heq⟩ | ⟨disk', kernel, hterm, hname, heq⟩
      · obtain ⟨rfl, rfl, -⟩ := MainEnd.mk.inj (Sum.inr.inj (hturn.symm.trans heq))
        rw [Terminated, hhead 0 i] at hterm
        rw [if_neg hterm]
        rfl
      · obtain ⟨rfl, rfl, -⟩ := MainEnd.mk.inj (Sum.inr.inj (hturn.symm.trans heq))
        rw [Terminated, hhead 0 i] at hterm
        rw [if_pos hterm, ← hname]
        rfl
    · have husable : UsableImage dev head i = false :=
        Bool.eq_false_iff.mpr fun h => hvalid ((hvalid_iff i).mp h)
      have hrejects : Rejects dev (c.io 0) disk i := ⟨hc.succeeds.boot.allocHeader,
        hc.succeeds.boot.readHeader, hc.succeeds.boot.findEntry, hvalid⟩
      rcases efiMainTurn_of_rejects hs hout hrejects with
        ⟨hfail, -⟩ | ⟨-, -, hturn⟩ | ⟨-, hfail, -⟩
      · rw [hc.succeeds.mark] at hfail
        cases hfail
      · rw [hfirst hturn]
        simp only [husable, bootOutcome, Bool.not_false, if_true, Bool.false_eq_true, if_false]
        exact ⟨rfl, trivial⟩
      · rw [hc.succeeds.mark] at hfail
        cases hfail

/-- A slot that is invalidated when it is handed out leaves the queue. -/
theorem candidates_invalidated {x : Fin 2} (hx : d.selected = some x) :
    (d.planned.invalidated x).candidates = d.candidates.tail := by
  have hother : (d.planned.invalidated x).slots x.rev = d.planned.slots x.rev :=
    invalidated_slots_of_ne _ (Ne.symm (ne_rev x))
  have hgone : ¬ ((d.planned.invalidated x).slots x).Bootable := by
    rw [invalidated_slots_self]
    decide
  have hbudget := bootBudget_planned_rev hx
  have hiff := bootable_planned_rev hx
  by_cases hy : (d.slots x.rev).Bootable
  · have hnext : (d.planned.invalidated x).selected = some x.rev := by
      rw [selected_eq_some_iff, Preferred, Fin.rev_rev, hother]
      exact ⟨hiff.mpr hy, fun h => absurd h hgone⟩
    simp [candidates, hx, hnext, hy, hgone, hother, hbudget]
  · have hnot : ∀ z, ¬ ((d.planned.invalidated x).slots z).Bootable := by
      intro z
      rcases eq_or_eq_rev x z with rfl | rfl
      · exact hgone
      · rwa [hother, hiff]
    have hnone : (d.planned.invalidated x).selected = none := by simp [selected_eq, hnot]
    simp [candidates, hx, hnone, hy]

/-- A power-on takes one turn of the arbiter, in whose queue the slots without a usable image are
cut short. -/
theorem cutShort_bootedRecord (dev : BootDevice) (head : Fin 2 → BootImgHdr) (d : BubAbData) :
    Arbiter.cutShort (UsableImage dev head) (bootedRecord dev head d).candidates =
      (Arbiter.next (Arbiter.cutShort (UsableImage dev head) d.candidates)).2 := by
  have hfst := next_candidates_fst d
  unfold bootedRecord
  cases hsel : d.selected with
  | none =>
    rw [Arbiter.next_cutShort_of_usable fun x hx => by simp [hfst, hsel] at hx, candidates_planned]
  | some x =>
    rw [hsel] at hfst
    cases husable : UsableImage dev head x with
    | true =>
      have hgranted : ∀ y, (Arbiter.next d.candidates).1 = some y →
          UsableImage dev head y = true := by
        intro y hy
        obtain rfl := Option.some.inj (hfst.symm.trans hy)
        exact husable
      rw [Arbiter.next_cutShort_of_usable hgranted, ← candidates_planned]
      simp [husable]
    | false =>
      rw [Arbiter.next_cutShort_of_not_usable hfst husable, ← candidates_invalidated hsel]
      simp [husable]

/-- The headers that are read do not depend on the metadata block. -/
theorem ReadsHeaders.of_stands (h : ReadsHeaders dev start head c) (hd : Stands dev start disk d) :
    ReadsHeaders dev disk head c := by
  intro k i
  rw [hd.frame, dev.headerAt_withMiscBlock, h k i]

/-- One power-on, as a turn of the arbiter. -/
theorem powerCycle_turn (hc : c.Works) (hhead : ReadsHeaders dev start head c)
    (h : Stands dev start disk d) :
    observed (powerCycle dev c disk).1 = bootOutcome dev head
        (Arbiter.next (Arbiter.cutShort (UsableImage dev head) d.candidates)).1 ∧
      Stands dev start (powerCycle dev c disk).2 (bootedRecord dev head d).sealed := by
  obtain ⟨hobserved, hdisk⟩ := powerCycle_of_works hc (hhead.of_stands h) h.block
  have hmagic : (bootedRecord dev head d).magic = bubBootCtrlMagic := by
    unfold bootedRecord
    have hplanned := (planned_magic d).trans (magic_of_readBlock h.block)
    split
    · exact hplanned
    · split_ifs
      · exact hplanned
      · exact hplanned
  refine ⟨?_, ?_, ?_⟩
  · rw [Arbiter.next_cutShort_fst, next_candidates_fst, hobserved]
  · rw [hdisk, dev.miscBlock_withMiscBlock]
    exact readBlock_image hmagic
  · rw [hdisk, dev.miscBlock_withMiscBlock, h.frame, dev.withMiscBlock_withMiscBlock]

/-- **The schedule of a device whose firmware does not fail.** Any number of power-ons in a row come
to what the arbiter's schedule says: the bootable slots are booted in order of preference, each as
often as its budget allows, but a slot without a usable image costs one power-on only, which aborts
with the slot marked as invalid. -/
theorem working_boots (h : bubReadAbDataFromMisc (uefiOps dev.toMyBubOps ⟨true, true⟩) disk = .ok d)
    (cycles : List PowerOn) (hworks : ∀ c ∈ cycles, c.Works)
    (hhead : ∀ c ∈ cycles, ReadsHeaders dev disk head c) :
    (Machine.run (powerCycle dev) cycles disk).1.map observed = cycles.mapIdx fun k _ =>
      bootOutcome dev head
        (Arbiter.schedule (Arbiter.cutShort (UsableImage dev head) d.candidates) k) := by
  rw [read_eq_readBlock] at h
  -- The device is simulated by the arbiter, on the queue of the record.
  have hturn : ∀ c ∈ cycles, ∀ disk' q,
      (∃ e, Stands dev disk disk' e ∧ q = Arbiter.cutShort (UsableImage dev head) e.candidates) →
      observed (powerCycle dev c disk').1 = bootOutcome dev head (Arbiter.next q).1 ∧
        ∃ e, Stands dev disk (powerCycle dev c disk').2 e ∧
          (Arbiter.next q).2 = Arbiter.cutShort (UsableImage dev head) e.candidates := by
    rintro c hc disk' _ ⟨e, he, rfl⟩
    obtain ⟨hobserved, hstands⟩ := powerCycle_turn (hworks c hc) (hhead c hc) he
    exact ⟨hobserved, _, hstands, (cutShort_bootedRecord dev head e).symm⟩
  have hsim : (Machine.run (powerCycle dev) cycles disk).1.map observed = (Machine.run
      (fun _ q => (bootOutcome dev head (Arbiter.next q).1, (Arbiter.next q).2)) cycles
      (Arbiter.cutShort (UsableImage dev head) d.candidates)).1 :=
    (Machine.run_simulates_on hturn ⟨d, stands_self h, rfl⟩).1
  rw [hsim, Arbiter.run_next (fun _ o => bootOutcome dev head o) d.candidates_live.cutShort]

/-- In this power-on nothing fails. -/
theorem workingPowerOn_works : workingPowerOn.Works := ⟨rfl, workingTurn_succeeds, Nat.one_pos⟩

/-- The headers on the small device, whose boot partitions have room for them. -/
theorem readsHeaders_smallDevice (disk : Disk) (c : PowerOn) : ReadsHeaders smallDevice disk
    (fun i => headerAt smallDevice.toMyBubOps (smallDevice.boot i) .success disk) c :=
  readsHeaders_of_room (by decide) c

/-- With an image in slot B only, the first power-on aborts, and the second boots slot B. -/
theorem working_boots_second_slot :
    (Machine.run (powerCycle smallDevice) [workingPowerOn, workingPowerOn] (oneImage 1)).1.map
      observed = [(some (.aborted "Could not mark slot invalid."), none),
        (some .returned, some (bootPartition 1))] := by
  have hboots := working_boots (read_oneImage 1) [workingPowerOn, workingPowerOn]
    (by simp [workingPowerOn_works]) fun c _ => readsHeaders_smallDevice (oneImage 1) c
  have husable (i : Fin 2) : UsableImage smallDevice
      (fun i => headerAt smallDevice.toMyBubOps (smallDevice.boot i) .success (oneImage 1)) i =
      decide (i = 1) := by
    rw [Bool.eq_iff_iff, decide_eq_true_iff]
    exact imageValid_oneImage 1 i
  have hterminated : 0#8 ∈ (headerAt smallDevice.toMyBubOps (smallDevice.boot 1) .success
      (oneImage 1)).cmdline.toList := by
    rw [oneImage, smallDevice.headerAt_withMiscBlock]
    decide +kernel
  have hselected : resetAbData.sealed.selected = some 0 := selected_eq_some_iff.mpr (by decide)
  have hbootable : (resetAbData.slots 1).Bootable := by decide
  have hqueue : Arbiter.cutShort (UsableImage smallDevice
      (fun i => headerAt smallDevice.toMyBubOps (smallDevice.boot i) .success (oneImage 1)))
      resetAbData.sealed.candidates = [(0, 1), (1, (resetAbData.slots 1).bootBudget)] := by
    simp [candidates, hselected, hbootable, Arbiter.cutShort, husable]
  have hpos : 0 < (resetAbData.slots 1).bootBudget :=
    pos_iff_ne_zero.mpr (BubSlotData.bootBudget_ne_zero_of_updating (by decide))
  rw [hboots, hqueue]
  simp [Arbiter.schedule, hpos, bootOutcome, husable, hterminated]

end

end BrilloBoot
