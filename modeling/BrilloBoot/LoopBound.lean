import BrilloBoot.Main

/-!
# How long the boot loop runs

The loop of `efi_main` has no counter. It is bounded when every turn that goes on leaves one
bootable slot fewer on disk; but a turn goes on just when the write of the mark fails, so that only
the try that `bub_ab_flow` charged can have taken the slot away. `loopBounded_iff` is the exact
condition.
-/

namespace BrilloBoot

namespace BubAbData

/-- The number of bootable slots of a record. -/
def bootableSlots (d : BubAbData) : ℕ := [0, 1].countP fun i => (d.slots i).Bootable

/-- There are two slots. -/
theorem bootableSlots_le (d : BubAbData) : d.bootableSlots ≤ 2 := List.countP_le_length

/-- A call of `bub_ab_flow` takes a slot away exactly when it hands out its last try. -/
theorem bootable_planned {d : BubAbData} {i : Fin 2} (h : d.selected = some i) (j : Fin 2) :
    (d.planned.slots j).Bootable ↔
      (d.slots j).Bootable ∧ ¬ (j = i ∧ (d.slots i).triesRemaining.toNat = 1) := by
  have hbudget := bootBudget_ne_zero_of_selected h
  rw [BubSlotData.bootable_iff, BubSlotData.bootable_iff, bootBudget_planned]
  by_cases hj : j = i
  · subst hj
    rw [if_pos h]
    rcases BubSlotData.good_or_updating hbudget with hg | hu
    · have htries : (d.slots j).triesRemaining.toNat ≠ 1 := by simp [hg.2.1]
      simp [BubSlotData.bootBudget_of_good hg, htries]
    · rw [BubSlotData.bootBudget_of_updating hu] at hbudget ⊢
      norm_cast at hbudget ⊢
      omega
  · have hne : d.selected ≠ some j := by
      rw [h, ne_eq, Option.some.injEq]
      exact fun hi => hj hi.symm
    simp [hne, hj]

/-- The bootable slots that a call of `bub_ab_flow` leaves. -/
theorem bootableSlots_planned {d : BubAbData} {i : Fin 2} (h : d.selected = some i) :
    d.planned.bootableSlots + (if (d.slots i).triesRemaining.toNat = 1 then 1 else 0) =
      d.bootableSlots := by
  have hi := bootable_of_selected h
  have hj := bootable_planned h
  simp only [bootableSlots, List.countP_cons, List.countP_nil, decide_eq_true_eq, hj]
  fin_cases i
  · simp only [Fin.zero_eta] at hi ⊢
    by_cases htries : (d.slots 0).triesRemaining.toNat = 1 <;> simp [hi, htries]
  · simp only [Fin.mk_one] at hi ⊢
    by_cases htries : (d.slots 1).triesRemaining.toNat = 1 <;> simp [hi, htries, Nat.add_comm]

/-- A call of `bub_ab_flow` has nothing to write: no slot needs to be normalized, and the one that
is handed out is not being tried. -/
def UpToDate (d : BubAbData) (i : Fin 2) : Prop :=
  (∀ j, (normalizeSlot (d.slots j)).1 = false) ∧ (d.slots i).triesRemaining = 0#3

/-- The planned record is the old one exactly when there is nothing to write. -/
theorem planned_eq_self_iff {d : BubAbData} {i : Fin 2} (h : d.selected = some i) :
    d.planned = d ↔ d.UpToDate i := by
  -- What makes `new_metadata` stay 0: no normalization, and no charge.
  have hnew : (∀ j, (normalizeSlot (d.slots j)).1 = false) ↔ d.normalized = d := by
    rw [← normalizeSlots_fst_eq_false, Fin.forall_fin_two]
    exact Bool.or_eq_false_iff.symm
  have hcharge (e : BubAbData) : (chargeTry e i).1 = false ↔ (e.slots i).triesRemaining = 0#3 := by
    rw [chargeTry]
    split_ifs with htries <;> simpa [BitVec.pos_iff_ne_zero] using htries
  unfold UpToDate
  rw [hnew]
  constructor
  · intro hsame
    cases hc : (chargeTry d.normalized i).1 with
    | true => exact absurd hsame (planned_ne_self h hc)
    | false =>
      have hnorm : d.normalized = d := (planned_eq_normalized h hc).symm.trans hsame
      refine ⟨hnorm, ?_⟩
      rwa [hcharge, hnorm] at hc
  · rintro ⟨hnorm, htries⟩
    have hc : (chargeTry d.normalized i).1 = false := by
      rw [hcharge, hnorm]
      exact htries
    rw [planned_eq_normalized h hc, hnorm]

end BubAbData

open BubAbData

variable (dev : BootDevice)

/-- The number of bootable slots on disk. -/
def BootDevice.bootableSlots (disk : Disk) : ℕ :=
  match readBlock (dev.miscBlock disk) with
  | .ok d => d.bootableSlots
  | .error _ => 0

/-- There are two slots on a disk as well. -/
theorem BootDevice.bootableSlots_le (disk : Disk) : dev.bootableSlots disk ≤ 2 := by
  rw [BootDevice.bootableSlots]
  split
  · exact BubAbData.bootableSlots_le _
  · omega

/-- In a turn with these outcomes, slot `i` is handed out, its image is rejected, and the write of
its mark fails, although it was not on its last try. -/
structure Stalls (io : TurnIo) (disk : Disk) (d : BubAbData) (i : Fin 2) : Prop where
  block : readBlock (dev.miscBlock disk) = .ok d
  preferred : d.Preferred i
  abFlowRead : io.abFlow.read = true
  abFlowWrite : d.UpToDate i ∨ io.abFlow.write = true
  rejects : Rejects dev io disk i
  markRead : io.mark.read = true
  markWrite : io.mark.write = false
  tries : (d.slots i).triesRemaining.toNat ≠ 1

/-- The loop of `efi_main` is left within three turns, and every turn that goes on leaves one
bootable slot fewer on disk. -/
structure LoopBounded (io : ℕ → TurnIo) (disk : Disk) : Prop where
  bounded : ∃ e, efiMain (some dev.toMyBubOps) io disk 3 = .inr e
  removes : ∀ k s s', efiMain (some dev.toMyBubOps) io disk k = .inl s →
    efiMain (some dev.toMyBubOps) io disk (k + 1) = .inl s' →
    dev.bootableSlots s'.disk + 1 = dev.bootableSlots s.disk

variable {dev}

/-- What a turn that goes on does to the number of bootable slots. -/
theorem bootableSlots_of_handsOut {io : TurnIo} {disk : Disk} {d : BubAbData} {i : Fin 2}
    (h : HandsOut dev io disk d i) :
    dev.bootableSlots (dev.withMiscBlock disk d.planned.image)
      + (if (d.slots i).triesRemaining.toNat = 1 then 1 else 0) = dev.bootableSlots disk := by
  unfold BootDevice.bootableSlots
  rw [dev.miscBlock_withMiscBlock,
    readBlock_planned h.block, h.block]
  exact bootableSlots_planned h.selected

/-- A turn that stalls goes on, and leaves as many bootable slots as there were. -/
theorem LoopBounded.not_stalls {io : ℕ → TurnIo} {disk : Disk} (h : LoopBounded dev io disk)
    {k : ℕ} {s : MainState} (hk : efiMain (some dev.toMyBubOps) io disk k = .inl s)
    (d : BubAbData) (i : Fin 2) : ¬ Stalls dev (io k) s.disk d i := by
  intro hstall
  have hsel := selected_eq_some_iff.mpr hstall.preferred
  have hout : HandsOut dev (io k) s.disk d i :=
    ⟨hstall.block, hsel, hstall.abFlowRead,
      hstall.abFlowWrite.imp_left (planned_eq_self_iff hsel).mpr⟩
  rcases efiMainTurn_of_rejects (named_of_efiMain hk) hout hstall.rejects with
    ⟨hread, -⟩ | ⟨-, hwrite, -⟩ | ⟨-, -, hturn⟩
  · rw [hstall.markRead] at hread
    cases hread
  · rw [hstall.markWrite] at hwrite
    cases hwrite
  · have hnext := (DoWhile.run_succ_of_inl hk).trans hturn
    have hcount := bootableSlots_of_handsOut hout
    have hless := h.removes k s _ hk hnext
    rw [if_neg hstall.tries, Nat.add_zero] at hcount
    exact absurd hless (by simp [hcount])

/-- A turn that goes on without stalling has spent the last try of a slot. -/
theorem bootableSlots_of_not_stalls {io : ℕ → TurnIo} {disk : Disk} {k : ℕ} {s s' : MainState}
    (hk : efiMain (some dev.toMyBubOps) io disk k = .inl s)
    (hturn : efiMainTurn dev.toMyBubOps (io k) s = .inl s')
    (hstalls : ∀ d i, ¬ Stalls dev (io k) s.disk d i) :
    dev.bootableSlots s'.disk + 1 = dev.bootableSlots s.disk := by
  obtain ⟨d, i, hout, hrejects, hread, hwrite, -, hdisk⟩ :=
    efiMainTurn_eq_inl (named_of_efiMain hk) hturn
  have hcount := bootableSlots_of_handsOut hout
  by_cases htries : (d.slots i).triesRemaining.toNat = 1
  · rwa [if_pos htries, ← hdisk] at hcount
  · exact absurd ⟨hout.block, selected_eq_some_iff.mp hout.selected, hout.read,
      hout.write.imp_left (planned_eq_self_iff hout.selected).mp, hrejects, hread, hwrite,
      htries⟩ (hstalls d i)

/-- The boot loop is bounded, by losing a bootable slot at every turn, exactly when no turn that it
reaches stalls. -/
theorem loopBounded_iff (io : ℕ → TurnIo) (disk : Disk) :
    LoopBounded dev io disk ↔
      ∀ k s, efiMain (some dev.toMyBubOps) io disk k = .inl s →
        ∀ d i, ¬ Stalls dev (io k) s.disk d i := by
  constructor
  · intro h k s hk
    exact h.not_stalls hk
  · -- The number of bootable slots is the measure.
    intro h
    have hlowers : ∀ k s s', efiMain (some dev.toMyBubOps) io disk k = .inl s →
        efiMainTurn dev.toMyBubOps (io k) s = .inl s' →
        dev.bootableSlots s'.disk < dev.bootableSlots s.disk := by
      intro k s s' hk hturn
      have hremoves := bootableSlots_of_not_stalls hk hturn (h k s hk)
      omega
    refine ⟨?_, fun k s s' hk hnext => ?_⟩
    · exact DoWhile.exists_run_eq_inr (μ := fun s => dev.bootableSlots s.disk) hlowers
        (Nat.lt_succ_of_le (dev.bootableSlots_le disk))
    · exact bootableSlots_of_not_stalls hk ((DoWhile.run_succ_of_inl hk).symm.trans hnext)
        (h k s hk)

/-- A record whose slot A has booted successfully, and whose slot B is empty. -/
def goodSlotA : BubAbData :=
  { resetAbData with
    slots := ![{ priority := 15, triesRemaining := 0, successfulBoot := 1, reserved := .zero 7 },
      .zero] }

/-- A firmware on which only the writes of the marks fail. -/
def failingMark : TurnIo := ⟨⟨true, true⟩, .success, ⟨true, false⟩⟩

/-- The disk of `goodSlotA`, with blank boot images. -/
def stuckDisk : Disk := smallDevice.withMiscBlock blankDisk goodSlotA.image

/-- A turn with this record, a rejected image and a mark that cannot be written changes nothing, and
the loop goes on. -/
theorem efiMainTurn_goodSlotA {dev : BootDevice} {io : TurnIo} {s : MainState} (hs : s.Named)
    (hblock : dev.miscBlock s.disk = goodSlotA.image) (hread : io.abFlow.read = true)
    (hrejects : Rejects dev io s.disk 0) (hmarkRead : io.mark.read = true)
    (hmarkWrite : io.mark.write = false) :
    ∃ s', efiMainTurn dev.toMyBubOps io s = .inl s' ∧ s'.disk = s.disk := by
  have hselected : goodSlotA.sealed.selected = some 0 := selected_eq_some_iff.mpr (by decide)
  have hplanned : goodSlotA.sealed.planned = goodSlotA.sealed :=
    (planned_eq_self_iff hselected).mpr ⟨by decide, rfl⟩
  have hout : HandsOut dev io s.disk goodSlotA.sealed 0 := by
    refine ⟨?_, hselected, hread, .inl hplanned⟩
    rw [hblock]
    exact readBlock_image rfl
  rcases efiMainTurn_of_rejects hs hout hrejects with ⟨hfalse, -⟩ | ⟨-, hfalse, -⟩ | ⟨-, -, hturn⟩
  · rw [hmarkRead] at hfalse
    cases hfalse
  · rw [hmarkWrite] at hfalse
    cases hfalse
  · refine ⟨_, hturn, ?_⟩
    simp only [hplanned, image_sealed, ← hblock, dev.withMiscBlock_miscBlock]

/-- On this disk a turn changes nothing, and the loop goes on. -/
theorem efiMainTurn_stuckDisk {s : MainState} (hs : s.Named) (hdisk : s.disk = stuckDisk) :
    ∃ s', efiMainTurn smallDevice.toMyBubOps failingMark s = .inl s' ∧ s'.disk = stuckDisk := by
  have hblock : smallDevice.miscBlock s.disk = goodSlotA.image := by
    rw [hdisk, stuckDisk, smallDevice.miscBlock_withMiscBlock]
  have hrejects : Rejects smallDevice failingMark s.disk 0 := by
    refine ⟨rfl, rfl, rfl, ?_⟩
    rw [hdisk, stuckDisk, smallDevice.imageValid_withMiscBlock]
    exact not_imageValid_blankDisk 0
  rw [← hdisk]
  exact efiMainTurn_goodSlotA hs hblock rfl hrejects rfl rfl

/-- With an invalid image in slot A, which has booted successfully, and a mark that cannot be
written, the boot loop hands out slot A forever. -/
theorem boot_loop_never_ends :
    (∀ k, ∃ s, efiMain (some smallDevice.toMyBubOps) (fun _ => failingMark) stuckDisk k = .inl s) ∧
      ¬ LoopBounded smallDevice (fun _ => failingMark) stuckDisk := by
  -- The invariant is the disk.
  have hforever (k : ℕ) : ∃ s, efiMain (some smallDevice.toMyBubOps) (fun _ => failingMark)
      stuckDisk k = .inl s ∧ s.disk = stuckDisk := by
    induction k with
    | zero => exact ⟨_, rfl, rfl⟩
    | succ k ih =>
      obtain ⟨s, hk, hdisk⟩ := ih
      obtain ⟨s', hturn, hdisk'⟩ := efiMainTurn_stuckDisk (named_of_efiMain hk) hdisk
      exact ⟨s', (DoWhile.run_succ_of_inl hk).trans hturn, hdisk'⟩
  refine ⟨fun k => (hforever k).imp fun _ h => h.1, fun hbounded => ?_⟩
  obtain ⟨e, he⟩ := hbounded.bounded
  obtain ⟨s, hs, -⟩ := hforever 3
  rw [he] at hs
  cases hs

end BrilloBoot
