import BrilloBoot.Main

/-!
# Falling back to the other slot

What a run of `efi_main` does when the firmware does not fail. It ends in its first turn: with the
kernel of the preferred bootable slot started, or, when the image of that slot is rejected, in
`bub_abort`, since marking the slot as invalid succeeds and `efi_main` takes the value that says so
for an error. `fallsBack_iff` says when that is what falling back to the other slot would do.
-/

namespace BrilloBoot

open BubAbData

/-- Slot `y` is preferred to slot `x`: it has the higher priority, or is slot A in a tie. -/
def BubAbData.MorePreferred (d : BubAbData) (y x : Fin 2) : Prop :=
  (d.slots x).priority < (d.slots y).priority ∨
    (d.slots x).priority = (d.slots y).priority ∧ y < x

variable (dev : BootDevice)

/-- `bub_boot_kernel` does not return `BUB_BOOT_ERROR_PARTITION_INVALID_FORMAT` for the slot. -/
def Accepts (io : BootIo) (disk : Disk) (x : Fin 2) : Prop :=
  ∀ started, bubBootKernel dev.toMyBubOps io (bootPartition x) disk ≠
    some (.errorPartitionInvalidFormat, started)

/-- Slot `x` is the most preferred of the bootable slots whose image is accepted. -/
structure FirstAccepted (io : BootIo) (disk : Disk) (d : BubAbData) (x : Fin 2) : Prop where
  bootable : (d.slots x).Bootable
  accepts : Accepts dev io disk x
  first : ∀ y, (d.slots y).Bootable → Accepts dev io disk y → ¬ d.MorePreferred y x

/-- What a run should come to that starts with the record `d`. -/
structure FallsBack (io : BootIo) (disk : Disk) (d : BubAbData) (e : MainEnd) : Prop where
  /-- It starts the kernel of the most preferred bootable slot whose image is accepted. -/
  starts : ∀ x, FirstAccepted dev io disk d x →
    ∃ kernel, e.started = some kernel ∧ kernel.partitionName = bootPartition x
  /-- The bootable slots before that one are left with an all-zero record. -/
  clears : ∀ x y, FirstAccepted dev io disk d x → (d.slots y).Bootable → d.MorePreferred y x →
    ∃ d', readBlock (dev.miscBlock e.disk) = .ok d' ∧ d'.slots y = .zero
  /-- It aborts only when no bootable slot has an accepted image. -/
  aborts : ∀ message, e.exit = .aborted message → ∀ x, (d.slots x).Bootable →
    ¬ Accepts dev io disk x

variable {dev}

/-- A preferred slot is preferred to every other bootable one. -/
theorem BubAbData.Preferred.morePreferred {d : BubAbData} {x y : Fin 2} (h : d.Preferred x)
    (hy : (d.slots y).Bootable) (hne : y ≠ x) : d.MorePreferred x y := by
  rcases eq_or_eq_rev x y with rfl | rfl
  · exact absurd rfl hne
  · rcases h.2 hy with hlt | ⟨heq, hzero⟩
    · exact .inl hlt
    · refine .inr ⟨heq, ?_⟩
      rw [hzero]
      decide

/-- One of two slots is preferred at most. -/
theorem BubAbData.MorePreferred.asymm {d : BubAbData} {x y : Fin 2} (h : d.MorePreferred x y) :
    ¬ d.MorePreferred y x := by
  rintro (hlt | ⟨heq, hyx⟩)
  · rcases h with hlt' | ⟨heq', -⟩
    · bv_omega
    · bv_omega
  · rcases h with hlt' | ⟨-, hxy⟩
    · bv_omega
    · omega

/-- With a firmware that does not fail, the accepted images are those of a valid format. -/
theorem accepts_iff (dev : BootDevice) {io : BootIo} (hio : io.Succeeds) (disk : Disk)
    (x : Fin 2) :
    Accepts dev io disk x ↔ dev.ImageValid io disk x := by
  rcases bubBootKernel_cases (dev.boot_entry x) (dev.boot_wellPlaced x) io disk with
    ⟨hfail, -⟩ | ⟨-, hinvalid, heq⟩ | ⟨-, hvalid, heq⟩
  · exact absurd ⟨hio.allocHeader, hio.readHeader, hio.findEntry⟩ hfail
  · exact iff_of_false (fun h => h none heq) hinvalid
  · refine iff_of_true (fun started h => ?_) hvalid
    rw [heq] at h
    exact startBootImage_ne_invalid io _ disk started h

/-- Every call of the firmware in a turn succeeds. -/
structure TurnIo.Succeeds (io : TurnIo) : Prop where
  abFlow : io.abFlow = ⟨true, true⟩
  boot : io.boot.Succeeds
  mark : io.mark = ⟨true, true⟩

/-- The command line of a slot's image is terminated within its 512 bytes. -/
def Terminated (dev : BootDevice) (io : BootIo) (disk : Disk) (x : Fin 2) : Prop :=
  0#8 ∈ (headerAt dev.toMyBubOps (dev.boot x) io disk).cmdline.toList

/-- `bub_boot_kernel` for an image of a valid format, after a write of the metadata block. -/
theorem bubBootKernel_of_imageValid {io : BootIo} (hio : io.Succeeds) {disk : Disk} {x : Fin 2}
    (hvalid : dev.ImageValid io disk x) (b : Bytes 64) :
    bubBootKernel dev.toMyBubOps io (bootPartition x) (dev.withMiscBlock disk b) =
      startBootImage dev.toMyBubOps io (bootPartition x)
        (headerAt dev.toMyBubOps (dev.boot x) io disk) (dev.withMiscBlock disk b) := by
  rcases bubBootKernel_cases (dev.boot_entry x) (dev.boot_wellPlaced x) io
    (dev.withMiscBlock disk b) with ⟨hfail, -⟩ | ⟨-, hinvalid, -⟩ | ⟨-, -, heq⟩
  · exact absurd ⟨hio.allocHeader, hio.readHeader, hio.findEntry⟩ hfail
  · exact absurd ((dev.imageValid_withMiscBlock io disk b x).mpr hvalid) hinvalid
  · rw [heq, dev.headerAt_withMiscBlock]

/-- Without a bootable slot the first turn aborts. -/
theorem efiMain_of_not_selected (io : TurnIo) {disk : Disk} {d : BubAbData}
    (hread : readBlock (dev.miscBlock disk) = .ok d) (hx : d.selected = none) :
    ∃ disk', efiMain (some dev.toMyBubOps) (fun _ => io) disk 1 =
      .inr ⟨.aborted "Could not choose A/B slot.\n", none, disk'⟩ := by
  -- A slot that is handed out would be selected.
  refine efiMainTurn_of_not_handsOut fun e i hout => ?_
  have he := hout.block
  rw [hread, Except.ok.injEq] at he
  subst he
  have hsel := hout.selected
  rw [hx] at hsel
  cases hsel

/-- An image of a valid format is started, or its command line runs over. -/
theorem efiMain_of_imageValid {io : TurnIo} (hio : io.Succeeds) {disk : Disk} {d : BubAbData}
    {x : Fin 2} (hout : HandsOut dev io disk d x) (hvalid : dev.ImageValid io.boot disk x) :
    (∃ disk', ¬ Terminated dev io.boot disk x ∧
      efiMain (some dev.toMyBubOps) (fun _ => io) disk 1 = .inr ⟨.fault, none, disk'⟩) ∨
    (∃ disk' kernel, Terminated dev io.boot disk x ∧ kernel.partitionName = bootPartition x ∧
      efiMain (some dev.toMyBubOps) (fun _ => io) disk 1 =
        .inr ⟨.returned, some kernel, disk'⟩) := by
  have hs : MainState.Named ⟨[0, 0, 0], ascii ['b', 'o', 'o', 't'] ++ [0, 0, 0], disk⟩ := rfl
  have hturn : efiMain (some dev.toMyBubOps) (fun _ => io) disk 1 = efiMainTurn dev.toMyBubOps io
      ⟨[0, 0, 0], ascii ['b', 'o', 'o', 't'] ++ [0, 0, 0], disk⟩ := rfl
  -- The boot image is that of the disk before the call of `bub_ab_flow`.
  have hkernel := bubBootKernel_of_imageValid hio.boot hvalid d.planned.image
  rw [hturn, efiMainTurn_of_handsOut hs hout]
  rcases startBootImage_of_succeeds (dev.boot_entry x) (dev.boot_wellPlaced x) hio.boot
    (headerAt dev.toMyBubOps (dev.boot x) io.boot disk)
    (dev.withMiscBlock disk d.planned.image) with ⟨hterm, heq⟩ | ⟨hterm, kernel, hname, heq⟩
  · refine .inl ⟨dev.withMiscBlock disk d.planned.image, hterm, ?_⟩
    simp only [hkernel, heq]
  · refine .inr ⟨dev.withMiscBlock disk d.planned.image, kernel, hterm, hname, ?_⟩
    simp only [hkernel, heq]
    rfl

/-- Another image is rejected. The mark is read and written, and its value ends the run. -/
theorem efiMain_of_not_imageValid {io : TurnIo} (hio : io.Succeeds) {disk : Disk} {d : BubAbData}
    {x : Fin 2} (hout : HandsOut dev io disk d x) (hvalid : ¬ dev.ImageValid io.boot disk x) :
    ∃ disk', efiMain (some dev.toMyBubOps) (fun _ => io) disk 1 =
      .inr ⟨.aborted "Could not mark slot invalid.", none, disk'⟩ := by
  have hs : MainState.Named ⟨[0, 0, 0], ascii ['b', 'o', 'o', 't'] ++ [0, 0, 0], disk⟩ := rfl
  have hrejects : Rejects dev io disk x :=
    ⟨hio.boot.allocHeader, hio.boot.readHeader, hio.boot.findEntry, hvalid⟩
  refine ⟨dev.withMiscBlock disk (d.planned.invalidated x).image, ?_⟩
  rcases efiMainTurn_of_rejects hs hout hrejects with
    ⟨hfail, -⟩ | ⟨-, -, heq⟩ | ⟨-, hfail, -⟩
  · rw [hio.mark] at hfail
    cases hfail
  · exact heq
  · rw [hio.mark] at hfail
    cases hfail

/-- **Everything that a run can come to when the firmware does not fail.** It takes one turn. -/
theorem efiMain_cases {io : TurnIo} (hio : io.Succeeds) {disk : Disk} {d : BubAbData}
    (hread : readBlock (dev.miscBlock disk) = .ok d) :
    (d.selected = none ∧ ∃ disk', efiMain (some dev.toMyBubOps) (fun _ => io) disk 1 =
      .inr ⟨.aborted "Could not choose A/B slot.\n", none, disk'⟩) ∨
    (∃ x disk', d.selected = some x ∧ ¬ dev.ImageValid io.boot disk x ∧
      efiMain (some dev.toMyBubOps) (fun _ => io) disk 1 =
        .inr ⟨.aborted "Could not mark slot invalid.", none, disk'⟩) ∨
    (∃ x disk', d.selected = some x ∧ dev.ImageValid io.boot disk x ∧
      ¬ Terminated dev io.boot disk x ∧
      efiMain (some dev.toMyBubOps) (fun _ => io) disk 1 = .inr ⟨.fault, none, disk'⟩) ∨
    (∃ x disk' kernel, d.selected = some x ∧ dev.ImageValid io.boot disk x ∧
      Terminated dev io.boot disk x ∧ kernel.partitionName = bootPartition x ∧
      efiMain (some dev.toMyBubOps) (fun _ => io) disk 1 =
        .inr ⟨.returned, some kernel, disk'⟩) := by
  cases hx : d.selected with
  | none => exact .inl ⟨rfl, efiMain_of_not_selected io hread hx⟩
  | some x =>
    have hout : HandsOut dev io disk d x :=
      ⟨hread, hx, by rw [hio.abFlow], .inr (by rw [hio.abFlow])⟩
    by_cases hvalid : dev.ImageValid io.boot disk x
    · rcases efiMain_of_imageValid hio hout hvalid with
        ⟨disk', hterm, heq⟩ | ⟨disk', kernel, hterm, hname, heq⟩
      · exact .inr (.inr (.inl ⟨x, disk', rfl, hvalid, hterm, heq⟩))
      · exact .inr (.inr (.inr ⟨x, disk', kernel, rfl, hvalid, hterm, hname, heq⟩))
    · obtain ⟨disk', heq⟩ := efiMain_of_not_imageValid hio hout hvalid
      exact .inr (.inl ⟨x, disk', rfl, hvalid, heq⟩)

/-- A preferred slot with an accepted image comes first. -/
theorem firstAccepted_of_preferred {io : BootIo} {disk : Disk} {d : BubAbData} {x : Fin 2}
    (h : d.Preferred x) (haccepts : Accepts dev io disk x) : FirstAccepted dev io disk d x := by
  refine ⟨h.1, haccepts, fun y hy _ hmore => ?_⟩
  by_cases hne : y = x
  · subst hne
    exact hmore.asymm hmore
  · exact (h.morePreferred hy hne).asymm hmore

/-- No other slot comes first then. -/
theorem FirstAccepted.eq_of_preferred {io : BootIo} {disk : Disk} {d : BubAbData} {x y : Fin 2}
    (hy : FirstAccepted dev io disk d y) (h : d.Preferred x) (haccepts : Accepts dev io disk x) :
    y = x := by
  by_contra hne
  exact hy.first x h.1 haccepts (h.morePreferred hy.bootable hne)

/-- With no image to start, falling back asks for nothing. -/
theorem fallsBack_of_not_accepts {io : BootIo} {disk : Disk} {d : BubAbData} {e : MainEnd}
    (hnone : ∀ y, (d.slots y).Bootable → ¬ Accepts dev io disk y) : FallsBack dev io disk d e where
  starts y hy := absurd hy.accepts (hnone y hy.bootable)
  clears y _ hy := absurd hy.accepts (hnone y hy.bootable)
  aborts _ _ := hnone

/-- Starting the image of the preferred slot is falling back, when that image is accepted. -/
theorem fallsBack_of_preferred {io : BootIo} {disk disk' : Disk} {d : BubAbData} {x : Fin 2}
    {kernel : StartedKernel} (hpref : d.Preferred x) (haccepts : Accepts dev io disk x)
    (hname : kernel.partitionName = bootPartition x) :
    FallsBack dev io disk d ⟨.returned, some kernel, disk'⟩ := by
  refine ⟨fun y hy => ?_, fun y z hy hz hmore => ?_, fun message hexit => ?_⟩
  · rw [hy.eq_of_preferred hpref haccepts]
    exact ⟨kernel, rfl, hname⟩
  · rw [hy.eq_of_preferred hpref haccepts] at hmore
    by_cases hne : z = x
    · subst hne
      exact absurd hmore hmore.asymm
    · exact absurd hmore (hpref.morePreferred hz hne).asymm
  · cases hexit

/-- A run of `efi_main` on a readable block, with a firmware that does not fail, comes to what
falling back would, exactly when no bootable slot has an image of a valid format, or the preferred
bootable slot has one, with a terminated command line. -/
theorem fallsBack_iff {io : TurnIo} (hio : io.Succeeds) {disk : Disk} {d : BubAbData}
    (hread : bubReadAbDataFromMisc (uefiOps dev.toMyBubOps ⟨true, true⟩) disk = .ok d) :
    ∃ e, efiMain (some dev.toMyBubOps) (fun _ => io) disk 1 = .inr e ∧
      (FallsBack dev io.boot disk d e ↔
        (∀ x, (d.slots x).Bootable → ¬ dev.ImageValid io.boot disk x) ∨
          ∃ x, d.Preferred x ∧ dev.ImageValid io.boot disk x ∧
            Terminated dev io.boot disk x) := by
  have hblock : readBlock (dev.miscBlock disk) = .ok d := by
    rw [← hread, bubReadAbDataFromMisc_uefiOps, bubReadAbDataFromMisc_miscOps]
    rfl
  have haccepts (x : Fin 2) := accepts_iff dev hio.boot disk x
  have hunique {x y : Fin 2} (hx : d.selected = some x) (hy : d.Preferred y) : y = x := by
    rw [← selected_eq_some_iff, hx, Option.some.injEq] at hy
    exact hy.symm
  rcases efiMain_cases hio hblock with ⟨hx, disk', heq⟩ | ⟨x, disk', hx, hvalid, heq⟩ |
    ⟨x, disk', hx, hvalid, hterm, heq⟩ | ⟨x, disk', kernel, hx, hvalid, hterm, hname, heq⟩
  · -- No bootable slot.
    have hnone := not_bootable_of_selected_eq_none hx
    refine ⟨_, heq, iff_of_true (fallsBack_of_not_accepts fun y hy => ?_) (.inl fun y hy => ?_)⟩
    · exact absurd hy (hnone y)
    · exact absurd hy (hnone y)
  · -- The image of the preferred slot is rejected.
    refine ⟨_, heq, fun h => .inl fun y hy hv => ?_, ?_⟩
    · exact h.aborts _ rfl y hy ((haccepts y).mpr hv)
    · rintro (hnone | ⟨y, hy, hv, -⟩)
      · exact fallsBack_of_not_accepts fun y hy ha => hnone y hy ((haccepts y).mp ha)
      · rw [hunique hx hy] at hv
        exact absurd hv hvalid
  · -- The command line of the preferred slot's image runs over.
    have hpref := selected_eq_some_iff.mp hx
    refine ⟨_, heq, iff_of_false (fun h => ?_) ?_⟩
    · obtain ⟨kernel, hkernel, -⟩ :=
        h.starts x (firstAccepted_of_preferred hpref ((haccepts x).mpr hvalid))
      cases hkernel
    · rintro (hnone | ⟨y, hy, -, ht⟩)
      · exact hnone x hpref.1 hvalid
      · rw [hunique hx hy] at ht
        exact hterm ht
  · -- The preferred slot is started.
    have hpref := selected_eq_some_iff.mp hx
    exact ⟨_, heq, iff_of_true (fallsBack_of_preferred hpref ((haccepts x).mpr hvalid) hname)
      (.inr ⟨x, hpref, hvalid, hterm⟩)⟩

/-- A firmware that does not fail. -/
def workingTurn : TurnIo := ⟨⟨true, true⟩, .success, ⟨true, true⟩⟩

/-- In this turn nothing fails. -/
theorem workingTurn_succeeds : workingTurn.Succeeds := ⟨rfl, BootIo.success_succeeds, rfl⟩

/-- A disk of the small device with the reset metadata, on which only the image of slot `x` is not
blank: it starts with the magic. -/
def oneImage (x : Fin 2) : Disk :=
  smallDevice.withMiscBlock
    (blankDisk.write ((smallDevice.boot x).start smallDevice.blockSize) bootMagic.toList)
    resetAbData.image

/-- The metadata of that disk is the reset record. -/
theorem read_oneImage (x : Fin 2) : bubReadAbDataFromMisc
    (uefiOps smallDevice.toMyBubOps ⟨true, true⟩) (oneImage x) = .ok resetAbData.sealed := by
  rw [bubReadAbDataFromMisc_uefiOps, oneImage, smallDevice.miscBlock_withMiscBlock]
  exact bubReadAbDataFromMisc_image rfl

/-- The one image is that of the slot. -/
theorem imageValid_oneImage (x y : Fin 2) :
    smallDevice.ImageValid .success (oneImage x) y ↔ y = x := by
  unfold oneImage
  rw [smallDevice.imageValid_withMiscBlock]
  fin_cases x <;> fin_cases y <;> decide +kernel

/-- With a valid image in slot B only, a run marks slot A as invalid and aborts. -/
theorem does_not_fall_back : ∃ e,
    efiMain (some smallDevice.toMyBubOps) (fun _ => workingTurn) (oneImage 1) 1 = .inr e ∧
      e.exit = .aborted "Could not mark slot invalid." ∧
      ¬ FallsBack smallDevice workingTurn.boot (oneImage 1) resetAbData.sealed e := by
  have hblock : readBlock (smallDevice.miscBlock (oneImage 1)) = .ok resetAbData.sealed := by
    unfold oneImage
    rw [smallDevice.miscBlock_withMiscBlock]
    exact readBlock_image rfl
  have hselected : resetAbData.sealed.selected = some 0 := selected_eq_some_iff.mpr (by decide)
  have hvalid := imageValid_oneImage 1
  have haccepts := (accepts_iff smallDevice workingTurn_succeeds.boot (oneImage 1) 1).mpr
    ((hvalid 1).mpr rfl)
  rcases efiMain_cases workingTurn_succeeds hblock with
    ⟨hx, -⟩ | ⟨x, disk', -, -, heq⟩ | ⟨x, -, hx, hv, -⟩ | ⟨x, -, -, hx, hv, -⟩
  · rw [hselected] at hx
    cases hx
  · exact ⟨_, heq, rfl, fun h => h.aborts _ rfl 1 (by decide) haccepts⟩
  · rw [hselected] at hx
    cases hx
    exact absurd ((hvalid 0).mp hv) (by decide)
  · rw [hselected] at hx
    cases hx
    exact absurd ((hvalid 0).mp hv) (by decide)

/-- With a valid image in slot A, a run starts it. -/
theorem fallsBack_first_slot : ∃ e,
    efiMain (some smallDevice.toMyBubOps) (fun _ => workingTurn) (oneImage 0) 1 = .inr e ∧
      FallsBack smallDevice workingTurn.boot (oneImage 0) resetAbData.sealed e := by
  obtain ⟨e, he, hiff⟩ := fallsBack_iff workingTurn_succeeds (read_oneImage 0)
  have hterminated : Terminated smallDevice .success (oneImage 0) 0 := by
    rw [Terminated, oneImage, smallDevice.headerAt_withMiscBlock]
    decide +kernel
  exact ⟨e, he, hiff.mpr (.inr
    ⟨0, by decide, (imageValid_oneImage 0 0).mpr rfl, hterminated⟩)⟩

end BrilloBoot
