import BrilloBoot.Device
import BrilloBoot.Lib.DoWhile
import BrilloBoot.Schedule

/-!
# The boot loop

`efi_main` of `bub_main.c`, after `InitializeLib`. A turn of its loop either leaves it (the kernel
was started, or `bub_abort` was called) or goes on; `efiMainTurn_cases` says when, in terms of the
metadata block and the boot images on the disk. A slot with an invalid image ends the run when it is
marked as invalid, and is tried again when that fails.
-/

namespace BrilloBoot

open BubAbData

/-- What becomes of the firmware's calls in one turn of the loop. -/
structure TurnIo where
  /-- The transfers of `bub_ab_flow`. -/
  abFlow : DiskIo
  boot : BootIo
  /-- The transfers of `bub_ab_mark_as_invalid`. -/
  mark : DiskIo

/-- How a run of `efi_main` ends. -/
inductive Exit
  /-- It returns `EFI_SUCCESS`. -/
  | returned
  /-- `bub_error` prints the message and calls `bub_abort`, which does not return. -/
  | aborted (message : String)
  /-- An access outside a buffer. -/
  | fault
deriving DecidableEq

/-- The end of a run: how it ended, the kernel that was started, and the disk. -/
structure MainEnd where
  exit : Exit
  started : Option StartedKernel
  disk : Disk

/-- The variables of `efi_main` that live across turns, and the disk. -/
structure MainState where
  slotSuffix : List Byte
  bootName : List Byte
  disk : Disk

/-- One turn of the loop. -/
def efiMainTurn (bub : MyBubOps) (io : TurnIo) (s : MainState) : MainState ⊕ MainEnd :=
  let (abResult, slotSuffix, disk) := bubAbFlow (uefiOps bub io.abFlow) s.slotSuffix s.disk
  if abResult ≠ .ok then .inr ⟨.aborted "Could not choose A/B slot.\n", none, disk⟩
  else
    -- `bub_memcpy(boot_name + 4, slot_suffix, BUB_SUFFIX_SIZE)`
    let bootName := s.bootName.take 4 ++ slotSuffix.take 3 ++ s.bootName.drop 7
    match bubBootKernel bub io.boot (bootName.takeWhile (· ≠ 0)) disk with
    | none => .inr ⟨.fault, none, disk⟩
    | some (bootResult, started) =>
      if bootResult = .errorPartitionInvalidFormat then
        let (marked, disk) := bubAbMarkAsInvalid (uefiOps bub io.mark) slotSuffix disk
        -- Any other value than 0 is taken for an error, the 1 of a written mark among them.
        if marked ≠ 0 then .inr ⟨.aborted "Could not mark slot invalid.", none, disk⟩
        else .inl ⟨slotSuffix, bootName, disk⟩
      else if bootResult ≠ .ok then .inr ⟨.aborted "Error loading kernel.\n", none, disk⟩
      else .inr ⟨.returned, started, disk⟩

/-- `efi_main`, as far as a number of turns of its loop. `init` is the object that `bub_init` sets
up, if it can. -/
def efiMain (init : Option MyBubOps) (io : ℕ → TurnIo) (disk : Disk) (turns : ℕ) :
    MainState ⊕ MainEnd :=
  match init with
  | none => .inr ⟨.aborted "Could not initialize Brillo Uefi object.", none, disk⟩
  | some bub =>
    let slotSuffix := [0, 0, 0]
    let bootName := ascii ['b', 'o', 'o', 't'] ++ [0, 0, 0]
    DoWhile.run (fun k => efiMainTurn bub (io k)) ⟨slotSuffix, bootName, disk⟩ turns

/-! ## One turn -/

/-- `boot_name` starts with `"boot"`. -/
def MainState.Named (s : MainState) : Prop := s.bootName.take 4 = ascii ['b', 'o', 'o', 't']

/-- The name that `efi_main` makes for the slot that was handed out. -/
theorem MainState.Named.bootName {s : MainState} (h : s.Named) (i : Fin 2) :
    (s.bootName.take 4 ++ bubSuffixes i ++ s.bootName.drop 7).takeWhile (· ≠ 0) =
      bootPartition i := by
  rw [h]
  fin_cases i <;> rfl

/-- The suffix that was handed out names its slot. -/
theorem suffixSlot_copySuffix (out : List Byte) (i : Fin 2) :
    suffixSlot (copySuffix out (bubSuffixes i)) = some i := by
  fin_cases i <;> rfl

variable (dev : BootDevice)

/-- In a turn with these outcomes, `bub_ab_flow` hands out the slot `i` of the record `d`. -/
structure HandsOut (io : TurnIo) (disk : Disk) (d : BubAbData) (i : Fin 2) : Prop where
  block : readBlock (dev.miscBlock disk) = .ok d
  selected : d.selected = some i
  read : io.abFlow.read = true
  /-- The write of the record, if there is one. -/
  write : d.planned = d ∨ io.abFlow.write = true

/-- In a turn with these outcomes, `bub_boot_kernel` rejects the format of the image of slot `i`. -/
structure Rejects (io : TurnIo) (disk : Disk) (i : Fin 2) : Prop where
  allocHeader : io.boot.allocHeader = true
  readHeader : io.boot.readHeader = true
  findEntry : io.boot.findEntry = true
  invalid : ¬ dev.ImageValid io.boot disk i

variable {dev} {io : TurnIo} {s : MainState} {d : BubAbData} {i : Fin 2}

/-- A turn that hands out no slot is the last. -/
theorem efiMainTurn_of_not_handsOut (h : ∀ d i, ¬ HandsOut dev io s.disk d i) :
    ∃ disk, efiMainTurn dev.toMyBubOps io s =
      .inr ⟨.aborted "Could not choose A/B slot.\n", none, disk⟩ := by
  have hflow :
      (bubAbFlow (miscOps io.abFlow.misc) s.slotSuffix (dev.miscBlock s.disk)).1 ≠ .ok := by
    -- Only the last outcome can be `ok`, and it hands out the slot that it selects.
    rcases bubAbFlow_miscOps_cases io.abFlow.misc s.slotSuffix (dev.miscBlock s.disk) with
      ⟨-, heq⟩ | ⟨-, -, heq⟩ | ⟨-, -, -, -, -, heq⟩ | ⟨d, hread, hd, hwrite, heq⟩
    · simp [heq]
    · simp [heq]
    · simp [heq]
    · cases hsel : d.selected with
      | none => simp [heq, verdict, answer, hsel]
      | some i =>
        have hio : io.abFlow.read = true := by
          by_contra hfalse
          simp [DiskIo.misc, hfalse] at hread
        exact absurd ⟨hd, hsel, hio, hwrite⟩ (h d i)
  exact ⟨_, by rw [efiMainTurn, bubAbFlow_uefiOps]; exact if_pos hflow⟩

/-- The disk on which a handed-out slot is booted. -/
theorem bubAbFlow_of_handsOut (h : HandsOut dev io s.disk d i) :
    bubAbFlow (uefiOps dev.toMyBubOps io.abFlow) s.slotSuffix s.disk =
      (.ok, copySuffix (clearSuffix s.slotSuffix) (bubSuffixes i),
        dev.withMiscBlock s.disk d.planned.image) := by
  have hio : io.abFlow.misc.read = .success := by simp [DiskIo.misc, h.read]
  rw [bubAbFlow_uefiOps]
  -- The read succeeds and finds `d`, and a write that is needed succeeds.
  rcases bubAbFlow_miscOps_cases io.abFlow.misc s.slotSuffix (dev.miscBlock s.disk) with
    ⟨hread, -⟩ | ⟨-, hbad, -⟩ | ⟨e, -, he, hnew, hwrite, -⟩ | ⟨e, -, he, -, heq⟩
  · exact absurd hio hread
  · exact absurd h.block (readBlock_eq_error_iff.mp hbad d)
  · rw [h.block, Except.ok.injEq] at he
    subst he
    rcases h.write with hsame | hok
    · exact absurd hsame hnew
    · rw [DiskIo.misc, hok] at hwrite
      cases hwrite
  · rw [h.block, Except.ok.injEq] at he
    subst he
    rw [heq, verdict, h.selected, answer]

/-- What the turn then makes of `bub_boot_kernel`. -/
theorem efiMainTurn_of_handsOut (hs : s.Named) (h : HandsOut dev io s.disk d i) :
    efiMainTurn dev.toMyBubOps io s =
      let slotSuffix := copySuffix (clearSuffix s.slotSuffix) (bubSuffixes i)
      let disk := dev.withMiscBlock s.disk d.planned.image
      match bubBootKernel dev.toMyBubOps io.boot (bootPartition i) disk with
      | none => .inr ⟨.fault, none, disk⟩
      | some (bootResult, started) =>
        if bootResult = .errorPartitionInvalidFormat then
          let (marked, disk) :=
            bubAbMarkAsInvalid (uefiOps dev.toMyBubOps io.mark) slotSuffix disk
          if marked ≠ 0 then .inr ⟨.aborted "Could not mark slot invalid.", none, disk⟩
          else .inl ⟨slotSuffix, s.bootName.take 4 ++ bubSuffixes i ++ s.bootName.drop 7, disk⟩
        else if bootResult ≠ .ok then .inr ⟨.aborted "Error loading kernel.\n", none, disk⟩
        else .inr ⟨.returned, started, disk⟩ := by
  simp only [efiMainTurn, bubAbFlow_of_handsOut h, take_copySuffix, hs.bootName]
  rfl

/-- A turn that does not reject the image of the slot that it hands out is the last. -/
theorem efiMainTurn_of_not_rejects (hs : s.Named) (h : HandsOut dev io s.disk d i)
    (hr : ¬ Rejects dev io s.disk i) : ∃ e, efiMainTurn dev.toMyBubOps io s = .inr e := by
  have hboot (started : Option StartedKernel) : bubBootKernel dev.toMyBubOps io.boot
      (bootPartition i) (dev.withMiscBlock s.disk d.planned.image) ≠
        some (.errorPartitionInvalidFormat, started) := by
    intro hbad
    rcases bubBootKernel_cases (dev.boot_entry i) (dev.boot_wellPlaced i) io.boot
      (dev.withMiscBlock s.disk d.planned.image) with
      ⟨-, result, -, hne, heq⟩ | ⟨⟨ha, hb, hc⟩, hinvalid, -⟩ | ⟨-, -, heq⟩
    · rw [hbad] at heq
      exact hne (congrArg Prod.fst (Option.some.inj heq)).symm
    · exact hr ⟨ha, hb, hc, fun hvalid => hinvalid
        ((dev.imageValid_withMiscBlock io.boot s.disk d.planned.image i).mpr hvalid)⟩
    · rw [hbad] at heq
      exact startBootImage_ne_invalid io.boot _ _ started heq.symm
  rw [efiMainTurn_of_handsOut hs h]
  -- Every other result of `bub_boot_kernel` leaves the loop.
  cases hk : bubBootKernel dev.toMyBubOps io.boot (bootPartition i)
      (dev.withMiscBlock s.disk d.planned.image) with
  | none =>
    simp only [hk]
    exact ⟨_, rfl⟩
  | some result =>
    obtain ⟨bootResult, started⟩ := result
    have hne : bootResult ≠ .errorPartitionInvalidFormat := by
      rintro rfl
      exact hboot started hk
    simp only [hk, if_neg hne]
    split_ifs <;> exact ⟨_, rfl⟩

/-- A turn that rejects the image of the slot that it hands out: it is the last when marking the
slot fails to read, or succeeds; and when the write of the mark fails, the loop goes on. -/
theorem efiMainTurn_of_rejects (hs : s.Named) (h : HandsOut dev io s.disk d i)
    (hr : Rejects dev io s.disk i) :
    (io.mark.read = false ∧ efiMainTurn dev.toMyBubOps io s =
      .inr ⟨.aborted "Could not mark slot invalid.", none,
        dev.withMiscBlock s.disk d.planned.image⟩) ∨
    (io.mark.read = true ∧ io.mark.write = true ∧ efiMainTurn dev.toMyBubOps io s =
      .inr ⟨.aborted "Could not mark slot invalid.", none,
        dev.withMiscBlock s.disk (d.planned.invalidated i).image⟩) ∨
    (io.mark.read = true ∧ io.mark.write = false ∧ efiMainTurn dev.toMyBubOps io s =
      .inl ⟨copySuffix (clearSuffix s.slotSuffix) (bubSuffixes i),
        s.bootName.take 4 ++ bubSuffixes i ++ s.bootName.drop 7,
        dev.withMiscBlock s.disk d.planned.image⟩) := by
  -- The image is rejected also on the disk that `bub_ab_flow` left.
  have hboot : bubBootKernel dev.toMyBubOps io.boot (bootPartition i)
      (dev.withMiscBlock s.disk d.planned.image) = some (.errorPartitionInvalidFormat, none) := by
    rcases bubBootKernel_cases (dev.boot_entry i) (dev.boot_wellPlaced i) io.boot
      (dev.withMiscBlock s.disk d.planned.image) with
      ⟨hfail, -⟩ | ⟨-, -, heq⟩ | ⟨-, hvalid, -⟩
    · exact absurd ⟨hr.allocHeader, hr.readHeader, hr.findEntry⟩ hfail
    · exact heq
    · exact absurd ((dev.imageValid_withMiscBlock io.boot s.disk d.planned.image i).mp hvalid)
        hr.invalid
  have hplanned := readBlock_planned h.block
  rw [efiMainTurn_of_handsOut hs h]
  simp only [hboot, if_true, bubAbMarkAsInvalid_uefiOps, dev.miscBlock_withMiscBlock,
    dev.withMiscBlock_withMiscBlock]
  -- The mark is made on the block that `bub_ab_flow` wrote, and names the slot handed out.
  rcases bubAbMarkAsInvalid_miscOps_cases io.mark.misc
      (copySuffix (clearSuffix s.slotSuffix) (bubSuffixes i)) d.planned.image with
    ⟨hread, heq⟩ | ⟨-, hbad, -⟩ | ⟨e, hread, -, hwrite, heq⟩ | ⟨e, j, hread, he, hj, hwrite, heq⟩
  · refine .inl ⟨by simpa [DiskIo.misc] using hread, ?_⟩
    simp [heq, BubAbFlowResult.toInt]
  · exact absurd hplanned (readBlock_eq_error_iff.mp hbad _)
  · rw [suffixSlot_copySuffix] at hwrite
    refine .inr (.inr ⟨by simpa [DiskIo.misc] using hread, by simpa [DiskIo.misc] using hwrite, ?_⟩)
    simp [heq]
  · rw [suffixSlot_copySuffix, Option.some.injEq] at hj
    rw [hplanned, Except.ok.injEq] at he
    subst hj he
    refine .inr (.inl ⟨by simpa [DiskIo.misc] using hread, hwrite, ?_⟩)
    simp [heq, image_invalidated_sealed]

/-- When the loop goes on, a slot with a rejected image was handed out, and the write of its mark
failed. -/
theorem efiMainTurn_eq_inl (hs : s.Named) {s' : MainState}
    (h : efiMainTurn dev.toMyBubOps io s = .inl s') :
    ∃ d i, HandsOut dev io s.disk d i ∧ Rejects dev io s.disk i ∧ io.mark.read = true ∧
      io.mark.write = false ∧ s'.Named ∧ s'.disk = dev.withMiscBlock s.disk d.planned.image := by
  by_cases hout : ∃ d i, HandsOut dev io s.disk d i
  · obtain ⟨d, i, hout⟩ := hout
    by_cases hr : Rejects dev io s.disk i
    · rcases efiMainTurn_of_rejects hs hout hr with
        ⟨-, heq⟩ | ⟨-, -, heq⟩ | ⟨hread, hwrite, heq⟩
      · rw [heq] at h
        cases h
      · rw [heq] at h
        cases h
      · rw [heq] at h
        obtain rfl := Sum.inl.inj h
        refine ⟨d, i, hout, hr, hread, hwrite, ?_, rfl⟩
        unfold MainState.Named at hs ⊢
        simp [hs, ascii]
    · obtain ⟨e, he⟩ := efiMainTurn_of_not_rejects hs hout hr
      rw [he] at h
      cases h
  · rw [not_exists] at hout
    obtain ⟨disk, heq⟩ := efiMainTurn_of_not_handsOut fun d i hdi => hout d ⟨i, hdi⟩
    rw [heq] at h
    cases h

/-- Every state that the loop reaches has the name's prefix in place. -/
theorem named_of_efiMain {io : ℕ → TurnIo} {disk : Disk} {k : ℕ} {s : MainState}
    (h : efiMain (some dev.toMyBubOps) io disk k = .inl s) : s.Named := by
  have hturn (k : ℕ) (s₁ s₂ : MainState) (h₁ : s₁.Named)
      (hgo : efiMainTurn dev.toMyBubOps (io k) s₁ = .inl s₂) : s₂.Named := by
    obtain ⟨d, i, -, -, -, -, hs, -⟩ := efiMainTurn_eq_inl h₁ hgo
    exact hs
  have hstart : MainState.Named ⟨[0, 0, 0], ascii ['b', 'o', 'o', 't'] ++ [0, 0, 0], disk⟩ := rfl
  exact DoWhile.invariant_of_run_eq_inl hstart hturn h

end BrilloBoot
