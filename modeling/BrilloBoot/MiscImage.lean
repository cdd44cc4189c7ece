import BrilloBoot.Harness
import BrilloBoot.MakeMiscImage
import BrilloBoot.Schedule

/-!
# From a command line to a row of boots

`write_ab_metadata` of `bub_image_util.cc`, and `make_misc_image` and `main` of the tool. For every
command line that is accepted, the tool writes the image of one record, which has the six values of
the command line and depends on nothing else: what was on the stack does not get into the image. A
device whose `misc` partition the image was copied to boots by the schedule of that record
(`command_line_boots`).
-/

namespace BrilloBoot

open BubAbData
open Tokenizer (tokens)

variable {Path : Type}

/-- The slot with three values, which its bit fields cut to their widths. -/
def slotOf (priority triesRemaining successfulBoot : BitVec 8) : BubSlotData where
  priority := priority.setWidth 4
  triesRemaining := triesRemaining.setWidth 3
  successfulBoot := successfulBoot.setWidth 1
  reserved := .zero 7

/-- `MyOps::write_ab_metadata`. -/
def writeAbMetadata (magic : Bytes 4) (aPriority aTriesRemaining aSuccessfulBoot bPriority
    bTriesRemaining bSuccessfulBoot : BitVec 8) : BubAbData where
  magic := magic
  majorVersion := 1
  minorVersion := 0
  reserved1 := .zero 2
  slots := ![slotOf aPriority aTriesRemaining aSuccessfulBoot,
    slotOf bPriority bTriesRemaining bSuccessfulBoot]
  reserved2 := .zero 36
  crc32 := 0

/-- `base::WriteFile`, which makes a file of its own or replaces one: `written` is how many bytes
reach it at most, `none` when there is no file to write to. -/
def writeFile [DecidableEq Path] (path : Path) (contents : List Byte) (written : Option ℕ)
    (files : Files Path) : Files Path :=
  match written with
  | none => files
  | some most => Function.update files path (some (contents.take most))

/-- `make_misc_image`. It returns 1 whatever becomes of the file. -/
def makeMiscImage [DecidableEq Path] (ops : MyOps Path) (written : Option ℕ)
    (metadata : Fin 2 → BubSlotData) (fname : List Byte) (files : Files Path) : ℤ × Files Path :=
  let miscData := writeAbMetadata bubBootCtrlMagic
    ((metadata 0).priority.setWidth 8) ((metadata 0).triesRemaining.setWidth 8)
    ((metadata 0).successfulBoot.setWidth 8) ((metadata 1).priority.setWidth 8)
    ((metadata 1).triesRemaining.setWidth 8) ((metadata 1).successfulBoot.setWidth 8)
  (1, writeFile (ops.append fname) (makeMetadataImage miscData) written files)

/-- `main` of the tool, for the values of its two switches. The two slots are on the stack, and
`metadata` is what was there. -/
def makeMiscImageMain [DecidableEq Path] (base : BaseLibrary) (ops : MyOps Path)
    (written : Option ℕ) (abMetadata output : List Byte) (metadata : Fin 2 → BubSlotData)
    (files : Files Path) : ℤ × Files Path :=
  match parseCommandLineArgs base abMetadata output metadata with
  | (.error _, _) => (0, files)
  | (.ok fname, metadata) =>
    let (made, files) := makeMiscImage ops written metadata fname files
    if made = 0 then (0, files) else (1, files)

/-! ## The record that an image is made of -/

/-- The record with six values: those of slot A, and those of slot B. -/
def recordOf (values : List ℤ) : BubAbData :=
  writeAbMetadata bubBootCtrlMagic (.ofInt 8 (values.getD 0 0)) (.ofInt 8 (values.getD 1 0))
    (.ofInt 8 (values.getD 2 0)) (.ofInt 8 (values.getD 3 0)) (.ofInt 8 (values.getD 4 0))
    (.ofInt 8 (values.getD 5 0))

/-- The record that `make_misc_image` writes has the values of the two slots, and nothing else of
them. -/
theorem makeMiscImage_eq [DecidableEq Path] (ops : MyOps Path) (written : Option ℕ)
    (metadata : Fin 2 → BubSlotData) (fname : List Byte) (files : Files Path) :
    makeMiscImage ops written metadata fname files =
      (1, writeFile (ops.append fname)
        (recordOf (slotValues (metadata 0) ++ slotValues (metadata 1))).image.toList
        written files) := by
  have hfield {w : ℕ} (x : BitVec w) : BitVec.ofInt 8 x.toNat = x.setWidth 8 := by
    rw [BitVec.ofInt_natCast, BitVec.ofNat_toNat]
  have hrecord : recordOf (slotValues (metadata 0) ++ slotValues (metadata 1)) =
      writeAbMetadata bubBootCtrlMagic
        ((metadata 0).priority.setWidth 8) ((metadata 0).triesRemaining.setWidth 8)
        ((metadata 0).successfulBoot.setWidth 8) ((metadata 1).priority.setWidth 8)
        ((metadata 1).triesRemaining.setWidth 8) ((metadata 1).successfulBoot.setWidth 8) := by
    simp [recordOf, slotValues, hfield]
  rw [makeMiscImage, hrecord, makeMetadataImage_eq]

/-- The slots of a record have the values that it was made of, if slots can have them. -/
theorem slotValues_recordOf (slots : Fin 2 → BubSlotData) :
    slotValues ((recordOf (slotValues (slots 0) ++ slotValues (slots 1))).slots 0) ++
        slotValues ((recordOf (slotValues (slots 0) ++ slotValues (slots 1))).slots 1) =
      slotValues (slots 0) ++ slotValues (slots 1) := by
  simp [recordOf, writeAbMetadata, slotOf, slotValues]

/-! ## The tool -/

section

variable [DecidableEq Path] {base : BaseLibrary} {abMetadata output : List Byte}

/-- The command lines that the tool accepts name an output and start with six valid tokens. -/
def Accepted (base : BaseLibrary) (abMetadata output : List Byte) : Prop :=
  output ≠ [] ∧ LeadingTokensValid base (base.getSwitchValueASCII abMetadata)

/-- What the parser does with a command line depends on the stack in the rest of the slots only. -/
theorem parse_of_accepted {strings rest : List (List Byte)} {values : List ℤ}
    (houtput : output ≠ [])
    (htokens : tokens comma (base.getSwitchValueASCII abMetadata) = strings ++ rest)
    (hvalues : ConvertTo base (slotBounds ++ slotBounds) strings values)
    (metadata : Fin 2 → BubSlotData) :
    ∃ metadata', parseCommandLineArgs base abMetadata output metadata = (.ok output, metadata') ∧
      slotValues (metadata' 0) ++ slotValues (metadata' 1) = values := by
  obtain ⟨st, metadata', hslots, hslotValues⟩ :=
    setSlotsFromTokens_of_tokens metadata htokens hvalues
  refine ⟨metadata', ?_, hslotValues⟩
  unfold parseCommandLineArgs
  rw [hslots]
  exact if_neg houtput

/-- A command line that is not accepted names no file. -/
theorem not_ok_of_not_accepted (h : ¬ Accepted base abMetadata output)
    (metadata : Fin 2 → BubSlotData) (fname : List Byte) :
    (parseCommandLineArgs base abMetadata output metadata).1 ≠ .ok fname := by
  intro hparse
  by_cases houtput : output = []
  · unfold parseCommandLineArgs at hparse
    rw [houtput] at hparse
    split at hparse <;> cases hparse
  · exact h ⟨houtput, (parseCommandLineArgs_accepts_iff houtput).mp ⟨fname, hparse⟩⟩

/-- A command line that is not accepted: nothing is written. -/
theorem makeMiscImageMain_of_not_accepted (h : ¬ Accepted base abMetadata output)
    (ops : MyOps Path) (written : Option ℕ) (metadata : Fin 2 → BubSlotData)
    (files : Files Path) :
    makeMiscImageMain base ops written abMetadata output metadata files = (0, files) := by
  unfold makeMiscImageMain
  split
  · rfl
  · rename_i fname metadata' hparse
    exact absurd (congrArg Prod.fst hparse) (not_ok_of_not_accepted h metadata fname)

/-- A command line that is accepted: the image of the record with its values is written. -/
theorem makeMiscImageMain_of_accepted {strings rest : List (List Byte)} {values : List ℤ}
    (houtput : output ≠ [])
    (htokens : tokens comma (base.getSwitchValueASCII abMetadata) = strings ++ rest)
    (hvalues : ConvertTo base (slotBounds ++ slotBounds) strings values) (ops : MyOps Path)
    (written : Option ℕ) (metadata : Fin 2 → BubSlotData) (files : Files Path) :
    makeMiscImageMain base ops written abMetadata output metadata files =
      (1, writeFile (ops.append output) (recordOf values).image.toList written files) := by
  obtain ⟨metadata', hparse, hvalues'⟩ := parse_of_accepted houtput htokens hvalues metadata
  simp only [makeMiscImageMain, hparse, makeMiscImage_eq, hvalues']
  rfl

/-! ## The boots -/

/-- A row of calls of `bub_ab_flow` with all I/O succeeding, as a run of requests. -/
def bootRow (outs : List (List Byte)) : List (Request × DiskIo) :=
  outs.map fun out => (.abFlow out, ⟨true, true⟩)

/-- A call with all I/O succeeding is a `bootStep`. -/
theorem step_abFlow_success (out : List Byte) (b : Bytes 64) :
    (Request.abFlow out).step (miscOps .success) b =
      (.abFlow (bootStep out b).1.1 (bootStep out b).1.2, (bootStep out b).2) := rfl

/-- On the metadata block alone, the row is one of `bootStep`. -/
theorem runRequests_bootRow (outs : List (List Byte)) (b : Bytes 64) :
    (runRequests (fun io : DiskIo => miscOps io.misc) (bootRow outs) b).1 =
      (Machine.run bootStep outs b).1.map fun r => .abFlow r.1 r.2 := by
  induction outs generalizing b with
  | nil => rfl
  | cons out outs ih =>
    have hio : DiskIo.misc ⟨true, true⟩ = .success := rfl
    rw [Machine.run_cons_fst, List.map_cons, ← ih]
    simp only [bootRow, List.map_cons, runRequests, Machine.run_cons_fst, hio,
      step_abFlow_success]

omit [DecidableEq Path] in
/-- A row of calls on a device whose `misc` partition starts with an image follows the schedule of
the record. -/
theorem run_bootRow_image (dev : BootDevice) (disk : Disk) {d : BubAbData}
    (hmagic : d.magic = bubBootCtrlMagic) (outs : List (List Byte)) :
    (runRequests (fun io => uefiOps dev.toMyBubOps io) (bootRow outs)
        (disk.write (dev.misc.start dev.blockSize) d.image.toList)).1 =
      outs.mapIdx fun k out =>
        .abFlow (answer out (d.bootSchedule k)).1 (answer out (d.bootSchedule k)).2 := by
  have hdevice := run_device dev disk (fun io : DiskIo => io) (bootRow outs) d.image
  have hrow := run_bootStep (readBlock_image hmagic) outs
  calc (runRequests (fun io => uefiOps dev.toMyBubOps io) (bootRow outs)
        (dev.withMiscBlock disk d.image)).1
      = (runRequests (fun io : DiskIo => miscOps io.misc) (bootRow outs) d.image).1 :=
        congrArg Prod.fst hdevice
    _ = (Machine.run bootStep outs d.image).1.map fun r => .abFlow r.1 r.2 :=
        runRequests_bootRow outs d.image
    _ = _ := by
      rw [hrow]
      apply List.ext_getElem <;> simp

end

/-- **From the command line to the boots.** A command line that is not accepted makes the tool
return 0 and writes nothing. One that is accepted has six valid values first; the tool returns 1 and
writes the image of the record with these values, whatever was on the stack; and a device whose
`misc` partition the image was copied to hands out the slots of the schedule of that record. -/
theorem command_line_boots (base : BaseLibrary) (abMetadata output : List Byte) :
    (¬ Accepted base abMetadata output ∧
      ∀ (ops : MyOps (List Byte)) written metadata files,
        makeMiscImageMain base ops written abMetadata output metadata files = (0, files)) ∨
    (Accepted base abMetadata output ∧ ∃ (strings rest : List (List Byte)) (values : List ℤ),
      tokens comma (base.getSwitchValueASCII abMetadata) = strings ++ rest ∧
      ConvertTo base (slotBounds ++ slotBounds) strings values ∧
      slotValues ((recordOf values).slots 0) ++ slotValues ((recordOf values).slots 1) = values ∧
      (∀ (ops : MyOps (List Byte)) most metadata files, 64 ≤ most →
        makeMiscImageMain base ops (some most) abMetadata output metadata files =
          (1, Function.update files (ops.append output) (some (recordOf values).image.toList))) ∧
      ∀ (dev : BootDevice) (disk : Disk) (outs : List (List Byte)),
        (runRequests (fun io => uefiOps dev.toMyBubOps io) (bootRow outs)
            (disk.write (dev.misc.start dev.blockSize) (recordOf values).image.toList)).1 =
          outs.mapIdx fun k out =>
            .abFlow (answer out ((recordOf values).bootSchedule k)).1
              (answer out ((recordOf values).bootSchedule k)).2) := by
  -- Either the command line is accepted, or no file is written.
  by_cases h : Accepted base abMetadata output
  · obtain ⟨houtput, strings, rest, values, htokens, hvalues⟩ := h
    refine .inr ⟨⟨houtput, strings, rest, values, htokens, hvalues⟩, strings, rest, values,
      htokens, hvalues, ?_, ?_, fun dev disk outs => run_bootRow_image dev disk rfl outs⟩
    · -- Slots have these values: those that the parser leaves them in.
      obtain ⟨slots, -, hslots⟩ := parse_of_accepted houtput htokens hvalues fun _ => .zero
      rw [← hslots]
      exact slotValues_recordOf slots
    · intro ops most metadata files hmost
      rw [makeMiscImageMain_of_accepted houtput htokens hvalues, writeFile,
        List.take_of_length_le (by simpa using hmost)]
  · exact .inl ⟨h, fun ops written metadata files =>
      makeMiscImageMain_of_not_accepted h ops written metadata files⟩

end BrilloBoot
