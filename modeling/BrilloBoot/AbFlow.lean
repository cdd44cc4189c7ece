import BrilloBoot.AbData
import BrilloBoot.Crc32
import BrilloBoot.Ops

/-!
# The A/B flow

The functions of `bub_ab_flow.c`, over any `BubOps`, and the test tool's encoder of
`bub_image_util.cc`. A C `int` is an `ℤ`, an out-parameter is a result, and the state `σ` of the
device is passed through the writes; reads leave it as it is. The console messages are left out, and
so are the assertions on the arguments, which the boot loader's build compiles away.
-/

namespace BrilloBoot

variable {σ : Type}

/-- `BubAbFlowResult`. -/
inductive BubAbFlowResult
  | ok
  | errorInput
  | errorInvalidMetadata
  | errorNoValidSlots
  | errorReadMetadata
  | errorWriteMetadata
deriving DecidableEq

/-- The value of the enumerator when the C code returns it as an `int`. -/
def BubAbFlowResult.toInt : BubAbFlowResult → ℤ
  | ok => 0
  | errorInput => 1
  | errorInvalidMetadata => 2
  | errorNoValidSlots => 3
  | errorReadMetadata => 4
  | errorWriteMetadata => 5

/-- `BUB_BOOT_CTRL_MAGIC`. -/
def bubBootCtrlMagic : Bytes 4 := ⟨ascii ['B', 'U', 'E', 'F'], rfl⟩

/-- `bub_suffixes`, each with its terminator. -/
def bubSuffixes : Fin 2 → List Byte := ![ascii ['_', 'a'] ++ [0], ascii ['_', 'b'] ++ [0]]

/-- `bub_memcmp`: the order of the first bytes that differ among the first `n`. -/
def bubMemcmp : List Byte → List Byte → ℕ → ℤ
  | a :: as, b :: bs, n + 1 => if a = b then bubMemcmp as bs n else if a < b then -1 else 1
  | _, _, _ => 0

/-- `bub_memset(out, 0, 3)`. -/
def clearSuffix (out : List Byte) : List Byte := [0, 0, 0] ++ out.drop 3

/-- `bub_memcpy(out, suffix, 3)`. -/
def copySuffix (out suffix : List Byte) : List Byte := suffix.take 3 ++ out.drop 3

/-- `normalize_slot`: whether the slot was changed, and the slot. -/
def normalizeSlot (slot : BubSlotData) : Bool × BubSlotData :=
  if 0 < slot.priority then
    -- Out of tries without a success.
    if slot.triesRemaining = 0 ∧ slot.successfulBoot = 0 then (true, .zero)
    -- A success does not outlive new tries.
    else if 0 < slot.triesRemaining ∧ slot.successfulBoot ≠ 0 then
      (true, { slot with successfulBoot := 0 })
    else (false, slot)
  else if slot.triesRemaining ≠ 0 ∨ slot.successfulBoot ≠ 0 then (true, .zero)
  else (false, slot)

/-- `slot_is_bootable`. -/
def slotIsBootable (slot : BubSlotData) : Bool :=
  slot.successfulBoot ≠ 0 || decide (0 < slot.triesRemaining)

/-- The checks of `bub_read_ab_data_from_misc` on a block that was read whole: the magic, and the
checksum of the record with its checksum field cleared. -/
def checkAbData (data : BubAbData) : Except BubAbFlowResult BubAbData :=
  if bubMemcmp data.magic.toList bubBootCtrlMagic.toList 4 ≠ 0 then .error .errorInvalidMetadata
  else
    -- The field is cleared in the caller's record, and set to the host's order at the end.
    let crc := bubBe32toh data.crc32
    let data := { data with crc32 := 0 }
    if crc ≠ bubCrc32 0 data.toBytes.toList then .error .errorInvalidMetadata
    else .ok { data with crc32 := crc }

/-- `bub_read_ab_data_from_misc`: `.ok data` for `BUB_AB_FLOW_RESULT_OK` with `*data`, and
`.error` with the code otherwise. -/
def bubReadAbDataFromMisc (ops : BubOps σ) (s : σ) : Except BubAbFlowResult BubAbData :=
  let (ioResult, buf) := ops.readFromPartition miscPartition 0 64 s
  if h : ioResult = .ok ∧ buf.length = 64 then checkAbData (.ofBytes ⟨buf, h.2⟩)
  else .error .errorReadMetadata

/-- `bub_write_ab_data_to_misc`: 1 on success, 0 on an I/O error. -/
def bubWriteAbDataToMisc (ops : BubOps σ) (data : BubAbData) (s : σ) : ℤ × σ :=
  let metadata := { data with crc32 := 0 }
  let metadata := { metadata with crc32 := bubBe32toh (bubCrc32 0 metadata.toBytes.toList) }
  let (ioResult, s) := ops.writeToPartition miscPartition metadata.toBytes.toList 0 s
  if ioResult ≠ .ok then (0, s) else (1, s)

/-- The metadata that `reset_metadata` builds. -/
def resetAbData : BubAbData where
  magic := bubBootCtrlMagic
  majorVersion := 1
  minorVersion := 0
  reserved1 := .zero 2
  slots _ := { priority := 15, triesRemaining := 7, successfulBoot := 0, reserved := .zero 7 }
  reserved2 := .zero 36
  crc32 := 0

/-- `reset_metadata`. -/
def resetMetadata (ops : BubOps σ) (s : σ) : ℤ × σ := bubWriteAbDataToMisc ops resetAbData s

/-- The choice of `target_slot_index_to_boot` in `bub_ab_flow`, `none` for its initial `-1`. -/
def targetSlotIndexToBoot (abCtl : BubAbData) : Option (Fin 2) :=
  if slotIsBootable (abCtl.slots 0) && slotIsBootable (abCtl.slots 1) then
    if (abCtl.slots 1).priority > (abCtl.slots 0).priority then some 1 else some 0
  else if slotIsBootable (abCtl.slots 0) then some 0
  else if slotIsBootable (abCtl.slots 1) then some 1
  else none

/-- The normalization of both slots in `bub_ab_flow`: whether either changed (`new_metadata`), and
the record. -/
def normalizeSlots (abCtl : BubAbData) : Bool × BubAbData :=
  let slotA := normalizeSlot (abCtl.slots 0)
  let slotB := normalizeSlot (abCtl.slots 1)
  (slotA.1 || slotB.1, { abCtl with slots := ![slotA.2, slotB.2] })

/-- The charge in `bub_ab_flow` of one try to the slot that it boots: whether the slot had a try
left, and the record. -/
def chargeTry (abCtl : BubAbData) (i : Fin 2) : Bool × BubAbData :=
  let slot := abCtl.slots i
  if 0 < slot.triesRemaining then
    (true, { abCtl with
      slots := Function.update abCtl.slots i
        { slot with triesRemaining := slot.triesRemaining - 1 } })
  else (false, abCtl)

/-- `bub_ab_flow`: its result, the caller's suffix buffer, and the device. -/
def bubAbFlow (ops : BubOps σ) (outSelectedSuffix : List Byte) (s : σ) :
    BubAbFlowResult × List Byte × σ :=
  -- No selection has been made yet.
  let out := clearSuffix outSelectedSuffix
  match bubReadAbDataFromMisc ops s with
  | .error abErr =>
    -- A reset that cannot be written is only warned of.
    if abErr = .errorInvalidMetadata then (abErr, out, (resetMetadata ops s).2)
    else (abErr, out, s)
  | .ok abCtl =>
    -- Ensure only proper slot states exist.
    let (newMetadata, abCtl) := normalizeSlots abCtl
    match targetSlotIndexToBoot abCtl with
    | none =>
      -- The normalized record is written also when there is no slot to boot.
      if newMetadata then
        let (written, s) := bubWriteAbDataToMisc ops abCtl s
        if written = 0 then (.errorWriteMetadata, out, s) else (.errorNoValidSlots, out, s)
      else (.errorNoValidSlots, out, s)
    | some i =>
      -- A slot that is still being tried is charged before it is handed out.
      let (charged, abCtl) := chargeTry abCtl i
      if newMetadata || charged then
        let (written, s) := bubWriteAbDataToMisc ops abCtl s
        if written = 0 then (.errorWriteMetadata, out, s)
        else (.ok, copySuffix out (bubSuffixes i), s)
      else (.ok, copySuffix out (bubSuffixes i), s)

/-- `bub_ab_mark_as_invalid`: the `int` that it returns, and the device. `invalidSuffix` is the
string with its terminator. -/
def bubAbMarkAsInvalid (ops : BubOps σ) (invalidSuffix : List Byte) (s : σ) : ℤ × σ :=
  match bubReadAbDataFromMisc ops s with
  | .error abErr => (abErr.toInt, s)
  | .ok abCtl =>
    match [0, 1].find? fun i => bubMemcmp (bubSuffixes i) invalidSuffix 3 = 0 with
    | some i =>
      -- The value of the write is returned as it is: 1 for success.
      bubWriteAbDataToMisc ops { abCtl with slots := Function.update abCtl.slots i .zero } s
    | none => (0, s)

/-- `MyOps::make_metadata_image`: the contents of the image file. -/
def makeMetadataImage (abMetadata : BubAbData) : List Byte :=
  let abMetadataBe := { abMetadata with crc32 := 0 }
  let abMetadataBe :=
    { abMetadataBe with crc32 := bubBe32toh (bubCrc32 0 abMetadataBe.toBytes.toList) }
  let imageData := abMetadataBe.toBytes
  List.ofFn fun n : Fin 64 => imageData[n.val]

end BrilloBoot
