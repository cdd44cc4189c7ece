import BrilloBoot.Corruption
import BrilloBoot.Device
import BrilloBoot.HostOps

/-!
# The host and the device, run by run

The A/B flow reaches its metadata through a table of operations, and always asks for the same 64
bytes. Tables that serve these bytes alike in related states make every call return the same and
leave related states (`ServesAlike`), and so they do over runs of calls. The files of the build
host serve the metadata as the `misc` partition alone does, and so does a device: what a run shows
on the host is what it shows on the device, and nothing but the metadata block changes on either
(`run_host`, `run_device`, `host_device_runs_agree`).
-/

namespace BrilloBoot

variable {σ τ ι Path : Type}

/-! ## Tables that serve the metadata alike -/

/-- In states related by `Q`, the two tables read the metadata alike, and write it with the same
result. The states are related by `R` then, and are so already when nothing is written. -/
structure ServesAlike (ops : BubOps σ) (ops' : BubOps τ) (Q R : σ → τ → Prop) : Prop where
  read : ∀ s t, Q s t → ops.readFromPartition miscPartition 0 64 s =
    ops'.readFromPartition miscPartition 0 64 t
  write : ∀ s t, Q s t → ∀ block : Bytes 64,
    (ops.writeToPartition miscPartition block.toList 0 s).1 =
        (ops'.writeToPartition miscPartition block.toList 0 t).1 ∧
      R (ops.writeToPartition miscPartition block.toList 0 s).2
        (ops'.writeToPartition miscPartition block.toList 0 t).2
  idle : ∀ s t, Q s t → R s t

namespace ServesAlike

variable {ops : BubOps σ} {ops' : BubOps τ} {Q R : σ → τ → Prop} {s : σ} {t : τ}

/-- The reader over tables that serve the metadata alike. -/
theorem readsAlike (h : ServesAlike ops ops' Q R) (hst : Q s t) :
    bubReadAbDataFromMisc ops s = bubReadAbDataFromMisc ops' t := by
  simp only [bubReadAbDataFromMisc, h.read s t hst]

/-- The writer over tables that serve the metadata alike. -/
theorem writesAlike (h : ServesAlike ops ops' Q R) (hst : Q s t) (d : BubAbData) :
    (bubWriteAbDataToMisc ops d s).1 = (bubWriteAbDataToMisc ops' d t).1 ∧
      R (bubWriteAbDataToMisc ops d s).2 (bubWriteAbDataToMisc ops' d t).2 := by
  obtain ⟨hresult, hstate⟩ := h.write s t hst d.image
  rw [bubWriteAbDataToMisc_of_write rfl, bubWriteAbDataToMisc_of_write rfl, hresult]
  exact ⟨rfl, hstate⟩

/-- `bub_ab_flow` over tables that serve the metadata alike. It writes once at most. -/
theorem flowsAlike (h : ServesAlike ops ops' Q R) (hst : Q s t) (out : List Byte) :
    (bubAbFlow ops out s).1 = (bubAbFlow ops' out t).1 ∧
      (bubAbFlow ops out s).2.1 = (bubAbFlow ops' out t).2.1 ∧
      R (bubAbFlow ops out s).2.2 (bubAbFlow ops' out t).2.2 := by
  have hread := h.readsAlike hst
  cases hdata : bubReadAbDataFromMisc ops' t with
  | ok d =>
    obtain ⟨hwritten, hstate⟩ := h.writesAlike hst d.planned
    rw [bubAbFlow_of_read_ok (hread.trans hdata), bubAbFlow_of_read_ok hdata, hwritten]
    split_ifs
    · exact ⟨rfl, rfl, h.idle s t hst⟩
    · exact ⟨rfl, rfl, hstate⟩
    · exact ⟨rfl, rfl, hstate⟩
  | error r =>
    have hreset := (h.writesAlike hst resetAbData).2
    simp only [bubAbFlow, hread, hdata, resetMetadata]
    split_ifs
    · exact ⟨rfl, rfl, hreset⟩
    · exact ⟨rfl, rfl, h.idle s t hst⟩

/-- `bub_ab_mark_as_invalid` over tables that serve the metadata alike. -/
theorem marksAlike (h : ServesAlike ops ops' Q R) (hst : Q s t) (suffix : List Byte) :
    (bubAbMarkAsInvalid ops suffix s).1 = (bubAbMarkAsInvalid ops' suffix t).1 ∧
      R (bubAbMarkAsInvalid ops suffix s).2 (bubAbMarkAsInvalid ops' suffix t).2 := by
  have hread := h.readsAlike hst
  cases hdata : bubReadAbDataFromMisc ops' t with
  | ok d =>
    rw [bubAbMarkAsInvalid_of_read_ok (hread.trans hdata), bubAbMarkAsInvalid_of_read_ok hdata]
    cases suffixSlot suffix with
    | none => exact ⟨rfl, h.idle s t hst⟩
    | some i => exact h.writesAlike hst (d.invalidated i)
  | error r =>
    rw [bubAbMarkAsInvalid_of_read_error (hread.trans hdata),
      bubAbMarkAsInvalid_of_read_error hdata]
    exact ⟨rfl, h.idle s t hst⟩

end ServesAlike

/-! ## Runs of requests -/

/-- A call of one of the two functions, with its string argument. -/
inductive Request
  | abFlow (outSelectedSuffix : List Byte)
  | markAsInvalid (invalidSuffix : List Byte)

/-- One call over a table of operations. -/
def Request.step (request : Request) (ops : BubOps σ) (s : σ) : Returned × σ :=
  match request with
  | .abFlow out =>
    let (result, out, s) := bubAbFlow ops out s
    (.abFlow result out, s)
  | .markAsInvalid suffix =>
    let (value, s) := bubAbMarkAsInvalid ops suffix s
    (.markAsInvalid value, s)

/-- The calls of a run, each with what becomes of its I/O. -/
def runRequests (ops : ι → BubOps σ) : List (Request × ι) → σ → List Returned × σ :=
  Machine.run fun call s => call.1.step (ops call.2) s

/-- One call over tables that serve the metadata alike. -/
theorem ServesAlike.step {ops : BubOps σ} {ops' : BubOps τ} {Q R : σ → τ → Prop}
    (h : ServesAlike ops ops' Q R) (request : Request) {s : σ} {t : τ} (hst : Q s t) :
    (request.step ops s).1 = (request.step ops' t).1 ∧
      R (request.step ops s).2 (request.step ops' t).2 := by
  cases request with
  | abFlow out =>
    obtain ⟨hresult, hout, hstate⟩ := h.flowsAlike hst out
    exact ⟨by simp only [Request.step, hresult, hout], hstate⟩
  | markAsInvalid suffix =>
    obtain ⟨hvalue, hstate⟩ := h.marksAlike hst suffix
    exact ⟨by simp only [Request.step, hvalue], hstate⟩

/-- When every call on the states `f t` does what it does on `t`, so do runs. -/
theorem runRequests_embed {ops : ι → BubOps σ} {ops' : ι → BubOps τ} {f : τ → σ}
    (h : ∀ (request : Request) io t, request.step (ops io) (f t) =
      ((request.step (ops' io) t).1, f (request.step (ops' io) t).2))
    (calls : List (Request × ι)) (t : τ) :
    runRequests ops calls (f t) =
      ((runRequests ops' calls t).1, f (runRequests ops' calls t).2) := by
  have hstep (call : Request × ι) (s : σ) (t : τ) (hst : s = f t) :
      (call.1.step (ops call.2) s).1 = (call.1.step (ops' call.2) t).1 ∧
        (call.1.step (ops call.2) s).2 = f (call.1.step (ops' call.2) t).2 := by
    rw [hst, h]
    exact ⟨rfl, rfl⟩
  obtain ⟨houts, hend⟩ : (runRequests ops calls (f t)).1 = (runRequests ops' calls t).1 ∧
      (runRequests ops calls (f t)).2 = f (runRequests ops' calls t).2 :=
    Machine.run_simulates (R := fun s t => s = f t) hstep rfl
  exact Prod.ext houts hend

/-! ## The host -/

/-- What becomes of the system's calls of one operation, when no write is cut short inside the
metadata block. -/
structure WholeWrites extends HostIo where
  write_whole : ∀ most, write = some most → 64 ≤ most

/-- What becomes of a call's I/O, as an outcome on the block alone. -/
def HostIo.misc (io : HostIo) : MiscIo where
  read :=
    if io.openFile && io.lseek then
      match io.read with
      | none => .failure
      | some most => if h : most < 64 then .short ⟨most, h⟩ else .success
    else .failure
  write := io.openFile && io.lseek && io.write.isSome

section

variable [DecidableEq Path]

/-- The files with another metadata block in front of `misc.img`, which goes on with `rest`. -/
def MyOps.withMiscBlock (ops : MyOps Path) (files : Files Path) (rest : List Byte)
    (block : Bytes 64) : Files Path :=
  Function.update files (ops.imagePath miscPartition) (some (block.toList ++ rest))

variable (ops : MyOps Path) (files : Files Path) (rest : List Byte)

/-- Opening `misc.img` for a transfer at its start. -/
theorem openAt_withMiscBlock (io : HostIo) (block : Bytes 64) :
    ops.openAt io miscPartition 0 (ops.withMiscBlock files rest block) =
      if io.openFile && io.lseek then some (block.toList ++ rest, 0) else none := by
  have hvalue : (-1 : BitVec 64) ≠ 0 := by decide
  have hsign : (0 : BitVec 64).slt 0 = false := by decide
  have hfile : ops.withMiscBlock files rest block (ops.imagePath miscPartition) =
      some (block.toList ++ rest) := Function.update_self _ _ _
  obtain ⟨getFileSize, openFile, lseek, read, write⟩ := io
  unfold MyOps.openAt
  simp only [hfile, hsign, Bool.false_eq_true, if_false]
  cases openFile with
  | false => rfl
  | true =>
    cases lseek with
    | false => exact if_pos hvalue
    | true => rfl

/-- The host reads the metadata block, or as much of it as `read` transfers. -/
theorem readFromPartition_withMiscBlock (io : HostIo) (block : Bytes 64) :
    ops.readFromPartition io miscPartition 0 64 (ops.withMiscBlock files rest block) =
      (miscOps io.misc).readFromPartition miscPartition 0 64 block := by
  have hopen := openAt_withMiscBlock ops files rest io block
  cases hready : io.openFile && io.lseek with
  | false =>
    have hmisc : io.misc.read = .failure := by simp [HostIo.misc, hready]
    rw [hready] at hopen
    rw [readFromPartition_of_none hopen 64]
    simp [miscOps, hmisc]
  | true =>
    rw [hready, if_pos rfl] at hopen
    cases hread : io.read with
    | none =>
      have hmisc : io.misc.read = .failure := by simp [HostIo.misc, hready, hread]
      simp only [MyOps.readFromPartition, hopen, hread]
      simp [miscOps, hmisc]
    | some most =>
      rw [readFromPartition_of_openAt hopen hread, File.readAt_zero_append (by simp)]
      by_cases hshort : most < 64
      · have hmisc : io.misc.read = .short ⟨most, hshort⟩ := by
          simp [HostIo.misc, hready, hread, hshort]
        simp [miscOps, hmisc, Nat.min_eq_right hshort.le]
      · have hmisc : io.misc.read = .success := by simp [HostIo.misc, hready, hread, hshort]
        simp [miscOps, hmisc, Nat.min_eq_left (Nat.le_of_not_lt hshort), List.take_of_length_le]

/-- The host writes the metadata block whole, unless the write fails. -/
theorem writeToPartition_withMiscBlock (io : WholeWrites) (block new : Bytes 64) :
    ops.writeToPartition io.toHostIo miscPartition new.toList 0
        (ops.withMiscBlock files rest block) =
      if io.misc.write then (.ok, ops.withMiscBlock files rest new)
      else (.errorIo, ops.withMiscBlock files rest block) := by
  have hopen := openAt_withMiscBlock ops files rest io.toHostIo block
  rw [HostIo.misc]
  cases hready : io.openFile && io.lseek with
  | false =>
    rw [hready] at hopen
    exact writeToPartition_of_none hopen new.toList
  | true =>
    rw [hready, if_pos rfl] at hopen
    cases hwrite : io.write with
    | none => exact writeToPartition_of_failed hopen hwrite new.toList
    | some most =>
      have hmost := io.write_whole most hwrite
      rw [writeToPartition_of_openAt hopen hwrite, List.take_of_length_le (by simpa using hmost),
        File.writeAt_zero_append (by simp)]
      simp [MyOps.withMiscBlock]

/-- The files are those of `ops.withMiscBlock` for the block. -/
def MyOps.Carries (ops : MyOps Path) (files : Files Path) (rest : List Byte)
    (files' : Files Path) (block : Bytes 64) : Prop :=
  files' = ops.withMiscBlock files rest block

/-- The host serves the metadata as the `misc` partition alone does, and touches nothing else. -/
theorem servesAlike_host (io : WholeWrites) :
    ServesAlike (ops.bubOps io.toHostIo) (miscOps io.misc) (ops.Carries files rest)
      (ops.Carries files rest) where
  read := by
    rintro _ block rfl
    exact readFromPartition_withMiscBlock ops files rest io.toHostIo block
  write := by
    rintro _ block rfl new
    have hhost := writeToPartition_withMiscBlock ops files rest io block new
    have hmisc : (miscOps io.misc).writeToPartition miscPartition new.toList 0 block =
        if io.misc.write then (.ok, new) else (.errorIo, block) := by
      simp [miscOps]
    simp only [MyOps.bubOps, MyOps.Carries, hhost, hmisc]
    split_ifs <;> exact ⟨rfl, rfl⟩
  idle _ _ h := h

/-- **A run on the host** returns what it returns on the metadata block alone. It leaves the block's
bytes in front of `misc.img`, and the rest of that file and every other file as they were. -/
theorem run_host (io : ι → WholeWrites) (calls : List (Request × ι)) (block : Bytes 64) :
    runRequests (fun i => ops.bubOps (io i).toHostIo) calls (ops.withMiscBlock files rest block) =
      ((runRequests (fun i => miscOps (io i).misc) calls block).1,
        ops.withMiscBlock files rest
          (runRequests (fun i => miscOps (io i).misc) calls block).2) := by
  apply runRequests_embed
  intro request i block
  obtain ⟨hreturned, hstate⟩ := (servesAlike_host ops files rest (io i)).step request
    (t := block) rfl
  exact Prod.ext hreturned hstate

end

/-! ## The device -/

section

variable (dev : BootDevice) (disk : Disk)

/-- A call on a device does what it does on the metadata block alone. -/
theorem step_device (request : Request) (io : DiskIo) (block : Bytes 64) :
    request.step (uefiOps dev.toMyBubOps io) (dev.withMiscBlock disk block) =
      ((request.step (miscOps io.misc) block).1,
        dev.withMiscBlock disk (request.step (miscOps io.misc) block).2) := by
  cases request with
  | abFlow out => simp [Request.step, bubAbFlow_uefiOps]
  | markAsInvalid suffix => simp [Request.step, bubAbMarkAsInvalid_uefiOps]

/-- **A run on a device** returns what it returns on the metadata block alone, and changes nothing
else on the disk. -/
theorem run_device (io : ι → DiskIo) (calls : List (Request × ι)) (block : Bytes 64) :
    runRequests (fun i => uefiOps dev.toMyBubOps (io i)) calls (dev.withMiscBlock disk block) =
      ((runRequests (fun i => miscOps (io i).misc) calls block).1,
        dev.withMiscBlock disk (runRequests (fun i => miscOps (io i).misc) calls block).2) :=
  runRequests_embed (fun request i block => step_device dev disk request (io i) block) calls block

end

/-! ## The two together -/

/-- Calls on the metadata block whose I/O differs only in how a read fails do the same: a read that
is cut short is reported as one that fails. -/
theorem step_miscOps_congr (request : Request) {io io' : MiscIo}
    (hread : io.read = .success ↔ io'.read = .success) (hwrite : io.write = io'.write)
    (block : Bytes 64) :
    request.step (miscOps io) block = request.step (miscOps io') block := by
  have hsame : bubReadAbDataFromMisc (miscOps io) block =
      bubReadAbDataFromMisc (miscOps io') block := by
    simp only [bubReadAbDataFromMisc_miscOps, hread]
  cases request with
  | abFlow out =>
    have hflow : bubAbFlow (miscOps io) out block = bubAbFlow (miscOps io') out block := by
      simp only [bubAbFlow, resetMetadata, hsame, bubWriteAbDataToMisc_miscOps, hwrite]
    simp only [Request.step, hflow]
  | markAsInvalid suffix =>
    have hmark : bubAbMarkAsInvalid (miscOps io) suffix block =
        bubAbMarkAsInvalid (miscOps io') suffix block := by
      simp only [bubAbMarkAsInvalid, hsame, bubWriteAbDataToMisc_miscOps, hwrite]
    simp only [Request.step, hmark]

/-- What becomes of the I/O of one call on the host and on the device. A transfer that fails on the
device fails on the host as well, where a read may also be cut short instead. -/
structure SharedIo where
  host : WholeWrites
  device : DiskIo
  read : host.misc.read = .success ↔ device.read = true
  write : host.misc.write = device.write

/-- The system's calls all succeed or fail as the transfers of the device do, but a read that fails
there may deliver so many bytes here. -/
def DiskIo.shared (io : DiskIo) (short : Option (Fin 64)) : SharedIo where
  host :=
    { getFileSize := true
      openFile := true
      lseek := true
      read := if io.read then some 64 else short.map Fin.val
      write := if io.write then some 64 else none
      write_whole := by
        intro most h
        split_ifs at h
        exact (Option.some.inj h).le }
  device := io
  read := by
    obtain ⟨read, write⟩ := io
    cases read with
    | true => simp [HostIo.misc]
    | false => rcases short with _ | most <;> simp [HostIo.misc]
  write := by
    obtain ⟨read, write⟩ := io
    cases write <;> simp [HostIo.misc]

/-- The same run on the metadata block, with the outcomes of the host or those of the device. -/
theorem run_shared (calls : List (Request × SharedIo)) (block : Bytes 64) :
    runRequests (fun io : SharedIo => miscOps io.host.misc) calls block =
      runRequests (fun io : SharedIo => miscOps io.device.misc) calls block := by
  have hstep (call : Request × SharedIo) (b : Bytes 64) :
      call.1.step (miscOps call.2.host.misc) b = call.1.step (miscOps call.2.device.misc) b := by
    refine step_miscOps_congr call.1 (call.2.read.trans ?_) call.2.write b
    cases hread : call.2.device.read <;> simp [DiskIo.misc, hread]
  unfold runRequests
  congr 1
  funext call b
  exact hstep call b

/-- **What a run shows on the host is what it shows on a device.** From the same metadata block, the
calls return the same, and leave the same block: on the device nothing else is written, and on the
host neither the rest of `misc.img` nor another file. -/
theorem host_device_runs_agree [DecidableEq Path] (ops : MyOps Path) {files : Files Path}
    {rest : List Byte} (dev : BootDevice) {disk : Disk}
    (hfile : files (ops.imagePath miscPartition) = some ((dev.miscBlock disk).toList ++ rest))
    (calls : List (Request × SharedIo)) :
    ∃ (returned : List Returned) (block : Bytes 64),
      runRequests (fun io : SharedIo => ops.bubOps io.host.toHostIo) calls files =
        (returned, Function.update files (ops.imagePath miscPartition)
          (some (block.toList ++ rest))) ∧
      runRequests (fun io : SharedIo => uefiOps dev.toMyBubOps io.device) calls disk =
        (returned, disk.write (dev.misc.start dev.blockSize) block.toList) := by
  have hfiles : files = ops.withMiscBlock files rest (dev.miscBlock disk) := by
    rw [MyOps.withMiscBlock, ← hfile, Function.update_eq_self]
  have hhost := run_host ops files rest SharedIo.host calls (dev.miscBlock disk)
  have hdevice := run_device dev disk SharedIo.device calls (dev.miscBlock disk)
  rw [← hfiles] at hhost
  rw [dev.withMiscBlock_miscBlock] at hdevice
  rw [run_shared] at hhost
  exact ⟨_, _, hhost, hdevice⟩

/-- The metadata of a device of zeros, and one byte behind it. -/
def blankFiles : Files (List Byte) := fun path =>
  if path = (MyOps.inDirectory []).imagePath miscPartition then
    some ((smallDevice.miscBlock blankDisk).toList ++ [1])
  else none

/-- The calls of a run on blank metadata: the second one has a write that fails, and the third one a
read that fails on the device and delivers five bytes on the host. -/
def blankCalls : List (Request × SharedIo) :=
  [(.abFlow [0, 0, 0], DiskIo.shared ⟨true, true⟩ none),
    (.markAsInvalid (bubSuffixes 0), DiskIo.shared ⟨true, false⟩ none),
    (.abFlow [0, 0, 0], DiskIo.shared ⟨false, true⟩ (some 5))]

/-- Three calls on blank metadata. -/
theorem blank_runs_agree :
    ∃ (returned : List Returned) (block : Bytes 64),
      runRequests (fun io : SharedIo => (MyOps.inDirectory []).bubOps io.host.toHostIo) blankCalls
          blankFiles =
        (returned, Function.update blankFiles ((MyOps.inDirectory []).imagePath miscPartition)
          (some (block.toList ++ [1]))) ∧
      runRequests (fun io : SharedIo => uefiOps smallDevice.toMyBubOps io.device) blankCalls
          blankDisk =
        (returned, blankDisk.write (smallDevice.misc.start smallDevice.blockSize) block.toList) :=
  host_device_runs_agree (.inDirectory []) smallDevice (if_pos rfl) _

/-! ## Writes that are cut short -/

/-- Every call succeeds, but a write transfers `most` bytes at most. -/
def HostIo.shortWrite (most : ℕ) : HostIo := ⟨true, true, true, some 64, some most⟩

/-- A call of `Call` with all I/O succeeding. -/
def Request.call : Request → Call
  | .abFlow out => .abFlow out .success
  | .markAsInvalid suffix => .markAsInvalid suffix .success

/-- A request is a call on the metadata block. -/
theorem Request.step_call (request : Request) (block : Bytes 64) :
    request.call.step block = request.step (miscOps .success) block := by
  cases request <;> rfl

section

variable [DecidableEq Path] (ops : MyOps Path) (files : Files Path) (rest : List Byte)

/-- A block that is written over itself is not torn. -/
theorem Bytes.torn_self {n : ℕ} (b : Bytes n) (most : ℕ) : b.torn b most = b :=
  Bytes.ext (List.take_append_drop most b.toList)

/-- The host with writes that are cut short serves the metadata as the `misc` partition does, but
for the block that it leaves. -/
theorem servesAlike_shortWrite (most : ℕ) (block : Bytes 64) :
    ServesAlike (ops.bubOps (.shortWrite most)) (miscOps .success)
      (fun files' old => ops.Carries files rest files' old ∧ old = block)
      (fun files' new => ops.Carries files rest files' (new.torn block most)) where
  read := by
    rintro _ _ ⟨rfl, rfl⟩
    exact readFromPartition_withMiscBlock ops files rest (.shortWrite most) _
  write := by
    rintro _ old ⟨rfl, rfl⟩ new
    have hopen := openAt_withMiscBlock ops files rest (.shortWrite most) old
    have hhost := writeToPartition_of_openAt hopen rfl new.toList
    rw [File.writeAt_zero_take_append] at hhost
    have hmisc : (miscOps .success).writeToPartition miscPartition new.toList 0 old =
        (.ok, new) := by
      simp [miscOps, MiscIo.success]
    simp only [MyOps.bubOps, MyOps.Carries, hhost, hmisc, true_and]
    exact Function.update_idem _ _ _
  idle := by
    rintro _ _ ⟨rfl, rfl⟩
    rw [MyOps.Carries, Bytes.torn_self]

/-- **A write that the host cuts short is reported as one that is not.** The call returns what it
returns with all I/O succeeding, and what is then in front of `misc.img` is the old block, the new
one, or a block that the next call of `bub_ab_flow` rejects. -/
theorem short_write_unnoticed {block : Bytes 64} {d : BubAbData}
    (hblock : bubReadAbDataFromMisc (miscOps .success) block = .ok d)
    (hreserved : ∀ i, (d.slots i).reserved = .zero 7) (request : Request) (most : ℕ) :
    ∃ left : Bytes 64,
      request.step (ops.bubOps (.shortWrite most)) (ops.withMiscBlock files rest block) =
        ((request.step (miscOps .success) block).1, ops.withMiscBlock files rest left) ∧
      (left = block ∨ left = (request.step (miscOps .success) block).2 ∨
        ∀ out, (bubAbFlow (miscOps .success) out left).1 = .errorInvalidMetadata) := by
  rw [bubReadAbDataFromMisc_miscOps, MiscIo.success, if_pos rfl] at hblock
  obtain ⟨hreturned, hleft⟩ := (servesAlike_shortWrite ops files rest most block).step request
    (t := block) ⟨rfl, rfl⟩
  refine ⟨_, Prod.ext hreturned hleft, ?_⟩
  rw [← Request.step_call]
  obtain ⟨d', hnew⟩ := request.call.readable_step block ⟨d, hblock⟩
  refine (torn_of_sameButStates hblock hnew (request.call.sameButStates_step hblock hreserved)
    most).imp_right (Or.imp_right fun hinvalid out => ?_)
  have hread : bubReadAbDataFromMisc (miscOps .success)
      ((request.call.step block).2.torn block most) = .error .errorInvalidMetadata := by
    rw [bubReadAbDataFromMisc_miscOps, MiscIo.success, if_pos rfl, hinvalid]
  rw [bubAbFlow_of_read_invalid hread]

end

/-- The charge of a try to slot A, cut short after the state of slot A. -/
theorem short_write_unnoticed_reset :
    ∃ left : Bytes 64,
      (Request.abFlow [0, 0, 0]).step ((MyOps.inDirectory []).bubOps (.shortWrite 9))
          ((MyOps.inDirectory []).withMiscBlock (fun _ => none) [] resetAbData.image) =
        (((Request.abFlow [0, 0, 0]).step (miscOps .success) resetAbData.image).1,
          (MyOps.inDirectory []).withMiscBlock (fun _ => none) [] left) ∧
      (left = resetAbData.image ∨
        left = ((Request.abFlow [0, 0, 0]).step (miscOps .success) resetAbData.image).2 ∨
        ∀ out, (bubAbFlow (miscOps .success) out left).1 = .errorInvalidMetadata) :=
  short_write_unnoticed _ _ _
    (bubReadAbDataFromMisc_image (show resetAbData.magic = bubBootCtrlMagic from rfl))
    (fun _ => rfl) _ 9

end BrilloBoot
