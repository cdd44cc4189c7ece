import BrilloBoot.Lib.Bytes

/-!
# Partition I/O

`BubOps` of `bub_ops.h`: the table of platform functions through which the A/B flow reaches its
partition. The A/B flow is written against the table, so that one model of it runs over a disk with
its partitions (`PartitionIo.lean`) and over the `misc` partition alone, `miscOps`, which fails,
reads short, or works as its schedule says.
-/

namespace BrilloBoot

/-- `BubIOResult`: the return codes of the I/O operations. -/
inductive BubIOResult
  | ok
  | errorNoSuchPartition
  | errorRangeOutsidePartition
  | errorIo
deriving DecidableEq

/-- `BubOps`: the platform's operations on the partitions of a device in state `σ`. A partition's
name is the C string without its terminator. -/
structure BubOps (σ : Type) where
  /-- `read_from_partition`: the bytes that it returns are the `*out_num_read` bytes it put in the
  buffer. -/
  readFromPartition (partition : List Byte) (offset numBytes : BitVec 64) (s : σ) :
    BubIOResult × List Byte
  /-- `write_to_partition` of a whole buffer. -/
  writeToPartition (partition : List Byte) (buf : List Byte) (offset : BitVec 64) (s : σ) :
    BubIOResult × σ

/-- The bytes of an ASCII string. -/
def ascii (s : List Char) : List Byte := s.map fun c => BitVec.ofNat 8 c.toNat

/-- The partition that holds the A/B metadata, `"misc"`. -/
def miscPartition : List Byte := ascii ['m', 'i', 's', 'c']

/-! ## The `misc` partition as a device of its own -/

/-- What becomes of one read of the metadata block. -/
inductive ReadOutcome
  | failure
  | short (numRead : Fin 64)
  | success
deriving DecidableEq

/-- What becomes of the one read and of the write, if there is one, of a call of the A/B flow. -/
structure MiscIo where
  read : ReadOutcome
  /-- Whether the write succeeds; one that fails leaves the block unchanged. -/
  write : Bool
deriving DecidableEq

/-- All I/O of the call succeeds. -/
def MiscIo.success : MiscIo := ⟨.success, true⟩

/-- A device that has the metadata block only. -/
def miscOps (io : MiscIo) : BubOps (Bytes 64) where
  readFromPartition partition offset numBytes block :=
    if partition = miscPartition ∧ offset = 0 ∧ numBytes = 64 then
      match io.read with
      | .failure => (.errorIo, [])
      | .short numRead => (.ok, block.toList.take numRead)
      | .success => (.ok, block.toList)
    else (.errorNoSuchPartition, [])
  writeToPartition partition buf offset block :=
    if h : (partition = miscPartition ∧ offset = 0) ∧ buf.length = 64 then
      if io.write then (.ok, ⟨buf, h.2⟩) else (.errorIo, block)
    else (.errorNoSuchPartition, block)

end BrilloBoot
