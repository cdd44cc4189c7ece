import BrilloBoot.Lib.Disk

/-!
# Files

A file is a finite array of bytes. A read ends where the file ends; a write past the end makes the
file longer, and fills a gap with zeros. `Disk.image` is the file with the contents of a range of a
disk: inside the range, the file and the disk are read and written alike.
-/

/-- The files that there are, by their paths. -/
abbrev Files (Path : Type*) := Path → Option (List Byte)

namespace File

variable (file : List Byte) (pos n : ℕ) (buf : List Byte)

/-- The bytes that a read of `n` bytes at `pos` transfers. -/
def readAt : List Byte := (file.drop pos).take n

/-- The file after a write at `pos`. A write of nothing does not make it longer. -/
def writeAt : List Byte :=
  if buf = [] then file
  else (file ++ List.replicate (pos - file.length) 0).take pos ++ buf
    ++ file.drop (pos + buf.length)

/-- A read stops at the end of the file. -/
@[simp] theorem length_readAt : (readAt file pos n).length = min n (file.length - pos) := by
  simp [readAt]

variable {file pos n buf}

/-- A write inside the file replaces its bytes. -/
theorem writeAt_of_le (h : pos + buf.length ≤ file.length) :
    writeAt file pos buf = file.take pos ++ buf ++ file.drop (pos + buf.length) := by
  have hgap : pos - file.length = 0 := by omega
  unfold writeAt
  split_ifs with hbuf
  · simp [hbuf]
  · rw [hgap, List.replicate_zero, List.append_nil]

/-- A read at the start of a file, of no more bytes than the file starts with. -/
theorem readAt_zero_append {block rest : List Byte} (h : n ≤ block.length) :
    readAt (block ++ rest) 0 n = block.take n := by
  rw [readAt, List.drop_zero, List.take_append_of_le_length h]

/-- A write at the start of a file, of as many bytes as the file starts with. -/
theorem writeAt_zero_append {block rest : List Byte} (h : buf.length = block.length) :
    writeAt (block ++ rest) 0 buf = buf ++ rest := by
  rw [writeAt_of_le (by simp [h]), List.take_zero, List.nil_append, Nat.zero_add,
    List.drop_left' h.symm]

/-- A write at the start of a file that stops after `most` bytes leaves a torn block there. -/
theorem writeAt_zero_take_append {n : ℕ} (new old : Bytes n) (rest : List Byte) (most : ℕ) :
    writeAt (old.toList ++ rest) 0 (new.toList.take most) =
      (new.torn old most).toList ++ rest := by
  have hlen : (new.toList.take most).length ≤ old.toList.length := by
    rw [List.length_take, new.length_toList, old.length_toList]
    exact Nat.min_le_right most n
  have hdrop : old.toList.drop (new.toList.take most).length = old.toList.drop most := by
    rw [List.length_take, new.length_toList]
    rcases Nat.le_total most n with hle | hle
    · rw [Nat.min_eq_left hle]
    · rw [Nat.min_eq_right hle, List.drop_eq_nil_of_le (by simp),
        List.drop_eq_nil_of_le (by simpa using hle)]
  rw [writeAt_of_le (by rw [List.length_append]; omega), List.take_zero, List.nil_append,
    Nat.zero_add, List.drop_append_of_le_length hlen, hdrop, ← List.append_assoc, Bytes.torn]

end File

namespace Disk

variable (d : Disk) (start size : ℕ)

/-- The file with the contents of the `size` bytes of the disk from `start` on. -/
def image : List Byte := d.read start size

variable {start size}

end Disk
