import BrilloBoot.AbFlow
import BrilloBoot.PartitionIo

/-!
# The partition table

`GPTHeader` and `GPTEntry` of `bub_boot_kernel.h` with their layout on disk, and `validate_gpt` of
`bub_boot_kernel.c`. The header's checksum is the firmware library's `CalculateCrc`, which is not
part of the boot loader's sources, so that the validation takes it as a parameter.
-/

namespace BrilloBoot

/-- The status codes of the functions on the partition table. -/
inductive EfiStatus
  | success
  | notFound
deriving DecidableEq

/-- `GPTHeader`. -/
@[ext]
structure GPTHeader where
  signature : Bytes 8
  revision : BitVec 32
  headerSize : BitVec 32
  headerCrc32 : BitVec 32
  reserved : BitVec 32
  headerLba : BitVec 64
  alternateHeaderLba : BitVec 64
  firstUsableLba : BitVec 64
  lastUsableLba : BitVec 64
  diskGuid : Bytes 16
  entryLba : BitVec 64
  entryCount : BitVec 32
  entrySize : BitVec 32
  entryCrc32 : BitVec 32
  reserved2 : Bytes 420

namespace GPTHeader

/-- The 512 bytes of the header in memory. -/
def toBytes (h : GPTHeader) : Bytes 512 :=
  ⟨h.signature.toList ++ leBytes 4 h.revision ++ leBytes 4 h.headerSize ++ leBytes 4 h.headerCrc32
    ++ leBytes 4 h.reserved ++ leBytes 8 h.headerLba ++ leBytes 8 h.alternateHeaderLba
    ++ leBytes 8 h.firstUsableLba ++ leBytes 8 h.lastUsableLba ++ h.diskGuid.toList
    ++ leBytes 8 h.entryLba ++ leBytes 4 h.entryCount ++ leBytes 4 h.entrySize
    ++ leBytes 4 h.entryCrc32 ++ h.reserved2.toList, by simp⟩

/-- The header that 512 bytes of memory hold. -/
def ofBytes (b : Bytes 512) : GPTHeader where
  signature := b.sub 0 8
  revision := leWord 32 (b.sub 8 4).toList
  headerSize := leWord 32 (b.sub 12 4).toList
  headerCrc32 := leWord 32 (b.sub 16 4).toList
  reserved := leWord 32 (b.sub 20 4).toList
  headerLba := leWord 64 (b.sub 24 8).toList
  alternateHeaderLba := leWord 64 (b.sub 32 8).toList
  firstUsableLba := leWord 64 (b.sub 40 8).toList
  lastUsableLba := leWord 64 (b.sub 48 8).toList
  diskGuid := b.sub 56 16
  entryLba := leWord 64 (b.sub 72 8).toList
  entryCount := leWord 32 (b.sub 80 4).toList
  entrySize := leWord 32 (b.sub 84 4).toList
  entryCrc32 := leWord 32 (b.sub 88 4).toList
  reserved2 := b.sub 92 420

/-- The fields lie one after the other, without a gap. -/
theorem toBytes_ofBytes (b : Bytes 512) : (ofBytes b).toBytes = b := by
  have h4 (off : ℕ) (h : off + 4 ≤ 512) :
      leBytes 4 (leWord 32 (b.sub off 4 h).toList) = (b.toList.drop off).take 4 :=
    leBytes_leWord (by simp)
  have h8 (off : ℕ) (h : off + 8 ≤ 512) :
      leBytes 8 (leWord 64 (b.sub off 8 h).toList) = (b.toList.drop off).take 8 :=
    leBytes_leWord (by simp)
  apply Bytes.ext
  simp only [toBytes, ofBytes, h4, h8]
  simp only [Bytes.sub]
  -- Each piece starts where the pieces before it end.
  iterate 14 rw [List.take_drop_append_take_drop b.toList 0]
  rw [List.drop_zero, List.take_of_length_le (by simp)]

/-- Different headers have different images. -/
theorem toBytes_injective : Function.Injective toBytes := by
  intro h h' heq
  have hpieces := congrArg Bytes.toList heq
  simp only [toBytes] at hpieces
  -- The fields have fixed lengths, so the pieces agree one by one, from the last.
  obtain ⟨hpieces, h₁₅⟩ := List.append_inj hpieces (by simp)
  obtain ⟨hpieces, h₁₄⟩ := List.append_inj hpieces (by simp)
  obtain ⟨hpieces, h₁₃⟩ := List.append_inj hpieces (by simp)
  obtain ⟨hpieces, h₁₂⟩ := List.append_inj hpieces (by simp)
  obtain ⟨hpieces, h₁₁⟩ := List.append_inj hpieces (by simp)
  obtain ⟨hpieces, h₁₀⟩ := List.append_inj hpieces (by simp)
  obtain ⟨hpieces, h₉⟩ := List.append_inj hpieces (by simp)
  obtain ⟨hpieces, h₈⟩ := List.append_inj hpieces (by simp)
  obtain ⟨hpieces, h₇⟩ := List.append_inj hpieces (by simp)
  obtain ⟨hpieces, h₆⟩ := List.append_inj hpieces (by simp)
  obtain ⟨hpieces, h₅⟩ := List.append_inj hpieces (by simp)
  obtain ⟨hpieces, h₄⟩ := List.append_inj hpieces (by simp)
  obtain ⟨hpieces, h₃⟩ := List.append_inj hpieces (by simp)
  obtain ⟨h₁, h₂⟩ := List.append_inj hpieces (by simp)
  exact GPTHeader.ext (Bytes.ext h₁) (leBytes_injective rfl h₂) (leBytes_injective rfl h₃)
    (leBytes_injective rfl h₄) (leBytes_injective rfl h₅) (leBytes_injective rfl h₆)
    (leBytes_injective rfl h₇) (leBytes_injective rfl h₈) (leBytes_injective rfl h₉)
    (Bytes.ext h₁₀) (leBytes_injective rfl h₁₁) (leBytes_injective rfl h₁₂)
    (leBytes_injective rfl h₁₃) (leBytes_injective rfl h₁₄) (Bytes.ext h₁₅)

/-- A header is what its image holds. -/
theorem ofBytes_toBytes (h : GPTHeader) : ofBytes h.toBytes = h :=
  toBytes_injective (toBytes_ofBytes _)

end GPTHeader

/-- The entry that 128 bytes of memory hold. -/
def GPTEntry.ofBytes (b : Bytes 128) : GPTEntry where
  typeGUID := b.sub 0 16
  uniqueGUID := b.sub 16 16
  firstLba := leWord 64 (b.sub 32 8).toList
  lastLba := leWord 64 (b.sub 40 8).toList
  flags := leWord 64 (b.sub 48 8).toList
  name i := leWord 16 (b.sub (56 + 2 * i) 2 (by omega)).toList

/-- `validate_gpt`. -/
def validateGpt (calculateCrc : List Byte → BitVec 32) (gpth : GPTHeader) : EfiStatus :=
  if bubMemcmp gpth.signature.toList
      (ascii ['E', 'F', 'I', ' ', 'P', 'A', 'R', 'T']) 8 ≠ 0 then .notFound
  -- The header's bytes are within the minimum and the block size.
  else if gpth.headerSize < 92 then .notFound
  else if gpth.headerSize > 512 then .notFound
  else
    let gpthTmp := { gpth with headerCrc32 := 0 }
    let gptHeaderCrcCalc := calculateCrc (gpthTmp.toBytes.toList.take gpthTmp.headerSize.toNat)
    if gpth.headerCrc32 ≠ gptHeaderCrcCalc then .notFound
    else if gpth.revision ≠ 0x00010000 then .notFound
    else .success

end BrilloBoot
