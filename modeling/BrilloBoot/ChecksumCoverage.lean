import BrilloBoot.Metadata

/-!
# What the checksum covers

The comment on the `crc32` field of `BubAbData` documents the CRC-32 of the 60 bytes before it. The
code computes it over the whole record with that field cleared, four zero bytes more, and so do the
tools of the host. The zeros move the register on by 32 shifts, so that the two checksums of a
record agree exactly when the register is zero after the 60 bytes (`checksumOf_eq_iff`), and a block
that another tool writes or checks as documented is otherwise not one of the boot loader's
(`checksum_coverage`).
-/

namespace BrilloBoot

open BubAbData

/-- The bytes that the layout documents for the `crc32` field of a block: the CRC-32 of the 60 bytes
before it, most significant byte first. -/
def documentedCrc32 (b : Bytes 64) : List Byte :=
  leBytes 4 (bubBe32toh (bubCrc32 0 (b.toList.take 60)))

/-- The CRC-32 of the whole block with its `crc32` field cleared, most significant byte first. -/
def wholeCrc32 (b : Bytes 64) : List Byte :=
  leBytes 4 (bubBe32toh (bubCrc32 0 (b.toList.take 60 ++ [0, 0, 0, 0])))

/-- The reader and the writer have the bytes `crc` in the `crc32` field of the value in a block. -/
structure Coverage (crc : Bytes 64 → List Byte) (b : Bytes 64) : Prop where
  /-- What is written for the value is the value with the checksum. -/
  written : ∀ old, ∃ new, bubWriteAbDataToMisc (miscOps .success) (.ofBytes b) old = (1, new) ∧
    new.toList.take 60 = b.toList.take 60 ∧ new.toList.drop 60 = crc new
  /-- The block is read exactly when its magic is right and it carries the checksum. -/
  read : (∃ d, bubReadAbDataFromMisc (miscOps .success) b = .ok d) ↔
    (BubAbData.ofBytes b).magic = bubBootCtrlMagic ∧ b.toList.drop 60 = crc b

/-- The reader and the writer follow the documented layout on the value in a block. -/
def DocumentedCoverage (b : Bytes 64) : Prop := Coverage documentedCrc32 b

/-- Two words whose big-endian bytes agree are the same. -/
theorem bigEndian_inj {u v : BitVec 32} :
    leBytes 4 (bubBe32toh u) = leBytes 4 (bubBe32toh v) ↔ u = v := by
  constructor
  · intro h
    have hword : bubBe32toh u = bubBe32toh v := leBytes_injective rfl h
    rw [← bubBe32toh_bubBe32toh u, hword, bubBe32toh_bubBe32toh]
  · intro h
    rw [h]

/-- A cleared field after the 60 bytes leaves their checksum as it is only when the register is zero
there. -/
theorem checksumOf_eq_iff (body : List Byte) :
    checksumOf body = bubCrc32 0 body ↔ bubCrc32 0 body = 0xFFFFFFFF := by
  -- The polynomial has an even number of bits, and four bytes are `2 ^ 5` bits.
  have hgray : (0xB6D0FDC0 : BitVec 32) ^^^ ((0xB6D0FDC0 : BitVec 32) >>> 1) = crcPolynomial := by
    decide
  have hlow : (0xB6D0FDC0 : BitVec 32).getLsbD 0 = false := by decide
  unfold checksumOf
  rw [bubCrc32_eq_iff, CrcRegister.feed_append, bubCrc32_eq_feed]
  generalize CrcRegister.feed crcPolynomial (0 ^^^ ~~~0) body = r
  have hzeros : CrcRegister.feed crcPolynomial r [0, 0, 0, 0]
      = (CrcRegister.shift crcPolynomial)^[2 ^ 5] r :=
    CrcRegister.feed_replicate_zero crcPolynomial r 4
  rw [hzeros, CrcRegister.iterate_shift_two_pow_eq_self_iff crcPolynomial hgray hlow]
  constructor
  · rintro rfl
    rfl
  · intro h
    exact (BitVec.xor_left_inj _).mp (h.trans (BitVec.zero_xor).symm)

/-- The field of a block holds the word that is read from it. -/
theorem drop_eq_leBytes (b : Bytes 64) :
    b.toList.drop 60 = leBytes 4 (BubAbData.ofBytes b).crc32 := by
  conv_lhs => rw [← toBytes_ofBytes b]
  rw [toBytes, List.drop_left' (length_body _)]

/-- The writer follows the documented layout exactly when the two checksums agree. -/
theorem drop_image_eq_documentedCrc32_iff (d : BubAbData) :
    d.image.toList.drop 60 = documentedCrc32 d.image ↔ bubCrc32 0 d.body = 0xFFFFFFFF := by
  rw [documentedCrc32, drop_image, take_image, bigEndian_inj, checksum, checksumOf_eq_iff]

/-- The reader and the writer have the checksum of the whole record in the field. -/
theorem wholeCoverage (b : Bytes 64) : Coverage wholeCrc32 b := by
  constructor
  · intro old
    refine ⟨_, by rw [bubWriteAbDataToMisc_miscOps, MiscIo.success, if_pos rfl], ?_, ?_⟩
    · rw [take_image, body_ofBytes]
    · rw [wholeCrc32, drop_image, take_image]
      rfl
  · have hfield : b.toList.drop 60 = wholeCrc32 b ↔
        bubBe32toh (BubAbData.ofBytes b).crc32 = (BubAbData.ofBytes b).checksum := by
      rw [wholeCrc32, drop_eq_leBytes, ← bigEndian_inj, bubBe32toh_bubBe32toh, ← body_ofBytes]
      rfl
    rw [bubReadAbDataFromMisc_miscOps, MiscIo.success, if_pos rfl, hfield]
    simp only [readBlock, checkAbData_eq_ok_iff, exists_and_left, exists_eq, and_true]

/-- The code meets the documented checksum coverage on exactly the values whose 60 bytes have the
checksum `0xFFFFFFFF`. -/
theorem documentedCoverage_iff (b : Bytes 64) :
    DocumentedCoverage b ↔ bubCrc32 0 (b.toList.take 60) = 0xFFFFFFFF := by
  rw [← body_ofBytes b]
  constructor
  · intro h
    obtain ⟨new, hnew, -, hfield⟩ := h.written b
    rw [bubWriteAbDataToMisc_miscOps, MiscIo.success, if_pos rfl, Prod.mk.injEq] at hnew
    obtain ⟨-, rfl⟩ := hnew
    exact (drop_image_eq_documentedCrc32_iff _).mp hfield
  · intro h
    have hsame : documentedCrc32 b = wholeCrc32 b := by
      rw [documentedCrc32, wholeCrc32, ← body_ofBytes]
      exact bigEndian_inj.mpr ((checksumOf_eq_iff _).mpr h).symm
    constructor
    · intro old
      refine ⟨_, ?_, ?_, (drop_image_eq_documentedCrc32_iff (.ofBytes b)).mpr h⟩
      · rw [bubWriteAbDataToMisc_miscOps, MiscIo.success, if_pos rfl]
      · rw [take_image, body_ofBytes]
    · rw [hsame]
      exact (wholeCoverage b).read

/-- **What the checksum covers**: reader and writer take it over all 64 bytes with the field
cleared. They meet the documented coverage on exactly the values whose 60 bytes have the checksum
`0xFFFFFFFF`. -/
theorem checksum_coverage (b : Bytes 64) :
    Coverage wholeCrc32 b ∧
      (DocumentedCoverage b ↔ bubCrc32 0 (b.toList.take 60) = 0xFFFFFFFF) :=
  ⟨wholeCoverage b, documentedCoverage_iff b⟩

/-- The reset metadata is not checksummed as documented. -/
theorem reset_not_documentedCoverage : ¬ DocumentedCoverage resetAbData.image := by
  intro h
  obtain ⟨new, hnew, -, hfield⟩ := h.written resetAbData.image
  rw [bubWriteAbDataToMisc_miscOps, MiscIo.success, if_pos rfl, Prod.mk.injEq] at hnew
  obtain ⟨-, rfl⟩ := hnew
  revert hfield
  decide +kernel

end BrilloBoot
