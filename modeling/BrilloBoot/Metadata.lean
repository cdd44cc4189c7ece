import BrilloBoot.AbFlow

/-!
# Reading and writing the metadata block

What `bub_read_ab_data_from_misc` and `bub_write_ab_data_to_misc` do, in the terms that the rest of
the development uses: `image d` is the block that holds the record `d`, and `readBlock b` what the
reader makes of the block `b`. The reader accepts exactly the images of the records with the right
magic, and returns such a record with its own checksum (`readBlock_eq_ok_iff`), so that writing back
what was read reproduces the block.
-/

namespace BrilloBoot

variable {σ : Type}

/-- `bub_memcmp` is zero exactly when the first `n` bytes agree, in strings that have them. -/
theorem bubMemcmp_eq_zero_iff {as bs : List Byte} {n : ℕ} (ha : n ≤ as.length)
    (hb : n ≤ bs.length) : bubMemcmp as bs n = 0 ↔ as.take n = bs.take n := by
  induction n generalizing as bs with
  | zero => simp [bubMemcmp]
  | succ n ih =>
    obtain ⟨a, as, rfl⟩ := List.exists_cons_of_length_pos (by omega : 0 < as.length)
    obtain ⟨b, bs, rfl⟩ := List.exists_cons_of_length_pos (by omega : 0 < bs.length)
    simp only [List.length_cons, Nat.add_le_add_iff_right] at ha hb
    by_cases hab : a = b
    · simp [bubMemcmp, hab, ih ha hb]
    · have hne : (if a < b then -1 else 1 : ℤ) ≠ 0 := by split_ifs <;> decide
      simp [bubMemcmp, hab, hne]

/-! ## Checksums and images -/

/-- The checksum that goes with 60 bytes of metadata: over them and a cleared checksum field. -/
def checksumOf (body : List Byte) : BitVec 32 := bubCrc32 0 (body ++ [0, 0, 0, 0])

namespace BubAbData

/-- The checksum of a record, whatever its checksum field holds. -/
def checksum (d : BubAbData) : BitVec 32 := checksumOf d.body

/-- The record with its own checksum, in host order. -/
def sealed (d : BubAbData) : BubAbData := { d with crc32 := d.checksum }

/-- The block that holds a record on disk. -/
def image (d : BubAbData) : Bytes 64 :=
  ({ d with crc32 := bubBe32toh d.checksum } : BubAbData).toBytes

/-- The checksum is not part of the body. -/
@[simp] theorem body_with_crc32 (d : BubAbData) (c : BitVec 32) :
    ({ d with crc32 := c } : BubAbData).body = d.body := rfl

/-- The checksum of a record is the one that the code computes. -/
theorem bubCrc32_toBytes (d : BubAbData) :
    bubCrc32 0 ({ d with crc32 := 0 } : BubAbData).toBytes.toList = d.checksum := by
  have hzero : leBytes 4 (0 : BitVec 32) = [0, 0, 0, 0] := by decide
  simp only [toBytes, checksum, checksumOf, hzero, body_with_crc32]

/-- Sealing keeps the magic. -/
@[simp] theorem sealed_magic (d : BubAbData) : d.sealed.magic = d.magic := rfl

/-- Sealing keeps the slots. -/
@[simp] theorem sealed_slots (d : BubAbData) : d.sealed.slots = d.slots := rfl

/-- The image of a record does not depend on its checksum field. -/
@[simp] theorem image_sealed (d : BubAbData) : d.sealed.image = d.image := rfl

/-- An image is the record's 60 bytes and their checksum, most significant byte first. -/
theorem toList_image (d : BubAbData) :
    d.image.toList = d.body ++ leBytes 4 (bubBe32toh d.checksum) := rfl

/-- The 60 bytes of an image are the record's. -/
theorem take_image (d : BubAbData) : d.image.toList.take 60 = d.body := by
  rw [toList_image, List.take_left' d.length_body]

/-- The field of an image holds the record's checksum. -/
theorem drop_image (d : BubAbData) :
    d.image.toList.drop 60 = leBytes 4 (bubBe32toh d.checksum) := by
  rw [toList_image, List.drop_left' d.length_body]

/-- An image is determined by the record's 60 bytes. -/
theorem image_eq_of_body_eq {d e : BubAbData} (h : d.body = e.body) : d.image = e.image := by
  apply Bytes.ext
  rw [toList_image, toList_image, checksum, checksum, h]

/-- An image determines the record, but for its checksum field. -/
theorem image_inj {d e : BubAbData} : d.image = e.image ↔ d.sealed = e.sealed := by
  constructor
  · intro h
    have hbody : d.body = e.body := (List.append_inj (congrArg Bytes.toList h) (by simp)).1
    have hd : ({ d with crc32 := e.sealed.crc32 } : BubAbData) = e.sealed := body_inj hbody
    have hcrc : d.checksum = e.sealed.crc32 := by rw [checksum, hbody]; rfl
    rw [sealed, hcrc, hd]
  · intro h
    rw [← image_sealed, h, image_sealed]

end BubAbData

open BubAbData

/-! ## The reader -/

/-- What the reader makes of a block that it reads whole. -/
def readBlock (b : Bytes 64) : Except BubAbFlowResult BubAbData := checkAbData (.ofBytes b)

/-- The checks pass exactly on a record with the right magic and, in big-endian order, its own
checksum, which they return in host order. -/
theorem checkAbData_eq_ok_iff {e d : BubAbData} :
    checkAbData e = .ok d ↔
      e.magic = bubBootCtrlMagic ∧ bubBe32toh e.crc32 = e.checksum ∧ d = e.sealed := by
  have hmagic : bubMemcmp e.magic.toList bubBootCtrlMagic.toList 4 = 0 ↔
      e.magic = bubBootCtrlMagic := by
    rw [bubMemcmp_eq_zero_iff (by simp) (by simp), List.take_of_length_le (by simp),
      List.take_of_length_le (by simp), Bytes.ext_iff]
  simp only [checkAbData, ne_eq, hmagic, bubCrc32_toBytes, ite_not]
  split_ifs with h₁ h₂
  · rw [Except.ok.injEq, h₂]
    exact ⟨fun h => ⟨h₁, rfl, h.symm⟩, fun h => h.2.2.symm⟩
  · simp [h₂]
  · simp [h₁]

/-- A block that the checks reject is reported as invalid metadata. -/
theorem checkAbData_eq_error {e : BubAbData} {r : BubAbFlowResult} (h : checkAbData e = .error r) :
    r = .errorInvalidMetadata := by
  simp only [checkAbData] at h
  split_ifs at h <;> exact (Except.error.inj h).symm

/-- **The reader accepts the images of the records with the right magic, and no other block**, and
returns the record with its own checksum. -/
theorem readBlock_eq_ok_iff {b : Bytes 64} {d : BubAbData} :
    readBlock b = .ok d ↔ b = d.image ∧ d.magic = bubBootCtrlMagic ∧ d.sealed = d := by
  unfold readBlock
  rw [checkAbData_eq_ok_iff]
  constructor
  · -- The field that was read is the big-endian checksum, so the block is the image.
    rintro ⟨hmagic, hcrc, rfl⟩
    refine ⟨?_, hmagic, rfl⟩
    rw [image_sealed, image, ← hcrc, bubBe32toh_bubBe32toh]
    exact (toBytes_ofBytes b).symm
  · rintro ⟨rfl, hmagic, hseal⟩
    rw [image, ofBytes_toBytes]
    exact ⟨hmagic, bubBe32toh_bubBe32toh _, hseal.symm⟩

/-- A block that is read holds the record that was read. -/
theorem image_of_readBlock {b : Bytes 64} {d : BubAbData} (h : readBlock b = .ok d) :
    d.image = b := (readBlock_eq_ok_iff.mp h).1.symm

/-- A readable block has the magic. -/
theorem magic_of_readBlock {b : Bytes 64} {d : BubAbData} (h : readBlock b = .ok d) :
    d.magic = bubBootCtrlMagic := (readBlock_eq_ok_iff.mp h).2.1

/-- The reader on an image. -/
theorem readBlock_image {d : BubAbData} (h : d.magic = bubBootCtrlMagic) :
    readBlock d.image = .ok d.sealed :=
  readBlock_eq_ok_iff.mpr ⟨(image_sealed d).symm, h, rfl⟩

/-- A block is rejected exactly when it is not read. -/
theorem readBlock_eq_error_iff {b : Bytes 64} :
    readBlock b = .error .errorInvalidMetadata ↔ ∀ d, readBlock b ≠ .ok d := by
  cases h : readBlock b with
  | error r => simp [checkAbData_eq_error h]
  | ok d => simp

/-! ## The two functions over any device -/

section

variable {ops : BubOps σ} {s s' : σ}

/-- The reader when it gets a whole block. -/
theorem bubReadAbDataFromMisc_of_ok {b : Bytes 64}
    (h : ops.readFromPartition miscPartition 0 64 s = (.ok, b.toList)) :
    bubReadAbDataFromMisc ops s = readBlock b := by
  simp only [bubReadAbDataFromMisc, h]
  exact dif_pos ⟨trivial, b.length_toList⟩

/-- The reader when it gets no whole block. -/
theorem bubReadAbDataFromMisc_of_not_ok {r : BubIOResult} {buf : List Byte}
    (h : ops.readFromPartition miscPartition 0 64 s = (r, buf)) (hne : r ≠ .ok ∨ buf.length ≠ 64) :
    bubReadAbDataFromMisc ops s = .error .errorReadMetadata := by
  simp only [bubReadAbDataFromMisc, h]
  rw [dif_neg]
  tauto

/-- The reader reports a failed read or a rejected block. -/
theorem bubReadAbDataFromMisc_eq_error {r : BubAbFlowResult}
    (h : bubReadAbDataFromMisc ops s = .error r) :
    r = .errorReadMetadata ∨ r = .errorInvalidMetadata := by
  unfold bubReadAbDataFromMisc at h
  dsimp only at h
  split_ifs at h
  · exact .inr (checkAbData_eq_error h)
  · exact .inl (Except.error.inj h).symm

/-- The writer writes the record's image. -/
theorem bubWriteAbDataToMisc_of_write {r : BubIOResult} {d : BubAbData}
    (h : ops.writeToPartition miscPartition d.image.toList 0 s = (r, s')) :
    bubWriteAbDataToMisc ops d s = (if r = .ok then 1 else 0, s') := by
  have hwrite : ops.writeToPartition miscPartition
      ({ d with crc32 := bubBe32toh d.checksum } : BubAbData).toBytes.toList 0 s = (r, s') := h
  simp only [bubWriteAbDataToMisc, bubCrc32_toBytes, hwrite]
  cases r <;> rfl

end

/-! ## The two functions over the `misc` partition alone -/

/-- The reader over the `misc` partition: what it makes of the block, when the read succeeds. -/
theorem bubReadAbDataFromMisc_miscOps (io : MiscIo) (b : Bytes 64) :
    bubReadAbDataFromMisc (miscOps io) b =
      if io.read = .success then readBlock b else .error .errorReadMetadata := by
  obtain ⟨read, write⟩ := io
  cases read with
  | failure => exact bubReadAbDataFromMisc_of_not_ok rfl (.inl (by decide))
  | short numRead =>
    refine bubReadAbDataFromMisc_of_not_ok rfl (.inr ?_)
    simp [numRead.isLt.ne]
  | success => exact bubReadAbDataFromMisc_of_ok rfl

/-- The writer over the `misc` partition: the record's image, when the write succeeds. -/
theorem bubWriteAbDataToMisc_miscOps (io : MiscIo) (d : BubAbData) (b : Bytes 64) :
    bubWriteAbDataToMisc (miscOps io) d b = if io.write then (1, d.image) else (0, b) := by
  have hwrite : (miscOps io).writeToPartition miscPartition d.image.toList 0 b =
      if io.write then (.ok, d.image) else (.errorIo, b) := by
    simp [miscOps]
  obtain ⟨read, write⟩ := io
  cases write with
  | false => exact bubWriteAbDataToMisc_of_write hwrite
  | true => exact bubWriteAbDataToMisc_of_write hwrite

/-- The reader over the `misc` partition, on an image. -/
theorem bubReadAbDataFromMisc_image {d : BubAbData} (h : d.magic = bubBootCtrlMagic) :
    bubReadAbDataFromMisc (miscOps .success) d.image = .ok d.sealed := by
  rw [bubReadAbDataFromMisc_miscOps, MiscIo.success, if_pos rfl, readBlock_image h]

/-- The reader over the `misc` partition, on a block without the magic. -/
theorem bubReadAbDataFromMisc_of_magic_ne {b : Bytes 64}
    (h : (BubAbData.ofBytes b).magic ≠ bubBootCtrlMagic) :
    bubReadAbDataFromMisc (miscOps .success) b = .error .errorInvalidMetadata := by
  rw [bubReadAbDataFromMisc_miscOps, MiscIo.success, if_pos rfl, readBlock_eq_error_iff]
  intro d hd
  exact h (checkAbData_eq_ok_iff.mp hd).1

/-- The test tool's encoder produces the record's image. -/
theorem makeMetadataImage_eq (d : BubAbData) : makeMetadataImage d = d.image.toList := by
  apply List.ext_getElem
  · simp only [makeMetadataImage, List.length_ofFn, Bytes.length_toList]
  · intro i h₁ h₂
    simp only [makeMetadataImage, bubCrc32_toBytes, List.getElem_ofFn]
    exact Bytes.getElem_eq d.image i (by simpa using h₂)

/-- The two encoders and the decoder agree. For every record, `bub_write_ab_data_to_misc` writes
what `make_metadata_image` puts in the image; the reader accepts those bytes exactly when the magic
is right, and returns the record with only its checksum field replaced, by the checksum in host
order; and writing back what the reader returns for a block reproduces the block. -/
theorem metadata_encoders_decoder_agree :
    (∀ (d : BubAbData) (old : Bytes 64), ∃ new : Bytes 64,
      bubWriteAbDataToMisc (miscOps .success) d old = (1, new) ∧
      new.toList = makeMetadataImage d ∧
      ((∃ e, bubReadAbDataFromMisc (miscOps .success) new = .ok e) ↔ d.magic = bubBootCtrlMagic) ∧
      ∀ e, bubReadAbDataFromMisc (miscOps .success) new = .ok e →
        e = { d with crc32 := bubCrc32 0 ({ d with crc32 := 0 } : BubAbData).toBytes.toList }) ∧
    ∀ (b : Bytes 64) (d : BubAbData), bubReadAbDataFromMisc (miscOps .success) b = .ok d →
      ∀ old : Bytes 64, bubWriteAbDataToMisc (miscOps .success) d old = (1, b) := by
  simp only [bubReadAbDataFromMisc_miscOps, bubWriteAbDataToMisc_miscOps, MiscIo.success, if_true]
  refine ⟨fun d old => ⟨d.image, rfl, (makeMetadataImage_eq d).symm, ⟨?_, ?_⟩, ?_⟩, ?_⟩
  · -- The image has the magic of the record, which the reader has checked.
    rintro ⟨e, he⟩
    obtain ⟨himage, hmagic, -⟩ := readBlock_eq_ok_iff.mp he
    rw [← hmagic, ← sealed_magic d, image_inj.mp himage, sealed_magic]
  · intro hmagic
    exact ⟨d.sealed, readBlock_image hmagic⟩
  · intro e he
    obtain ⟨himage, -, hseal⟩ := readBlock_eq_ok_iff.mp he
    rw [← hseal, ← image_inj.mp himage, bubCrc32_toBytes]
    rfl
  · intro b d hread old
    rw [image_of_readBlock hread]

end BrilloBoot
