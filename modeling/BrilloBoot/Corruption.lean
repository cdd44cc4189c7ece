import BrilloBoot.Standing

/-!
# What the checksum detects

Two blocks that the reader accepts are equal when their first 60 bytes are, and have different
checksums when those bytes differ in one short window or in the state bytes of the slots only. Hence
a block that differs from an accepted one in one of these ways is rejected: localized corruption
(`localized_corruption_detected`), and a mixture of two successive blocks
(`torn_update_detected`).
-/

namespace BrilloBoot

open BubAbData

/-! ## Checksums of nearby bodies -/

/-- Bodies that differ only inside one window of at most four bytes have different checksums. -/
theorem checksumOf_window_ne (before after : List Byte) {xs ys : List Byte}
    (hlen : xs.length = ys.length) (h4 : xs.length ≤ 4) (hne : xs ≠ ys) :
    checksumOf (before ++ xs ++ after) ≠ checksumOf (before ++ ys ++ after) := by
  unfold checksumOf
  rw [ne_eq, bubCrc32_eq_iff, List.append_assoc (before ++ xs),
    List.append_assoc (before ++ ys)]
  exact CrcRegister.feed_window_ne crcPolynomial crcPolynomial_msb _ before _ hlen (by omega) hne

/-- Bodies that differ in one byte, and perhaps in the byte eight places on, have different
checksums. -/
theorem checksumOf_pair_ne (before after : List Byte) {middle : List Byte}
    (hmid : middle.length = 7) {x x' : Byte} (y y' : Byte) (hne : x ≠ x') :
    checksumOf (before ++ x :: middle ++ y :: after)
      ≠ checksumOf (before ++ x' :: middle ++ y' :: after) := by
  have hsep : CrcRegister.Separates crcPolynomial (middle.length + 1) := by
    rw [hmid]
    exact crcPolynomial_separates
  unfold checksumOf
  rw [ne_eq, bubCrc32_eq_iff, List.append_assoc (before ++ x :: middle),
    List.append_assoc (before ++ x' :: middle)]
  exact CrcRegister.feed_pair_ne crcPolynomial crcPolynomial_msb _ before middle _ hsep y y' hne

/-! ## Accepted blocks -/

/-- The byte swap loses nothing. -/
theorem bubBe32toh_injective : Function.Injective bubBe32toh :=
  Function.LeftInverse.injective bubBe32toh_bubBe32toh

/-- An accepted block ends in the checksum of its first 60 bytes. -/
theorem drop_of_readBlock {b : Bytes 64} {d : BubAbData} (h : readBlock b = .ok d) :
    b.toList.drop 60 = leBytes 4 (bubBe32toh (checksumOf (b.toList.take 60))) := by
  obtain ⟨rfl, -, -⟩ := readBlock_eq_ok_iff.mp h
  rw [toList_image, List.drop_left' d.length_body, List.take_left' d.length_body]
  rfl

/-- Accepted blocks with the same checksum field have bodies with the same checksum. -/
theorem checksumOf_eq_of_readBlock {b b' : Bytes 64} {d d' : BubAbData} (h : readBlock b = .ok d)
    (h' : readBlock b' = .ok d') (hcrc : b'.toList.drop 60 = b.toList.drop 60) :
    checksumOf (b'.toList.take 60) = checksumOf (b.toList.take 60) := by
  rw [drop_of_readBlock h, drop_of_readBlock h'] at hcrc
  have hword := congrArg (leWord 32) hcrc
  rw [leWord_leBytes (n := 4) rfl, leWord_leBytes (n := 4) rfl] at hword
  exact bubBe32toh_injective hword

/-- Accepted blocks with the same first 60 bytes are equal. -/
theorem eq_of_readBlock {b b' : Bytes 64} {d d' : BubAbData} (h : readBlock b = .ok d)
    (h' : readBlock b' = .ok d') (hbody : b'.toList.take 60 = b.toList.take 60) : b' = b := by
  apply Bytes.ext
  rw [← List.take_append_drop 60 b'.toList, drop_of_readBlock h', hbody, ← drop_of_readBlock h,
    List.take_append_drop]

/-! ## Blocks near an accepted one -/

section Near

variable {b b' : Bytes 64} {d : BubAbData}

/-- A piece of two blocks is the same when their bytes there are. -/
theorem piece_eq {i j : ℕ} (hj : i + j ≤ 64)
    (hsame : ∀ k (hk : k < 64), i ≤ k → k < i + j → b'[k] = b[k]) :
    (b'.toList.drop i).take j = (b.toList.drop i).take j := by
  apply List.ext_getElem (by simp)
  intro k hk _
  simp only [List.length_take, List.length_drop, Bytes.length_toList] at hk
  simp only [List.getElem_take, List.getElem_drop]
  exact hsame (i + k) (by omega) (by omega) (by omega)

/-- A block that differs from an accepted one only in the checksum field is rejected. -/
theorem readBlock_of_crc_ne (h : readBlock b = .ok d) (hne : b' ≠ b)
    (hsame : ∀ k (hk : k < 64), k < 60 → b'[k] = b[k]) :
    readBlock b' = .error .errorInvalidMetadata := by
  rw [readBlock_eq_error_iff]
  intro d' h'
  have hbody := piece_eq (i := 0) (j := 60) (by omega) fun k hk _ hlt => hsame k hk (by omega)
  rw [List.drop_zero, List.drop_zero] at hbody
  exact hne (eq_of_readBlock h h' hbody)

/-- The checksum fields are the same when their bytes are. -/
theorem crc_eq (hsame : ∀ k (hk : k < 64), 60 ≤ k → b'[k] = b[k]) :
    b'.toList.drop 60 = b.toList.drop 60 := by
  have hpiece := piece_eq (i := 60) (j := 4) (by omega) fun k hk hle _ => hsame k hk hle
  rwa [List.take_of_length_le (by simp), List.take_of_length_le (by simp)] at hpiece

/-- A block that differs from an accepted one only in a window of four bytes before the checksum
field is rejected. -/
theorem readBlock_of_window_ne {w : ℕ} (hw : w + 4 ≤ 60) (h : readBlock b = .ok d) (hne : b' ≠ b)
    (hsame : ∀ k (hk : k < 64), k < w ∨ w + 4 ≤ k → b'[k] = b[k]) :
    readBlock b' = .error .errorInvalidMetadata := by
  have hsplit (b : Bytes 64) : b.toList.take 60 = (b.toList.drop 0).take w
      ++ (b.toList.drop w).take 4 ++ (b.toList.drop (w + 4)).take (56 - w) := by
    rw [List.drop_zero, ← List.take_add, ← List.take_add, show w + 4 + (56 - w) = 60 by omega]
  have hbefore := piece_eq (i := 0) (j := w) (by omega) fun k hk _ hlt => hsame k hk (by omega)
  have hafter := piece_eq (i := w + 4) (j := 56 - w) (by omega) fun k hk hle _ =>
    hsame k hk (by omega)
  rw [readBlock_eq_error_iff]
  intro d' h'
  -- Accepted with the same checksum field, the two bodies would have the same checksum.
  have hsum := checksumOf_eq_of_readBlock h h' (crc_eq fun k hk hle => hsame k hk (by omega))
  by_cases hwindow : (b'.toList.drop w).take 4 = (b.toList.drop w).take 4
  · apply hne
    apply eq_of_readBlock h h'
    rw [hsplit b', hsplit b, hbefore, hwindow, hafter]
  · rw [hsplit b', hsplit b, hbefore, hafter] at hsum
    exact checksumOf_window_ne _ _ (by simp) (by simp) hwindow hsum

/-- A block that differs from an accepted one only in the state bytes of the slots is rejected. -/
theorem readBlock_of_states_ne (h : readBlock b = .ok d) (hne : b' ≠ b)
    (hsame : ∀ k (hk : k < 64), k ≠ 8 → k ≠ 16 → b'[k] = b[k]) :
    readBlock b' = .error .errorInvalidMetadata := by
  by_cases h8 : b'[8] = b[8]
  · -- Only the state of slot B differs, which is a window of its own.
    apply readBlock_of_window_ne (w := 16) (by omega) h hne
    intro k hk hout
    by_cases hk8 : k = 8
    · subst hk8
      exact h8
    · exact hsame k hk hk8 (by omega)
  · -- The two state bytes are eight places apart.
    have hsplit (b : Bytes 64) : b.toList.take 60 = (b.toList.drop 0).take 8
        ++ b[8] :: (b.toList.drop 9).take 7 ++ b[16] :: (b.toList.drop 17).take 43 := by
      rw [← b.take_drop_eq_cons, ← b.take_drop_eq_cons, List.drop_zero, ← List.take_add,
        ← List.take_add]
    have hbefore := piece_eq (i := 0) (j := 8) (by omega) fun k hk _ hlt =>
      hsame k hk (by omega) (by omega)
    have hmiddle := piece_eq (i := 9) (j := 7) (by omega) fun k hk hle hlt =>
      hsame k hk (by omega) (by omega)
    have hafter := piece_eq (i := 17) (j := 43) (by omega) fun k hk hle _ =>
      hsame k hk (by omega) (by omega)
    rw [readBlock_eq_error_iff]
    intro d' h'
    have hsum := checksumOf_eq_of_readBlock h h'
      (crc_eq fun k hk hle => hsame k hk (by omega) (by omega))
    rw [hsplit b', hsplit b, hbefore, hmiddle, hafter] at hsum
    exact checksumOf_pair_ne _ _ (by simp) _ _ h8 hsum

end Near

/-- Localized corruption of the metadata is always detected. A block that differs from an accepted
one, inside one window of four consecutive bytes before the checksum field or inside that field, is
rejected, and `bub_ab_flow` selects no slot from it. -/
theorem localized_corruption_detected {b b' : Bytes 64} {d : BubAbData}
    (h : bubReadAbDataFromMisc (miscOps .success) b = .ok d) (hne : b' ≠ b)
    (hlocal : (∃ w, w + 4 ≤ 60 ∧ ∀ k (hk : k < 64), k < w ∨ w + 4 ≤ k → b'[k] = b[k]) ∨
      ∀ k (hk : k < 64), k < 60 → b'[k] = b[k]) :
    bubReadAbDataFromMisc (miscOps .success) b' = .error .errorInvalidMetadata ∧
      ∀ io out, (bubAbFlow (miscOps io) out b').1 ≠ .ok ∧
        (bubAbFlow (miscOps io) out b').2.1.take 3 = [0, 0, 0] := by
  simp only [bubReadAbDataFromMisc_miscOps, MiscIo.success, if_true] at h ⊢
  have hbad : readBlock b' = .error .errorInvalidMetadata := by
    rcases hlocal with ⟨w, hw, hsame⟩ | hsame
    · exact readBlock_of_window_ne hw h hne hsame
    · exact readBlock_of_crc_ne h hne hsame
  refine ⟨hbad, fun io out => ?_⟩
  rcases bubAbFlow_miscOps_cases io out b' with
    ⟨-, hflow⟩ | ⟨-, -, hflow⟩ | ⟨e, -, he, -⟩ | ⟨e, -, he, -⟩
  · simp [hflow]
  · simp [hflow]
  · exact absurd he (readBlock_eq_error_iff.mp hbad e)
  · exact absurd he (readBlock_eq_error_iff.mp hbad e)

/-- Clearing the byte of the reset block that holds the state of slot B is detected. -/
theorem localized_corruption_detected_reset :
    bubReadAbDataFromMisc (miscOps .success) ⟨resetAbData.image.toList.set 16 0, by simp⟩ =
      .error .errorInvalidMetadata := by
  have hbyte : getElem resetAbData.image.toList 16 (by simp) = 0x7F#8 := rfl
  refine (localized_corruption_detected
    (bubReadAbDataFromMisc_image (show resetAbData.magic = bubBootCtrlMagic from rfl)) ?_
    (.inl ⟨16, by decide, fun k hk hout => ?_⟩)).1
  · intro heq
    have := congrArg (fun b : Bytes 64 => b[16]) heq
    simp [Bytes.getElem_eq, hbyte] at this
  · simp only [Bytes.getElem_eq]
    exact List.getElem_set_ne (by omega) _

/-! ## Torn updates -/

/-- The two blocks have the same bytes before the checksum field, but for the state bytes of the
slots. -/
def SameButStates (b b' : Bytes 64) : Prop :=
  ∀ k (hk : k < 64), k < 60 → k ≠ 8 → k ≠ 16 → b'[k] = b[k]

/-- A block agrees with itself. -/
theorem SameButStates.refl (b : Bytes 64) : SameButStates b b := fun _ _ _ _ _ => rfl

/-- Records that differ at most in the state fields of their slots have such images. -/
theorem sameButStates_image {d e : BubAbData}
    (hfields : ({ d with slots := e.slots } : BubAbData) = e)
    (hreserved : ∀ i, (e.slots i).reserved = (d.slots i).reserved) :
    SameButStates d.image e.image := by
  -- The state bytes stand at 8 and 16, and nothing else of the body changes.
  have hset : e.body = (d.body.set 8 (e.slots 0).stateByte).set 16 (e.slots 1).stateByte := by
    rw [← hfields]
    simp [body, BubSlotData.toBytes, hreserved]
  have hbody (d : BubAbData) (k : ℕ) (hk : k < 64) (hd : k < d.body.length) :
      d.image[k] = d.body[k] := by
    simp only [Bytes.getElem_eq, toList_image]
    exact List.getElem_append_left hd
  intro k hk h60 h8 h16
  rw [hbody d k hk (by simpa), hbody e k hk (by simpa)]
  simp [hset, Ne.symm h8, Ne.symm h16]

/-- The block that a call leaves, when the reserved bytes of the slots are zero. -/
theorem Call.sameButStates_step (call : Call) {b : Bytes 64} {d : BubAbData}
    (hb : readBlock b = .ok d) (hreserved : ∀ i, (d.slots i).reserved = .zero 7) :
    SameButStates b (call.step b).2 := by
  -- A call leaves the block, or writes a record that differs in the states of its slots.
  cases call with
  | abFlow out io =>
    simp only [Call.step]
    rcases bubAbFlow_miscOps_cases io out b with
      ⟨-, h⟩ | ⟨-, hbad, -⟩ | ⟨-, -, -, -, -, h⟩ | ⟨e, -, he, -, h⟩
    · simpa [h] using .refl b
    · exact absurd hb (readBlock_eq_error_iff.mp hbad d)
    · simpa [h] using .refl b
    · rw [hb, Except.ok.injEq] at he
      subst he
      rw [h, ← image_of_readBlock hb]
      refine sameButStates_image (with_slots_planned d) fun i => ?_
      rw [planned_slots, hreserved]
      split_ifs
      · rw [BubSlotData.charged_reserved, BubSlotData.reserved_normalizeSlot (hreserved i)]
      · exact BubSlotData.reserved_normalizeSlot (hreserved i)
  | markAsInvalid suffix io =>
    simp only [Call.step]
    rcases bubAbMarkAsInvalid_miscOps_cases io suffix b with
      ⟨-, h⟩ | ⟨-, -, h⟩ | ⟨-, -, -, -, h⟩ | ⟨e, i, -, he, -, -, h⟩
    · simpa [h] using .refl b
    · simpa [h] using .refl b
    · simpa [h] using .refl b
    · rw [hb, Except.ok.injEq] at he
      subst he
      rw [h, ← image_of_readBlock hb]
      refine sameButStates_image rfl fun j => ?_
      by_cases hj : j = i
      · simp [invalidated, hj, hreserved, BubSlotData.zero]
      · simp [invalidated, hj]

/-- A mixture of two accepted blocks that differ in the state bytes and the checksum only. -/
theorem torn_of_sameButStates {b b' : Bytes 64} {d d' : BubAbData} (h : readBlock b = .ok d)
    (h' : readBlock b' = .ok d') (hsame : SameButStates b b') (k : ℕ) :
    b'.torn b k = b ∨ b'.torn b k = b' ∨
      readBlock (b'.torn b k) = .error .errorInvalidMetadata := by
  rcases le_or_gt k 60 with hk | hk
  · -- The checksum field is the old one.
    rw [or_iff_not_imp_left]
    intro hne
    refine .inr (readBlock_of_states_ne h hne fun i hi h8 h16 => ?_)
    rcases Nat.lt_or_ge i k with hik | hik
    · rw [Bytes.torn_getElem_of_lt _ _ hi hik]
      exact hsame i hi (by omega) h8 h16
    · exact Bytes.torn_getElem_of_le _ _ hi hik
  · -- Everything before the checksum field is new.
    rw [or_iff_not_imp_left, or_iff_not_imp_left]
    intro _ hne
    exact readBlock_of_crc_ne h' hne fun i hi h60 =>
      Bytes.torn_getElem_of_lt _ _ hi (by omega)

/-- Torn metadata updates are never mistaken for a third state. When a call overwrites a readable
block, whose slots have zero reserved bytes, and only the first `k` bytes of the new block reach the
disk, the block there is the old one or the new one, or the reader rejects it. -/
theorem torn_update_detected {b : Bytes 64} {d : BubAbData}
    (h : bubReadAbDataFromMisc (miscOps .success) b = .ok d)
    (hreserved : ∀ i, (d.slots i).reserved = .zero 7) (call : Call) (k : ℕ) :
    (call.step b).2.torn b k = b ∨ (call.step b).2.torn b k = (call.step b).2 ∨
      bubReadAbDataFromMisc (miscOps .success) ((call.step b).2.torn b k) =
        .error .errorInvalidMetadata := by
  simp only [bubReadAbDataFromMisc_miscOps, MiscIo.success, if_true] at h ⊢
  obtain ⟨d', h'⟩ := call.readable_step b ⟨d, h⟩
  exact torn_of_sameButStates h h' (call.sameButStates_step h hreserved) k

/-- A store of the reset block, with slot A marked as invalid, that stops after slot A. -/
theorem torn_update_detected_reset :
    let b := resetAbData.image
    let b' := ((Call.markAsInvalid (bubSuffixes 0) .success).step b).2
    b'.torn b 16 = b ∨ b'.torn b 16 = b' ∨
      bubReadAbDataFromMisc (miscOps .success) (b'.torn b 16) = .error .errorInvalidMetadata :=
  torn_update_detected
    (bubReadAbDataFromMisc_image (show resetAbData.magic = bubBootCtrlMagic from rfl))
    (fun _ => rfl) (.markAsInvalid (bubSuffixes 0) .success) 16

end BrilloBoot
