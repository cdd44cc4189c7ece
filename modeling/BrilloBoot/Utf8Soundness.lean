import BrilloBoot.Utf8Text

/-!
# What `utf8_to_ucs2` takes for text

`utf8_to_ucs2` looks at the lead bytes only. It takes a string for text although a continuation byte
is missing, the encoding is longer than it has to be or stands for a surrogate, and so converts
different strings to one name. It is right about a string when the bytes behind every lead byte that
it comes to are those of a scalar value (`ProperAt`).
-/

namespace BrilloBoot

open Utf8 (Basic Shape encode encodeChar unit)

/-! ## The bytes behind a lead byte -/

/-- A byte that goes on with a character, `10xxxxxx`. -/
def IsContinuation (b : Byte) : Prop := b &&& 0xC0 = 0x80

/-- A continuation byte can be told. -/
instance : DecidablePred IsContinuation := fun b => inferInstanceAs (Decidable (b &&& 0xC0 = 0x80))

/-- The bytes behind a lead byte that the function takes go on with its character, are needed for it
and do not make it a surrogate. -/
def ProperAt (utf8Data : ℕ → Byte) (i8 : BitVec 32) : Prop :=
  let byte (k : BitVec 32) : Byte := utf8Data (i8 + k).toNat
  match announced (utf8Data i8.toNat) with
  | some 2 => 0xC2 ≤ utf8Data i8.toNat ∧ IsContinuation (byte 1)
  | some 3 =>
    IsContinuation (byte 1) ∧ IsContinuation (byte 2) ∧
      (utf8Data i8.toNat = 0xE0 → 0xA0 ≤ byte 1) ∧ (utf8Data i8.toNat = 0xED → byte 1 < 0xA0)
  | _ => True

section

variable {utf8Data : ℕ → Byte} {i8 : BitVec 32}

/-- The bytes of a scalar value are proper. -/
theorem properAt_of_holdsAt {bytes : List Byte} {u : BitVec 16} (hshape : Shape bytes u)
    (h : HoldsAt utf8Data i8 bytes) : ProperAt utf8Data i8 := by
  have hannounced := (unit_of_holdsAt hshape h).1
  have hcontinuation : ∀ y : BitVec 6, IsContinuation (2#2 ++ y) := by decide
  unfold ProperAt
  rw [hannounced]
  cases hshape with
  | one x => trivial
  | two x y hshort =>
    have hlead : ∀ x : BitVec 5, 2 ≤ x.toNat → (0xC2 : Byte) ≤ 6#3 ++ x := by decide
    have hnext : utf8Data (i8 + 1).toNat = 2#2 ++ y := h 1 _ rfl
    dsimp only [List.length_cons, List.length_nil]
    rw [h.lead, hnext]
    exact ⟨hlead x hshort, hcontinuation y⟩
  | three x y z hshort hscalar =>
    have hfirst : ∀ x : BitVec 4, (14#4 ++ x = (0xE0 : Byte) → x.toNat = 0) ∧
        (14#4 ++ x = (0xED : Byte) → x.toNat = 13) := by decide
    have hrange : ∀ y : BitVec 6, (32 ≤ y.toNat → (0xA0 : Byte) ≤ 2#2 ++ y) ∧
        (y.toNat < 32 → 2#2 ++ y < (0xA0 : Byte)) := by decide
    have hnext : utf8Data (i8 + 1).toNat = 2#2 ++ y := h 1 _ rfl
    have hlast : utf8Data (i8 + 2).toNat = 2#2 ++ z := h 2 _ rfl
    dsimp only [List.length_cons, List.length_nil]
    rw [h.lead, hnext, hlast]
    exact ⟨hcontinuation y, hcontinuation z, fun h0 => (hrange y).1 (hshort ((hfirst x).1 h0)),
      fun h13 => (hrange y).2 (hscalar ((hfirst x).2 h13))⟩

/-- No bytes are held everywhere. -/
theorem holdsAt_nil : HoldsAt utf8Data i8 [] := fun k b h => by simp at h

/-- One more byte in front. -/
theorem holdsAt_cons {b : Byte} {bytes : List Byte} (hb : utf8Data i8.toNat = b)
    (h : HoldsAt utf8Data (i8 + 1) bytes) : HoldsAt utf8Data i8 (b :: bytes) := by
  intro k b' hb'
  cases k with
  | zero =>
    rw [BitVec.add_zero, hb]
    simpa using hb'
  | succ k =>
    have hindex : i8 + BitVec.ofNat 32 (k + 1) = i8 + 1 + BitVec.ofNat 32 k := by
      rw [BitVec.ofNat_add, BitVec.add_comm (BitVec.ofNat 32 k), BitVec.add_assoc]
      rfl
    rw [hindex]
    exact h k b' hb'

/-- Proper bytes are those of a scalar value. -/
theorem exists_shape_of_properAt {l : ℕ} (hlead : announced (utf8Data i8.toNat) = some l)
    (h : ProperAt utf8Data i8) : ∃ bytes u, Shape bytes u ∧ HoldsAt utf8Data i8 bytes := by
  have hsecond : i8 + 2 = i8 + 1 + 1 := by
    rw [BitVec.add_assoc]
    rfl
  have hcontinuation : ∀ b : Byte, IsContinuation b → b = 2#2 ++ b.setWidth 6 := by decide
  have hlength : l = 1 ∨ l = 2 ∨ l = 3 := by
    have hl := length_of_announced hlead
    omega
  unfold ProperAt at h
  rw [hlead] at h
  -- What the first byte says of its own bits, and the range of the second one.
  rcases hlength with rfl | rfl | rfl
  · have hone : ∀ b : Byte, announced b = some 1 → b = 0#1 ++ b.setWidth 7 := by decide
    exact ⟨_, _, .one _, holdsAt_cons (hone _ hlead) holdsAt_nil⟩
  · have htwo : ∀ b : Byte, announced b = some 2 →
        b = 6#3 ++ b.setWidth 5 ∧ (0xC2 ≤ b → 2 ≤ (b.setWidth 5).toNat) := by decide
    obtain ⟨hbyte, hshort⟩ := htwo _ hlead
    obtain ⟨hrange, hnext⟩ := h
    exact ⟨_, _, .two _ _ (hshort hrange),
      holdsAt_cons hbyte (holdsAt_cons (hcontinuation _ hnext) holdsAt_nil)⟩
  · have hthree : ∀ b : Byte, announced b = some 3 → b = 14#4 ++ b.setWidth 4 ∧
        ((b.setWidth 4).toNat = 0 → b = 0xE0) ∧ ((b.setWidth 4).toNat = 13 → b = 0xED) := by
      decide
    have hrange : ∀ b : Byte, IsContinuation b →
        (0xA0 ≤ b → 32 ≤ (b.setWidth 6).toNat) ∧ (b < 0xA0 → (b.setWidth 6).toNat < 32) := by
      decide
    obtain ⟨hbyte, hzero, hthirteen⟩ := hthree _ hlead
    obtain ⟨hnext, hlast, hshort, hscalar⟩ := h
    dsimp only at hlast
    rw [hsecond] at hlast
    exact ⟨_, _, .three _ _ _ (fun h0 => (hrange _ hnext).1 (hshort (hzero h0)))
        fun h13 => (hrange _ hnext).2 (hscalar (hthirteen h13)),
      holdsAt_cons hbyte (holdsAt_cons (hcontinuation _ hnext)
        (holdsAt_cons (hcontinuation _ hlast) holdsAt_nil))⟩

end

/-! ## Strings that are taken for text -/

/-- The string is the encoding of a text of the basic plane. -/
def WellFormed (string : List Byte) : Prop := ∃ text, (∀ c ∈ text, Basic c) ∧ encode text = string

/-- The string, with its terminator behind it, converts to the wide string. -/
def Converts (string : List Byte) (tail : ℕ → Byte) (ucs2Data : ℕ → BitVec 16) : Prop :=
  ∃ turns, utf8ToUcs2 turns (cString string tail) (BitVec.ofNat 64 (string.length + 1))
    (fun _ => 0) = .inr (0, ucs2Data)

/-- The wide strings agree up to their terminators. -/
def SameName (u v : ℕ → BitVec 16) : Prop := ∀ k, (∀ j, j < k → u j ≠ 0) → u k = v k

/-- If the scan by lead bytes comes to the end of the string, then it finds the right bytes behind
every lead byte that it comes to. -/
def ScansRightly (string : List Byte) (tail : ℕ → Byte) : Prop :=
  ScanEnds (cString string tail) string.length →
    ∀ i8, ScanAt (cString string tail) string.length i8 → ProperAt (cString string tail) i8

section

variable {string : List Byte} {tail : ℕ → Byte} {ucs2Data : ℕ → BitVec 16}

/-- A string converts exactly when its scan ends. -/
theorem converts_iff (hsize : string.length + 1 < 2 ^ 64) :
    (∃ ucs2Data, Converts string tail ucs2Data) ↔
      ScanEnds (cString string tail) string.length := by
  rw [← returns_zero_iff hsize fun _ => 0]
  exact ⟨fun ⟨u, turns, h⟩ => ⟨turns, u, h⟩, fun ⟨turns, u, h⟩ => ⟨u, turns, h⟩⟩

/-- The scan comes to the end of strings only that the counter can count. -/
theorem length_lt_of_scanEnds (h : ScanEnds (cString string tail) string.length) :
    string.length < 2 ^ 32 := by
  obtain ⟨i8, l, -, -, hend⟩ := h
  exact Nat.lt_of_le_of_lt hend (BitVec.isLt _)

/-- On encoded text, the scan finds the right bytes behind every lead byte. -/
theorem scansRightly_encode (tail : ℕ → Byte) {text : List Char} (hbasic : ∀ c ∈ text, Basic c) :
    ScansRightly (encode text) tail := by
  intro hends i8 hscan
  have hlen := length_lt_of_scanEnds hends
  obtain ⟨turns, s, hrun, rfl⟩ := hscan.exists_run (by omega) fun _ => 0
  rcases spelling_of_run hlen hrun with ⟨rfl, h⟩ | ⟨front, c, back, htext, h⟩
  · exact properAt_of_holdsAt (.one 0) (holdsAt_terminator h.bytes)
  · have hc : Basic c := hbasic c (by simp [htext])
    exact properAt_of_holdsAt (Utf8.shape_encodeChar hc) (h.holdsAt tail hlen htext)

/-- Bytes without a null byte that stand in memory at a byte of the string are a piece of it: the
terminator is not among them. -/
theorem lt_of_holdsAt {bytes : List Byte} (hlen : string.length < 2 ^ 32) {i8 : BitVec 32}
    (hi8 : i8.toNat < string.length) (hbytes : ∀ b ∈ bytes, b ≠ 0)
    (h : HoldsAt (cString string tail) i8 bytes) :
    ∀ k (hk : k < bytes.length), ∃ hi : i8.toNat + k < string.length,
      string[i8.toNat + k] = bytes[k] := by
  have hlt : ∀ k, k < bytes.length → i8.toNat + k < string.length := by
    intro k
    induction k with
    | zero => exact fun _ => hi8
    | succ k ih =>
      intro hk
      have hprev := ih (by omega)
      by_contra hle
      have hend : i8.toNat + (k + 1) = string.length := by omega
      have hnull := h (k + 1) _ (List.getElem?_eq_getElem hk)
      rw [toNat_index (by omega), hend, cString_length] at hnull
      exact hbytes _ (List.getElem_mem hk) hnull.symm
  intro k hk
  have hi := hlt k hk
  have hholds := h k _ (List.getElem?_eq_getElem hk)
  rw [toNat_index (by omega), cString_of_lt hi] at hholds
  exact ⟨hi, hholds⟩

/-- Behind a front that encodes text, proper bytes go on with a scalar value. -/
theorem exists_encode_next (hnul : ∀ b ∈ string, b ≠ 0) (hlen : string.length < 2 ^ 32)
    {front : List Char} (hfront : ∀ c ∈ front, Basic c) {i8 : BitVec 32}
    (hi8 : i8.toNat < string.length) (hencode : encode front = string.take i8.toNat) {l : ℕ}
    (hlead : announced (cString string tail i8.toNat) = some l)
    (h : ProperAt (cString string tail) i8) :
    i8.toNat + l ≤ string.length ∧
      ∃ text, (∀ c ∈ text, Basic c) ∧ encode text = string.take (i8.toNat + l) := by
  obtain ⟨bytes, u, hshape, hholds⟩ := exists_shape_of_properAt hlead h
  obtain rfl := Option.some.inj (hlead.symm.trans (unit_of_holdsAt hshape hholds).1)
  -- A NUL would be in the string.
  have hu : u ≠ 0 := by
    rintro rfl
    obtain rfl := hshape.unique (.one 0) rfl
    have hzero := hholds.lead
    rw [cString_of_lt hi8] at hzero
    exact hnul _ (List.getElem_mem hi8) hzero
  have hpiece := lt_of_holdsAt hlen hi8 (hshape.ne_zero hu) hholds
  have hpos := hshape.length
  have hend : i8.toNat + bytes.length ≤ string.length := by
    obtain ⟨hlast, -⟩ := hpiece (bytes.length - 1) (by omega)
    omega
  -- The bytes of the shape are the next ones of the string.
  have hsplit : string.take (i8.toNat + bytes.length) = string.take i8.toNat ++ bytes := by
    rw [List.take_add]
    refine congrArg _ (List.ext_getElem (by simp; omega) fun k hk hk' => ?_)
    rw [List.getElem_take, List.getElem_drop]
    exact (hpiece k hk').2
  obtain ⟨c, hbasic, rfl, -⟩ := hshape.exists_encodeChar
  refine ⟨hend, front ++ [c], ?_, ?_⟩
  · intro c' hc'
    rcases List.mem_append.mp hc' with hc' | hc'
    · exact hfront c' hc'
    · rwa [List.mem_singleton.mp hc']
  · rw [Utf8.encode_concat, hencode, hsplit]

/-- A string whose scan ends and finds the right bytes behind every lead byte encodes text. -/
theorem wellFormed_of_scansRightly (hnul : ∀ b ∈ string, b ≠ 0)
    (hends : ScanEnds (cString string tail) string.length) (h : ScansRightly string tail) :
    WellFormed string := by
  have hproper := h hends
  have hlen := length_lt_of_scanEnds hends
  have hfront : ∀ i8, ScanAt (cString string tail) string.length i8 →
      ∃ front, (∀ c ∈ front, Basic c) ∧ encode front = string.take i8.toNat := by
    intro i8 hscan
    induction hscan with
    | start => exact ⟨[], by simp, rfl⟩
    | @next i8 l hscan hlead hon ih =>
      obtain ⟨front, hbasic, hencode⟩ := ih
      rcases hscan.lt_or_eq_zero with hi8 | ⟨-, hzero⟩
      · obtain ⟨hend, htext⟩ :=
          exists_encode_next hnul hlen hbasic hi8 hencode hlead (hproper i8 hscan)
        rwa [toNat_index (by omega)]
      · rw [hzero] at hon
        exact absurd hon (Nat.not_lt_zero _)
  obtain ⟨i8, l, hscan, hlead, hend⟩ := hends
  obtain ⟨front, hbasic, hencode⟩ := hfront i8 hscan
  rcases hscan.lt_or_eq_zero with hi8 | ⟨rfl, hzero⟩
  · obtain ⟨hle, text, htext, hstring⟩ :=
      exists_encode_next hnul hlen hbasic hi8 hencode hlead (hproper i8 hscan)
    rw [toNat_index (by omega)] at hend
    rw [List.take_of_length_le hend] at hstring
    exact ⟨text, htext, hstring⟩
  · rw [List.eq_nil_of_length_eq_zero hzero]
    exact ⟨[], by simp, rfl⟩

end

/-! ## Names -/

/-- The null character has a null byte. -/
theorem zero_mem_encodeChar {c : Char} (h : Basic c) (hc : c.toNat = 0) : 0 ∈ encodeChar c := by
  have hunit : (unit c).toNat = (0#9 ++ 0#7).toNat := by
    rw [Utf8.toNat_unit h, hc]
    rfl
  rw [(Utf8.shape_encodeChar h).unique (.one 0) hunit]
  decide

/-- The units of a text without null characters are its name. -/
theorem eq_of_sameName {text text' : List Char} (h : ∀ c ∈ text, Basic c ∧ c.toNat ≠ 0)
    (h' : ∀ c ∈ text', Basic c ∧ c.toNat ≠ 0)
    (hname : SameName (unitsOver text fun _ => 0) (unitsOver text' fun _ => 0)) :
    text = text' := by
  induction text generalizing text' with
  | nil =>
    cases text' with
    | nil => rfl
    | cons c' cs' =>
      obtain ⟨hbasic, hc'⟩ := h' c' List.mem_cons_self
      have hzero := hname 0 fun j hj => absurd hj (Nat.not_lt_zero j)
      exact absurd hzero.symm (Utf8.unit_ne_zero hbasic hc')
  | cons c cs ih =>
    obtain ⟨hbasic, hc⟩ := h c List.mem_cons_self
    have hfirst := hname 0 fun j hj => absurd hj (Nat.not_lt_zero j)
    cases text' with
    | nil => exact absurd hfirst (Utf8.unit_ne_zero hbasic hc)
    | cons c' cs' =>
      obtain ⟨hbasic', -⟩ := h' c' List.mem_cons_self
      obtain rfl := Utf8.unit_inj hbasic hbasic' hfirst
      refine congrArg _ (ih (fun d hd => h d (List.mem_cons_of_mem c hd))
        (fun d hd => h' d (List.mem_cons_of_mem c hd)) fun k hk => ?_)
      refine hname (k + 1) fun j hj => ?_
      cases j with
      | zero => exact Utf8.unit_ne_zero hbasic hc
      | succ j => exact hk j (Nat.lt_of_succ_lt_succ hj)

section

variable {string string' : List Byte} {tail tail' : ℕ → Byte} {u v : ℕ → BitVec 16}

/-- A string without null bytes that encodes text converts to the units of the text. -/
theorem exists_text_of_converts (hnul : ∀ b ∈ string, b ≠ 0) (hsize : string.length + 1 < 2 ^ 64)
    (hwell : WellFormed string) (h : Converts string tail u) :
    ∃ text, (∀ c ∈ text, Basic c ∧ c.toNat ≠ 0) ∧ encode text = string ∧
      u = unitsOver text fun _ => 0 := by
  have hlen := length_lt_of_scanEnds ((converts_iff hsize).mp ⟨u, h⟩)
  obtain ⟨text, hbasic, rfl⟩ := hwell
  obtain ⟨turns, hrun⟩ := h
  refine ⟨text, fun c hc => ⟨hbasic c hc, fun hzero => ?_⟩, rfl, ?_⟩
  · exact hnul 0 (List.mem_flatMap.mpr ⟨c, hc, zero_mem_encodeChar (hbasic c hc) hzero⟩) rfl
  · rcases result_of_utf8ToUcs2_encode hlen rfl hrun with ⟨-, hr⟩ | ⟨-, hr⟩
    · exact (Prod.mk.inj hr).2
    · exact absurd (show (0 : ℤ) = 1 from hr) (by decide)

end

/-- `utf8_to_ucs2` converts well-formed strings only, and different strings to different names,
exactly for the strings whose scan, if it comes to their end, finds the right bytes behind every
lead byte. -/
theorem converts_wellFormed_iff (string string' : List Byte) (tail tail' : ℕ → Byte)
    (hnul : ∀ b ∈ string, b ≠ 0) (hnul' : ∀ b ∈ string', b ≠ 0)
    (hsize : string.length + 1 < 2 ^ 64) (hsize' : string'.length + 1 < 2 ^ 64) :
    ((∀ u, Converts string tail u → WellFormed string) ∧
      (∀ v, Converts string' tail' v → WellFormed string') ∧
      ∀ u v, Converts string tail u → Converts string' tail' v → SameName u v →
        string = string') ↔
    ScansRightly string tail ∧ ScansRightly string' tail' := by
  constructor
  · rintro ⟨hwell, hwell', -⟩
    refine ⟨fun hends => ?_, fun hends => ?_⟩
    · obtain ⟨u, hu⟩ := (converts_iff hsize).mpr hends
      obtain ⟨text, hbasic, rfl⟩ := hwell u hu
      exact scansRightly_encode _ hbasic hends
    · obtain ⟨v, hv⟩ := (converts_iff hsize').mpr hends
      obtain ⟨text, hbasic, rfl⟩ := hwell' v hv
      exact scansRightly_encode _ hbasic hends
  · rintro ⟨hright, hright'⟩
    have hwell : ∀ u, Converts string tail u → WellFormed string := fun u hu =>
      wellFormed_of_scansRightly hnul ((converts_iff hsize).mp ⟨u, hu⟩) hright
    have hwell' : ∀ v, Converts string' tail' v → WellFormed string' := fun v hv =>
      wellFormed_of_scansRightly hnul' ((converts_iff hsize').mp ⟨v, hv⟩) hright'
    refine ⟨hwell, hwell', fun u v hu hv hname => ?_⟩
    obtain ⟨text, htext, rfl, rfl⟩ := exists_text_of_converts hnul hsize (hwell u hu) hu
    obtain ⟨text', htext', rfl, rfl⟩ := exists_text_of_converts hnul' hsize' (hwell' v hv) hv
    rw [eq_of_sameName htext htext' hname]

/-- A letter, and one of two bytes. -/
theorem converts_wellFormed_iff_letters :
    (∀ b ∈ ([0x41] : List Byte), b ≠ 0) ∧ (∀ b ∈ ([0xC3, 0xA9] : List Byte), b ≠ 0) ∧
    (((∀ u, Converts [0x41] (fun _ => 0) u → WellFormed [0x41]) ∧
      (∀ v, Converts [0xC3, 0xA9] (fun _ => 0) v → WellFormed [0xC3, 0xA9]) ∧
      ∀ u v, Converts [0x41] (fun _ => 0) u → Converts [0xC3, 0xA9] (fun _ => 0) v →
        SameName u v → ([0x41] : List Byte) = [0xC3, 0xA9]) ↔
    ScansRightly [0x41] (fun _ => 0) ∧ ScansRightly [0xC3, 0xA9] fun _ => 0) :=
  ⟨by decide, by decide, converts_wellFormed_iff [0x41] [0xC3, 0xA9] (fun _ => 0) (fun _ => 0)
    (by decide) (by decide) (by decide) (by decide)⟩

/-- The letter A, and a longer encoding of it. -/
theorem converts_longer_encoding :
    ¬WellFormed [0xC1, 0x81] ∧
    ∃ u v, Converts [0x41] (fun _ => 0) u ∧ Converts [0xC1, 0x81] (fun _ => 0) v ∧
      SameName u v := by
  have hends : ScanEnds (cString [0xC1, 0x81] fun _ => 0) 2 := ⟨0, 2, .start, rfl, by decide⟩
  refine ⟨?_, _, _, ⟨1, rfl⟩, ⟨1, rfl⟩, ?_⟩
  · rintro ⟨text, hbasic, htext⟩
    have hright := scansRightly_encode (fun _ => 0) hbasic
    rw [htext] at hright
    have hproper : (0xC2 : Byte) ≤ 0xC1 ∧ _ := hright hends 0 .start
    exact absurd hproper.1 (by decide)
  · intro k _
    cases k with
    | zero => decide
    | succ k => rfl

end BrilloBoot
