import BrilloBoot.PartitionLookup
import BrilloBoot.Utf8Scan
import Mathlib.Data.List.GetD

/-!
# Text in `utf8_to_ucs2`

What `utf8_to_ucs2` makes of the encoding of a text, and which strings it takes for one. Between its
turns on an encoded text the function has converted the front of the text (`Spelled`), so it returns
0 on the texts of the basic plane, with their units. But it looks at lead bytes only: it takes a
string whose every lead byte it comes to has the right bytes behind it for the text that it encodes
(`ProperAt`), and other strings as well.
-/

namespace BrilloBoot

open Utf8 (Basic Shape encode encodeChar unit)

/-! ## Strings in memory -/

section

variable {string : List Byte} {tail : ℕ → Byte} {i8 : BitVec 32}

/-- A byte of the string. -/
theorem cString_of_lt {i : ℕ} (h : i < string.length) : cString string tail i = string[i] := by
  rw [cString, List.getD_eq_getElem _ _ (by simp; omega), List.getElem_append_left h]

/-- The terminator. -/
theorem cString_length : cString string tail string.length = 0 := by
  simp [cString]

/-- Behind the string stands its terminator. -/
theorem holdsAt_terminator (hi8 : i8.toNat = string.length) :
    HoldsAt (cString string tail) i8 [0] := by
  intro k b hb
  obtain ⟨hk, rfl⟩ := List.getElem?_eq_some_iff.mp hb
  obtain rfl : k = 0 := by simpa using hk
  rw [BitVec.add_zero, hi8, cString_length]
  rfl

/-- A piece of a string stands in memory where it stands in the string. -/
theorem holdsAt_cString {front piece back : List Byte} (h : string = front ++ piece ++ back)
    (hlen : string.length < 2 ^ 32) (hi8 : i8.toNat = front.length) :
    HoldsAt (cString string tail) i8 piece := by
  intro k b hb
  obtain ⟨hk, hget⟩ := List.getElem?_eq_some_iff.mp hb
  have htotal : string.length = front.length + piece.length + back.length := by
    rw [h, List.length_append, List.length_append]
  have hindex : (i8 + BitVec.ofNat 32 k).toNat = front.length + k := by
    rw [toNat_index (by omega), hi8]
  rw [hindex, cString_of_lt (by omega), ← hget]
  subst h
  rw [List.getElem_append_left (by simp; omega), List.getElem_append_right (by omega)]
  simp

end

/-! ## Encoded text -/

/-- The units of a text, and what is in the buffer behind them. -/
def unitsOver (text : List Char) (init : ℕ → BitVec 16) (j : ℕ) : BitVec 16 :=
  (text.map unit).getD j (init j)

/-- A unit of the text. -/
theorem unitsOver_of_lt {text : List Char} {init : ℕ → BitVec 16} {j : ℕ} (h : j < text.length) :
    unitsOver text init j = unit text[j] := by
  rw [unitsOver, List.getD_eq_getElem _ _ (by simpa using h), List.getElem_map]

/-- What was there before. -/
theorem unitsOver_of_le {text : List Char} {init : ℕ → BitVec 16} {j : ℕ} (h : text.length ≤ j) :
    unitsOver text init j = init j := by
  rw [unitsOver, List.getD_eq_default _ _ (by simpa using h)]

/-- Between the turns on the encoding of a text: the front of the text is of the basic plane, the
function has taken its bytes and written its units. -/
structure Spelled (front : List Char) (init : ℕ → BitVec 16) (s : Utf8State) : Prop where
  basic : ∀ c ∈ front, Basic c
  bytes : s.i8.toNat = (encode front).length
  units : s.i2.toNat = front.length
  ucs2Data : ∀ j, s.ucs2Data j = unitsOver front init j

section

variable {text front back : List Char} {tail : ℕ → Byte} {init : ℕ → BitVec 16} {s : Utf8State}
  {c : Char} {k : ℕ}

/-- The bytes of the next scalar value stand at the counter. -/
theorem Spelled.holdsAt (tail : ℕ → Byte) (hlen : (encode text).length < 2 ^ 32)
    (h : Spelled front init s) (htext : text = front ++ c :: back) :
    HoldsAt (cString (encode text) tail) s.i8 (encodeChar c) := by
  have hencode : encode text = encode front ++ encodeChar c ++ encode back := by
    rw [htext, Utf8.encode_append, Utf8.encode_cons, List.append_assoc]
  exact holdsAt_cString hencode hlen h.bytes

/-- A scalar value of the basic plane is spelled by one turn. -/
theorem Spelled.next (tail : ℕ → Byte) (hlen : (encode text).length < 2 ^ 32)
    (h : Spelled front init s) (htext : text = front ++ c :: back) (hc : Basic c) :
    announced (cString (encode text) tail s.i8.toNat) = some (encodeChar c).length ∧
      Spelled (front ++ [c]) init
        (s.next (cString (encode text) tail) (encodeChar c).length) := by
  obtain ⟨hlead, hunit⟩ := unit_of_holdsAt (Utf8.shape_encodeChar hc)
    (h.holdsAt tail hlen htext)
  have htotal : (encode text).length
      = (encode front).length + ((encodeChar c).length + (encode back).length) := by
    rw [htext, Utf8.encode_append, Utf8.encode_cons, List.length_append, List.length_append]
  refine ⟨hlead, ?_, ?_, ?_, ?_⟩
  · intro c' hc'
    rcases List.mem_append.mp hc' with hc' | hc'
    · exact h.basic c' hc'
    · rwa [List.mem_singleton.mp hc']
  · rw [Utf8.encode_concat, List.length_append, ← h.bytes]
    simp only [Utf8State.next]
    rw [BitVec.toNat_add, BitVec.toNat_ofNat, h.bytes]
    omega
  · have hle := Utf8.length_le_length_encode front
    have hpos := (Utf8.shape_encodeChar hc).length
    simp only [Utf8State.next]
    rw [BitVec.toNat_add, h.units, List.length_append, List.length_singleton]
    simp only [BitVec.ofNat_eq_ofNat, BitVec.toNat_ofNat]
    omega
  · intro j
    simp only [Utf8State.next, hunit]
    -- The units before this one, this one, and those behind it.
    rcases lt_trichotomy j front.length with hj | rfl | hj
    · rw [Function.update_of_ne (by rw [h.units]; omega), h.ucs2Data, unitsOver_of_lt hj,
        unitsOver_of_lt (by simp; omega), List.getElem_append_left hj]
    · rw [h.units, Function.update_self, unitsOver_of_lt (by simp),
        List.getElem_append_right (Nat.le_refl _)]
      simp
    · rw [Function.update_of_ne (by rw [h.units]; omega), h.ucs2Data,
        unitsOver_of_le (Nat.le_of_lt hj), unitsOver_of_le (by simp; omega)]

/-- The function gives up at the other scalar values. -/
theorem Spelled.announced_eq_none (tail : ℕ → Byte) (hlen : (encode text).length < 2 ^ 32)
    (h : Spelled front init s) (htext : text = front ++ c :: back) (hc : ¬Basic c) :
    announced (cString (encode text) tail s.i8.toNat) = none := by
  have hholds := h.holdsAt tail hlen htext
  have hfour : ∀ x : BitVec 3, announced (30#5 ++ x) = none := by decide
  obtain ⟨x, rest, hbytes⟩ := Utf8.encodeChar_of_not_basic hc
  rw [hbytes] at hholds
  rw [hholds.lead, hfour]

/-- Where the function is between the turns on the encoding of a text. -/
def Spelling (text : List Char) (init : ℕ → BitVec 16) (s : Utf8State) : Prop :=
  (text = [] ∧ Spelled [] init s) ∨
    ∃ front c back, text = front ++ c :: back ∧ Spelled front init s

/-- Before the first turn no character is spelled. -/
theorem spelling_start : Spelling text init ⟨0, 0, init⟩ := by
  have hstart : Spelled [] init ⟨0, 0, init⟩ := ⟨by simp, rfl, rfl, fun j => rfl⟩
  cases text with
  | nil => exact .inl ⟨rfl, hstart⟩
  | cons c back => exact .inr ⟨[], c, back, rfl, hstart⟩

/-- A turn that goes on spells one more scalar value. -/
theorem Spelling.turn (hlen : (encode text).length < 2 ^ 32) (h : Spelling text init s)
    {s' : Utf8State} (hturn : utf8Turn (cString (encode text) tail)
      (BitVec.ofNat 64 ((encode text).length + 1)) k s = .inl s') :
    Spelling text init s' ∧ s.i8.toNat < s'.i8.toNat := by
  obtain ⟨l, hlead, hon, rfl⟩ := (utf8Turn_eq_inl_iff (by omega)).mp hturn
  rcases h with ⟨rfl, h⟩ | ⟨front, c, back, htext, h⟩
  · exact absurd hon (Nat.not_lt_zero _)
  · by_cases hc : Basic c
    · obtain ⟨hlead', hnext⟩ := h.next tail hlen htext hc
      obtain rfl := Option.some.inj (hlead'.symm.trans hlead)
      have hpos := (Utf8.shape_encodeChar hc).length
      refine ⟨?_, ?_⟩
      · have hsplit : text = front ++ [c] ++ back := by
          rw [htext, List.append_assoc, List.singleton_append]
        cases back with
        | nil =>
          -- Behind the last scalar value the loop is left.
          have hbytes := hnext.bytes
          rw [List.append_nil] at hsplit
          rw [← hsplit] at hbytes
          exact absurd hon (Nat.not_lt.mpr (Nat.le_of_eq hbytes.symm))
        | cons c' back => exact .inr ⟨front ++ [c], c', back, hsplit, hnext⟩
      · rw [hnext.bytes, h.bytes, Utf8.encode_concat, List.length_append]
        omega
    · rw [h.announced_eq_none tail hlen htext hc] at hlead
      cases hlead

/-- Nothing is behind a front whose encoding has all bytes. -/
theorem back_eq_nil (htext : text = front ++ back)
    (hend : (encode text).length ≤ (encode front).length) : back = [] := by
  have hback := Utf8.length_le_length_encode back
  rw [htext, Utf8.encode_append, List.length_append] at hend
  exact List.eq_nil_of_length_eq_zero (by omega)

/-- A turn that leaves the loop stands behind the text, or at a scalar value that is not of the
basic plane. -/
theorem Spelling.result (hlen : (encode text).length < 2 ^ 32) (hinit : init 0 = 0)
    (h : Spelling text init s) {r : ℤ × (ℕ → BitVec 16)}
    (hturn : utf8Turn (cString (encode text) tail)
      (BitVec.ofNat 64 ((encode text).length + 1)) k s = .inr r) :
    (∀ c ∈ text, Basic c) ∧ r = (0, unitsOver text init) ∨
      (∃ c ∈ text, ¬Basic c) ∧ r = (1, s.ucs2Data) := by
  have hsize : (encode text).length + 1 < 2 ^ 64 := by omega
  rcases h with ⟨rfl, h⟩ | ⟨front, c, back, htext, h⟩
  · -- The function takes the terminator for a scalar value.
    have hzero : HoldsAt (cString (encode []) tail) s.i8 [0#1 ++ 0#7] :=
      holdsAt_terminator h.bytes
    obtain ⟨hlead', hunit⟩ := unit_of_holdsAt (.one 0) hzero
    rcases (utf8Turn_eq_inr_iff hsize).mp hturn with ⟨hlead, -⟩ | ⟨l, hlead, -, rfl⟩
    · rw [hlead'] at hlead
      cases hlead
    · obtain rfl := Option.some.inj (hlead'.symm.trans hlead)
      refine .inl ⟨by simp, Prod.ext rfl (funext fun j => ?_)⟩
      simp only [Utf8State.next, hunit]
      rw [h.units]
      rcases Nat.eq_zero_or_pos j with rfl | hj
      · rw [List.length_nil, Function.update_self]
        exact hinit.symm
      · rw [Function.update_of_ne (by rw [List.length_nil]; omega), h.ucs2Data]
  · by_cases hc : Basic c
    · obtain ⟨hlead', hnext⟩ := h.next tail hlen htext hc
      rcases (utf8Turn_eq_inr_iff hsize).mp hturn with ⟨hlead, -⟩ | ⟨l, hlead, hend, rfl⟩
      · rw [hlead'] at hlead
        cases hlead
      · obtain rfl := Option.some.inj (hlead'.symm.trans hlead)
        have hsplit : text = front ++ [c] ++ back := by
          rw [htext, List.append_assoc, List.singleton_append]
        have hend' : (encode text).length ≤ (encode (front ++ [c])).length := by
          rw [← hnext.bytes]
          exact hend
        rw [back_eq_nil hsplit hend', List.append_nil] at hsplit
        rw [← hsplit] at hnext
        exact .inl ⟨hnext.basic, Prod.ext rfl (funext hnext.ucs2Data)⟩
    · have hlead' := h.announced_eq_none tail hlen htext hc
      rcases (utf8Turn_eq_inr_iff hsize).mp hturn with ⟨-, rfl⟩ | ⟨l, hlead, -⟩
      · refine .inr ⟨⟨c, ?_, hc⟩, rfl⟩
        simp [htext]
      · rw [hlead'] at hlead
        cases hlead

variable {turns : ℕ}

/-- Between the turns on the encoding of a text, its front is spelled. -/
theorem spelling_of_run (hlen : (encode text).length < 2 ^ 32)
    (h : utf8ToUcs2 turns (cString (encode text) tail)
      (BitVec.ofNat 64 ((encode text).length + 1)) init = .inl s) : Spelling text init s :=
  DoWhile.invariant_of_run_eq_inl spelling_start (fun _ _ _ hs hturn => (hs.turn hlen hturn).1) h

/-- What comes of the encoding of a text. -/
theorem result_of_utf8ToUcs2_encode (hlen : (encode text).length < 2 ^ 32) (hinit : init 0 = 0)
    {r : ℤ × (ℕ → BitVec 16)} (h : utf8ToUcs2 turns (cString (encode text) tail)
      (BitVec.ofNat 64 ((encode text).length + 1)) init = .inr r) :
    (∀ c ∈ text, Basic c) ∧ r = (0, unitsOver text init) ∨
      (∃ c ∈ text, ¬Basic c) ∧ r.1 = 1 := by
  obtain ⟨k, s, hreach, hturn⟩ := DoWhile.exists_of_run_eq_inr h
  rcases (spelling_of_run hlen hreach).result hlen hinit hturn with hok | ⟨hnot, rfl⟩
  · exact .inl hok
  · exact .inr ⟨hnot, rfl⟩

/-- The function returns on the encoding of a text. -/
theorem exists_utf8ToUcs2_encode (hlen : (encode text).length < 2 ^ 32) (tail : ℕ → Byte)
    (init : ℕ → BitVec 16) : ∃ turns r, utf8ToUcs2 turns (cString (encode text) tail)
      (BitVec.ofNat 64 ((encode text).length + 1)) init = .inr r := by
  refine ⟨(encode text).length + 1,
    DoWhile.exists_run_eq_inr (μ := fun s => (encode text).length - s.i8.toNat) ?_ ?_⟩
  · intro k s s' hreach hturn
    have hle := (scanAt_of_run (by omega) hreach).toNat_le
    have hle' := (scanAt_of_run (by omega) ((DoWhile.run_succ_of_inl hreach).trans hturn)).toNat_le
    obtain ⟨-, hlt⟩ := (spelling_of_run hlen hreach).turn hlen hturn
    omega
  · exact Nat.lt_succ_of_le (Nat.sub_le _ _)

end

/-- On the encoding of a text, with the output cleared, the function returns 0 when every scalar
value is in the basic plane, and then only. The output is then the text, in units of 16 bits, with
zeros behind it. -/
theorem utf8ToUcs2_encode (text : List Char) (hlen : (encode text).length < 2 ^ 32)
    (tail : ℕ → Byte) (init : ℕ → BitVec 16)
    (hinit : ∀ k, k ≤ (encode text).length → init k = 0) :
    ∃ turns failed ucs2Data,
      utf8ToUcs2 turns (cString (encode text) tail) (BitVec.ofNat 64 ((encode text).length + 1))
        init = .inr (failed, ucs2Data) ∧
      (failed = 0 ↔ ∀ c ∈ text, c.toNat ≤ 0xFFFF) ∧
      (failed = 0 →
        (∀ k (hk : k < text.length), (ucs2Data k).toNat = text[k].toNat) ∧
        (∀ k, text.length ≤ k → k ≤ (encode text).length → ucs2Data k = 0) ∧
        ∀ k, (encode text).length < k → ucs2Data k = init k) := by
  obtain ⟨turns, ⟨failed, ucs2Data⟩, hrun⟩ := exists_utf8ToUcs2_encode hlen tail init
  refine ⟨turns, failed, ucs2Data, hrun, ?_⟩
  have hcount := Utf8.length_le_length_encode text
  rcases result_of_utf8ToUcs2_encode hlen (hinit 0 (Nat.zero_le _)) hrun with
    ⟨hbasic, hr⟩ | ⟨⟨c, hc, hnot⟩, hr⟩
  · obtain ⟨rfl, rfl⟩ := Prod.mk.inj hr
    refine ⟨⟨fun _ => hbasic, fun _ => rfl⟩, fun _ => ⟨fun k hk => ?_, fun k hk hle => ?_, ?_⟩⟩
    · rw [unitsOver_of_lt hk]
      exact Utf8.toNat_unit (hbasic _ (List.getElem_mem hk))
    · rw [unitsOver_of_le hk]
      exact hinit k hle
    · intro k hk
      exact unitsOver_of_le (hcount.trans (Nat.le_of_lt hk))
  · obtain rfl : failed = 1 := hr
    exact ⟨iff_of_false (by decide) fun hall => hnot (hall c hc), fun h => absurd h (by decide)⟩

/-- A text with a character of each length. -/
theorem utf8ToUcs2_encode_text :
    (encode [Char.ofNat 0x61, Char.ofNat 0xE9, Char.ofNat 0x20AC]).length < 2 ^ 32 ∧
    (∀ k, k ≤ (encode [Char.ofNat 0x61, Char.ofNat 0xE9, Char.ofNat 0x20AC]).length →
      (fun _ => 0 : ℕ → BitVec 16) k = 0) ∧
    ∃ turns failed ucs2Data,
      utf8ToUcs2 turns
        (cString (encode [Char.ofNat 0x61, Char.ofNat 0xE9, Char.ofNat 0x20AC]) fun _ => 0)
        7 (fun _ => 0) = .inr (failed, ucs2Data) ∧
      (failed = 0 ↔ ∀ c ∈ [Char.ofNat 0x61, Char.ofNat 0xE9, Char.ofNat 0x20AC],
        c.toNat ≤ 0xFFFF) := by
  obtain ⟨turns, failed, ucs2Data, hrun, hfailed, -⟩ :=
    utf8ToUcs2_encode [Char.ofNat 0x61, Char.ofNat 0xE9, Char.ofNat 0x20AC] (by decide)
      (fun _ => 0) (fun _ => 0) (fun _ _ => rfl)
  exact ⟨by decide, fun _ _ => rfl, turns, failed, ucs2Data, hrun, hfailed⟩

end BrilloBoot
