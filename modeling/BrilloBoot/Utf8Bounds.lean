import BrilloBoot.Utf8Text

/-!
# The buffers of `utf8_to_ucs2`

`utf8_to_ucs2` over buffers that have an end: an access outside of them has no result. Where the
function stays inside, it does what it does in memory (`utf8ToUcs2_of_checked`). It leaves its input
when the last byte before the terminator is taken for the lead byte of a character of three bytes,
and then only; it never leaves its output.
-/

namespace BrilloBoot

/-- The state of the loop, with an output that has an end. -/
structure Utf8Buffers where
  i8 : BitVec 32
  i2 : BitVec 32
  ucs2Data : List (BitVec 16)

/-- `utf8Unit`, `none` at a read outside of the input. -/
def utf8UnitChecked (utf8Data : List Byte) (i8 : BitVec 32) :
    Option (Option (BitVec 16 × BitVec 32)) := do
  let byte (k : BitVec 32) : Option (BitVec 16) :=
    utf8Data[(i8 + k).toNat]?.map (BitVec.setWidth 16)
  let lead ← byte 0
  if lead &&& 0xF8 = 0xF0 then return none
  else if lead &&& 0xF0 = 0xE0 then
    let second ← byte 1
    let third ← byte 2
    return some ((lead <<< 12) ||| ((second <<< 6) &&& 0x0FC0) ||| (third &&& 0x003F), 3)
  else if lead &&& 0xE0 = 0xC0 then
    let second ← byte 1
    return some (((lead <<< 6) &&& 0x07C0) ||| (second &&& 0x003F), 2)
  else if lead >>> 7 = 0 then return some (lead &&& 0x00FF, 1)
  else return none

/-- One turn of the loop, out with `none` at an access outside of the buffers. -/
def utf8TurnChecked (utf8Data : List Byte) (_ : ℕ) (s : Utf8Buffers) :
    Utf8Buffers ⊕ Option (ℤ × List (BitVec 16)) :=
  match utf8UnitChecked utf8Data s.i8 with
  | none => .inr none
  | some none => .inr (some (1, s.ucs2Data))
  | some (some (unit, taken)) =>
    if s.i2.toNat < s.ucs2Data.length then
      let ucs2Data := s.ucs2Data.set s.i2.toNat unit
      if (s.i8 + taken).setWidth 64 < BitVec.ofNat 64 utf8Data.length - 1 then
        .inl ⟨s.i8 + taken, s.i2 + 1, ucs2Data⟩
      else .inr (some (0, ucs2Data))
    else .inr none

/-- `utf8_to_ucs2` on buffers, for a number of turns. -/
def utf8ToUcs2Checked (turns : ℕ) (utf8Data : List Byte) (ucs2Data : List (BitVec 16)) :
    Utf8Buffers ⊕ Option (ℤ × List (BitVec 16)) :=
  DoWhile.run (utf8TurnChecked utf8Data) ⟨0, 0, ucs2Data⟩ turns

/-! ## One unit -/

section

variable {string : List Byte} {tail : ℕ → Byte} {i8 : BitVec 32}

/-- The string with its terminator, byte by byte. -/
theorem getElem?_cString {i : ℕ} (h : i ≤ string.length) :
    (string ++ [0])[i]? = some (cString string tail i) := by
  rw [cString, List.getD_eq_getElem _ _ (by simp; omega)]
  exact List.getElem?_eq_getElem (by simp; omega)

/-- A read of a following byte that is there. -/
theorem getElem?_index_of_le (k : ℕ) (hsize : string.length < 2 ^ 32)
    (hk : i8.toNat + k ≤ string.length) :
    (string ++ [0])[(i8 + BitVec.ofNat 32 k).toNat]?
      = some (cString string tail (i8 + BitVec.ofNat 32 k).toNat) := by
  rw [toNat_index (by omega)]
  exact getElem?_cString hk

/-- A read of a following byte that is not there. -/
theorem getElem?_index_of_lt (k : ℕ) (hsize : i8.toNat + k < 2 ^ 32)
    (hk : string.length < i8.toNat + k) :
    (string ++ [0])[(i8 + BitVec.ofNat 32 k).toNat]? = none := by
  rw [toNat_index hsize, List.getElem?_eq_none]
  simp
  omega

/-- A unit is read inside of the input when all bytes that its lead byte announces are there. -/
theorem utf8UnitChecked_eq (hsize : string.length < 2 ^ 32 - 3) (hi8 : i8.toNat ≤ string.length) :
    utf8UnitChecked (string ++ [0]) i8 = match announced (cString string tail i8.toNat) with
      | none => some none
      | some l =>
        if i8.toNat + l ≤ string.length + 1 then
          some (some (unitAt (cString string tail) i8 l, BitVec.ofNat 32 l))
        else none := by
  obtain ⟨hfour, hthree, htwo, hone⟩ := tests_of_lead (cString string tail i8.toNat)
  have hlead : i8 + 0 = i8 := BitVec.add_zero i8
  have hfirst : (string ++ [0])[i8.toNat]? = some (cString string tail i8.toNat) :=
    getElem?_cString hi8
  unfold utf8UnitChecked announced
  simp only [hlead, hfirst, Option.map_some, Option.bind_eq_bind, Option.bind_some, hfour, hthree,
    htwo, hone]
  -- The branches, in their order: no lead byte, then lead bytes of three bytes, two and one.
  by_cases h₄ : cString string tail i8.toNat &&& 0xF8 = 0xF0
  · rw [if_pos h₄, if_pos h₄]
    rfl
  rw [if_neg h₄, if_neg h₄]
  by_cases h₃ : cString string tail i8.toNat &&& 0xF0 = 0xE0
  · rw [if_pos h₃, if_pos h₃]
    dsimp only
    by_cases hroom : i8.toNat + 3 ≤ string.length + 1
    · have hsecond : (string ++ [0])[(i8 + 1).toNat]?
          = some (cString string tail (i8 + 1).toNat) :=
        getElem?_index_of_le 1 (by omega) (by omega)
      have hthird : (string ++ [0])[(i8 + 2).toNat]?
          = some (cString string tail (i8 + 2).toNat) :=
        getElem?_index_of_le 2 (by omega) (by omega)
      rw [if_pos hroom, hsecond, hthird]
      simp [unitAt]
    · have hthird : (string ++ [0])[(i8 + 2).toNat]? = none :=
        getElem?_index_of_lt 2 (by omega) (by omega)
      rw [if_neg hroom, hthird]
      simp
  rw [if_neg h₃, if_neg h₃]
  by_cases h₂ : cString string tail i8.toNat &&& 0xE0 = 0xC0
  · -- The terminator leads no two bytes, so that another one is behind this one.
    have hlt : i8.toNat < string.length := by
      refine Nat.lt_of_le_of_ne hi8 fun hend => ?_
      rw [hend, cString_length] at h₂
      exact absurd h₂ (by decide)
    have hsecond : (string ++ [0])[(i8 + 1).toNat]?
        = some (cString string tail (i8 + 1).toNat) :=
      getElem?_index_of_le 1 (by omega) (by omega)
    rw [if_pos h₂, if_pos h₂, hsecond]
    dsimp only
    rw [if_pos (by omega)]
    simp [unitAt]
  rw [if_neg h₂, if_neg h₂]
  by_cases h₁ : cString string tail i8.toNat >>> 7 = 0
  · rw [if_pos h₁, if_pos h₁]
    dsimp only
    rw [if_pos (by omega)]
    simp [unitAt]
  · rw [if_neg h₁, if_neg h₁]
    rfl

end

/-! ## One turn -/

section

variable {string : List Byte} {tail : ℕ → Byte} {s s' : Utf8Buffers} {k : ℕ}

/-- The state after the turn at a lead byte that announces so many bytes. -/
def Utf8Buffers.next (utf8Data : ℕ → Byte) (s : Utf8Buffers) (l : ℕ) : Utf8Buffers :=
  ⟨s.i8 + BitVec.ofNat 32 l, s.i2 + 1, s.ucs2Data.set s.i2.toNat (unitAt utf8Data s.i8 l)⟩

/-- Between the turns: at a position of the scan, with no more units than bytes. -/
structure Utf8Buffers.Within (string : List Byte) (tail : ℕ → Byte) (s : Utf8Buffers) : Prop where
  scan : ScanAt (cString string tail) string.length s.i8
  units : s.i2.toNat ≤ s.i8.toNat
  capacity : s.ucs2Data.length = string.length + 1

/-- A turn leaves the buffers when it reads behind the terminator, and then only. -/
theorem utf8TurnChecked_eq (hsize : string.length < 2 ^ 32 - 3) (h : s.Within string tail) :
    utf8TurnChecked (string ++ [0]) k s =
      match announced (cString string tail s.i8.toNat) with
      | none => .inr (some (1, s.ucs2Data))
      | some l =>
        if s.i8.toNat + l ≤ string.length + 1 then
          if (s.i8 + BitVec.ofNat 32 l).toNat < string.length then
            .inl (s.next (cString string tail) l)
          else .inr (some (0, (s.next (cString string tail) l).ucs2Data))
        else .inr none := by
  have hle := h.scan.toNat_le
  have hunits := h.units
  have hcapacity := h.capacity
  have hroom : s.i2.toNat < s.ucs2Data.length := by omega
  have hlength : (string ++ [0]).length = string.length + 1 := by simp
  unfold utf8TurnChecked
  rw [utf8UnitChecked_eq hsize hle, hlength]
  cases announced (cString string tail s.i8.toNat) with
  | none => rfl
  | some l =>
    dsimp only
    by_cases hinside : s.i8.toNat + l ≤ string.length + 1
    · rw [if_pos hinside, if_pos hinside]
      simp only [if_pos hroom, on_iff (show string.length + 1 < 2 ^ 64 by omega)]
      rfl
    · rw [if_neg hinside, if_neg hinside]

/-- A turn that leaves the buffers takes the last byte for one of three. -/
theorem last_of_leaves (hsize : string.length < 2 ^ 32 - 3) (h : s.Within string tail)
    (hturn : utf8TurnChecked (string ++ [0]) k s = .inr none) :
    s.i8.toNat + 1 = string.length ∧ announced (cString string tail s.i8.toNat) = some 3 := by
  rw [utf8TurnChecked_eq hsize h] at hturn
  cases hlead : announced (cString string tail s.i8.toNat) with
  | none =>
    rw [hlead] at hturn
    cases hturn
  | some l =>
    rw [hlead] at hturn
    dsimp only at hturn
    by_cases hinside : s.i8.toNat + l ≤ string.length + 1
    · rw [if_pos hinside] at hturn
      split_ifs at hturn
      cases hturn
    · have hl := length_of_announced hlead
      rcases h.scan.lt_or_eq_zero with hi8 | ⟨hi8, hzero⟩
      · obtain rfl : l = 3 := by omega
        exact ⟨by omega, rfl⟩
      · -- The terminator of the empty string announces itself only.
        have hend : s.i8.toNat = string.length := by
          rw [hi8, hzero]
          rfl
        rw [hend, cString_length] at hlead
        obtain rfl : l = 1 := (Option.some.inj hlead).symm
        omega

/-- A turn that goes on stays within the buffers. -/
theorem Utf8Buffers.Within.turn (hsize : string.length < 2 ^ 32 - 3) (h : s.Within string tail)
    (hturn : utf8TurnChecked (string ++ [0]) k s = .inl s') :
    s'.Within string tail ∧ ∃ l, announced (cString string tail s.i8.toNat) = some l ∧
      (s.i8 + BitVec.ofNat 32 l).toNat < string.length ∧ s' = s.next (cString string tail) l := by
  rw [utf8TurnChecked_eq hsize h] at hturn
  cases hlead : announced (cString string tail s.i8.toNat) with
  | none =>
    rw [hlead] at hturn
    cases hturn
  | some l =>
    rw [hlead] at hturn
    dsimp only at hturn
    split_ifs at hturn with hinside hon
    obtain rfl := Sum.inl.inj hturn
    have hl := length_of_announced hlead
    have hunits := h.units
    have hle := h.scan.toNat_le
    refine ⟨⟨h.scan.next hlead hon, ?_, ?_⟩, l, rfl, hon, rfl⟩
    · have hi2 : (s.i2 + 1).toNat = s.i2.toNat + 1 := toNat_index (k := 1) (by omega)
      simp only [Utf8Buffers.next]
      rw [hi2, toNat_index (by omega)]
      omega
    · simp only [Utf8Buffers.next, List.length_set]
      exact h.capacity

end

/-! ## Whole runs -/

section

variable {string : List Byte} {tail : ℕ → Byte} {ucs2Data : List (BitVec 16)} {turns : ℕ}
  {s : Utf8Buffers}

/-- Before the first turn all indices are within. -/
theorem within_start (hcapacity : ucs2Data.length = string.length + 1) :
    Utf8Buffers.Within string tail ⟨0, 0, ucs2Data⟩ := ⟨.start, Nat.le_refl _, hcapacity⟩

/-- They stay within as long as the loop goes on. -/
theorem within_of_run (hsize : string.length < 2 ^ 32 - 3)
    (hcapacity : ucs2Data.length = string.length + 1)
    (h : utf8ToUcs2Checked turns (string ++ [0]) ucs2Data = .inl s) : s.Within string tail :=
  DoWhile.invariant_of_run_eq_inl (within_start hcapacity)
    (fun _ _ _ hs hturn => (hs.turn hsize hturn).1) h

/-- The function comes to every position of the scan without leaving its buffers. -/
theorem ScanAt.exists_run_checked (hsize : string.length < 2 ^ 32 - 3)
    (hcapacity : ucs2Data.length = string.length + 1) {i8 : BitVec 32}
    (h : ScanAt (cString string tail) string.length i8) :
    ∃ turns s, utf8ToUcs2Checked turns (string ++ [0]) ucs2Data = .inl s ∧ s.i8 = i8 := by
  induction h with
  | start => exact ⟨0, _, rfl, rfl⟩
  | @next i8 l hscan hlead hon ih =>
    obtain ⟨turns, s, hrun, rfl⟩ := ih
    have hl := length_of_announced hlead
    have hle := hscan.toNat_le
    refine ⟨turns + 1, s.next (cString string tail) l, ?_, rfl⟩
    unfold utf8ToUcs2Checked
    rw [DoWhile.run_succ_of_inl hrun, utf8TurnChecked_eq hsize (within_of_run hsize hcapacity hrun),
      hlead]
    rw [toNat_index (by omega)] at hon
    dsimp only
    rw [if_pos (by omega), toNat_index (by omega), if_pos hon]

/-- The function returns or leaves its buffers. -/
theorem exists_utf8ToUcs2Checked_eq_inr (hsize : string.length < 2 ^ 32 - 3)
    (hcapacity : ucs2Data.length = string.length + 1) :
    ∃ turns r, utf8ToUcs2Checked turns (string ++ [0]) ucs2Data = .inr r := by
  refine ⟨string.length + 1,
    DoWhile.exists_run_eq_inr (μ := fun s => string.length - s.i8.toNat) ?_ ?_⟩
  · intro k s s' hreach hturn
    have hwithin : s.Within string fun _ => 0 := within_of_run hsize hcapacity hreach
    obtain ⟨-, l, hlead, hon, rfl⟩ := hwithin.turn hsize hturn
    have hl := length_of_announced hlead
    have hle := hwithin.scan.toNat_le
    rw [toNat_index (by omega)] at hon
    simp only [Utf8Buffers.next]
    rw [toNat_index (by omega)]
    omega
  · exact Nat.lt_succ_of_le (Nat.sub_le _ _)

/-- The buffers are part of the memory. -/
structure Utf8Buffers.InMemory (s : Utf8Buffers) (t : Utf8State) : Prop where
  i8 : s.i8 = t.i8
  i2 : s.i2 = t.i2
  ucs2Data : ∀ j, j < s.ucs2Data.length → s.ucs2Data[j]? = some (t.ucs2Data j)

/-- A turn on the buffers is one on the memory that they are in. -/
theorem Utf8Buffers.InMemory.next {t : Utf8State} (h : s.InMemory t) (utf8Data : ℕ → Byte)
    (l : ℕ) : (s.next utf8Data l).InMemory (t.next utf8Data l) := by
  refine ⟨by simp only [Utf8Buffers.next, Utf8State.next, h.i8],
    by simp only [Utf8Buffers.next, Utf8State.next, h.i2], fun j hj => ?_⟩
  simp only [Utf8Buffers.next, List.length_set] at hj
  simp only [Utf8Buffers.next, Utf8State.next, ← h.i8, ← h.i2]
  by_cases hj2 : j = s.i2.toNat
  · rw [← hj2, Function.update_self, List.getElem?_set_self hj]
  · rw [Function.update_of_ne hj2, List.getElem?_set_ne (Ne.symm hj2), h.ucs2Data j hj]

/-- What the function does on the buffers it does in any memory that they are part of. -/
theorem utf8ToUcs2_of_checked (hsize : string.length < 2 ^ 32 - 3)
    (hcapacity : ucs2Data.length = string.length + 1) {init : ℕ → BitVec 16}
    (hinit : ∀ j, j < ucs2Data.length → ucs2Data[j]? = some (init j)) {failed : ℤ}
    {output : List (BitVec 16)}
    (h : utf8ToUcs2Checked turns (string ++ [0]) ucs2Data = .inr (some (failed, output))) :
    ∃ turns u, utf8ToUcs2 turns (cString string tail) (BitVec.ofNat 64 (string.length + 1)) init
        = .inr (failed, u) ∧ ∀ j, j < output.length → output[j]? = some (u j) := by
  have hsize' : string.length + 1 < 2 ^ 64 := by omega
  obtain ⟨k, s, hreach, hturn⟩ := DoWhile.exists_of_run_eq_inr h
  have hstart : Utf8Buffers.Within string tail ⟨0, 0, ucs2Data⟩ ∧
      Utf8Buffers.InMemory ⟨0, 0, ucs2Data⟩ ⟨0, 0, init⟩ :=
    ⟨within_start hcapacity, rfl, rfl, hinit⟩
  -- Turn by turn, the run over memory is in the state that the buffers show.
  obtain ⟨t, ht, hwithin, hmemory⟩ := DoWhile.exists_run_eq_inl_of_sim
    (utf8Turn (cString string tail) (BitVec.ofNat 64 (string.length + 1)))
    (R := fun s t => s.Within string tail ∧ s.InMemory t)
    (fun k s₁ s₂ t₁ ⟨hwithin, hmemory⟩ hon => by
      obtain ⟨hwithin', l, hlead, hlt, rfl⟩ := hwithin.turn hsize hon
      rw [hmemory.i8] at hlead hlt
      exact ⟨t₁.next (cString string tail) l,
        (utf8Turn_eq_inl_iff hsize').mpr ⟨l, hlead, hlt, rfl⟩, hwithin', hmemory.next _ l⟩)
    hstart hreach
  refine ⟨k + 1, ?_⟩
  unfold utf8ToUcs2
  rw [DoWhile.run_succ_of_inl ht]
  simp only [utf8Turn_eq_inr_iff hsize']
  -- The last turn: it gives up, or ends at the terminator.
  rw [utf8TurnChecked_eq hsize hwithin] at hturn
  cases hlead : announced (cString string tail s.i8.toNat) with
  | none =>
    rw [hlead] at hturn
    obtain ⟨rfl, rfl⟩ := Prod.mk.inj (Option.some.inj (Sum.inr.inj hturn))
    rw [hmemory.i8] at hlead
    exact ⟨t.ucs2Data, .inl ⟨hlead, rfl⟩, hmemory.ucs2Data⟩
  | some l =>
    rw [hlead] at hturn
    dsimp only at hturn
    split_ifs at hturn with hinside hon
    · obtain ⟨rfl, rfl⟩ := Prod.mk.inj (Option.some.inj (Sum.inr.inj hturn))
      rw [hmemory.i8] at hlead hon
      exact ⟨_, .inr ⟨l, hlead, Nat.le_of_not_lt hon, rfl⟩, (hmemory.next _ l).ucs2Data⟩
    · cases hturn

end

/-- The function returns without leaving its buffers, unless the scan comes to the last byte before
the terminator and this is the lead byte of a character of three bytes; then it reads behind the
terminator. -/
theorem utf8ToUcs2Checked_eq_inr_iff (string : List Byte) (tail : ℕ → Byte)
    (ucs2Data : List (BitVec 16)) (hsize : string.length + 1 < 2 ^ 32 - 4)
    (hcapacity : ucs2Data.length = string.length + 1) :
    (∃ turns r, utf8ToUcs2Checked turns (string ++ [0]) ucs2Data = .inr (some r)) ↔
      ¬∃ i8, ScanAt (cString string tail) string.length i8 ∧ i8.toNat + 1 = string.length ∧
        cString string tail i8.toNat &&& 0xF0 = 0xE0 := by
  have hsize' : string.length < 2 ^ 32 - 3 := by omega
  have hthree : ∀ lead : Byte, announced lead = some 3 ↔ lead &&& 0xF0 = 0xE0 := by decide
  constructor
  · rintro ⟨turns, r, hrun⟩ ⟨i8, hscan, hlast, hlead⟩
    rw [← hthree] at hlead
    obtain ⟨k, s, hreach, rfl⟩ := hscan.exists_run_checked hsize' hcapacity
    have hwithin : s.Within string tail := within_of_run hsize' hcapacity hreach
    have hfault : utf8ToUcs2Checked (k + 1) (string ++ [0]) ucs2Data = .inr none := by
      unfold utf8ToUcs2Checked
      rw [DoWhile.run_succ_of_inl hreach, utf8TurnChecked_eq hsize' hwithin, hlead]
      dsimp only
      rw [if_neg (by omega)]
    cases DoWhile.result_unique hrun hfault
  · intro hnot
    obtain ⟨turns, r, hrun⟩ := exists_utf8ToUcs2Checked_eq_inr hsize' hcapacity
    refine ⟨turns, ?_⟩
    cases r with
    | some r => exact ⟨r, hrun⟩
    | none =>
      obtain ⟨k, s, hreach, hturn⟩ := DoWhile.exists_of_run_eq_inr hrun
      have hwithin : s.Within string tail := within_of_run hsize' hcapacity hreach
      obtain ⟨hlast, hlead⟩ := last_of_leaves hsize' hwithin hturn
      exact absurd ⟨s.i8, hwithin.scan, hlast, (hthree _).mp hlead⟩ hnot

/-- A string of one letter. -/
theorem utf8ToUcs2Checked_eq_inr_iff_letter :
    ([0x61] : List Byte).length + 1 < 2 ^ 32 - 4 ∧
    ((∃ turns r, utf8ToUcs2Checked turns [0x61, 0] [0, 0] = .inr (some r)) ↔
      ¬∃ i8, ScanAt (cString [0x61] fun _ => 0) 1 i8 ∧ i8.toNat + 1 = 1 ∧
        cString [0x61] (fun _ => 0) i8.toNat &&& 0xF0 = 0xE0) :=
  ⟨by decide, utf8ToUcs2Checked_eq_inr_iff [0x61] (fun _ => 0) [0, 0] (by decide) rfl⟩

/-- The lead byte of a character of three bytes alone. -/
theorem utf8ToUcs2Checked_truncated :
    ¬∃ turns r, utf8ToUcs2Checked turns [0xE1, 0] [0, 0] = .inr (some r) := by
  rintro ⟨turns, r, hrun⟩
  have hfault : utf8ToUcs2Checked 1 [0xE1, 0] [0, 0] = .inr none := rfl
  cases DoWhile.result_unique hrun hfault

end BrilloBoot
