import BrilloBoot.Lib.Utf8
import BrilloBoot.Utf8

/-!
# The scan of `utf8_to_ucs2`

`utf8_to_ucs2` goes from lead byte to lead byte: the lead byte alone says how many bytes its
character takes (`announced`), and what stands behind it is not looked at. `ScanAt` says which
positions the loop comes to; it is what the states of the loop are at (`scanAt_of_run`,
`ScanAt.exists_run`), and the function returns 0 exactly when the scan ends (`returns_zero_iff`).
-/

namespace BrilloBoot

/-- The number of bytes that a character takes by its lead byte, `none` where the function gives
up. -/
def announced (lead : Byte) : Option ℕ :=
  if lead &&& 0xF8 = 0xF0 then none
  else if lead &&& 0xF0 = 0xE0 then some 3
  else if lead &&& 0xE0 = 0xC0 then some 2
  else if lead >>> 7 = 0 then some 1
  else none

/-- The code unit that the bytes from `i8` on make, for a lead byte that announces so many. -/
def unitAt (utf8Data : ℕ → Byte) (i8 : BitVec 32) (length : ℕ) : BitVec 16 :=
  let byte (k : BitVec 32) : BitVec 16 := (utf8Data (i8 + k).toNat).setWidth 16
  match length with
  | 3 => (byte 0 <<< 12) ||| ((byte 1 <<< 6) &&& 0x0FC0) ||| (byte 2 &&& 0x003F)
  | 2 => ((byte 0 <<< 6) &&& 0x07C0) ||| (byte 1 &&& 0x003F)
  | _ => byte 0 &&& 0x00FF

/-! ## One unit -/

section

variable {utf8Data : ℕ → Byte} {i8 : BitVec 32}

/-- A lead byte announces one to three bytes. -/
theorem length_of_announced {lead : Byte} {l : ℕ} (h : announced lead = some l) :
    1 ≤ l ∧ l ≤ 3 := by
  unfold announced at h
  split_ifs at h
  all_goals
    obtain rfl := Option.some.inj h
    decide

/-- The tests on the word of the lead byte are tests on the lead byte. -/
theorem tests_of_lead : ∀ lead : Byte,
    (lead.setWidth 16 &&& 0xF8 = 0xF0 ↔ lead &&& 0xF8 = 0xF0) ∧
    (lead.setWidth 16 &&& 0xF0 = 0xE0 ↔ lead &&& 0xF0 = 0xE0) ∧
    (lead.setWidth 16 &&& 0xE0 = 0xC0 ↔ lead &&& 0xE0 = 0xC0) ∧
    (lead.setWidth 16 >>> 7 = 0 ↔ lead >>> 7 = 0) := by
  decide +kernel

/-- The lead byte alone decides how the function goes on. -/
theorem utf8Unit_eq : utf8Unit utf8Data i8 = (announced (utf8Data i8.toNat)).map fun l =>
    (unitAt utf8Data i8 l, BitVec.ofNat 32 l) := by
  obtain ⟨hfour, hthree, htwo, hone⟩ := tests_of_lead (utf8Data i8.toNat)
  have hlead : i8 + 0 = i8 := BitVec.add_zero i8
  unfold utf8Unit announced
  simp only [hlead, hfour, hthree, htwo, hone]
  split_ifs
  all_goals
    simp only [Option.map_none, Option.map_some, unitAt, hlead]
    try rfl

/-- The counter has room for the index. -/
theorem toNat_index {k : ℕ} (h : i8.toNat + k < 2 ^ 32) :
    (i8 + BitVec.ofNat 32 k).toNat = i8.toNat + k := by
  rw [BitVec.toNat_add, BitVec.toNat_ofNat]
  omega

/-- From `i8` on the memory holds the bytes. -/
def HoldsAt (utf8Data : ℕ → Byte) (i8 : BitVec 32) (bytes : List Byte) : Prop :=
  ∀ k b, bytes[k]? = some b → utf8Data (i8 + BitVec.ofNat 32 k).toNat = b

/-- The first of the bytes. -/
theorem HoldsAt.lead {b : Byte} {bytes : List Byte} (h : HoldsAt utf8Data i8 (b :: bytes)) :
    utf8Data i8.toNat = b := by
  have hzero := h 0 b rfl
  rwa [BitVec.add_zero] at hzero

/-- The lead byte of a scalar value of the basic plane announces its bytes, which make its unit. -/
theorem unit_of_holdsAt {bytes : List Byte} {u : BitVec 16} (hshape : Utf8.Shape bytes u)
    (h : HoldsAt utf8Data i8 bytes) :
    announced (utf8Data i8.toNat) = some bytes.length ∧ unitAt utf8Data i8 bytes.length = u := by
  have hbyte : i8 + 0 = i8 := BitVec.add_zero i8
  -- By the length of the shape: the masks and shifts put the bits of each byte in their place.
  cases hshape with
  | one x =>
    have hannounced : ∀ x : BitVec 7, announced (0#1 ++ x) = some 1 := by decide
    have hunit : ∀ x : BitVec 7, (0#1 ++ x : Byte).setWidth 16 &&& 0x00FF = 0#9 ++ x := by decide
    refine ⟨by rw [h.lead, hannounced]; rfl, ?_⟩
    simp only [List.length_cons, List.length_nil, unitAt, hbyte, h.lead, hunit]
  | two x y hshort =>
    have hannounced : ∀ x : BitVec 5, announced (6#3 ++ x) = some 2 := by decide
    have hfirst : ∀ x : BitVec 5,
        (6#3 ++ x : Byte).setWidth 16 <<< 6 &&& 0x07C0 = 0#5 ++ x ++ 0#6 := by decide
    have hsecond : ∀ y : BitVec 6,
        (2#2 ++ y : Byte).setWidth 16 &&& 0x003F = 0#5 ++ 0#5 ++ y := by decide
    have hnext : utf8Data (i8 + 1).toNat = 2#2 ++ y := h 1 _ rfl
    refine ⟨by rw [h.lead, hannounced]; rfl, ?_⟩
    simp only [List.length_cons, List.length_nil, unitAt]
    rw [hbyte, h.lead, hnext, hfirst, hsecond, BitVec.or_append, BitVec.or_append, BitVec.or_zero,
      BitVec.or_zero, BitVec.zero_or]
  | three x y z hshort hscalar =>
    have hannounced : ∀ x : BitVec 4, announced (14#4 ++ x) = some 3 := by decide
    have hfirst : ∀ x : BitVec 4, (14#4 ++ x : Byte).setWidth 16 <<< 12 = x ++ 0#6 ++ 0#6 := by
      decide
    have hsecond : ∀ y : BitVec 6,
        (2#2 ++ y : Byte).setWidth 16 <<< 6 &&& 0x0FC0 = 0#4 ++ y ++ 0#6 := by decide
    have hthird : ∀ z : BitVec 6,
        (2#2 ++ z : Byte).setWidth 16 &&& 0x003F = 0#4 ++ 0#6 ++ z := by decide
    have hnext : utf8Data (i8 + 1).toNat = 2#2 ++ y := h 1 _ rfl
    have hlast : utf8Data (i8 + 2).toNat = 2#2 ++ z := h 2 _ rfl
    refine ⟨by rw [h.lead, hannounced]; rfl, ?_⟩
    simp only [List.length_cons, List.length_nil, unitAt]
    rw [hbyte, h.lead, hnext, hlast, hfirst, hsecond, hthird, BitVec.or_append, BitVec.or_append,
      BitVec.or_append, BitVec.or_append, BitVec.or_zero, BitVec.or_zero, BitVec.or_zero,
      BitVec.zero_or, BitVec.zero_or, BitVec.zero_or]

end

/-! ## One turn -/

section

variable {utf8Data : ℕ → Byte} {n k : ℕ} {s s' : Utf8State} {r : ℤ × (ℕ → BitVec 16)}

/-- The state after the turn at a lead byte that announces so many bytes. -/
def Utf8State.next (utf8Data : ℕ → Byte) (s : Utf8State) (l : ℕ) : Utf8State :=
  ⟨s.i8 + BitVec.ofNat 32 l, s.i2 + 1,
    Function.update s.ucs2Data s.i2.toNat (unitAt utf8Data s.i8 l)⟩

/-- A turn by its lead byte. -/
theorem utf8Turn_eq : utf8Turn utf8Data (BitVec.ofNat 64 (n + 1)) k s =
    match announced (utf8Data s.i8.toNat) with
    | none => .inr (1, s.ucs2Data)
    | some l =>
      if (s.next utf8Data l).i8.setWidth 64 < BitVec.ofNat 64 (n + 1) - 1 then
        .inl (s.next utf8Data l)
      else .inr (0, (s.next utf8Data l).ucs2Data) := by
  unfold utf8Turn
  rw [utf8Unit_eq]
  cases announced (utf8Data s.i8.toNat) <;> rfl

/-- A turn goes on when the lead byte is one that the function takes and its character ends before
the last byte. -/
theorem utf8Turn_eq_inl_iff (hn : n + 1 < 2 ^ 64) :
    utf8Turn utf8Data (BitVec.ofNat 64 (n + 1)) k s = .inl s' ↔
      ∃ l, announced (utf8Data s.i8.toNat) = some l ∧ (s.i8 + BitVec.ofNat 32 l).toNat < n ∧
        s' = s.next utf8Data l := by
  rw [utf8Turn_eq]
  cases announced (utf8Data s.i8.toNat) with
  | none => simp
  | some l =>
    simp only [on_iff hn, Option.some.injEq, exists_eq_left']
    split_ifs with hon
    · rw [Sum.inl.injEq, eq_comm]
      exact ⟨fun h => ⟨hon, h⟩, fun h => h.2⟩
    · exact iff_of_false (by simp) fun h => hon h.1

/-- The other turns leave the loop: at a lead byte that the function does not take, or behind the
last character. -/
theorem utf8Turn_eq_inr_iff (hn : n + 1 < 2 ^ 64) :
    utf8Turn utf8Data (BitVec.ofNat 64 (n + 1)) k s = .inr r ↔
      announced (utf8Data s.i8.toNat) = none ∧ r = (1, s.ucs2Data) ∨
      ∃ l, announced (utf8Data s.i8.toNat) = some l ∧ n ≤ (s.i8 + BitVec.ofNat 32 l).toNat ∧
        r = (0, (s.next utf8Data l).ucs2Data) := by
  rw [utf8Turn_eq]
  cases announced (utf8Data s.i8.toNat) with
  | none => simp [eq_comm]
  | some l =>
    simp only [on_iff hn, Option.some.injEq, exists_eq_left']
    split_ifs with hon
    · exact iff_of_false (by simp) fun h => by
        rcases h with ⟨h, -⟩ | ⟨h, -⟩
        · cases h
        · exact absurd hon (Nat.not_lt.mpr h)
    · rw [Sum.inr.injEq, eq_comm]
      exact ⟨fun h => .inr ⟨Nat.le_of_not_lt hon, h⟩, fun h => by
        rcases h with ⟨h, -⟩ | ⟨-, h⟩
        · cases h
        · exact h⟩

end

/-! ## The scan -/

section

variable {utf8Data : ℕ → Byte} {n : ℕ}

/-- The positions that the function looks for a lead byte at, in a string of `n` bytes. The index
has 32 bits. -/
inductive ScanAt (utf8Data : ℕ → Byte) (n : ℕ) : BitVec 32 → Prop
  | start : ScanAt utf8Data n 0
  | next {i8 : BitVec 32} {l : ℕ} (h : ScanAt utf8Data n i8)
      (hlead : announced (utf8Data i8.toNat) = some l)
      (hon : (i8 + BitVec.ofNat 32 l).toNat < n) : ScanAt utf8Data n (i8 + BitVec.ofNat 32 l)

/-- The scan comes to a character that is the last, by its lead byte. -/
def ScanEnds (utf8Data : ℕ → Byte) (n : ℕ) : Prop :=
  ∃ i8 l, ScanAt utf8Data n i8 ∧ announced (utf8Data i8.toNat) = some l ∧
    n ≤ (i8 + BitVec.ofNat 32 l).toNat

/-- The scan comes to a lead byte that the function does not take. -/
def ScanFails (utf8Data : ℕ → Byte) (n : ℕ) : Prop :=
  ∃ i8, ScanAt utf8Data n i8 ∧ announced (utf8Data i8.toNat) = none

/-- A position of the scan is one of the string, or the start of the empty string. -/
theorem ScanAt.lt_or_eq_zero {i8 : BitVec 32} (h : ScanAt utf8Data n i8) :
    i8.toNat < n ∨ i8 = 0 ∧ n = 0 := by
  cases h with
  | start => exact (Nat.eq_zero_or_pos n).symm.imp_right fun hn => ⟨rfl, hn⟩
  | next _ _ hon => exact .inl hon

/-- The scan does not pass the end. -/
theorem ScanAt.toNat_le {i8 : BitVec 32} (h : ScanAt utf8Data n i8) : i8.toNat ≤ n := by
  rcases h.lt_or_eq_zero with h | ⟨rfl, -⟩
  · exact Nat.le_of_lt h
  · exact Nat.zero_le n

variable {turns : ℕ} {s : Utf8State} {init ucs2Data : ℕ → BitVec 16}

/-- The loop is always at a position of the scan. -/
theorem scanAt_of_run (hn : n + 1 < 2 ^ 64)
    (h : utf8ToUcs2 turns utf8Data (BitVec.ofNat 64 (n + 1)) init = .inl s) :
    ScanAt utf8Data n s.i8 := by
  refine DoWhile.invariant_of_run_eq_inl (P := fun s => ScanAt utf8Data n s.i8) .start
    (fun k s₁ s₂ hscan hturn => ?_) h
  obtain ⟨l, hlead, hon, rfl⟩ := (utf8Turn_eq_inl_iff hn).mp hturn
  exact hscan.next hlead hon

/-- The loop comes to every position of the scan. -/
theorem ScanAt.exists_run (hn : n + 1 < 2 ^ 64) (init : ℕ → BitVec 16) {i8 : BitVec 32}
    (h : ScanAt utf8Data n i8) :
    ∃ turns s, utf8ToUcs2 turns utf8Data (BitVec.ofNat 64 (n + 1)) init = .inl s ∧ s.i8 = i8 := by
  induction h with
  | start => exact ⟨0, _, rfl, rfl⟩
  | @next i8 l _ hlead hon ih =>
    obtain ⟨turns, s, hrun, rfl⟩ := ih
    refine ⟨turns + 1, s.next utf8Data l, ?_, rfl⟩
    unfold utf8ToUcs2
    rw [DoWhile.run_succ_of_inl hrun]
    exact (utf8Turn_eq_inl_iff hn).mpr ⟨l, hlead, hon, rfl⟩

/-- The function returns 0 when the scan ends, and then only. -/
theorem returns_zero_iff (hn : n + 1 < 2 ^ 64) (init : ℕ → BitVec 16) :
    (∃ turns ucs2Data, utf8ToUcs2 turns utf8Data (BitVec.ofNat 64 (n + 1)) init
      = .inr (0, ucs2Data)) ↔ ScanEnds utf8Data n := by
  constructor
  · rintro ⟨turns, ucs2Data, hrun⟩
    obtain ⟨k, s, hreach, hturn⟩ := DoWhile.exists_of_run_eq_inr hrun
    rcases (utf8Turn_eq_inr_iff hn).mp hturn with ⟨-, hr⟩ | ⟨l, hlead, hend, -⟩
    · cases hr
    · exact ⟨s.i8, l, scanAt_of_run hn hreach, hlead, hend⟩
  · rintro ⟨i8, l, hscan, hlead, hend⟩
    obtain ⟨turns, s, hrun, rfl⟩ := hscan.exists_run hn init
    refine ⟨turns + 1, (s.next utf8Data l).ucs2Data, ?_⟩
    unfold utf8ToUcs2
    rw [DoWhile.run_succ_of_inl hrun]
    exact (utf8Turn_eq_inr_iff hn).mpr (.inr ⟨l, hlead, hend, rfl⟩)

/-- The function returns when the scan ends or fails, and then only. -/
theorem returns_iff (hn : n + 1 < 2 ^ 64) (init : ℕ → BitVec 16) :
    (∃ turns r, utf8ToUcs2 turns utf8Data (BitVec.ofNat 64 (n + 1)) init = .inr r) ↔
      ScanEnds utf8Data n ∨ ScanFails utf8Data n := by
  constructor
  · rintro ⟨turns, r, hrun⟩
    obtain ⟨k, s, hreach, hturn⟩ := DoWhile.exists_of_run_eq_inr hrun
    rcases (utf8Turn_eq_inr_iff hn).mp hturn with ⟨hlead, -⟩ | ⟨l, hlead, hend, -⟩
    · exact .inr ⟨s.i8, scanAt_of_run hn hreach, hlead⟩
    · exact .inl ⟨s.i8, l, scanAt_of_run hn hreach, hlead, hend⟩
  · rintro (hends | ⟨i8, hscan, hlead⟩)
    · obtain ⟨turns, ucs2Data, hrun⟩ := (returns_zero_iff hn init).mpr hends
      exact ⟨turns, _, hrun⟩
    · obtain ⟨turns, s, hrun, rfl⟩ := hscan.exists_run hn init
      refine ⟨turns + 1, (1, s.ucs2Data), ?_⟩
      unfold utf8ToUcs2
      rw [DoWhile.run_succ_of_inl hrun]
      exact (utf8Turn_eq_inr_iff hn).mpr (.inl ⟨hlead, rfl⟩)

/-- The function returns for strings whose length leaves room in the counter. -/
theorem exists_utf8ToUcs2_eq_inr (hn : n < 2 ^ 32 - 3) (init : ℕ → BitVec 16) :
    ∃ turns r, utf8ToUcs2 turns utf8Data (BitVec.ofNat 64 (n + 1)) init = .inr r := by
  have hsize : n + 1 < 2 ^ 64 := by omega
  refine ⟨n + 1, DoWhile.exists_run_eq_inr (μ := fun s => n - s.i8.toNat) ?_ ?_⟩
  · intro k s s' hreach hturn
    have hle := (scanAt_of_run hsize hreach).toNat_le
    obtain ⟨l, hlead, hon, rfl⟩ := (utf8Turn_eq_inl_iff hsize).mp hturn
    obtain ⟨hpos, hthree⟩ := length_of_announced hlead
    -- The counter does not wrap.
    have hnext : (s.i8 + BitVec.ofNat 32 l).toNat = s.i8.toNat + l := toNat_index (by omega)
    rw [hnext] at hon
    simp only [Utf8State.next, hnext]
    omega
  · simp only [BitVec.ofNat_eq_ofNat, BitVec.toNat_ofNat]
    omega

end

end BrilloBoot
