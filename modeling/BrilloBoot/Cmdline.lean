import BrilloBoot.BootKernel
import BrilloBoot.Lib.DoWhile
import Mathlib.Logic.Function.Basic

/-!
# Copying the command line

The loop of `LoadParameters` in memory: what stands behind the command line of the header is there
too, and so is what stands behind the buffer of the options. The loop looks for a NUL and at nothing
else. With one among the 512 bytes of the command line it does what `loadParameters` says
(`copyParameters_of_loadParameters`); without one it goes on into the next fields of the header
(`copiesCmdline_iff`).
-/

namespace BrilloBoot

/-- The memory from the command line of a header on. -/
def cmdlineMemory (header : Bytes 1632) (behind : ℕ → Byte) (i : ℕ) : Byte :=
  header.toList.getD (64 + i) (behind i)

/-- The state of the loop of `LoadParameters`, between its turns. -/
structure OptionsState where
  i : BitVec 32
  loadOptions : ℕ → BitVec 16

/-- One turn of the loop, which reads `cmdline[i]` and writes `LoadOptions[i]`: on, or out with
`LoadOptions` and `LoadOptionsSize`. -/
def copyTurn (cmdline : ℕ → Byte) (_ : ℕ) (s : OptionsState) :
    OptionsState ⊕ ((ℕ → BitVec 16) × BitVec 32) :=
  let c := cmdline s.i.toNat
  if c ≠ 0 then .inl ⟨s.i + 1, Function.update s.loadOptions s.i.toNat (c.setWidth 16)⟩
  else
    let loadOptions := Function.update s.loadOptions s.i.toNat 0
    .inr (loadOptions, (s.i.setWidth 64 * 2).setWidth 32)

/-- `LoadParameters` after its calls of the firmware, for a number of turns. -/
def copyParameters (turns : ℕ) (cmdline : ℕ → Byte) (pool : ℕ → BitVec 16) :
    OptionsState ⊕ ((ℕ → BitVec 16) × BitVec 32) :=
  DoWhile.run (copyTurn cmdline) ⟨0, pool⟩ turns

/-! ## The loop -/

section

variable {cmdline : ℕ → Byte} {pool : ℕ → BitVec 16} {n : ℕ}

/-- `LoadOptions` with the first `n` characters copied. -/
def copied (cmdline : ℕ → Byte) (pool : ℕ → BitVec 16) (n j : ℕ) : BitVec 16 :=
  if j < n then (cmdline j).setWidth 16 else pool j

/-- One more unit. -/
theorem copied_succ : Function.update (copied cmdline pool n) n ((cmdline n).setWidth 16)
    = copied cmdline pool (n + 1) := by
  funext j
  unfold copied
  rcases Nat.lt_trichotomy j n with hlt | rfl | hlt
  · rw [Function.update_of_ne (Nat.ne_of_lt hlt), if_pos hlt, if_pos (by omega)]
  · rw [Function.update_self, if_pos (Nat.lt_succ_self j)]
  · rw [Function.update_of_ne (Nat.ne_of_gt hlt), if_neg (by omega), if_neg (by omega)]

/-- The loop copies as long as there is no NUL. -/
theorem copyParameters_eq_inl (hn : n < 2 ^ 32) (hbefore : ∀ j, j < n → cmdline j ≠ 0) :
    copyParameters n cmdline pool = .inl ⟨BitVec.ofNat 32 n, copied cmdline pool n⟩ := by
  induction n with
  | zero => rfl
  | succ n ih =>
    have hprefix := ih (by omega) fun j hj => hbefore j (by omega)
    have hi : (BitVec.ofNat 32 n).toNat = n := by
      rw [BitVec.toNat_ofNat, Nat.mod_eq_of_lt (by omega)]
    unfold copyParameters at hprefix ⊢
    rw [DoWhile.run_succ_of_inl hprefix]
    simp only [copyTurn, hi, if_pos (hbefore n (Nat.lt_succ_self n)), copied_succ]
    rw [BitVec.ofNat_add]
    rfl

/-- At the first NUL the loop ends the copy with one. -/
theorem copyParameters_eq_inr (hn : n < 2 ^ 32) (hbefore : ∀ j, j < n → cmdline j ≠ 0)
    (hnul : cmdline n = 0) :
    copyParameters (n + 1) cmdline pool
      = .inr (Function.update (copied cmdline pool n) n 0, BitVec.ofNat 32 (n * 2)) := by
  have hprefix : copyParameters n cmdline pool = .inl ⟨BitVec.ofNat 32 n, copied cmdline pool n⟩ :=
    copyParameters_eq_inl hn hbefore
  have hi : (BitVec.ofNat 32 n).toNat = n := by
    rw [BitVec.toNat_ofNat, Nat.mod_eq_of_lt hn]
  have hsize : ((BitVec.ofNat 32 n).setWidth 64 * 2).setWidth 32 = BitVec.ofNat 32 (n * 2) := by
    apply BitVec.eq_of_toNat_eq
    simp
  unfold copyParameters at hprefix ⊢
  rw [DoWhile.run_succ_of_inl hprefix]
  simp only [copyTurn, hi, hnul, ne_eq, not_true_eq_false, if_false, hsize]

end

/-! ## The header -/

section

variable {header : Bytes 1632} {behind : ℕ → Byte} {pool : ℕ → BitVec 16}

/-- The command line comes first in that memory. -/
theorem cmdlineMemory_of_lt {i : ℕ} (hi : i < 512) :
    cmdlineMemory header behind i = (BootImgHdr.ofBytes header).cmdline[i] := by
  have hlen : 64 + i < header.toList.length := by
    rw [header.length_toList]
    omega
  unfold cmdlineMemory
  rw [Bytes.getElem_eq]
  simp only [BootImgHdr.ofBytes, Bytes.sub, List.getElem_take, List.getElem_drop]
  rw [List.getD_eq_getElem?_getD, List.getElem?_eq_getElem hlen, Option.getD_some]

/-- There is a NUL in the command line when the memory has one among its first bytes. -/
theorem zero_mem_cmdline_iff (header : Bytes 1632) (behind : ℕ → Byte) :
    0 ∈ (BootImgHdr.ofBytes header).cmdline.toList ↔
      ∃ i, i < 512 ∧ cmdlineMemory header behind i = 0 := by
  rw [List.mem_iff_getElem]
  constructor
  · rintro ⟨i, hi, hnul⟩
    rw [Bytes.length_toList] at hi
    refine ⟨i, hi, ?_⟩
    rw [cmdlineMemory_of_lt hi]
    exact hnul
  · rintro ⟨i, hi, hnul⟩
    rw [cmdlineMemory_of_lt hi] at hnul
    exact ⟨i, by rwa [Bytes.length_toList], hnul⟩

/-- The copy of a byte string ends at its first NUL. -/
theorem copyCmdline_eq_some {cmdline : List Byte} {string : List (BitVec 16)}
    (h : copyCmdline cmdline = some string) :
    ∃ n, ∃ hn : n < cmdline.length, cmdline[n] = 0 ∧ (∀ j (hj : j < n), cmdline[j] ≠ 0) ∧
      string = (cmdline.take n).map (BitVec.setWidth 16) := by
  induction cmdline generalizing string with
  | nil => cases h
  | cons c cmdline ih =>
    unfold copyCmdline at h
    by_cases hc : c = 0
    · rw [if_pos hc] at h
      obtain rfl := Option.some.inj h
      exact ⟨0, Nat.succ_pos _, hc, fun j hj => absurd hj (Nat.not_lt_zero j), rfl⟩
    · rw [if_neg hc] at h
      obtain ⟨rest, hrest, rfl⟩ := Option.map_eq_some_iff.mp h
      obtain ⟨n, hn, hnul, hbefore, rfl⟩ := ih hrest
      refine ⟨n + 1, Nat.succ_lt_succ hn, hnul, fun j hj => ?_, rfl⟩
      cases j with
      | zero => exact hc
      | succ j => exact hbefore j (Nat.lt_of_succ_lt_succ hj)

/-- Where `loadParameters` has a result, the loop in memory leaves the same string and size. -/
theorem copyParameters_of_loadParameters {loadOptions : List (BitVec 16)} {size : BitVec 32}
    (h : loadParameters (.ofBytes header) = some (loadOptions, size)) :
    ∃ turns options,
      copyParameters turns (cmdlineMemory header behind) pool = .inr (options, size) ∧
      ∀ k, k < loadOptions.length → loadOptions[k]? = some (options k) := by
  obtain ⟨string, hstring, hresult⟩ := Option.map_eq_some_iff.mp h
  obtain ⟨rfl, rfl⟩ := Prod.mk.inj hresult
  -- The loop inside the header has stopped at its first NUL, and so does the one in memory.
  obtain ⟨n, hn, hnul, hbefore, rfl⟩ := copyCmdline_eq_some hstring
  rw [Bytes.length_toList] at hn
  have hmemory : ∀ j (hj : j < 512), cmdlineMemory header behind j
      = (BootImgHdr.ofBytes header).cmdline.toList.get ⟨j, by rwa [Bytes.length_toList]⟩ :=
    fun j hj => cmdlineMemory_of_lt hj
  have hrun : copyParameters (n + 1) (cmdlineMemory header behind) pool
      = .inr (Function.update (copied (cmdlineMemory header behind) pool n) n 0,
        BitVec.ofNat 32 (n * 2)) := by
    refine copyParameters_eq_inr (by omega) (fun j hj => ?_) ?_
    · rw [hmemory j (by omega)]
      exact hbefore j hj
    · rw [hmemory n hn]
      exact hnul
  have hlength : (((BootImgHdr.ofBytes header).cmdline.toList.take n).map
      (BitVec.setWidth 16)).length = n := by
    rw [List.length_map, List.length_take, Bytes.length_toList]
    omega
  refine ⟨n + 1, Function.update (copied (cmdlineMemory header behind) pool n) n 0, ?_,
    fun k hk => ?_⟩
  · rw [hrun, hlength]
  · rw [List.length_append, hlength, List.length_singleton] at hk
    rcases Nat.lt_or_eq_of_le (Nat.le_of_lt_succ hk) with hlt | rfl
    · have hget : (BootImgHdr.ofBytes header).cmdline.toList[k]?
          = some (cmdlineMemory header behind k) := by
        rw [hmemory k (by omega)]
        exact List.getElem?_eq_getElem _
      rw [List.getElem?_append_left (by rwa [hlength]), List.getElem?_map,
        List.getElem?_take_of_lt hlt, hget, Function.update_of_ne (Nat.ne_of_lt hlt), copied,
        if_pos hlt]
      rfl
    · rw [List.getElem?_append_right (by rw [hlength]), hlength, Nat.sub_self,
        Function.update_self]
      rfl

end

/-! ## The buffer -/

/-- The copy of a command line stays inside it and inside `LoadOptions`: every turn, which reads and
writes at one index, does so below 512. It ends, with the bytes up to the first NUL, or as many as
fit, a terminator, and twice their number. -/
structure CopiesCmdline (header : Bytes 1632) (behind : ℕ → Byte) (pool : ℕ → BitVec 16) :
    Prop where
  inside : ∀ turns s,
    copyParameters turns (cmdlineMemory header behind) pool = .inl s → s.i.toNat < 512
  copies : ∃ turns loadOptions loadOptionsSize n,
    copyParameters turns (cmdlineMemory header behind) pool = .inr (loadOptions, loadOptionsSize) ∧
    n < 512 ∧ (∀ j, j < n → cmdlineMemory header behind j ≠ 0) ∧
    (cmdlineMemory header behind n = 0 ∨ n = 511) ∧
    (∀ j, j < n → loadOptions j = (cmdlineMemory header behind j).setWidth 16) ∧
    loadOptions n = 0 ∧ loadOptionsSize.toNat = 2 * n

/-- The copy is right exactly when there is a NUL among the 512 bytes of the command line. -/
theorem copiesCmdline_iff (header : Bytes 1632) (behind : ℕ → Byte) (pool : ℕ → BitVec 16) :
    CopiesCmdline header behind pool ↔ 0 ∈ (BootImgHdr.ofBytes header).cmdline.toList := by
  rw [zero_mem_cmdline_iff header behind]
  constructor
  · intro h
    -- Without a NUL, the state after 512 turns is at index 512, outside the array.
    by_contra hnot
    have hbefore : ∀ j, j < 512 → cmdlineMemory header behind j ≠ 0 :=
      fun j hj hnul => hnot ⟨j, hj, hnul⟩
    have hrun : copyParameters 512 (cmdlineMemory header behind) pool = .inl _ :=
      copyParameters_eq_inl (by decide) hbefore
    exact Nat.lt_irrefl 512 (h.inside 512 _ hrun)
  · intro hex
    -- The loop ends at the first NUL.
    obtain ⟨hlt, hnul⟩ := Nat.find_spec hex
    have hbefore : ∀ j, j < Nat.find hex → cmdlineMemory header behind j ≠ 0 :=
      fun j hj hzero => Nat.find_min hex hj ⟨by omega, hzero⟩
    generalize Nat.find hex = n at hlt hnul hbefore
    have hrun : copyParameters (n + 1) (cmdlineMemory header behind) pool = .inr _ :=
      copyParameters_eq_inr (by omega) hbefore hnul
    refine ⟨fun turns s hs => ?_, n + 1, _, _, n, hrun, hlt, hbefore, .inl hnul, fun j hj => ?_, ?_,
      ?_⟩
    · -- The turns before the last are those of the copied characters.
      have hturns : turns ≤ n := by
        by_contra hge
        have hresult := DoWhile.run_of_le hrun (show n + 1 ≤ turns by omega)
        cases hs.symm.trans hresult
      have hstate : copyParameters turns (cmdlineMemory header behind) pool = .inl _ :=
        copyParameters_eq_inl (by omega) fun j hj => hbefore j (by omega)
      obtain rfl := Sum.inl.inj (hs.symm.trans hstate)
      rw [BitVec.toNat_ofNat, Nat.mod_eq_of_lt (by omega)]
      omega
    · rw [Function.update_of_ne (Nat.ne_of_lt hj), copied, if_pos hj]
    · rw [Function.update_self]
    · rw [BitVec.toNat_ofNat, Nat.mod_eq_of_lt (by omega), Nat.mul_comm]

/-- A header with the magic of a boot image, empty otherwise but for a command line of 512
letters. -/
def lettersHeader : Bytes 1632 :=
  ⟨(bootMagic.toList ++ List.replicate 56 0) ++
    (List.replicate 512 0x61 ++ List.replicate 1056 0), by
    simp only [List.length_append, Bytes.length_toList, List.length_replicate]⟩

/-- The copy of a command line of 512 letters goes on behind it. -/
theorem letters_not_copiesCmdline : ¬CopiesCmdline lettersHeader (fun _ => 0) fun _ => 0 := by
  intro h
  have hletters : ∀ j, j < 512 → cmdlineMemory lettersHeader (fun _ => 0) j ≠ 0 := by
    intro j hj
    have hfront : (bootMagic.toList ++ List.replicate 56 (0 : Byte)).length ≤ 64 + j := by
      rw [List.length_append, Bytes.length_toList, List.length_replicate]
      omega
    have hletter : 64 + j - (bootMagic.toList ++ List.replicate 56 (0 : Byte)).length = j := by
      rw [List.length_append, Bytes.length_toList, List.length_replicate]
      omega
    unfold cmdlineMemory lettersHeader
    rw [List.getD_eq_getElem?_getD, List.getElem?_append_right hfront, hletter,
      List.getElem?_append_left (by rw [List.length_replicate]; exact hj),
      List.getElem?_replicate_of_lt hj, Option.getD_some]
    decide
  exact Nat.lt_irrefl 512 (h.inside 512 _ (copyParameters_eq_inl (by decide) hletters))

end BrilloBoot
