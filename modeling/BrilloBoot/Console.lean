import BrilloBoot.Lib.Ledger
import BrilloBoot.Utf8Bounds

/-!
# The console

`bub_print` of `bub_sysdeps_uefi.c`, over the buffers of `utf8_to_ucs2`. A message of the basic
plane reaches `Print` as it is, and another one is dropped; the pool of the message is freed in both
cases (`bubPrint_text`). The result of the conversion comes from its run over memory, to which the
run over buffers is tied as long as it does not leave them; and it does not, since the encoding of a
text never ends within a character.

What `Print` gets is its format. The loader gives `bub_print` no text with a `%`; one would make
`Print` look for arguments that there are not.
-/

namespace BrilloBoot

open Utf8 (Basic encode encodeChar unit)

/-- What `bub_print` leaves. -/
structure Printed where
  /-- The format that `Print` gets, if it is called. -/
  format : Option (List (BitVec 16))
  ledger : Ledger

/-- `bub_print`, with so many turns of the loop of `utf8_to_ucs2`. It may not get its pool. There is
no result at an access outside of the buffers. -/
def bubPrint (allocates : Bool) (format : List Byte) (l : Ledger) (turns : ℕ) :
    Utf8Buffers ⊕ Option Printed :=
  if allocates = false then .inr (some ⟨none, l⟩)
  else
    match utf8ToUcs2Checked turns (format ++ [0]) (List.replicate (format.length + 1) 0) with
    | .inl s => .inl s
    | .inr none => .inr none
    | .inr (some (failed, formatUcs2)) =>
      -- `Print(format_ucs2)`, without further arguments.
      let printed := if failed = 0 then some (formatUcs2.takeWhile (· ≠ 0)) else none
      .inr (some ⟨printed, l.alloc.2.free (some l.alloc.1)⟩)

section

variable {format : List Byte} {l : Ledger} {turns : ℕ}

/-- The pool of a message is freed. -/
theorem holds_of_bubPrint {allocates : Bool} {p : Printed}
    (h : bubPrint allocates format l turns = .inr (some p)) : l.Holds p.ledger ∅ 0 0 := by
  unfold bubPrint at h
  split_ifs at h with hnone
  · rw [← Option.some.inj (Sum.inr.inj h)]
    exact .refl l
  · rcases hrun : utf8ToUcs2Checked turns (format ++ [0]) (List.replicate (format.length + 1) 0)
      with s | _ | ⟨failed, formatUcs2⟩
    · rw [hrun] at h
      cases h
    · rw [hrun] at h
      cases h
    · rw [hrun] at h
      rw [← Option.some.inj (Sum.inr.inj h)]
      have hfree := ((Ledger.Holds.refl l).alloc).free (Finset.mem_insert_self _ _)
      rwa [Finset.erase_insert (Finset.notMem_empty _)] at hfree

/-- A turn keeps the length of the output, whether it goes on or ends. -/
theorem length_of_turn {utf8Data : List Byte} {k : ℕ} {s : Utf8Buffers} :
    (∀ s', utf8TurnChecked utf8Data k s = .inl s' → s'.ucs2Data.length = s.ucs2Data.length) ∧
      ∀ failed output, utf8TurnChecked utf8Data k s = .inr (some (failed, output)) →
        output.length = s.ucs2Data.length := by
  unfold utf8TurnChecked
  rcases utf8UnitChecked utf8Data s.i8 with _ | _ | ⟨unit, taken⟩
  · simp
  · simp
  · dsimp only
    split_ifs
    · refine ⟨fun s' h => ?_, by simp⟩
      rw [← Sum.inl.inj h]
      exact List.length_set
    · refine ⟨by simp, fun failed output h => ?_⟩
      obtain ⟨-, rfl⟩ := Prod.mk.inj (Option.some.inj (Sum.inr.inj h))
      exact List.length_set
    · simp

/-- The conversion keeps the length of its output. -/
theorem length_of_checked {utf8Data : List Byte} {ucs2Data output : List (BitVec 16)} {failed : ℤ}
    (h : utf8ToUcs2Checked turns utf8Data ucs2Data = .inr (some (failed, output))) :
    output.length = ucs2Data.length := by
  obtain ⟨k, s, hreach, hturn⟩ := DoWhile.exists_of_run_eq_inr h
  have hlength : s.ucs2Data.length = ucs2Data.length :=
    DoWhile.invariant_of_run_eq_inl (P := fun s => s.ucs2Data.length = ucs2Data.length) rfl
      (fun _ _ _ hs hon => (length_of_turn.1 _ hon).trans hs) hreach
  exact (length_of_turn.2 _ _ hturn).trans hlength

end

section

variable {text : List Char} {turns : ℕ}

/-- The encoding of a text does not end in the middle of a character. -/
theorem exists_checked_encode (hlen : (encode text).length < 2 ^ 32 - 5)
    {ucs2Data : List (BitVec 16)} (hcapacity : ucs2Data.length = (encode text).length + 1) :
    ∃ turns r, utf8ToUcs2Checked turns (encode text ++ [0]) ucs2Data = .inr (some r) := by
  obtain ⟨turns, r, hrun⟩ := exists_utf8ToUcs2Checked_eq_inr (by omega) hcapacity
  refine ⟨turns, ?_⟩
  cases r with
  | some r => exact ⟨r, hrun⟩
  | none =>
    obtain ⟨k, s, hreach, hturn⟩ := DoWhile.exists_of_run_eq_inr hrun
    have hwithin : s.Within (encode text) fun _ => 0 := within_of_run (by omega) hcapacity hreach
    obtain ⟨hlast, hlead⟩ := last_of_leaves (by omega) hwithin hturn
    obtain ⟨turns', t, ht, hi8⟩ := hwithin.scan.exists_run (by omega) (fun _ => 0)
    rw [← hi8] at hlast hlead
    -- The last byte is the lead byte of a whole character.
    rcases spelling_of_run (by omega) ht with ⟨rfl, -⟩ | ⟨front, c, back, htext, hfront⟩
    · cases hlast
    · have hlen' : (encode text).length < 2 ^ 32 := by omega
      by_cases hc : Basic c
      · obtain ⟨hlead', -⟩ := hfront.next (fun _ => 0) hlen' htext hc
        have hthree : (encodeChar c).length = 3 := Option.some.inj (hlead'.symm.trans hlead)
        have htotal : (encode text).length =
            (encode front).length + ((encodeChar c).length + (encode back).length) := by
          rw [htext, Utf8.encode_append, Utf8.encode_cons, List.length_append, List.length_append]
        have hbytes := hfront.bytes
        omega
      · cases (hfront.announced_eq_none _ hlen' htext hc).symm.trans hlead

/-- A cleared buffer with the units of a text in front holds the text as a string. -/
theorem takeWhile_eq_map_unit {output : List (BitVec 16)} (hbasic : ∀ c ∈ text, Basic c)
    (hnul : ∀ c ∈ text, c.toNat ≠ 0) (hlen : text.length ≤ output.length)
    (houtput : ∀ j, j < output.length → output[j]? = some (unitsOver text (fun _ => 0) j)) :
    output.takeWhile (· ≠ 0) = text.map unit := by
  have hsplit : output = text.map unit ++ List.replicate (output.length - text.length) 0 := by
    refine List.ext_getElem? fun j => ?_
    rcases Nat.lt_or_ge j output.length with hj | hj
    · rw [houtput j hj]
      rcases Nat.lt_or_ge j text.length with htext | htext
      · rw [unitsOver_of_lt htext, List.getElem?_append_left (by simpa using htext)]
        simp [htext]
      · rw [unitsOver_of_le htext, List.getElem?_append_right (by simpa using htext)]
        rw [List.getElem?_replicate_of_lt (by rw [List.length_map]; omega)]
    · rw [List.getElem?_eq_none hj, List.getElem?_eq_none (by simp; omega)]
  have hunit : ∀ u ∈ text.map unit, u ≠ 0 := by
    intro u hu
    obtain ⟨c, hc, rfl⟩ := List.mem_map.mp hu
    intro hzero
    have htoNat := Utf8.toNat_unit (hbasic c hc)
    rw [hzero] at htoNat
    exact hnul c hc htoNat.symm
  rw [hsplit, List.takeWhile_append_of_pos (by simpa using hunit)]
  cases output.length - text.length <;> simp [List.replicate_succ]

end

/-- **A message** is the format of `Print`, as it is, if it is of the basic plane and its pool could
be had; otherwise `Print` is not called. The buffers are never left, and the pool is freed in either
case. -/
theorem bubPrint_text (allocates : Bool) (text : List Char) (l : Ledger)
    (hnul : ∀ c ∈ text, c.toNat ≠ 0) (hlen : (encode text).length < 2 ^ 32 - 5) :
    ∃ turns format l', bubPrint allocates (encode text) l turns = .inr (some ⟨format, l'⟩) ∧
      l.Holds l' ∅ 0 0 ∧
      (allocates = true ∧ (∀ c ∈ text, Basic c) ∧ format = some (text.map unit) ∨
        (allocates = false ∨ ∃ c ∈ text, ¬Basic c) ∧ format = none) := by
  cases allocates with
  | false => exact ⟨0, none, l, rfl, .refl l, .inr ⟨.inl rfl, rfl⟩⟩
  | true =>
    have hcapacity : (List.replicate ((encode text).length + 1) (0 : BitVec 16)).length =
        (encode text).length + 1 := List.length_replicate
    obtain ⟨turns, ⟨failed, output⟩, hrun⟩ := exists_checked_encode hlen hcapacity
    have hprint : bubPrint true (encode text) l turns =
        .inr (some ⟨if failed = 0 then some (output.takeWhile (· ≠ 0)) else none,
          l.alloc.2.free (some l.alloc.1)⟩) := by
      unfold bubPrint
      rw [if_neg (by decide), hrun]
    refine ⟨turns, _, _, hprint, holds_of_bubPrint hprint, ?_⟩
    have hcleared : ∀ j, j < (List.replicate ((encode text).length + 1) (0 : BitVec 16)).length →
        (List.replicate ((encode text).length + 1) (0 : BitVec 16))[j]? = some 0 := fun j hj =>
      List.getElem?_replicate_of_lt (hcapacity ▸ hj)
    -- The run over the buffers is one over memory, about which the results on text are.
    obtain ⟨turns', u, hmemory, houtput⟩ : ∃ turns' u,
        utf8ToUcs2 turns' (cString (encode text) fun _ => 0)
          (BitVec.ofNat 64 ((encode text).length + 1)) (fun _ => 0) = .inr (failed, u) ∧
        ∀ j, j < output.length → output[j]? = some (u j) :=
      utf8ToUcs2_of_checked (by omega) hcapacity hcleared hrun
    rcases result_of_utf8ToUcs2_encode (by omega) rfl hmemory with
      ⟨hbasic, hr⟩ | ⟨hother, hr⟩
    · obtain ⟨rfl, rfl⟩ := Prod.mk.inj hr
      have hlength := length_of_checked hrun
      have hle := Utf8.length_le_length_encode text
      rw [if_pos rfl, takeWhile_eq_map_unit hbasic hnul (by omega) houtput]
      exact .inl ⟨rfl, hbasic, rfl⟩
    · obtain rfl : failed = 1 := hr
      exact .inr ⟨.inr hother, rfl⟩

/-- The message `OK`, where nothing was allocated before. -/
theorem bubPrint_ok : ∃ turns l',
    bubPrint true (encode [Char.ofNat 0x4F, Char.ofNat 0x4B]) .empty turns =
      .inr (some ⟨some [0x4F, 0x4B], l'⟩) := by
  have hbasic : ∀ c ∈ [Char.ofNat 0x4F, Char.ofNat 0x4B], Basic c := by
    simp only [List.forall_mem_cons, List.not_mem_nil, false_imp_iff, implies_true, and_true]
    decide
  have hnul : ∀ c ∈ [Char.ofNat 0x4F, Char.ofNat 0x4B], c.toNat ≠ 0 := by
    simp only [List.forall_mem_cons, List.not_mem_nil, false_imp_iff, implies_true, and_true]
    decide
  obtain ⟨turns, printed, l', hrun, -, ⟨-, -, rfl⟩ | ⟨hdropped | ⟨c, hc, hnot⟩, -⟩⟩ :=
    bubPrint_text true [Char.ofNat 0x4F, Char.ofNat 0x4B] .empty hnul (by decide)
  · exact ⟨turns, l', hrun⟩
  · cases hdropped
  · exact absurd (hbasic c hc) hnot

end BrilloBoot
