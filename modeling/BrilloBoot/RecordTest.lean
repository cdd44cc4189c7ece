import BrilloBoot.Lib.Bytes
import BrilloBoot.Lib.DoWhile
import Mathlib.Data.Int.Notation

/-!
# The recording test

The loop of `audio_hal_record_test.cpp`, which records from an input stream, and what it saves. The
loop never leaves its storage, and what it saves is what the stream has delivered, as far as whole
frames go (`recording_saves`). Its timer is looked at only after a read that fails: a stream that
delivers nothing, without failing, keeps the loop for ever (`recording_hangs_iff`).
-/

namespace BrilloBoot

/-- An input stream, by the number of the read. -/
structure InStream where
  /-- `common.get_buffer_size`, in bytes. -/
  getBufferSize : ℕ
  /-- What is delivered for a number of bytes, `none` at a failure. -/
  read : ℕ → ℕ → Option (List Byte)
  /-- A read delivers no more than what it is asked for. -/
  read_le : ∀ i n bytes, read i n = some bytes → bytes.length ≤ n

/-- `kRecordedDataSize`. -/
def kRecordedDataSize : ℕ := 100 * 1000

/-- `kMaxLoopTime`, in seconds. -/
def kMaxLoopTime : ℤ := 30

/-- The variables of the loop. -/
structure Recording where
  recordedData : Bytes kRecordedDataSize
  bufferOffset : ℕ
  /-- The offset lies within the storage. -/
  within : bufferOffset ≤ kRecordedDataSize

section

variable (stream : InStream)

/-- `bytes_to_copy`. -/
def bytesToCopy (offset : ℕ) : ℕ :=
  if offset + stream.getBufferSize < kRecordedDataSize then stream.getBufferSize
  else kRecordedDataSize - offset

/-- A read is asked for no more than what there is room for. -/
theorem add_bytesToCopy_le {offset : ℕ} (h : offset ≤ kRecordedDataSize) :
    offset + bytesToCopy stream offset ≤ kRecordedDataSize := by
  unfold bytesToCopy
  split_ifs <;> omega

/-- A turn of the loop, `elapsed` seconds after its start. -/
def recordTurn (elapsed : ℕ → ℤ) (i : ℕ) (st : Recording) : Recording ⊕ Recording :=
  if st.bufferOffset < kRecordedDataSize then
    match hread : stream.read i (bytesToCopy stream st.bufferOffset) with
    | none => if kMaxLoopTime < elapsed i then .inr st else .inl st
    | some bytes =>
      have hfits : st.bufferOffset + bytes.length ≤ kRecordedDataSize :=
        Nat.le_trans (Nat.add_le_add_left (stream.read_le _ _ _ hread) _)
          (add_bytesToCopy_le stream st.within)
      .inl { recordedData := st.recordedData.splice st.bufferOffset bytes hfits
             bufferOffset := st.bufferOffset + bytes.length, within := hfits }
  else .inr st

/-- The variables before the loop. The storage starts as zeros. -/
def Recording.start : Recording := ⟨Bytes.zero _, 0, Nat.zero_le _⟩

/-- The loop, for a number of turns. -/
def record (elapsed : ℕ → ℤ) : ℕ → Recording ⊕ Recording :=
  DoWhile.run (recordTurn stream elapsed) .start

end

/-- What `sf_writef_short` saves, by the size of a frame. -/
def Recording.saved (st : Recording) (frameSize : ℕ) : List Byte :=
  st.recordedData.toList.take (st.bufferOffset / frameSize * frameSize)

section

variable {stream : InStream} {elapsed : ℕ → ℤ} {i k turns : ℕ} {st st' : Recording}

/-- A splice has the new bytes behind those that were there. -/
theorem Bytes.take_splice {n : ℕ} {old : Bytes n} {off : ℕ} {new : List Byte}
    (h : off + new.length ≤ n) :
    (old.splice off new h).toList.take (off + new.length) = old.toList.take off ++ new := by
  have hlength : (old.toList.take off ++ new).length = off + new.length := by
    simp
    omega
  show (old.toList.take off ++ new ++ old.toList.drop (off + new.length)).take _ = _
  rw [← hlength, List.take_left]

/-- **What a turn does** that goes on: nothing, or it takes what was delivered. -/
theorem recordTurn_cases (h : recordTurn stream elapsed i st = .inl st') :
    st.bufferOffset < kRecordedDataSize ∧
      ((stream.read i (bytesToCopy stream st.bufferOffset) = none ∧ elapsed i ≤ kMaxLoopTime ∧
          st' = st) ∨
        ∃ bytes, stream.read i (bytesToCopy stream st.bufferOffset) = some bytes ∧
          st'.bufferOffset = st.bufferOffset + bytes.length ∧
          st'.recordedData.toList.take st'.bufferOffset =
            st.recordedData.toList.take st.bufferOffset ++ bytes) := by
  unfold recordTurn at h
  by_cases hmore : st.bufferOffset < kRecordedDataSize
  · rw [if_pos hmore] at h
    refine ⟨hmore, ?_⟩
    split at h
    · next hread =>
      split at h
      · cases h
      · next htime => exact .inl ⟨hread, Int.not_lt.mp htime, (Sum.inl.inj h).symm⟩
    · next bytes hread =>
      refine .inr ⟨bytes, hread, ?_⟩
      rw [← Sum.inl.inj h]
      have hle := stream.read_le _ _ _ hread
      exact ⟨rfl, Bytes.take_splice
        (Nat.le_trans (Nat.add_le_add_left hle _) (add_bytesToCopy_le stream st.within))⟩
  · rw [if_neg hmore] at h
    cases h

/-- A turn that ends the loop has filled the storage, or has found the time over. -/
theorem recordTurn_end (h : recordTurn stream elapsed i st = .inr st') :
    st' = st ∧ (st.bufferOffset = kRecordedDataSize ∨
      (stream.read i (bytesToCopy stream st.bufferOffset) = none ∧ kMaxLoopTime < elapsed i)) := by
  unfold recordTurn at h
  by_cases hmore : st.bufferOffset < kRecordedDataSize
  · rw [if_pos hmore] at h
    split at h
    · next hread =>
      split at h
      · next htime => exact ⟨(Sum.inr.inj h).symm, .inr ⟨hread, htime⟩⟩
      · cases h
    · cases h
  · rw [if_neg hmore] at h
    exact ⟨(Sum.inr.inj h).symm, .inl (Nat.le_antisymm st.within (Nat.not_lt.mp hmore))⟩

/-- A read that stalls the loop at an offset: it delivers nothing, and the time is not over if it
fails. -/
def ReadsNothing (stream : InStream) (elapsed : ℕ → ℤ) (offset i : ℕ) : Prop :=
  stream.read i (bytesToCopy stream offset) = some [] ∨
    (stream.read i (bytesToCopy stream offset) = none ∧ elapsed i ≤ kMaxLoopTime)

/-- The turn of a read that stalls goes on at the same offset. -/
theorem ReadsNothing.turn (h : ReadsNothing stream elapsed st.bufferOffset i)
    (hmore : st.bufferOffset < kRecordedDataSize) :
    ∃ st', recordTurn stream elapsed i st = .inl st' ∧ st'.bufferOffset = st.bufferOffset := by
  unfold recordTurn
  rw [if_pos hmore]
  rcases h with hread | ⟨hread, htime⟩
  · split
    · next hnone => cases hnone.symm.trans hread
    · next bytes hsome =>
      obtain rfl : bytes = [] := Option.some.inj (hsome.symm.trans hread)
      exact ⟨_, rfl, Nat.add_zero _⟩
  · split
    · rw [if_neg (Int.not_lt.mpr htime)]
      exact ⟨st, rfl, rfl⟩
    · next bytes hsome => cases hsome.symm.trans hread

/-- The turn of a read that does not stall goes further, or ends the loop. -/
theorem readsNothing_of_turn (h : recordTurn stream elapsed i st = .inl st')
    (hoffset : st'.bufferOffset = st.bufferOffset) :
    ReadsNothing stream elapsed st.bufferOffset i := by
  obtain ⟨-, ⟨hread, htime, -⟩ | ⟨bytes, hread, hadd, -⟩⟩ := recordTurn_cases h
  · exact .inr ⟨hread, htime⟩
  · have hempty : bytes = [] := List.eq_nil_of_length_eq_zero (by omega)
    exact .inl (hempty ▸ hread)

/-- The room that is left. -/
def Recording.room (st : Recording) : ℕ := kRecordedDataSize - st.bufferOffset

/-- A turn takes room, and gives none back. -/
theorem room_le_of_turn (h : recordTurn stream elapsed i st = .inl st') : st'.room ≤ st.room := by
  unfold Recording.room
  obtain ⟨-, ⟨-, -, rfl⟩ | ⟨bytes, -, hoffset, -⟩⟩ := recordTurn_cases h <;> omega

/-- The same room is the same offset. -/
theorem bufferOffset_eq_of_room (h : st'.room = st.room) : st'.bufferOffset = st.bufferOffset := by
  have hwithin := st.within
  have hwithin' := st'.within
  unfold Recording.room at h
  omega

/-- What the stream has delivered, over so many reads of the loop. -/
def delivered (stream : InStream) : ℕ → List Byte
  | 0 => []
  | k + 1 => delivered stream k ++
    (stream.read k (bytesToCopy stream (delivered stream k).length)).getD []

/-- **The storage holds what was delivered.** -/
theorem record_eq_inl (h : record stream elapsed k = .inl st) :
    st.bufferOffset = (delivered stream k).length ∧
      st.recordedData.toList.take st.bufferOffset = delivered stream k := by
  induction k generalizing st with
  | zero =>
    obtain rfl := Sum.inl.inj h
    exact ⟨rfl, rfl⟩
  | succ k ih =>
    obtain ⟨st₁, hrun, hturn⟩ := DoWhile.exists_of_run_succ_eq_inl h
    obtain ⟨hoffset, hdata⟩ := ih hrun
    rw [delivered, ← hoffset, ← hdata]
    obtain ⟨-, ⟨hread, -, rfl⟩ | ⟨bytes, hread, hoffset', hdata'⟩⟩ := recordTurn_cases hturn
    · rw [hread, Option.getD_none, List.append_nil]
      exact ⟨hoffset.trans (congrArg List.length hdata).symm, rfl⟩
    · rw [hread, Option.getD_some]
      refine ⟨?_, hdata'⟩
      rw [hoffset', List.length_append, hdata, ← hoffset]

end

/-- **What is saved** when the loop ends: whole frames of what was delivered. The storage is full
then, or a read failed after the time was over. -/
theorem recording_saves (stream : InStream) (elapsed : ℕ → ℤ) (frameSize : ℕ) {turns : ℕ}
    {st : Recording} (h : record stream elapsed turns = .inr st) :
    ∃ k, st.saved frameSize = (delivered stream k).take
        ((delivered stream k).length / frameSize * frameSize) ∧
      ((delivered stream k).length = kRecordedDataSize ∨
        (stream.read k (bytesToCopy stream (delivered stream k).length) = none ∧
          kMaxLoopTime < elapsed k)) := by
  obtain ⟨k, s, hrun, hturn⟩ := DoWhile.exists_of_run_eq_inr h
  obtain ⟨rfl, hend⟩ := recordTurn_end hturn
  obtain ⟨hoffset, hdata⟩ := record_eq_inl hrun
  rw [hoffset] at hend
  refine ⟨k, ?_, hend⟩
  have hle : (delivered stream k).length / frameSize * frameSize ≤ st.bufferOffset :=
    hoffset ▸ Nat.div_mul_le_self _ _
  rw [Recording.saved, hoffset, ← hdata, List.take_take, hdata, Nat.min_eq_left hle]

/-- A stream that delivers three bytes, and fails from then on. -/
def threeBytes : InStream where
  getBufferSize := 1024
  read i n := if i = 0 then some ([1, 2, 3].take n) else none
  read_le := by
    intro i n bytes h
    split_ifs at h
    rw [← Option.some.inj h]
    exact List.length_take_le _ _

/-- What it has delivered is there after the first read. -/
theorem delivered_threeBytes (k : ℕ) : delivered threeBytes (k + 1) = [1, 2, 3] := by
  induction k with
  | zero => decide
  | succ k ih =>
    rw [delivered, ih]
    rfl

/-- Of its three bytes, the one frame of two bytes is saved once the time is over. -/
theorem recording_saves_frame : ∃ st,
    record threeBytes (fun _ => 31) 2 = .inr st ∧ st.saved 2 = [1, 2] := by
  obtain ⟨st, hst⟩ : ∃ st, record threeBytes (fun _ => 31) 2 = .inr st := ⟨_, rfl⟩
  refine ⟨st, hst, ?_⟩
  obtain ⟨k, hsaved, hend⟩ := recording_saves threeBytes (fun _ => 31) 2 hst
  cases k with
  | zero => rcases hend with hfull | ⟨hfailed, -⟩ <;> contradiction
  | succ k =>
    rw [hsaved, delivered_threeBytes]
    rfl

/-- **The loop hangs** exactly when, from some read on, the stream delivers nothing without failing,
or fails while the time is not over. -/
theorem recording_hangs_iff (stream : InStream) (elapsed : ℕ → ℤ) :
    (∀ turns, ∃ st, record stream elapsed turns = .inl st) ↔
      ∃ n st, record stream elapsed n = .inl st ∧ st.bufferOffset < kRecordedDataSize ∧
        ∀ i, n ≤ i → ReadsNothing stream elapsed st.bufferOffset i := by
  constructor
  · intro hon
    -- The room only falls, so that from some turn on it stays as it is.
    obtain ⟨n, st, hn, hstall⟩ : ∃ n st, record stream elapsed n = .inl st ∧
        ∀ i, n ≤ i → ∀ s, record stream elapsed i = .inl s → s.room = st.room :=
      DoWhile.exists_stall (μ := Recording.room) fun _ _ _ => room_le_of_turn
    have hmore : st.bufferOffset < kRecordedDataSize := by
      obtain ⟨st', hst'⟩ := hon (n + 1)
      exact (recordTurn_cases ((DoWhile.run_succ_of_inl hn).symm.trans hst')).1
    refine ⟨n, st, hn, hmore, fun i hi => ?_⟩
    obtain ⟨s, hs⟩ := hon i
    obtain ⟨s', hs'⟩ := hon (i + 1)
    have hoffset := bufferOffset_eq_of_room (hstall i hi s hs)
    have hoffset' := bufferOffset_eq_of_room (hstall (i + 1) (Nat.le_succ_of_le hi) s' hs')
    rw [← hoffset]
    exact readsNothing_of_turn ((DoWhile.run_succ_of_inl hs).symm.trans hs')
      (hoffset'.trans hoffset.symm)
  · rintro ⟨n, st, hn, hmore, hstall⟩ turns
    rcases Nat.le_total turns n with hle | hle
    · cases hturns : record stream elapsed turns with
      | inl s => exact ⟨s, rfl⟩
      | inr r => cases (DoWhile.run_of_le hturns hle).symm.trans hn
    · -- From there on, every turn stays at the same offset.
      suffices ∃ s, record stream elapsed turns = .inl s ∧ s.bufferOffset = st.bufferOffset from
        this.imp fun _ h => h.1
      induction hle with
      | refl => exact ⟨st, hn, rfl⟩
      | @step k hk ih =>
        obtain ⟨s, hs, hoffset⟩ := ih
        have hstalls := hstall k hk
        rw [← hoffset] at hstalls
        obtain ⟨s', hturn, hoffset'⟩ := hstalls.turn (hoffset ▸ hmore)
        exact ⟨s', (DoWhile.run_succ_of_inl hs).trans hturn, hoffset'.trans hoffset⟩

end BrilloBoot
