import BrilloBoot.Lib.BufferPool
import BrilloBoot.Lib.Bytes
import BrilloBoot.Lib.DoWhile

/-!
# The sine data of the audio playback test

`SineSource` of `SineSource.cpp` and `GenerateData` of `audio_hal_playback_test.cpp`. The group of a
source has one buffer, and `acquire_buffer` waits as long as it is in use. `GenerateData` returns a
buffer to its group only behind its loop: it has its data exactly when the first buffer is enough
(`fillsRequest_iff`).
-/

namespace BrilloBoot

open BufferPool (Entry acquire store inUse)

/-- How a function ends without a result. -/
inductive Halt
  /-- It waits in `acquire_buffer`, for ever. -/
  | blocked
  /-- It divides by zero. -/
  | fault
  /-- A `CHECK` fails. -/
  | abort
deriving DecidableEq

/-- `kBufferSize`. -/
def kBufferSize : ℕ := 8192

/-- A `MediaBuffer` of this size. -/
structure MediaBuffer where
  data : Bytes kBufferSize
  /-- `kKeyTime` of its metadata. -/
  keyTime : BitVec 64

/-- `(int16_t)(32767.0 * sin(x))` for each frame of a buffer, by the sample rate and the phase at
which the buffer starts. -/
abbrev Amplitude := BitVec 32 → BitVec 64 → ℕ → BitVec 16

/-- A `SineSource`. -/
structure SineSource where
  mStarted : Bool
  mSampleRate : BitVec 32
  mNumChannels : BitVec 32
  mPhase : BitVec 64
  /-- Empty as long as there is no group. -/
  mGroup : List (Entry MediaBuffer)

namespace SineSource

/-- The constructor. -/
def new (sampleRate numChannels : BitVec 32) : Except Halt SineSource :=
  if numChannels = 1 ∨ numChannels = 2 then
    .ok { mStarted := false, mSampleRate := sampleRate, mNumChannels := numChannels, mPhase := 0,
          mGroup := [] }
  else .error .abort

/-- `start`, with the buffer that it allocates. -/
def start (allocated : MediaBuffer) (source : SineSource) : Except Halt SineSource :=
  if source.mStarted then .error .abort
  else .ok { source with mGroup := [⟨allocated, false⟩], mPhase := 0, mStarted := true }

section

variable (amplitude : Amplitude)

/-- `numFramesPerBuffer` of `read`. -/
def numFramesPerBuffer (source : SineSource) : ℕ := kBufferSize / (source.mNumChannels.toNat * 2)

/-- What the loop of `read` writes. -/
def frames (source : SineSource) : List Byte :=
  (List.range source.numFramesPerBuffer).flatMap fun i =>
    let sample := leBytes 2 (amplitude source.mSampleRate source.mPhase i)
    if source.mNumChannels = 2 then sample ++ sample else sample

/-- The loop of `read` stays within the buffer. -/
theorem length_frames_le (source : SineSource) :
    (source.frames amplitude).length ≤ kBufferSize := by
  have hframe : (source.frames amplitude).length =
      source.numFramesPerBuffer * if source.mNumChannels = 2 then 4 else 2 := by
    unfold frames
    split_ifs <;> simp
  have hbound : source.numFramesPerBuffer * (source.mNumChannels.toNat * 2) ≤ kBufferSize :=
    Nat.div_mul_le_self _ _
  rw [hframe]
  split_ifs with hstereo
  · rw [hstereo] at hbound
    exact hbound
  · obtain hzero | hpos := Nat.eq_zero_or_pos source.mNumChannels.toNat
    · -- There are no frames then.
      unfold numFramesPerBuffer
      rw [hzero]
      exact Nat.zero_le _
    · exact Nat.le_trans (Nat.mul_le_mul_left _ (by omega)) hbound

/-- `read`: the place of the buffer in the group, and the buffer. -/
def read (source : SineSource) : Except Halt (ℕ × MediaBuffer × SineSource) :=
  match acquire source.mGroup with
  | none => .error .blocked
  | some (i, buffer, mGroup) =>
    if source.mSampleRate = 0 then .error .fault
    else
      let buffer :=
        { data := buffer.data.splice 0 (source.frames amplitude)
            (by rw [Nat.zero_add]; exact source.length_frames_le amplitude),
          keyTime := (source.mPhase * 1000000).sdiv (source.mSampleRate.signExtend 64) }
      .ok (i, buffer,
        { source with
          mPhase := source.mPhase + BitVec.ofNat 64 source.numFramesPerBuffer
          mGroup := store mGroup i buffer })

/-- `release` of a buffer. -/
def release (i : ℕ) (source : SineSource) : SineSource :=
  { source with mGroup := BufferPool.release source.mGroup i }

/-- What `reads` calls of `read` deliver, when each buffer is released before the next call. -/
def deliver (source : SineSource) : ℕ → Except Halt (List Byte × SineSource)
  | 0 => .ok ([], source)
  | reads + 1 => do
    let (bytes, source) ← source.deliver reads
    let (i, buffer, source) ← source.read amplitude
    return (bytes ++ buffer.data.toList, source.release i)

end

end SineSource

/-! ## `GenerateData` -/

/-- The variables of `GenerateData`. -/
structure PlaybackState (totalBytesRequired : ℕ) where
  data : Bytes totalBytesRequired
  source : SineSource
  numBytesCopied : ℕ
  /-- The place of the buffer in its group, `none` for the null pointer. -/
  buffer : Option ℕ

section

variable (amplitude : Amplitude) {totalBytesRequired : ℕ}

/-- What follows the loop. -/
def PlaybackState.finish (st : PlaybackState totalBytesRequired) :
    Except Halt (Bytes totalBytesRequired × SineSource) :=
  match st.buffer with
  | none => .error .abort
  | some i => .ok (st.data, st.source.release i)

/-- A turn of the loop. -/
def generateDataTurn (_ : ℕ) (st : PlaybackState totalBytesRequired) :
    PlaybackState totalBytesRequired ⊕ Except Halt (Bytes totalBytesRequired × SineSource) :=
  if hmore : st.numBytesCopied < totalBytesRequired then
    match st.source.read amplitude with
    | .error halt => .inr (.error halt)
    | .ok (i, buffer, source) =>
      if hlast : totalBytesRequired - st.numBytesCopied ≤ kBufferSize then
        let bytes := buffer.data.toList.take (totalBytesRequired - st.numBytesCopied)
        let data := st.data.splice st.numBytesCopied bytes (by simp [bytes]; omega)
        .inr { st with data, source, buffer := some i }.finish
      else
        let data := st.data.splice st.numBytesCopied buffer.data.toList (by simp; omega)
        .inl { data, source, numBytesCopied := st.numBytesCopied + kBufferSize, buffer := some i }
  else .inr st.finish

/-- `GenerateData`, as far as some turns of its loop. `data` and `allocated` are what it allocates,
with the contents that they then have. -/
def generateData (sampleRate numChannels : BitVec 32) (data : Bytes totalBytesRequired)
    (allocated : MediaBuffer) (turns : ℕ) :
    PlaybackState totalBytesRequired ⊕ Except Halt (Bytes totalBytesRequired × SineSource) :=
  match (do (← SineSource.new sampleRate numChannels).start allocated) with
  | .error halt => .inr (.error halt)
  | .ok source =>
    DoWhile.run (generateDataTurn amplitude)
      { data, source, numBytesCopied := 0, buffer := none } turns

end

/-- The source that `GenerateData` reads, as it starts. -/
def startedSource (sampleRate numChannels : BitVec 32) (allocated : MediaBuffer) : SineSource where
  mStarted := true
  mSampleRate := sampleRate
  mNumChannels := numChannels
  mPhase := 0
  mGroup := [⟨allocated, false⟩]

/-- The source is asked for a buffer only while its buffer is free, the function ends with that
buffer released, and the array has the bytes that successive reads deliver. -/
structure FillsRequest (amplitude : Amplitude) (sampleRate numChannels : BitVec 32)
    {totalBytesRequired : ℕ} (data : Bytes totalBytesRequired) (allocated : MediaBuffer) :
    Prop where
  asks : ∀ turns st,
    generateData amplitude sampleRate numChannels data allocated turns = .inl st →
    st.numBytesCopied < totalBytesRequired → ∀ entry ∈ st.source.mGroup, entry.inUse = false
  returns : ∃ turns data' source,
    generateData amplitude sampleRate numChannels data allocated turns =
      .inr (.ok (data', source)) ∧
    (∀ entry ∈ source.mGroup, entry.inUse = false) ∧
    ∃ reads bytes source',
      (startedSource sampleRate numChannels allocated).deliver amplitude reads =
        .ok (bytes, source') ∧
      totalBytesRequired ≤ bytes.length ∧ data'.toList = bytes.take totalBytesRequired

/-! ## One read -/

section

variable {amplitude : Amplitude} {source source' : SineSource} {i : ℕ} {buffer : MediaBuffer}

/-- A read takes one more buffer into use, and releasing it undoes that. -/
theorem SineSource.of_read (h : source.read amplitude = .ok (i, buffer, source')) :
    source.mSampleRate ≠ 0 ∧ source'.mSampleRate = source.mSampleRate ∧
      source'.mGroup.length = source.mGroup.length ∧
      inUse source'.mGroup = inUse source.mGroup + 1 ∧
      inUse (source'.release i).mGroup = inUse source.mGroup := by
  unfold read at h
  cases hacquire : acquire source.mGroup with
  | none =>
    rw [hacquire] at h
    cases h
  | some acquired =>
    obtain ⟨j, old, mGroup⟩ := acquired
    rw [hacquire] at h
    dsimp only at h
    split_ifs at h with hrate
    obtain ⟨rfl, rfl, rfl⟩ : j = i ∧ _ = buffer ∧ _ = source' := by
      simpa only [Except.ok.injEq, Prod.mk.injEq] using h
    refine ⟨hrate, rfl, ?_, ?_, ?_⟩
    · rw [BufferPool.length_store, BufferPool.length_of_acquire hacquire]
    · rw [BufferPool.inUse_store, BufferPool.inUse_of_acquire hacquire]
    · exact BufferPool.inUse_release_of_acquire hacquire _

/-- A read waits when every buffer is in use. -/
theorem SineSource.read_eq_blocked (h : inUse source.mGroup = source.mGroup.length) :
    source.read amplitude = .error .blocked := by
  unfold read
  rw [BufferPool.acquire_eq_none_iff.mpr h]

/-- A source with a free buffer and a sample rate can be read. -/
theorem SineSource.exists_read (amplitude : Amplitude) (hrate : source.mSampleRate ≠ 0)
    (hfree : inUse source.mGroup < source.mGroup.length) :
    ∃ i buffer source', source.read amplitude = .ok (i, buffer, source') := by
  unfold read
  cases hacquire : acquire source.mGroup with
  | none =>
    have hall := BufferPool.acquire_eq_none_iff.mp hacquire
    omega
  | some acquired =>
    obtain ⟨i, old, mGroup⟩ := acquired
    dsimp only
    rw [if_neg hrate]
    exact ⟨_, _, _, rfl⟩

end

/-! ## The loop -/

section

variable {amplitude : Amplitude} {sampleRate numChannels : BitVec 32} {totalBytesRequired : ℕ}
  {data data' : Bytes totalBytesRequired} {allocated : MediaBuffer} {source : SineSource}
  {turns k : ℕ} {st st' : PlaybackState totalBytesRequired}

/-- Each buffer that was copied is still in use. -/
structure PlaybackInvariant (sampleRate : BitVec 32) (st : PlaybackState totalBytesRequired) :
    Prop where
  rate : st.source.mSampleRate = sampleRate
  one : st.source.mGroup.length = 1
  copied : st.numBytesCopied = inUse st.source.mGroup * kBufferSize
  more : st.numBytesCopied < totalBytesRequired

/-- What a turn that has to copy comes to: an end in `read`, or a copy of what is left, or of the
whole buffer. -/
theorem generateDataTurn_cases (amplitude : Amplitude) (k : ℕ)
    (hmore : st.numBytesCopied < totalBytesRequired) :
    (∃ halt, st.source.read amplitude = .error halt ∧
      generateDataTurn amplitude k st = .inr (.error halt)) ∨
    ∃ i buffer source, st.source.read amplitude = .ok (i, buffer, source) ∧
      ((totalBytesRequired - st.numBytesCopied ≤ kBufferSize ∧
        ∃ data', generateDataTurn amplitude k st = .inr (.ok (data', source.release i)) ∧
          data'.toList = st.data.toList.take st.numBytesCopied ++
            buffer.data.toList.take (totalBytesRequired - st.numBytesCopied)) ∨
      (kBufferSize < totalBytesRequired - st.numBytesCopied ∧
        ∃ data', generateDataTurn amplitude k st = .inl
          { data := data', source, numBytesCopied := st.numBytesCopied + kBufferSize,
            buffer := some i })) := by
  unfold generateDataTurn
  rw [dif_pos hmore]
  cases hread : st.source.read amplitude with
  | error halt => exact .inl ⟨halt, rfl, rfl⟩
  | ok next =>
    obtain ⟨i, buffer, source⟩ := next
    refine .inr ⟨i, buffer, source, rfl, ?_⟩
    dsimp only
    split_ifs with hlast
    · refine .inl ⟨hlast, _, rfl, ?_⟩
      rw [Bytes.toList_splice_of_add_eq]
      rw [List.length_take, Bytes.length_toList, Nat.min_eq_left hlast]
      omega
    · exact .inr ⟨by omega, _, rfl⟩

/-- A turn that goes on has taken one more buffer into use. -/
theorem PlaybackInvariant.turn (h : PlaybackInvariant sampleRate st)
    (hturn : generateDataTurn amplitude k st = .inl st') : PlaybackInvariant sampleRate st' := by
  obtain ⟨halt, -, hhalt⟩ | ⟨i, buffer, source, hread, hcopies⟩ :=
    generateDataTurn_cases amplitude k h.more
  · cases hhalt.symm.trans hturn
  · obtain ⟨-, data', hend, -⟩ | ⟨hlong, data', hnext⟩ := hcopies
    · cases hend.symm.trans hturn
    · obtain rfl := Sum.inl.inj (hnext.symm.trans hturn)
      obtain ⟨-, hrate, hlength, hinUse, -⟩ := SineSource.of_read hread
      refine ⟨hrate.trans h.rate, hlength.trans h.one, ?_, ?_⟩
      · dsimp only
        rw [hinUse, Nat.add_mul, Nat.one_mul, h.copied]
      · dsimp only
        omega

/-- A turn that ends the function has read the first buffer. -/
theorem PlaybackInvariant.of_end (h : PlaybackInvariant sampleRate st)
    (hturn : generateDataTurn amplitude k st = .inr (.ok (data', source))) :
    sampleRate ≠ 0 ∧ totalBytesRequired ≤ kBufferSize := by
  obtain ⟨halt, -, hhalt⟩ | ⟨i, buffer, source', hread, hcopies⟩ :=
    generateDataTurn_cases amplitude k h.more
  · cases hhalt.symm.trans hturn
  · obtain ⟨hlast, -⟩ | ⟨-, data', hnext⟩ := hcopies
    · obtain ⟨hrate, -, hlength, hinUse, -⟩ := SineSource.of_read hread
      -- The only buffer was free before the read, so that nothing was copied.
      have hle := BufferPool.inUse_le_length source'.mGroup
      rw [hinUse, hlength, h.one] at hle
      have hzero : inUse st.source.mGroup = 0 := by omega
      have hcopied := h.copied
      rw [hzero, Nat.zero_mul] at hcopied
      rw [hcopied, Nat.sub_zero] at hlast
      exact ⟨h.rate ▸ hrate, hlast⟩
    · cases hnext.symm.trans hturn

/-! ## The whole function -/

/-- The variables of `GenerateData` before its loop. -/
def startState (sampleRate numChannels : BitVec 32) (data : Bytes totalBytesRequired)
    (allocated : MediaBuffer) : PlaybackState totalBytesRequired where
  data := data
  source := startedSource sampleRate numChannels allocated
  numBytesCopied := 0
  buffer := none

/-- With one or two channels `GenerateData` comes to its loop. -/
theorem generateData_eq_run (hchannels : numChannels = 1 ∨ numChannels = 2) :
    generateData amplitude sampleRate numChannels data allocated turns =
      DoWhile.run (generateDataTurn amplitude) (startState sampleRate numChannels data allocated)
        turns := by
  unfold generateData SineSource.new
  rw [if_pos hchannels]
  rfl

/-- The invariant holds before the loop. -/
theorem playbackInvariant_startState (hpos : 0 < totalBytesRequired) :
    PlaybackInvariant sampleRate (startState sampleRate numChannels data allocated) :=
  ⟨rfl, rfl, (Nat.zero_mul _).symm, hpos⟩

/-- The invariant holds as long as the loop goes on. -/
theorem playbackInvariant_of_generateData (hchannels : numChannels = 1 ∨ numChannels = 2)
    (hpos : 0 < totalBytesRequired)
    (h : generateData amplitude sampleRate numChannels data allocated turns = .inl st) :
    PlaybackInvariant sampleRate st := by
  rw [generateData_eq_run hchannels] at h
  exact DoWhile.invariant_of_run_eq_inl (playbackInvariant_startState hpos)
    (fun k s s' hs hturn => hs.turn hturn) h

/-- The function ends only when one buffer is enough. -/
theorem of_generateData (hchannels : numChannels = 1 ∨ numChannels = 2)
    (hpos : 0 < totalBytesRequired)
    (h : generateData amplitude sampleRate numChannels data allocated turns =
      .inr (.ok (data', source))) :
    sampleRate ≠ 0 ∧ totalBytesRequired ≤ kBufferSize := by
  rw [generateData_eq_run hchannels] at h
  obtain ⟨k, st, hk, hturn⟩ := DoWhile.exists_of_run_eq_inr h
  rw [← generateData_eq_run hchannels] at hk
  exact (playbackInvariant_of_generateData hchannels hpos hk).of_end hturn

/-- The first turn reads the buffer, and then ends the function or goes on. -/
theorem startState_turn (amplitude : Amplitude) (numChannels : BitVec 32)
    (data : Bytes totalBytesRequired) (allocated : MediaBuffer) (hpos : 0 < totalBytesRequired)
    (hrate : sampleRate ≠ 0) :
    ∃ i buffer source,
      (startedSource sampleRate numChannels allocated).read amplitude = .ok (i, buffer, source) ∧
      ((totalBytesRequired ≤ kBufferSize ∧
        ∃ data', DoWhile.run (generateDataTurn amplitude)
            (startState sampleRate numChannels data allocated) 1 =
              .inr (.ok (data', source.release i)) ∧
          data'.toList = buffer.data.toList.take totalBytesRequired) ∨
      (kBufferSize < totalBytesRequired ∧
        ∃ data', DoWhile.run (generateDataTurn amplitude)
            (startState sampleRate numChannels data allocated) 1 =
              .inl { data := data', source, numBytesCopied := 0 + kBufferSize,
                     buffer := some i })) := by
  obtain ⟨halt, herror, -⟩ | hread :=
    generateDataTurn_cases amplitude 0
      (show (startState sampleRate numChannels data allocated).numBytesCopied < _ from hpos)
  · have hfree : inUse (startedSource sampleRate numChannels allocated).mGroup <
        (startedSource sampleRate numChannels allocated).mGroup.length := Nat.zero_lt_one
    obtain ⟨i, buffer, source, hread⟩ := SineSource.exists_read amplitude hrate hfree
    cases hread.symm.trans herror
  · exact hread

/-- When one buffer is enough, the first turn ends the function. -/
theorem exists_generateData (amplitude : Amplitude) (data : Bytes totalBytesRequired)
    (allocated : MediaBuffer) (hchannels : numChannels = 1 ∨ numChannels = 2)
    (hpos : 0 < totalBytesRequired) (hrate : sampleRate ≠ 0)
    (hone : totalBytesRequired ≤ kBufferSize) :
    ∃ i buffer source' data', (startedSource sampleRate numChannels allocated).read amplitude =
        .ok (i, buffer, source') ∧
      generateData amplitude sampleRate numChannels data allocated 1 =
        .inr (.ok (data', source'.release i)) ∧
      data'.toList = buffer.data.toList.take totalBytesRequired := by
  rw [generateData_eq_run hchannels]
  obtain ⟨i, buffer, source', hread, ⟨-, data', hend, hdata⟩ | ⟨hlong, -⟩⟩ :=
    startState_turn amplitude numChannels data allocated hpos hrate
  · exact ⟨i, buffer, source', data', hread, hend, hdata⟩
  · exact absurd hlong (Nat.not_lt.mpr hone)

/-- When one buffer is not enough, the second turn waits for the buffer of the first. -/
theorem generateData_eq_blocked (hchannels : numChannels = 1 ∨ numChannels = 2)
    (hrate : sampleRate ≠ 0) (hlong : kBufferSize < totalBytesRequired) :
    generateData amplitude sampleRate numChannels data allocated 2 = .inr (.error .blocked) := by
  have hpos : 0 < totalBytesRequired := Nat.lt_of_le_of_lt (Nat.zero_le _) hlong
  rw [generateData_eq_run hchannels]
  obtain ⟨i, buffer, source', hread, ⟨hone, -⟩ | ⟨-, data', hnext⟩⟩ :=
    startState_turn amplitude numChannels data allocated hpos hrate
  · exact absurd hone (Nat.not_le.mpr hlong)
  · obtain ⟨-, -, hlength, hinUse, -⟩ := SineSource.of_read hread
    have hblocked : source'.read amplitude = .error .blocked :=
      SineSource.read_eq_blocked (by rw [hinUse, hlength]; rfl)
    have hmore : 0 + kBufferSize < totalBytesRequired := by omega
    rw [DoWhile.run_succ_of_inl hnext]
    unfold generateDataTurn
    dsimp only
    rw [dif_pos hmore, hblocked]

/-- The request is filled exactly when one buffer is enough and the sample rate is not zero. -/
theorem fillsRequest_iff (amplitude : Amplitude) (sampleRate : BitVec 32) {numChannels : BitVec 32}
    (hchannels : numChannels = 1 ∨ numChannels = 2) {totalBytesRequired : ℕ}
    (hpos : 0 < totalBytesRequired) (data : Bytes totalBytesRequired) (allocated : MediaBuffer) :
    FillsRequest amplitude sampleRate numChannels data allocated ↔
      sampleRate ≠ 0 ∧ totalBytesRequired ≤ 8192 := by
  constructor
  · intro h
    obtain ⟨turns, data', source, hend, -⟩ := h.returns
    exact of_generateData hchannels hpos hend
  · rintro ⟨hrate, hone⟩
    refine ⟨fun turns st hst hmore => ?_, ?_⟩
    · -- No buffer was copied yet, so that none is in use.
      have hcopied := (playbackInvariant_of_generateData hchannels hpos hst).copied
      unfold kBufferSize at hcopied
      exact BufferPool.inUse_eq_zero_iff.mp (by omega)
    · obtain ⟨i, buffer, source', data', hread, hend, hdata⟩ :=
        exists_generateData amplitude data allocated hchannels hpos hrate hone
      obtain ⟨-, -, -, -, hreleased⟩ := SineSource.of_read hread
      refine ⟨1, data', source'.release i, hend, BufferPool.inUse_eq_zero_iff.mp hreleased, 1,
        buffer.data.toList, source'.release i, ?_, ?_, hdata⟩
      · rw [SineSource.deliver, SineSource.deliver]
        show (SineSource.read amplitude _ >>= _) = _
        rw [hread]
        rfl
      · rw [Bytes.length_toList]
        exact hone

end

/-- A request of one frame. -/
theorem fillsRequest_iff_frame :
    ((2 : BitVec 32) = 1 ∨ (2 : BitVec 32) = 2) ∧ 0 < 4 ∧
      (FillsRequest (fun _ _ _ => 0) 48000 2 (Bytes.zero 4) ⟨Bytes.zero _, 0⟩ ↔
        (48000 : BitVec 32) ≠ 0 ∧ 4 ≤ 8192) :=
  ⟨by decide, by decide,
    fillsRequest_iff (fun _ _ _ => 0) 48000 (by decide) (by decide) (Bytes.zero 4) _⟩

/-- A request of one byte more than a buffer is not filled: the second read waits. -/
theorem long_not_fillsRequest :
    ¬FillsRequest (fun _ _ _ => 0) 48000 2 (Bytes.zero 8193) ⟨Bytes.zero _, 0⟩ := by
  intro h
  obtain ⟨turns, data', source, hend, -⟩ := h.returns
  have hblocked : generateData (fun _ _ _ => 0) 48000 2 (Bytes.zero 8193) ⟨Bytes.zero _, 0⟩ 2 =
      .inr (.error .blocked) := generateData_eq_blocked (by decide) (by decide) (by decide)
  rw [generateData_eq_run (by decide)] at hend hblocked
  cases DoWhile.result_unique hend hblocked

end BrilloBoot
