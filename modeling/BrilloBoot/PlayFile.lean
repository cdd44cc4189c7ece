import BrilloBoot.PlaybackTest
import Mathlib.Data.Int.Notation

/-!
# The playback of the audio test

`PlaySineWave` and `PlayFile` of `audio_hal_playback_test.cpp`, over the calls of an output stream.
`PlaySineWave` stays within its array whatever the stream answers, but it comes to play only a
buffer that `GenerateData` can fill (`playSineWave_plays_iff`). `PlayFile` has an array of as many
samples as the buffer had frames at first, where a read delivers a sample for each channel of as
many frames as the buffer has then. How many frames each turn reads follows from the sizes alone, so
that the run is one over numbers until a read leaves the array (`playFile_plays_iff`).
-/

namespace BrilloBoot

/-- An output stream, by the number of the call. -/
structure OutStream (α : Type*) where
  /-- `common.get_buffer_size`, in bytes. -/
  getBufferSize : ℕ → ℕ
  write : ℕ → List α → ℤ

/-- What a function has written, and its result. -/
structure Played (α : Type*) where
  writes : List (List α)
  rc : ℤ

/-- A row of elements of an array. There is no result if it goes beyond the array. -/
def firstOf {α : Type*} (n : ℕ) (data : List α) : Option (List α) :=
  if n ≤ data.length then some (data.take n) else none

/-! ## A sine wave -/

/-- `kNumBuffersToWrite`. -/
def kNumBuffersToWrite : ℕ := 1000

/-- A turn of the loop of `PlaySineWave`. The first call of `get_buffer_size` is before the loop. -/
def playSineWaveTurn (stream : OutStream Byte) (bufferSize : ℕ) (data : List Byte) (i : ℕ)
    (played : Played Byte) : Played Byte ⊕ Option (Played Byte) :=
  if i < kNumBuffersToWrite then
    let bytesWanted := stream.getBufferSize (i + 1)
    match firstOf (if bytesWanted ≤ bufferSize then bytesWanted else bufferSize) data with
    | none => .inr none
    | some bytes =>
      let rc := stream.write i bytes
      let played := { writes := played.writes ++ [bytes], rc }
      if rc < 0 then .inr (some played) else .inl played
  else .inr (some played)

/-- How `PlaySineWave` ends. -/
inductive SineEnd
  /-- In `GenerateData`. -/
  | halted (halt : Halt)
  /-- It reads beyond its array. -/
  | overrun
  | played (played : Played Byte)

/-- `PlaySineWave`, with so many turns of the loop of `GenerateData`. `data` and `allocated` are
what that allocates. There is no result if the turns are not enough. -/
def playSineWave (amplitude : Amplitude) (stream : OutStream Byte)
    (sampleRate numChannels : BitVec 32) (data : Bytes (stream.getBufferSize 0))
    (allocated : MediaBuffer) (turns : ℕ) : Option SineEnd :=
  match generateData amplitude sampleRate numChannels data allocated turns with
  | .inl _ => none
  | .inr (.error halt) => some (.halted halt)
  | .inr (.ok (data, _)) =>
    match DoWhile.run (playSineWaveTurn stream (stream.getBufferSize 0) data.toList) ⟨[], 0⟩
        (kNumBuffersToWrite + 1) with
    | .inl _ => none
    | .inr none => some .overrun
    | .inr (some played) => some (.played played)

/-! ## A file -/

/-- A frame of a file: a sample for each channel. -/
abbrev Frame (channels : ℕ) := Vector (BitVec 16) channels

/-- The samples of frames, as `sf_readf_short` delivers them. -/
def samples {channels : ℕ} (frames : List (Frame channels)) : List (BitVec 16) :=
  frames.flatMap (·.toList)

/-- The variables of the loop of `PlayFile`. -/
structure FileState (channels : ℕ) where
  /-- The frames of the file that are not read yet. -/
  rest : List (Frame channels)
  data : List (BitVec 16)
  writes : List (List (BitVec 16))

/-- `kFrameSize` of `PlayFile`, by the channels of the stream. -/
def kFrameSize (streamChannels : ℕ) : ℕ := 2 * streamChannels

section

variable {channels : ℕ}

/-- A turn of the loop of `PlayFile`. There is no result where the program leaves its array.
`sfReadfShort` delivers up to so many of the frames that are not read yet. -/
def playFileTurn (sfReadfShort : ℕ → List (Frame channels) → List (Frame channels))
    (stream : OutStream (BitVec 16)) (streamChannels : ℕ) (i : ℕ) (st : FileState channels) :
    FileState channels ⊕ Option (Played (BitVec 16)) :=
  let bytesWanted := stream.getBufferSize (i + 1)
  let frames := sfReadfShort (bytesWanted / kFrameSize streamChannels) st.rest
  let framesRead := frames.length
  -- `sf_readf_short` writes a sample for each channel of the file.
  if st.data.length < framesRead * channels then .inr none
  else
    let data := samples frames ++ st.data.drop (framesRead * channels)
    -- The stream reads `frames_read * kFrameSize` bytes.
    match firstOf (framesRead * streamChannels) data with
    | none => .inr none
    | some shorts =>
      let rc := stream.write i shorts
      let writes := st.writes ++ [shorts]
      if rc < 0 ∨ framesRead = 0 then .inr (some { writes, rc })
      else .inl { rest := st.rest.drop framesRead, data, writes }

/-- The variables of `PlayFile` before its loop. The array that it allocates has some contents. -/
def fileStart (stream : OutStream (BitVec 16)) (streamChannels : ℕ) (file : List (Frame channels))
    (contents : ℕ → BitVec 16) : FileState channels where
  rest := file
  data := (List.range (stream.getBufferSize 0 / kFrameSize streamChannels)).map contents
  writes := []

/-- `PlayFile`, for a number of turns of its loop. There is no result either where it divides by
zero. -/
def playFile (sfReadfShort : ℕ → List (Frame channels) → List (Frame channels))
    (stream : OutStream (BitVec 16)) (streamChannels : ℕ) (file : List (Frame channels))
    (contents : ℕ → BitVec 16) (turns : ℕ) : FileState channels ⊕ Option (Played (BitVec 16)) :=
  if kFrameSize streamChannels = 0 then .inr none
  else
    DoWhile.run (playFileTurn sfReadfShort stream streamChannels)
      (fileStart stream streamChannels file contents) turns

end

/-! ## What is played of a sine wave -/

section

variable {stream : OutStream Byte} {bufferSize : ℕ} {data : List Byte} {played : Played Byte}

/-- The bytes of a write of `PlaySineWave`. -/
def waveWrite (stream : OutStream Byte) (bufferSize : ℕ) (data : List Byte) (i : ℕ) : List Byte :=
  data.take (min (stream.getBufferSize (i + 1)) bufferSize)

/-- So many writes were made, and all of them but the last one went well. -/
structure WavePlayed (stream : OutStream Byte) (bufferSize : ℕ) (data : List Byte)
    (played : Played Byte) (n : ℕ) : Prop where
  writes : played.writes = (List.range n).map (waveWrite stream bufferSize data)
  rc : ∀ i, i + 1 = n → played.rc = stream.write i (waveWrite stream bufferSize data i)
  wrote : ∀ i, i + 1 < n → 0 ≤ stream.write i (waveWrite stream bufferSize data i)

/-- A turn stays within the array, and makes one more write. -/
theorem playSineWaveTurn_eq (stream : OutStream Byte) (hdata : data.length = bufferSize) {i : ℕ}
    (hi : i < kNumBuffersToWrite) (played : Played Byte) :
    playSineWaveTurn stream bufferSize data i played =
      let bytes := waveWrite stream bufferSize data i
      let rc := stream.write i bytes
      if rc < 0 then .inr (some ⟨played.writes ++ [bytes], rc⟩)
      else .inl ⟨played.writes ++ [bytes], rc⟩ := by
  have hmin : (if stream.getBufferSize (i + 1) ≤ bufferSize then stream.getBufferSize (i + 1)
      else bufferSize) = min (stream.getBufferSize (i + 1)) bufferSize := rfl
  have hfirst : firstOf (min (stream.getBufferSize (i + 1)) bufferSize) data =
      some (waveWrite stream bufferSize data i) :=
    if_pos (hdata ▸ Nat.min_le_right _ _)
  unfold playSineWaveTurn
  rw [if_pos hi]
  dsimp only
  rw [hmin, hfirst]

/-- A turn adds its write, if the one before went well. -/
theorem WavePlayed.turn {i : ℕ} (h : WavePlayed stream bufferSize data played i)
    (hrc : i = 0 ∨ 0 ≤ played.rc) {rc : ℤ}
    (hwrite : stream.write i (waveWrite stream bufferSize data i) = rc) :
    WavePlayed stream bufferSize data
      ⟨played.writes ++ [waveWrite stream bufferSize data i], rc⟩ (i + 1) := by
  refine ⟨?_, ?_, ?_⟩
  · rw [List.range_succ, List.map_append, ← h.writes]
    rfl
  · intro j hj
    obtain rfl : j = i := by omega
    exact hwrite.symm
  · intro j hj
    rcases Nat.lt_or_ge (j + 1) i with hlt | hge
    · exact h.wrote j hlt
    · -- The write before this one went well, since the loop went on.
      have hlast : j + 1 = i := by omega
      rw [← h.rc j hlast]
      exact hrc.resolve_left (by omega)

/-- The loop goes on as long as the writes go well. -/
theorem run_playSineWaveTurn (stream : OutStream Byte) (hdata : data.length = bufferSize) {k : ℕ}
    (hk : k ≤ kNumBuffersToWrite) :
    (∃ played, DoWhile.run (playSineWaveTurn stream bufferSize data) ⟨[], 0⟩ k = .inl played ∧
        WavePlayed stream bufferSize data played k ∧ (k = 0 ∨ 0 ≤ played.rc)) ∨
      ∃ played n, DoWhile.run (playSineWaveTurn stream bufferSize data) ⟨[], 0⟩ k =
          .inr (some played) ∧
        WavePlayed stream bufferSize data played n ∧ 0 < n ∧ n ≤ k ∧ played.rc < 0 := by
  induction k with
  | zero =>
    have hnone : WavePlayed stream bufferSize data ⟨[], 0⟩ 0 :=
      ⟨rfl, fun i hi => absurd hi (by omega), fun i hi => absurd hi (by omega)⟩
    exact .inl ⟨⟨[], 0⟩, rfl, hnone, .inl rfl⟩
  | succ k ih =>
    obtain ⟨played, hrun, hplayed, hrc⟩ | ⟨played, n, hrun, hplayed, hpos, hn, hrc⟩ := ih (by omega)
    · have hturn := playSineWaveTurn_eq stream hdata hk played
      have hplayed' := hplayed.turn hrc rfl
      rw [DoWhile.run_succ_of_inl hrun, hturn]
      dsimp only
      split
      · next hfailed => exact .inr ⟨_, k + 1, rfl, hplayed', by omega, by omega, hfailed⟩
      · next hwrote => exact .inl ⟨_, rfl, hplayed', .inr (Int.not_lt.mp hwrote)⟩
    · exact .inr ⟨played, n, DoWhile.run_succ_of_inr hrun, hplayed, hpos, by omega, hrc⟩

/-- **The loop of `PlaySineWave`** ends after its writes, or at the first one that fails. -/
theorem exists_wavePlayed (stream : OutStream Byte) (hdata : data.length = bufferSize) :
    ∃ played n, DoWhile.run (playSineWaveTurn stream bufferSize data) ⟨[], 0⟩
        (kNumBuffersToWrite + 1) = .inr (some played) ∧
      WavePlayed stream bufferSize data played n ∧ 0 < n ∧ n ≤ kNumBuffersToWrite ∧
        (n = kNumBuffersToWrite ∨ played.rc < 0) := by
  obtain ⟨played, hrun, hplayed, -⟩ | ⟨played, n, hrun, hplayed, hpos, hn, hrc⟩ :=
    run_playSineWaveTurn stream hdata (Nat.le_refl kNumBuffersToWrite)
  · refine ⟨played, kNumBuffersToWrite, ?_, hplayed, by decide, Nat.le_refl _, .inl rfl⟩
    rw [DoWhile.run_succ_of_inl hrun, playSineWaveTurn, if_neg (Nat.lt_irrefl _)]
  · exact ⟨played, n, DoWhile.run_succ_of_inr hrun, hplayed, hpos, hn, .inr hrc⟩

end

/-- The buffer of a read has the frames that its loop writes, and nothing else. -/
theorem SineSource.toList_of_read {amplitude : Amplitude} {source source' : SineSource} {i : ℕ}
    {buffer : MediaBuffer} (hchannels : source.mNumChannels = 1 ∨ source.mNumChannels = 2)
    (h : source.read amplitude = .ok (i, buffer, source')) :
    buffer.data.toList = source.frames amplitude := by
  have hframe : (source.frames amplitude).length =
      source.numFramesPerBuffer * if source.mNumChannels = 2 then 4 else 2 := by
    unfold SineSource.frames
    split_ifs <;> simp
  have hlength : (source.frames amplitude).length = kBufferSize := by
    rw [hframe, SineSource.numFramesPerBuffer]
    rcases hchannels with hmono | hstereo
    · rw [hmono]
      rfl
    · rw [hstereo]
      rfl
  unfold SineSource.read at h
  cases hacquire : BufferPool.acquire source.mGroup with
  | none =>
    rw [hacquire] at h
    cases h
  | some acquired =>
    rw [hacquire] at h
    dsimp only at h
    split_ifs at h with hrate
    obtain ⟨-, rfl, -⟩ : _ ∧ _ = buffer ∧ _ = source' := by
      simpa only [Except.ok.injEq, Prod.mk.injEq] using h
    rw [Bytes.toList_splice_of_add_eq (by rw [Nat.zero_add, hlength])]
    rfl

section

variable {amplitude : Amplitude} {stream : OutStream Byte} {sampleRate numChannels : BitVec 32}
  {data data' : Bytes (stream.getBufferSize 0)} {allocated : MediaBuffer} {source : SineSource}
  {turns : ℕ}

/-- What `GenerateData` fills, when it ends. -/
theorem toList_of_generateData (hchannels : numChannels = 1 ∨ numChannels = 2)
    (hpos : 0 < stream.getBufferSize 0)
    (h : generateData amplitude sampleRate numChannels data allocated turns =
      .inr (.ok (data', source))) :
    data'.toList = ((startedSource sampleRate numChannels allocated).frames amplitude).take
      (stream.getBufferSize 0) := by
  obtain ⟨hrate, hone⟩ := of_generateData hchannels hpos h
  obtain ⟨i, buffer, source', data'', hread, hend, hdata⟩ :=
    exists_generateData amplitude data allocated hchannels hpos hrate hone
  rw [generateData_eq_run hchannels] at h hend
  have hresult := DoWhile.result_unique h hend
  obtain rfl : data' = data'' := (Prod.mk.inj (Except.ok.inj hresult)).1
  rw [hdata, SineSource.toList_of_read hchannels hread]

/-- What `PlaySineWave` does once it has its data. -/
theorem playSineWave_of_generateData
    (h : generateData amplitude sampleRate numChannels data allocated turns =
      .inr (.ok (data', source))) :
    ∃ played n, playSineWave amplitude stream sampleRate numChannels data allocated turns =
        some (.played played) ∧
      0 < n ∧ n ≤ kNumBuffersToWrite ∧ (n = kNumBuffersToWrite ∨ played.rc < 0) ∧
        WavePlayed stream (stream.getBufferSize 0) data'.toList played n := by
  obtain ⟨played, n, hrun, hplayed, hpos, hn, hend⟩ :=
    exists_wavePlayed stream (Bytes.length_toList data')
  refine ⟨played, n, ?_, hpos, hn, hend, hplayed⟩
  unfold playSineWave
  rw [h]
  dsimp only
  rw [hrun]

/-- `PlaySineWave` has its data or halts before its loop. -/
theorem playSineWave_cases
    (amplitude : Amplitude) (sampleRate numChannels : BitVec 32)
    (data : Bytes (stream.getBufferSize 0)) (allocated : MediaBuffer) (turns : ℕ) :
    (∃ data' source, generateData amplitude sampleRate numChannels data allocated turns =
        .inr (.ok (data', source))) ∨
      playSineWave amplitude stream sampleRate numChannels data allocated turns = none ∨
      ∃ halt, playSineWave amplitude stream sampleRate numChannels data allocated turns =
        some (.halted halt) := by
  unfold playSineWave
  rcases generateData amplitude sampleRate numChannels data allocated turns with
    st | halt | ⟨data', source⟩
  · exact .inr (.inl rfl)
  · exact .inr (.inr ⟨halt, rfl⟩)
  · exact .inl ⟨data', source, rfl⟩

end

/-- **A sine wave is played** exactly when one buffer is enough for it and the sample rate is not
zero; otherwise nothing is written. What the stream gets are its first bytes, again and again, until
a write fails. The array is never left, whatever the stream says of its buffer. -/
theorem playSineWave_plays_iff (amplitude : Amplitude) (stream : OutStream Byte)
    (sampleRate : BitVec 32) {numChannels : BitVec 32}
    (hchannels : numChannels = 1 ∨ numChannels = 2) (hpos : 0 < stream.getBufferSize 0)
    (data : Bytes (stream.getBufferSize 0)) (allocated : MediaBuffer) :
    ((∃ turns played, playSineWave amplitude stream sampleRate numChannels data allocated turns =
        some (.played played)) ↔ sampleRate ≠ 0 ∧ stream.getBufferSize 0 ≤ kBufferSize) ∧
      (∀ turns, playSineWave amplitude stream sampleRate numChannels data allocated turns ≠
        some .overrun) ∧
      ∀ turns played, playSineWave amplitude stream sampleRate numChannels data allocated turns =
          some (.played played) →
        ∃ n, 0 < n ∧ n ≤ kNumBuffersToWrite ∧ (n = kNumBuffersToWrite ∨ played.rc < 0) ∧
          WavePlayed stream (stream.getBufferSize 0)
            (((startedSource sampleRate numChannels allocated).frames amplitude).take
              (stream.getBufferSize 0)) played n := by
  -- Only a run behind `GenerateData` has played anything.
  have hplays : ∀ turns played,
      playSineWave amplitude stream sampleRate numChannels data allocated turns =
        some (.played played) →
      ∃ data' source, generateData amplitude sampleRate numChannels data allocated turns =
        .inr (.ok (data', source)) := by
    intro turns played h
    obtain hdata | hnone | ⟨halt, hhalt⟩ :=
      playSineWave_cases amplitude sampleRate numChannels data allocated turns
    · exact hdata
    · cases hnone.symm.trans h
    · cases hhalt.symm.trans h
  refine ⟨⟨?_, ?_⟩, ?_, ?_⟩
  · rintro ⟨turns, played, h⟩
    obtain ⟨data', source, hdata⟩ := hplays turns played h
    exact of_generateData hchannels hpos hdata
  · rintro ⟨hrate, hone⟩
    obtain ⟨i, buffer, source', data', -, hend, -⟩ :=
      exists_generateData amplitude data allocated hchannels hpos hrate hone
    obtain ⟨played, n, h, -⟩ := playSineWave_of_generateData hend
    exact ⟨1, played, h⟩
  · intro turns h
    obtain ⟨data', source, hdata⟩ | hnone | ⟨halt, hhalt⟩ :=
      playSineWave_cases amplitude sampleRate numChannels data allocated turns
    · obtain ⟨played, n, hplayed, -⟩ := playSineWave_of_generateData hdata
      cases hplayed.symm.trans h
    · cases hnone.symm.trans h
    · cases hhalt.symm.trans h
  · intro turns played h
    obtain ⟨data', source, hdata⟩ := hplays turns played h
    obtain ⟨played', n, hplayed, hn⟩ := playSineWave_of_generateData hdata
    obtain rfl : played' = played := SineEnd.played.inj (Option.some.inj (hplayed.symm.trans h))
    rw [← toList_of_generateData hchannels hpos hdata]
    exact ⟨n, hn⟩

/-- A frame is played. -/
theorem playSineWave_plays_frame : ∃ turns played,
    playSineWave (fun _ _ _ => 0) ⟨fun _ => 4, fun _ _ => 0⟩ 48000 2 (Bytes.zero 4)
      ⟨Bytes.zero _, 0⟩ turns = some (.played played) :=
  (playSineWave_plays_iff (fun _ _ _ => 0) ⟨fun _ => 4, fun _ _ => 0⟩ 48000 (by decide) (by decide)
    (Bytes.zero 4) ⟨Bytes.zero _, 0⟩).1.mpr ⟨by decide, by decide⟩

/-! ## What is played of a file -/

section

variable (stream : OutStream (BitVec 16)) (streamChannels : ℕ)

/-- The samples that the array of `PlayFile` has room for. -/
def arraySize : ℕ := stream.getBufferSize 0 / kFrameSize streamChannels

/-- The frames that a turn asks for. -/
def framesWanted (i : ℕ) : ℕ := stream.getBufferSize (i + 1) / kFrameSize streamChannels

/-- The frames of a file of so many that are left before a turn. -/
def framesLeft (frames : ℕ) : ℕ → ℕ
  | 0 => frames
  | i + 1 => framesLeft frames i - framesWanted stream streamChannels i

/-- The frames that a turn reads. -/
def framesRead (frames i : ℕ) : ℕ :=
  min (framesWanted stream streamChannels i) (framesLeft stream streamChannels frames i)

/-- The array has room for every read, up to the first one that finds no frame. -/
def HasRoom (channels frames : ℕ) : Prop :=
  ∀ i, (∀ j < i, 0 < framesRead stream streamChannels frames j) →
    framesRead stream streamChannels frames i * max channels streamChannels ≤
      arraySize stream streamChannels

end

section

variable {channels : ℕ}

/-- The number of the samples of frames. -/
theorem length_samples (frames : List (Frame channels)) :
    (samples frames).length = frames.length * channels := by
  simp [samples]

variable {sfReadfShort : ℕ → List (Frame channels) → List (Frame channels)}
  {stream : OutStream (BitVec 16)} {streamChannels : ℕ} {file : List (Frame channels)}
  {contents : ℕ → BitVec 16} {st : FileState channels} {i turns : ℕ}

/-- The array after a read of so many frames. -/
def FileState.read (st : FileState channels) (framesRead : ℕ) : List (BitVec 16) :=
  samples (st.rest.take framesRead) ++ st.data.drop (framesRead * channels)

/-- The variables after a turn that goes well. -/
def FileState.next (st : FileState channels) (streamChannels framesRead : ℕ) :
    FileState channels where
  rest := st.rest.drop framesRead
  data := st.read framesRead
  writes := st.writes ++ [(st.read framesRead).take (framesRead * streamChannels)]

/-- A read within the array keeps its length. -/
theorem FileState.length_read (st : FileState channels) {n : ℕ} (hrest : n ≤ st.rest.length)
    (hdata : n * channels ≤ st.data.length) : (st.read n).length = st.data.length := by
  have htake : (st.rest.take n).length = n := List.length_take_of_le hrest
  rw [FileState.read, List.length_append, length_samples, htake, List.length_drop]
  omega

/-- A turn goes well exactly when the array has room for the samples of its frames, by the channels
of the file and by those of the stream. -/
theorem playFileTurn_eq (hread : ∀ n rest, sfReadfShort n rest = rest.take n) (i : ℕ) :
    playFileTurn sfReadfShort stream streamChannels i st =
      let m := min (framesWanted stream streamChannels i) st.rest.length
      if st.data.length < m * max channels streamChannels then .inr none
      else
        let rc := stream.write i ((st.read m).take (m * streamChannels))
        let st' := st.next streamChannels m
        if rc < 0 ∨ m = 0 then .inr (some ⟨st'.writes, rc⟩) else .inl st' := by
  have htake : st.rest.take (framesWanted stream streamChannels i) =
      st.rest.take (min (framesWanted stream streamChannels i) st.rest.length) := by
    simp [List.take_eq_take_iff]
  have hlength : (st.rest.take (min (framesWanted stream streamChannels i) st.rest.length)).length =
      min (framesWanted stream streamChannels i) st.rest.length := by
    rw [List.length_take]
    exact Nat.min_eq_left (Nat.min_le_right _ _)
  have hrest : min (framesWanted stream streamChannels i) st.rest.length ≤ st.rest.length :=
    Nat.min_le_right _ _
  have hwanted : stream.getBufferSize (i + 1) / kFrameSize streamChannels =
      framesWanted stream streamChannels i := rfl
  generalize min (framesWanted stream streamChannels i) st.rest.length = m at htake hlength hrest ⊢
  have hmax : m * max channels streamChannels = max (m * channels) (m * streamChannels) :=
    (Nat.mul_max_mul_left m channels streamChannels).symm
  unfold playFileTurn
  have hdata : samples (st.rest.take m) ++ st.data.drop (m * channels) = st.read m := rfl
  simp only [hread, hwanted, htake, hlength, hdata]
  rw [hmax]
  -- The read leaves the array, by the channels of the file; or the write does, by the stream's.
  rcases Nat.lt_or_ge st.data.length (m * channels) with hstore | hstore
  · rw [if_pos hstore, if_pos (Nat.lt_of_lt_of_le hstore (Nat.le_max_left _ _))]
  · have hlength' : (st.read m).length = st.data.length := st.length_read hrest hstore
    rw [if_neg (Nat.not_lt.mpr hstore)]
    rcases Nat.lt_or_ge st.data.length (m * streamChannels) with hload | hload
    · rw [if_pos (Nat.lt_of_lt_of_le hload (Nat.le_max_right _ _)), firstOf,
        if_neg (Nat.not_le.mpr (hlength' ▸ hload))]
    · rw [if_neg (Nat.not_lt.mpr (Nat.max_le.mpr ⟨hstore, hload⟩)), firstOf,
        if_pos (hlength' ▸ hload)]
      rfl

/-- The variables of `PlayFile` before a turn. -/
structure PlaysFile (stream : OutStream (BitVec 16)) (streamChannels : ℕ)
    (file : List (Frame channels)) (i : ℕ) (st : FileState channels) : Prop where
  length : st.data.length = arraySize stream streamChannels
  rest : st.rest.length = framesLeft stream streamChannels file.length i
  /-- As long as the stream has the channels of the file, it gets the samples of the file. -/
  writes : streamChannels = channels → st.writes.flatten ++ samples st.rest = samples file

/-- The variables before the loop. -/
theorem playsFile_fileStart : PlaysFile stream streamChannels file 0
    (fileStart stream streamChannels file contents) :=
  ⟨by simp [fileStart, arraySize], rfl, fun _ => by simp [fileStart]⟩

/-- A turn reads as many frames as the sizes say. -/
theorem PlaysFile.framesRead_eq (h : PlaysFile stream streamChannels file i st) :
    min (framesWanted stream streamChannels i) st.rest.length =
      framesRead stream streamChannels file.length i := by
  rw [h.rest, framesRead]

/-- A turn keeps the variables right. -/
theorem PlaysFile.next (h : PlaysFile stream streamChannels file i st)
    (hroom : framesRead stream streamChannels file.length i * max channels streamChannels ≤
      arraySize stream streamChannels) :
    PlaysFile stream streamChannels file (i + 1)
      (st.next streamChannels (framesRead stream streamChannels file.length i)) := by
  have hrest : framesRead stream streamChannels file.length i ≤ st.rest.length := by
    rw [h.rest]
    exact Nat.min_le_right _ _
  have hleft : st.rest.length - framesRead stream streamChannels file.length i =
      framesLeft stream streamChannels file.length (i + 1) := by
    rw [h.rest, framesRead, framesLeft]
    omega
  have hstore : framesRead stream streamChannels file.length i * channels ≤ st.data.length := by
    rw [h.length]
    exact Nat.le_trans (Nat.mul_le_mul_left _ (Nat.le_max_left _ _)) hroom
  generalize framesRead stream streamChannels file.length i = m at hrest hleft hstore ⊢
  refine ⟨?_, ?_, ?_⟩
  · exact (st.length_read hrest hstore).trans h.length
  · show (st.rest.drop m).length = _
    rw [List.length_drop, hleft]
  · rintro rfl
    have htake : (st.read m).take (m * streamChannels) = samples (st.rest.take m) := by
      have hlength : (samples (st.rest.take m)).length = m * streamChannels := by
        rw [length_samples, List.length_take_of_le hrest]
      rw [FileState.read, ← hlength, List.take_left]
    show (st.writes ++ [(st.read m).take (m * streamChannels)]).flatten ++
      samples (st.rest.drop m) = samples file
    rw [htake, ← h.writes rfl, List.flatten_append, List.flatten_singleton, List.append_assoc]
    congr 1
    rw [samples, samples, ← List.flatMap_append, List.take_append_drop]
    rfl

/-- The turn before which the variables are right. -/
theorem PlaysFile.turn_eq (hread : ∀ n rest, sfReadfShort n rest = rest.take n)
    (h : PlaysFile stream streamChannels file i st) :
    playFileTurn sfReadfShort stream streamChannels i st =
      let m := framesRead stream streamChannels file.length i
      if arraySize stream streamChannels < m * max channels streamChannels then .inr none
      else
        let rc := stream.write i ((st.read m).take (m * streamChannels))
        if rc < 0 ∨ m = 0 then .inr (some ⟨(st.next streamChannels m).writes, rc⟩)
        else .inl (st.next streamChannels m) := by
  rw [playFileTurn_eq hread, h.framesRead_eq, h.length]

/-- The variables stay right as long as the loop goes on, and every turn so far has read frames. -/
theorem playsFile_of_run (hread : ∀ n rest, sfReadfShort n rest = rest.take n)
    (hrun : DoWhile.run (playFileTurn sfReadfShort stream streamChannels)
      (fileStart stream streamChannels file contents) i = .inl st) :
    PlaysFile stream streamChannels file i st ∧
      ∀ j < i, 0 < framesRead stream streamChannels file.length j := by
  induction i generalizing st with
  | zero =>
    obtain rfl := Sum.inl.inj hrun
    exact ⟨playsFile_fileStart, fun j hj => absurd hj (Nat.not_lt_zero j)⟩
  | succ i ih =>
    obtain ⟨s, hs, hturn⟩ := DoWhile.exists_of_run_succ_eq_inl hrun
    obtain ⟨hplays, hreads⟩ := ih hs
    rw [hplays.turn_eq hread] at hturn
    dsimp only at hturn
    split_ifs at hturn with hlong hon
    rw [← Sum.inl.inj hturn]
    refine ⟨hplays.next (Nat.not_lt.mp hlong), fun j hj => ?_⟩
    rcases Nat.lt_succ_iff_lt_or_eq.mp hj with hlt | rfl
    · exact hreads j hlt
    · exact Nat.pos_of_ne_zero fun hzero => hon (.inr hzero)

/-- A stream whose writes do not fail comes to every turn before which all reads find frames, and
room for them. -/
theorem exists_run_playFile (contents : ℕ → BitVec 16)
    (hread : ∀ n rest, sfReadfShort n rest = rest.take n)
    (hwrites : ∀ i shorts, 0 ≤ stream.write i shorts)
    (hreads : ∀ j < i, 0 < framesRead stream streamChannels file.length j)
    (hroom : ∀ j < i, framesRead stream streamChannels file.length j *
      max channels streamChannels ≤ arraySize stream streamChannels) :
    ∃ st, DoWhile.run (playFileTurn sfReadfShort stream streamChannels)
      (fileStart stream streamChannels file contents) i = .inl st := by
  induction i with
  | zero => exact ⟨_, rfl⟩
  | succ i ih =>
    obtain ⟨s, hs⟩ := ih (fun j hj => hreads j (Nat.lt_succ_of_lt hj))
      fun j hj => hroom j (Nat.lt_succ_of_lt hj)
    refine ⟨s.next streamChannels (framesRead stream streamChannels file.length i),
      (DoWhile.run_succ_of_inl hs).trans ?_⟩
    rw [(playsFile_of_run hread hs).1.turn_eq hread]
    dsimp only
    rw [if_neg (Nat.not_lt.mpr (hroom i (Nat.lt_succ_self i))), if_neg]
    rintro (hfailed | hzero)
    · exact absurd hfailed (Int.not_lt.mpr (hwrites _ _))
    · exact absurd (hreads i (Nat.lt_succ_self i)) (Nat.not_lt.mpr (Nat.le_of_eq hzero))

/-- **The loop ends** where the array has room for every read: each turn that goes on reads frames
of the file. -/
theorem exists_played (contents : ℕ → BitVec 16)
    (hread : ∀ n rest, sfReadfShort n rest = rest.take n)
    (hroom : HasRoom stream streamChannels channels file.length) :
    ∃ played, DoWhile.run (playFileTurn sfReadfShort stream streamChannels)
      (fileStart stream streamChannels file contents) (file.length + 1) = .inr (some played) := by
  have hdec : ∀ k s s', DoWhile.run (playFileTurn sfReadfShort stream streamChannels)
      (fileStart stream streamChannels file contents) k = .inl s →
      playFileTurn sfReadfShort stream streamChannels k s = .inl s' →
      s'.rest.length < s.rest.length := by
    intro k s s' _ hturn
    rw [playFileTurn_eq hread] at hturn
    dsimp only at hturn
    split_ifs at hturn with _ hon
    have hpos : 0 < min (framesWanted stream streamChannels k) s.rest.length :=
      Nat.pos_of_ne_zero fun hzero => hon (.inr hzero)
    rw [← Sum.inl.inj hturn]
    show (s.rest.drop _).length < s.rest.length
    rw [List.length_drop]
    omega
  obtain ⟨result, hresult⟩ := DoWhile.exists_run_eq_inr hdec (Nat.lt_succ_self _)
  obtain ⟨k, s, hrun, hturn⟩ := DoWhile.exists_of_run_eq_inr hresult
  -- The turn that ends the loop stays within the array as well.
  obtain ⟨hplays, hreads⟩ := playsFile_of_run hread hrun
  rw [hplays.turn_eq hread] at hturn
  dsimp only at hturn
  rw [if_neg (Nat.not_lt.mpr (hroom k hreads))] at hturn
  split_ifs at hturn
  exact ⟨_, hresult.trans (congrArg Sum.inr (Sum.inr.inj hturn).symm)⟩

/-- The first read without room leaves the array, if no write fails before. -/
theorem exists_overrun (contents : ℕ → BitVec 16)
    (hread : ∀ n rest, sfReadfShort n rest = rest.take n)
    (hwrites : ∀ i shorts, 0 ≤ stream.write i shorts)
    (hroom : ¬HasRoom stream streamChannels channels file.length) :
    ∃ turns, DoWhile.run (playFileTurn sfReadfShort stream streamChannels)
      (fileStart stream streamChannels file contents) turns = .inr none := by
  have hlong : ∃ i, (∀ j < i, 0 < framesRead stream streamChannels file.length j) ∧
      arraySize stream streamChannels <
        framesRead stream streamChannels file.length i * max channels streamChannels := by
    simpa only [HasRoom, not_forall, Nat.not_le, exists_prop] using hroom
  classical
  obtain ⟨hreads, hlast⟩ := Nat.find_spec hlong
  obtain ⟨s, hs⟩ := exists_run_playFile contents hread hwrites hreads fun j hj =>
    Nat.not_lt.mp fun hj' =>
      Nat.find_min hlong hj ⟨fun k hk => hreads k (Nat.lt_trans hk hj), hj'⟩
  refine ⟨Nat.find hlong + 1, (DoWhile.run_succ_of_inl hs).trans ?_⟩
  rw [(playsFile_of_run hread hs).1.turn_eq hread]
  exact if_pos hlast

/-- What the stream has got when the loop ends. -/
theorem writes_of_played (hread : ∀ n rest, sfReadfShort n rest = rest.take n)
    {played : Played (BitVec 16)} (hchannels : streamChannels = channels)
    (hrun : DoWhile.run (playFileTurn sfReadfShort stream streamChannels)
      (fileStart stream streamChannels file contents) turns = .inr (some played)) :
    ∃ rest : List (Frame channels), played.writes.flatten ++ samples rest = samples file ∧
      (0 ≤ played.rc → (∀ i, 0 < framesWanted stream streamChannels i) → rest = []) := by
  obtain ⟨k, s, hk, hturn⟩ := DoWhile.exists_of_run_eq_inr hrun
  have hs := (playsFile_of_run hread hk).1
  rw [hs.turn_eq hread] at hturn
  dsimp only at hturn
  have hshort : ¬arraySize stream streamChannels <
      framesRead stream streamChannels file.length k * max channels streamChannels := by
    intro hlong
    rw [if_pos hlong] at hturn
    cases hturn
  rw [if_neg hshort] at hturn
  split_ifs at hturn with hend
  have hnext := hs.next (Nat.not_lt.mp hshort)
  obtain rfl := Option.some.inj (Sum.inr.inj hturn)
  refine ⟨_, hnext.writes hchannels, fun hrc hpos => ?_⟩
  -- The last write went well, so that the last read found no more frames.
  have hzero : framesRead stream streamChannels file.length k = 0 :=
    hend.resolve_left (Int.not_lt.mpr hrc)
  have hempty : s.rest.length = 0 := by
    have hwanted := hpos k
    rw [hs.rest]
    unfold framesRead at hzero
    omega
  show s.rest.drop _ = []
  rw [List.length_eq_zero_iff.mp hempty, List.drop_nil]

/-- On a stream that keeps its size and has the channels of the file, the first read is the longest:
a mono file always has room, and another one only if all its samples fit the array. -/
theorem hasRoom_steady_iff {frames : ℕ} (hpos : 0 < channels)
    (hsteady : ∀ i, stream.getBufferSize i = stream.getBufferSize 0)
    (hframe : 0 < arraySize stream channels) :
    HasRoom stream channels channels frames ↔
      channels = 1 ∨ frames * channels ≤ arraySize stream channels := by
  have hwanted (i : ℕ) : framesWanted stream channels i = arraySize stream channels := by
    rw [framesWanted, hsteady, arraySize]
  have hleft (i : ℕ) : framesLeft stream channels frames i ≤ frames := by
    induction i with
    | zero => exact Nat.le_refl _
    | succ i ih => exact Nat.le_trans (Nat.sub_le _ _) ih
  -- Every read asks for as many frames as the first one, and the file only gets shorter.
  have hfirst : HasRoom stream channels channels frames ↔
      min (arraySize stream channels) frames * channels ≤ arraySize stream channels := by
    constructor
    · intro h
      have hzero := h 0 fun j hj => absurd hj (Nat.not_lt_zero j)
      rwa [framesRead, hwanted, framesLeft, Nat.max_self] at hzero
    · intro h i _
      have hle : framesRead stream channels frames i ≤ min (arraySize stream channels) frames := by
        rw [framesRead, hwanted]
        exact Nat.le_min.mpr ⟨Nat.min_le_left _ _, Nat.le_trans (Nat.min_le_right _ _) (hleft i)⟩
      rw [Nat.max_self]
      exact Nat.le_trans (Nat.mul_le_mul_right _ hle) h
  rw [hfirst]
  generalize arraySize stream channels = n at hframe ⊢
  constructor
  · intro h
    rcases Nat.lt_or_ge 1 channels with hmany | hone
    · -- A whole buffer of frames never fits, so that the file is shorter.
      have hlong : n < n * channels := (Nat.lt_mul_iff_one_lt_right hframe).mpr hmany
      rcases Nat.le_total n frames with hle | hle
      · rw [Nat.min_eq_left hle] at h
        omega
      · exact .inr (by rwa [Nat.min_eq_right hle] at h)
    · exact .inl (by omega)
  · rintro (rfl | h)
    · rw [Nat.mul_one]
      exact Nat.min_le_left _ _
    · exact Nat.le_trans (Nat.mul_le_mul_right _ (Nat.min_le_right _ _)) h

end

/-- **A file is played** on a stream whose writes do not fail exactly when the array has room for
every read of it; otherwise `PlayFile` divides by zero or leaves its array. With room it stays in
the array whatever the writes return. As long as the stream has the channels of the file, it gets
the samples of the file in order, and all of them if no write fails and its buffer always holds a
frame. On a stream that keeps its size, there is room for a mono file, and for another one if all
its samples fit the array. -/
theorem playFile_plays_iff {channels : ℕ}
    {sfReadfShort : ℕ → List (Frame channels) → List (Frame channels)}
    (hread : ∀ n rest, sfReadfShort n rest = rest.take n) (stream : OutStream (BitVec 16))
    (streamChannels : ℕ) (file : List (Frame channels)) (contents : ℕ → BitVec 16) :
    ((∀ i shorts, 0 ≤ stream.write i shorts) →
      ((∃ turns played, playFile sfReadfShort stream streamChannels file contents turns =
          .inr (some played)) ↔
        0 < streamChannels ∧ HasRoom stream streamChannels channels file.length) ∧
      (¬(0 < streamChannels ∧ HasRoom stream streamChannels channels file.length) →
        ∃ turns, playFile sfReadfShort stream streamChannels file contents turns = .inr none)) ∧
    (0 < streamChannels ∧ HasRoom stream streamChannels channels file.length →
      ∃ turns played, playFile sfReadfShort stream streamChannels file contents turns =
        .inr (some played)) ∧
    (streamChannels = channels → ∀ turns played,
      playFile sfReadfShort stream streamChannels file contents turns = .inr (some played) →
        played.writes.flatten <+: samples file ∧
          (0 ≤ played.rc → (∀ i, 0 < framesWanted stream streamChannels i) →
            played.writes.flatten = samples file)) ∧
    (streamChannels = channels → 0 < channels → 0 < arraySize stream streamChannels →
      (∀ i, stream.getBufferSize i = stream.getBufferSize 0) →
        (HasRoom stream streamChannels channels file.length ↔
          channels = 1 ∨ file.length * channels ≤ arraySize stream streamChannels)) := by
  have hrun (hpos : 0 < streamChannels) (turns : ℕ) :
      playFile sfReadfShort stream streamChannels file contents turns =
        DoWhile.run (playFileTurn sfReadfShort stream streamChannels)
          (fileStart stream streamChannels file contents) turns :=
    if_neg (by unfold kFrameSize; omega)
  have hzero (hnot : ¬0 < streamChannels) (turns : ℕ) :
      playFile sfReadfShort stream streamChannels file contents turns = .inr none :=
    if_pos (by unfold kFrameSize; omega)
  -- With room every turn stays in the array, and the file has an end.
  have hplays (h : 0 < streamChannels ∧ HasRoom stream streamChannels channels file.length) :
      ∃ turns played, playFile sfReadfShort stream streamChannels file contents turns =
        .inr (some played) := by
    obtain ⟨played, hplayed⟩ := exists_played contents hread h.2
    exact ⟨file.length + 1, played, (hrun h.1 _).trans hplayed⟩
  refine ⟨fun hwrites => ?_, hplays, ?_, ?_⟩
  · have hcrash (h : ¬(0 < streamChannels ∧
        HasRoom stream streamChannels channels file.length)) :
        ∃ turns, playFile sfReadfShort stream streamChannels file contents turns = .inr none := by
      by_cases hpos : 0 < streamChannels
      · obtain ⟨turns, hturns⟩ := exists_overrun contents hread hwrites
          fun hroom => h ⟨hpos, hroom⟩
        exact ⟨turns, (hrun hpos turns).trans hturns⟩
      · exact ⟨0, hzero hpos 0⟩
    refine ⟨⟨fun ⟨turns, played, h⟩ => ?_, hplays⟩, hcrash⟩
    -- A run that ends in a crash does not end otherwise.
    by_contra hnot
    obtain ⟨turns', h'⟩ := hcrash hnot
    by_cases hpos : 0 < streamChannels
    · rw [hrun hpos] at h h'
      cases DoWhile.result_unique h h'
    · cases (hzero hpos turns).symm.trans h
  · intro hchannels turns played h
    by_cases hpos : 0 < streamChannels
    · rw [hrun hpos] at h
      obtain ⟨rest, hwrites, hall⟩ := writes_of_played hread hchannels h
      refine ⟨⟨samples rest, hwrites⟩, fun hrc hbuffer => ?_⟩
      rw [← hwrites, hall hrc hbuffer]
      exact (List.append_nil _).symm
    · cases (hzero hpos turns).symm.trans h
  · rintro rfl hpos hframe hsteady
    exact hasRoom_steady_iff hpos hsteady hframe

/-- A stream whose buffer has two frames at first, and four from then on. -/
def growingStream : OutStream (BitVec 16) := ⟨fun i => if i = 0 then 4 else 8, fun _ _ => 0⟩

/-- A mono file of two frames is played on that stream, and one of four frames leaves the array. -/
theorem playFile_growingStream :
    (∃ turns played, playFile (fun n rest => rest.take n) growingStream 1
        (List.replicate 2 (Vector.replicate 1 7)) (fun _ => 0) turns = .inr (some played) ∧
      played.writes.flatten = samples (List.replicate 2 (Vector.replicate 1 (7 : BitVec 16)))) ∧
    ∃ turns, playFile (fun n rest => rest.take n) growingStream 1
      (List.replicate 4 (Vector.replicate 1 7)) (fun _ => 0) turns = .inr none := by
  constructor
  · have hplays := playFile_plays_iff (fun _ _ => rfl) growingStream 1
      (List.replicate 2 (Vector.replicate 1 7)) fun _ => 0
    have hplayed : playFile (fun n rest => rest.take n) growingStream 1
        (List.replicate 2 (Vector.replicate 1 7)) (fun _ => 0) 2 =
        .inr (some ⟨[[7, 7], []], 0⟩) := rfl
    have hbuffer : ∀ i, 0 < framesWanted growingStream 1 i := fun i => by
      simp [framesWanted, growingStream, kFrameSize]
    exact ⟨2, _, hplayed, (hplays.2.2.1 rfl 2 _ hplayed).2 (Int.le_refl 0) hbuffer⟩
  · have hplays := playFile_plays_iff (fun _ _ => rfl) growingStream 1
      (List.replicate 4 (Vector.replicate 1 7)) fun _ => 0
    refine (hplays.1 fun _ _ => Int.le_refl 0).2 fun h => ?_
    exact absurd (h.2 0 fun j hj => absurd hj (Nat.not_lt_zero j)) (by decide)

end BrilloBoot
