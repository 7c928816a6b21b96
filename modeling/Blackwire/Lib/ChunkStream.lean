import Blackwire.Lib.Frames
import Blackwire.Lib.Serve

/-!
# Streams of chunks

A stream above another one that sends every write as a chunk.  A `ChunkCodec` says how the data of a
chunk becomes a frame, and what can be decoded of the bytes that have arrived; the rest is the same
for all such streams: a `ChunkStream` buffers ciphertext and decoded data, and polls the stream
below.
-/

namespace AsyncIO

open List AsyncRead Frames AsyncWrite

variable {σ ρ ω γ : Type}

/-! ### The stream -/

/-- How chunks are made and taken apart.  `decode` gets the state of the reader and the bytes that
have arrived; it wants more, or it fails, or it takes a chunk off them.  `encode` gets what is drawn
at random for a chunk, its data and the state of the writer; it gives what is appended to the buffer
also when it fails. -/
structure ChunkCodec (ρ ω γ : Type) where
  maxChunk : ℕ
  readChunk : ℕ
  writeZero : String
  decode : ρ → Bytes → Option (Except Fault Bytes) × ρ × Bytes
  encode : γ → Bytes → ω → Option Fault × Bytes × ω

structure ChunkStream (σ ρ ω : Type) where
  inner : σ
  read : ρ
  readBuf : Bytes
  readRaw : Bytes
  write : ω
  writeBuf : Bytes

namespace ChunkStream

variable (codec : ChunkCodec ρ ω γ)

def tryDecode (s : ChunkStream σ ρ ω) : Option (Except Fault Bytes) × ChunkStream σ ρ ω :=
  match codec.decode s.read s.readRaw with
  | (result, read, readRaw) => (result, { s with read, readRaw })

section Read

variable [AsyncRead σ]

def pollReadAux (cap : ℕ) : ℕ → ChunkStream σ ρ ω → Poll × ChunkStream σ ρ ω
  | 0, s => (.pending, s)
  | fuel + 1, s =>
    if s.readBuf ≠ [] then
      (.ready (s.readBuf.take cap), { s with readBuf := s.readBuf.drop cap })
    else
      match s.tryDecode codec with
      | (some (.ok pt), s) =>
        if pt = [] then (.ready [], s) else pollReadAux cap fuel { s with readBuf := pt }
      | (some (.error e), s) => (.failed e, s)
      | (none, s) =>
        match pollRead codec.readChunk s.inner with
        | (.pending _, inner) => (.pending, { s with inner })
        | (.ready bs, inner) =>
          if bs = [] then (.ready [], { s with inner })
          else
            match tryDecode codec { s with inner, readRaw := s.readRaw ++ bs } with
            | (some (.ok pt), s) =>
              if pt = [] then (.ready [], s) else pollReadAux cap fuel { s with readBuf := pt }
            | (some (.error e), s) => (.failed e, s)
            | (none, s) => pollReadAux cap fuel s

def pollRead (cap : ℕ) (s : ChunkStream σ ρ ω) : Poll × ChunkStream σ ρ ω :=
  s.pollReadAux codec cap ((rest s.inner).length + 2)

end Read

section Write

variable [AsyncWrite σ]

def drainWriteBuf (s : ChunkStream σ ρ ω) : DrainEnd × ChunkStream σ ρ ω :=
  match drain s.writeBuf s.inner with
  | (e, n, inner) => (e, { s with inner, writeBuf := s.writeBuf.drop n })

def ofDrainEnd : DrainEnd → PollWrite
  | .failed e => .failed e
  | .writeZero => .failed (.writeZero codec.writeZero)
  | _ => .pending

/-- A write once the buffer is empty: one chunk is queued, and written as far as possible. -/
def writeChunk (draw : γ) (buf : Bytes) (s : ChunkStream σ ρ ω) : PollWrite × ChunkStream σ ρ ω :=
  let chunk := buf.take codec.maxChunk
  match codec.encode draw chunk s.write with
  | (some e, bytes, write) => (.failed e, { s with write, writeBuf := s.writeBuf ++ bytes })
  | (none, bytes, write) =>
    match drainWriteBuf { s with write, writeBuf := s.writeBuf ++ bytes } with
    | (.done, s) => (.ready chunk.length, s)
    | (.pending, s) => (.ready chunk.length, s)
    | (e, s) => (ofDrainEnd codec e, s)

def pollWrite (draw : γ) (buf : Bytes) (s : ChunkStream σ ρ ω) : PollWrite × ChunkStream σ ρ ω :=
  match s.drainWriteBuf with
  | (.done, s) => s.writeChunk codec draw buf
  | (e, s) => (ofDrainEnd codec e, s)

def pollFlush (s : ChunkStream σ ρ ω) : DrainEnd × ChunkStream σ ρ ω := s.drainWriteBuf

inductive Op (γ : Type)
  | write (buf : Bytes) (draw : γ)
  | flush

def Op.NonEmpty : Op γ → Prop
  | .write buf _ => buf ≠ []
  | .flush => True

def perform : List (Op γ) → ChunkStream σ ρ ω → Except Fault (Bytes × ChunkStream σ ρ ω)
  | [], s => .ok ([], s)
  | .write buf draw :: ops, s =>
    match s.pollWrite codec draw buf with
    | (.pending, s) => perform ops s
    | (.ready n, s) => (perform ops s).map fun result => (buf.take n ++ result.1, result.2)
    | (.failed e, _) => .error e
  | .flush :: ops, s =>
    match s.pollFlush with
    | (.failed e, _) => .error e
    | (.writeZero, _) => .error (.writeZero codec.writeZero)
    | (_, s) => perform ops s

end Write

end ChunkStream

/-! ### Chunks as frames -/

structure Chunk (codec : ChunkCodec ρ ω γ) where
  data : Bytes
  draw : γ
  data_ne_nil : data ≠ []
  length_data : data.length ≤ codec.maxChunk

namespace ChunkCodec

variable (codec : ChunkCodec ρ ω γ)

def sealChunk (w : ω) (chunk : Chunk codec) : Bytes × ω := (codec.encode chunk.draw chunk.data w).2

/-- What makes a codec invertible.  `Ready` holds of the states of a writer that frames its chunks;
`At w todo r` says that the state `r` of a reader fits in front of the frames of `todo`, when the
writer was in the state `w` there. -/
structure Framing where
  Ready : ω → Prop
  At : ω → List (Chunk codec) → ρ → Prop
  maxChunk_pos : 0 < codec.maxChunk
  readChunk_pos : 0 < codec.readChunk
  encode_ok : ∀ w (chunk : Chunk codec), Ready w → (codec.encode chunk.draw chunk.data w).1 = none
  ready_seal : ∀ w chunk, Ready w → Ready (codec.sealChunk w chunk).2
  decode_nil : ∀ w r, Ready w → At w [] r → ∃ r', codec.decode r [] = (none, r', []) ∧ At w [] r'
  decode_short : ∀ w chunk todo r raw, Ready w → At w (chunk :: todo) r →
    raw <+: (codec.sealChunk w chunk).1 → raw.length < (codec.sealChunk w chunk).1.length →
    ∃ r', codec.decode r raw = (none, r', raw) ∧ At w (chunk :: todo) r'
  decode_full : ∀ w chunk todo r tail, Ready w → At w (chunk :: todo) r →
    ∃ r', codec.decode r ((codec.sealChunk w chunk).1 ++ tail) = (some (.ok chunk.data), r', tail) ∧
      At (codec.sealChunk w chunk).2 todo r'

end ChunkCodec

def payload {codec : ChunkCodec ρ ω γ} (chunks : List (Chunk codec)) : Bytes :=
  (chunks.map Chunk.data).flatten

variable {codec : ChunkCodec ρ ω γ} {reader : ChunkStream σ ρ ω}

@[simp] theorem payload_nil : payload ([] : List (Chunk codec)) = [] :=
  rfl

@[simp] theorem payload_cons (chunk : Chunk codec)
    (chunks : List (Chunk codec)) : payload (chunk :: chunks) = chunk.data ++ payload chunks := rfl

@[simp] theorem payload_append (chunks chunks' : List (Chunk codec)) :
    payload (chunks ++ chunks') = payload chunks ++ payload chunks' := by
  simp [payload]

namespace ChunkStream

variable {codec : ChunkCodec ρ ω γ} (framing : codec.Framing) {s : ChunkStream σ ρ ω}

theorem ready_endState {start : ω} (hstart : framing.Ready start) (chunks : List (Chunk codec)) :
    framing.Ready (endState codec.sealChunk start chunks) := by
  induction chunks generalizing start with
  | nil => exact hstart
  | cons chunk chunks ih => exact ih (framing.ready_seal start chunk hstart)

/-! ### The reader -/

section Reader

variable [AsyncRead σ]

/-- The reader of the frames of `chunks` has `bs` yet to deliver: it has decoded some of the chunks,
and has received or will receive the frames of the others.  The last bytes may never arrive; they
are `missing`. -/
def Reads (start : ω) (chunks : List (Chunk codec)) (missing : Bytes) (s : ChunkStream σ ρ ω)
    (bs : Bytes) : Prop :=
  ∃ decoded todo, chunks = decoded ++ todo ∧
    framing.At (endState codec.sealChunk start decoded) todo s.read ∧
    s.readRaw ++ rest s.inner ++ missing =
      encodeAll codec.sealChunk (endState codec.sealChunk start decoded) todo ∧
    bs = s.readBuf ++ payload todo

variable {framing} {start : ω} {chunks : List (Chunk codec)} {missing bs : Bytes}
  {s : ChunkStream σ ρ ω}

section

variable (h : Reads framing start chunks missing s bs)
include h

theorem Reads.tryDecode (hstart : framing.Ready start) (hbuf : s.readBuf = []) :
    (∃ pt s', s.tryDecode codec = (some (.ok pt), s') ∧ pt ≠ [] ∧ s'.inner = s.inner ∧
      Reads framing start chunks missing { s' with readBuf := pt } bs) ∨
    (∃ s', s.tryDecode codec = (none, s') ∧ s'.inner = s.inner ∧ s'.readBuf = [] ∧
      Reads framing start chunks missing s' bs ∧
      (missing = [] → rest s.inner = [] → bs = [])) := by
  obtain ⟨decoded, todo, rfl, hat, hwire, rfl⟩ := h
  have hready := ready_endState framing hstart decoded
  have hraw : s.readRaw <+: encodeAll codec.sealChunk
      (endState codec.sealChunk start decoded) todo := by
    rw [← hwire, append_assoc]
    exact prefix_append _ _
  rw [hbuf, nil_append]
  cases todo with
  | nil =>
    have hnil : s.readRaw = [] := prefix_nil.1 hraw
    obtain ⟨r', hdecode, hat'⟩ := framing.decode_nil _ _ hready hat
    refine .inr ⟨{ s with read := r', readRaw := [] }, ?_, rfl, hbuf, ?_, fun _ _ => rfl⟩
    · simp only [tryDecode, hnil, hdecode]
    · exact ⟨decoded, [], rfl, hat', by rw [← hwire, hnil], by rw [hbuf]; rfl⟩
  | cons chunk todo =>
    obtain ⟨tail, htail, -⟩ | ⟨hlen, hpre⟩ := prefix_encodeAll_cons hraw
    · obtain ⟨r', hdecode, hat'⟩ := framing.decode_full _ chunk todo _ tail hready hat
      rw [← htail] at hdecode
      refine .inl ⟨chunk.data, { s with read := r', readRaw := tail }, ?_, chunk.data_ne_nil, rfl,
        ⟨decoded ++ [chunk], todo, append_cons .., ?_, ?_, rfl⟩⟩
      · simp only [tryDecode, hdecode]
      · rwa [endState_append]
      · rw [htail, encodeAll, append_assoc, append_assoc, append_cancel_left_eq] at hwire
        rw [endState_append, append_assoc]
        exact hwire
    · obtain ⟨r', hdecode, hat'⟩ := framing.decode_short _ chunk todo _ _ hready hat hpre hlen
      refine .inr ⟨{ s with read := r' }, ?_, rfl, hbuf,
        ⟨decoded, _, rfl, hat', hwire, by rw [hbuf]; rfl⟩, ?_⟩
      · simp only [tryDecode, hdecode]
      · intro hmissing hrest
        -- then the buffer holds the whole frame
        rw [hmissing, hrest, append_nil, append_nil, encodeAll] at hwire
        have := congrArg List.length hwire
        rw [length_append] at this
        omega

theorem Reads.receive {ds : Bytes} {inner : σ} (hrest : rest s.inner = ds ++ rest inner) :
    Reads framing start chunks missing { s with inner, readRaw := s.readRaw ++ ds } bs := by
  obtain ⟨decoded, todo, hchunks, hat, hwire, rfl⟩ := h
  refine ⟨decoded, todo, hchunks, hat, ?_, rfl⟩
  rw [hrest] at hwire
  simpa only [append_assoc] using hwire

end

structure AnswerReads (framing : codec.Framing) (start : ω) (chunks : List (Chunk codec))
    (missing : Bytes) (cap : ℕ) (s : ChunkStream σ ρ ω) (bs : Bytes)
    (answer : Poll × ChunkStream σ ρ ω) : Prop where
  serves : AnswerServes (Reads framing start chunks missing) (fun s => stalls s.inner) s
    bs answer
  eof : missing = [] → 0 < cap → answer.1 = .ready [] → bs = []

theorem AnswerReads.of_stalls_le {cap : ℕ} {s' : ChunkStream σ ρ ω}
    {answer : Poll × ChunkStream σ ρ ω}
    (h : AnswerReads framing start chunks missing cap s' bs answer)
    (hstalls : stalls s'.inner ≤ stalls s.inner) :
    AnswerReads framing start chunks missing cap s bs answer :=
  ⟨h.serves.of_stalls_le hstalls, h.eof⟩

theorem Reads.takeBuf (h : Reads framing start chunks missing s bs) (hbuf : s.readBuf ≠ [])
    (cap : ℕ) :
    AnswerReads framing start chunks missing cap s bs
      (.ready (s.readBuf.take cap), { s with readBuf := s.readBuf.drop cap }) := by
  obtain ⟨decoded, todo, hchunks, hat, hwire, rfl⟩ := h
  refine ⟨⟨s.readBuf.drop cap ++ payload todo, ?_, ⟨decoded, todo, hchunks, hat, hwire, rfl⟩,
    le_rfl⟩, ?_⟩
  · rw [← append_assoc, take_append_drop]
  · intro _ hcap hout
    rw [Poll.ready.injEq, take_eq_nil_iff] at hout
    exact absurd hout (not_or.2 ⟨hcap.ne', hbuf⟩)

section

variable (hstart : framing.Ready start)
include hstart

theorem Reads.pollReadAux (cap : ℕ) {fuel : ℕ} (h : Reads framing start chunks missing s bs)
    (hfuel : (AsyncRead.rest s.inner).length + (if s.readBuf = [] then 2 else 1) ≤ fuel) :
    AnswerReads framing start chunks missing cap s bs (s.pollReadAux codec cap fuel) := by
  induction fuel generalizing s with
  | zero => split_ifs at hfuel <;> omega
  | succ fuel ih =>
    unfold ChunkStream.pollReadAux
    by_cases hbuf : s.readBuf ≠ []
    · rw [if_pos hbuf]
      exact h.takeBuf hbuf cap
    rw [if_neg hbuf]
    rw [not_not] at hbuf
    rw [if_pos hbuf] at hfuel
    obtain ⟨pt, s₁, htry, hpt, hinner, h₁⟩ | ⟨s₁, htry, hinner, hbuf₁, h₁, heof⟩ :=
      h.tryDecode hstart hbuf
    · simp only [htry, if_neg hpt]
      refine (ih h₁ ?_).of_stalls_le (by rw [hinner])
      rw [if_neg hpt, hinner]
      omega
    · -- nothing can be decoded, so the stream below is polled
      simp only [htry]
      rcases hpoll : AsyncRead.pollRead codec.readChunk s₁.inner with ⟨_ | ds, inner⟩
      · have hrest : AsyncRead.rest s₁.inner = [] ++ AsyncRead.rest inner :=
          (AsyncRead.rest_pending hpoll).symm
        have hstalls := AsyncRead.stalls_pending hpoll
        rw [hinner] at hstalls
        have h₂ := h₁.receive hrest
        rw [append_nil] at h₂
        exact ⟨⟨h₂, hstalls⟩, fun _ _ hout => by cases hout⟩
      · have hrest := AsyncRead.rest_ready hpoll
        have hstalls := AsyncRead.stalls_ready hpoll
        rw [hinner] at hstalls
        by_cases hds : ds = []
        · subst hds
          obtain ⟨k, hk⟩ : ∃ k, codec.readChunk = k + 1 :=
            ⟨codec.readChunk - 1, by have := framing.readChunk_pos; omega⟩
          rw [hk] at hpoll
          have hend : AsyncRead.rest s₁.inner = [] := AsyncRead.rest_eof hpoll
          have h₂ := h₁.receive hrest
          rw [append_nil] at h₂
          refine ⟨⟨bs, rfl, h₂, hstalls⟩, fun hmissing _ _ => ?_⟩
          exact heof hmissing (by rw [← hinner, hend])
        -- the bytes that have arrived pay for the fuel of the next iteration
        simp only [if_neg hds]
        have hpos : 0 < ds.length := length_pos_iff.2 hds
        have hlen := congrArg List.length hrest
        rw [length_append, hinner] at hlen
        obtain ⟨pt, s₂, htry₂, hpt, hinner₂, h₂⟩ | ⟨s₂, htry₂, hinner₂, hbuf₂, h₂, -⟩ :=
          (h₁.receive hrest).tryDecode hstart hbuf₁
        · dsimp only at hinner₂
          simp only [htry₂, if_neg hpt]
          refine (ih h₂ ?_).of_stalls_le (by rw [hinner₂]; exact hstalls)
          rw [if_neg hpt, hinner₂]
          omega
        · dsimp only at hinner₂
          simp only [htry₂]
          refine (ih h₂ ?_).of_stalls_le (by rw [hinner₂]; exact hstalls)
          rw [if_pos hbuf₂, hinner₂]
          omega

theorem Reads.pollRead (cap : ℕ) (h : Reads framing start chunks missing s bs) :
    AnswerReads framing start chunks missing cap s bs (s.pollRead codec cap) := by
  refine Reads.pollReadAux hstart cap h ?_
  split_ifs <;> omega

/-- **The reader.**  Every poll hands out bytes from the front of what is left. -/
theorem serves_pollRead (chunks : List (Chunk codec)) (missing : Bytes) :
    Serves (σ := ChunkStream σ ρ ω) (pollRead codec) (Reads framing start chunks missing)
      (fun s => stalls s.inner) :=
  fun cap _ _ h => (h.pollRead hstart cap).serves

end

end Reader

/-! ### The writer -/

section Writer

variable [AsyncWrite σ]

/-- The writer has framed `chunks`: what it has sent, with what it has yet to send, are their
frames. -/
structure Writes (start : ω) (chunks : List (Chunk codec)) (s : ChunkStream σ ρ ω) : Prop where
  write : s.write = endState codec.sealChunk start chunks
  wire : written s.inner ++ s.writeBuf =
    encodeAll codec.sealChunk start chunks

variable {framing} {start : ω} {chunks : List (Chunk codec)}

def chunkOfWrite (framing : codec.Framing) (draw : γ) {buf : Bytes} (hbuf : buf ≠ []) :
    Chunk codec where
  data := buf.take codec.maxChunk
  draw := draw
  data_ne_nil := by
    rw [ne_eq, take_eq_nil_iff]
    exact not_or.2 ⟨framing.maxChunk_pos.ne', hbuf⟩
  length_data := length_take_le _ _

theorem Writes.drainWriteBuf (h : Writes start chunks s) :
    Writes start chunks s.drainWriteBuf.2 := by
  have hdrained := drain_spec s.writeBuf s.inner
  refine ⟨h.write, ?_⟩
  show written (drain s.writeBuf s.inner).2.2 ++
    s.writeBuf.drop (drain s.writeBuf s.inner).2.1 = _
  rw [hdrained.written, append_assoc, take_append_drop, h.wire]

/-- A chunk is framed behind the others. -/
theorem Writes.queue (hstart : framing.Ready start)
    (h : Writes start chunks s) (chunk : Chunk codec) :
    ∃ bytes write, codec.encode chunk.draw chunk.data s.write = (none, bytes, write) ∧
      Writes start (chunks ++ [chunk])
        { s with write := write, writeBuf := s.writeBuf ++ bytes } := by
  have hok := framing.encode_ok _ chunk (ready_endState framing hstart chunks)
  rw [← h.write] at hok
  rcases hencode : codec.encode chunk.draw chunk.data s.write with ⟨error, bytes, write⟩
  rw [hencode] at hok
  have hseal : codec.sealChunk (endState codec.sealChunk start chunks) chunk =
      (bytes, write) := by
    rw [ChunkCodec.sealChunk, ← h.write, hencode]
  refine ⟨bytes, write, by rw [show error = none from hok], ?_, ?_⟩
  · rw [endState_append, endState, hseal, endState]
  · rw [encodeAll_append, encodeAll, hseal, encodeAll, append_nil, ← h.wire]
    exact (append_assoc _ _ _).symm

theorem drainWriteBuf_sink (s : ChunkStream Sink ρ ω) :
    (∃ s', s.drainWriteBuf = (.done, s') ∧ s'.writeBuf = [] ∧
      blocks s'.inner ≤ blocks s.inner) ∨
    (∃ s', s.drainWriteBuf = (.pending, s') ∧
      blocks s'.inner < blocks s.inner) := by
  have hdrained := drain_spec s.writeBuf s.inner
  have hend := Sink.drain_end s.writeBuf s.inner
  rcases hdrain : drain s.writeBuf s.inner with ⟨e, n, inner⟩
  rw [hdrain] at hdrained hend
  have heq : s.drainWriteBuf = (e, { s with inner, writeBuf := s.writeBuf.drop n }) := by
    rw [drainWriteBuf, hdrain]
  obtain rfl | rfl := hend
  · refine .inl ⟨_, heq, ?_, hdrained.blocks_le rfl⟩
    exact drop_eq_nil_of_le (hdrained.done rfl).ge
  · exact .inr ⟨_, heq, hdrained.blocks_lt rfl⟩

variable {s : ChunkStream Sink ρ ω}

section

variable (hstart : framing.Ready start)
include hstart

section

variable (h : Writes start chunks s)
include h

/-- A write on an empty buffer frames one chunk. -/
theorem Writes.writeChunk (draw : γ) {buf : Bytes} (hbuf : buf ≠ []) :
    ∃ s', s.writeChunk codec draw buf = (.ready (buf.take codec.maxChunk).length, s') ∧
      Writes start (chunks ++ [chunkOfWrite framing draw hbuf]) s' ∧
      blocks s'.inner ≤ blocks s.inner := by
  obtain ⟨bytes, write, hencode, hqueue⟩ := h.queue hstart (chunkOfWrite framing draw hbuf)
  simp only [chunkOfWrite] at hencode
  have hwrites := hqueue.drainWriteBuf
  simp only [ChunkStream.writeChunk, hencode]
  obtain ⟨s', hdrain, -, hblocks⟩ | ⟨s', hdrain, hblocks⟩ := drainWriteBuf_sink
    { s with write := write, writeBuf := s.writeBuf ++ bytes }
  · rw [hdrain] at hwrites ⊢
    exact ⟨s', rfl, hwrites, hblocks⟩
  · rw [hdrain] at hwrites ⊢
    exact ⟨s', rfl, hwrites, hblocks.le⟩

/-- What a write does over a sink: it is refused for now, or one chunk is framed. -/
theorem Writes.pollWrite (draw : γ) {buf : Bytes} (hbuf : buf ≠ []) :
    ∃ s', blocks s'.inner ≤ blocks s.inner ∧
      ((s.pollWrite codec draw buf = (.pending, s') ∧ Writes start chunks s') ∨
      (s.pollWrite codec draw buf = (.ready (buf.take codec.maxChunk).length, s') ∧
        Writes start (chunks ++ [chunkOfWrite framing draw hbuf]) s')) := by
  have hwrites := h.drainWriteBuf
  obtain ⟨s₁, hdrain, -, hblocks⟩ | ⟨s₁, hdrain, hblocks⟩ := drainWriteBuf_sink s
  · rw [hdrain] at hwrites
    obtain ⟨s₂, hwrite, hwrites₂, hblocks₂⟩ := hwrites.writeChunk hstart draw hbuf
    refine ⟨s₂, hblocks₂.trans hblocks, .inr ⟨?_, hwrites₂⟩⟩
    simp only [ChunkStream.pollWrite, hdrain, hwrite]
  · rw [hdrain] at hwrites
    refine ⟨s₁, hblocks.le, .inl ⟨?_, hwrites⟩⟩
    simp only [ChunkStream.pollWrite, hdrain, ofDrainEnd]

/-- What one call does over a sink: nothing fails, and what was accepted has been framed. -/
theorem Writes.step {op : Op γ} (hop : op.NonEmpty) :
    ∃ framed s', Writes start (chunks ++ framed) s' ∧ framed.length ≤ 1 ∧
      blocks s'.inner ≤ blocks s.inner ∧
      ∀ ops, perform codec (op :: ops) s =
        (perform codec ops s').map fun result => (payload framed ++ result.1, result.2) := by
  have hid : ∀ result : Except Fault (Bytes × ChunkStream Sink ρ ω),
      (result.map fun r => (payload ([] : List (Chunk codec)) ++ r.1, r.2)) = result := by
    intro result
    cases result <;> rfl
  cases op with
  | write buf draw =>
    obtain ⟨s₁, hblocks, ⟨hpoll, h₁⟩ | ⟨hpoll, h₁⟩⟩ := h.pollWrite hstart draw hop
    · refine ⟨[], s₁, by rwa [append_nil], Nat.zero_le _, hblocks, fun ops => ?_⟩
      simp only [perform, hpoll, hid]
    · refine ⟨[chunkOfWrite framing draw hop], s₁, h₁, le_rfl, hblocks, fun ops => ?_⟩
      simp only [perform, hpoll, length_take, ← take_eq_take_min]
      rw [payload_cons, payload_nil, append_nil]
      rfl
  | flush =>
    have h₁ := h.drainWriteBuf
    obtain ⟨s₁, hdrain, -, hblocks⟩ | ⟨s₁, hdrain, hblocks⟩ := drainWriteBuf_sink s
    · rw [hdrain] at h₁
      refine ⟨[], s₁, by rwa [append_nil], Nat.zero_le _, hblocks, fun ops => ?_⟩
      simp only [perform, pollFlush, hdrain, hid]
    · rw [hdrain] at h₁
      refine ⟨[], s₁, by rwa [append_nil], Nat.zero_le _, hblocks.le, fun ops => ?_⟩
      simp only [perform, pollFlush, hdrain, hid]

theorem Writes.perform {ops : List (Op γ)} (hops : ∀ op ∈ ops, op.NonEmpty) :
    ∃ framed s', perform codec ops s = .ok (payload framed, s') ∧
      Writes start (chunks ++ framed) s' ∧
      blocks s'.inner ≤ blocks s.inner ∧
      ∀ earlier, earlier <+: framed → ∃ ops₁ s₁, ops₁ <+: ops ∧
        perform codec ops₁ s = .ok (payload earlier, s₁) ∧
        Writes start (chunks ++ earlier) s₁ := by
  induction ops generalizing s chunks with
  | nil =>
    refine ⟨[], s, rfl, by rwa [append_nil], le_rfl, fun earlier hearlier => ?_⟩
    rw [prefix_nil.1 hearlier]
    exact ⟨[], s, nil_prefix, rfl, by rwa [append_nil]⟩
  | cons op ops ih =>
    obtain ⟨now, s₁, h₁, hlen, hblocks, hstep⟩ := h.step hstart (hops op mem_cons_self)
    obtain ⟨later, s', hrun, h', hblocks', hpoints⟩ :=
      ih h₁ fun o ho => hops o (mem_cons_of_mem _ ho)
    refine ⟨now ++ later, s', ?_, by rwa [← append_assoc], hblocks'.trans hblocks, ?_⟩
    · rw [hstep, hrun, payload_append]
      rfl
    · intro earlier hearlier
      -- before the first call nothing was framed; after it, what the other calls have framed
      obtain rfl | hcons := eq_or_ne earlier []
      · exact ⟨[], s, nil_prefix, rfl, by rwa [append_nil]⟩
      have hnow : now <+: earlier := by
        refine prefix_of_prefix_length_le (prefix_append now later) hearlier ?_
        exact hlen.trans (length_pos_iff.2 hcons)
      obtain ⟨tail, rfl⟩ := hnow
      obtain ⟨ops₁, s₂, hops₁, hrun₁, h₂⟩ := hpoints tail ((prefix_append_right_inj _).1 hearlier)
      rw [append_assoc] at h₂
      refine ⟨op :: ops₁, s₂, cons_prefix_cons.2 ⟨rfl, hops₁⟩, ?_, h₂⟩
      rw [hstep, hrun₁, payload_append]
      rfl

end

end

theorem perform_append {ops more : List (Op γ)} {s s₁ s₂ : ChunkStream σ ρ ω} {bs cs : Bytes}
    (h₁ : perform codec ops s = .ok (bs, s₁)) (h₂ : perform codec more s₁ = .ok (cs, s₂)) :
    perform codec (ops ++ more) s = .ok (bs ++ cs, s₂) := by
  induction ops generalizing s bs with
  | nil =>
    cases h₁
    exact h₂
  | cons op ops ih =>
    cases op with
    | write buf draw =>
      simp only [cons_append, perform] at h₁ ⊢
      split at h₁
      · exact ih h₁
      · rename_i n s' hpoll
        cases hrun : perform codec ops s' with
        | error e =>
          rw [hrun] at h₁
          cases h₁
        | ok result =>
          rw [hrun] at h₁
          cases h₁
          simp only [ih hrun, append_assoc]
          rfl
      · cases h₁
    | flush =>
      simp only [cons_append, perform] at h₁ ⊢
      split at h₁
      · cases h₁
      · cases h₁
      · exact ih h₁

theorem drainWriteBuf_nil (h : s.writeBuf = []) : s.drainWriteBuf = (.done, s) := by
  obtain ⟨inner, read, readBuf, readRaw, write, writeBuf⟩ := s
  subst h
  rfl

theorem perform_flush_nil (h : s.writeBuf = []) (n : ℕ) :
    perform codec (List.replicate n .flush) s = .ok ([], s) := by
  induction n with
  | zero => rfl
  | succ n ih => simp only [replicate_succ, perform, pollFlush, drainWriteBuf_nil h, ih]

theorem perform_flush (codec : ChunkCodec ρ ω γ) {n : ℕ} (h : blocks s.inner < n) :
    ∃ s', perform codec (List.replicate n .flush) s = .ok ([], s') ∧ s'.writeBuf = [] := by
  induction n generalizing s with
  | zero => omega
  | succ n ih =>
    rw [replicate_succ]
    obtain ⟨s₁, hdrain, hnil, -⟩ | ⟨s₁, hdrain, hblocks⟩ := drainWriteBuf_sink s
    · refine ⟨s₁, ?_, hnil⟩
      simp only [perform, pollFlush, hdrain, perform_flush_nil hnil]
    · obtain ⟨s', hrun, hnil⟩ := ih (s := s₁) (by omega)
      exact ⟨s', by simp only [perform, pollFlush, hdrain, hrun], hnil⟩

end Writer

/-! ### Readers of what a writer has sent -/

section RoundTrip

variable {framing} [AsyncRead σ] {start : ω} {chunks : List (Chunk codec)}
  {writer : ChunkStream Sink ρ ω}

theorem reads_of_writes (hwrites : Writes start chunks writer)
    (hat : framing.At start chunks reader.read) (hraw : reader.readRaw = []) {missing : Bytes}
    (hsent : rest reader.inner ++ missing = writer.inner.taken ++ writer.writeBuf) :
    Reads framing start chunks missing reader (reader.readBuf ++ payload chunks) := by
  refine ⟨[], chunks, rfl, hat, ?_, rfl⟩
  rw [hraw, nil_append, hsent]
  exact hwrites.wire

/-- Where a reader stands when it has got `out` of what it could get. -/
theorem Reads.exists_decoded {missing bs initial out : Bytes}
    (h : Reads framing start chunks missing s bs) (htotal : initial ++ payload chunks = out ++ bs) :
    ∃ decoded todo, chunks = decoded ++ todo ∧
      framing.At (endState codec.sealChunk start decoded) todo s.read ∧
      out ++ s.readBuf = initial ++ payload decoded := by
  obtain ⟨decoded, todo, rfl, hat, -, rfl⟩ := h
  refine ⟨decoded, todo, rfl, hat, ?_⟩
  rw [payload_append, ← append_assoc, ← append_assoc] at htotal
  exact (append_cancel_right htotal).symm

/-- **At any time.**  A reader of a beginning of what was sent gets a beginning of the data, and has
decoded the first chunks. -/
theorem collectState_of_writes (hstart : framing.Ready start) (hwrites : Writes start chunks writer)
    (hat : framing.At start chunks reader.read) (hraw : reader.readRaw = [])
    (hsent : rest reader.inner <+: writer.inner.taken) (caps : List ℕ) :
    ∃ out reader', collectState (pollRead codec) caps reader = .ok (out, reader') ∧
      out <+: reader.readBuf ++ payload chunks ∧
      ∃ decoded todo, chunks = decoded ++ todo ∧
        framing.At (endState codec.sealChunk start decoded) todo reader'.read ∧
        out ++ reader'.readBuf = reader.readBuf ++ payload decoded := by
  obtain ⟨unsent, hunsent⟩ := hsent
  have hreads : Reads framing start chunks (unsent ++ writer.writeBuf) reader
      (reader.readBuf ++ payload chunks) :=
    reads_of_writes hwrites hat hraw (by rw [← hunsent, append_assoc])
  obtain ⟨out, reader', bs', hrun, hout, hreads'⟩ :=
    (serves_pollRead hstart chunks _).exists_collectState caps hreads
  exact ⟨out, reader', hrun, ⟨bs', hout.symm⟩, hreads'.exists_decoded hout⟩

/-- **In the end.**  A reader of everything that was framed, once it was sent, gets all of the data
if it polls often enough, and has decoded every chunk. -/
theorem collectState_eq_of_writes (hstart : framing.Ready start)
    (hwrites : Writes start chunks writer) (hempty : writer.writeBuf = [])
    (hat : framing.At start chunks reader.read) (hraw : reader.readRaw = [])
    (hsent : rest reader.inner = writer.inner.taken) {caps : List ℕ} (hcaps : ∀ cap ∈ caps, 0 < cap)
    (hcount : (reader.readBuf ++ payload chunks).length + stalls reader.inner ≤
      caps.length) :
    ∃ reader', collectState (pollRead codec) caps reader =
        .ok (reader.readBuf ++ payload chunks, reader') ∧ reader'.readBuf = [] ∧
      framing.At (endState codec.sealChunk start chunks) [] reader'.read := by
  have hreads : Reads framing start chunks [] reader (reader.readBuf ++ payload chunks) :=
    reads_of_writes hwrites hat hraw (by rw [hsent, hempty])
  have heof : ∀ (cap : ℕ) (s : ChunkStream σ ρ ω) (bs : Bytes) (s' : ChunkStream σ ρ ω),
      Reads framing start chunks [] s bs → 0 < cap →
      pollRead codec cap s = (.ready [], s') → bs = [] :=
    fun cap s bs s' hs hcap hpoll => (hs.pollRead hstart cap).eof rfl hcap (by rw [hpoll])
  obtain ⟨reader', hrun, decoded, todo, rfl, hat', -, hnil⟩ :=
    (serves_pollRead hstart chunks []).collectState_eq heof hcaps hreads hcount
  obtain ⟨hbuf, htodo⟩ := append_eq_nil_iff.1 hnil.symm
  -- chunks are not empty, so none is left
  obtain rfl : todo = [] := by
    cases todo with
    | nil => rfl
    | cons chunk todo => exact absurd (append_eq_nil_iff.1 htodo).1 chunk.data_ne_nil
  refine ⟨reader', hrun, hbuf, ?_⟩
  rwa [append_nil]

end RoundTrip

end ChunkStream

end AsyncIO
