import Blackwire.Common.Address
import Blackwire.Lib.AsyncWrite
import Blackwire.Lib.Run

/-!
# XTLS Vision streams

`VisionStream` of `blackwire-common/src/stream.rs`.  The writer puts each buffer into a frame of a
command, a 16-bit length and no padding, the first frame behind the UUID; the command of a buffer
that consists of complete TLS application-data records is DIRECT, after which both ends pass bytes
on as they are, and END otherwise.

`written_of_unblocked` says what the inner stream is handed, over any sequence of polls.
-/

namespace Blackwire

open AsyncIO List AsyncWrite

/-! ### Unpadding -/

def visionInitial : ℤ := -1
def visionCommandPaddingContinue : ℤ := 0
def visionCommandPaddingEnd : ℤ := 1
def visionCommandPaddingDirect : ℤ := 2
def tlsApplicationDataStart : Bytes := [0x17, 0x03, 0x03]

structure VisionUnpaddingState where
  remainingCommand : ℤ
  remainingContent : ℤ
  remainingPadding : ℤ
  currentCommand : ℤ
  deriving DecidableEq

namespace VisionUnpaddingState

def new : VisionUnpaddingState := ⟨visionInitial, visionInitial, visionInitial, 0⟩

variable (st : VisionUnpaddingState) (uuid : Octets 16)

def isInitial : Bool :=
  st.remainingCommand = visionInitial && st.remainingContent = visionInitial &&
    st.remainingPadding = visionInitial

def isDone : Bool :=
  st.remainingCommand ≤ 0 && st.remainingContent ≤ 0 && st.remainingPadding ≤ 0

def openFrame (st : VisionUnpaddingState) (input : Bytes) : Option (VisionUnpaddingState × Bytes) :=
  if st.isInitial then
    if 21 ≤ input.length ∧ input.take 16 = uuid.val then
      some ({ st with remainingCommand := 5 }, input.drop 16)
    else none
  else some (st, input)

/-- One byte of the header.  A length is assembled from its high byte and then its low byte, so
`|=` adds. -/
def command (byte : UInt8) : VisionUnpaddingState :=
  let b : ℤ := byte.toNat
  let st :=
    if st.remainingCommand = 5 then { st with currentCommand := b }
    else if st.remainingCommand = 4 then { st with remainingContent := b * 256 }
    else if st.remainingCommand = 3 then { st with remainingContent := st.remainingContent + b }
    else if st.remainingCommand = 2 then { st with remainingPadding := b * 256 }
    else if st.remainingCommand = 1 then { st with remainingPadding := st.remainingPadding + b }
    else st
  { st with remainingCommand := st.remainingCommand - 1 }

def consume (input : Bytes) : VisionUnpaddingState × Bytes × Bytes :=
  if st.remainingCommand > 0 then (st.command (input.headD 0), [], input.drop 1)
  else if st.remainingContent > 0 then
    let take := min st.remainingContent.toNat input.length
    ({ st with remainingContent := st.remainingContent - take }, input.take take, input.drop take)
  else if st.remainingPadding > 0 then
    let skip := min st.remainingPadding.toNat input.length
    ({ st with remainingPadding := st.remainingPadding - skip }, [], input.drop skip)
  else (st, [], input)

/-- The loop of `feed`, with fuel for its iterations: the output, whether to switch to direct copy,
and the state. -/
def feedAux : ℕ → VisionUnpaddingState → Bytes → Bytes × Bool × VisionUnpaddingState
  | 0, st, _ => ([], false, st)
  | fuel + 1, st, input =>
    if input = [] then ([], false, st)
    else
      match st.openFrame uuid input with
      | none => (input, false, st)
      | some (st, input) =>
        match st.consume input with
        | (st, out, input) =>
          if st.isDone then
            if st.currentCommand = visionCommandPaddingContinue then
              match feedAux fuel { st with remainingCommand := 5 } input with
              | (out', direct, st) => (out ++ out', direct, st)
            else
              (out ++ input, st.currentCommand = visionCommandPaddingDirect,
                { st with
                  remainingCommand := visionInitial
                  remainingContent := visionInitial
                  remainingPadding := visionInitial })
          else
            match feedAux fuel st input with
            | (out', direct, st) => (out ++ out', direct, st)

def feed (st : VisionUnpaddingState) (input : Bytes) : Bytes × Bool × VisionUnpaddingState :=
  feedAux uuid (input.length + 2) st input

end VisionUnpaddingState

/-! ### Padding -/

variable (uuid : Octets 16)

def visionPadChunk (content : Bytes) (command : UInt8) (includeUuid : Bool) : Bytes :=
  let cl := content.length
  (if includeUuid then uuid.val else []) ++
    [command, UInt8.ofNat (cl >>> 8), UInt8.ofNat (cl &&& 0xff), 0, 0] ++ content

def looksLikeTlsApplicationData (buf : Bytes) : Bool :=
  6 ≤ buf.length && buf.take 3 = tlsApplicationDataStart

def isCompleteTlsRecordAux : ℕ → Bytes → Bool
  | 0, _ => true
  | fuel + 1, rest =>
    if rest = [] then true
    else if rest.length < 5 then false
    else if rest.take 3 ≠ tlsApplicationDataStart then false
    else
      let recordLen := Bytes.ofBe ((rest.drop 3).take 2)
      if (rest.drop 5).length < recordLen then false
      else isCompleteTlsRecordAux fuel (rest.drop (5 + recordLen))

def isCompleteTlsRecord (buf : Bytes) : Bool := isCompleteTlsRecordAux buf.length buf

def visionCommand (buf : Bytes) : UInt8 :=
  if looksLikeTlsApplicationData buf && isCompleteTlsRecord buf then
    UInt8.ofNat visionCommandPaddingDirect.toNat
  else UInt8.ofNat visionCommandPaddingEnd.toNat

/-! ### The stream -/

structure VisionStream (σ : Type) where
  inner : σ
  uuid : Octets 16
  writeUuidOnce : Bool
  writeDirectCopy : Bool
  writeBuf : Bytes
  writePos : ℕ

namespace VisionStream

variable {σ : Type}

def new (inner : σ) (uuid : Octets 16) : VisionStream σ where
  inner := inner
  uuid := uuid
  writeUuidOnce := true
  writeDirectCopy := false
  writeBuf := []
  writePos := 0

section Write

variable [AsyncWrite σ]

def pollDrainWriteBuf (s : VisionStream σ) : DrainEnd × VisionStream σ :=
  match drain (s.writeBuf.drop s.writePos) s.inner with
  | (.done, _, inner) => (.done, { s with inner, writeBuf := [], writePos := 0 })
  | (e, n, inner) => (e, { s with inner, writePos := s.writePos + n })

def ofDrainEnd : DrainEnd → PollWrite
  | .failed e => .failed e
  | .writeZero => .failed (.writeZero "failed to write Vision frame")
  | _ => .pending

def writeFrame (buf : Bytes) (s : VisionStream σ) : PollWrite × VisionStream σ :=
  if s.writeDirectCopy ∨ buf = [] then
    match pollWrite buf s.inner with
    | (answer, inner) => (answer, { s with inner })
  else
    let command := visionCommand buf
    let s := { s with
      writeUuidOnce := false
      writeBuf := visionPadChunk s.uuid buf command s.writeUuidOnce
      writePos := 0 }
    match s.pollDrainWriteBuf with
    | (.done, s) =>
      (.ready buf.length,
        if command = UInt8.ofNat visionCommandPaddingDirect.toNat then
          { s with writeDirectCopy := true }
        else s)
    | (e, s) => (ofDrainEnd e, s)

def pollWrite (buf : Bytes) (s : VisionStream σ) : PollWrite × VisionStream σ :=
  match (if s.writeBuf = [] then (.done, s) else s.pollDrainWriteBuf) with
  | (.done, s) => s.writeFrame buf
  | (e, s) => (ofDrainEnd e, s)

end Write

end VisionStream

/-! ### What a sequence of writes emits -/

def visionFrames : Bool → Bool → List Bytes → Bytes
  | _, _, [] => []
  | once, true, w :: ws => w ++ visionFrames once true ws
  | once, false, w :: ws =>
    if w = [] then visionFrames once false ws
    else
      visionPadChunk uuid w (visionCommand w) once ++
        visionFrames false
          (visionCommand w = UInt8.ofNat visionCommandPaddingDirect.toNat) ws

open VisionStream

/-! ### Writes that are polled again -/

def sampleUuid : Octets 16 := ⟨List.replicate 16 7, rfl⟩

namespace VisionStream

section Polls

variable {σ : Type} [AsyncWrite σ] {s : VisionStream σ} {w : Bytes}

/-- What the polls of a sequence of writes report as accepted. -/
def acceptedWrites : List Bytes → VisionStream σ → List Bytes
  | [], _ => []
  | w :: ws, s =>
    match s.pollWrite w with
    | (.ready n, s) => w.take n :: acceptedWrites ws s
    | (_, s) => acceptedWrites ws s

/-- The condition on a poll: a buffer that is put into a frame meets an inner stream that takes the
whole frame at once. -/
def Unblocked (s : VisionStream σ) (w : Bytes) : Prop :=
  s.writeDirectCopy ∨ w = [] ∨
    (drain (visionPadChunk s.uuid w (visionCommand w) s.writeUuidOnce) s.inner).1 = .done

/-- What a poll on an empty buffer accepts has been handed on, and nothing else. -/
theorem pollWrite_unblocked (hbuf : s.writeBuf = []) (hpos : s.writePos = 0)
    (hw : s.Unblocked w) (ws : List Bytes) :
    (s.pollWrite w).2.writeBuf = [] ∧ (s.pollWrite w).2.writePos = 0 ∧
    AsyncWrite.written s.inner ++ visionFrames s.uuid s.writeUuidOnce s.writeDirectCopy
        (acceptedWrites (w :: ws) s) =
      AsyncWrite.written (s.pollWrite w).2.inner ++ visionFrames (s.pollWrite w).2.uuid
        (s.pollWrite w).2.writeUuidOnce (s.pollWrite w).2.writeDirectCopy
        (acceptedWrites ws (s.pollWrite w).2) := by
  rw [acceptedWrites]
  simp only [pollWrite, if_pos hbuf, writeFrame]
  by_cases hraw : s.writeDirectCopy ∨ w = []
  · rw [if_pos hraw]
    rcases hpoll : AsyncWrite.pollWrite w s.inner with ⟨_ | n | e, inner⟩
    · exact ⟨hbuf, hpos, by simp only [AsyncWrite.written_pending hpoll]⟩
    · refine ⟨hbuf, hpos, ?_⟩
      simp only [AsyncWrite.written_ready hpoll, append_assoc]
      obtain hdirect | rfl := hraw
      · simp only [hdirect, visionFrames]
      · cases hdirect : s.writeDirectCopy <;> simp [visionFrames]
    · exact ⟨hbuf, hpos, by simp only [AsyncWrite.written_failed hpoll]⟩
  · obtain ⟨hcopy, hne⟩ := not_or.1 hraw
    have hdone : (drain (visionPadChunk s.uuid w (visionCommand w) s.writeUuidOnce) s.inner).1 =
        .done := (hw.resolve_left hcopy).resolve_left hne
    have hdrained := drain_spec (visionPadChunk s.uuid w (visionCommand w) s.writeUuidOnce) s.inner
    rcases hdrain : drain (visionPadChunk s.uuid w (visionCommand w) s.writeUuidOnce) s.inner with
      ⟨e, n, inner⟩
    rw [hdrain] at hdone hdrained
    obtain rfl : e = .done := hdone
    have hwritten := hdrained.written
    rw [hdrained.done rfl] at hwritten
    simp only [pollDrainWriteBuf, drop_zero, hdrain]
    by_cases hcommand : visionCommand w = UInt8.ofNat visionCommandPaddingDirect.toNat
    all_goals simp [hcommand, hcopy, hne, hwritten, visionFrames]

theorem written_foldl_pollWrite (hbuf : s.writeBuf = []) (hpos : s.writePos = 0)
    {polls : List Bytes} (h : Run.Meets Unblocked (fun s w => (s.pollWrite w).2) s polls) :
    written (polls.foldl (fun s w => (s.pollWrite w).2) s).inner =
      written s.inner ++ visionFrames s.uuid s.writeUuidOnce s.writeDirectCopy
        (acceptedWrites polls s) := by
  induction polls generalizing s with
  | nil => simp [acceptedWrites, visionFrames]
  | cons w polls ih =>
    obtain ⟨hbuf', hpos', hwritten⟩ := pollWrite_unblocked hbuf hpos h.1 polls
    rw [hwritten]
    exact ih hbuf' hpos' h.2

/-- **Writes.**  In every run whose polls meet the condition, the inner stream is handed what was
accepted: each buffer in one frame, and as it is after a frame with the DIRECT command. -/
theorem written_of_unblocked (inner : σ) (uuid : Octets 16) (polls : List Bytes)
    (h : Run.Meets Unblocked (fun s w => (s.pollWrite w).2) (new inner uuid) polls) :
    written (polls.foldl (fun s w => (s.pollWrite w).2) (new inner uuid)).inner =
      written inner ++
        visionFrames uuid true false (acceptedWrites polls (new inner uuid)) :=
  written_foldl_pollWrite rfl rfl h

theorem written_unblocked_sample :
    ((new (Sink.mk [] [.accept 0]) sampleUuid).pollWrite [1]).2.inner.taken =
      visionFrames sampleUuid true false [[1]] :=
  written_of_unblocked (Sink.mk [] [.accept 0]) sampleUuid [[1]]
    ⟨.inr (.inr (by decide +kernel)), trivial⟩

/-- A frame that meets a sink that is not ready is sent, and sent again with the retry. -/
theorem retried_write_twice :
    let s := (new (Sink.mk [] [.pending]) sampleUuid).pollWrite [1]
    s.1 = .pending ∧ (s.2.pollWrite [1]).1 = .ready 1 ∧
      (s.2.pollWrite [1]).2.inner.taken ≠ visionFrames sampleUuid true false [[1]] := by
  decide +kernel

end Polls

end VisionStream

end Blackwire
