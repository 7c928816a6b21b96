import Blackwire.Lib.Run
import Blackwire.Lib.Segments
import Blackwire.Lib.Serve

/-!
# SplitHTTP over HTTP/1.1

The chunks that `SplitHttpStream` of `splithttp.rs` writes.
-/

namespace Blackwire.SplitHttp

open AsyncIO List

variable {σ : Type}

/-! ### Writing chunks -/

def crlf : Bytes := [13, 10]

/-- A chunk: the length in hexadecimal digits, the bytes, and the ends of two lines. -/
def chunk (buf : Bytes) : Bytes :=
  (Nat.toDigits 16 buf.length).map (fun c => c.toUpper.toUInt8) ++ (crlf ++ (buf ++ crlf))

/-- The terminating chunk. -/
def lastChunk : Bytes := [48, 13, 10, 13, 10]

/-- A call: a write, or a shutdown with what `poll_shutdown` of the inner stream answers if it is
called. -/
inductive HttpOp
  | write (buf : Bytes)
  | shutdown (answer : PollWrite)
  deriving DecidableEq

/-- What a call offers to the inner stream. -/
def HttpOp.wire : HttpOp → Bytes
  | .write buf => if buf = [] then [] else chunk buf
  | .shutdown _ => lastChunk

section Write

variable [AsyncWrite σ]

/-- `poll_write`: the count of the inner stream is dropped. -/
def pollWrite (buf : Bytes) (inner : σ) : PollWrite × σ :=
  if buf = [] then (.ready 0, inner)
  else
    match AsyncWrite.pollWrite (chunk buf) inner with
    | (.ready _, inner) => (.ready buf.length, inner)
    | (answer, inner) => (answer, inner)

/-- `poll_shutdown`: every call offers the terminating chunk, and calls `poll_shutdown` of the inner
stream if something of it was taken. -/
def pollShutdown (answer : PollWrite) (inner : σ) : PollWrite × σ :=
  match AsyncWrite.pollWrite lastChunk inner with
  | (.ready _, inner) => (answer, inner)
  | (refusal, inner) => (refusal, inner)

/-- The stream, with the buffers reported accepted and whether `poll_shutdown` of the inner stream
has been called. -/
structure Http (σ : Type) where
  inner : σ
  accepted : List Bytes
  ended : Bool

/-- A call of one of the two functions. -/
def perform (s : Http σ) : HttpOp → Http σ
  | .write buf =>
    match pollWrite buf s.inner with
    | (.ready _, inner) => { s with inner, accepted := s.accepted ++ [buf] }
    | (_, inner) => { s with inner }
  | .shutdown answer =>
    { s with
      inner := (pollShutdown answer s.inner).2
      ended := s.ended ||
        (AsyncWrite.pollWrite lastChunk s.inner).1 matches .ready _ }

/-- The chunked encoding of the accepted buffers, with the terminating chunk if the stream has
ended. -/
def Http.encoding (s : Http σ) : Bytes :=
  s.accepted.flatMap (fun buf => (HttpOp.write buf).wire) ++ if s.ended then lastChunk else []

/-- If the inner stream takes something, it takes all it is offered, and nothing was called after
the terminating chunk was taken. -/
def Whole (s : Http σ) (op : HttpOp) : Prop :=
  (∀ n inner, AsyncWrite.pollWrite op.wire s.inner = (.ready n, inner) → n = op.wire.length) ∧
    s.ended = false

/-- What a call does: the inner stream takes all that it offers and it is reported, or nothing. -/
theorem perform_cases {s : Http σ} {op : HttpOp} (h : Whole s op) :
    (AsyncWrite.written (perform s op).inner = AsyncWrite.written s.inner ++ op.wire ∧
      (perform s op).encoding = s.encoding ++ op.wire) ∨
    (AsyncWrite.written (perform s op).inner = AsyncWrite.written s.inner ∧
      (perform s op).encoding = s.encoding) := by
  obtain ⟨hwhole, hended⟩ := h
  cases op with
  | shutdown answer =>
    rcases hpoll : AsyncWrite.pollWrite lastChunk s.inner with ⟨_ | n | e, inner⟩
    · exact .inr (by simp [perform, pollShutdown, hpoll, Http.encoding,
        AsyncWrite.written_pending hpoll])
    · left
      have hn : n = lastChunk.length := hwhole n inner hpoll
      simp [perform, pollShutdown, hpoll, Http.encoding, hended, HttpOp.wire,
        AsyncWrite.written_ready hpoll, hn]
    · exact .inr (by simp [perform, pollShutdown, hpoll, Http.encoding,
        AsyncWrite.written_failed hpoll])
  | write buf =>
    by_cases hbuf : buf = []
    · subst hbuf
      exact .inl (by simp [perform, pollWrite, Http.encoding, HttpOp.wire, hended])
    have hwire : (HttpOp.write buf).wire = chunk buf := if_neg hbuf
    rw [hwire] at hwhole ⊢
    rcases hpoll : AsyncWrite.pollWrite (chunk buf) s.inner with ⟨_ | n | e, inner⟩
    · exact .inr (by simp [perform, pollWrite, hbuf, hpoll, Http.encoding,
        AsyncWrite.written_pending hpoll])
    · left
      have hn : n = (chunk buf).length := hwhole n inner hpoll
      simp [perform, pollWrite, hbuf, hpoll, Http.encoding, hended, hwire,
        AsyncWrite.written_ready hpoll, hn]
    · exact .inr (by simp [perform, pollWrite, hbuf, hpoll, Http.encoding,
        AsyncWrite.written_failed hpoll])

/-- **Chunks.**  If the inner stream takes all or nothing of what it is offered, and no call follows
the one in which it has taken the terminating chunk, then it has taken the chunked encoding of the
buffers reported accepted, with the terminating chunk if its own shutdown was called. -/
theorem chunks_of_whole {σ : Type} [AsyncWrite σ] (inner : σ) (ops : List HttpOp)
    (h : Run.Meets Whole perform ⟨inner, [], false⟩ ops) :
    let s := ops.foldl perform ⟨inner, [], false⟩
    AsyncWrite.written s.inner = AsyncWrite.written inner ++ s.encoding := by
  refine Run.invariant_of_meets
    (P := fun s => AsyncWrite.written s.inner = AsyncWrite.written inner ++ s.encoding)
    (fun s op hs hok => ?_) (append_nil _).symm h
  rcases perform_cases hok with ⟨hwritten, hencoding⟩ | ⟨hwritten, hencoding⟩ <;>
    rw [hwritten, hencoding, hs]
  rw [append_assoc]

theorem chunks_of_ready :
    AsyncWrite.written (List.foldl perform ⟨Sink.ready, [], false⟩
        [.write [7], .shutdown (.ready 0)]).inner =
      [49, 13, 10, 7, 13, 10, 48, 13, 10, 13, 10] :=
  chunks_of_whole Sink.ready [.write [7], .shutdown (.ready 0)]
    ⟨⟨fun _ _ h => by cases h; rfl, rfl⟩, ⟨fun _ _ h => by cases h; rfl, rfl⟩, trivial⟩

/-- One byte of the chunk is taken, and the rest is not written though the write is reported done;
and a pending shutdown of the inner stream makes the terminating chunk come twice. -/
theorem short_write_lost :
    (let s := [.write [7], .shutdown (.ready 0)].foldl perform ⟨Sink.mk [] [.accept 0], [], false⟩
     s.inner.taken = [49, 48, 13, 10, 13, 10] ∧ s.accepted = [[7]]) ∧
    (let s := [.shutdown .pending, .shutdown (.ready 0)].foldl perform ⟨Sink.ready, [], false⟩
     s.inner.taken = lastChunk ++ lastChunk) := by
  decide +kernel

end Write

end Blackwire.SplitHttp
