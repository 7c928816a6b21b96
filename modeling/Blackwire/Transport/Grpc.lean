import Blackwire.Lib.Run
import Blackwire.Transport.GrpcFrame

/-!
# The stream of the gRPC tunnel

`GrpcStream` of `grpc.rs` over an HTTP/2 stream (its other variant, over a byte stream, is used by
unit tests only).  HTTP/2 is what it answers: how much may be sent now, and the pieces of data that
arrive.
-/

namespace Blackwire.Grpc

open List Bytes Leb128

/-! ### HTTP/2 -/

inductive RecvAnswer
  | pending
  | chunk (data : Bytes)
  | failed
  deriving DecidableEq

/-- `RecvStream`: its answers from now on, and whether the stream ends after them. -/
structure RecvStream where
  answers : List RecvAnswer
  ended : Bool

/-- An answer of `SendStream::poll_capacity`: pending, the stream is closed, an error, a capacity,
or a capacity that `send_data` then refuses. -/
inductive CapacityAnswer
  | pending
  | closed
  | failed
  | capacity (n : ℕ)
  | refused (n : ℕ)

structure SendStream where
  sent : List Bytes
  ended : Bool

/-! ### The stream -/

structure GrpcStream where
  send : SendStream
  recv : RecvStream
  recvBuf : Bytes
  readBuf : Bytes
  pendingPlain : Bytes
  writeBuf : Bytes

inductive IoError
  | other
  | writeZero (msg : String)
  | invalidData (e : ProxyError)
  deriving DecidableEq

inductive Poll (α : Type)
  | pending
  | ready (a : α)
  | error (e : IoError)
  | panic
  deriving DecidableEq

namespace GrpcStream

def fromH2 (recv : RecvStream) : GrpcStream := ⟨⟨[], false⟩, recv, [], [], [], []⟩

/-! ### Reading -/

/-- How `serve_decoded_frames` ends: it has copied bytes, or needs more, or fails. -/
inductive Served
  | bytes (out : Bytes)
  | needMore
  | error (e : ProxyError)
  | panic
  deriving DecidableEq

variable (cap : ℕ) (answers : List CapacityAnswer)

/-- The loop of `serve_decoded_frames`, with the two buffers.  Every iteration but the last takes a
message off `recv_buf`. -/
def serveLoop : ℕ → Bytes → Bytes → Served × Bytes × Bytes
  | 0, recvBuf, readBuf => (.needMore, recvBuf, readBuf)
  | fuel + 1, recvBuf, readBuf =>
    if readBuf ≠ [] then (.bytes (readBuf.take cap), recvBuf, readBuf.drop cap)
    else
      match decodeGrpcFrame recvBuf with
      | (.error e, recvBuf) => (.error e, recvBuf, readBuf)
      | (.ok none, recvBuf) => (.needMore, recvBuf, readBuf)
      | (.ok (some payload), recvBuf) =>
        if payload = [] then (.needMore, recvBuf, readBuf)
        else
          match decodeHunk payload with
          | .ok data => serveLoop fuel recvBuf data
          | .error (.error e) => (.error e, recvBuf, readBuf)
          | .error _ => (.panic, recvBuf, readBuf)

def serveDecodedFrames (recvBuf readBuf : Bytes) : Served × Bytes × Bytes :=
  serveLoop cap (recvBuf.length + 2) recvBuf readBuf

def pollReadLoop (ended : Bool) :
    List RecvAnswer → Bytes → Bytes → Poll Bytes × List RecvAnswer × Bytes × Bytes
  | answers, recvBuf, readBuf =>
    match serveDecodedFrames cap recvBuf readBuf with
    | (.bytes out, recvBuf, readBuf) => (.ready out, answers, recvBuf, readBuf)
    | (.error e, recvBuf, readBuf) => (.error (.invalidData e), answers, recvBuf, readBuf)
    | (.panic, recvBuf, readBuf) => (.panic, answers, recvBuf, readBuf)
    | (.needMore, recvBuf, readBuf) =>
      match answers with
      | [] => (if ended then .ready [] else .pending, [], recvBuf, readBuf)
      | .pending :: answers => (.pending, answers, recvBuf, readBuf)
      | .failed :: answers => (.error .other, answers, recvBuf, readBuf)
      | .chunk data :: answers => pollReadLoop ended answers (recvBuf ++ data) readBuf

def pollRead (s : GrpcStream) : Poll Bytes × GrpcStream :=
  match pollReadLoop cap s.recv.ended s.recv.answers s.recvBuf s.readBuf with
  | (answer, answers, recvBuf, readBuf) =>
    (answer, { s with recv := { s.recv with answers }, recvBuf, readBuf })

/-! ### Writing -/

/-- The loop of `encode_pending_plain_into_frames`, with the two buffers.  Every iteration takes at
least a byte off `pending_plain`. -/
def encodeLoop (force : Bool) : ℕ → Bytes → Bytes → Bytes × Bytes
  | 0, pendingPlain, writeBuf => (pendingPlain, writeBuf)
  | fuel + 1, pendingPlain, writeBuf =>
    if pendingPlain ≠ [] ∧ (force = true ∨ pendingPlain.length ≥ coalesceTargetBytes) then
      let payload := pendingPlain.take maxMessageSize
      encodeLoop force fuel (pendingPlain.drop maxMessageSize) (writeBuf ++ hunkFrame payload)
    else (pendingPlain, writeBuf)

def encodePendingPlainIntoFrames (force : Bool) (s : GrpcStream) : GrpcStream :=
  match encodeLoop force s.pendingPlain.length s.pendingPlain s.writeBuf with
  | (pendingPlain, writeBuf) => { s with pendingPlain, writeBuf }

def flushH2Send : List CapacityAnswer → GrpcStream → Poll Unit × GrpcStream
  | answers, s =>
    if s.writeBuf = [] then (.ready (), s)
    else
      match answers with
      | [] => (.pending, s)
      | .pending :: _ => (.pending, s)
      | .closed :: _ => (.error (.writeZero "gRPC send stream closed"), s)
      | .failed :: _ => (.error .other, s)
      | .capacity 0 :: _ => (.pending, s)
      | .refused n :: _ => (.error .other, { s with writeBuf := s.writeBuf.drop n })
      | .capacity (n + 1) :: answers =>
        flushH2Send answers { s with
          send := { s.send with sent := s.send.sent ++ [s.writeBuf.take (n + 1)] }
          writeBuf := s.writeBuf.drop (n + 1) }

def pollWrite (buf : Bytes) (s : GrpcStream) : Poll ℕ × GrpcStream :=
  let n := min buf.length maxMessageSize
  let s := { s with pendingPlain := s.pendingPlain ++ buf.take n }
  match (s.encodePendingPlainIntoFrames false).flushH2Send answers with
  | (.error e, s) => (.error e, s)
  | (_, s) => (.ready n, s)

def pollFlush (s : GrpcStream) : Poll Unit × GrpcStream :=
  (s.encodePendingPlainIntoFrames true).flushH2Send answers

/-- `poll_shutdown`: the end of the stream is sent behind the data.  `refused` says that `send_data`
fails there. -/
def pollShutdown (refused : Bool) (s : GrpcStream) : Poll Unit × GrpcStream :=
  match (s.encodePendingPlainIntoFrames true).flushH2Send answers with
  | (.ready (), s) =>
    if refused then (.error .other, s)
    else (.ready (), { s with send := ⟨s.send.sent ++ [[]], true⟩ })
  | (answer, s) => (answer, s)

/-! ### Polling again and again -/

def polls : List ℕ → GrpcStream → List (Poll Bytes)
  | [], _ => []
  | cap :: caps, s => (s.pollRead cap).1 :: polls caps (s.pollRead cap).2

end GrpcStream

def arriving : List RecvAnswer → Bytes
  | [] => []
  | .chunk data :: answers => data ++ arriving answers
  | _ :: answers => arriving answers

/-- The bytes contain the message, behind messages of permitted length. -/
def Carries (bs payload : Bytes) : Prop :=
  ∃ (before : List Bytes) (after : Bytes),
    bs = before.flatMap message ++ (message payload ++ after) ∧
    (∀ m ∈ before, m.length ≤ maxMessageSize) ∧ payload.length ≤ maxMessageSize

/-! ### What a decoded frame was -/

variable {payload bs : Bytes}

theorem decodeGrpcFrame_inv {buf rest : Bytes}
    (h : decodeGrpcFrame buf = (.ok (some payload), rest)) :
    buf = message payload ++ rest ∧ payload.length ≤ maxMessageSize := by
  unfold decodeGrpcFrame at h
  split at h
  · rename_i compressed l₀ l₁ l₂ l₃ tail
    dsimp only at h
    split_ifs at h with hflag hlong hshort <;>
      simp only [Prod.mk.injEq, reduceCtorEq, false_and, Except.ok.injEq, Option.some.injEq] at h
    obtain ⟨rfl, rfl⟩ := h
    have hlen : ofBe [l₀, l₁, l₂, l₃] ≤ tail.length := by
      simp only [length_cons, frameHeaderLen] at hshort
      omega
    have htake : (tail.take (ofBe [l₀, l₁, l₂, l₃])).length =
        ofBe [l₀, l₁, l₂, l₃] := by
      rw [length_take, min_eq_left hlen]
    have hbe : toBe 4 (ofBe [l₀, l₁, l₂, l₃]) = [l₀, l₁, l₂, l₃] := toBe_ofBe [l₀, l₁, l₂, l₃]
    refine ⟨?_, by omega⟩
    rw [message, htake, hbe, append_assoc, take_append_drop, not_not.1 hflag]
    rfl
  · simp at h

theorem decodeGrpcFrame_snd {buf rest : Bytes} {answer : Except ProxyError (Option Bytes)}
    (h : decodeGrpcFrame buf = (answer, rest)) (hnone : ∀ payload, answer ≠ .ok (some payload)) :
    rest = buf := by
  unfold decodeGrpcFrame at h
  split at h
  · dsimp only at h
    split_ifs at h with hflag hlong hshort
    · exact (Prod.mk.inj h).2.symm
    · exact (Prod.mk.inj h).2.symm
    · exact (Prod.mk.inj h).2.symm
    · exact absurd (Prod.mk.inj h).1.symm (hnone _)
  · exact (Prod.mk.inj h).2.symm

namespace GrpcStream

/-! ### What a read takes off the bytes -/

def Behind (bs left : Bytes) : Prop :=
  ∃ before : List Bytes, bs = before.flatMap message ++ left ∧
    ∀ m ∈ before, m.length ≤ maxMessageSize

theorem Behind.take {left : Bytes} (h : Behind bs (message payload ++ left))
    (hlen : payload.length ≤ maxMessageSize) : Behind bs left := by
  obtain ⟨before, rfl, hbefore⟩ := h
  refine ⟨before ++ [payload], by simp, ?_⟩
  intro m hm
  rcases mem_append.1 hm with hm | hm
  · exact hbefore m hm
  · rwa [mem_singleton.1 hm]

theorem Behind.carries {left : Bytes} (h : Behind bs (message payload ++ left))
    (hlen : payload.length ≤ maxMessageSize) : Carries bs payload := by
  obtain ⟨before, hbs, hbefore⟩ := h
  exact ⟨before, left, hbs, hbefore, hlen⟩

variable {recvBuf : Bytes} (cap : ℕ)

theorem serveLoop_behind (cap fuel : ℕ) (tail : Bytes) (readBuf : Bytes)
    (h : Behind bs (recvBuf ++ tail)) :
    Behind bs ((serveLoop cap fuel recvBuf readBuf).2.1 ++ tail) ∧
      ((serveLoop cap fuel recvBuf readBuf).1 = .panic → ∃ p, Carries bs p ∧ Overflows p) := by
  induction fuel generalizing recvBuf readBuf with
  | zero => exact ⟨h, fun hpanic => by cases hpanic⟩
  | succ fuel ih =>
    rw [serveLoop]
    by_cases hread : readBuf ≠ []
    · rw [if_pos hread]
      exact ⟨h, fun hpanic => by cases hpanic⟩
    rw [if_neg hread]
    rcases hframe : decodeGrpcFrame recvBuf with ⟨_ | _ | payload, rest⟩
    · rw [decodeGrpcFrame_snd hframe (by simp)]
      exact ⟨h, fun hpanic => by cases hpanic⟩
    · rw [decodeGrpcFrame_snd hframe (by simp)]
      exact ⟨h, fun hpanic => by cases hpanic⟩
    · obtain ⟨rfl, hlen⟩ := decodeGrpcFrame_inv hframe
      rw [append_assoc] at h
      have hrest := h.take hlen
      dsimp only
      by_cases hempty : payload = []
      · rw [if_pos hempty]
        exact ⟨hrest, fun hpanic => by cases hpanic⟩
      rw [if_neg hempty]
      rcases hhunk : decodeHunk payload with (e | _ | _) | data
      · exact ⟨hrest, fun hpanic => by cases hpanic⟩
      · exact ⟨hrest, fun _ => ⟨payload, h.carries hlen, (decodeHunk_eq_panic_iff _).1 hhunk⟩⟩
      · exact absurd hhunk (decodeHunk_ne_hang payload)
      · exact ih data hrest

def undecoded (s : GrpcStream) : Bytes := s.recvBuf ++ arriving s.recv.answers

theorem pollReadLoop_behind (ended : Bool) (answers : List RecvAnswer)
    (readBuf : Bytes) (h : Behind bs (recvBuf ++ arriving answers)) :
    Behind bs ((pollReadLoop cap ended answers recvBuf readBuf).2.2.1 ++
        arriving (pollReadLoop cap ended answers recvBuf readBuf).2.1) ∧
      ((pollReadLoop cap ended answers recvBuf readBuf).1 = .panic →
        ∃ p, Carries bs p ∧ Overflows p) := by
  induction answers generalizing recvBuf readBuf with
  | nil =>
    have hserve := serveLoop_behind cap (recvBuf.length + 2) [] readBuf h
    rw [pollReadLoop]
    rcases hresult : serveDecodedFrames cap recvBuf readBuf with ⟨_ | _ | _ | _, recvBuf', readBuf'⟩
    all_goals
      rw [serveDecodedFrames] at hresult
      rw [hresult] at hserve
    · exact ⟨hserve.1, fun hpanic => by cases hpanic⟩
    · exact ⟨hserve.1, fun hpanic => by cases ended <;> cases hpanic⟩
    · exact ⟨hserve.1, fun hpanic => by cases hpanic⟩
    · exact ⟨hserve.1, fun _ => hserve.2 rfl⟩
  | cons answer answers ih =>
    have hserve :=
      serveLoop_behind cap (recvBuf.length + 2) (arriving (answer :: answers)) readBuf h
    rw [pollReadLoop]
    rcases hresult : serveDecodedFrames cap recvBuf readBuf with ⟨_ | _ | _ | _, recvBuf', readBuf'⟩
    all_goals
      rw [serveDecodedFrames] at hresult
      rw [hresult] at hserve
    · exact ⟨hserve.1, fun hpanic => by cases hpanic⟩
    · cases answer with
      | pending | failed => exact ⟨hserve.1, fun hpanic => by cases hpanic⟩
      | chunk data =>
        refine ih readBuf' ?_
        rw [append_assoc]
        exact hserve.1
    · exact ⟨hserve.1, fun hpanic => by cases hpanic⟩
    · exact ⟨hserve.1, fun _ => hserve.2 rfl⟩

theorem exists_overflows_of_panic {caps : List ℕ} {s : GrpcStream} (h : Behind bs s.undecoded)
    (hpanic : .panic ∈ polls caps s) : ∃ p, Carries bs p ∧ Overflows p := by
  induction caps generalizing s with
  | nil => cases hpanic
  | cons cap caps ih =>
    obtain ⟨hleft, hthis⟩ := pollReadLoop_behind cap s.recv.ended s.recv.answers s.readBuf h
    rcases mem_cons.1 hpanic with hnow | hlater
    · exact hthis hnow.symm
    · exact ih (s := (s.pollRead cap).2) hleft hlater

/-! ### A reader that has all the bytes -/

theorem serveLoop_fuel {fuel fuel' : ℕ} (readBuf : Bytes)
    (h : recvBuf.length + 2 ≤ fuel) (h' : recvBuf.length + 2 ≤ fuel') :
    serveLoop cap fuel recvBuf readBuf = serveLoop cap fuel' recvBuf readBuf := by
  induction fuel generalizing fuel' recvBuf readBuf with
  | zero => omega
  | succ fuel ih =>
    obtain ⟨fuel', rfl⟩ : ∃ k, fuel' = k + 1 := ⟨fuel' - 1, by omega⟩
    rw [serveLoop, serveLoop]
    rcases hframe : decodeGrpcFrame recvBuf with ⟨_ | _ | payload, rest⟩
    · rfl
    · rfl
    · have hlen := congrArg List.length (decodeGrpcFrame_inv hframe).1
      rw [length_append, length_message] at hlen
      have hrec : ∀ data, serveLoop cap fuel rest data = serveLoop cap fuel' rest data :=
        fun data => ih data (by omega) (by omega)
      simp only [hrec]

theorem serveDecodedFrames_message (hlen : payload.length ≤ maxMessageSize) (rest : Bytes) :
    serveDecodedFrames cap (message payload ++ rest) [] =
      if payload = [] then (.needMore, rest, [])
      else
        match decodeHunk payload with
        | .ok data => serveDecodedFrames cap rest data
        | .error (.error e) => (.error e, rest, [])
        | .error _ => (.panic, rest, []) := by
  have hrec : ∀ data, serveLoop cap ((message payload ++ rest).length + 1) rest data =
      serveLoop cap (rest.length + 2) rest data := by
    intro data
    have hlength := length_message payload
    exact serveLoop_fuel cap data (by rw [length_append]; omega) le_rfl
  rw [serveDecodedFrames, serveLoop, decodeGrpcFrame_message hlen]
  simp only [hrec]
  rfl

theorem serveDecodedFrames_data {cap : ℕ} {data : Bytes} (hdata : data ≠ [])
    (hcap : data.length ≤ cap) (recvBuf : Bytes) :
    serveDecodedFrames cap recvBuf data = (.bytes data, recvBuf, []) := by
  rw [serveDecodedFrames, serveLoop, if_pos hdata, take_of_length_le hcap, drop_eq_nil_of_le hcap]

def drained (s : GrpcStream) (recvBuf : Bytes) : GrpcStream :=
  { s with recv := { s.recv with answers := [] }, recvBuf := recvBuf, readBuf := [] }

theorem pollRead_drained (s : GrpcStream) (recvBuf : Bytes) : (s.drained recvBuf).pollRead cap =
      match serveDecodedFrames cap recvBuf [] with
      | (.bytes out, recvBuf, readBuf) => (.ready out, { s.drained recvBuf with readBuf })
      | (.error e, recvBuf, readBuf) =>
        (.error (.invalidData e), { s.drained recvBuf with readBuf })
      | (.panic, recvBuf, readBuf) => (.panic, { s.drained recvBuf with readBuf })
      | (.needMore, recvBuf, readBuf) =>
        (if s.recv.ended then .ready [] else .pending, { s.drained recvBuf with readBuf }) := by
  simp only [pollRead, drained, pollReadLoop]
  rcases serveDecodedFrames cap recvBuf [] with ⟨_ | _ | _ | _, recvBuf', readBuf'⟩ <;> rfl

theorem exists_panic_of_drained (hover : Overflows payload) (after : Bytes)
    (hlen : payload.length ≤ maxMessageSize) (s : GrpcStream) (cap : ℕ) (before : List Bytes)
    (hbefore : ∀ m ∈ before, m.length ≤ maxMessageSize ∧ m.length ≤ cap) :
    ∃ n, .panic ∈ polls (List.replicate n cap)
      (s.drained (before.flatMap message ++ (message payload ++ after))) := by
  induction before with
  | nil =>
    have hne : payload ≠ [] := by
      obtain ⟨e, rest, rfl, -⟩ := hover
      exact cons_ne_nil _ _
    refine ⟨1, mem_cons.2 (.inl ?_)⟩
    have hpanic := (decodeHunk_eq_panic_iff payload).2 hover
    rw [flatMap_nil, nil_append, pollRead_drained, serveDecodedFrames_message cap hlen,
      if_neg hne, hpanic]
  | cons m before ih =>
    obtain ⟨n, hn⟩ := ih fun m' hm' => hbefore m' (mem_cons_of_mem _ hm')
    obtain ⟨hm, hcap⟩ := hbefore m mem_cons_self
    rw [flatMap_cons, append_assoc]
    generalize before.flatMap message ++ (message payload ++ after) = left at hn ⊢
    -- a message without data is passed over within one poll
    by_cases hskip : m ≠ [] ∧ decodeHunk m = .ok []
    · refine ⟨n, ?_⟩
      have hserve : serveDecodedFrames cap (message m ++ left) [] =
          serveDecodedFrames cap left [] := by
        rw [serveDecodedFrames_message cap hm, if_neg hskip.1, hskip.2]
      cases n with
      | zero => cases hn
      | succ n =>
        rw [replicate_succ, polls] at hn ⊢
        rwa [pollRead_drained, hserve, ← pollRead_drained]
    · refine ⟨n + 1, ?_⟩
      by_cases hpanic : ((s.drained (message m ++ left)).pollRead cap).1 = .panic
      · exact mem_cons.2 (.inl hpanic.symm)
      refine mem_cons_of_mem _ ?_
      have hnext : ((s.drained (message m ++ left)).pollRead cap).2 = s.drained left := by
        rw [pollRead_drained, serveDecodedFrames_message cap hm]
        by_cases hempty : m = []
        · rw [if_pos hempty]
          rfl
        rw [if_neg hempty]
        rcases hhunk : decodeHunk m with (e | _ | _) | data
        · rfl
        · rfl
        · rfl
        · have hdata : data ≠ [] := by
            rintro rfl
            exact hskip ⟨hempty, hhunk⟩
          have hle : data.length ≤ cap := (decodeHunk_length hhunk).trans hcap
          dsimp only
          rw [serveDecodedFrames_data hdata hle]
          rfl
      rw [hnext]
      exact hn

def atOnce (bs : Bytes) (ended : Bool) : RecvStream := ⟨[.chunk bs], ended⟩

theorem pollRead_atOnce (bs : Bytes) (ended : Bool) : (fromH2 (atOnce bs ended)).pollRead cap =
      ((fromH2 (atOnce bs ended)).drained bs).pollRead cap := by
  have hnone : serveDecodedFrames cap [] [] = (.needMore, [], []) := rfl
  simp [pollRead, fromH2, atOnce, drained, pollReadLoop, hnone]

theorem polls_atOnce (caps : List ℕ) (bs : Bytes) (ended : Bool) :
    polls caps (fromH2 (atOnce bs ended)) =
      polls caps ((fromH2 (atOnce bs ended)).drained bs) := by
  cases caps with
  | nil => rfl
  | cons cap caps => rw [polls, polls, pollRead_atOnce]

end GrpcStream

/-! ### When the reader panics -/

/-- **Reading from a gRPC tunnel.**  For every byte sequence of the peer: no reader of it panics,
however it arrives and is polled, exactly when no message in it declares data that ends at `2 ^ 64`
or later; such a message makes `decode_hunk` panic.  And `get_varint` refuses a number that does not
fit in 64 bits exactly when it is not ten bytes long. -/
theorem grpc_read_no_panic_iff (bs payload e rest : Bytes) (he : Leb128.Terminated e) :
    ((∀ recv caps, arriving recv.answers = bs →
        .panic ∉ GrpcStream.polls caps (.fromH2 recv)) ↔
      ∀ p, Carries bs p → ¬ Overflows p) ∧
    (decodeHunk payload ≠ .error .panic ↔ ¬ Overflows payload) ∧
    ((2 ^ 64 ≤ value e → getVarint (e ++ rest) = none) ↔
      ¬ (2 ^ 64 ≤ value e ∧ e.length = 10)) := by
  refine ⟨⟨?_, ?_⟩, not_congr (decodeHunk_eq_panic_iff payload), ?_⟩
  · rintro hsafe p ⟨before, after, rfl, hbefore, hlen⟩ hover
    set bs := before.flatMap message ++ (message p ++ after) with hbs
    have hcap : ∀ m ∈ before, m.length ≤ maxMessageSize ∧ m.length ≤ bs.length := by
      intro m hm
      refine ⟨hbefore m hm, ?_⟩
      have hsub := (sublist_flatten_of_mem (mem_map_of_mem (f := message) hm)).length_le
      rw [length_message] at hsub
      rw [length_append, flatMap_def]
      omega
    obtain ⟨n, hn⟩ := GrpcStream.exists_panic_of_drained hover after hlen
      (.fromH2 (GrpcStream.atOnce bs true)) bs.length before hcap
    refine hsafe (GrpcStream.atOnce bs true) (List.replicate n bs.length) (append_nil _) ?_
    rwa [GrpcStream.polls_atOnce]
  · rintro hnone recv caps rfl hpanic
    have hbehind : GrpcStream.Behind (arriving recv.answers) (GrpcStream.fromH2 recv).undecoded :=
      ⟨[], rfl, by simp⟩
    obtain ⟨p, hp, hover⟩ := GrpcStream.exists_overflows_of_panic hbehind hpanic
    exact hnone p hp hover
  · rw [getVarint_append he]
    have hlt := value_lt e
    by_cases hten : e.length ≤ 10
    · rw [if_pos hten]
      constructor
      · rintro himp ⟨hbig, -⟩
        cases himp hbig
      · intro hnot hbig
        -- nine groups hold only 63 bits
        have hlen : e.length ≤ 9 := by omega
        have hpow : 128 ^ e.length ≤ 128 ^ 9 := Nat.pow_le_pow_right (by omega) hlen
        omega
    · rw [if_neg hten]
      exact ⟨fun _ h => hten (by omega), fun _ _ => rfl⟩

def sampleMessage : Bytes := message [0x0A, 1, 7]

theorem carries_sampleMessage {p : Bytes} (h : Carries sampleMessage p) : p = [0x0A, 1, 7] := by
  obtain ⟨before, after, hbs, -, hlen⟩ := h
  cases before with
  | nil =>
    have hsame : message [0x0A, 1, 7] ++ [] = message p ++ after := hbs
    have hdecode := decodeGrpcFrame_message hlen after
    rw [← hsame, decodeGrpcFrame_message (by decide)] at hdecode
    exact (Option.some.inj (Except.ok.inj (Prod.mk.inj hdecode).1)).symm
  | cons m before =>
    have hlength := congrArg List.length hbs
    rw [flatMap_cons, length_append, length_append, length_append,
      length_message, length_message, show sampleMessage.length = 8 from rfl] at hlength
    omega

theorem grpc_read_no_panic_sample :
    (∀ recv caps, arriving recv.answers = sampleMessage →
        .panic ∉ GrpcStream.polls caps (.fromH2 recv)) ∧
      (2 ^ 64 ≤ value [0x80, 1] → getVarint [0x80, 1] = none) := by
  have hsample := grpc_read_no_panic_iff sampleMessage [] [0x80, 1] [] (by decide)
  refine ⟨hsample.1.2 ?_, hsample.2.2.2 fun h => absurd h.2 (by decide)⟩
  intro p hp hover
  rw [carries_sampleMessage hp, ← decodeHunk_eq_panic_iff] at hover
  revert hover
  decide +kernel

def hugeHunk : Bytes := [0x0A, 0xFF, 0xFF, 0xFF, 0xFF, 0xFF, 0xFF, 0xFF, 0xFF, 0xFF, 0x01]

/-- It makes a reader panic; and a number of ten bytes that does not fit in 64 bits is read. -/
theorem grpc_read_panics :
    GrpcStream.polls [1] (.fromH2 (GrpcStream.atOnce (message hugeHunk) true)) = [.panic] ∧
      decodeHunk hugeHunk = .error .panic ∧
      2 ^ 64 ≤ value [0xFF, 0xFF, 0xFF, 0xFF, 0xFF, 0xFF, 0xFF, 0xFF, 0xFF, 0x02] ∧
      getVarint [0xFF, 0xFF, 0xFF, 0xFF, 0xFF, 0xFF, 0xFF, 0xFF, 0xFF, 0x02] =
        some (0x7FFFFFFFFFFFFFFF, 10) := by
  decide +kernel

end Blackwire.Grpc
