import Blackwire.Transport.GrpcReader

/-!
# A gRPC tunnel between two streams

What one `GrpcStream` writes, another one reads.  The writer makes a frame of up to `2 ^ 24` plain
bytes, and the Hunk around them has five bytes more; the reader refuses a message of more than
`2 ^ 24` bytes.
-/

namespace Blackwire.Grpc

open GrpcStream List GrpcStream

/-! ### The writer -/

inductive Event
  | write (buf : Bytes) (answers : List CapacityAnswer)
  | flush (answers : List CapacityAnswer)
  | shutdown (answers : List CapacityAnswer) (refused : Bool)

structure Writer where
  stream : GrpcStream
  accepted : Bytes

def Writer.start : Writer := ⟨.fromH2 ⟨[], false⟩, []⟩

def taken (buf : Bytes) : Poll ℕ → Bytes
  | .ready n => buf.take n
  | _ => []

variable (w : Writer) {answers : List CapacityAnswer}

def step : Event → Writer
  | .write buf answers =>
    let (answer, stream) := w.stream.pollWrite answers buf
    ⟨stream, w.accepted ++ taken buf answer⟩
  | .flush answers => { w with stream := (w.stream.pollFlush answers).2 }
  | .shutdown answers refused => { w with stream := (w.stream.pollShutdown answers refused).2 }

def CapacityAnswer.Granting : CapacityAnswer → Prop
  | .pending => True
  | .capacity _ => True
  | _ => False

instance CapacityAnswer.Granting.decidable (answer : CapacityAnswer) :
    Decidable answer.Granting := by
  unfold Granting
  split <;> infer_instance

/-- The stream is open, and the peer grants capacity. -/
def Healthy : Event → Prop
  | .write _ answers => w.stream.send.ended = false ∧ ∀ a ∈ answers, a.Granting
  | .flush answers => w.stream.send.ended = false ∧ ∀ a ∈ answers, a.Granting
  | .shutdown answers refused =>
    w.stream.send.ended = false ∧ refused = false ∧ ∀ a ∈ answers, a.Granting

instance Healthy.decidable (e : Event) : Decidable (Healthy w e) := by
  unfold Healthy
  split <;> infer_instance

/-- The call returns with everything sent. -/
def Completes : Event → Prop
  | .write _ _ => False
  | .flush answers => (w.stream.pollFlush answers).1 = .ready ()
  | .shutdown answers refused => (w.stream.pollShutdown answers refused).1 = .ready ()

instance Completes.decidable (e : Event) : Decidable (Completes w e) := by
  unfold Completes
  split <;> infer_instance

/-- What is buffered stays within one message. -/
def Fits : Event → Prop
  | .write buf _ =>
    w.stream.pendingPlain.length + min buf.length maxMessageSize + 5 ≤ maxMessageSize
  | _ => True

instance Fits.decidable (e : Event) : Decidable (Fits w e) := by
  unfold Fits
  split <;> infer_instance

/-! ### Frames -/

def Framed (payloads : List Bytes) : Prop :=
  ∀ p ∈ payloads, p ≠ [] ∧ p.length ≤ maxMessageSize

def Roomy (payload : Bytes) : Prop := payload.length + 5 ≤ maxMessageSize

theorem length_appendHunk_le_iff {payload : Bytes} (h : payload.length ≤ maxMessageSize) :
    (appendHunk [] payload).length ≤ maxMessageSize ↔ Roomy payload := by
  have hmax : maxMessageSize = 2 ^ 24 := rfl
  have hlen : (appendHunk [] payload).length =
      1 + varintLenLoop 9 payload.length + payload.length := by
    obtain ⟨-, -, hlen⟩ := putVarint_spec (n := payload.length) (by omega)
    simp only [appendHunk, nil_append, cons_append, length_cons, length_append, hlen]
    omega
  rw [Roomy]
  -- four groups of seven bits hold every length up to the limit, three do not
  have hthree := varintLenLoop_le_iff (show 2 < 9 by decide) payload.length
  have hfour := varintLenLoop_le_iff (show 3 < 9 by decide) payload.length
  omega

theorem encodeLoop_spec (force : Bool) (fuel : ℕ) (pendingPlain writeBuf : Bytes)
    (hfuel : pendingPlain.length ≤ fuel) :
    ∃ payloads, Framed payloads ∧
      (encodeLoop force fuel pendingPlain writeBuf).2 = writeBuf ++ payloads.flatMap hunkFrame ∧
      pendingPlain = payloads.flatten ++ (encodeLoop force fuel pendingPlain writeBuf).1 ∧
      (encodeLoop force fuel pendingPlain writeBuf).1.length < coalesceTargetBytes ∧
      (force = true → (encodeLoop force fuel pendingPlain writeBuf).1 = []) ∧
      ((∀ p ∈ payloads, Roomy p) ↔ pendingPlain.length + 5 ≤ maxMessageSize) := by
  have hmax : maxMessageSize = 2 ^ 24 := rfl
  have htarget : coalesceTargetBytes = 2 ^ 14 := rfl
  induction fuel generalizing pendingPlain writeBuf with
  | zero =>
    obtain rfl : pendingPlain = [] := eq_nil_of_length_eq_zero (by omega)
    exact ⟨[], by simp [Framed], by simp [encodeLoop], rfl, by simp [encodeLoop, htarget],
      fun _ => rfl, by simp [hmax]⟩
  | succ fuel ih =>
    rw [encodeLoop]
    by_cases hgo : pendingPlain ≠ [] ∧ (force = true ∨ pendingPlain.length ≥ coalesceTargetBytes)
    · rw [if_pos hgo]
      have hpos : 0 < pendingPlain.length := length_pos_iff.2 hgo.1
      set payload := pendingPlain.take maxMessageSize with hpayload
      have hlen : payload.length = min maxMessageSize pendingPlain.length := length_take
      have hrest : (pendingPlain.drop maxMessageSize).length ≤ fuel := by
        rw [length_drop]
        omega
      obtain ⟨payloads, hframed, hwrite, hpending, hshort, hforce, hroomy⟩ :=
        ih (pendingPlain.drop maxMessageSize) (writeBuf ++ hunkFrame payload) hrest
      refine ⟨payload :: payloads, ?_, ?_, ?_, hshort, hforce, ?_⟩
      · intro p hp
        rcases mem_cons.1 hp with rfl | hp
        · exact ⟨ne_nil_of_length_pos (by omega), by omega⟩
        · exact hframed p hp
      · rw [hwrite, flatMap_cons, append_assoc]
      · rw [flatten_cons, append_assoc, ← hpending, take_append_drop]
      · rw [length_drop] at hroomy
        rw [forall_mem_cons, hroomy, Roomy]
        omega
    · rw [if_neg hgo]
      have hshort : pendingPlain.length < coalesceTargetBytes := by
        by_cases hnil : pendingPlain = []
        · simp [hnil, htarget]
        · by_contra hlong
          exact hgo ⟨hnil, .inr (by omega)⟩
      refine ⟨[], by simp [Framed], by simp, rfl, hshort, ?_, ?_⟩
      · intro hforce
        by_contra hnil
        exact hgo ⟨hnil, .inl hforce⟩
      · simp only [not_mem_nil, false_implies, implies_true, true_iff]
        omega

/-! ### What the writer has sent -/

/-- The frames of `payloads` are what was sent and what is buffered; the rest of what was accepted
waits to be framed. -/
structure Writes (payloads : List Bytes) (w : Writer) : Prop where
  framed : Framed payloads
  wire : w.stream.send.sent.flatten ++ w.stream.writeBuf = payloads.flatMap hunkFrame
  accepted : w.accepted = payloads.flatten ++ w.stream.pendingPlain
  short : w.stream.pendingPlain.length < coalesceTargetBytes

theorem writes_start : Writes [] .start :=
  ⟨by simp [Framed], rfl, rfl, by decide⟩

structure Sends (s : GrpcStream) (result : Poll Unit × GrpcStream) : Prop where
  wire : result.2.send.sent.flatten ++ result.2.writeBuf = s.send.sent.flatten ++ s.writeBuf
  pendingPlain : result.2.pendingPlain = s.pendingPlain
  ended : result.2.send.ended = s.send.ended
  answer : result.1 = .pending ∨ result.1 = .ready () ∧ result.2.writeBuf = []

theorem flushH2Send_sends (h : ∀ a ∈ answers, a.Granting) (s : GrpcStream) :
    Sends s (s.flushH2Send answers) := by
  induction answers generalizing s with
  | nil =>
    rw [flushH2Send.eq_def]
    dsimp only
    split_ifs with hnil
    · exact ⟨rfl, rfl, rfl, .inr ⟨rfl, hnil⟩⟩
    · exact ⟨rfl, rfl, rfl, .inl rfl⟩
  | cons answer answers ih =>
    have hgrants : answer.Granting := h answer mem_cons_self
    rw [flushH2Send.eq_def]
    dsimp only
    split_ifs with hnil
    · exact ⟨rfl, rfl, rfl, .inr ⟨rfl, hnil⟩⟩
    cases answer with
    | pending => exact ⟨rfl, rfl, rfl, .inl rfl⟩
    | closed | failed | refused => exact hgrants.elim
    | capacity n =>
      cases n with
      | zero => exact ⟨rfl, rfl, rfl, .inl rfl⟩
      | succ n =>
        have hrec := ih (fun a ha => h a (mem_cons_of_mem _ ha)) { s with
          send := { s.send with sent := s.send.sent ++ [s.writeBuf.take (n + 1)] }
          writeBuf := s.writeBuf.drop (n + 1) }
        refine ⟨?_, hrec.pendingPlain, hrec.ended, hrec.answer⟩
        rw [hrec.wire]
        simp

variable {payloads : List Bytes} {w : Writer} {buf : Bytes}

section

variable (h : Writes payloads w)
include h

theorem Writes.frame (force : Bool) (buf : Bytes) (hgrants : ∀ a ∈ answers, a.Granting) :
    ∃ more, (∀ result, result = flushH2Send answers
        (encodePendingPlainIntoFrames force
          { w.stream with pendingPlain := w.stream.pendingPlain ++ buf }) →
      Writes (payloads ++ more) ⟨result.2, w.accepted ++ buf⟩ ∧
      (force = true → result.2.pendingPlain = []) ∧ result.2.send.ended = w.stream.send.ended ∧
      (result.1 = .pending ∨ result.1 = .ready () ∧ result.2.writeBuf = [])) ∧
      ((∀ p ∈ more, Roomy p) ↔
        w.stream.pendingPlain.length + buf.length + 5 ≤ maxMessageSize) := by
  set plain := w.stream.pendingPlain ++ buf with hplain
  obtain ⟨more, hframed, hwrite, hpending, hshort, hforce, hroomy⟩ :=
    encodeLoop_spec force plain.length plain w.stream.writeBuf le_rfl
  refine ⟨more, ?_, by rw [hroomy, length_append]⟩
  rintro result rfl
  have hsends := flushH2Send_sends hgrants
    (encodePendingPlainIntoFrames force { w.stream with pendingPlain := plain })
  refine ⟨⟨?_, ?_, ?_, ?_⟩, ?_, hsends.ended, hsends.answer⟩
  · intro p hp
    rcases mem_append.1 hp with hp | hp
    · exact h.framed p hp
    · exact hframed p hp
  · rw [hsends.wire]
    show w.stream.send.sent.flatten ++ (encodeLoop force plain.length plain w.stream.writeBuf).2 = _
    rw [hwrite, ← append_assoc, h.wire, flatMap_append]
  · rw [hsends.pendingPlain]
    show w.accepted ++ buf =
      _ ++ (encodeLoop force plain.length plain w.stream.writeBuf).1
    rw [flatten_append, append_assoc, ← hpending, h.accepted, append_assoc]
  · rw [hsends.pendingPlain]
    exact hshort
  · intro hf
    rw [hsends.pendingPlain]
    exact hforce hf

theorem Writes.flush (hgrants : ∀ a ∈ answers, a.Granting) :
    ∃ more, (∀ p ∈ more, Roomy p) ∧ ∀ result, result = flushH2Send answers
        (encodePendingPlainIntoFrames true w.stream) →
      Writes (payloads ++ more) ⟨result.2, w.accepted⟩ ∧ result.2.pendingPlain = [] ∧
      (result.1 = .pending ∨ result.1 = .ready () ∧ result.2.writeBuf = []) := by
  obtain ⟨more, hresult, hroomy⟩ := h.frame true [] hgrants
  have hmax : maxMessageSize = 2 ^ 24 := rfl
  have hshort := h.short
  refine ⟨more, hroomy.2 ?_, fun result hres => ?_⟩
  · simp only [coalesceTargetBytes, length_nil] at hshort ⊢
    omega
  · rw [append_nil, append_nil] at hresult
    obtain ⟨hwrites, hempty, -, hanswer⟩ := hresult result hres
    exact ⟨hwrites, hempty rfl, hanswer⟩

theorem Writes.shutdown (hgrants : ∀ a ∈ answers, a.Granting) :
    ∃ more, (∀ p ∈ more, Roomy p) ∧
      Writes (payloads ++ more) ⟨(w.stream.pollShutdown answers false).2, w.accepted⟩ ∧
      ((w.stream.pollShutdown answers false).1 = .ready () →
        (w.stream.pollShutdown answers false).2.pendingPlain = [] ∧
        (w.stream.pollShutdown answers false).2.writeBuf = []) := by
  obtain ⟨more, hroomy, hresult⟩ := h.flush hgrants
  obtain ⟨hwrites, hempty, hanswer⟩ := hresult _ rfl
  refine ⟨more, hroomy, ?_⟩
  unfold pollShutdown
  rcases hsend : flushH2Send answers
    (encodePendingPlainIntoFrames true w.stream) with ⟨answer, s⟩
  rw [hsend] at hwrites hempty hanswer
  rcases hanswer with rfl | ⟨rfl, hsent⟩
  · exact ⟨hwrites, fun hdone => absurd hdone (by simp)⟩
  · refine ⟨⟨hwrites.framed, ?_, hwrites.accepted, hwrites.short⟩, fun _ => ⟨hempty, hsent⟩⟩
    have hwire := hwrites.wire
    simpa using hwire

/-- **One poll of the writer** frames some more payloads; they leave room for the Hunk exactly when
the poll fits.  A flush or shutdown that completes leaves nothing behind. -/
theorem Writes.step {e : Event} (he : Healthy w e) :
    ∃ more, Writes (payloads ++ more) (step w e) ∧ ((∀ p ∈ more, Roomy p) ↔ Fits w e) ∧
      (Completes w e → (step w e).stream.pendingPlain = [] ∧ (step w e).stream.writeBuf = []) := by
  cases e with
  | write buf answers =>
    obtain ⟨more, hresult, hroomy⟩ := h.frame false (buf.take (min buf.length maxMessageSize)) he.2
    obtain ⟨hwrites, -, -, hanswer⟩ := hresult _ rfl
    refine ⟨more, ?_, ?_, False.elim⟩
    · show Writes _ ⟨(w.stream.pollWrite answers buf).2,
        w.accepted ++ taken buf (w.stream.pollWrite answers buf).1⟩
      unfold pollWrite
      dsimp only
      rcases hsend : flushH2Send answers (encodePendingPlainIntoFrames false
        { w.stream with pendingPlain :=
            w.stream.pendingPlain ++ buf.take (min buf.length maxMessageSize) }) with ⟨answer, s⟩
      rw [hsend] at hwrites hanswer
      rcases hanswer with rfl | ⟨rfl, -⟩ <;> exact hwrites
    · rw [hroomy, length_take, min_eq_left (min_le_left _ _)]
      exact Iff.rfl
  | flush answers =>
    obtain ⟨more, hroomy, hresult⟩ := h.flush he.2
    obtain ⟨hwrites, hempty, hanswer⟩ := hresult _ rfl
    refine ⟨more, hwrites, iff_of_true hroomy trivial, fun hdone => ?_⟩
    rcases hanswer with hpending | ⟨-, hsent⟩
    · exact absurd (hpending.symm.trans hdone) (by simp)
    · exact ⟨hempty, hsent⟩
  | shutdown answers refused =>
    obtain ⟨hopen, rfl, hgrants⟩ := he
    obtain ⟨more, hroomy, hwrites, hdone⟩ := h.shutdown hgrants
    exact ⟨more, hwrites, iff_of_true hroomy trivial, hdone⟩

theorem Writes.run {events : List Event} (hhealthy : Run.Meets Healthy Grpc.step w events) :
    ∃ more, Writes (payloads ++ more) (events.foldl Grpc.step w) ∧
      ((∀ p ∈ more, Roomy p) ↔ Run.Meets Fits Grpc.step w events) := by
  induction events generalizing payloads w with
  | nil => exact ⟨[], by rwa [append_nil], by simp [Run.Meets]⟩
  | cons e events ih =>
    obtain ⟨more, hnext, hfits, -⟩ := h.step hhealthy.1
    obtain ⟨more', hlater, hrest⟩ := ih hnext hhealthy.2
    refine ⟨more ++ more', by rwa [append_assoc] at hlater, ?_⟩
    rw [forall_mem_append, hfits, hrest]
    exact Iff.rfl

end

/-! ### The reader -/

theorem hunkFrame_of_roomy {p : Bytes} (h : Roomy p) :
    hunkFrame p = message (appendHunk [] p) ∧ (appendHunk [] p).length ≤ maxMessageSize ∧
      appendHunk [] p ≠ [] ∧ decodeHunk (appendHunk [] p) = .ok p := by
  have hmax : maxMessageSize = 2 ^ 24 := rfl
  have hlen : p.length + 5 ≤ maxMessageSize := h
  exact ⟨hunkFrame_eq_message (by omega), (length_appendHunk_le_iff (by omega)).2 h,
    cons_ne_nil _ _, decodeHunk_appendHunk (by omega)⟩

/-- **Frames that are not too long are delivered**, however they arrive. -/
theorem delivers_of_roomy (h : ∀ p ∈ payloads, p ≠ [] ∧ Roomy p) {recv : RecvStream}
    (hwire : arriving recv.answers = payloads.flatMap hunkFrame)
    (hhealthy : .failed ∉ recv.answers) : Delivers recv payloads.flatten := by
  have hmessages : ∀ p ∈ payloads, hunkFrame p = message (appendHunk [] p) ∧
      WellFormed (appendHunk [] p) ∧ appendHunk [] p ≠ [] ∧ dataOf (appendHunk [] p) = p := by
    intro p hp
    obtain ⟨hframe, hlen, hne, hhunk⟩ := hunkFrame_of_roomy (h p hp).2
    have hdata : dataOf (appendHunk [] p) = p := by
      rw [dataOf, hhunk]
      rfl
    exact ⟨hframe, ⟨hlen, hhunk.trans (congrArg Except.ok hdata.symm)⟩, hne, hdata⟩
  have hreads : Reads (payloads.map (appendHunk [])) (.fromH2 recv) payloads.flatten := by
    refine ⟨?_, orderly_of_ne_nil ?_, hwire.trans ?_, ?_, hhealthy⟩
    · exact forall_mem_map.2 fun p hp => (hmessages p hp).2.1
    · exact forall_mem_map.2 fun p hp => (hmessages p hp).2.2.1
    · rw [flatMap_map]
      exact flatMap_congr fun p hp => (hmessages p hp).1
    · show _ = (payloads.map (appendHunk [])).flatMap dataOf
      rw [flatMap_map, flatMap_congr fun p hp => (hmessages p hp).2.2.2, flatMap_id']
  exact hreads.delivers

/-! ### Frames that are too long -/

theorem readAll_of_long {good : List Bytes} (hgood : ∀ p ∈ good, p ≠ [] ∧ Roomy p) {bad : Bytes}
    (hlen : bad.length ≤ maxMessageSize) (hbad : ¬ Roomy bad) (after : Bytes) (s : GrpcStream) :
    readAll (List.replicate (good.length + 1) maxMessageSize)
      (s.drained (good.flatMap hunkFrame ++ (hunkFrame bad ++ after))) = none := by
  have hmax : maxMessageSize = 2 ^ 24 := rfl
  induction good with
  | nil =>
    have hlong : maxMessageSize < (appendHunk [] bad).length := by
      rw [← not_le, length_appendHunk_le_iff hlen]
      exact hbad
    have hlt : (appendHunk [] bad).length < 2 ^ 32 := by
      obtain ⟨-, -, hvarint⟩ := putVarint_spec (n := bad.length) (by omega)
      have hle := varintLenLoop_le 9 bad.length
      simp only [appendHunk, nil_append, cons_append, length_cons, length_append, hvarint]
      omega
    rw [flatMap_nil, nil_append, hunkFrame_eq_message (by omega), replicate_succ, readAll,
      pollRead_drained, serveDecodedFrames, serveLoop, if_neg (by simp),
      decodeGrpcFrame_too_long hlong hlt]
  | cons p good ih =>
    obtain ⟨hp, hroom⟩ := hgood p mem_cons_self
    obtain ⟨hframe, hhunkLen, hne, hhunk⟩ := hunkFrame_of_roomy hroom
    have hroom' : p.length + 5 ≤ maxMessageSize := hroom
    have hrec := ih fun q hq => hgood q (mem_cons_of_mem _ hq)
    rw [flatMap_cons, append_assoc, replicate_succ, readAll,
      pollRead_drained, hframe, serveDecodedFrames_message _ hhunkLen, if_neg hne, hhunk]
    dsimp only
    rw [serveDecodedFrames_data hp (by omega)]
    have hstate : { s.drained (good.flatMap hunkFrame ++ (hunkFrame bad ++ after)) with
        readBuf := [] } = s.drained (good.flatMap hunkFrame ++ (hunkFrame bad ++ after)) := rfl
    simp [hstate, hrec]

theorem exists_first_long (h : ¬ ∀ p ∈ payloads, Roomy p) :
    ∃ good bad after, payloads = good ++ bad :: after ∧ (∀ p ∈ good, Roomy p) ∧ ¬ Roomy bad := by
  induction payloads with
  | nil => simp at h
  | cons p payloads ih =>
    by_cases hp : Roomy p
    · have hrest : ¬ ∀ q ∈ payloads, Roomy q := fun hall => h (by simpa [hp] using hall)
      obtain ⟨good, bad, after, rfl, hgood, hbad⟩ := ih hrest
      exact ⟨p :: good, bad, after, rfl, by simpa [hp] using hgood, hbad⟩
    · exact ⟨[], p, payloads, rfl, by simp, hp⟩

/-- **A frame that is too long is refused** by a reader that gets it. -/
theorem not_delivers_of_long (hframed : Framed payloads) (h : ¬ ∀ p ∈ payloads, Roomy p)
    (ended : Bool) (bs : Bytes) : ¬ Delivers (atOnce (payloads.flatMap hunkFrame) ended) bs := by
  obtain ⟨good, bad, after, rfl, hgood, hbad⟩ := exists_first_long h
  have hgood' : ∀ p ∈ good, p ≠ [] ∧ Roomy p :=
    fun p hp => ⟨(hframed p (mem_append_left _ hp)).1, hgood p hp⟩
  have hlen : bad.length ≤ maxMessageSize := (hframed bad (by simp)).2
  intro hdelivers
  obtain ⟨out, s, hrun, -⟩ := hdelivers (List.replicate (good.length + 1) maxMessageSize) (by
    intro cap hcap
    rw [eq_of_mem_replicate hcap]
    decide)
  have hnone := readAll_of_long hgood' hlen hbad (after.flatMap hunkFrame)
    (.fromH2 (atOnce ((good ++ bad :: after).flatMap hunkFrame) ended))
  rw [← flatMap_cons, ← flatMap_append, replicate_succ, readAll, ← pollRead_atOnce,
    ← readAll, ← replicate_succ] at hnone
  rw [hnone] at hrun
  cases hrun

/-! ### The tunnel -/

/-- **A gRPC tunnel.**  For every run of writes and flushes that ends with a completed flush or
shutdown, over an HTTP/2 stream that does not fail: a reader gets exactly what was accepted, however
the sent bytes arrive and whatever room it has, if and only if every write left five bytes of room
for the Hunk in the message that it is framed in. -/
theorem grpcStream_delivers_iff (events : List Event) (last : Event)
    (hhealthy : Run.Meets Healthy step .start (events ++ [last]))
    (hlast : Completes (events.foldl step .start) last) :
    (∀ recv : RecvStream,
        arriving recv.answers =
          ((events ++ [last]).foldl step .start).stream.send.sent.flatten →
        recv.ended = ((events ++ [last]).foldl step .start).stream.send.ended →
        .failed ∉ recv.answers →
        Delivers recv ((events ++ [last]).foldl step .start).accepted) ↔
      Run.Meets Fits step .start (events ++ [last]) := by
  obtain ⟨payloads, hwrites, hfits⟩ := writes_start.run hhealthy
  rw [nil_append] at hwrites
  rw [← hfits]
  -- the last poll has sent everything
  have hempty : ((events ++ [last]).foldl step .start).stream.pendingPlain = [] ∧
      ((events ++ [last]).foldl step .start).stream.writeBuf = [] := by
    obtain ⟨front, hfront, -⟩ := writes_start.run hhealthy.of_append
    obtain ⟨more, -, -, hdone⟩ := hfront.step (Run.meets_last hhealthy)
    rw [foldl_append]
    exact hdone hlast
  have hwire : ((events ++ [last]).foldl step .start).stream.send.sent.flatten =
      payloads.flatMap hunkFrame := by
    have hall := hwrites.wire
    rwa [hempty.2, append_nil] at hall
  have haccepted : ((events ++ [last]).foldl step .start).accepted = payloads.flatten := by
    rw [hwrites.accepted, hempty.1, append_nil]
  rw [hwire, haccepted]
  constructor
  · intro hdelivers
    by_contra hlong
    refine not_delivers_of_long hwrites.framed hlong _ _ (hdelivers (atOnce _ _) ?_ rfl ?_)
    · exact append_nil _
    · simp [atOnce]
  · intro hroomy recv hrecv _ hnofail
    exact delivers_of_roomy (fun p hp => ⟨(hwrites.framed p hp).1, hroomy p hp⟩) hrecv hnofail

def sampleWrites : List Event :=
  [.write [1, 2] [], .flush [.capacity 3, .pending], .write [3] [.capacity 4],
    .flush [.capacity 0], .flush [.capacity 100]]

theorem grpcStream_delivers_sample :
    (sampleWrites.foldl step .start).accepted = [1, 2, 3] ∧
      ∀ recv : RecvStream,
        arriving recv.answers =
          ((sampleWrites ++ [Event.shutdown [] false]).foldl step .start).stream.send.sent.flatten →
        recv.ended =
          ((sampleWrites ++ [Event.shutdown [] false]).foldl step .start).stream.send.ended →
        .failed ∉ recv.answers →
        Delivers recv ((sampleWrites ++ [Event.shutdown [] false]).foldl step .start).accepted :=
  ⟨by decide +kernel,
    (grpcStream_delivers_iff sampleWrites (.shutdown [] false) (by decide +kernel)
      (by decide +kernel)).2 (by decide +kernel)⟩

theorem pollWrite_large (hmin : coalesceTargetBytes ≤ buf.length)
    (hmax : buf.length ≤ maxMessageSize) {capacity : ℕ}
    (hcapacity : (hunkFrame buf).length ≤ capacity + 1) :
    (fromH2 ⟨[], false⟩).pollWrite [.capacity (capacity + 1)] buf =
      (.ready buf.length, { fromH2 ⟨[], false⟩ with send := ⟨[hunkFrame buf], false⟩ }) := by
  have htarget : coalesceTargetBytes = 2 ^ 14 := rfl
  have hne : buf ≠ [] := ne_nil_of_length_pos (by omega)
  have hencode : encodeLoop false buf.length buf [] = ([], hunkFrame buf) := by
    obtain ⟨k, hk⟩ : ∃ k, buf.length = k + 1 := ⟨buf.length - 1, by omega⟩
    rw [hk, encodeLoop, if_pos ⟨hne, .inr hmin⟩, take_of_length_le hmax, drop_eq_nil_of_le hmax]
    dsimp only
    rw [nil_append]
    cases k with
    | zero => rfl
    | succ k => rw [encodeLoop, if_neg (by simp)]
  have hframe : hunkFrame buf ≠ [] := by exact cons_ne_nil _ _
  simp only [pollWrite, min_eq_left hmax, take_length, encodePendingPlainIntoFrames, fromH2,
    nil_append, hencode, flushH2Send, hframe, if_false, take_of_length_le hcapacity,
    drop_eq_nil_of_le hcapacity, if_true]

theorem length_appendHunk_large (h : buf.length = maxMessageSize) :
    (appendHunk [] buf).length = 16777221 := by
  simp only [appendHunk, nil_append, cons_append, length_cons, length_append, h]
  rfl

def largeWrite (buf : Bytes) : Event := .write buf [.capacity (2 * maxMessageSize)]

theorem step_largeWrite (h : buf.length = maxMessageSize) :
    step .start (largeWrite buf) =
      ⟨{ fromH2 ⟨[], false⟩ with send := ⟨[hunkFrame buf], false⟩ }, buf⟩ := by
  have hmax : maxMessageSize = 2 ^ 24 := rfl
  have htarget : coalesceTargetBytes = 2 ^ 14 := rfl
  have hframe : (hunkFrame buf).length = 16777226 := by
    rw [hunkFrame_eq_message (by omega), length_message, length_appendHunk_large h]
  have hcapacity : 2 * maxMessageSize - 1 + 1 = 2 * maxMessageSize := by omega
  have hfits : (hunkFrame buf).length ≤ 2 * maxMessageSize - 1 + 1 := by omega
  have hwrite := pollWrite_large (by omega) (by omega) hfits
  rw [hcapacity] at hwrite
  simp [step, largeWrite, Writer.start, hwrite, taken]

theorem refuses_large (h : buf.length = maxMessageSize) :
    Run.Meets Healthy step .start [largeWrite buf, .shutdown [] false] ∧
      Completes (step .start (largeWrite buf)) (.shutdown [] false) ∧
      (step (step .start (largeWrite buf)) (.shutdown [] false)).accepted = buf ∧
      ((fromH2 (atOnce (step (step .start (largeWrite buf))
        (.shutdown [] false)).stream.send.sent.flatten true)).pollRead 1).1 =
          .error (.invalidData
            (.transport ("gRPC: message too large (" ++ toString 16777221 ++ " bytes)"))) := by
  have hmax : maxMessageSize = 2 ^ 24 := rfl
  have hhunk := length_appendHunk_large h
  rw [Run.Meets, step_largeWrite h]
  refine ⟨⟨⟨rfl, by simp [CapacityAnswer.Granting]⟩, ⟨rfl, rfl, by simp⟩, trivial⟩, rfl, rfl, ?_⟩
  have hsent : (step ⟨{ fromH2 ⟨[], false⟩ with send := ⟨[hunkFrame buf], false⟩ }, buf⟩
      (.shutdown [] false)).stream.send.sent.flatten = message (appendHunk [] buf) ++ [] := by
    rw [← hunkFrame_eq_message (by omega)]
    rfl
  rw [hsent, pollRead_atOnce, pollRead_drained, serveDecodedFrames, serveLoop, if_neg (by simp),
    decodeGrpcFrame_too_long (by omega) (by omega), hhunk]

/-- A write of `2 ^ 24` zero bytes and a shutdown succeed, and the reader refuses the frame. -/
theorem grpcStream_refuses_large :
    Run.Meets Healthy step .start
        [largeWrite (List.replicate maxMessageSize 0), .shutdown [] false] ∧
      Completes (step .start (largeWrite (List.replicate maxMessageSize 0)))
        (.shutdown [] false) ∧
      (step (step .start (largeWrite (List.replicate maxMessageSize 0)))
        (.shutdown [] false)).accepted = List.replicate maxMessageSize 0 ∧
      ((fromH2 (atOnce (step (step .start (largeWrite (List.replicate maxMessageSize 0)))
        (.shutdown [] false)).stream.send.sent.flatten true)).pollRead 1).1 =
          .error (.invalidData
            (.transport ("gRPC: message too large (" ++ toString 16777221 ++ " bytes)"))) :=
  refuses_large length_replicate

end Blackwire.Grpc
