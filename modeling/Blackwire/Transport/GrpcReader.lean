import Blackwire.Transport.Grpc

/-!
# Reading from a gRPC tunnel

A `GrpcStream` that gets well-formed messages, in any pieces.  An empty message sends the reader to
the stream below, whatever is in its buffer behind it.
-/

namespace Blackwire.Grpc

open GrpcStream List

/-! ### Callers -/

def readAll : List ℕ → GrpcStream → Option (Bytes × GrpcStream)
  | [], s => some ([], s)
  | cap :: caps, s =>
    match s.pollRead cap with
    | (.pending, s) => readAll caps s
    | (.ready out, s) => (readAll caps s).map fun result => (out ++ result.1, result.2)
    | _ => none

def stalls (answers : List RecvAnswer) : ℕ := answers.count .pending

/-- A reader of `recv` gets `bs`: whatever room it has, it gets a beginning of `bs` and no error; it
is told of the end only when it has got everything; and when it polls often enough it gets
everything, and is told of the end if the stream ends. -/
def Delivers (recv : RecvStream) (bs : Bytes) : Prop :=
  ∀ caps : List ℕ, (∀ cap ∈ caps, 0 < cap) →
    ∃ out s, readAll caps (.fromH2 recv) = some (out, s) ∧ out <+: bs ∧
      (∀ cap, 0 < cap → (s.pollRead cap).1 = .ready [] → out = bs) ∧
      (bs.length + stalls recv.answers ≤ caps.length →
        out = bs ∧ (recv.ended = true → ∀ cap, 0 < cap → (s.pollRead cap).1 = .ready []))

/-! ### Messages with data -/

def dataOf (m : Bytes) : Bytes := (decodeHunk m).toOption.getD []

def WellFormed (m : Bytes) : Prop :=
  m.length ≤ maxMessageSize ∧ decodeHunk m = .ok (dataOf m)

/-- No data comes behind an empty message. -/
def Orderly : List Bytes → Prop
  | [] => True
  | m :: messages => if m = [] then messages.flatMap dataOf = [] else Orderly messages

def HoldsData (buf : Bytes) : Prop :=
  ∃ (before : List Bytes) (m after : Bytes), buf = before.flatMap message ++ (message m ++ after) ∧
    (∀ x ∈ before, WellFormed x) ∧ WellFormed m ∧ dataOf m ≠ []

variable {todo : List Bytes} {s : GrpcStream} {bs : Bytes}

theorem orderly_of_no_data (h : todo.flatMap dataOf = []) : Orderly todo := by
  induction todo with
  | nil => trivial
  | cons m todo ih =>
    rw [flatMap_cons, append_eq_nil_iff] at h
    unfold Orderly
    split_ifs
    · exact h.2
    · exact ih h.2

theorem orderly_of_ne_nil (h : ∀ m ∈ todo, m ≠ []) : Orderly todo := by
  induction todo with
  | nil => trivial
  | cons m todo ih =>
    rw [forall_mem_cons] at h
    exact (if_neg h.1).mpr (ih h.2)

theorem Orderly.tail {m : Bytes} (h : Orderly (m :: todo)) : Orderly todo := by
  unfold Orderly at h
  split_ifs at h
  · exact orderly_of_no_data h
  · exact h

theorem message_append_inj {m m' x y : Bytes} (hm : WellFormed m) (hm' : WellFormed m')
    (h : message m ++ x = message m' ++ y) : m = m' ∧ x = y := by
  have hdecode := decodeGrpcFrame_message hm.1 x
  rw [h, decodeGrpcFrame_message hm'.1] at hdecode
  simpa [eq_comm] using hdecode

theorem HoldsData.of_wire {buf tail : Bytes} (h : HoldsData buf)
    (hformed : ∀ m ∈ todo, WellFormed m) (hwire : buf ++ tail = todo.flatMap message) :
    todo.flatMap dataOf ≠ [] ∧ ∀ m rest, todo = m :: rest → (message m).length ≤ buf.length := by
  obtain ⟨before, m, after, rfl, hbefore, hm, hdata⟩ := h
  induction before generalizing todo with
  | nil =>
    cases todo with
    | nil => simp [message] at hwire
    | cons m' todo =>
      rw [flatMap_nil, nil_append, append_assoc] at hwire
      obtain ⟨rfl, -⟩ := message_append_inj hm (hformed m' mem_cons_self) hwire
      refine ⟨by simp [hdata], ?_⟩
      simp
  | cons x before ih =>
    cases todo with
    | nil => simp [message] at hwire
    | cons m' todo =>
      rw [forall_mem_cons] at hbefore hformed
      simp only [flatMap_cons, append_assoc] at hwire
      obtain ⟨rfl, hwire⟩ := message_append_inj hbefore.1 hformed.1 hwire
      have hdata' := (ih hformed.2 (by simpa using hwire) hbefore.2).1
      refine ⟨fun hnil => hdata' (append_eq_nil_iff.1 hnil).2, ?_⟩
      rintro _ _ ⟨⟩
      simp only [flatMap_cons, length_append]
      omega

/-! ### One poll -/

theorem serveDecodedFrames_messages (cap : ℕ) {recvBuf tail : Bytes}
    (hformed : ∀ m ∈ todo, WellFormed m) (horderly : Orderly todo)
    (hwire : recvBuf ++ tail = todo.flatMap message) :
    ∃ todo' recvBuf', (∀ m ∈ todo', WellFormed m) ∧ Orderly todo' ∧
      recvBuf' ++ tail = todo'.flatMap message ∧
      ((∃ data, data ≠ [] ∧ todo.flatMap dataOf = data ++ todo'.flatMap dataOf ∧
          serveDecodedFrames cap recvBuf [] = (.bytes (data.take cap), recvBuf', data.drop cap)) ∨
        todo.flatMap dataOf = todo'.flatMap dataOf ∧ ¬ HoldsData recvBuf' ∧
          (tail = [] → todo.flatMap dataOf = []) ∧
          serveDecodedFrames cap recvBuf [] = (.needMore, recvBuf', [])) := by
  induction todo generalizing recvBuf with
  | nil =>
    obtain ⟨rfl, rfl⟩ := append_eq_nil_iff.1 hwire
    refine ⟨[], [], by simp, trivial, rfl, .inr ⟨rfl, fun h => ?_, fun _ => rfl, rfl⟩⟩
    exact (h.of_wire hformed hwire).1 rfl
  | cons m todo ih =>
    obtain ⟨hm, hformed'⟩ := forall_mem_cons.1 hformed
    by_cases hwhole : (message m).length ≤ recvBuf.length
    · obtain ⟨recvBuf, rfl⟩ : message m <+: recvBuf :=
        prefix_of_prefix_length_le ⟨todo.flatMap message, rfl⟩ ⟨tail, hwire⟩ hwhole
      rw [flatMap_cons, append_assoc, append_cancel_left_eq] at hwire
      rw [serveDecodedFrames_message cap hm.1, flatMap_cons]
      by_cases hempty : m = []
      · -- whatever is behind the message is left alone
        subst hempty
        have hnone : todo.flatMap dataOf = [] := horderly
        refine ⟨todo, recvBuf, hformed', horderly.tail, hwire,
          .inr ⟨rfl, fun h => ?_, fun _ => ?_, rfl⟩⟩
        · exact (h.of_wire hformed' hwire).1 hnone
        · rw [hnone]
          rfl
      · rw [if_neg hempty, hm.2]
        dsimp only
        by_cases hdata : dataOf m = []
        · rw [hdata]
          exact ih hformed' horderly.tail hwire
        · refine ⟨todo, recvBuf, hformed', horderly.tail, hwire, .inl ⟨dataOf m, hdata, rfl, ?_⟩⟩
          rw [serveDecodedFrames, serveLoop, if_pos hdata]
    · refine ⟨m :: todo, recvBuf, hformed, horderly, hwire,
        .inr ⟨rfl, fun h => ?_, fun htail => ?_, ?_⟩⟩
      · exact hwhole ((h.of_wire hformed hwire).2 m todo rfl)
      · subst htail
        rw [append_nil, flatMap_cons] at hwire
        rw [hwire, length_append] at hwhole
        omega
      · have harrived : recvBuf <+: message m :=
          prefix_of_prefix_length_le ⟨tail, hwire⟩ ⟨todo.flatMap message, rfl⟩ (by omega)
        rw [serveDecodedFrames, serveLoop, if_neg (by simp),
          decodeGrpcFrame_incomplete hm.1 harrived (by omega)]

/-- The reader has `bs` yet to deliver: what is decoded, and the data of the messages. -/
structure Reads (todo : List Bytes) (s : GrpcStream) (bs : Bytes) : Prop where
  formed : ∀ m ∈ todo, WellFormed m
  orderly : Orderly todo
  wire : s.undecoded = todo.flatMap message
  bytes : bs = s.readBuf ++ todo.flatMap dataOf
  healthy : .failed ∉ s.recv.answers

def AnswerReads (s : GrpcStream) (bs : Bytes) : Poll Bytes × GrpcStream → Prop
  | (.pending, s') =>
    (∃ todo, Reads todo s' bs) ∧ s'.recv.ended = s.recv.ended ∧ ¬ HoldsData s'.recvBuf ∧
      (stalls s'.recv.answers < stalls s.recv.answers ∨
        bs = [] ∧ stalls s'.recv.answers = 0 ∧ s.recv.ended = false)
  | (.ready out, s') =>
    ∃ bs', bs = out ++ bs' ∧ (∃ todo, Reads todo s' bs') ∧ s'.recv.ended = s.recv.ended ∧
      stalls s'.recv.answers ≤ stalls s.recv.answers ∧
      (out = [] → bs = [] ∧ stalls s'.recv.answers = 0)
  | _ => False

theorem Reads.serve {cap : ℕ} (hcap : 0 < cap) (h : Reads todo s bs) :
    (∃ out recvBuf readBuf,
      serveDecodedFrames cap s.recvBuf s.readBuf = (.bytes out, recvBuf, readBuf) ∧
        AnswerReads s bs (.ready out, { s with recvBuf, readBuf })) ∨
    ∃ todo' recvBuf, serveDecodedFrames cap s.recvBuf s.readBuf = (.needMore, recvBuf, []) ∧
      Reads todo' { s with recvBuf, readBuf := [] } bs ∧ ¬ HoldsData recvBuf ∧
      (arriving s.recv.answers = [] → bs = []) := by
  have hne : ∀ bs : Bytes, bs ≠ [] → bs.take cap ≠ [] := by
    intro bs hbs hnil
    exact (take_eq_nil_iff.1 hnil).elim hcap.ne' hbs
  by_cases hread : s.readBuf = []
  · have hbytes := h.bytes
    rw [hread, nil_append] at hbytes
    obtain ⟨todo', recvBuf, hformed, horderly, hwire, ⟨data, hdata, hall, hserve⟩ |
      ⟨hall, hholds, hnone, hserve⟩⟩ := serveDecodedFrames_messages cap h.formed h.orderly h.wire
    · rw [hread]
      refine .inl ⟨_, _, _, hserve, data.drop cap ++ todo'.flatMap dataOf, ?_,
        ⟨todo', hformed, horderly, hwire, rfl, h.healthy⟩, rfl, le_rfl,
        fun hout => absurd hout (hne _ hdata)⟩
      rw [hbytes, hall, ← append_assoc, take_append_drop]
    · rw [hread]
      exact .inr ⟨todo', recvBuf, hserve, ⟨hformed, horderly, hwire, hbytes.trans hall, h.healthy⟩,
        hholds, fun htail => hbytes.trans (hnone htail)⟩
  · refine .inl ⟨s.readBuf.take cap, s.recvBuf, s.readBuf.drop cap, ?_,
      s.readBuf.drop cap ++ todo.flatMap dataOf, ?_,
      ⟨todo, h.formed, h.orderly, h.wire, rfl, h.healthy⟩, rfl, le_rfl,
      fun hout => absurd hout (hne _ hread)⟩
    · rw [serveDecodedFrames, serveLoop, if_pos hread]
    · rw [h.bytes, ← append_assoc, take_append_drop]

/-- **One poll of the reader.** -/
theorem pollRead_reads {cap : ℕ} (hcap : 0 < cap) (h : Reads todo s bs) :
    AnswerReads s bs (s.pollRead cap) := by
  obtain ⟨send, ⟨answers, ended⟩, recvBuf, readBuf, pendingPlain, writeBuf⟩ := s
  -- the induction is on the answers of the stream below
  induction answers generalizing recvBuf readBuf todo with
  | nil =>
    simp only [pollRead]
    rw [pollReadLoop]
    obtain ⟨out, recvBuf', readBuf', hserve, hanswer⟩ |
        ⟨todo', recvBuf', hserve, h', hholds, hnone⟩ :=
      h.serve hcap <;> rw [hserve]
    · exact hanswer
    · obtain rfl : bs = [] := hnone rfl
      cases ended with
      | true => exact ⟨[], rfl, ⟨todo', h'⟩, rfl, le_rfl, fun _ => ⟨rfl, rfl⟩⟩
      | false => exact ⟨⟨todo', h'⟩, rfl, hholds, .inr ⟨rfl, rfl, rfl⟩⟩
  | cons answer answers ih =>
    have hhealthy : .failed ∉ answers := fun hmem => h.healthy (mem_cons_of_mem _ hmem)
    simp only [pollRead]
    rw [pollReadLoop]
    obtain ⟨out, recvBuf', readBuf', hserve, hanswer⟩ | ⟨todo', recvBuf', hserve, h', hholds, -⟩ :=
      h.serve hcap <;> rw [hserve]
    · exact hanswer
    · cases answer with
      | failed => exact absurd mem_cons_self h.healthy
      | pending =>
        refine ⟨⟨todo', h'.formed, h'.orderly, h'.wire, h'.bytes, hhealthy⟩, rfl, hholds, .inl ?_⟩
        simp [stalls]
      | chunk data =>
        have hwire : (recvBuf' ++ data) ++ arriving answers = todo'.flatMap message := by
          rw [append_assoc]
          exact h'.wire
        have hnext := ih (recvBuf' ++ data) [] ⟨h'.formed, h'.orderly, hwire, h'.bytes, hhealthy⟩
        exact hnext

theorem Reads.readAll {caps : List ℕ} (hcaps : ∀ cap ∈ caps, 0 < cap) (h : Reads todo s bs) :
    ∃ out s' bs' todo', readAll caps s = some (out, s') ∧ bs = out ++ bs' ∧ Reads todo' s' bs' ∧
      s'.recv.ended = s.recv.ended ∧
      (bs.length + stalls s.recv.answers ≤ caps.length →
        bs' = [] ∧ stalls s'.recv.answers = 0) := by
  induction caps generalizing s bs todo with
  | nil =>
    refine ⟨[], s, bs, todo, rfl, rfl, h, rfl, fun hle => ?_⟩
    rw [length_nil] at hle
    exact ⟨eq_nil_of_length_eq_zero (by omega), by omega⟩
  | cons cap caps ih =>
    have hcaps' : ∀ c ∈ caps, 0 < c := fun c hc => hcaps c (mem_cons_of_mem _ hc)
    have hanswer := pollRead_reads (hcaps cap mem_cons_self) h
    rw [Grpc.readAll]
    rcases hpoll : s.pollRead cap with ⟨answer, s₁⟩
    rw [hpoll] at hanswer
    rw [length_cons]
    cases answer with
    | pending =>
      obtain ⟨⟨todo₁, h₁⟩, hended, -, hstalls⟩ := hanswer
      obtain ⟨out, s', bs', todo', hrun, hbs, h', hended', henough⟩ := ih hcaps' h₁
      refine ⟨out, s', bs', todo', hrun, hbs, h', hended'.trans hended, fun hle => henough ?_⟩
      rcases hstalls with hlt | ⟨hnil, hzero, -⟩
      · omega
      · rw [hnil, hzero]
        exact Nat.zero_le _
    | ready out₁ =>
      obtain ⟨bs₁, rfl, ⟨todo₁, h₁⟩, hended, hstalls, hempty⟩ := hanswer
      obtain ⟨out, s', bs', todo', hrun, rfl, h', hended', henough⟩ := ih hcaps' h₁
      refine ⟨out₁ ++ out, s', bs', todo', ?_, (append_assoc ..).symm, h',
        hended'.trans hended, fun hle => henough ?_⟩
      · simp [hrun]
      · by_cases hout : out₁ = []
        · obtain ⟨hnil, hzero⟩ := hempty hout
          rw [hout, nil_append] at hnil
          rw [hnil, hzero]
          exact Nat.zero_le _
        · have hpos : 0 < out₁.length := length_pos_iff.2 hout
          rw [length_append] at hle
          omega
    | error | panic => exact hanswer.elim

/-- **Data in front of all empty messages is delivered**, however it arrives. -/
theorem Reads.delivers {recv : RecvStream} (h : Reads todo (.fromH2 recv) bs) :
    Delivers recv bs := by
  intro caps hcaps
  obtain ⟨out, s, bs', todo', hrun, hbs, hs, hended, henough⟩ := h.readAll hcaps
  refine ⟨out, s, hrun, ⟨bs', hbs.symm⟩, ?_, ?_⟩
  · intro cap hcap hready
    have hanswer := pollRead_reads hcap hs
    rcases hpoll : s.pollRead cap with ⟨answer, s₁⟩
    rw [hpoll] at hanswer hready
    obtain rfl : answer = .ready [] := hready
    obtain ⟨-, -, -, -, -, hempty⟩ := hanswer
    rw [hbs, (hempty rfl).1, append_nil]
  · intro hle
    obtain ⟨rfl, hzero⟩ := henough hle
    refine ⟨by rw [hbs, append_nil], fun hend cap hcap => ?_⟩
    have hanswer := pollRead_reads hcap hs
    rcases hpoll : s.pollRead cap with ⟨answer, s₁⟩
    rw [hpoll] at hanswer
    cases answer with
    | pending =>
      obtain ⟨-, -, -, hlt | ⟨-, -, hopen⟩⟩ := hanswer
      · omega
      · exact absurd (hopen.symm.trans (hended.trans hend)) (by simp)
    | ready out₁ =>
      obtain ⟨bs₁, hnil, -⟩ := hanswer
      rw [(append_eq_nil_iff.1 hnil.symm).1]
    | error | panic => exact hanswer.elim

/-! ### Data behind an empty message -/

theorem exists_early_end (hformed : ∀ m ∈ todo, WellFormed m) (h : ¬ Orderly todo)
    (hended : s.recv.ended = true) :
    ∃ n out s', readAll (List.replicate n maxMessageSize) (s.drained (todo.flatMap message)) =
        some (out, s') ∧ (s'.pollRead 1).1 = .ready [] ∧
      out.length < (todo.flatMap dataOf).length := by
  induction todo with
  | nil => exact absurd trivial h
  | cons m todo ih =>
    obtain ⟨hm, hformed⟩ := forall_mem_cons.1 hformed
    unfold Orderly at h
    rw [flatMap_cons, flatMap_cons]
    by_cases hempty : m = []
    · subst hempty
      refine ⟨0, [], _, rfl, ?_, length_pos_iff.2 fun hnil => h ?_⟩
      · exact if_pos hended
      · exact (if_pos rfl).mpr (append_eq_nil_iff.1 hnil).2
    rw [if_neg hempty] at h
    obtain ⟨n, out, s', hread, hend, hlen⟩ := ih hformed h
    have hserve : ∀ cap, serveDecodedFrames cap (message m ++ todo.flatMap message) [] =
        serveDecodedFrames cap (todo.flatMap message) (dataOf m) := by
      intro cap
      rw [serveDecodedFrames_message cap hm.1, if_neg hempty, hm.2]
    by_cases hdata : dataOf m = []
    · -- nothing of the message is seen
      have hpoll : ∀ cap, (s.drained (message m ++ todo.flatMap message)).pollRead cap =
          (s.drained (todo.flatMap message)).pollRead cap := by
        intro cap
        rw [pollRead_drained, pollRead_drained, hserve, hdata]
      rw [hdata]
      cases n with
      | zero =>
        obtain ⟨rfl, rfl⟩ := Prod.mk.inj (Option.some.inj hread)
        exact ⟨0, [], _, rfl, by rw [hpoll]; exact hend, hlen⟩
      | succ n =>
        refine ⟨n + 1, out, s', ?_, hend, hlen⟩
        rw [replicate_succ, readAll, hpoll, ← readAll, ← replicate_succ, hread]
    · refine ⟨n + 1, dataOf m ++ out, s', ?_, hend, by simpa using hlen⟩
      rw [replicate_succ, readAll, pollRead_drained, hserve,
        serveDecodedFrames_data hdata ((decodeHunk_length hm.2).trans hm.1)]
      show (readAll _ (s.drained (todo.flatMap message))).map _ = _
      rw [hread]
      rfl

theorem readAll_atOnce {n : ℕ} {out : Bytes}
    (h : readAll (List.replicate n maxMessageSize) ((fromH2 (atOnce bs true)).drained bs) =
      some (out, s)) (hend : (s.pollRead 1).1 = .ready []) :
    ∃ s, readAll (List.replicate n maxMessageSize) (fromH2 (atOnce bs true)) = some (out, s) ∧
      (s.pollRead 1).1 = .ready [] := by
  cases n with
  | zero =>
    obtain ⟨rfl, rfl⟩ := Prod.mk.inj (Option.some.inj h)
    exact ⟨_, rfl, by exact hend⟩
  | succ n =>
    refine ⟨s, ?_, hend⟩
    rw [replicate_succ, readAll, pollRead_atOnce, ← readAll, ← replicate_succ, h]

/-- **Reading messages.**  For every sequence of well-formed messages: however they arrive, a reader
gets all their data in order before it is told of the end, and never has to wait with a complete
message with data in its buffer, if and only if there is no data behind an empty message. -/
theorem grpcStream_reads_iff (messages : List Bytes) (hformed : ∀ m ∈ messages, WellFormed m) :
    (∀ recv : RecvStream, arriving recv.answers = messages.flatMap message →
      .failed ∉ recv.answers → Delivers recv (messages.flatMap dataOf) ∧
      ∀ caps out s cap, (∀ c ∈ cap :: caps, 0 < c) →
        readAll caps (.fromH2 recv) = some (out, s) → (s.pollRead cap).1 = .pending →
        ¬ HoldsData (s.pollRead cap).2.recvBuf) ↔
      Orderly messages := by
  constructor
  · intro h
    by_contra horderly
    obtain ⟨n, out, s, hread, hend, hlen⟩ :=
      exists_early_end hformed horderly (s := fromH2 (atOnce (messages.flatMap message) true)) rfl
    obtain ⟨s, hread, hend⟩ := readAll_atOnce hread hend
    obtain ⟨out', s', hread', -, hall, -⟩ := (h (atOnce (messages.flatMap message) true)
      (append_nil _) (by simp [atOnce])).1 (List.replicate n maxMessageSize)
      (by simp [maxMessageSize])
    obtain ⟨rfl, rfl⟩ := Prod.mk.inj (Option.some.inj (hread'.symm.trans hread))
    rw [hall 1 one_pos hend] at hlen
    exact lt_irrefl _ hlen
  · intro horderly recv hwire hhealthy
    have hreads : Reads messages (.fromH2 recv) (messages.flatMap dataOf) :=
      ⟨hformed, horderly, hwire, rfl, hhealthy⟩
    refine ⟨hreads.delivers, fun caps out s cap hcaps hread hpending => ?_⟩
    rw [forall_mem_cons] at hcaps
    obtain ⟨out', s', bs', todo', hread', -, hs, -⟩ := hreads.readAll hcaps.2
    obtain ⟨rfl, rfl⟩ := Prod.mk.inj (Option.some.inj (hread'.symm.trans hread))
    have hanswer := pollRead_reads hcaps.1 hs
    rcases hpoll : s'.pollRead cap with ⟨answer, s₁⟩
    rw [hpoll] at hanswer hpending
    obtain rfl : answer = .pending := hpending
    exact hanswer.2.2.1

def samplePieces : RecvStream :=
  ⟨[.chunk [0, 0, 0, 0, 3, 0x0A], .pending, .chunk [1, 7, 0, 0, 0, 0, 0]], true⟩

/-- A message in two pieces, and an empty one behind it. -/
theorem grpcStream_reads_sample :
    arriving samplePieces.answers = [[0x0A, 1, 7], []].flatMap message ∧
      Delivers samplePieces [7] :=
  ⟨by decide, ((grpcStream_reads_iff [[0x0A, 1, 7], []] (by
    simp only [forall_mem_cons, WellFormed]
    exact ⟨by decide +kernel, by decide +kernel, by simp⟩)).2
      (by simp [Orderly]) samplePieces (by decide) (by decide)).1⟩

/-- A message with data behind an empty one, in one piece: the reader is told of the end, or has to
wait, with the message in its buffer. -/
theorem emptyMessage_hides_data :
    dataOf [0x0A, 1, 7] = [7] ∧ ∀ ended,
      ((fromH2 (atOnce ([[], [0x0A, 1, 7]].flatMap message) ended)).pollRead 8).1 =
          (if ended then .ready [] else .pending) ∧
        ((fromH2 (atOnce ([[], [0x0A, 1, 7]].flatMap message) ended)).pollRead 8).2.recvBuf =
          message [0x0A, 1, 7] := by
  decide +kernel

end Blackwire.Grpc
