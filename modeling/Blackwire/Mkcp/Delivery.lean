import Blackwire.Lib.Run
import Blackwire.Mkcp.Engine

/-!
# Delivery between two mKCP engines

Two engines with one conversation, and between them a network that keeps every datagram it was ever
given and may hand any of them to the other engine, at any time and any number of times: it loses,
duplicates, delays and reorders.
-/

namespace Blackwire.Mkcp

open Arq List Kcp

/-- One end of the conversation: the engine, the messages that `send` has accepted and that `recv`
has returned, the number of segments that `flush` has taken from the queue, and all the datagrams it
has sent. -/
structure Peer where
  kcp : Kcp
  accepted : List Bytes
  received : List Bytes
  sent : ℕ
  wire : List Bytes

inductive Call
  | send (buf : Bytes)
  | recv (bufLen : ℕ)
  | input (data : Bytes)
  | flush
  | update (current : UInt32)
  | setNodelay (nodelay : Bool)
  | setWndsize (snd rcv : UInt16)

variable (p : Peer)

def Peer.call : Call → Peer
  | .send buf =>
    let (code, kcp) := p.kcp.send buf
    { p with kcp := kcp, accepted := if 0 ≤ code then p.accepted ++ [buf] else p.accepted }
  | .recv bufLen =>
    match p.kcp.recv bufLen with
    | (.ok msg, kcp) => { p with kcp := kcp, received := p.received ++ [msg] }
    | (.error _, kcp) => { p with kcp := kcp }
  | .input data => { p with kcp := (p.kcp.input data).2 }
  | .flush =>
    let (out, kcp) := p.kcp.flush
    { p with
      kcp := kcp
      sent := p.sent + (p.kcp.sndQueue.length - kcp.sndQueue.length)
      wire := p.wire ++ out }
  | .update current => { p with kcp := p.kcp.update current }
  | .setNodelay nodelay => { p with kcp := p.kcp.setNodelay nodelay }
  | .setWndsize snd rcv => { p with kcp := p.kcp.setWndsize snd rcv }

structure System where
  left : Peer
  right : Peer

variable (sys : System)

inductive Side
  | left
  | right

namespace System

def new (conv : UInt32) : System :=
  ⟨⟨Kcp.new conv, [], [], 0, []⟩, ⟨Kcp.new conv, [], [], 0, []⟩⟩

def step : Side × Call → System
  | (.left, call) => { sys with left := sys.left.call call }
  | (.right, call) => { sys with right := sys.right.call call }

/-- Only what the other end has sent arrives. -/
def Allowed : Side × Call → Prop
  | (.left, .input data) => data ∈ sys.right.wire
  | (.right, .input data) => data ∈ sys.left.wire
  | _ => True

end System

/-! ### The invariant -/

namespace Peer

def outgoing : List Piece := p.accepted.flatMap pieces

def sender : Sender Piece := ⟨p.outgoing.take p.sent, p.kcp.sndBuf.map Segment.entry⟩

def receiver : Receiver Piece := p.kcp.view (p.received.flatMap pieces)

structure Truthful (p : Peer) (seg : Segment) : Prop where
  length : seg.data.length < 2 ^ 32
  honest : Kcp.Honest p.sender p.receiver seg

structure Inv (p : Peer) : Prop where
  mss : p.kcp.mss.toNat = mss₀
  sendable : ∀ msg ∈ p.accepted, Sendable msg
  sndQueue : p.kcp.sndQueue.map Segment.piece = p.outgoing.drop p.sent
  sent_le : p.sent ≤ p.outgoing.length
  sndNxt : p.kcp.sndNxt.toNat = p.sent
  kept : ∀ key ∈ p.kcp.sndBuf.map Segment.key, key.2.1 = cmdPush
  rcvNxt : p.kcp.rcvNxt.toNat = p.receiver.next
  acks : ∀ ack ∈ p.kcp.acklist, p.receiver.Knows ack.1.toNat
  wire : ∀ d ∈ p.wire, ∃ seg : Segment, d = seg.encode ∧ p.Truthful seg

end Peer

structure Pair (p q : Peer) : Prop where
  here : p.Inv
  there : q.Inv
  forth : Linked p.sender q.receiver
  back : Linked q.sender p.receiver
  forthReceived : q.received <+: p.accepted
  backReceived : p.received <+: q.accepted

variable {p p' q : Peer} {kcp : Kcp} {taken : List Segment}

theorem Pair.symm (h : Pair p q) : Pair q p :=
  ⟨h.there, h.here, h.back, h.forth, h.backReceived, h.forthReceived⟩

theorem Peer.Truthful.mono {seg : Segment} (h : p.Truthful seg)
    (hnumbers : ∀ i a, p.sender.Numbers i a → p'.sender.Numbers i a)
    (hextends : p.receiver.Extends p'.receiver) : p'.Truthful seg :=
  ⟨h.length, fun hpush => hnumbers _ _ (h.honest.push hpush),
    fun hack => hextends.knows (h.honest.ack hack), h.honest.una.trans hextends.next_le⟩

theorem Peer.Inv.wire_mono (h : p.Inv)
    (hnumbers : ∀ i a, p.sender.Numbers i a → p'.sender.Numbers i a)
    (hextends : p.receiver.Extends p'.receiver) :
    ∀ d ∈ p.wire, ∃ seg : Segment, d = seg.encode ∧ p'.Truthful seg := by
  intro d hd
  obtain ⟨seg, rfl, htruthful⟩ := h.wire d hd
  exact ⟨seg, rfl, htruthful.mono hnumbers hextends⟩

/-! ### Messages -/

theorem send_cases {k : Kcp} (hmss : k.mss.toNat = mss₀) (buf : Bytes) :
    (¬ Sendable buf ∧ ∃ code : Int, code < 0 ∧ k.send buf = (code, k)) ∨
      (Sendable buf ∧ ∃ segs : List Segment, segs.map Segment.piece = pieces buf ∧
        k.send buf = (0, { k with sndQueue := k.sndQueue ++ segs })) := by
  unfold send
  rw [hmss]
  dsimp only
  split_ifs with hempty hcount
  · exact .inl ⟨fun h => h.nonempty hempty, -1, by decide, rfl⟩
  · exact .inl ⟨fun h => hcount.not_gt h.count, -2, by decide, rfl⟩
  · refine .inr ⟨⟨hempty, not_le.1 hcount⟩, _, ?_, rfl⟩
    rw [map_map]
    exact map_id' _

theorem Pair.enqueue (h : Pair p q) {buf : Bytes} (hbuf : Sendable buf) {segs : List Segment}
    (hsegs : segs.map Segment.piece = pieces buf) :
    Pair { p with
      kcp := { p.kcp with sndQueue := p.kcp.sndQueue ++ segs }
      accepted := p.accepted ++ [buf] } q := by
  have houtgoing : (p.accepted ++ [buf]).flatMap pieces = p.outgoing ++ pieces buf := by
    rw [flatMap_append]
    exact congrArg (p.outgoing ++ ·) (append_nil _)
  have hnumbered : ((p.accepted ++ [buf]).flatMap pieces).take p.sent = p.outgoing.take p.sent := by
    rw [houtgoing, take_append_of_le_length h.here.sent_le]
  have hsender : ({ p with
      kcp := { p.kcp with sndQueue := p.kcp.sndQueue ++ segs }
      accepted := p.accepted ++ [buf] }).sender = p.sender :=
    congrArg (fun numbered => Sender.mk numbered (p.kcp.sndBuf.map Segment.entry)) hnumbered
  refine ⟨⟨h.here.mss, ?_, ?_, ?_, h.here.sndNxt, h.here.kept, h.here.rcvNxt, h.here.acks, ?_⟩,
    h.there, ?_, h.back, h.forthReceived.trans (prefix_append _ _), h.backReceived⟩
  · intro msg hmsg
    obtain hold | hnew := mem_append.1 hmsg
    · exact h.here.sendable msg hold
    · rw [mem_singleton.1 hnew]
      exact hbuf
  · show (p.kcp.sndQueue ++ segs).map Segment.piece =
      ((p.accepted ++ [buf]).flatMap pieces).drop p.sent
    rw [houtgoing, drop_append_of_le_length h.here.sent_le, map_append, h.here.sndQueue, hsegs]
  · show p.sent ≤ ((p.accepted ++ [buf]).flatMap pieces).length
    rw [houtgoing, length_append]
    exact h.here.sent_le.trans (Nat.le_add_right _ _)
  · refine h.here.wire_mono ?_ (.refl _)
    rw [hsender]
    exact fun _ _ => id
  · rw [hsender]
    exact h.forth

open Peer

theorem Pair.send (h : Pair p q) (buf : Bytes) : Pair (p.call (.send buf)) q := by
  rw [call]
  obtain ⟨-, code, hcode, hsend⟩ | ⟨hsendable, segs, hsegs, hsend⟩ := send_cases h.here.mss buf
  · rw [hsend]
    dsimp only
    rw [if_neg (by omega)]
    exact h
  · rw [hsend]
    exact h.enqueue hsendable hsegs

/-! ### What arrives -/

theorem Peer.length_numbered_le (p : Peer) : p.sender.numbered.length ≤ p.sent := by
  show (p.outgoing.take p.sent).length ≤ _
  rw [length_take]
  exact Nat.min_le_left _ _

theorem Pair.evolve (h : Pair p q)
    (hev : Kcp.Evolves q.sender q.receiver (p.received.flatMap pieces) p.kcp kcp) :
    Pair { p with kcp := kcp } q := by
  have hentry : ∀ {segs : List Segment} {e : ℕ × Piece}, e ∈ segs.map Segment.entry ↔
      ∃ key ∈ segs.map Segment.key, key.2.2 = e := by
    intro segs e
    rw [map_entry_eq, mem_map]
  have hforth : Linked ({ p with kcp := kcp }).sender q.receiver := by
    refine h.forth.release (fun e he => ?_) (fun i a hi => ?_)
    · obtain ⟨key, hkey, rfl⟩ := hentry.1 he
      exact hentry.2 ⟨key, hev.kept key hkey, rfl⟩
    · obtain ⟨key, hkey, heq⟩ := hentry.1 hi
      obtain hkept | hknows := hev.released key hkey
      · exact .inl (hentry.2 ⟨key, hkept, heq⟩)
      · rw [heq] at hknows
        exact .inr hknows
  refine ⟨⟨?_, h.here.sendable, ?_, h.here.sent_le, ?_, fun key hkey => h.here.kept key
    (hev.kept key hkey), hev.rcvNxt, hev.acks, h.here.wire_mono (fun _ _ => id) hev.extended⟩,
    h.there, hforth, hev.linked, h.forthReceived, h.backReceived⟩
  · rw [hev.mss]
    exact h.here.mss
  · rw [hev.sndQueue]
    exact h.here.sndQueue
  · rw [hev.sndNxt]
    exact h.here.sndNxt

theorem Pair.evolves_refl (h : Pair p q) :
    Kcp.Evolves q.sender q.receiver (p.received.flatMap pieces) p.kcp p.kcp :=
  .refl h.back h.here.rcvNxt h.here.acks

theorem Pair.input (h : Pair p q) (hsent : q.sent < 2 ^ 31) {data : Bytes} (hdata : data ∈ q.wire) :
    Pair (p.call (.input data)) q := by
  obtain ⟨seg, rfl, htruthful⟩ := h.there.wire data hdata
  exact h.evolve (h.evolves_refl.input (q.length_numbered_le.trans_lt hsent) htruthful.length
    htruthful.honest)

theorem recv_cases (k : Kcp) (bufLen : ℕ) :
    (k.peeksize = none ∧ k.recv bufLen = (.error (-1), k)) ∨
      (∃ n, k.peeksize = some n ∧ toI32 bufLen < n ∧ k.recv bufLen = (.error (-2), k)) ∨
      ∃ n probe, k.rcvQueue ≠ [] ∧ k.peeksize = some n ∧ n ≤ toI32 bufLen ∧
        (probe = k.probe ∨ probe = k.probe ||| 2) ∧
        k.recv bufLen = (.ok (popMessage k.rcvQueue).1,
          { moveRcvBuf { k with rcvQueue := (popMessage k.rcvQueue).2 } with
            probe := probe }) := by
  unfold recv
  by_cases hempty : k.rcvQueue = []
  · rw [if_pos hempty]
    exact .inl ⟨by rw [peeksize, hempty], rfl⟩
  rw [if_neg hempty]
  cases hpeek : k.peeksize with
  | none => exact .inl ⟨rfl, rfl⟩
  | some n =>
    dsimp only
    by_cases hlarge : (n : Int) > toI32 bufLen
    · rw [if_pos hlarge]
      exact .inr (.inl ⟨n, rfl, hlarge, rfl⟩)
    · rw [if_neg hlarge]
      refine .inr (.inr ⟨n, _, hempty, rfl, not_lt.1 hlarge, ?_, rfl⟩)
      split_ifs
      · exact .inr rfl
      · exact .inl rfl

theorem Pair.exists_message (h : Pair p q) {n : ℕ} (hne : p.kcp.rcvQueue ≠ [])
    (hpeek : p.kcp.peeksize = some n) :
    ∃ msg rest, q.accepted = p.received ++ msg :: rest ∧
      p.kcp.rcvQueue.map Segment.piece =
        pieces msg ++ (popMessage p.kcp.rcvQueue).2.map Segment.piece ∧
      (popMessage p.kcp.rcvQueue).1 = msg := by
  obtain ⟨rest, hrest⟩ := h.backReceived
  have hqueue : p.kcp.rcvQueue.map Segment.piece <+: rest.flatMap pieces := by
    have htaken : p.received.flatMap pieces ++ p.kcp.rcvQueue.map Segment.piece <+: q.outgoing :=
      h.back.taken.trans (List.take_prefix _ _)
    rw [outgoing, ← hrest, flatMap_append] at htaken
    exact (prefix_append_right_inj _).1 htaken
  cases rest with
  | nil => exact absurd (map_eq_nil_iff.1 (prefix_nil.1 hqueue)) hne
  | cons msg rest =>
    have hmsg : Sendable msg := h.there.sendable msg (by rw [← hrest]; simp)
    obtain ⟨more, hmore⟩ := pieces_prefix_of_peeksize hmsg hpeek hqueue
    rw [popMessage_pieces hmsg hmore.symm]
    refine ⟨msg, rest, hrest.symm, ?_, rfl⟩
    rw [map_drop, ← hmore, drop_left]

theorem Pair.recv (h : Pair p q) (hsent : q.sent < 2 ^ 31) (bufLen : ℕ) :
    Pair (p.call (.recv bufLen)) q := by
  rw [call]
  obtain ⟨-, hrecv⟩ | ⟨-, -, -, hrecv⟩ | ⟨n, probe, hne, hpeek, -, -, hrecv⟩ :=
    recv_cases p.kcp bufLen
  · rw [hrecv]
    exact h
  · rw [hrecv]
    exact h
  obtain ⟨msg, rest, haccepted, hqueue, hmsg⟩ := h.exists_message hne hpeek
  rw [hrecv]
  rw [hmsg]
  -- the message is taken from the queue: the pieces received are the same as before
  have hview : ({ p.kcp with rcvQueue := (popMessage p.kcp.rcvQueue).2 }).view
      ((p.received ++ [msg]).flatMap pieces) = p.receiver := by
    simp [view, receiver, hqueue]
  have hpop : Pair { p with
      kcp := { p.kcp with rcvQueue := (popMessage p.kcp.rcvQueue).2 }
      received := p.received ++ [msg] } q := by
    refine ⟨⟨h.here.mss, h.here.sendable, h.here.sndQueue, h.here.sent_le, h.here.sndNxt,
      h.here.kept, ?_, ?_, h.here.wire_mono (fun _ _ => id) ?_⟩, h.there, h.forth, ?_,
      h.forthReceived, ?_⟩
    · rw [receiver, hview]
      exact h.here.rcvNxt
    · rw [receiver, hview]
      exact h.here.acks
    · show p.receiver.Extends (view _ _)
      rw [hview]
      exact .refl _
    · rw [receiver, hview]
      exact h.back
    · rw [haccepted]
      exact ⟨rest, by rw [append_assoc]; rfl⟩
  exact hpop.evolve ((hpop.evolves_refl.moveRcvBuf (q.length_numbered_le.trans_lt hsent)).congr rfl)

/-! ### What is sent -/

theorem length_le_of_mem_outgoing {piece : Piece} (h : piece ∈ p.outgoing) :
    piece.2.length ≤ mss₀ := by
  obtain ⟨msg, -, hpiece⟩ := mem_flatMap.1 h
  exact length_le_of_mem_fragmentLoop hpiece

section

variable (h : Pair p q)
include h

theorem Pair.sender_fill {queue : List Segment} (wire : List Bytes)
    (hqueue : p.kcp.sndQueue = taken ++ queue)
    (hbuf : kcp.sndBuf.map Segment.entry = p.kcp.sndBuf.map Segment.entry ++
      numberFrom p.sent (taken.map Segment.piece)) :
    ({ p with kcp := kcp, sent := p.sent + taken.length, wire := wire } : Peer).sender =
      p.sender.number (taken.map Segment.piece) ∧
    queue.map Segment.piece = p.outgoing.drop (p.sent + taken.length) ∧
    p.sent + taken.length ≤ p.outgoing.length := by
  have hdrop : p.outgoing.drop p.sent = taken.map Segment.piece ++ queue.map Segment.piece := by
    rw [← h.here.sndQueue, hqueue, map_append]
  have hlen : taken.length = (taken.map Segment.piece).length := (length_map _).symm
  refine ⟨?_, ?_, ?_⟩
  · show Sender.mk (p.outgoing.take (p.sent + taken.length)) (kcp.sndBuf.map Segment.entry) =
      ⟨p.outgoing.take p.sent ++ taken.map Segment.piece, p.kcp.sndBuf.map Segment.entry ++
        numberFrom (p.outgoing.take p.sent).length (taken.map Segment.piece)⟩
    rw [hbuf, take_add, hdrop, take_left' hlen.symm, length_take, Nat.min_eq_left h.here.sent_le]
  · rw [← drop_drop, hdrop, drop_left' hlen.symm]
  · have htotal := congrArg List.length hdrop
    rw [length_drop, length_append] at htotal
    have hle := h.here.sent_le
    omega

theorem Pair.truthful_of_flushes {out : List Bytes} (hflushes : Kcp.Flushes p.kcp taken out kcp)
    (hsender : p'.sender = p.sender.number (taken.map Segment.piece))
    (hkept : p'.sender.kept = kcp.sndBuf.map Segment.entry) (hreceiver : p'.receiver = p.receiver)
    {d : Bytes} (hd : d ∈ out) : ∃ seg : Segment, d = seg.encode ∧ p'.Truthful seg := by
  obtain ⟨seg, rfl, huna, hsends⟩ := hflushes.out d hd
  have hnext : seg.una.toNat ≤ p'.receiver.next := by rw [huna, h.here.rcvNxt, hreceiver]
  refine ⟨seg, rfl, ?_⟩
  cases hsends with
  | ack ts hconv hcmd hdata hmem =>
    refine ⟨by rw [hdata]; decide, fun hpush => ?_, fun _ => ?_, hnext⟩
    · rw [hcmd] at hpush
      exact absurd hpush (by decide)
    · rw [hreceiver]
      exact h.here.acks _ hmem
  | probe hconv hack hpush hdata =>
    exact ⟨by rw [hdata]; decide, fun hcmd => absurd hcmd hpush, fun hcmd => absurd hcmd hack,
      hnext⟩
  | push hmem =>
    have hcmd : seg.cmd = cmdPush := by
      obtain hold | hnew := hflushes.kept _ hmem
      · exact h.here.kept _ hold
      · exact hnew
    have hnumbers : p'.sender.Numbers seg.sn.toNat seg.piece := by
      rw [hsender]
      refine (h.forth.number (taken.map Segment.piece)).kept _ _ ?_
      rw [← hsender, hkept, map_entry_eq]
      exact mem_map_of_mem hmem
    -- pieces are short, so the length field of the segment does not wrap
    have hlength : seg.data.length ≤ mss₀ := by
      have hpiece : seg.piece ∈ p'.outgoing := mem_of_mem_take (mem_of_getElem? hnumbers)
      exact length_le_of_mem_outgoing hpiece
    refine ⟨hlength.trans_lt (by decide), fun _ => hnumbers, fun hack => ?_, hnext⟩
    rw [hcmd] at hack
    exact absurd hack (by decide)

theorem Pair.flushes {out : List Bytes}
    (hflushes : Kcp.Flushes p.kcp taken out kcp) (hsent : p.sent + taken.length < 2 ^ 31) :
    Pair { p with kcp := kcp, sent := p.sent + taken.length, wire := p.wire ++ out } q := by
  obtain ⟨hentries, hsndNxt⟩ := hflushes.numbered (by rw [h.here.sndNxt]; omega)
  rw [h.here.sndNxt] at hentries hsndNxt
  obtain ⟨hsender, hqueue, hle⟩ := h.sender_fill (p.wire ++ out) hflushes.sndQueue hentries
  have hreceiver : ({ p with
      kcp := kcp, sent := p.sent + taken.length, wire := p.wire ++ out }).receiver =
        p.receiver := hflushes.view _
  refine ⟨⟨?_, h.here.sendable, hqueue, hle, hsndNxt, fun key hkey => ?_, ?_, ?_, fun d hd => ?_⟩,
    h.there, ?_, ?_, h.forthReceived, h.backReceived⟩
  · rw [hflushes.mss]
    exact h.here.mss
  · exact (hflushes.kept key hkey).elim (h.here.kept key) id
  · rw [hreceiver, hflushes.rcvNxt]
    exact h.here.rcvNxt
  · rw [hflushes.acklist]
    exact fun ack hack => absurd hack not_mem_nil
  · obtain hold | hnew := mem_append.1 hd
    · refine h.here.wire_mono (fun i a hi => ?_) ?_ d hold
      · rw [hsender]
        exact numbers_mono (prefix_append _ _) hi
      · rw [hreceiver]
        exact .refl _
    · exact h.truthful_of_flushes hflushes hsender rfl hreceiver hnew
  · rw [hsender]
    exact h.forth.number _
  · rw [hreceiver]
    exact h.back

theorem Pair.flush (hsent : (p.call .flush).sent < 2 ^ 31) : Pair (p.call .flush) q := by
  rw [call] at hsent ⊢
  cases hupdated : p.kcp.updated with
  | false =>
    have hflush : p.kcp.flush = ([], p.kcp) := if_pos hupdated
    rw [hflush]
    dsimp only
    rw [Nat.sub_self, append_nil]
    exact h
  | true =>
    obtain ⟨taken, hflushes⟩ := flush_spec hupdated
    rcases hflush : p.kcp.flush with ⟨out, kcp⟩
    rw [hflush] at hflushes hsent
    dsimp only at hflushes hsent ⊢
    have hcount : p.kcp.sndQueue.length - kcp.sndQueue.length = taken.length := by
      rw [hflushes.sndQueue, length_append, Nat.add_sub_cancel]
    rw [hcount] at hsent ⊢
    exact h.flushes hflushes hsent

/-! ### Runs -/

theorem Pair.call {call : Call} (hinput : ∀ data, call = .input data → data ∈ q.wire)
    (hp : (p.call call).sent < 2 ^ 31) (hq : q.sent < 2 ^ 31) : Pair (p.call call) q := by
  cases call with
  | send buf => exact h.send buf
  | recv bufLen => exact h.recv hq bufLen
  | input data => exact h.input hq (hinput data rfl)
  | flush => exact h.flush hp
  | update | setNodelay | setWndsize => exact h.evolve (h.evolves_refl.congr rfl)

end

theorem Peer.sent_le_call (p : Peer) (call : Call) : p.sent ≤ (p.call call).sent := by
  cases call with
  | recv bufLen =>
    rw [call]
    rcases p.kcp.recv bufLen with ⟨e | msg, kcp⟩ <;> exact Nat.le_refl _
  | flush => exact Nat.le_add_right _ _
  | _ => exact Nat.le_refl _

/-- The sequence numbers do not wrap. -/
def System.Bounded : Prop := sys.left.sent < 2 ^ 31 ∧ sys.right.sent < 2 ^ 31

theorem pair_new (conv : UInt32) : Pair (System.new conv).left (System.new conv).right := by
  have hinv : (⟨Kcp.new conv, [], [], 0, []⟩ : Peer).Inv :=
    ⟨rfl, by simp, rfl, Nat.le_refl _, rfl, by simp [Kcp.new], rfl, by simp [Kcp.new], by simp⟩
  have hlinked : Linked (⟨Kcp.new conv, [], [], 0, []⟩ : Peer).sender
      (⟨Kcp.new conv, [], [], 0, []⟩ : Peer).receiver :=
    ⟨prefix_rfl, fun _ _ h => (by cases h), fun _ _ h => (by cases h),
      fun _ _ h => (by cases h)⟩
  exact ⟨hinv, hinv, hlinked, hlinked, prefix_rfl, prefix_rfl⟩

theorem pair_step {sys : System} {event : Side × Call}
    (h : sys.Bounded → Pair sys.left sys.right) (hallowed : sys.Allowed event)
    (hbounded : (sys.step event).Bounded) : Pair (sys.step event).left (sys.step event).right := by
  obtain ⟨side, call⟩ := event
  cases side with
  | left =>
    refine (h ⟨(sys.left.sent_le_call call).trans_lt hbounded.1, hbounded.2⟩).call ?_ hbounded.1
      hbounded.2
    rintro data rfl
    exact hallowed
  | right =>
    refine ((h ⟨hbounded.1, (sys.right.sent_le_call call).trans_lt hbounded.2⟩).symm.call ?_
      hbounded.2 hbounded.1).symm
    rintro data rfl
    exact hallowed

open System

theorem pair_run {conv : UInt32} {events : List (Side × Call)}
    (hallowed : Run.Meets Allowed step (new conv) events)
    (hbounded : (events.foldl step (new conv)).Bounded) :
    Pair (events.foldl step (new conv)).left
      (events.foldl step (new conv)).right :=
  Run.invariant_of_meets (P := fun sys => sys.Bounded → Pair sys.left sys.right)
    (fun _ _ h hok hbound => pair_step h hok hbound) (fun _ => pair_new conv) hallowed hbounded

theorem Peer.accepted_call (p : Peer) (call : Call) : p.accepted <+: (p.call call).accepted := by
  cases call with
  | send buf =>
    show p.accepted <+: if _ then p.accepted ++ [buf] else p.accepted
    split_ifs
    · exact prefix_append _ _
    · exact prefix_rfl
  | recv bufLen =>
    rw [call]
    rcases p.kcp.recv bufLen with ⟨e | msg, kcp⟩ <;> exact prefix_rfl
  | _ => exact prefix_rfl

theorem Peer.Inv.numbers_call (h : p.Inv) (call : Call) {i : ℕ} {piece : Piece}
    (hi : p.sender.Numbers i piece) : (p.call call).sender.Numbers i piece := by
  refine numbers_mono ?_ hi
  obtain ⟨more, hmore⟩ := p.accepted_call call
  have houtgoing : (p.call call).outgoing = p.outgoing ++ more.flatMap pieces := by
    rw [outgoing, ← hmore, flatMap_append]
    rfl
  show p.outgoing.take p.sent <+: (p.call call).outgoing.take (p.call call).sent
  have hnumbered : p.outgoing.take p.sent = (p.call call).outgoing.take p.sent := by
    rw [houtgoing, take_append_of_le_length h.sent_le]
  rw [hnumbered]
  exact take_prefix_take_left (p.sent_le_call call)

theorem Pair.released (h : Pair p q) {call : Call} (h' : Pair (p.call call) q) {seg : Segment}
    (hseg : seg ∈ p.kcp.sndBuf) :
    seg.entry ∈ (p.call call).kcp.sndBuf.map Segment.entry ∨
      q.receiver.Holds seg.sn.toNat seg.piece :=
  h'.forth.held _ _ (h.here.numbers_call call (h.forth.kept _ _ (mem_map_of_mem hseg)))

/-- **Delivery.**  In every run of calls at the two ends of a conversation in which fewer than
`2 ^ 31` segments are sent at each end, the messages that one end has returned are the first ones
that the other end has accepted; and whatever happens next, a segment that leaves the buffer of its
sender is one that the receiver has. -/
theorem mkcp_delivers (conv : UInt32) (events : List (Side × Call))
    (hallowed : Run.Meets Allowed step (new conv) events)
    (hbounded : (events.foldl step (new conv)).Bounded) :
    let sys := events.foldl step (new conv)
    sys.right.received <+: sys.left.accepted ∧ sys.left.received <+: sys.right.accepted ∧
      ∀ event, sys.Allowed event → (sys.step event).Bounded →
        (∀ seg ∈ sys.left.kcp.sndBuf,
          seg.entry ∈ (sys.step event).left.kcp.sndBuf.map Segment.entry ∨
            sys.right.receiver.Holds seg.sn.toNat seg.piece) ∧
        ∀ seg ∈ sys.right.kcp.sndBuf,
          seg.entry ∈ (sys.step event).right.kcp.sndBuf.map Segment.entry ∨
            sys.left.receiver.Holds seg.sn.toNat seg.piece := by
  intro sys
  have hpair : Pair sys.left sys.right := pair_run hallowed hbounded
  refine ⟨hpair.forthReceived, hpair.backReceived, fun event hevent hbound => ?_⟩
  have hstep := pair_step (fun _ => hpair) hevent hbound
  obtain ⟨side, call⟩ := event
  cases side with
  | left => exact ⟨fun seg hseg => hpair.released hstep hseg,
      fun seg hseg => .inl (mem_map_of_mem hseg)⟩
  | right => exact ⟨fun seg hseg => .inl (mem_map_of_mem hseg),
      fun seg hseg => hpair.symm.released hstep.symm hseg⟩

def sampleDatagram : Bytes :=
  [7, 0, 0, 0, 81, 0, 128, 0, 0, 0, 0, 0, 0, 0, 0, 0, 0, 0, 0, 0, 3, 0, 0, 0, 1, 2, 3]

def sampleAck : Bytes :=
  [7, 0, 0, 0, 82, 0, 128, 0, 0, 0, 0, 0, 0, 0, 0, 0, 1, 0, 0, 0, 0, 0, 0, 0]

def sampleEvents : List (Side × Call) :=
  [(.left, .send [1, 2, 3]), (.left, .update 0), (.left, .flush), (.left, .flush),
    (.right, .input sampleDatagram), (.right, .input sampleDatagram), (.right, .recv 10),
    (.right, .update 0), (.right, .flush), (.left, .input sampleAck)]

theorem sampleEvents_delivered :
    (sampleEvents.foldl step (new 7)).right.received = [[1, 2, 3]] ∧
    (sampleEvents.foldl step (new 7)).left.kcp.sndBuf = [] ∧
    (sampleEvents.foldl step (new 7)).right.received <+:
      (sampleEvents.foldl step (new 7)).left.accepted := by
  refine ⟨by decide +kernel, by decide +kernel, (mkcp_delivers 7 sampleEvents ?_ ?_).1⟩
  · refine ⟨trivial, trivial, trivial, trivial, ?_, ?_, trivial, trivial, trivial, ?_, trivial⟩
    · show sampleDatagram ∈ _
      decide +kernel
    · show sampleDatagram ∈ _
      decide +kernel
    · show sampleAck ∈ _
      decide +kernel
  · constructor <;> decide +kernel

end Blackwire.Mkcp
