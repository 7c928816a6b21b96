import Blackwire.Common.Context
import Blackwire.Hysteria2.Server

/-!
# Replies on a Hysteria2 connection

The workers of `serve_udp_sessions` in `hysteria2/http3.rs`, with the addresses they send to.  The
datagrams of a session go out through one socket, and what arrives on it goes to whichever worker of
the session asks first; the address in the answer of `recv_from` is not looked at.
-/

namespace Blackwire.Hysteria2.Replies

open List

/-! ### The relay -/

/-- Where a worker is: in `send_to`, in `recv_from`, or at its end, which may be a reply with what
was received from `peer`. -/
inductive Stage
  | sending
  | receiving
  | replied (peer : SocketAddr) (reply : UdpDatagram)
  | ended
  deriving DecidableEq

/-- A task of `serve_udp_sessions`: its socket, the packet, and the address it is sent to. -/
structure Worker where
  socket : ℕ
  datagram : UdpDatagram
  destAddr : SocketAddr
  stage : Stage
  deriving DecidableEq

/-- The sockets of the sessions, what has arrived on each socket, and the workers. -/
structure Relay where
  sessions : List (UInt32 × ℕ)
  sockets : List (List (SocketAddr × Bytes))
  workers : List Worker

/-- A datagram of the client, with the answers of `lookup_host` and `bind`; what a worker's
`send_to` answers; a datagram that arrives on a socket; a worker that takes one, and one that times
out. -/
inductive Input
  | datagram (raw : Bytes) (lookup : List SocketAddr) (bound : Bool)
  | sent (worker : ℕ) (ok : Bool)
  | arrives (socket : ℕ) (peer : SocketAddr) (payload : Bytes)
  | receives (worker : ℕ) (ok : Bool)
  | givesUp (worker : ℕ)

/-- The address of a destination, with the answer of `lookup_host`. -/
def resolve (lookup : List SocketAddr) : Destination → Option SocketAddr
  | .v4 ip port => some (.v4 ip port)
  | .v6 ip port => some (.v6 ip port)
  | .domain _ _ => lookup.head?

namespace Relay

def start : Relay := ⟨[], [], []⟩

variable (s : Relay)

/-- The permits of `worker_limiter` that are taken. -/
def live : ℕ :=
  (s.workers.filter fun w => w.stage = .sending ∨ w.stage = .receiving).length

/-- The socket of a session, which is bound for its first packet. -/
def socketFor (sessionId : UInt32) (bound : Bool) : Option (ℕ × Relay) :=
  match s.sessions.lookup sessionId with
  | some socket => some (socket, s)
  | none =>
    if bound then
      some (s.sockets.length, { s with
        sessions := (sessionId, s.sockets.length) :: s.sessions
        sockets := s.sockets ++ [[]] })
    else none

/-- A decoded datagram: a worker is spawned for it if there is a permit. -/
def serve (dg : UdpDatagram) (lookup : List SocketAddr) (bound : Bool) : Relay :=
  match resolve lookup dg.dest with
  | none => s
  | some destAddr =>
    match s.socketFor dg.sessionId bound with
    | none => s
    | some (socket, s) =>
      if s.live < maxUdpWorkersPerConn then
        { s with workers := s.workers ++ [⟨socket, dg, destAddr, .sending⟩] }
      else s

def move (k : ℕ) (w : Worker) (stage : Stage) : Relay :=
  { s with workers := s.workers.set k { w with stage } }

/-- `recv_from` gives a worker what arrived first.  `ok` says that `send_datagram` succeeds. -/
def receive (k : ℕ) (w : Worker) (ok : Bool) : Relay :=
  match s.sockets[w.socket]? with
  | some ((peer, payload) :: queue) =>
    { s with sockets := s.sockets.set w.socket queue }.move k w <|
      if ok then .replied peer { w.datagram with fragId := 0, fragNum := 1, data := payload }
      else .ended
  | _ => s

def withWorker (k : ℕ) (stage : Stage) (f : Worker → Relay) : Relay :=
  (s.workers[k]?).elim s fun w => if w.stage = stage then f w else s

def step : Input → Relay
  | .datagram raw lookup bound =>
    match decodeUdpDatagram raw with
    | .error _ => s
    | .ok dg => s.serve dg lookup bound
  | .sent k ok => s.withWorker k .sending fun w => s.move k w (if ok then .receiving else .ended)
  | .arrives socket peer payload =>
    { s with sockets := s.sockets.modify socket (· ++ [(peer, payload)]) }
  | .receives k ok => s.withWorker k .receiving fun w => s.receive k w ok
  | .givesUp k => s.withWorker k .receiving fun w => s.move k w .ended

end Relay

/-! ### The relay of the connection

`Conn` has the same relay without addresses and sockets: a worker there may receive any payload. -/

/-- A worker as the model of the connection has it. -/
def Worker.view (w : Worker) : UdpWorker :=
  match w.stage with
  | .sending => .sending w.datagram
  | .receiving => .receiving w.datagram
  | _ => .done

namespace Relay

/-- The relay as the model of the connection has it. -/
def view (s : Relay) : UdpRelay := ⟨true, s.sessions.map Prod.fst, s.workers.map Worker.view⟩

variable {s : Relay} {k : ℕ} {w : Worker}

theorem live_view (s : Relay) : (s.view.workers.filter (· ≠ .done)).length = s.live := by
  have hview (w : Worker) : w.view ≠ .done ↔ w.stage = .sending ∨ w.stage = .receiving := by
    cases hstage : w.stage <;> simp [Worker.view, hstage]
  simp only [view, live, filter_map, length_map, Function.comp_def, hview]

theorem view_start (s : Relay) (socket : ℕ) (dg : UdpDatagram) (destAddr : SocketAddr) :
    (if (s.view.workers.filter (· ≠ .done)).length < maxUdpWorkersPerConn then
        { s.view with workers := s.view.workers ++ [.sending dg] }
      else s.view) =
    view (if s.live < maxUdpWorkersPerConn then
        { s with workers := s.workers ++ [⟨socket, dg, destAddr, .sending⟩] }
      else s) := by
  rw [live_view]
  split_ifs
  · simp [view, Worker.view]
  · rfl

theorem view_serve (s : Relay) (dg : UdpDatagram) (lookup : List SocketAddr) (bound : Bool) :
    relayDatagram s.view dg lookup.head?.isSome bound = (s.serve dg lookup bound).view := by
  have hknown : s.view.sessions.contains dg.sessionId =
      (s.sessions.lookup dg.sessionId).isSome := by
    unfold view
    induction s.sessions with
    | nil => rfl
    | cons p sessions ih =>
      rw [map_cons, contains_cons, ih, lookup_cons]
      cases dg.sessionId == p.1 <;> rfl
  have hopened (destAddr : SocketAddr) (hdest : resolve lookup dg.dest = some destAddr) :
      relayDatagram s.view dg true bound = (s.serve dg lookup bound).view := by
    simp only [relayDatagram, serve, hdest, socketFor, hknown, Bool.not_true, Bool.and_false,
      Bool.false_eq_true, if_false]
    cases s.sessions.lookup dg.sessionId with
    | some socket => exact s.view_start socket dg destAddr
    | none =>
      cases bound with
      | false => rfl
      | true =>
        exact view_start { s with
          sessions := (dg.sessionId, s.sockets.length) :: s.sessions
          sockets := s.sockets ++ [[]] } s.sockets.length dg destAddr
  cases hdest : dg.dest with
  | domain name port =>
    cases lookup with
    | nil => simp [relayDatagram, serve, resolve, hdest]
    | cons destAddr lookup => exact hopened destAddr (by rw [hdest]; rfl)
  | _ =>
    rw [← hopened _ (by rw [hdest]; rfl)]
    simp only [relayDatagram, hdest, Bool.false_and]

theorem view_move (s : Relay) (k : ℕ) (w : Worker) (stage : Stage) :
    (s.move k w stage).view = s.view.setWorker k (Worker.view { w with stage }) := by
  simp [view, move, UdpRelay.setWorker, map_set]

/-- A step of the relay is a step of the connection's, or none. -/
theorem view_step (config : Hysteria2ServerConfig) {conn : Conn} (hconn : conn.udp = s.view)
    (i : Input) :
    ∃ inputs : List Hysteria2.Input,
      (inputs.foldl (Hysteria2.step config) conn).udp = (s.step i).view := by
  have hwith {k : ℕ} {stage : Stage} {f : Worker → Relay}
      (hf : ∀ w, s.view.workers[k]? = some w.view → w.stage = stage →
        ∃ inputs : List Hysteria2.Input,
          (inputs.foldl (Hysteria2.step config) conn).udp = (f w).view) :
      ∃ inputs : List Hysteria2.Input,
        (inputs.foldl (Hysteria2.step config) conn).udp = (s.withWorker k stage f).view := by
    unfold withWorker
    cases hw : s.workers[k]? with
    | none => exact ⟨[], hconn⟩
    | some w =>
      rw [Option.elim_some]
      split_ifs with hstage
      · exact hf w (by simp [view, hw]) hstage
      · exact ⟨[], hconn⟩
  cases i with
  | datagram raw lookup bound =>
    refine ⟨[.readDatagram (some raw) lookup.head?.isSome bound], ?_⟩
    have hrunning : conn.udp.running = true := by rw [hconn]; rfl
    simp only [foldl_cons, foldl_nil, Hysteria2.step, onReadDatagram, hrunning, if_true, Relay.step]
    cases decodeUdpDatagram raw with
    | error => exact hconn
    | ok dg =>
      rw [← s.view_serve, ← hconn]
  | arrives socket peer payload => exact ⟨[], hconn⟩
  | sent k ok =>
    refine hwith fun w hw hstage => ⟨[.udpSent k ok], ?_⟩
    simp only [Worker.view, hstage] at hw
    cases ok <;> simp [Hysteria2.step, onUdpSent, hw, view_move, hconn, Worker.view]
  | givesUp k =>
    refine hwith fun w hw hstage => ⟨[.udpReceived k none], ?_⟩
    simp only [Worker.view, hstage] at hw
    simp [Hysteria2.step, onUdpReceived, hw, view_move, hconn, Worker.view]
  | receives k ok =>
    refine hwith fun w hw hstage => ?_
    simp only [Worker.view, hstage] at hw
    unfold receive
    split
    · rename_i peer payload queue hqueue
      refine ⟨[.udpReceived k (if ok then some payload else none)], ?_⟩
      cases ok <;> simp [Hysteria2.step, onUdpReceived, hw, view_move, hconn, Worker.view] <;> rfl
    · exact ⟨[], hconn⟩

/-- **The two models of the relay.**  Every run of the relay is one of the connection's relay. -/
theorem view_run (config : Hysteria2ServerConfig) (inputs : List Input) {s : Relay} {conn : Conn}
    (hconn : conn.udp = s.view) :
    ∃ inputs' : List Hysteria2.Input,
      (inputs'.foldl (Hysteria2.step config) conn).udp = (inputs.foldl step s).view := by
  induction inputs generalizing s conn with
  | nil => exact ⟨[], hconn⟩
  | cons i inputs ih =>
    obtain ⟨before, hbefore⟩ := view_step config hconn i
    obtain ⟨after, hafter⟩ := ih hbefore
    exact ⟨before ++ after, by rw [foldl_append, hafter, foldl_cons]⟩

end Relay

/-! ### Labels -/

/-- A reply names the packet of its worker, and carries what came from where that was sent. -/
def Worker.Labelled (w : Worker) : Prop :=
  ∀ peer reply, w.stage = .replied peer reply →
    reply.sessionId = w.datagram.sessionId ∧ reply.packetId = w.datagram.packetId ∧
      reply.dest = w.datagram.dest ∧ peer = w.destAddr

namespace Relay

/-- The labels of all replies are right. -/
def Labelled (s : Relay) : Prop := ∀ w ∈ s.workers, w.Labelled

/-- What arrives comes from the address to which each worker that waits on the socket has sent; and
a worker that begins to wait finds only datagrams from its own address. -/
def Expected (s : Relay) : Input → Prop
  | .arrives socket peer _ =>
    ∀ w ∈ s.workers, w.stage = .receiving → w.socket = socket → peer = w.destAddr
  | .sent k true => ∀ w ∈ s.workers[k]?, w.stage = .sending →
    ∀ queue ∈ s.sockets[w.socket]?, ∀ p ∈ queue, p.1 = w.destAddr
  | _ => True

instance Expected.decidable (s : Relay) : DecidablePred s.Expected
  | .arrives socket peer _ => inferInstanceAs (Decidable (∀ w ∈ s.workers,
      w.stage = .receiving → w.socket = socket → peer = w.destAddr))
  | .sent k true => inferInstanceAs (Decidable (∀ w ∈ s.workers[k]?, w.stage = .sending →
      ∀ queue ∈ s.sockets[w.socket]?, ∀ p ∈ queue, p.1 = w.destAddr))
  | .sent _ false | .datagram _ _ _ | .receives _ _ | .givesUp _ => isTrue trivial

/-- The labels are right, and so are the datagrams for the workers that wait. -/
structure Sound (s : Relay) : Prop where
  labelled : s.Labelled
  waiting : ∀ w ∈ s.workers, w.stage = .receiving →
    ∀ queue ∈ s.sockets[w.socket]?, ∀ p ∈ queue, p.1 = w.destAddr

variable {s : Relay} {k : ℕ} {w : Worker}

theorem Sound.move (h : s.Sound) {stage : Stage} (hlabel : Worker.Labelled { w with stage })
    (hwait : stage = .receiving → ∀ queue ∈ s.sockets[w.socket]?, ∀ p ∈ queue, p.1 = w.destAddr) :
    (s.move k w stage).Sound := by
  constructor <;> intro v hv <;> rcases mem_or_eq_of_mem_set hv with hmem | rfl
  · exact h.labelled v hmem
  · exact hlabel
  · exact h.waiting v hmem
  · exact hwait

theorem Sound.withWorker (h : s.Sound) {stage : Stage} {f : Worker → Relay}
    (hwith : ∀ w, s.workers[k]? = some w → w.stage = stage → (f w).Sound) :
    (s.withWorker k stage f).Sound := by
  unfold Relay.withWorker
  cases hw : s.workers[k]? with
  | none => exact h
  | some w =>
    rw [Option.elim_some]
    split_ifs with hstage
    · exact hwith w hw hstage
    · exact h

/-- What a datagram of the client does: it may open a socket and start a worker. -/
theorem serve_cases (s : Relay) (dg : UdpDatagram) (lookup : List SocketAddr) (bound : Bool) :
    ((s.serve dg lookup bound).sockets = s.sockets ∨
        (s.serve dg lookup bound).sockets = s.sockets ++ [[]]) ∧
      ((s.serve dg lookup bound).workers = s.workers ∨ ∃ socket destAddr,
        (s.serve dg lookup bound).workers = s.workers ++ [⟨socket, dg, destAddr, .sending⟩]) := by
  have hsocket : ∀ p ∈ s.socketFor dg.sessionId bound, p.2.workers = s.workers ∧
      (p.2.sockets = s.sockets ∨ p.2.sockets = s.sockets ++ [[]]) := by
    unfold socketFor
    split
    · simp
    · split_ifs <;> simp
  unfold serve
  split
  · exact ⟨.inl rfl, .inl rfl⟩
  · split
    · exact ⟨.inl rfl, .inl rfl⟩
    · rename_i socket t ht
      obtain ⟨hworkers, hsockets⟩ := hsocket _ ht
      split_ifs
      · exact ⟨hsockets, .inr ⟨_, _, by rw [hworkers]⟩⟩
      · exact ⟨hsockets, .inl hworkers⟩

theorem Sound.serve (h : s.Sound) (dg : UdpDatagram) (lookup : List SocketAddr) (bound : Bool) :
    (s.serve dg lookup bound).Sound := by
  obtain ⟨hsockets, hworkers⟩ := s.serve_cases dg lookup bound
  have hqueue (i : ℕ) (queue) (hqueue : queue ∈ (s.serve dg lookup bound).sockets[i]?) :
      queue ∈ s.sockets[i]? ∨ queue = [] := by
    rcases hsockets with heq | heq <;> rw [heq] at hqueue
    · exact .inl hqueue
    · rcases lt_or_ge i s.sockets.length with hlt | hge
      · exact .inl (getElem?_append_left hlt ▸ hqueue)
      · rw [getElem?_append_right hge] at hqueue
        exact .inr (mem_singleton.1 (mem_of_getElem? hqueue))
  have hmem (w : Worker) (hw : w ∈ (s.serve dg lookup bound).workers) :
      w ∈ s.workers ∨ w.stage = .sending := by
    rcases hworkers with heq | ⟨_, _, heq⟩ <;> rw [heq] at hw
    · exact .inl hw
    · exact (mem_append.1 hw).imp_right fun hw => by rw [mem_singleton.1 hw]
  constructor
  · intro w hw peer reply hstage
    rcases hmem w hw with hold | hnew
    · exact h.labelled w hold peer reply hstage
    · cases hnew.symm.trans hstage
  · intro w hw hstage queue hq
    rcases hmem w hw with hold | hnew
    · rcases hqueue _ _ hq with hq | rfl
      · exact h.waiting w hold hstage queue hq
      · simp
    · cases hnew.symm.trans hstage

theorem Sound.step (h : s.Sound) {i : Input} (hi : s.Expected i) : (s.step i).Sound := by
  cases i with
  | datagram raw lookup bound =>
    rw [Relay.step]
    split
    · exact h
    · exact h.serve _ _ _
  | arrives socket peer payload =>
    refine ⟨h.labelled, fun w hw hstage queue hqueue p hp => ?_⟩
    have hold := h.waiting w hw hstage
    rw [Relay.step, Option.mem_def, getElem?_modify, Option.map_eq_map,
      Option.map_eq_some_iff] at hqueue
    obtain ⟨old, hsocket, rfl⟩ := hqueue
    split_ifs at hp with hsame
    · rcases mem_append.1 hp with hp | hp
      · exact hold old hsocket p hp
      · rw [mem_singleton.1 hp]
        exact hi w hw hstage hsame.symm
    · exact hold old hsocket p hp
  | sent k ok =>
    refine h.withWorker fun w hw hstage => h.move ?_ ?_
    · cases ok <;> exact nofun
    · cases ok with
      | false => exact nofun
      | true => exact fun _ => hi w hw hstage
  | givesUp k => exact h.withWorker fun w hw hstage => h.move nofun nofun
  | receives k ok =>
    refine h.withWorker fun w hw hstage => ?_
    unfold receive
    split
    · rename_i peer payload queue hsocket
      have hfirst : peer = w.destAddr :=
        h.waiting w (mem_of_getElem? hw) hstage _ hsocket (peer, payload) mem_cons_self
      have hrest : Sound { s with sockets := s.sockets.set w.socket queue } := by
        refine ⟨h.labelled, fun v hv hwaits queue' hqueue p hp => ?_⟩
        rw [Option.mem_def, getElem?_set] at hqueue
        split_ifs at hqueue with hsame hlt
        · cases hqueue
          exact h.waiting v hv hwaits _ (hsame ▸ hsocket) p (mem_cons_of_mem _ hp)
        · exact h.waiting v hv hwaits queue' hqueue p hp
      refine hrest.move ?_ ?_
      · cases ok with
        | false => exact nofun
        | true =>
          rintro _ _ ⟨⟩
          exact ⟨rfl, rfl, rfl, hfirst⟩
      · cases ok <;> exact nofun
    · exact h

end Relay

/-- **Replies.**  For every run of the relay, with any datagrams of the client and any order of the
workers: if what arrives on a socket comes from the address to which each worker waiting there has
sent, and a worker that begins to wait finds only datagrams from its own, then each reply carries
what was received from the address to which its packet was sent. -/
theorem replies_labelled (inputs : List Input)
    (h : Run.Meets Relay.Expected Relay.step .start inputs) :
    (inputs.foldl Relay.step .start).Labelled :=
  (Run.invariant_of_meets (P := Relay.Sound) (fun _ _ hs hi => hs.step hi)
    ⟨fun _ hw => absurd hw not_mem_nil, fun _ hw => absurd hw not_mem_nil⟩ h).labelled

/-! ### Two packets of one session -/

def server (n : UInt8) : SocketAddr := .v4 ⟨[10, 1, 0, n], rfl⟩ 53

def packetTo (packet n : UInt8) : Bytes := [0, 0, 0, 1, 0, packet, 0, 1, 1, 10, 1, 0, n, 0, 53, 7]

/-- Two packets of one session are sent to two servers, and the second server answers first. -/
def crossed : List Input :=
  [.datagram (packetTo 1 1) [] true, .datagram (packetTo 2 2) [] true, .sent 0 true, .sent 1 true,
    .arrives 0 (server 2) [8], .receives 0 true]

/-- Each answer arrives while only the worker it is for waits. -/
def inTurn : List Input :=
  [.datagram (packetTo 1 1) [] true, .datagram (packetTo 2 2) [] true, .sent 0 true,
    .arrives 0 (server 1) [8], .receives 0 true, .sent 1 true, .arrives 0 (server 2) [9],
    .receives 1 true]

theorem inTurn_labelled : (inTurn.foldl Relay.step .start).Labelled :=
  replies_labelled inTurn (by decide)

/-- The answer of the second server goes back as that of the first. -/
theorem crossed_not_labelled :
    (crossed.foldl Relay.step .start).workers.map Worker.stage =
        [.replied (server 2) ⟨1, 1, 0, 1, .v4 ⟨[10, 1, 0, 1], rfl⟩ 53, [8]⟩, .receiving] ∧
      ¬ (crossed.foldl Relay.step .start).Labelled := by
  refine ⟨rfl, fun h => ?_⟩
  exact absurd (h _ mem_cons_self _ _ rfl).2.2.2 (by decide)

end Blackwire.Hysteria2.Replies
