import Blackwire.Common.Address
import Blackwire.Hysteria2.Auth
import Blackwire.Lib.Run

/-!
# A Hysteria2 server connection

`serve_connection`, `handle_h3_auth_request` and `serve_udp_sessions` of `hysteria2/http3.rs` as a
machine.  Its inputs are what the network, the client and the timers do: results of the calls that
the code awaits.
-/

namespace Blackwire.Hysteria2

open List Bytes

/-! ### Datagrams -/

inductive Destination
  | v4 (ip : Octets 4) (port : UInt16)
  | v6 (ip : Octets 16) (port : UInt16)
  | domain (name : String) (port : UInt16)
  deriving DecidableEq

structure UdpDatagram where
  sessionId : UInt32
  packetId : UInt16
  fragId : UInt8
  fragNum : UInt8
  dest : Destination
  data : Bytes
  deriving DecidableEq

def portAt (data : Bytes) (n : ℕ) : UInt16 := UInt16.ofNat (ofBe ((data.drop n).take 2))

def decodeDestination (addrType : UInt8) (data : Bytes) : Except String (Destination × Bytes) :=
  if addrType = 0x01 then
    if h : data.length ≥ 6 then
      .ok (.v4 ⟨data.take 4, by rw [length_take]; omega⟩ (portAt data 4), data.drop 6)
    else .error "truncated IPv4 address"
  else if addrType = 0x02 then
    if h : data.length ≥ 18 then
      .ok (.v6 ⟨data.take 16, by rw [length_take]; omega⟩ (portAt data 16), data.drop 18)
    else .error "truncated IPv6 address"
  else if addrType = 0x03 then
    match data with
    | [] => .error "missing domain name length"
    | len :: data =>
      let nameLen := len.toNat
      if data.length ≥ nameLen + 2 then
        match fromUtf8 (data.take nameLen) with
        | some name => .ok (.domain name (portAt data nameLen), data.drop (nameLen + 2))
        | none => .error "domain name is not valid UTF-8"
      else .error "truncated domain name"
  else
    .error ("unknown UDP address type: 0x" ++
      String.ofList ((Nat.toDigits 16 (addrType.toNat / 16) ++
        Nat.toDigits 16 (addrType.toNat % 16)).map Char.toUpper))

def decodeUdpDatagram (raw : Bytes) : Except String UdpDatagram :=
  match raw with
  | s₀ :: s₁ :: s₂ :: s₃ :: p₀ :: p₁ :: fragId :: fragNum :: addrType :: rest =>
    match decodeDestination addrType rest with
    | .error e => .error e
    | .ok (dest, data) =>
      .ok {
        sessionId := UInt32.ofNat (ofBe [s₀, s₁, s₂, s₃])
        packetId := UInt16.ofNat (ofBe [p₀, p₁])
        fragId, fragNum, dest, data }
  | _ => .error "datagram too short (< 9 bytes)"

/-! ### State -/

structure Hysteria2ServerConfig where
  password : String
  upMbps : UInt64
  tag : String

structure Response where
  status : ℕ
  headers : HeaderMap
  deriving DecidableEq

inductive Phase
  | starting
  | accepting
  | resolving
  | sending (request : HttpRequest) (response : Response)
  | finishing (request : HttpRequest) (response : Response)
  | serving
  | closed
  deriving DecidableEq

inductive TcpTask
  | reading
  | responding (dest : Address)
  | done

inductive UdpWorker
  | sending (datagram : UdpDatagram)
  | receiving (datagram : UdpDatagram)
  | done
  deriving DecidableEq

structure UdpRelay where
  running : Bool
  sessions : List UInt32
  workers : List UdpWorker

inductive Event
  | request (request : HttpRequest)
  | answered (status : ℕ)
  | tcpRequest
  | dispatched (tag : String) (dest : Address)
  | udpRelayed (datagram : UdpDatagram)
  | udpReplied (datagram : UdpDatagram)

structure Conn where
  phase : Phase
  tcpTasks : List TcpTask
  udp : UdpRelay
  log : List Event

def Conn.init : Conn := ⟨.starting, [], ⟨false, [], []⟩, []⟩

def maxUdpWorkersPerConn : ℕ := 256

inductive Accept
  | timedOut
  | failed
  | closed
  | stream
  deriving DecidableEq

inductive TcpRead
  | timedOut
  | bad (msg : String)
  | ok (dest : Address)

inductive Input
  | h3Started (ok : Bool)
  | h3Accept (result : Accept)
  | resolved (request : Option HttpRequest)
  | sent (ok : Bool)
  | finished (ok : Bool)
  | handleTimeout
  | acceptBi (ok : Bool)
  | tcpRead (task : ℕ) (result : TcpRead)
  | tcpResponded (task : ℕ) (ok : Bool)
  | readDatagram (raw : Option Bytes) (resolved bound : Bool)
  | udpSent (worker : ℕ) (ok : Bool)
  | udpReceived (worker : ℕ) (reply : Option Bytes)

/-! ### The machine -/

variable (config : Hysteria2ServerConfig) (req : HttpRequest) (s : Conn) (ok : Bool)

def serverRxBps : UInt64 := UInt64.ofNat (min (config.upMbps.toNat * 125000) (2 ^ 64 - 1))

/-- `handle_h3_auth_request` up to its answer: the response that it sends before it returns `Ok`,
or the error that it returns. -/
def authAnswer : Except String Response :=
  let authority := req.host.orElse fun _ => headerString req.headers "host"
  if !isAuthRequest req.method req.path authority then .ok ⟨statusNotFound, []⟩
  else
    match verifyAuthRequest req.headers config.password with
    | .ok _ =>
      let rxBps := serverRxBps config
      .ok ⟨statusAuthOk, authResponseToHeaders ⟨true, true, rxBps, rxBps == 0⟩⟩
    | .error .wrongPassword => .ok ⟨statusNotFound, []⟩
    | .error (.protocol msg) => .error ("auth protocol error: " ++ msg)

def onH3Started : Conn :=
  match s.phase with
  | .starting => { s with phase := if ok then .accepting else .closed }
  | _ => s

def onH3Accept (result : Accept) : Conn :=
  match s.phase with
  | .accepting => { s with phase := if result = .stream then .resolving else .closed }
  | _ => s

def onResolved (request : Option HttpRequest) : Conn :=
  match s.phase, request with
  | .resolving, none => { s with phase := .closed }
  | .resolving, some req =>
    match authAnswer config req with
    | .ok response => { s with phase := .sending req response, log := .request req :: s.log }
    | .error _ => { s with phase := .closed, log := .request req :: s.log }
  | _, _ => s

def onSent : Conn :=
  match s.phase with
  | .sending req response =>
    if ok then
      { s with phase := .finishing req response, log := .answered response.status :: s.log }
    else { s with phase := .closed }
  | _ => s

/-- `finish` has returned.  Any answer that was completed, also a 404, starts the datagram loop and
the loop that accepts streams. -/
def onFinished : Conn :=
  match s.phase with
  | .finishing _ _ =>
    if ok then { s with phase := .serving, udp := { s.udp with running := true } }
    else { s with phase := .closed }
  | _ => s

def onHandleTimeout : Conn :=
  match s.phase with
  | .resolving | .sending _ _ | .finishing _ _ => { s with phase := .closed }
  | _ => s

def onAcceptBi : Conn :=
  match s.phase with
  | .serving =>
    if ok then { s with tcpTasks := s.tcpTasks ++ [.reading] } else { s with phase := .closed }
  | _ => s

def onTcpRead (task : ℕ) (result : TcpRead) : Conn :=
  match s.tcpTasks[task]? with
  | some .reading =>
    let next := match result with
      | .ok dest => .responding dest
      | _ => .done
    { s with tcpTasks := s.tcpTasks.set task next, log := .tcpRequest :: s.log }
  | _ => s

def onTcpResponded (task : ℕ) (ok : Bool) : Conn :=
  match s.tcpTasks[task]? with
  | some (.responding dest) =>
    if ok then
      { s with
        tcpTasks := s.tcpTasks.set task .done
        log := .dispatched config.tag dest :: s.log }
    else { s with tcpTasks := s.tcpTasks.set task .done }
  | _ => s

def relayDatagram (udp : UdpRelay) (dg : UdpDatagram) (resolved bound : Bool) : UdpRelay :=
  let isDomain := match dg.dest with
    | .domain _ _ => true
    | _ => false
  if isDomain && !resolved then udp
  else
    let known := udp.sessions.contains dg.sessionId
    if !known && !bound then udp
    else
      let udp := if known then udp else { udp with sessions := dg.sessionId :: udp.sessions }
      let live := (udp.workers.filter (· ≠ .done)).length
      if live < maxUdpWorkersPerConn then { udp with workers := udp.workers ++ [.sending dg] }
      else udp

def onReadDatagram (raw : Option Bytes) (resolved bound : Bool) : Conn :=
  if s.udp.running then
    match raw with
    | none => { s with udp := { s.udp with running := false } }
    | some raw =>
      match decodeUdpDatagram raw with
      | .error _ => s
      | .ok dg => { s with udp := relayDatagram s.udp dg resolved bound }
  else s

def UdpRelay.setWorker (udp : UdpRelay) (worker : ℕ) (next : UdpWorker) : UdpRelay :=
  { udp with workers := udp.workers.set worker next }

def onUdpSent (worker : ℕ) (ok : Bool) : Conn :=
  match s.udp.workers[worker]? with
  | some (.sending dg) =>
    if ok then
      { s with udp := s.udp.setWorker worker (.receiving dg), log := .udpRelayed dg :: s.log }
    else { s with udp := s.udp.setWorker worker .done }
  | _ => s

def onUdpReceived (worker : ℕ) (reply : Option Bytes) : Conn :=
  match s.udp.workers[worker]? with
  | some (.receiving dg) =>
    match reply with
    | none => { s with udp := s.udp.setWorker worker .done }
    | some data =>
      { s with
        udp := s.udp.setWorker worker .done
        log := .udpReplied { dg with fragId := 0, fragNum := 1, data } :: s.log }
  | _ => s

def step : Input → Conn
  | .h3Started ok => onH3Started s ok
  | .h3Accept result => onH3Accept s result
  | .resolved request => onResolved config s request
  | .sent ok => onSent s ok
  | .finished ok => onFinished s ok
  | .handleTimeout => onHandleTimeout s
  | .acceptBi ok => onAcceptBi s ok
  | .tcpRead task result => onTcpRead s task result
  | .tcpResponded task ok => onTcpResponded config s task ok
  | .readDatagram raw resolved bound => onReadDatagram s raw resolved bound
  | .udpSent worker ok => onUdpSent s worker ok
  | .udpReceived worker reply => onUdpReceived s worker reply

/-! ### What is proxied behind what -/

def Event.Proxies : Event → Prop
  | .request _ | .answered _ => False
  | .tcpRequest | .dispatched _ _ | .udpRelayed _ | .udpReplied _ => True

/-- `is_auth_request` accepts the request, and its `hysteria-auth` header is the password. -/
def Authenticated : Prop :=
  isAuthRequest req.method req.path req.host = true ∧
    headerString req.headers headerAuth = some config.password

/-- The request is not one for authentication, or has a wrong password. -/
def Rejected : Prop :=
  isAuthRequest req.method req.path req.host = false ∨
    ∃ auth, headerString req.headers headerAuth = some auth ∧ auth ≠ config.password

def Cleared (log : List Event) : Prop :=
  (∃ req, .request req ∈ log ∧ Authenticated config req) ∧ .answered statusNotFound ∉ log

/-- Nothing is proxied before an authenticated request. -/
def Guarded (log : List Event) : Prop :=
  ∀ later e earlier, log = later ++ e :: earlier → e.Proxies → Cleared config earlier

variable {config}

theorem Guarded.cons {log : List Event} (h : Guarded config log) {e : Event}
    (he : e.Proxies → Cleared config log) : Guarded config (e :: log) := by
  intro later e' earlier hsplit hproxies
  cases later with
  | nil =>
    obtain ⟨rfl, rfl⟩ := List.cons.inj hsplit
    exact he hproxies
  | cons a later =>
    obtain ⟨-, hsplit⟩ := List.cons.inj hsplit
    exact h later e' earlier hsplit hproxies

theorem Cleared.cons {log : List Event} (h : Cleared config log) {e : Event} (he : e.Proxies) :
    Cleared config (e :: log) := by
  obtain ⟨⟨req, hmem, hauth⟩, hnot⟩ := h
  refine ⟨⟨req, mem_cons_of_mem _ hmem, hauth⟩, ?_⟩
  rintro (_ | ⟨_, hmem⟩)
  · exact he
  · exact hnot hmem

theorem authAnswer_cases : (Authenticated config req ∧
      ∃ headers, authAnswer config req = .ok ⟨statusAuthOk, headers⟩) ∨
    (Rejected config req ∧ authAnswer config req = .ok ⟨statusNotFound, []⟩) ∨
    (¬ Rejected config req ∧ ∃ e, authAnswer config req = .error e) := by
  have hauthority : ∀ authority, isAuthRequest req.method req.path authority =
      isAuthRequest req.method req.path req.host := fun _ => rfl
  simp only [authAnswer, hauthority]
  cases hpath : isAuthRequest req.method req.path req.host with
  | false => exact .inr (.inl ⟨.inl hpath, rfl⟩)
  | true =>
    obtain ⟨hheader, auth, hverify⟩ | ⟨auth, hheader, hne, hverify⟩ | ⟨hheader, msg, hverify⟩ :=
      verifyAuthRequest_cases req.headers config.password
    · rw [hverify]
      exact .inl ⟨⟨hpath, hheader⟩, _, rfl⟩
    · rw [hverify]
      exact .inr (.inl ⟨.inr ⟨auth, hheader, hne⟩, rfl⟩)
    · rw [hverify]
      refine .inr (.inr ⟨?_, _, rfl⟩)
      rintro (h | ⟨auth, h, -⟩)
      · rw [hpath] at h
        cases h
      · rw [hheader] at h
        cases h

variable {req : HttpRequest}

theorem Authenticated.not_rejected (h : Authenticated config req) : ¬ Rejected config req := by
  rintro (hpath | ⟨auth, hheader, hne⟩)
  · rw [h.1] at hpath
    cases hpath
  · rw [h.2] at hheader
    exact hne (Option.some.inj hheader).symm

theorem authAnswer_of_rejected (h : Rejected config req) :
    authAnswer config req = .ok ⟨statusNotFound, []⟩ := by
  obtain ⟨hauth, -⟩ | ⟨-, hanswer⟩ | ⟨hnot, -⟩ := authAnswer_cases req
  · exact absurd h hauth.not_rejected
  · exact hanswer
  · exact absurd h hnot

theorem authenticated_of_answered {response : Response} (h : authAnswer config req = .ok response)
    (hnot : ¬ Rejected config req) : Authenticated config req ∧ response.status = statusAuthOk := by
  obtain ⟨hauth, headers, ha⟩ | ⟨hrej, -⟩ | ⟨-, e, ha⟩ := authAnswer_cases req
  · rw [ha] at h
    obtain rfl := Except.ok.inj h
    exact ⟨hauth, rfl⟩
  · exact absurd hrej hnot
  · rw [ha] at h
    cases h

/-! ### The invariant -/

def Conn.Idle : Prop :=
  s.tcpTasks = [] ∧ s.udp.running = false ∧ s.udp.workers = []

def PhaseInv (config : Hysteria2ServerConfig) (s : Conn) : Prop :=
  match s.phase with
  | .starting | .accepting | .resolving => s.Idle ∧ ∀ status, .answered status ∉ s.log
  | .sending req response =>
    s.Idle ∧ (∀ status, .answered status ∉ s.log) ∧ .request req ∈ s.log ∧
      authAnswer config req = .ok response
  | .finishing req response =>
    s.Idle ∧ (∀ status, .answered status ∈ s.log → status = response.status) ∧
      .request req ∈ s.log ∧ authAnswer config req = .ok response
  | .serving => Cleared config s.log
  | .closed => s.Idle ∨ Cleared config s.log

structure Inv (config : Hysteria2ServerConfig) (s : Conn) : Prop where
  guarded : Guarded config s.log
  phase : PhaseInv config s

structure ProxyStep (s s' : Conn) : Prop where
  phase : s'.phase = s.phase ∨ s.phase = .serving ∧ s'.phase = .closed
  log : s'.log = s.log ∨ ∃ e, e.Proxies ∧ s'.log = e :: s.log
  idle : s.Idle → s.phase ≠ .serving → s' = s

theorem ProxyStep.refl : ProxyStep s s := ⟨.inl rfl, .inl rfl, fun _ _ => rfl⟩

variable {s : Conn}

theorem Conn.not_idle_of_task {task : ℕ} {t : TcpTask} (h : s.tcpTasks[task]? = some t) :
    ¬ s.Idle := by
  rintro ⟨hnil, -⟩
  rw [hnil] at h
  cases h

theorem Conn.not_idle_of_worker {worker : ℕ} {w : UdpWorker} (h : s.udp.workers[worker]? = some w) :
    ¬ s.Idle := by
  rintro ⟨-, -, hnil⟩
  rw [hnil] at h
  cases h

open Conn

theorem ProxyStep.of_busy {s' : Conn} (hbusy : ¬ s.Idle) (hphase : s'.phase = s.phase)
    (hlog : s'.log = s.log ∨ ∃ e, e.Proxies ∧ s'.log = e :: s.log) : ProxyStep s s' :=
  ⟨.inl hphase, hlog, fun hidle => absurd hidle hbusy⟩

section

variable (s : Conn)

theorem proxyStep_acceptBi (ok : Bool) : ProxyStep s (onAcceptBi s ok) := by
  unfold onAcceptBi
  split
  · rename_i hphase
    split_ifs
    · exact ⟨.inl rfl, .inl rfl, fun _ hne => absurd hphase hne⟩
    · exact ⟨.inr ⟨hphase, rfl⟩, .inl rfl, fun _ hne => absurd hphase hne⟩
  · exact .refl s

theorem proxyStep_tcpRead (task : ℕ) (result : TcpRead) :
    ProxyStep s (onTcpRead s task result) := by
  unfold onTcpRead
  split
  · rename_i htask
    exact .of_busy (not_idle_of_task htask) rfl (.inr ⟨.tcpRequest, trivial, rfl⟩)
  · exact .refl s

theorem proxyStep_tcpResponded (task : ℕ) (ok : Bool) :
    ProxyStep s (onTcpResponded config s task ok) := by
  unfold onTcpResponded
  split
  · rename_i dest htask
    have hbusy := not_idle_of_task htask
    split_ifs
    · exact .of_busy hbusy rfl (.inr ⟨.dispatched config.tag dest, trivial, rfl⟩)
    · exact .of_busy hbusy rfl (.inl rfl)
  · exact .refl s

theorem proxyStep_readDatagram (raw : Option Bytes) (resolved bound : Bool) :
    ProxyStep s (onReadDatagram s raw resolved bound) := by
  unfold onReadDatagram
  split_ifs with hrun
  · have hbusy : ¬ s.Idle := by
      rintro ⟨-, hidle, -⟩
      rw [hidle] at hrun
      cases hrun
    split
    · exact .of_busy hbusy rfl (.inl rfl)
    · split
      · exact .refl s
      · exact .of_busy hbusy rfl (.inl rfl)
  · exact .refl s

theorem proxyStep_udpSent (worker : ℕ) (ok : Bool) : ProxyStep s (onUdpSent s worker ok) := by
  unfold onUdpSent
  split
  · rename_i dg hworker
    have hbusy := not_idle_of_worker hworker
    split_ifs
    · exact .of_busy hbusy rfl (.inr ⟨.udpRelayed dg, trivial, rfl⟩)
    · exact .of_busy hbusy rfl (.inl rfl)
  · exact .refl s

theorem proxyStep_udpReceived (worker : ℕ) (reply : Option Bytes) :
    ProxyStep s (onUdpReceived s worker reply) := by
  unfold onUdpReceived
  split
  · rename_i dg hworker
    have hbusy := not_idle_of_worker hworker
    split
    · exact .of_busy hbusy rfl (.inl rfl)
    · exact .of_busy hbusy rfl (.inr ⟨.udpReplied _, trivial, rfl⟩)
  · exact .refl s

end

section

variable (h : Inv config s)
include h

theorem Inv.idle_or_cleared : (s.Idle ∧ s.phase ≠ .serving) ∨
      ((s.phase = .serving ∨ s.phase = .closed) ∧ Cleared config s.log) := by
  have hphase := h.phase
  unfold PhaseInv at hphase
  split at hphase <;> rename_i heq
  case h_6 => exact .inr ⟨.inl heq, hphase⟩
  case h_7 =>
    rcases hphase with hidle | hcleared
    · exact .inl ⟨hidle, by rw [heq]; exact Phase.noConfusion⟩
    · exact .inr ⟨.inr heq, hcleared⟩
  all_goals exact .inl ⟨hphase.1, by rw [heq]; exact Phase.noConfusion⟩

theorem Inv.of_proxyStep {s' : Conn} (hstep : ProxyStep s s') : Inv config s' := by
  rcases h.idle_or_cleared with ⟨hidle, hne⟩ | ⟨hphase, hcleared⟩
  · rwa [hstep.idle hidle hne]
  · have hlog : Guarded config s'.log ∧ Cleared config s'.log := by
      rcases hstep.log with heq | ⟨e, he, heq⟩
      · rw [heq]
        exact ⟨h.guarded, hcleared⟩
      · rw [heq]
        exact ⟨h.guarded.cons fun _ => hcleared, hcleared.cons he⟩
    have hphase' : s'.phase = .serving ∨ s'.phase = .closed := by
      rcases hstep.phase with heq | ⟨-, heq⟩
      · rwa [heq]
      · exact .inr heq
    refine ⟨hlog.1, ?_⟩
    unfold PhaseInv
    rcases hphase' with heq | heq <;> rw [heq]
    · exact hlog.2
    · exact .inr hlog.2

theorem Inv.close (hidle : s.Idle) :
    Inv config { s with phase := .closed } := ⟨h.guarded, .inl hidle⟩

theorem Inv.h3Started (ok : Bool) : Inv config (onH3Started s ok) := by
  have hphase := h.phase
  unfold onH3Started
  split
  · rename_i heq
    rw [PhaseInv, heq] at hphase
    cases ok with
    | true => exact ⟨h.guarded, hphase⟩
    | false => exact h.close hphase.1
  · exact h

theorem Inv.h3Accept (result : Accept) : Inv config (onH3Accept s result) := by
  have hphase := h.phase
  unfold onH3Accept
  split
  · rename_i heq
    rw [PhaseInv, heq] at hphase
    by_cases hstream : result = .stream
    · rw [if_pos hstream]
      exact ⟨h.guarded, hphase⟩
    · rw [if_neg hstream]
      exact h.close hphase.1
  · exact h

theorem Inv.resolved (request : Option HttpRequest) : Inv config (onResolved config s request) := by
  have hphase := h.phase
  unfold onResolved
  split
  · rename_i heq
    rw [PhaseInv, heq] at hphase
    exact h.close hphase.1
  · rename_i req heq
    rw [PhaseInv, heq] at hphase
    have hguarded : Guarded config (.request req :: s.log) := h.guarded.cons False.elim
    cases hanswer : authAnswer config req with
    | ok response =>
      refine ⟨hguarded, hphase.1, ?_, mem_cons_self, hanswer⟩
      rintro status (_ | ⟨_, hmem⟩)
      exact hphase.2 status hmem
    | error e => exact ⟨hguarded, .inl hphase.1⟩
  · exact h

theorem Inv.sent (ok : Bool) : Inv config (onSent s ok) := by
  have hphase := h.phase
  unfold onSent
  split
  · rename_i req response heq
    rw [PhaseInv, heq] at hphase
    obtain ⟨hidle, hnone, hmem, hanswer⟩ := hphase
    cases ok with
    | true =>
      refine ⟨h.guarded.cons False.elim, hidle, ?_, mem_cons_of_mem _ hmem, hanswer⟩
      rintro status (_ | ⟨_, hmem⟩)
      · rfl
      · exact absurd hmem (hnone status)
    | false => exact h.close hidle
  · exact h

theorem Inv.handleTimeout : Inv config (onHandleTimeout s) := by
  have hphase := h.phase
  unfold onHandleTimeout
  split
  case h_4 => exact h
  all_goals
    rename_i heq
    rw [PhaseInv, heq] at hphase
    exact h.close hphase.1

end

/-- The condition on a step: a request that finishes well is not a rejected one. -/
def NotRejected (config : Hysteria2ServerConfig) (s : Conn) (i : Input) : Prop :=
  ∀ req response, s.phase = .finishing req response → i = .finished true → ¬ Rejected config req

theorem Inv.finished (h : Inv config s) {ok : Bool} (hok : NotRejected config s (.finished ok)) :
    Inv config (onFinished s ok) := by
  have hphase := h.phase
  unfold onFinished
  split
  · rename_i req response heq
    rw [PhaseInv, heq] at hphase
    obtain ⟨hidle, hstatus, hmem, hanswer⟩ := hphase
    cases ok with
    | true =>
      obtain ⟨hauth, h233⟩ := authenticated_of_answered hanswer (hok req response heq rfl)
      refine ⟨h.guarded, ⟨req, hmem, hauth⟩, fun h404 => ?_⟩
      have := hstatus _ h404
      rw [h233] at this
      exact absurd this (by decide)
    | false => exact h.close hidle
  · exact h

theorem Inv.step {i : Input} (h : Inv config s) (hok : NotRejected config s i) :
    Inv config (step config s i) := by
  cases i with
  | h3Started ok => exact h.h3Started ok
  | h3Accept result => exact h.h3Accept result
  | resolved request => exact h.resolved request
  | sent ok => exact h.sent ok
  | finished ok => exact h.finished hok
  | handleTimeout => exact h.handleTimeout
  | acceptBi ok => exact h.of_proxyStep (proxyStep_acceptBi s ok)
  | tcpRead task result => exact h.of_proxyStep (proxyStep_tcpRead s task result)
  | tcpResponded task ok => exact h.of_proxyStep (proxyStep_tcpResponded s task ok)
  | readDatagram raw resolved bound =>
    exact h.of_proxyStep (proxyStep_readDatagram s raw resolved bound)
  | udpSent worker ok => exact h.of_proxyStep (proxyStep_udpSent s worker ok)
  | udpReceived worker reply => exact h.of_proxyStep (proxyStep_udpReceived s worker reply)

theorem Inv.init : Inv config Conn.init := by
  refine ⟨?_, ⟨rfl, rfl, rfl⟩, fun status => not_mem_nil⟩
  intro later e earlier hsplit
  exact absurd hsplit.symm (by simp [Conn.init])

/-! ### Runs -/

def streamAfter (req : HttpRequest) (dest : Address) : List Input :=
  [.h3Started true, .h3Accept .stream, .resolved (some req), .sent true, .finished true,
    .acceptBi true, .tcpRead 0 (.ok dest), .tcpResponded 0 true]

theorem log_streamAfter {response : Response} (h : authAnswer config req = .ok response)
    (dest : Address) :
    ((streamAfter req dest).foldl (step config) init).log =
      [.dispatched config.tag dest, .tcpRequest, .answered response.status, .request req] := by
  have hresolved : onResolved config ⟨.resolving, [], ⟨false, [], []⟩, []⟩ (some req) =
      ⟨.sending req response, [], ⟨false, [], []⟩, [.request req]⟩ := by
    simp only [onResolved, h]
  show ([.sent true, .finished true, .acceptBi true, .tcpRead 0 (.ok dest),
    .tcpResponded 0 true].foldl (step config)
      (onResolved config ⟨.resolving, [], ⟨false, [], []⟩, []⟩ (some req))).log = _
  rw [hresolved]
  rfl

theorem not_guarded_streamAfter (h : Rejected config req) (dest : Address) :
    ¬ Guarded config ((streamAfter req dest).foldl (step config) init).log := by
  rw [log_streamAfter (authAnswer_of_rejected h)]
  intro hguarded
  exact (hguarded [] _ _ rfl trivial).2 (by simp)

/-- **Authentication guards the proxy.**  In a run in which no answer to a rejected request is
completed, every stream that was read or dispatched and every datagram that was relayed came after
an authenticated request and after no 404; and behind every rejected request there is a run in
which a stream is read and dispatched. -/
theorem guarded_run (config : Hysteria2ServerConfig) :
    (∀ inputs, Run.Meets (NotRejected config) (step config) init inputs →
      Guarded config (inputs.foldl (step config) init).log) ∧
    ∀ req dest, Rejected config req →
      ¬ Guarded config ((streamAfter req dest).foldl (step config) init).log := by
  refine ⟨fun inputs h => ?_, fun req dest h => not_guarded_streamAfter h dest⟩
  exact (Run.invariant_of_meets (fun s i hs hok => Inv.step hs hok) Inv.init h).guarded

def secretConfig : Hysteria2ServerConfig := ⟨"secret", 100, "in"⟩

def authRequest (password : String) : HttpRequest :=
  ⟨"POST", "/auth", some "hysteria", [(headerAuth, utf8 password)]⟩

theorem guarded_run_secret :
    Run.Meets (NotRejected secretConfig) (step secretConfig) init
        (streamAfter (authRequest "secret") (.domain "x" 80)) ∧
      Guarded secretConfig ((streamAfter (authRequest "secret") (.domain "x" 80)).foldl
        (step secretConfig) init).log := by
  refine (and_iff_left_of_imp fun hmeets => (guarded_run secretConfig).1 _ hmeets).2 ?_
  have hother : ∀ s i, i ≠ .finished true → NotRejected secretConfig s i :=
    fun _ _ hne _ _ _ hi => absurd hi hne
  refine ⟨hother _ _ (by simp), hother _ _ (by simp), hother _ _ (by simp), hother _ _ (by simp),
    ?_, hother _ _ (by simp), hother _ _ (by simp), hother _ _ (by simp), trivial⟩
  intro req response hphase _
  have hreq : authRequest "secret" = req := (Phase.finishing.inj hphase).1
  subst hreq
  have hauth : Authenticated secretConfig (authRequest "secret") := ⟨by decide, by decide⟩
  exact hauth.not_rejected

/-- A client with a wrong password is answered with 404, and its stream is dispatched. -/
theorem not_guarded_wrong :
    ((streamAfter (authRequest "wrong") (.domain "x" 80)).foldl (step secretConfig) init).log =
        [.dispatched "in" (.domain "x" 80), .tcpRequest, .answered 404,
          .request (authRequest "wrong")] ∧
      ¬ Guarded secretConfig ((streamAfter (authRequest "wrong") (.domain "x" 80)).foldl
        (step secretConfig) init).log := by
  have hrejected : Rejected secretConfig (authRequest "wrong") :=
    .inr ⟨"wrong", by decide, by decide⟩
  exact ⟨log_streamAfter (authAnswer_of_rejected hrejected) _, not_guarded_streamAfter hrejected _⟩

end Blackwire.Hysteria2
