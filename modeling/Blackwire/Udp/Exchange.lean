import Blackwire.Common.Context

/-!
# UDP exchanges over one socket

The VLESS, the Trojan and the SOCKS5 relay serve a request in the same way: resolve the destination,
send the payload through the one upstream socket, wait up to five seconds for a datagram, and write
it to the client in a frame that carries the destination of the request.  They differ in what they
do about an error, and in the frame; that is a `RelayPolicy`.

What the network does in the `k`-th exchange is `world k`.
-/

namespace Blackwire.Udp

open List

inductive Recv
  | received (peer : SocketAddr) (payload : Bytes)
  | failed (e : String)
  | timedOut

structure Answers where
  lookup : Except String (List SocketAddr)
  send : Except String Unit
  recv : Recv
  reply : Except ErrorKind Unit

def resolveUdpDest (answers : Answers) : Address → Except ProxyError SocketAddr
  | .ipv4 ip port => .ok (.v4 ip port)
  | .ipv6 ip port => .ok (.v6 ip port)
  | .domain name _ =>
    match answers.lookup with
    | .error e => .error (.dnsResolutionFailed (name ++ ": " ++ e))
    | .ok [] => .error (.dnsResolutionFailed name)
    | .ok (addr :: _) => .ok addr

/-- What a relay makes of each kind of error, and its frames.  With `none` the relay goes on. -/
structure RelayPolicy where
  resolveError : ProxyError → Option ProxyError
  sendError : String → Option ProxyError
  recvError : String → Option ProxyError
  encode : Address → Bytes → Except ProxyError Bytes
  encodeError : ProxyError → Option ProxyError
  replyError : ErrorKind → Option ProxyError

inductive Event
  | sent (k : ℕ) (upstream : SocketAddr) (payload : Bytes)
  | received (k : ℕ) (peer : SocketAddr) (payload : Bytes)
  | replied (k : ℕ) (dest : Address) (payload : Bytes)
  deriving DecidableEq

abbrev Request := Address × Bytes

def exchange (policy : RelayPolicy) (answers : Answers) (k : ℕ) (request : Request) :
    List Event × Option ProxyError :=
  match resolveUdpDest answers request.1 with
  | .error e => ([], policy.resolveError e)
  | .ok upstream =>
    match answers.send with
    | .error e => ([], policy.sendError e)
    | .ok _ =>
      match answers.recv with
      | .timedOut => ([.sent k upstream request.2], none)
      | .failed e => ([.sent k upstream request.2], policy.recvError e)
      | .received peer payload =>
        if payload = [] then ([.sent k upstream request.2, .received k peer payload], none)
        else
          match policy.encode request.1 payload with
          | .error e =>
            ([.sent k upstream request.2, .received k peer payload], policy.encodeError e)
          | .ok _ =>
            match answers.reply with
            | .error kind =>
              ([.sent k upstream request.2, .received k peer payload], policy.replyError kind)
            | .ok _ =>
              ([.sent k upstream request.2, .received k peer payload,
                .replied k request.1 payload], none)

def log (policy : RelayPolicy) (world : ℕ → Answers) (requests : List Request) : List Event :=
  requests.zipIdx.flatMap fun entry => (exchange policy (world entry.2) entry.2 entry.1).1

/-! ### What is sent -/

def Event.datagram : Event → Option (SocketAddr × Bytes)
  | .sent _ upstream payload => some (upstream, payload)
  | .received _ _ _ => none
  | .replied _ _ _ => none

def sentDatagrams (events : List Event) : List (SocketAddr × Bytes) :=
  events.filterMap Event.datagram

def Forwards (world : ℕ → Answers) (entry : Request × ℕ) (datagram : SocketAddr × Bytes) : Prop :=
  resolveUdpDest (world entry.2) entry.1.1 = .ok datagram.1 ∧ datagram.2 = entry.1.2

theorem sentDatagrams_exchange {answers : Answers} {request : Request} {upstream : SocketAddr}
    (policy : RelayPolicy) (k : ℕ) (hresolve : resolveUdpDest answers request.1 = .ok upstream)
    (hsend : answers.send = .ok ()) :
    sentDatagrams (exchange policy answers k request).1 = [(upstream, request.2)] := by
  unfold exchange
  rw [hresolve, hsend]
  cases answers.recv with
  | timedOut => rfl
  | failed e => rfl
  | received peer payload =>
    dsimp only
    split_ifs
    · rfl
    · cases policy.encode request.1 payload with
      | error e => rfl
      | ok frame => cases answers.reply <;> rfl

theorem forwards_log {policy : RelayPolicy} {world : ℕ → Answers} {requests : List Request}
    (h : ∀ k request, requests[k]? = some request →
      (∃ upstream, resolveUdpDest (world k) request.1 = .ok upstream) ∧ (world k).send = .ok ()) :
    List.Forall₂ (Forwards world) requests.zipIdx (sentDatagrams (log policy world requests)) := by
  unfold log
  have hentries : ∀ entry ∈ requests.zipIdx,
      (∃ upstream, resolveUdpDest (world entry.2) entry.1.1 = .ok upstream) ∧
        (world entry.2).send = .ok () :=
    fun entry hentry => h _ _ (mem_zipIdx_iff_getElem?.1 hentry)
  generalize requests.zipIdx = entries at hentries
  induction entries with
  | nil => exact .nil
  | cons entry entries ih =>
    obtain ⟨⟨⟨upstream, hresolve⟩, hsend⟩, htail⟩ := forall_mem_cons.1 hentries
    have hsent := sentDatagrams_exchange policy entry.2 hresolve hsend
    rw [sentDatagrams] at hsent
    rw [flatMap_cons, sentDatagrams, filterMap_append, hsent]
    exact .cons ⟨hresolve, rfl⟩ (ih htail)

/-! ### Servers for samples -/

def firstServer : Octets 4 := ⟨[8, 8, 8, 8], rfl⟩

def secondServer : Octets 4 := ⟨[1, 1, 1, 1], rfl⟩

end Blackwire.Udp
