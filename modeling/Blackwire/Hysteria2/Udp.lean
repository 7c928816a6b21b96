import Blackwire.Hysteria2.Server

/-!
# Fragmented datagrams on a Hysteria2 connection

`encode_udp_datagram` of `hysteria2/udp.rs`, the packets that a client sends in fragments, and what
`serve_udp_sessions` does with the fragments.  The relay reads neither `frag_id` nor `frag_num`: it
sends each fragment to the destination as a datagram of its own.
-/

namespace Blackwire.Hysteria2

open Bytes Conn
open List hiding beq_eq_decide

/-! ### The wire format -/

def encodeDestination : Destination → Bytes
  | .v4 ip port => 0x01 :: (ip.val ++ toBe 2 port.toNat)
  | .v6 ip port => 0x02 :: (ip.val ++ toBe 2 port.toNat)
  | .domain name port => 0x03 :: UInt8.ofNat (utf8 name).length :: (utf8 name ++ toBe 2 port.toNat)

def encodeUdpDatagram (dg : UdpDatagram) : Bytes :=
  toBe 4 dg.sessionId.toNat ++ (toBe 2 dg.packetId.toNat ++
    (dg.fragId :: dg.fragNum :: (encodeDestination dg.dest ++ dg.data)))

/-- The name fits the byte for its length. -/
def Destination.Fits : Destination → Prop
  | .domain name _ => (utf8 name).length < 256
  | _ => True

theorem portAt_append {n : ℕ} {addr : Bytes} (haddr : addr.length = n) (port : UInt16)
    (tail : Bytes) : portAt (addr ++ toBe 2 port.toNat ++ tail) n = port := by
  have hlen : (toBe 2 port.toNat).length = 2 := rfl
  rw [portAt, append_assoc, drop_left' haddr, take_left' hlen, ofBe_toBe port.toNat_lt]
  exact UInt16.ofNat_toNat

theorem decode_encodeDestination {dest : Destination} (h : dest.Fits) (tail : Bytes) :
    ∃ addrType body, encodeDestination dest = addrType :: body ∧
      decodeDestination addrType (body ++ tail) = .ok (dest, tail) := by
  cases dest with
  | v4 ip port =>
    refine ⟨_, _, rfl, ?_⟩
    have hlen : (ip.val ++ toBe 2 port.toNat).length = 6 := by rw [length_append, ip.property]; rfl
    unfold decodeDestination
    rw [if_pos rfl, dif_pos (by rw [length_append]; omega),
      portAt_append ip.property, drop_left' hlen]
    simp only [append_assoc, take_left' ip.property]
  | v6 ip port =>
    refine ⟨_, _, rfl, ?_⟩
    have hlen : (ip.val ++ toBe 2 port.toNat).length = 18 := by rw [length_append, ip.property]; rfl
    unfold decodeDestination
    rw [if_neg (by decide), if_pos rfl,
      dif_pos (by rw [length_append]; omega), portAt_append ip.property,
      drop_left' hlen]
    simp only [append_assoc, take_left' ip.property]
  | domain name port =>
    refine ⟨_, _, rfl, ?_⟩
    have hname : (UInt8.ofNat (utf8 name).length).toNat = (utf8 name).length :=
      UInt8.toNat_ofNat_of_lt h
    have hlen : (utf8 name ++ toBe 2 port.toNat).length =
        (utf8 name).length + 2 := length_append
    unfold decodeDestination
    rw [if_neg (by decide), if_neg (by decide), if_pos rfl]
    simp only [cons_append, hname]
    rw [if_pos (by rw [length_append]; omega), portAt_append rfl, drop_left' hlen,
      append_assoc, take_left, fromUtf8_utf8]

/-- **Round trip.**  A datagram whose destination fits is decoded as it was encoded. -/
theorem decode_encodeUdpDatagram {dg : UdpDatagram} (h : dg.dest.Fits) :
    decodeUdpDatagram (encodeUdpDatagram dg) = .ok dg := by
  obtain ⟨addrType, body, hdest, hdecode⟩ := decode_encodeDestination h dg.data
  have hsession := ofBe_toBe (w := 4) dg.sessionId.toNat_lt
  have hpacket := ofBe_toBe (w := 2) dg.packetId.toNat_lt
  obtain ⟨s₀, s₁, s₂, s₃, hs⟩ : ∃ s₀ s₁ s₂ s₃, toBe 4 dg.sessionId.toNat = [s₀, s₁, s₂, s₃] :=
    ⟨_, _, _, _, rfl⟩
  obtain ⟨p₀, p₁, hp⟩ : ∃ p₀ p₁, toBe 2 dg.packetId.toNat = [p₀, p₁] := ⟨_, _, rfl⟩
  rw [hs] at hsession
  rw [hp] at hpacket
  rw [encodeUdpDatagram, hs, hp, hdest]
  simp [decodeUdpDatagram, hdecode, hsession, hpacket]

/-! ### What the relay sends -/

def Event.relayed? : Event → Option UdpDatagram
  | .udpRelayed dg => some dg
  | _ => none

def UdpWorker.sending? : UdpWorker → Option UdpDatagram
  | .sending dg => some dg
  | _ => none

variable (s : Conn)

def relayed : List UdpDatagram := s.log.filterMap Event.relayed?

open UdpWorker

def pending : List UdpDatagram := s.udp.workers.filterMap sending?

def Input.arrived? : Input → Option UdpDatagram
  | .readDatagram (some raw) _ _ => (decodeUdpDatagram raw).toOption
  | _ => none

/-- The relay reads, resolves, binds, has a free worker, and its send succeeds. -/
def Unhindered : Input → Prop
  | .readDatagram (some _) resolved bound =>
    s.udp.running = true ∧ resolved = true ∧ bound = true ∧
      (s.udp.workers.filter (· ≠ .done)).length < maxUdpWorkersPerConn
  | .udpSent _ ok => ok = true
  | _ => True

instance Unhindered.decidable (i : Input) : Decidable (Unhindered s i) := by
  unfold Unhindered
  split <;> infer_instance

def RelayStep (s s' : Conn) (arrived : Option UdpDatagram) : Prop :=
  (relayed s' ++ pending s').Perm (relayed s ++ pending s ++ arrived.toList)

variable {s : Conn} {inputs : List Input}

theorem RelayStep.of_perm {s' : Conn} (hrelayed : relayed s' = relayed s)
    (hpending : (pending s').Perm (pending s)) : RelayStep s s' none := by
  rw [RelayStep, hrelayed, Option.toList_none, append_nil]
  exact hpending.append_left _

theorem RelayStep.of_eq {s' : Conn} (hudp : s'.udp.workers = s.udp.workers)
    (hrelayed : relayed s' = relayed s) : RelayStep s s' none := by
  refine .of_perm hrelayed ?_
  rw [pending, hudp]
  rfl

theorem perm_setWorker {udp : UdpRelay} {worker : ℕ} {old : UdpWorker} (new : UdpWorker)
    (h : udp.workers[worker]? = some old) :
    (old.sending?.toList ++ (udp.setWorker worker new).workers.filterMap sending?).Perm
      (new.sending?.toList ++ udp.workers.filterMap sending?) := by
  obtain ⟨hlt, hold⟩ := List.getElem?_eq_some_iff.1 h
  obtain ⟨before, after, hworkers, hset⟩ : ∃ before after,
      udp.workers = before ++ old :: after ∧
        (udp.setWorker worker new).workers = before ++ new :: after := by
    refine ⟨udp.workers.take worker, udp.workers.drop (worker + 1), ?_, ?_⟩
    · rw [← hold, getElem_cons_drop, take_append_drop]
    · exact set_eq_take_append_cons_drop.trans (if_pos hlt)
  have hfront (w : UdpWorker) : ((before ++ w :: after).filterMap sending?).Perm
      (w.sending?.toList ++ (before ++ after).filterMap sending?) := by
    cases hw : w.sending? <;> simp [hw]
  rw [hworkers, hset]
  calc old.sending?.toList ++ (before ++ new :: after).filterMap sending?
    _ |>.Perm (old.sending?.toList ++ (new.sending?.toList ++ _)) := (hfront new).append_left _
    _ |>.Perm (new.sending?.toList ++ (old.sending?.toList ++ _)) := perm_append_comm_assoc ..
    _ |>.Perm _ := (hfront old).symm.append_left _

theorem workers_relayDatagram {udp : UdpRelay} (dg : UdpDatagram)
    (hlive : (udp.workers.filter (· ≠ .done)).length < maxUdpWorkersPerConn) :
    (relayDatagram udp dg true true).workers = udp.workers ++ [.sending dg] := by
  simp only [relayDatagram, Bool.not_true, Bool.and_false, Bool.false_eq_true, if_false]
  cases udp.sessions.contains dg.sessionId with
  | true => rw [if_pos rfl, if_pos hlive]
  | false => rw [if_neg Bool.false_ne_true, if_pos hlive]

open Input

theorem relayStep_readDatagram {raw : Bytes} {resolved bound : Bool}
    (h : Unhindered s (.readDatagram (some raw) resolved bound)) :
    RelayStep s (onReadDatagram s (some raw) resolved bound)
      (arrived? (.readDatagram (some raw) resolved bound)) := by
  obtain ⟨hrunning, rfl, rfl, hlive⟩ := h
  unfold onReadDatagram
  rw [if_pos hrunning, arrived?]
  cases hdecode : decodeUdpDatagram raw with
  | error e =>
    simp only [hdecode]
    exact .of_eq rfl rfl
  | ok dg =>
    simp only [hdecode]
    have hpending : (relayDatagram s.udp dg true true).workers.filterMap sending? =
        pending s ++ [dg] := by
      rw [workers_relayDatagram dg hlive, filterMap_append]
      rfl
    show (relayed s ++ (relayDatagram s.udp dg true true).workers.filterMap
      sending?).Perm (relayed s ++ pending s ++ [dg])
    rw [hpending, append_assoc]

theorem relayStep_udpSent (s : Conn) (worker : ℕ) : RelayStep s (onUdpSent s worker true) none := by
  unfold onUdpSent
  split
  · rename_i dg hworker
    have hperm : (dg :: (s.udp.setWorker worker (.receiving dg)).workers.filterMap
        sending?).Perm (pending s) := perm_setWorker (.receiving dg) hworker
    rw [RelayStep, Option.toList_none, append_nil]
    exact perm_middle.symm.trans (hperm.append_left _)
  · exact .of_eq rfl rfl

theorem relayStep_udpReceived (s : Conn) (worker : ℕ) (reply : Option Bytes) :
    RelayStep s (onUdpReceived s worker reply) none := by
  unfold onUdpReceived
  split
  · rename_i dg hworker
    cases reply with
    | none | some => exact .of_perm rfl (perm_setWorker .done hworker)
  · exact .of_eq rfl rfl

section Runs

variable {config : Hysteria2ServerConfig}

section

variable (s : Conn)

theorem relayStep_handshake (ok : Bool) (result : Accept) :
    RelayStep s (onH3Started s ok) none ∧ RelayStep s (onH3Accept s result) none ∧
      RelayStep s (onSent s ok) none ∧ RelayStep s (onFinished s ok) none ∧
      RelayStep s (onHandleTimeout s) none := by
  unfold onH3Started onH3Accept onSent onFinished onHandleTimeout
  refine ⟨?_, ?_, ?_, ?_, ?_⟩
  · split <;> exact .of_eq rfl rfl
  · split <;> exact .of_eq rfl rfl
  · split
    · split <;> exact .of_eq rfl rfl
    · exact .of_eq rfl rfl
  · split
    · split <;> exact .of_eq rfl rfl
    · exact .of_eq rfl rfl
  · split <;> exact .of_eq rfl rfl

theorem relayStep_resolved (request : Option HttpRequest) :
    RelayStep s (onResolved config s request) none := by
  unfold onResolved
  split
  · exact .of_eq rfl rfl
  · split <;> exact .of_eq rfl rfl
  · exact .of_eq rfl rfl

theorem relayStep_acceptBi (ok : Bool) : RelayStep s (onAcceptBi s ok) none := by
  unfold onAcceptBi
  split
  · split <;> exact .of_eq rfl rfl
  · exact .of_eq rfl rfl

theorem relayStep_tcpRead (task : ℕ) (result : TcpRead) :
    RelayStep s (onTcpRead s task result) none := by
  unfold onTcpRead
  split <;> exact .of_eq rfl rfl

theorem relayStep_tcpResponded (task : ℕ) (ok : Bool) :
    RelayStep s (onTcpResponded config s task ok) none := by
  unfold onTcpResponded
  split
  · split <;> exact .of_eq rfl rfl
  · exact .of_eq rfl rfl

end

theorem relayStep_step {i : Input} (h : Unhindered s i) :
    RelayStep s (step config s i) i.arrived? := by
  cases i with
  | readDatagram raw resolved bound =>
    cases raw with
    | some raw => exact relayStep_readDatagram h
    | none =>
      show RelayStep s (onReadDatagram s none resolved bound) none
      unfold onReadDatagram
      split <;> exact .of_eq rfl rfl
  | udpSent worker ok =>
    obtain rfl : ok = true := h
    exact relayStep_udpSent s worker
  | udpReceived worker reply => exact relayStep_udpReceived s worker reply
  | acceptBi ok => exact relayStep_acceptBi s ok
  | tcpRead task result => exact relayStep_tcpRead s task result
  | tcpResponded task ok => exact relayStep_tcpResponded s task ok
  | resolved request => exact relayStep_resolved s request
  | h3Started ok => exact (relayStep_handshake s ok .closed).1
  | h3Accept result => exact (relayStep_handshake s true result).2.1
  | sent ok => exact (relayStep_handshake s ok .closed).2.2.1
  | finished ok => exact (relayStep_handshake s ok .closed).2.2.2.1
  | handleTimeout => exact (relayStep_handshake s true .closed).2.2.2.2

/-- **The relay sends what arrives.**  In a run in which nothing hinders it, what was sent or is
about to be is what was before and what has arrived, one datagram for each. -/
theorem relayed_perm (h : Run.Meets Unhindered (step config) s inputs) :
    (relayed (inputs.foldl (step config) s) ++ pending (inputs.foldl (step config) s)).Perm
      (relayed s ++ pending s ++ inputs.filterMap arrived?) := by
  induction inputs generalizing s with
  | nil => simp
  | cons i inputs ih =>
    have hstep : RelayStep s (step config s i) i.arrived? := relayStep_step h.1
    have hcons : (i :: inputs).filterMap arrived? =
        i.arrived?.toList ++ inputs.filterMap arrived? := by
      cases hi : i.arrived? <;> simp [hi]
    rw [hcons, ← append_assoc]
    exact (ih h.2).trans (hstep.append_right _)

end Runs

/-! ### Packets -/

structure Packet where
  sessionId : UInt32
  packetId : UInt16
  dest : Destination
  pieces : List Bytes
  fits : dest.Fits
  nonempty : 1 ≤ pieces.length
  bounded : pieces.length ≤ 255

variable (p : Packet)

namespace Packet

def key : UInt32 × UInt16 := (p.sessionId, p.packetId)

def payload : Bytes := p.pieces.flatten

def fragment (i : Fin p.pieces.length) : UdpDatagram where
  sessionId := p.sessionId
  packetId := p.packetId
  fragId := UInt8.ofNat i
  fragNum := UInt8.ofNat p.pieces.length
  dest := p.dest
  data := p.pieces.get i

end Packet

structure Arrival where
  packet : Packet
  index : Fin packet.pieces.length

variable (arrivals : List Arrival)

def Arrival.datagram (a : Arrival) : UdpDatagram := a.packet.fragment a.index

def Packet.Complete : Prop :=
  ∀ i, ⟨p, i⟩ ∈ arrivals

def Input.raw? : Input → Option Bytes
  | .readDatagram raw _ _ => raw
  | _ => none

def Packet.sent (s : Conn) : List (Destination × Bytes) :=
  ((relayed s).filter fun dg => (dg.sessionId, dg.packetId) = p.key).map fun dg =>
    (dg.dest, dg.data)

/-- Exactly the complete packets are sent, each once and whole. -/
def Reassembled (packets : List Packet) (arrivals : List Arrival) (s : Conn) : Prop :=
  ∀ p ∈ packets, (p.Complete arrivals → p.sent s = [(p.dest, p.payload)]) ∧
    (¬ p.Complete arrivals → p.sent s = [])

/-- Every packet that arrives is one fragment, and arrives once. -/
def Whole : Prop :=
  (∀ a ∈ arrivals, a.packet.pieces.length = 1) ∧ (arrivals.map (·.packet.key)).Nodup

def Packet.arrived : List Arrival :=
  arrivals.filter fun a => a.packet.key = p.key

open Packet

theorem arrived_of_raw {arrivals : List Arrival}
    (h : inputs.filterMap raw? = arrivals.map fun a => encodeUdpDatagram a.datagram) :
    inputs.filterMap arrived? = arrivals.map Arrival.datagram := by
  have harrived : arrived? = fun i => i.raw?.bind fun raw =>
      (decodeUdpDatagram raw).toOption := by
    funext i
    rcases i with _ | _ | _ | _ | _ | _ | _ | _ | _ | ⟨_ | raw, _, _⟩ | _ | _ <;> rfl
  have hdecode (a : Arrival) :
      (decodeUdpDatagram (encodeUdpDatagram a.datagram)).toOption = some a.datagram := by
    rw [decode_encodeUdpDatagram a.packet.fits]
    rfl
  rw [harrived, ← filterMap_filterMap, h]
  simp [hdecode]

section Delivery

variable {config : Hysteria2ServerConfig} {packets : List Packet} {arrivals : List Arrival}

theorem sent_perm
    (hraw : inputs.filterMap raw? = arrivals.map fun a => encodeUdpDatagram a.datagram)
    (hmeets : Run.Meets Unhindered (step config) init inputs)
    (hdone : pending (inputs.foldl (step config) init) = []) (p : Packet) :
    (p.sent (inputs.foldl (step config) init)).Perm
      ((p.arrived arrivals).map fun a => (a.datagram.dest, a.datagram.data)) := by
  have hinit : relayed init ++ pending init = [] := rfl
  have hperm := relayed_perm hmeets
  rw [hdone, append_nil, hinit, nil_append, arrived_of_raw hraw] at hperm
  have hfilter := (hperm.filter fun dg => (dg.sessionId, dg.packetId) = p.key).map
    fun dg => (dg.dest, dg.data)
  rw [filter_map, map_map] at hfilter
  exact hfilter

theorem Packet.mem_arrived {p : Packet} {a : Arrival} :
    a ∈ p.arrived arrivals ↔ a ∈ arrivals ∧ a.packet.key = p.key := by
  simp [arrived]

theorem Packet.Complete.mem_arrived {p : Packet} (h : p.Complete arrivals)
    (i : Fin p.pieces.length) : ⟨p, i⟩ ∈ p.arrived arrivals :=
  Packet.mem_arrived.2 ⟨h i, rfl⟩

theorem Packet.count_key (p : Packet) :
    (arrivals.map (·.packet.key)).count p.key = (p.arrived arrivals).length := by
  simp only [count, countP_eq_length_filter, arrived, beq_eq_decide, filter_map, length_map,
    Function.comp_def]

theorem Packet.get_of_whole {p : Packet} (h : p.pieces.length = 1)
    (i : Fin p.pieces.length) : p.pieces.get i = p.payload := by
  obtain ⟨piece, hpiece⟩ := length_eq_one_iff.1 h
  have hget : p.pieces.get i ∈ [piece] := hpiece ▸ get_mem p.pieces i
  rw [mem_singleton.1 hget, payload, hpiece]
  exact (append_nil piece).symm

section

variable (hfrom : ∀ a ∈ arrivals, a.packet ∈ packets) (hsent : ∀ p : Packet, (p.sent s).Perm
  ((p.arrived arrivals).map fun a => (a.datagram.dest, a.datagram.data)))
include hfrom hsent

theorem reassembled_of_whole (hkeys : (packets.map key).Nodup) (h : Whole arrivals) :
    Reassembled packets arrivals s := by
  intro p hp
  have hlength : (p.arrived arrivals).length ≤ 1 := p.count_key ▸ nodup_iff_count_le_one.1 h.2 p.key
  have hsent := hsent p
  rcases harrived : p.arrived arrivals with _ | ⟨a, _ | ⟨b, rest⟩⟩
  · -- no fragment has arrived
    rw [harrived] at hsent
    refine ⟨fun hcomplete => ?_, fun _ => hsent.eq_nil⟩
    have := hcomplete.mem_arrived ⟨0, p.nonempty⟩
    rw [harrived] at this
    exact absurd this not_mem_nil
  · have ha : a ∈ p.arrived arrivals := harrived ▸ mem_singleton_self a
    obtain ⟨hmem, hkey⟩ := mem_arrived.1 ha
    obtain rfl : a.packet = p := inj_on_of_nodup_map hkeys (hfrom a hmem) hp hkey
    have hone := h.1 a hmem
    refine ⟨fun _ => ?_, fun hincomplete => absurd (fun i => ?_) hincomplete⟩
    · rw [harrived] at hsent
      rw [perm_singleton.1 hsent, ← get_of_whole hone]
      rfl
    · have hi : i = a.index := by omega
      exact hi ▸ hmem
  · rw [harrived] at hlength
    exact absurd hlength (by simp)

theorem whole_of_reassembled (h : Reassembled packets arrivals s) : Whole arrivals := by
  -- of a packet of which anything has arrived, one fragment has, and it is complete
  have hsingle : ∀ a ∈ arrivals, a.packet.arrived arrivals = [a] ∧ a.packet.Complete arrivals := by
    intro a ha
    have hmem : a ∈ a.packet.arrived arrivals := mem_arrived.2 ⟨ha, rfl⟩
    have hsent := hsent a.packet
    obtain ⟨hcomplete, hincomplete⟩ := h a.packet (hfrom a ha)
    by_cases hc : a.packet.Complete arrivals
    · rw [hcomplete hc] at hsent
      have hlength : (a.packet.arrived arrivals).length = 1 := by simpa using hsent.length_eq.symm
      obtain ⟨b, hb⟩ := length_eq_one_iff.1 hlength
      rw [hb] at hmem
      exact ⟨by rw [hb, mem_singleton.1 hmem], hc⟩
    · rw [hincomplete hc] at hsent
      have hnil : a.packet.arrived arrivals = [] := map_eq_nil_iff.1 hsent.symm.eq_nil
      exact absurd (hnil ▸ hmem) not_mem_nil
  constructor
  · intro a ha
    obtain ⟨harrived, hcomplete⟩ := hsingle a ha
    by_contra hne
    have hindex (i : Fin a.packet.pieces.length) : i = a.index := by
      have hmem := hcomplete.mem_arrived i
      rw [harrived, mem_singleton] at hmem
      exact congrArg (fun b : Arrival => (b.index : ℕ)) hmem |> Fin.ext
    have hpos := a.packet.nonempty
    have := (hindex ⟨0, by omega⟩).trans (hindex ⟨1, by omega⟩).symm
    exact absurd (Fin.mk.inj this) Nat.zero_ne_one
  · rw [nodup_iff_count_le_one]
    intro key
    by_cases hkey : key ∈ arrivals.map (·.packet.key)
    · obtain ⟨a, ha, rfl⟩ := mem_map.1 hkey
      rw [count_key, (hsingle a ha).1]
      rfl
    · rw [count_eq_zero_of_not_mem hkey]
      exact Nat.zero_le 1

end

end Delivery

/-- **Packets and fragments.**  For all packets, all fragments of them that arrive in any order, and
every run that reads these fragments, in which nothing hinders the relay and which ends when all
workers have sent: every packet of which all fragments have arrived is sent once, reassembled, and
of the others nothing, exactly if each packet that arrives is one fragment and arrives once. -/
theorem delivered_iff (config : Hysteria2ServerConfig) (packets : List Packet)
    (arrivals : List Arrival) (inputs : List Input) (hkeys : (packets.map key).Nodup)
    (hfrom : ∀ a ∈ arrivals, a.packet ∈ packets)
    (hraw : inputs.filterMap raw? = arrivals.map fun a => encodeUdpDatagram a.datagram)
    (hmeets : Run.Meets Unhindered (step config) init inputs)
    (hdone : pending (inputs.foldl (step config) init) = []) :
    Reassembled packets arrivals (inputs.foldl (step config) init) ↔ Whole arrivals := by
  have hsent := sent_perm hraw hmeets hdone
  exact ⟨whole_of_reassembled hfrom hsent, reassembled_of_whole hfrom hsent hkeys⟩

def relayRun (datagrams : List UdpDatagram) : List Input :=
  [.h3Started true, .h3Accept .stream, .resolved (some (authRequest "secret")), .sent true,
    .finished true] ++
  datagrams.map (fun dg => .readDatagram (some (encodeUdpDatagram dg)) true true) ++
  (range datagrams.length).map fun worker => .udpSent worker true

def packetOf (packetId : UInt16) (pieces : List Bytes) (hnonempty : 1 ≤ pieces.length)
    (hbounded : pieces.length ≤ 255) : Packet where
  sessionId := 7
  packetId := packetId
  dest := .v4 ⟨[10, 0, 0, 9], rfl⟩ 53
  pieces := pieces
  fits := trivial
  nonempty := hnonempty
  bounded := hbounded

def wholePacket : Packet := packetOf 1 [[1, 2, 3, 4]] (by decide) (by decide)

def nextPacket : Packet := packetOf 2 [[5]] (by decide) (by decide)

def halvedPacket : Packet := packetOf 3 [[1, 2], [3, 4]] (by decide) (by decide)

/-- Two packets arrive in the opposite order, and nothing of the third. -/
theorem delivered_whole :
    Reassembled [wholePacket, nextPacket, halvedPacket]
      [⟨nextPacket, ⟨0, by decide⟩⟩, ⟨wholePacket, ⟨0, by decide⟩⟩]
      ((relayRun [nextPacket.fragment ⟨0, by decide⟩, wholePacket.fragment ⟨0, by decide⟩]).foldl
        (step secretConfig) init) := by
  refine (delivered_iff secretConfig [wholePacket, nextPacket, halvedPacket]
    [⟨nextPacket, ⟨0, by decide⟩⟩, ⟨wholePacket, ⟨0, by decide⟩⟩] _ ?_ ?_ ?_ ?_ ?_).2 ⟨?_, ?_⟩
  · decide
  · simp
  · rfl
  · decide +kernel
  · decide +kernel
  · simp [wholePacket, nextPacket, packetOf]
  · decide

/-- Of a packet in two fragments the destination gets two halves. -/
theorem halves_relayed :
    halvedPacket.Complete [⟨halvedPacket, ⟨0, by decide⟩⟩, ⟨halvedPacket, ⟨1, by decide⟩⟩] ∧
      halvedPacket.sent ((relayRun [halvedPacket.fragment ⟨0, by decide⟩,
        halvedPacket.fragment ⟨1, by decide⟩]).foldl (step secretConfig) init) =
        [(halvedPacket.dest, [3, 4]), (halvedPacket.dest, [1, 2])] := by
  constructor
  · intro i
    match i with
    | ⟨0, _⟩ => simp
    | ⟨1, _⟩ => simp
  · decide +kernel

end Blackwire.Hysteria2
