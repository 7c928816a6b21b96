import Blackwire.Lib.Bytes
import Blackwire.Lib.Run

/-!
# The TCP bridge of the TUN device

`TcpBridgeTable::forward` and `flow_task` of `tun/tcp.rs`, for the connections of one pair of
addresses.  The segments of a client are answered packet by packet, and their payloads go through a
queue to a task that writes them to a SOCKS stream.
-/

namespace Blackwire.Tun

open List Run

def tcpFin : UInt8 := 0x01

def tcpSyn : UInt8 := 0x02

def tcpRst : UInt8 := 0x04

def tcpPsh : UInt8 := 0x08

def tcpAck : UInt8 := 0x10

def flowChanCap : ℕ := 256

def serverIsn : UInt32 := 0x42570001

def has (flags bit : UInt8) : Bool := flags &&& bit != 0

structure Packet where
  seq : UInt32
  ack : UInt32
  flags : UInt8
  payload : Bytes
  deriving DecidableEq

structure Segment where
  seq : UInt32
  flags : UInt8
  payload : Bytes

/-! ### The task of a flow -/

/-- Where the task is: in `connect_local_socks`, at the `select!`, in `write_all` with bytes that
are still to be written, or at its end, with or without an RST. -/
inductive Phase where
  | connecting
  | selecting
  | writing (rest : Bytes)
  | ended (reset : Bool)
  deriving DecidableEq

def Phase.isEnded : Phase → Bool
  | .ended _ => true
  | _ => false

def Phase.afterWrite (rest : Bytes) : Phase := if rest = [] then .selecting else .writing rest

/-- A flow: its task, the queue `payload_rx`, the bytes written to the SOCKS stream, the counter
`server_seq`; and the bytes that `forward` has acknowledged for it, which the code does not
keep. -/
structure Flow where
  phase : Phase
  queue : List Bytes
  written : Bytes
  clientAck : UInt32
  serverSeq : UInt32
  accepted : Bytes

inductive Act where
  | connected
  | recv
  | wrote (n : ℕ)
  | read (bytes : Bytes)
  | failed
  | cancelled
  deriving DecidableEq

namespace Flow

variable (flow : Flow)

def fail : Flow × List Packet :=
  ({ flow with phase := .ended true, queue := [] },
    [⟨flow.serverSeq, flow.clientAck, tcpRst ||| tcpAck, []⟩])

/-- The task of the flow takes the next payload of its queue. -/
def recv : Flow :=
  match flow.queue with
  | [] => flow
  | payload :: queue =>
    { flow with
      queue := queue
      clientAck := flow.clientAck + UInt32.ofNat payload.length
      phase := .writing payload }

def wrote (rest : Bytes) (n : ℕ) : Flow :=
  if 0 < n ∧ n ≤ rest.length then
    { flow with
      written := flow.written ++ rest.take n
      phase := .afterWrite (rest.drop n) }
  else flow

def read (bytes : Bytes) : Flow × List Packet :=
  if 16 * 1024 < bytes.length then (flow, [])
  else if bytes = [] then
    ({ flow with phase := .ended false, queue := [], serverSeq := flow.serverSeq + 1 },
      [⟨flow.serverSeq, flow.clientAck, tcpFin ||| tcpAck, []⟩])
  else
    ({ flow with serverSeq := flow.serverSeq + UInt32.ofNat bytes.length },
      [⟨flow.serverSeq, flow.clientAck, tcpPsh ||| tcpAck, bytes⟩])

def step (cancelled : Bool) (flow : Flow) (act : Act) : Flow × List Packet :=
  match flow.phase, act with
  | .connecting, .connected => ({ flow with phase := .selecting }, [])
  | .connecting, .failed => flow.fail
  | .selecting, .recv => (flow.recv, [])
  | .selecting, .read bytes => flow.read bytes
  | .selecting, .failed => flow.fail
  | .selecting, .cancelled =>
    if cancelled then ({ flow with phase := .ended false, queue := [] }, []) else (flow, [])
  | .writing rest, .wrote n => (flow.wrote rest n, [])
  | .writing _, .failed => flow.fail
  | _, _ => (flow, [])

end Flow

/-! ### The table -/

structure TcpEntry where
  flow : ℕ
  clientNextSeq : UInt32

/-- Where a call to `forward` waits: nowhere, for room in the queue, or for the acknowledgement of
a FIN to be sent. -/
inductive Pc where
  | idle
  | enqueue (payload : Bytes)
  | remove
  deriving DecidableEq

inductive Part where
  | syn
  | data (offset len : ℕ) (push : Bool)
  | fin (len : ℕ) (push : Bool)
  | rst (seq : UInt32)
  deriving DecidableEq

/-- The entry of the connection, the flows that were started for it, the call in progress, what
was sent to the client and what was received from it. -/
structure State where
  entry : Option TcpEntry
  flows : List Flow
  pc : Pc
  sent : List Packet
  received : List Part

namespace State

def start : State := ⟨none, [], .idle, [], []⟩

def spawn (s : State) (port : UInt16) (segment : Segment) : State :=
  let clientNextSeq := segment.seq + 1
  let serverSeq := serverIsn ^^^ port.toUInt32
  { s with
    entry := some ⟨s.flows.length, clientNextSeq⟩
    flows := s.flows ++ [⟨.connecting, [], [], clientNextSeq, serverSeq + 1, []⟩]
    sent := s.sent ++ [⟨serverSeq, clientNextSeq, tcpSyn ||| tcpAck, []⟩] }

/-- A packet of the TUN device: a SYN opens a flow, later segments go to it. -/
def forward (s : State) (port : UInt16) (segment : Segment) : State :=
  if has segment.flags tcpRst then { s with entry := none }
  else
    match s.entry with
    | none => if has segment.flags tcpSyn then s.spawn port segment else s
    | some entry =>
      match s.flows[entry.flow]? with
      | none => s
      | some flow =>
        if has segment.flags tcpFin then
          let clientNextSeq := segment.seq + 1
          { s with
            entry := some { entry with clientNextSeq := clientNextSeq }
            sent := s.sent ++ [⟨flow.serverSeq, clientNextSeq, tcpAck, []⟩]
            pc := .remove }
        else if segment.payload = [] then s
        else
          let clientNextSeq := segment.seq + UInt32.ofNat segment.payload.length
          { s with
            entry := some { entry with clientNextSeq := clientNextSeq }
            flows := s.flows.set entry.flow
              { flow with accepted := flow.accepted ++ segment.payload }
            sent := s.sent ++ [⟨flow.serverSeq, clientNextSeq, tcpAck, []⟩]
            pc := .enqueue segment.payload }

/-- `TcpBridgeTable::forward`, from where it waits.  The queue of a task that has ended is
closed. -/
def resume (s : State) : State :=
  match s.pc with
  | .idle => s
  | .remove => { s with entry := none, pc := .idle }
  | .enqueue payload =>
    match s.entry with
    | none => s
    | some entry =>
      match s.flows[entry.flow]? with
      | none => s
      | some flow =>
        if flow.phase.isEnded then { s with entry := none, pc := .idle }
        else if flow.queue.length < flowChanCap then
          { s with
            flows := s.flows.set entry.flow { flow with queue := flow.queue ++ [payload] }
            pc := .idle }
        else s

end State

/-! ### The client -/

structure Client where
  isn : UInt32
  port : UInt16
  stream : Bytes

namespace Client

variable (c : Client)

def seqAt (k : ℕ) : UInt32 := c.isn + 1 + UInt32.ofNat k

def offset : Part → ℕ
  | .data offset _ _ => offset
  | .fin len _ => c.stream.length - len
  | _ => 0

def payload : Part → Bytes
  | .data offset len _ => (c.stream.drop offset).take len
  | .fin len _ => c.stream.drop (c.stream.length - len)
  | _ => []

def ackFlags (push : Bool) : UInt8 := if push then tcpPsh ||| tcpAck else tcpAck

def flags : Part → UInt8
  | .syn => tcpSyn
  | .data _ _ push => ackFlags push
  | .fin _ push => tcpFin ||| ackFlags push
  | .rst _ => tcpRst

def seq : Part → UInt32
  | .syn => c.isn
  | .rst seq => seq
  | part => c.seqAt (c.offset part)

def segment (part : Part) : Segment := ⟨c.seq part, flags part, c.payload part⟩

def Arrived (parts : List Part) (i : ℕ) : Prop :=
  ∃ part ∈ parts, c.offset part ≤ i ∧ i < c.offset part + (c.payload part).length

def Contiguous (parts : List Part) (k : ℕ) : Prop := ∀ i < k, c.Arrived parts i

end Client

inductive Event where
  | segment (part : Part)
  | resume
  | evict
  | flow (i : ℕ) (act : Act)

variable (c : Client) (s : State)

/-- One event.  While a call to `forward` waits, there is no other and nothing is evicted. -/
def step : Event → State
  | .segment part =>
    if s.pc = .idle then
      { s.forward c.port (c.segment part) with received := s.received ++ [part] }
    else s
  | .resume => s.resume
  | .evict => if s.pc = .idle then { s with entry := none } else s
  | .flow i act =>
    match s.flows[i]? with
    | none => s
    | some flow =>
      let (flow, packets) := flow.step (s.entry.map TcpEntry.flow ≠ some i) act
      { s with flows := s.flows.set i flow, sent := s.sent ++ packets }

def run (events : List Event) : State := events.foldl (step c) .start

/-! ### The conditions -/

def State.acceptedLength : ℕ :=
  match s.entry with
  | none => 0
  | some entry => ((s.flows[entry.flow]?).map fun flow => flow.accepted.length).getD 0

/-- The segment continues what the flow has accepted. -/
def InOrder : Event → Prop
  | .segment .syn => s.flows = [] ∨ s.entry ≠ none
  | .segment (.data offset len push) =>
    s.entry ≠ none → c.payload (.data offset len push) ≠ [] → offset = s.acceptedLength
  | .segment (.fin len _) => s.entry ≠ none → len = 0 ∧ c.stream.length = s.acceptedLength
  | _ => True

instance InOrder.decidable (event : Event) : Decidable (InOrder c s event) := by
  unfold InOrder
  split <;> infer_instance

def State.pending : Bytes :=
  match s.pc with
  | .enqueue payload => payload
  | _ => []

/-- A task ends without an RST only when its queue is empty and `forward` does not wait for it, and
no data comes for it afterwards. -/
def Drained : Event → Prop
  | .segment (.data offset len push) =>
    c.payload (.data offset len push) ≠ [] → s.entry ≠ none →
      ∀ flow ∈ s.flows, flow.phase ≠ .ended false
  | .flow _ .cancelled => ∀ flow ∈ s.flows, flow.queue = [] ∧ s.pending = []
  | .flow _ (.read []) => ∀ flow ∈ s.flows, flow.queue = [] ∧ s.pending = []
  | _ => True

instance Drained.decidable (event : Event) : Decidable (Drained c s event) := by
  unfold Drained
  split <;> infer_instance

/-! ### The task of a flow -/

variable {c : Client} {flow : Flow} {pending : Bytes} {s : State} {result : Flow × List Packet}
  {parts : List Part} {accepted : Bytes} {ack : UInt32} {entry : TcpEntry}

namespace Client

theorem seqAt_add (c : Client) (k n : ℕ) : c.seqAt k + UInt32.ofNat n = c.seqAt (k + n) := by
  rw [seqAt, seqAt, UInt32.ofNat_add, UInt32.add_assoc]

theorem seqAt_zero (c : Client) : c.seqAt 0 = c.isn + 1 := UInt32.add_zero _

end Client

def Phase.rest : Phase → Bytes
  | .writing rest => rest
  | _ => []

theorem Phase.rest_afterWrite (rest : Bytes) : (Phase.afterWrite rest).rest = rest := by
  unfold afterWrite
  split_ifs with hrest
  · exact hrest.symm
  · rfl

/-- What is acknowledged has been written, is being written, or waits, in this order, until the
task ends; and the task acknowledges what it has taken from the queue. -/
structure Tracks (c : Client) (flow : Flow) (pending : Bytes) : Prop where
  written : flow.written <+: flow.accepted
  books : flow.phase.isEnded = false →
    flow.written ++ (flow.phase.rest ++ (flow.queue.flatten ++ pending)) = flow.accepted
  ack : flow.phase.isEnded = false →
    flow.clientAck = c.seqAt (flow.written.length + flow.phase.rest.length)

namespace Tracks

theorem of_live
    (books : flow.written ++ (flow.phase.rest ++ (flow.queue.flatten ++ pending)) = flow.accepted)
    (ack : flow.clientAck = c.seqAt (flow.written.length + flow.phase.rest.length)) :
    Tracks c flow pending :=
  ⟨⟨_, books⟩, fun _ => books, fun _ => ack⟩

theorem of_ended (hended : flow.phase.isEnded = true) (written : flow.written <+: flow.accepted) :
    Tracks c flow pending := by
  refine ⟨written, fun hlive => ?_, fun hlive => ?_⟩
  · cases hended.symm.trans hlive
  · cases hended.symm.trans hlive

section

variable (h : Tracks c flow pending)
include h

theorem live {phase : Phase} (hphase : flow.phase = phase) (hlive : phase.isEnded = false) :
    flow.written ++ (phase.rest ++ (flow.queue.flatten ++ pending)) = flow.accepted ∧
      flow.clientAck = c.seqAt (flow.written.length + phase.rest.length) := by
  subst hphase
  exact ⟨h.books hlive, h.ack hlive⟩

theorem ack_le (hlive : flow.phase.isEnded = false) :
    ∃ k ≤ flow.accepted.length, flow.clientAck = c.seqAt k := by
  refine ⟨_, ?_, h.ack hlive⟩
  rw [← h.books hlive]
  simp only [length_append]
  omega

theorem recv (hphase : flow.phase = .selecting) : Tracks c flow.recv pending := by
  obtain ⟨hbooks, hack⟩ := h.live hphase rfl
  unfold Flow.recv
  cases hqueue : flow.queue with
  | nil => exact h
  | cons payload queue =>
    rw [hqueue] at hbooks
    refine of_live ?_ ?_
    · simpa [Phase.rest] using hbooks
    · show flow.clientAck + UInt32.ofNat payload.length = _
      rw [hack, Client.seqAt_add]
      simp [Phase.rest]

theorem wrote {rest : Bytes} (hphase : flow.phase = .writing rest)
    (n : ℕ) : Tracks c (flow.wrote rest n) pending := by
  obtain ⟨hbooks, hack⟩ := h.live hphase rfl
  unfold Flow.wrote
  split_ifs with hn
  · refine of_live ?_ ?_
    · simp only [Phase.rest_afterWrite]
      rw [← hbooks, append_assoc, ← append_assoc (rest.take n), take_append_drop]
      rfl
    · simp only [Phase.rest_afterWrite]
      rw [hack]
      congr 1
      simp only [Phase.rest, length_append, length_take, length_drop]
      omega
  · exact h

end

def Within (c : Client) (n : ℕ) (packets : List Packet) : Prop :=
  ∀ packet ∈ packets, ∃ k ≤ n, packet.ack = c.seqAt k

theorem fail (h : Tracks c flow pending) (hlive : flow.phase.isEnded = false) :
    Tracks c flow.fail.1 pending ∧ Within c flow.accepted.length flow.fail.2 := by
  refine ⟨of_ended rfl h.written, ?_⟩
  intro packet hpacket
  rw [mem_singleton.1 hpacket]
  exact h.ack_le hlive

theorem read (h : Tracks c flow pending) (hphase : flow.phase = .selecting) (bytes : Bytes) :
    Tracks c (flow.read bytes).1 pending ∧
      Within c flow.accepted.length (flow.read bytes).2 := by
  have hlive : flow.phase.isEnded = false := by rw [hphase]; rfl
  unfold Flow.read
  split_ifs
  · exact ⟨h, fun packet hpacket => absurd hpacket not_mem_nil⟩
  · refine ⟨of_ended rfl h.written, fun packet hpacket => ?_⟩
    rw [mem_singleton.1 hpacket]
    exact h.ack_le hlive
  · refine ⟨of_live (h.books hlive) (h.ack hlive), fun packet hpacket => ?_⟩
    rw [mem_singleton.1 hpacket]
    exact h.ack_le hlive

end Tracks

inductive Flow.Does (flow : Flow) : Act → Flow × List Packet → Prop
  | nothing {act : Act} : Does flow act (flow, [])
  | connect (hphase : flow.phase = .connecting) :
    Does flow .connected ({ flow with phase := .selecting }, [])
  | fail (hlive : flow.phase.isEnded = false) : Does flow .failed flow.fail
  | recv (hphase : flow.phase = .selecting) : Does flow .recv (flow.recv, [])
  | read (hphase : flow.phase = .selecting) (bytes : Bytes) :
    Does flow (.read bytes) (flow.read bytes)
  | cancel (hphase : flow.phase = .selecting) :
    Does flow .cancelled ({ flow with phase := .ended false, queue := [] }, [])
  | wrote {rest : Bytes} (hphase : flow.phase = .writing rest) (n : ℕ) :
    Does flow (.wrote n) (flow.wrote rest n, [])

theorem Flow.step_does (flow : Flow) (cancelled : Bool) (act : Act) :
    flow.Does act (flow.step cancelled act) := by
  unfold step
  split
  case h_1 hphase => exact .connect hphase
  case h_2 hphase => exact .fail (by rw [hphase]; rfl)
  case h_3 hphase => exact .recv hphase
  case h_4 bytes hphase => exact .read hphase bytes
  case h_5 hphase => exact .fail (by rw [hphase]; rfl)
  case h_6 hphase =>
    cases cancelled with
    | false => exact .nothing
    | true => exact .cancel hphase
  case h_7 rest n hphase => exact .wrote hphase n
  case h_8 hphase => exact .fail (by rw [hphase]; rfl)
  case h_9 => exact .nothing

theorem Tracks.does (h : Tracks c flow pending) {act : Act} (hdoes : flow.Does act result) :
    Tracks c result.1 pending ∧ Within c flow.accepted.length result.2 ∧
      result.1.accepted = flow.accepted := by
  have hnone : Within c flow.accepted.length [] := fun packet hpacket => absurd hpacket not_mem_nil
  cases hdoes with
  | nothing => exact ⟨h, hnone, rfl⟩
  | connect hphase =>
    obtain ⟨hbooks, hack⟩ := h.live hphase rfl
    exact ⟨of_live hbooks hack, hnone, rfl⟩
  | fail hlive => exact ⟨(h.fail hlive).1, (h.fail hlive).2, rfl⟩
  | recv hphase =>
    refine ⟨h.recv hphase, hnone, ?_⟩
    unfold Flow.recv
    cases flow.queue <;> rfl
  | read hphase bytes =>
    refine ⟨(h.read hphase bytes).1, (h.read hphase bytes).2, ?_⟩
    unfold Flow.read
    split_ifs <;> rfl
  | cancel hphase => exact ⟨of_ended rfl h.written, hnone, rfl⟩
  | wrote hphase n =>
    refine ⟨h.wrote hphase n, hnone, ?_⟩
    unfold Flow.wrote
    split_ifs <;> rfl

theorem Tracks.settled (h : Tracks c flow pending) {act : Act} (hdoes : flow.Does act result)
    (hdrained : act = .cancelled ∨ act = .read [] → flow.queue = [] ∧ pending = [])
    (hsettled : flow.phase = .ended false → flow.written = flow.accepted) :
    result.1.phase = .ended false → result.1.written = result.1.accepted := by
  have hall (hphase : flow.phase = .selecting) (hempty : flow.queue = [] ∧ pending = []) :
      flow.written = flow.accepted := by
    have hbooks := (h.live hphase rfl).1
    rw [hempty.1, hempty.2] at hbooks
    simpa [Phase.rest] using hbooks
  cases hdoes with
  | nothing => exact hsettled
  | connect hphase => exact fun hended => nomatch hended
  | fail hlive => exact fun hended => nomatch hended
  | recv hphase =>
    unfold Flow.recv
    cases flow.queue with
    | nil => exact hsettled
    | cons payload queue => exact fun hended => nomatch hended
  | read hphase bytes =>
    unfold Flow.read
    split_ifs with hlong hempty
    · exact hsettled
    · exact fun _ => hall hphase (hdrained (.inr (by rw [hempty])))
    · exact hsettled
  | cancel hphase => exact fun _ => hall hphase (hdrained (.inl rfl))
  | wrote hphase n =>
    unfold Flow.wrote Phase.afterWrite
    split_ifs
    · exact fun hended => nomatch hended
    · exact fun hended => nomatch hended
    · exact hsettled

/-! ### The connection -/

/-- An acknowledgement of bytes that `forward` has taken, or of the FIN behind all of them. -/
def Acked (c : Client) (parts : List Part) (accepted : Bytes) (ack : UInt32) : Prop :=
  ∃ k, ack = c.seqAt k ∧ (k ≤ accepted.length ∨
    (k = c.stream.length + 1 ∧ accepted = c.stream ∧ ∃ len push, .fin len push ∈ parts))

structure One (c : Client) (s : State) (flow : Flow) : Prop where
  flows : s.flows = [flow]
  entry : ∀ entry, s.entry = some entry → entry.flow = 0
  waits : s.pc ≠ .idle → s.entry ≠ none
  accepted : flow.accepted <+: c.stream
  arrived : c.Contiguous s.received flow.accepted.length
  tracks : Tracks c flow s.pending
  acks : ∀ packet ∈ s.sent, Acked c s.received flow.accepted packet.ack

theorem Client.Contiguous.mono {parts' : List Part} (hsub : parts ⊆ parts') {k : ℕ}
    (h : c.Contiguous parts k) : c.Contiguous parts' k := by
  intro i hi
  obtain ⟨part, hpart, hin⟩ := h i hi
  exact ⟨part, hsub hpart, hin⟩

theorem Client.Contiguous.append {k offset : ℕ} (h : c.Contiguous parts k) (hoffset : offset = k)
    (len : ℕ) (push : Bool) :
    c.Contiguous (parts ++ [.data offset len push])
      (k + (c.payload (.data offset len push)).length) := by
  intro i hi
  by_cases hold : i < k
  · exact h.mono (subset_append_left _ _) i hold
  · refine ⟨.data offset len push, by simp, ?_, ?_⟩
    · show offset ≤ i
      omega
    · show i < offset + (c.payload (.data offset len push)).length
      omega

theorem Client.accepted_append {offset : ℕ} (h : accepted <+: c.stream)
    (hoffset : offset = accepted.length) (len : ℕ) (push : Bool) :
    accepted ++ c.payload (.data offset len push) <+: c.stream := by
  obtain ⟨rest, hrest⟩ := h
  have hpayload : c.payload (.data offset len push) = rest.take len := by
    show (c.stream.drop offset).take len = _
    rw [← hrest, hoffset, drop_left]
  rw [hpayload, ← hrest]
  exact (prefix_append_right_inj _).2 (List.take_prefix _ _)

theorem Acked.mono {parts' : List Part} (hsub : parts ⊆ parts') {accepted accepted' : Bytes}
    (hmore : accepted <+: accepted') (hstream : accepted' <+: c.stream)
    (h : Acked c parts accepted ack) : Acked c parts' accepted' ack := by
  obtain ⟨k, hk, hle | ⟨hfin, hall, len, push, hmem⟩⟩ := h
  · exact ⟨k, hk, .inl (hle.trans hmore.length_le)⟩
  · have hall' : accepted' = c.stream := by
      rw [hall] at hmore
      exact hstream.eq_of_length_le hmore.length_le
    exact ⟨k, hk, .inr ⟨hfin, hall', len, push, hsub hmem⟩⟩

/-! The flags tell the four kinds of segments apart. -/

open Client

@[simp] theorem has_syn_rst : has (flags .syn) tcpRst = false := by decide

@[simp] theorem has_syn_syn : has (flags .syn) tcpSyn = true := by decide

@[simp] theorem has_syn_fin : has (flags .syn) tcpFin = false := by decide

@[simp] theorem has_rst_rst (seq : UInt32) : has (flags (.rst seq)) tcpRst = true := by
  show has tcpRst tcpRst = true
  decide

@[simp] theorem has_data (offset len : ℕ) (push : Bool) :
    has (flags (.data offset len push)) tcpRst = false ∧
      has (flags (.data offset len push)) tcpSyn = false ∧
        has (flags (.data offset len push)) tcpFin = false := by
  show has (ackFlags push) _ = _ ∧ has (ackFlags push) _ = _ ∧
    has (ackFlags push) _ = _
  revert push
  decide

@[simp] theorem has_fin (len : ℕ) (push : Bool) :
    has (flags (.fin len push)) tcpRst = false ∧
      has (flags (.fin len push)) tcpSyn = false ∧
        has (flags (.fin len push)) tcpFin = true := by
  show has (tcpFin ||| ackFlags push) _ = _ ∧ has (tcpFin ||| ackFlags push) _ = _ ∧
    has (tcpFin ||| ackFlags push) _ = _
  revert push
  decide

theorem forward_rst (s : State) (seq : UInt32) :
    s.forward c.port (c.segment (.rst seq)) = { s with entry := none } := by
  simp [State.forward, Client.segment]

theorem forward_syn (hentry : s.entry = none) :
    s.forward c.port (c.segment .syn) = s.spawn c.port (c.segment .syn) := by
  simp [State.forward, hentry, Client.segment]

theorem forward_none (hentry : s.entry = none) {part : Part} (hpart : part ≠ .syn) :
    s.forward c.port (c.segment part) = s := by
  cases part with
  | syn => exact absurd rfl hpart
  | data | fin => simp [State.forward, hentry, Client.segment]
  | rst seq => rw [forward_rst, ← hentry]

theorem forward_data (hentry : s.entry = some entry)
    (hflow : s.flows[entry.flow]? = some flow) (offset len : ℕ) (push : Bool) :
    s.forward c.port (c.segment (.data offset len push)) =
      if c.payload (.data offset len push) = [] then s
      else
        let clientNextSeq := c.seqAt (offset + (c.payload (.data offset len push)).length)
        { s with
          entry := some { entry with clientNextSeq := clientNextSeq }
          flows := s.flows.set entry.flow
            { flow with accepted := flow.accepted ++ c.payload (.data offset len push) }
          sent := s.sent ++ [⟨flow.serverSeq, clientNextSeq, tcpAck, []⟩]
          pc := .enqueue (c.payload (.data offset len push)) } := by
  simp [State.forward, hentry, hflow, Client.segment, Client.seq, Client.offset, Client.seqAt_add]

theorem forward_fin (hentry : s.entry = some entry)
    (hflow : s.flows[entry.flow]? = some flow) (push : Bool) :
    s.forward c.port (c.segment (.fin 0 push)) =
      { s with
        entry := some { entry with clientNextSeq := c.seqAt (c.stream.length + 1) }
        sent := s.sent ++ [⟨flow.serverSeq, c.seqAt (c.stream.length + 1), tcpAck, []⟩]
        pc := .remove } := by
  have hnext : c.seqAt (c.stream.length + 1) = c.seqAt c.stream.length + 1 := (c.seqAt_add _ 1).symm
  simp [State.forward, hentry, hflow, Client.segment, Client.seq, Client.offset, hnext]

namespace One

section

variable (h : One c s flow)
include h

theorem lookup (hentry : s.entry = some entry) : s.flows[entry.flow]? = some flow := by
  rw [h.entry entry hentry, h.flows]
  rfl

theorem acceptedLength (hentry : s.entry = some entry) :
    s.acceptedLength = flow.accepted.length := by
  simp [State.acceptedLength, hentry, h.lookup hentry]

theorem receive (part : Part) : One c { s with received := s.received ++ [part] } flow :=
  { h with
    arrived := h.arrived.mono (subset_append_left _ _)
    acks := fun packet hpacket =>
      (h.acks packet hpacket).mono (subset_append_left _ _) (prefix_refl _) h.accepted }

theorem dropEntry (hpc : s.pc = .idle) : One c { s with entry := none } flow :=
  { h with
    entry := fun _ hentry => nomatch hentry
    waits := fun hwaits => absurd hpc hwaits }

theorem data (hpc : s.pc = .idle) (hentry : s.entry = some entry) {offset len : ℕ} {push : Bool}
    (hoffset : offset = flow.accepted.length) :
    let payload := c.payload (.data offset len push)
    One c
      { s with
        entry := some { entry with clientNextSeq := c.seqAt (offset + payload.length) }
        flows := s.flows.set entry.flow { flow with accepted := flow.accepted ++ payload }
        sent := s.sent ++ [⟨flow.serverSeq, c.seqAt (offset + payload.length), tcpAck, []⟩]
        pc := .enqueue payload
        received := s.received ++ [.data offset len push] }
      { flow with accepted := flow.accepted ++ payload } := by
  intro payload
  have hzero := h.entry entry hentry
  have hsub : s.received ⊆ s.received ++ [.data offset len push] := subset_append_left _ _
  have hmore : flow.accepted ++ payload <+: c.stream := accepted_append h.accepted hoffset len push
  have hpending : s.pending = [] := by rw [State.pending, hpc]
  have htracks := h.tracks
  rw [hpending] at htracks
  constructor
  · rw [hzero, h.flows]
    rfl
  · rintro _ ⟨⟩
    exact hzero
  · exact fun _ hnone => nomatch hnone
  · exact hmore
  · rw [length_append]
    exact h.arrived.append hoffset len push
  · refine ⟨htracks.written.trans (prefix_append _ _), fun hlive => ?_, htracks.ack⟩
    have hbooks := htracks.books hlive
    show flow.written ++ (flow.phase.rest ++ (flow.queue.flatten ++ payload)) =
      flow.accepted ++ payload
    rw [← hbooks]
    simp
  · intro packet hpacket
    rcases mem_append.1 hpacket with hold | hnew
    · exact (h.acks packet hold).mono hsub (prefix_append _ _) hmore
    · rw [mem_singleton.1 hnew]
      refine ⟨_, rfl, .inl ?_⟩
      rw [length_append, hoffset]

theorem fin (hpc : s.pc = .idle) (hentry : s.entry = some entry) {push : Bool}
    (hlength : c.stream.length = flow.accepted.length) :
    One c
      { s with
        entry := some { entry with clientNextSeq := c.seqAt (c.stream.length + 1) }
        sent := s.sent ++ [⟨flow.serverSeq, c.seqAt (c.stream.length + 1), tcpAck, []⟩]
        pc := .remove
        received := s.received ++ [.fin 0 push] } flow := by
  have hsub : s.received ⊆ s.received ++ [.fin 0 push] := subset_append_left _ _
  have hpending : s.pending = [] := by rw [State.pending, hpc]
  have htracks := h.tracks
  rw [hpending] at htracks
  refine ⟨h.flows, ?_, ?_, h.accepted, h.arrived.mono hsub, htracks, ?_⟩
  · rintro _ ⟨⟩
    exact h.entry entry hentry
  · exact fun _ hnone => nomatch hnone
  · intro packet hpacket
    rcases mem_append.1 hpacket with hold | hnew
    · exact (h.acks packet hold).mono hsub (prefix_refl _) h.accepted
    · rw [mem_singleton.1 hnew]
      refine ⟨_, rfl, .inr ⟨rfl, h.accepted.eq_of_length hlength.symm, 0, push, by simp⟩⟩

theorem enqueue {payload : Bytes} (hpc : s.pc = .enqueue payload) (hentry : s.entry = some entry)
    (hlive : flow.phase.isEnded = false) :
    One c
      { s with
        flows := s.flows.set entry.flow { flow with queue := flow.queue ++ [payload] }
        pc := .idle }
      { flow with queue := flow.queue ++ [payload] } := by
  have hbooks := h.tracks.books hlive
  rw [State.pending, hpc] at hbooks
  refine { h with flows := ?_, waits := fun hwaits => absurd rfl hwaits, tracks := ?_ }
  · rw [h.entry entry hentry, h.flows]
    rfl
  · refine Tracks.of_live ?_ (h.tracks.ack hlive)
    show flow.written ++ (flow.phase.rest ++ ((flow.queue ++ [payload]).flatten ++ [])) = _
    simpa using hbooks

theorem leave (hpc : s.pc = .remove ∨ flow.phase.isEnded = true) :
    One c { s with entry := none, pc := .idle } flow := by
  have htracks := h.tracks
  refine { h with
    entry := fun _ hentry => nomatch hentry
    waits := fun hwaits => absurd rfl hwaits
    tracks := ?_ }
  rcases hpc with hpc | hended
  · rwa [State.pending, hpc] at htracks
  · exact Tracks.of_ended hended htracks.written

theorem resume :
    ∃ flow', One c s.resume flow' ∧ flow'.phase = flow.phase ∧ flow'.written = flow.written ∧
      flow'.accepted = flow.accepted := by
  unfold State.resume
  cases hpc : s.pc with
  | idle => exact ⟨flow, h, rfl, rfl, rfl⟩
  | remove => exact ⟨flow, h.leave (.inl hpc), rfl, rfl, rfl⟩
  | enqueue payload =>
    cases hentry : s.entry with
    | none => exact absurd hentry (h.waits (by rw [hpc]; exact nofun))
    | some entry =>
      simp only [h.lookup hentry]
      split_ifs with hended hroom
      · exact ⟨flow, h.leave (.inr hended), rfl, rfl, rfl⟩
      · have henqueue := h.enqueue hpc hentry (Bool.eq_false_of_not_eq_true hended)
        rw [hentry] at henqueue
        exact ⟨_, henqueue, rfl, rfl, rfl⟩
      · exact ⟨flow, h, rfl, rfl, rfl⟩

theorem flowStep {act : Act} (hdoes : flow.Does act result) :
    One c { s with flows := s.flows.set 0 result.1, sent := s.sent ++ result.2 } result.1 := by
  obtain ⟨htracks, hwithin, haccepted⟩ := h.tracks.does hdoes
  refine ⟨?_, h.entry, h.waits, ?_, ?_, htracks, ?_⟩
  · rw [h.flows]
    rfl
  · rw [haccepted]
    exact h.accepted
  · rw [haccepted]
    exact h.arrived
  · intro packet hpacket
    rw [haccepted]
    rcases mem_append.1 hpacket with hold | hnew
    · exact h.acks packet hold
    · obtain ⟨k, hk, hack⟩ := hwithin packet hnew
      exact ⟨k, hack, .inl hk⟩

end

end One

theorem spawn_one (hflows : s.flows = []) (hpc : s.pc = .idle) (hsent : s.sent = []) :
    ∃ flow, One c
      { s.spawn c.port (c.segment .syn) with received := s.received ++ [.syn] } flow ∧
        flow.phase = .connecting := by
  refine ⟨⟨.connecting, [], [], c.isn + 1, (serverIsn ^^^ c.port.toUInt32) + 1, []⟩, ?_, rfl⟩
  constructor
  · simp [State.spawn, hflows, Client.segment, Client.seq]
  · rintro _ ⟨⟩
    rw [hflows]
    rfl
  · exact fun hwaits => absurd hpc hwaits
  · exact nil_prefix
  · exact fun i hi => absurd hi (Nat.not_lt_zero i)
  · refine Tracks.of_live ?_ c.seqAt_zero.symm
    show [] ++ ([] ++ ([] ++ s.pending)) = []
    rw [State.pending, hpc]
    rfl
  · intro packet hpacket
    rw [show (s.spawn c.port (c.segment .syn)).sent = s.sent ++ [_] from rfl, hsent] at hpacket
    rw [mem_singleton.1 hpacket]
    exact ⟨0, c.seqAt_zero.symm, .inl (Nat.zero_le _)⟩

def Settled (flow : Flow) : Prop := flow.phase = .ended false → flow.written = flow.accepted

theorem One.segment (h : One c s flow) (hpc : s.pc = .idle) {part : Part}
    (hin : InOrder c s (.segment part)) :
    ∃ flow', One c { s.forward c.port (c.segment part) with received := s.received ++ [part] }
      flow' ∧ (Drained c s (.segment part) → Settled flow → Settled flow') := by
  cases hentry : s.entry with
  | none =>
    have hpart : part ≠ .syn := by
      rintro rfl
      rcases hin with hflows | hsome
      · cases h.flows.symm.trans hflows
      · exact hsome hentry
    rw [forward_none hentry hpart]
    exact ⟨flow, h.receive part, fun _ => id⟩
  | some entry =>
    have hflow := h.lookup hentry
    have hsome : s.entry ≠ none := by rw [hentry]; exact nofun
    cases part with
    | syn =>
      have hagain : s.forward c.port (c.segment .syn) = s := by
        simp [State.forward, hentry, hflow, Client.segment, Client.payload]
      rw [hagain]
      exact ⟨flow, h.receive .syn, fun _ => id⟩
    | rst seq =>
      rw [forward_rst]
      exact ⟨flow, (h.dropEntry hpc).receive (.rst seq), fun _ => id⟩
    | fin len push =>
      obtain ⟨rfl, hlength⟩ := hin hsome
      rw [h.acceptedLength hentry] at hlength
      rw [forward_fin hentry hflow]
      exact ⟨flow, h.fin hpc hentry hlength, fun _ => id⟩
    | data offset len push =>
      rw [forward_data hentry hflow]
      split_ifs with hempty
      · exact ⟨flow, h.receive _, fun _ => id⟩
      · have hoffset := hin hsome hempty
        rw [h.acceptedLength hentry] at hoffset
        refine ⟨_, h.data hpc hentry hoffset, fun hdrained _ hended => ?_⟩
        exact absurd hended (hdrained hempty hsome flow (by simp [h.flows]))

theorem step_segment (hpc : s.pc = .idle) (part : Part) :
    step c s (.segment part) =
      { s.forward c.port (c.segment part) with received := s.received ++ [part] } := by
  simp only [step, if_pos hpc]

theorem step_flow_none {i : ℕ} (hflow : s.flows[i]? = none) (act : Act) :
    step c s (.flow i act) = s := by
  simp only [step, hflow]

theorem step_flow_some {i : ℕ} (hflow : s.flows[i]? = some flow) (act : Act) :
    step c s (.flow i act) =
      let result := flow.step (s.entry.map TcpEntry.flow ≠ some i) act
      { s with flows := s.flows.set i result.1, sent := s.sent ++ result.2 } := by
  simp only [step, hflow]

theorem One.step (h : One c s flow) {event : Event} (hin : InOrder c s event) :
    ∃ flow', One c (step c s event) flow' ∧
      (Drained c s event → Settled flow → Settled flow') := by
  cases event with
  | segment part =>
    by_cases hpc : s.pc = .idle
    · rw [step_segment hpc]
      exact h.segment hpc hin
    · refine ⟨flow, ?_, fun _ => id⟩
      simp only [Tun.step, if_neg hpc]
      exact h
  | resume =>
    obtain ⟨flow', hone, hphase, hwritten, haccepted⟩ := h.resume
    refine ⟨flow', hone, fun _ hsettled hended => ?_⟩
    rw [hwritten, haccepted]
    exact hsettled (hphase.symm.trans hended)
  | evict =>
    refine ⟨flow, ?_, fun _ => id⟩
    unfold Tun.step
    split_ifs with hpc
    · exact h.dropEntry hpc
    · exact h
  | flow i act =>
    cases i with
    | succ i =>
      have hnone : s.flows[i + 1]? = none := by
        rw [h.flows]
        rfl
      rw [step_flow_none hnone]
      exact ⟨flow, h, fun _ => id⟩
    | zero =>
      have hsome : s.flows[0]? = some flow := by
        rw [h.flows]
        rfl
      rw [step_flow_some hsome]
      have hdoes := flow.step_does (s.entry.map TcpEntry.flow ≠ some 0) act
      refine ⟨_, h.flowStep hdoes, fun hdrained hsettled => ?_⟩
      refine h.tracks.settled hdoes (fun hact => ?_) hsettled
      rcases hact with rfl | rfl <;> exact hdrained flow (by simp [h.flows])

/-- What holds along a run whose segments come in order; `settled` where the task ends with nothing
to be written. -/
inductive Ordered (c : Client) (settled : Prop) (s : State) : Prop
  | fresh (flows : s.flows = []) (entry : s.entry = none) (pc : s.pc = .idle) (sent : s.sent = [])
  | one (flow : Flow) (h : One c s flow) (hsettled : settled → Settled flow)

theorem Ordered.step {settled : Prop} (h : Ordered c settled s) {event : Event}
    (hin : InOrder c s event) (hdrained : settled → Drained c s event) :
    Ordered c settled (step c s event) := by
  cases h with
  | one flow h hsettled =>
    obtain ⟨flow', hone, hkeeps⟩ := h.step hin
    exact .one flow' hone fun hs => hkeeps (hdrained hs) (hsettled hs)
  | fresh hflows hentry hpc hsent =>
    cases event with
    | segment part =>
      rw [step_segment hpc]
      by_cases hpart : part = .syn
      · subst hpart
        rw [forward_syn hentry]
        obtain ⟨flow, hone, hphase⟩ := spawn_one hflows hpc hsent
        refine .one flow hone fun _ hended => ?_
        cases hphase.symm.trans hended
      · rw [forward_none hentry hpart]
        exact .fresh hflows hentry hpc hsent
    | resume =>
      have hsame : s.resume = s := by simp only [State.resume, hpc]
      show Ordered c settled s.resume
      rw [hsame]
      exact .fresh hflows hentry hpc hsent
    | evict =>
      unfold Tun.step
      rw [if_pos hpc]
      exact .fresh hflows rfl hpc hsent
    | flow i act =>
      rw [step_flow_none (by rw [hflows]; rfl)]
      exact .fresh hflows hentry hpc hsent

theorem run_ordered (c : Client) (settled : Prop) {events : List Event}
    (h : Meets (fun s event => InOrder c s event ∧ (settled → Drained c s event)) (step c)
      .start events) : Ordered c settled (run c events) :=
  invariant_of_meets (fun _ _ hordered hok => hordered.step hok.1 hok.2)
    (.fresh rfl rfl rfl rfl) h

/-! ### What the client can rely on -/

/-- Only bytes that have arrived without a gap are acknowledged. -/
def Client.AckBound (c : Client) (parts : List Part) (ack : UInt32) : Prop :=
  ∃ k, ack = c.seqAt k ∧ (c.Contiguous parts k ∨
    (k = c.stream.length + 1 ∧ c.Contiguous parts c.stream.length ∧
      ∃ len push, .fin len push ∈ parts))

/-- Only bytes that were written to the server are acknowledged. -/
def Client.AckWritten (c : Client) (written : Bytes) (ack : UInt32) : Prop :=
  ∃ k, ack = c.seqAt k ∧ (k ≤ written.length ∨
    (k = c.stream.length + 1 ∧ written = c.stream))

theorem Acked.ackBound
    (harrived : c.Contiguous parts accepted.length) (h : Acked c parts accepted ack) :
    c.AckBound parts ack := by
  obtain ⟨k, hk, hle | ⟨hfin, hall, hmem⟩⟩ := h
  · exact ⟨k, hk, .inl fun i hi => harrived i (lt_of_lt_of_le hi hle)⟩
  · rw [hall] at harrived
    exact ⟨k, hk, .inr ⟨hfin, harrived, hmem⟩⟩

theorem Acked.ackWritten (h : Acked c parts accepted ack) : c.AckWritten accepted ack := by
  obtain ⟨k, hk, hle | ⟨hfin, hall, -⟩⟩ := h
  · exact ⟨k, hk, .inl hle⟩
  · exact ⟨k, hk, .inr ⟨hfin, hall⟩⟩

/-- **Segments in order are bridged.**  If the segments of a client come in order, then the bytes
written to a SOCKS stream are a prefix of what it sends and no acknowledgement is ahead of what has
arrived; and if a task ends without an RST only when nothing is left to be written for it, then
everything that was acknowledged has been written. -/
theorem tunTcp_inOrder (c : Client) (events : List Event)
    (h : Meets (InOrder c) (step c) .start events) :
    (∀ flow ∈ (run c events).flows, flow.written <+: c.stream) ∧
      (∀ packet ∈ (run c events).sent, c.AckBound (run c events).received packet.ack) ∧
        (Meets (Drained c) (step c) .start events →
          ∀ flow ∈ (run c events).flows, flow.phase = .ended false →
            flow.written = flow.accepted ∧
              ∀ packet ∈ (run c events).sent, c.AckWritten flow.written packet.ack) := by
  have hordered := run_ordered c _ (h.and_imp id)
  generalize run c events = s at hordered ⊢
  cases hordered with
  | fresh hflows hentry hpc hsent =>
    rw [hflows, hsent]
    exact ⟨nofun, nofun, nofun⟩
  | one flow h hsettled =>
    have honly (flow' : Flow) (hflow : flow' ∈ s.flows) : flow' = flow := by
      rw [h.flows] at hflow
      exact mem_singleton.1 hflow
    refine ⟨fun flow' hflow => ?_, fun packet hpacket => ?_, fun hdrained flow' hflow hended => ?_⟩
    · rw [honly flow' hflow]
      exact h.tracks.written.trans h.accepted
    · exact (h.acks packet hpacket).ackBound h.arrived
    · cases honly flow' hflow
      have hall := hsettled hdrained hended
      refine ⟨hall, fun packet hpacket => ?_⟩
      rw [hall]
      exact (h.acks packet hpacket).ackWritten

/-! ### Segments in order, and others -/

def client : Client := ⟨100, 4000, [1, 2]⟩

def opening : List Event := [.segment .syn, .flow 0 .connected]

def bridged (part : Part) (len : ℕ) : List Event :=
  [.segment part, .resume, .flow 0 .recv, .flow 0 (.wrote len)]

def closing (len : ℕ) : List Event := [.segment (.fin len false), .resume, .flow 0 .cancelled]

def orderly : List Event :=
  opening ++ bridged (.data 0 1 false) 1 ++ bridged (.data 1 1 true) 1 ++ closing 0

def swapped : List Event :=
  opening ++ bridged (.data 1 1 false) 1 ++ bridged (.data 0 1 false) 1

def repeated : List Event :=
  opening ++ bridged (.data 0 1 false) 1 ++ bridged (.data 0 1 false) 1

def gap : List Event := [.segment .syn, .flow 0 .connected, .segment (.data 1 1 false)]

def dataInFin : List Event := opening ++ closing 2

def cancelledEarly : List Event :=
  .segment .syn :: .flow 0 .connected :: .segment (.data 0 2 true) :: .resume :: closing 0

theorem tunTcp_inOrder_orderly :
    Meets (InOrder client) (step client) .start orderly ∧
      Meets (Drained client) (step client) .start orderly ∧
        (∀ flow ∈ (run client orderly).flows, flow.phase = .ended false ∧
          flow.written = client.stream) ∧
        ∀ packet ∈ (run client orderly).sent,
          client.AckBound (run client orderly).received packet.ack := by
  have hin : Meets (InOrder client) (step client) .start orderly := by decide +kernel
  have hdrained : Meets (Drained client) (step client) .start orderly := by decide +kernel
  exact ⟨hin, hdrained, by decide +kernel, (tunTcp_inOrder client orderly hin).2.1⟩

/-- **Segments that do not come in order are bridged as they come.**  Bytes are written in the order
in which they arrive, as often as they arrive, and are acknowledged although others are missing;
those of a FIN are acknowledged and dropped; and those that wait when the FIN comes are dropped if
the task looks at the cancellation first. -/
theorem tunTcp_misordered :
    ((run client swapped).flows.map Flow.written = [[2, 1]] ∧ ¬[2, 1] <+: client.stream) ∧
    ((run client repeated).flows.map Flow.written = [[1, 1]] ∧ ¬[1, 1] <+: client.stream) ∧
    (∃ packet ∈ (run client gap).sent,
      ¬client.AckBound (run client gap).received packet.ack) ∧
    ((run client dataInFin).flows.map (fun flow => (flow.phase, flow.written)) =
        [(.ended false, [])] ∧
      ∃ packet ∈ (run client dataInFin).sent, ¬client.AckWritten [] packet.ack) ∧
    (Meets (InOrder client) (step client) .start cancelledEarly ∧
      (run client cancelledEarly).flows.map (fun flow => (flow.phase, flow.written)) =
        [(.ended false, [])] ∧
      ∃ packet ∈ (run client cancelledEarly).sent, ¬client.AckWritten [] packet.ack) := by
  have hnotWritten (ack : UInt32) (hack : ack ≠ client.seqAt 0) : ¬client.AckWritten [] ack := by
    rintro ⟨k, hk, hle | ⟨_, hall⟩⟩
    · obtain rfl : k = 0 := Nat.le_zero.1 hle
      exact hack hk
    · exact absurd hall (by decide)
  have hmissing : ¬client.Arrived (run client gap).received 0 := by
    unfold Arrived
    decide +kernel
  have hahead : ¬client.AckBound (run client gap).received (client.seqAt 2) := by
    rintro ⟨_ | k, hk, hcontiguous | ⟨_, hcontiguous, _⟩⟩
    · exact absurd hk (by decide)
    · exact hmissing (hcontiguous 0 (by decide))
    · exact hmissing (hcontiguous 0 (Nat.succ_pos k))
    · exact hmissing (hcontiguous 0 (by decide))
  refine ⟨⟨by decide +kernel, by decide⟩, ⟨by decide +kernel, by decide⟩, ?_,
    ⟨by decide +kernel, ?_⟩, by decide +kernel, by decide +kernel, ?_⟩
  · exact ⟨⟨0x42570fa2, client.seqAt 2, tcpAck, []⟩, by decide +kernel, hahead⟩
  · exact ⟨⟨0x42570fa2, client.seqAt 1, tcpAck, []⟩, by decide +kernel, hnotWritten _ (by decide)⟩
  · exact ⟨⟨0x42570fa2, client.seqAt 2, tcpAck, []⟩, by decide +kernel, hnotWritten _ (by decide)⟩

end Blackwire.Tun
