import Blackwire.Transport.TunTcp

/-!
# The runtime of the TUN device

`packet_loop` and `run_platform` of `tun/runtime.rs`, and `Drop` of `Instance`.

* The loop is the only one that takes packets from the channel to the device, and it puts packets
  into this channel itself, where `TcpBridgeTable::forward` answers a segment.
* The routes are removed behind the loop, in a task that `Drop` aborts.
-/

namespace Blackwire.Tun

open List Function

/-! ### The channel to the device -/

def writeChanCap : ℕ := 1024

/-- Who sends to the device: the loop, or a response reader or flow task. -/
inductive Sender
  | loop
  | task
  deriving DecidableEq

/-- A bounded channel: the places that are taken, and the senders that wait for one in turn. -/
structure WriteChannel where
  taken : ℕ
  waiting : List Sender

namespace WriteChannel

/-- A sender gets a place if there is one and nobody waits before it. -/
def send (channel : WriteChannel) (sender : Sender) : WriteChannel :=
  if channel.taken < writeChanCap ∧ channel.waiting = [] then
    { channel with taken := channel.taken + 1 }
  else { channel with waiting := channel.waiting ++ [sender] }

/-- A packet is taken, and its place is given to the first sender that waits. -/
def recv (channel : WriteChannel) : WriteChannel :=
  match channel.waiting with
  | [] => { channel with taken := channel.taken - 1 }
  | _ :: waiting => { channel with waiting }

/-- A send that need not wait. -/
def Free (channel : WriteChannel) : Prop :=
  channel.taken < writeChanCap ∧ channel.waiting = []

end WriteChannel

/-! ### The packet loop -/

/-- Where the loop is: at its `select!`, in `send_control` for a connection, or in the send of its
payload. -/
inductive LoopPc (κ : Type)
  | select
  | control (key : κ)
  | payload (key : κ)
  deriving DecidableEq

/-- The loop, with its channel and the bridge of each connection. -/
structure PacketLoop (κ : Type) where
  pc : LoopPc κ
  channel : WriteChannel
  bridge : κ → State

/-- A segment read from the device, a packet that the loop takes for the device, a send that it
polls again, an idle connection that it evicts; a packet sent by a response reader, and an action of
a flow task. -/
inductive LoopEvent (κ : Type)
  | packet (key : κ) (port : UInt16) (segment : Segment)
  | drain
  | resume
  | evict (key : κ)
  | respond
  | flow (key : κ) (i : ℕ) (act : Act)

namespace PacketLoop

variable {κ : Type} [DecidableEq κ]

def start : PacketLoop κ := ⟨.select, ⟨0, []⟩, fun _ => .start⟩

variable (s : PacketLoop κ)

/-- `forward` behind `send_control`: the loop is back at its `select!` when the bridge is idle. -/
def goOn (key : κ) : PacketLoop κ :=
  let bridge := (s.bridge key).resume
  { s with
    bridge := update s.bridge key bridge
    pc := if bridge.pc = .idle then .select else .payload key }

/-- A poll of the loop, where it waits. -/
def resume : PacketLoop κ :=
  match s.pc with
  | .select => s
  | .control key => if .loop ∈ s.channel.waiting then s else s.goOn key
  | .payload key => s.goOn key

/-- `dispatch` of a segment: what `forward` sends goes through the channel. -/
def dispatch (key : κ) (port : UInt16) (segment : Segment) : PacketLoop κ :=
  let bridge := (s.bridge key).forward port segment
  let next := { s with bridge := update s.bridge key bridge }
  if bridge.sent = (s.bridge key).sent then next
  else resume { next with pc := .control key, channel := s.channel.send .loop }

/-- The packets of a flow task go through the channel. -/
def flowStep (key : κ) (i : ℕ) (act : Act) : PacketLoop κ :=
  match (s.bridge key).flows[i]? with
  | none => s
  | some flow =>
    let (flow, packets) := flow.step ((s.bridge key).entry.map TcpEntry.flow ≠ some i) act
    { s with
      bridge := update s.bridge key
        { s.bridge key with
          flows := (s.bridge key).flows.set i flow
          sent := (s.bridge key).sent ++ packets }
      channel := packets.foldl (fun channel _ => channel.send .task) s.channel }

/-- The loop reads, takes and evicts at its `select!` only. -/
def step : LoopEvent κ → PacketLoop κ
  | .packet key port segment => if s.pc = .select then s.dispatch key port segment else s
  | .drain => if s.pc = .select then { s with channel := s.channel.recv } else s
  | .resume => s.resume
  | .evict key =>
    if s.pc = .select then
      { s with bridge := update s.bridge key { s.bridge key with entry := none } }
    else s
  | .respond => { s with channel := s.channel.send .task }
  | .flow key i act => s.flowStep key i act

/-- `forward` answers the segment: a SYN of a new connection, or a FIN or data of an open one. -/
def Answered (bridge : State) (segment : Segment) : Prop :=
  has segment.flags tcpRst = false ∧
    match bridge.entry with
    | none => has segment.flags tcpSyn = true
    | some _ => has segment.flags tcpFin = true ∨ segment.payload ≠ []

/-- There is room for data in the queue of the flow, unless its task has ended. -/
def QueueFree (bridge : State) (segment : Segment) : Prop :=
  has segment.flags tcpFin = false → ∀ entry ∈ bridge.entry, ∀ flow ∈ bridge.flows[entry.flow]?,
    flow.phase.isEnded = false → flow.queue.length < flowChanCap

/-- What the loop sends for a segment finds room: in the channel to the device, and for data also in
the queue of its flow. -/
def HasRoom : LoopEvent κ → Prop
  | .packet key _ segment => Answered (s.bridge key) segment →
    s.channel.Free ∧ QueueFree (s.bridge key) segment
  | _ => True

variable {s}

/-- What `forward` does with a segment: it sends nothing and is done, or it answers. -/
theorem forward_cases {bridge : State} (port : UInt16) (segment : Segment)
    (hidle : bridge.pc = .idle) :
    ((bridge.forward port segment).sent = bridge.sent ∧
      (bridge.forward port segment).pc = .idle) ∨
    (Answered bridge segment ∧ (bridge.forward port segment).sent ≠ bridge.sent ∧
      (QueueFree bridge segment → (bridge.forward port segment).resume.pc = .idle)) := by
  unfold State.forward Answered
  by_cases hrst : has segment.flags tcpRst = true
  · exact .inl (by simp [hrst, hidle])
  rw [if_neg hrst]
  cases hentry : bridge.entry with
  | none =>
    by_cases hsyn : has segment.flags tcpSyn = true
    · exact .inr ⟨⟨by simpa using hrst, hsyn⟩, by simp [hsyn, State.spawn],
        by simp [hsyn, State.spawn, State.resume, hidle]⟩
    · exact .inl (by simp [hsyn, hidle])
  | some entry =>
    cases hflow : bridge.flows[entry.flow]? with
    | none => exact .inl (by simp [hflow, hidle])
    | some flow =>
      simp only [hflow]
      by_cases hfin : has segment.flags tcpFin = true
      · exact .inr ⟨⟨by simpa using hrst, .inl hfin⟩, by simp [hfin],
          by simp [hfin, State.resume]⟩
      by_cases hpayload : segment.payload = []
      · exact .inl (by simp [hfin, hpayload, hidle])
      · refine .inr ⟨⟨by simpa using hrst, .inr hpayload⟩, by simp [hfin, hpayload],
          fun hroom => ?_⟩
        have hlt := (List.getElem?_eq_some_iff.1 hflow).1
        have hqueue := hroom (by simpa using hfin) entry hentry flow hflow
        rw [if_neg hfin, if_neg hpayload]
        cases hended : flow.phase.isEnded with
        | true => simp [State.resume, getElem?_set_self hlt, hended]
        | false => simp [State.resume, getElem?_set_self hlt, hended, hqueue hended]

/-- The loop is at its `select!`, and no call of `forward` waits. -/
structure Idle (s : PacketLoop κ) : Prop where
  pc : s.pc = .select
  bridge : ∀ key, (s.bridge key).pc = .idle

theorem Idle.update (h : s.Idle) {key : κ} {bridge : State} (hbridge : bridge.pc = .idle)
    (channel : WriteChannel) : Idle ⟨.select, channel, Function.update s.bridge key bridge⟩ :=
  ⟨rfl, (forall_update_iff s.bridge fun _ bridge => bridge.pc = .idle).2
    ⟨hbridge, fun key _ => h.bridge key⟩⟩

theorem Idle.dispatch (h : s.Idle) {key : κ} {port : UInt16} {segment : Segment}
    (hroom : s.HasRoom (.packet key port segment)) : (s.dispatch key port segment).Idle := by
  unfold PacketLoop.dispatch
  rcases forward_cases port segment (h.bridge key) with ⟨hsent, hidle⟩ | ⟨hanswered, hsent, hidle⟩
  · simpa only [if_pos hsent, h.pc] using h.update hidle s.channel
  · obtain ⟨hfree, hqueue⟩ := hroom hanswered
    have hsend : s.channel.send .loop = ⟨s.channel.taken + 1, []⟩ := by
      rw [WriteChannel.send, if_pos (show _ ∧ _ from hfree), hfree.2]
    simp only [if_neg hsent, resume, hsend, not_mem_nil, if_false, goOn, update_self, update_idem,
      hidle hqueue, if_true]
    exact h.update (hidle hqueue) _

theorem Idle.step (h : s.Idle) {e : LoopEvent κ} (hroom : s.HasRoom e) : (s.step e).Idle := by
  cases e with
  | packet key port segment =>
    rw [PacketLoop.step, if_pos h.pc]
    exact h.dispatch hroom
  | drain =>
    rw [PacketLoop.step, if_pos h.pc]
    exact ⟨h.pc, h.bridge⟩
  | resume => simpa [PacketLoop.step, PacketLoop.resume, h.pc] using h
  | evict key =>
    rw [PacketLoop.step, if_pos h.pc, h.pc]
    refine h.update ?_ _
    exact h.bridge key
  | respond => exact ⟨h.pc, h.bridge⟩
  | flow key i act =>
    rw [PacketLoop.step, flowStep]
    split
    · exact h
    · rw [h.pc]
      refine h.update ?_ _
      exact h.bridge key

/-- **No deadlock.**  If what the loop sends finds room, then in every interleaving the loop can
take the next packet for the device. -/
theorem loop_drains {κ : Type} [DecidableEq κ] (es : List (LoopEvent κ))
    (h : Run.Meets HasRoom step start es) :
    ((es.foldl step start).step .drain).channel = (es.foldl step start).channel.recv := by
  have hidle := Run.invariant_of_meets (P := Idle) (fun _ _ h hroom => h.step hroom)
    ⟨rfl, fun _ => rfl⟩ h
  simp [step, hidle.pc]

def syn : Segment := ⟨0, tcpSyn, []⟩

/-- A SYN is answered behind the packet of a response reader. -/
theorem loop_drains_two :
    ((List.foldl step start [.respond, .packet () 80 syn]).step .drain).channel = ⟨1, []⟩ :=
  loop_drains [.respond, .packet () 80 syn]
    ⟨trivial, fun _ => ⟨⟨by decide, rfl⟩, fun _ _ => nofun⟩, trivial⟩

theorem foldl_respond {n : ℕ} (hn : n ≤ writeChanCap) :
    List.foldl step (start : PacketLoop κ) (replicate n .respond) =
      { start with channel := ⟨n, []⟩ } := by
  induction n with
  | zero => rfl
  | succ n ih =>
    rw [replicate_succ', foldl_append, ih (by omega)]
    show { start with channel := WriteChannel.send ⟨n, []⟩ .task } = _
    rw [WriteChannel.send, if_pos ⟨hn, rfl⟩]

theorem mem_waiting_send {channel : WriteChannel} (h : .loop ∈ channel.waiting) (sender : Sender) :
    .loop ∈ (channel.send sender).waiting := by
  unfold WriteChannel.send
  split_ifs
  · exact h
  · exact mem_append_left _ h

/-- While the loop waits for a place, nobody takes a packet from the channel. -/
theorem blocked_run {key : κ} (hpc : s.pc = .control key) (hwaits : .loop ∈ s.channel.waiting)
    (es : List (LoopEvent κ)) :
    (es.foldl step s).pc = .control key ∧ .loop ∈ (es.foldl step s).channel.waiting := by
  induction es generalizing s with
  | nil => exact ⟨hpc, hwaits⟩
  | cons e es ih =>
    have hstep : (s.step e).pc = .control key ∧ .loop ∈ (s.step e).channel.waiting := by
      cases e with
      | respond => exact ⟨hpc, mem_waiting_send hwaits .task⟩
      | flow key i act =>
        rw [step, flowStep]
        split
        · exact ⟨hpc, hwaits⟩
        · exact ⟨hpc, foldlRecOn (motive := fun c : WriteChannel => .loop ∈ c.waiting) _ _ hwaits
            fun _ h _ _ => mem_waiting_send h .task⟩
      | _ => simp [step, resume, hpc, hwaits]
    exact ih hstep.1 hstep.2

/-- Response readers have filled the channel, and a SYN has come. -/
def jammed : PacketLoop Unit :=
  List.foldl step start (replicate writeChanCap .respond ++ [.packet () 80 syn])

/-- The loop waits for a place in the full channel, and never takes a packet again. -/
theorem full_channel_blocks :
    jammed.channel = ⟨writeChanCap, [.loop]⟩ ∧
      ∀ es, (List.foldl step jammed es).pc = .control () := by
  rw [jammed, foldl_append, foldl_respond le_rfl]
  exact ⟨rfl, fun es => (blocked_run rfl (mem_singleton_self _) es).1⟩

end PacketLoop

/-! ### Route cleanup -/

/-- Where the task of `TunRuntime::run` is behind the setup. -/
inductive RoutePhase (κ : Type)
  | looping (loop : PacketLoop κ)
  | cleaning
  | ended

/-- The task, with the rules for which no command of the cleanup was started. -/
structure RouteTask (κ Rule : Type) where
  phase : RoutePhase κ
  rules : List Rule
  signalled : Bool
  aborted : Bool

/-- The two steps of `Drop`, an event of the loop, the arms that leave the loop (the end of the
device, or the signal), and a command of the cleanup. -/
inductive RouteEvent (κ : Type)
  | signal
  | abort
  | loop (e : LoopEvent κ)
  | leave (eof : Bool)
  | command

namespace RouteTask

variable {κ Rule : Type} [DecidableEq κ]

/-- The task behind `setup_runtime_routes`. -/
def start (rules : List Rule) : RouteTask κ Rule := ⟨.looping .start, rules, false, false⟩

variable (s : RouteTask κ Rule)

/-- The loop is left at its `select!` only, and the cleanup follows. -/
def leave (eof : Bool) : RouteTask κ Rule :=
  match s.phase with
  | .looping loop =>
    if loop.pc = .select ∧ (eof ∨ s.signalled) then { s with phase := .cleaning } else s
  | _ => s

/-- One command of `cleanup_runtime_routes`, or its end. -/
def command : RouteTask κ Rule :=
  match s.phase, s.rules with
  | .cleaning, _ :: rules => { s with rules }
  | .cleaning, [] => { s with phase := .ended }
  | _, _ => s

/-- A step of the loop. -/
def loopStep (e : LoopEvent κ) : RouteTask κ Rule :=
  match s.phase with
  | .looping loop => { s with phase := .looping (loop.step e) }
  | _ => s

/-- A task that was aborted is not polled again. -/
def step : RouteEvent κ → RouteTask κ Rule
  | .signal => { s with signalled := true }
  | .abort => { s with aborted := true }
  | .loop e => if s.aborted then s else s.loopStep e
  | .leave eof => if s.aborted then s else s.leave eof
  | .command => if s.aborted then s else s.command

/-- What the loop sends finds room. -/
def HasRoom : RouteEvent κ → Prop
  | .loop e => ∀ loop, s.phase = .looping loop → loop.HasRoom e
  | _ => True

/-- The events hold what `n` rules need: the loop is left, by the signal or the end of the device,
and the task is polled for each command. -/
def Awaits (n : ℕ) (es : List (RouteEvent κ)) : Prop :=
  .signal :: .leave false :: replicate n .command <+ es ∨ .leave true :: replicate n .command <+ es

/-- Each abort comes behind what the rules need. -/
def Patient (n : ℕ) (es : List (RouteEvent κ)) : Prop :=
  ∀ before after, es = before ++ .abort :: after → Awaits n before

/-- A task that is not aborted: its loop waits for nothing, and at most `n` rules are left. -/
structure Sound (n : ℕ) (s : RouteTask κ Rule) : Prop where
  idle : ∀ loop, s.phase = .looping loop → loop.Idle
  aborted : s.aborted = false
  rules : s.rules.length ≤ n
  ended : s.phase = .ended → s.rules = []

variable {s} {n : ℕ} {e : RouteEvent κ} {es : List (RouteEvent κ)}

omit [DecidableEq κ] in
theorem Sound.command (h : s.Sound n) : s.command.Sound n := by
  unfold RouteTask.command
  split
  · next hphase hrules =>
    have hle := h.rules
    rw [hrules, length_cons] at hle
    exact ⟨by simp [hphase], h.aborted, Nat.le_of_succ_le hle, by simp [hphase]⟩
  · next hrules => exact ⟨nofun, h.aborted, h.rules, fun _ => hrules⟩
  · exact h

theorem Sound.leave (h : s.Sound n) (eof : Bool) : (s.leave eof).Sound n := by
  unfold RouteTask.leave
  split
  · split_ifs
    · exact ⟨nofun, h.aborted, h.rules, nofun⟩
    · exact h
  · exact h

theorem Sound.step (h : s.Sound n) (hroom : s.HasRoom e) (he : e ≠ .abort) :
    (s.step e).Sound n := by
  cases e with
  | signal => exact ⟨h.idle, h.aborted, h.rules, h.ended⟩
  | abort => exact absurd rfl he
  | loop e =>
    rw [RouteTask.step, if_neg (by simp [h.aborted]), loopStep]
    cases hphase : s.phase with
    | looping loop =>
      exact ⟨fun _ heq => by cases heq; exact (h.idle loop hphase).step (hroom loop hphase),
        h.aborted, h.rules, nofun⟩
    | _ => exact h
  | leave eof => simpa [RouteTask.step, h.aborted] using h.leave eof
  | command => simpa [RouteTask.step, h.aborted] using h.command

/-- The loop is behind the task. -/
def Left (s : RouteTask κ Rule) : Prop := ∀ loop, s.phase ≠ .looping loop

theorem Left.step (h : s.Left) (e : RouteEvent κ) : (s.step e).Left := by
  unfold Left at h ⊢
  cases e <;> simp only [RouteTask.step, loopStep, leave, command] <;> repeat' split
  all_goals simp_all

theorem Sound.left (h : s.Sound n) {eof : Bool} (hleaves : eof ∨ s.signalled) :
    (s.step (.leave eof)).Left := by
  rw [RouteTask.step, if_neg (by simp [h.aborted]), RouteTask.leave]
  cases hphase : s.phase with
  | looping loop => simp [Left, (h.idle loop hphase).pc, hleaves]
  | _ => simp [Left, hphase]

omit [DecidableEq κ] in
theorem start_sound (rules : List Rule) : (start rules : RouteTask κ Rule).Sound rules.length :=
  ⟨fun _ heq => by cases heq; exact ⟨rfl, fun _ => rfl⟩, rfl, le_rfl, nofun⟩

/-- A SYN is answered, the task sees the signal and starts its command. -/
def orderly : List (RouteEvent Unit) :=
  [.loop (.packet () 80 PacketLoop.syn), .signal, .loop .drain, .leave false, .command]

end RouteTask

end Blackwire.Tun
