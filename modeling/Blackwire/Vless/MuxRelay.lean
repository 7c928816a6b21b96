import Mathlib.Data.List.AList
import Blackwire.Lib.Run
import Blackwire.Vless.MuxFrame

/-!
# The Mux.Cool relay

`relay_mux_cool` of `vless/mux.rs` and the reader tasks it spawns: `mux_upstream_to_client`,
`mux_udp_to_client` and `mux_xudp_to_client`.  One task reads the client's frames; every `New` frame
opens an upstream and spawns a task that turns what it reads from the upstream into `Keep` frames.

The model is a machine whose inputs are the moves of the tasks: between two awaits of one task any
other task may move.

An upstream and its reader task are created together, so one number names both.
-/

namespace Blackwire.Vless

open AsyncIO AsyncIO.ReadM

/-! ### Reading frames -/

section ReadFrame

variable {σ : Type} [AsyncRead σ]

def readPayload (option : UInt8) : ReadM σ ProxyError (Option Bytes) :=
  if option &&& optData ≠ 0 then do
    let dataLen ← readU16
    if dataLen.toNat > maxDataLen then
      fail (.protocol ("mux: invalid payload length " ++ toString dataLen.toNat))
    else do
      let data ← readVec dataLen.toNat
      pure (some data)
  else pure none

def readMuxFrame : ReadM σ ProxyError (FrameMetadata × Option Bytes) := do
  let metaLen ← readU16
  if metaLen.toNat > maxMetaLen then
    fail (.protocol ("mux: invalid metadata length " ++ toString metaLen.toNat))
  else do
    let metaBuf ← readVec metaLen.toNat
    let metadata ← ofExcept (parseMetadata metaBuf)
    let payload ← readPayload metadata.option
    pure (metadata, payload)

end ReadFrame

def isXudpMetadata (m : FrameMetadata) : Bool :=
  m.sessionId = xudpSessionId && (m.target.map (·.1) == some .udp) &&
    (m.status == .keep || (m.status == .new && m.globalId.isSome))

namespace MuxRelay

/-! ### Reader tasks -/

/-- Which of the three reader functions a task runs: `mux_upstream_to_client`, `mux_udp_to_client`
or `mux_xudp_to_client`. -/
inductive ReaderKind
  | upstream
  | udp
  | xudp

def ReaderKind.bufLen : ReaderKind → ℕ
  | .upstream => 16 * 1024
  | .udp => 65535
  | .xudp => 65535

inductive ReaderPhase
  | lock
  | read
  | sendKeep (peer : Address) (chunk : Bytes)
  /-- `write_mux_frame` of a `Keep` frame: the bytes that are still to be written. -/
  | writeKeep (rest : Bytes)
  | sendEnd
  | writeEnd (rest : Bytes)
  | done

inductive Holder
  | relay
  | reader
  deriving DecidableEq

structure Reader where
  sessionId : UInt16
  kind : ReaderKind
  phase : ReaderPhase
  running : Bool
  aborted : Bool
  lock : Option Holder

def ReaderKind.start : ReaderKind → ReaderPhase
  | .upstream => .lock
  | .udp => .read
  | .xudp => .read

def Reader.spawned (sessionId : UInt16) (kind : ReaderKind) : Reader :=
  { sessionId, kind, phase := kind.start, running := false, aborted := false, lock := none }

variable (r : Reader) (peer : Address) {σ : Type}

def Reader.keepKind : FrameKind :=
  match r.kind with
  | .xudp => .keepUdp r.sessionId peer
  | _ => .keep r.sessionId

def Reader.keepFrame (chunk : Bytes) : Frame :=
  ⟨r.keepKind peer, optData, some chunk⟩

def Reader.endFrame : Frame := ⟨.end_ r.sessionId, 0, none⟩

def Reader.afterRead (chunk : Bytes) : ReaderPhase :=
  if chunk = [] then .sendEnd
  else
    match (r.keepKind peer).encode optData with
    | .error _ => .sendEnd
    | .ok _ => .sendKeep peer chunk

/-- The task can still execute code: it has not ended, and it is not stopped by `abort`. -/
def Reader.live : Bool :=
  match r.phase with
  | .done => false
  | _ => r.running || !r.aborted

/-! ### The relay task -/

inductive IoOp
  | bind (what : String)
  | connectOutbound (dest : Address)
  | connectUdp
  | resolve (dest : Address)
  | send (k : ℕ) (what : String) (data : Bytes)
  | writeAll (k : ℕ) (data : Bytes)
  | shutdown (k : ℕ)

/-- An error of an awaited operation: as a `ProxyError`, and as text.  There is no text when
`lookup_host` succeeds and finds no address. -/
structure Failure where
  error : ProxyError
  text : Option String

def IoOp.mapErr (e : Failure) : IoOp → ProxyError
  | .bind what => .transport (what ++ ": " ++ e.text.getD "")
  | .connectUdp => .transport ("mux UDP connect: " ++ e.text.getD "")
  | .resolve dest =>
    let name := match dest with
      | .domain name _ => name
      | _ => ""
    .dnsResolutionFailed (match e.text with
      | some text => name ++ ": " ++ text
      | none => name)
  | .send _ what _ => .transport (what ++ ": " ++ e.text.getD "")
  | _ => e.error

/-- How an operation ends when the system answers `answer`: an IP address needs no lookup. -/
def IoOp.result (answer : Except Failure Unit) (op : IoOp) : Except ProxyError Unit :=
  match op with
  | .resolve (.ipv4 _ _) => .ok ()
  | .resolve (.ipv6 _ _) => .ok ()
  | op => answer.mapError fun e => op.mapErr e

inductive Target
  | tcp
  | udp (dest : Address)
  | xudp (globalId : Octets 8)

def Target.readerKind : Target → ReaderKind
  | .tcp => .upstream
  | .udp _ => .udp
  | .xudp _ => .xudp

inductive Op
  | await (op : IoOp)
  | attempt (op : IoOp)
  | lock (k : ℕ)
  | unlock (k : ℕ)
  | spawn (sessionId : UInt16) (target : Target)
  | activate (globalId : Octets 8)
  | endSession (sessionId : UInt16)
  | endUdp (sessionId : UInt16)
  | endXudp

inductive Event
  | opened (sessionId : UInt16) (k : ℕ)
  | wrote (k : ℕ) (data : Bytes)
  | read (k : ℕ) (chunk : Bytes)
  | sent (frame : Frame)

inductive Phase
  | running (ops : List Op)
  | returned (result : Except ProxyError Unit)

structure Relay (σ : Type) where
  client : σ
  phase : Phase
  sessions : AList fun _ : UInt16 => ℕ
  udpSessions : AList fun _ : UInt16 => ℕ × Address
  xudpSessions : AList fun _ : Octets 8 => ℕ
  activeXudp : Option (Octets 8)
  readers : List Reader
  muxWriter : Option ℕ
  wire : Bytes
  log : List Event

def Relay.init (client : σ) : Relay σ where
  client := client
  phase := .running []
  sessions := ∅
  udpSessions := ∅
  xudpSessions := ∅
  activeXudp := none
  readers := []
  muxWriter := none
  wire := []
  log := []

namespace Relay

variable (s : Relay σ) (k : ℕ) (m : FrameMetadata) (answer : Except Failure Unit)

def setReader (r : Reader) : Relay σ :=
  { s with readers := s.readers.set k r }

def abort : Relay σ :=
  { s with readers := s.readers.modify k fun r => { r with aborted := true } }

def returned (result : Except ProxyError Unit) : Relay σ :=
  { s with
    phase := .returned result
    readers := s.readers.map fun r => if r.lock = some .relay then { r with lock := none } else r }

def finish : Relay σ :=
  let tasks := s.sessions.entries.map (·.2) ++ s.udpSessions.entries.map (·.2.1) ++
    s.xudpSessions.entries.map (·.2)
  (tasks.foldl abort s).returned (.ok ())

def withData (payload : Option Bytes) (ops : Bytes → List Op) : List Op :=
  match payload with
  | some data => if data = [] then [] else ops data
  | none => []

/-- A `New` frame: connect, send its data, and spawn the reader. -/
def handleNew (payload : Option Bytes) : Except ProxyError (Relay σ × List Op) :=
  let k := s.readers.length
  match isXudpMetadata m, m.target, m.globalId with
  | true, some (_, dest), some globalId =>
    let s := match s.xudpSessions.lookup globalId with
      | some old => { s.abort old with xudpSessions := s.xudpSessions.erase globalId }
      | none => s
    .ok (s, [.await (.bind "xudp bind")] ++
      withData payload (fun data =>
        [.await (.resolve dest), .await (.send k "xudp UDP send" data)]) ++
      [.spawn m.sessionId (.xudp globalId), .activate globalId])
  | _, some (.tcp, dest), _ =>
    .ok (s, [.await (.connectOutbound dest)] ++
      withData payload (fun data => [.await (.writeAll k data)]) ++
      [.spawn m.sessionId .tcp])
  | _, some (.udp, dest), _ =>
    .ok (s, [.await (.bind "mux UDP bind"), .await (.resolve dest), .await .connectUdp] ++
      withData payload (fun data => [.await (.send k "mux UDP send" data)]) ++
      [.spawn m.sessionId (.udp dest)])
  | _, none, _ => .error (.protocol "mux: New without target")

def handleKeep (payload : Option Bytes) : List Op :=
  match m.target with
  | some (.udp, dest) =>
    if m.sessionId = xudpSessionId then
      match s.activeXudp.bind fun globalId => s.xudpSessions.lookup globalId with
      | some k => withData payload fun data =>
          [.await (.resolve dest), .await (.send k "xudp UDP send" data)]
      | none => []
    else
      match s.udpSessions.lookup m.sessionId with
      | some (k, sessionDest) => withData payload fun data =>
          if dest = sessionDest then [.await (.send k "mux UDP send" data)]
          else [.await (.resolve dest), .await (.send k "mux UDP send" data)]
      | none => []
  | _ =>
    match s.sessions.lookup m.sessionId, s.udpSessions.lookup m.sessionId with
    | some k, _ => withData payload fun data => [.lock k, .await (.writeAll k data), .unlock k]
    | none, some (k, _) => withData payload fun data => [.await (.send k "mux UDP send" data)]
    | none, none => []

def handleEnd (payload : Option Bytes) : List Op :=
  (withData payload fun data =>
    match s.sessions.lookup m.sessionId, s.udpSessions.lookup m.sessionId with
    | some k, _ => [.lock k, .attempt (.writeAll k data), .unlock k]
    | none, some (k, _) => [.attempt (.send k "" data)]
    | none, none => []) ++
  [.endSession m.sessionId, .endUdp m.sessionId] ++
  if m.sessionId = xudpSessionId then [.endXudp] else []

/-- One frame of the client, by its status. -/
def handleFrame (payload : Option Bytes) : Except ProxyError (Relay σ × List Op) :=
  match m.status with
  | .new => s.handleNew m payload
  | .keep => .ok (s, s.handleKeep m payload)
  | .end_ => .ok (s, s.handleEnd m payload)
  | .keepAlive => .ok (s, [])

def nextFrame [AsyncRead σ] (s : Relay σ) : Relay σ :=
  match s.phase with
  | .running [] =>
    let (result, client) := readMuxFrame false s.client
    let s := { s with client := client }
    match result with
    | .ok (m, payload) =>
      match s.handleFrame m payload with
      | .ok (s, ops) => { s with phase := .running ops }
      | .error e => s.returned (.error e)
    | .error (.protocol msg) => s.returned (.error (.protocol msg))
    | .error _ => s.finish
  | _ => s

def logWrite : IoOp → Relay σ
  | .send k _ data => { s with log := s.log ++ [.wrote k data] }
  | .writeAll k data => { s with log := s.log ++ [.wrote k data] }
  | _ => s

def insertSession (sessionId : UInt16) (k : ℕ) : Target → Relay σ
  | .tcp => { s with sessions := s.sessions.insert sessionId k }
  | .udp dest => { s with udpSessions := s.udpSessions.insert sessionId (k, dest) }
  | .xudp globalId => { s with xudpSessions := s.xudpSessions.insert globalId k }

def spawn (sessionId : UInt16) (target : Target) : Relay σ :=
  let k := s.readers.length
  { s.insertSession sessionId k target with
    readers := s.readers ++ [Reader.spawned sessionId target.readerKind]
    log := s.log ++ [.opened sessionId k] }

def exec (rest : List Op) : Op → Relay σ
  | .await op =>
    match op.result answer with
    | .ok () => { s.logWrite op with phase := .running rest }
    | .error e => s.returned (.error e)
  | .attempt op =>
    match op.result answer with
    | .ok () => { s.logWrite op with phase := .running rest }
    | .error _ => { s with phase := .running rest }
  | .lock k =>
    match s.readers[k]? with
    | some r =>
      if r.lock = none then
        { s.setReader k { r with lock := some .relay } with phase := .running rest }
      else s
    | none => s
  | .unlock k =>
    { s with
      phase := .running rest
      readers := s.readers.modify k fun r => { r with lock := none } }
  | .spawn sessionId target => { s.spawn sessionId target with phase := .running rest }
  | .activate globalId => { s with phase := .running rest, activeXudp := some globalId }
  | .endSession sessionId =>
    match s.sessions.lookup sessionId with
    | some k =>
      { s.abort k with
        phase := .running ([.lock k, .attempt (.shutdown k), .unlock k] ++ rest)
        sessions := s.sessions.erase sessionId }
    | none => { s with phase := .running rest }
  | .endUdp sessionId =>
    match s.udpSessions.lookup sessionId with
    | some (k, _) =>
      { s.abort k with phase := .running rest, udpSessions := s.udpSessions.erase sessionId }
    | none => { s with phase := .running rest }
  | .endXudp =>
    match s.activeXudp with
    | some globalId =>
      match s.xudpSessions.lookup globalId with
      | some k =>
        { s.abort k with
          phase := .running rest
          activeXudp := none
          xudpSessions := s.xudpSessions.erase globalId }
      | none => { s with phase := .running rest, activeXudp := none }
    | none => { s with phase := .running rest }

def nextOp : Relay σ :=
  match s.phase with
  | .running (op :: rest) => s.exec answer rest op
  | _ => s

/-! ### Moves of the reader tasks -/

/-- `mux_writer.lock()` is granted to task `k`, which calls `write_mux_frame` with `frame`; `failed`
is the phase after an error. -/
def beginWrite (r : Reader) (frame : Frame) (next : Bytes → ReaderPhase)
    (failed : ReaderPhase) : Relay σ :=
  if s.muxWriter = none then
    match frame.encode with
    | .ok bytes =>
      { s.setReader k { r with phase := next bytes } with
        muxWriter := some k
        log := s.log ++ [.sent frame] }
    | .error _ => s.setReader k { r with phase := failed }
  else s

def wrote (k n : ℕ) (r : Reader) (rest : Bytes) (next : Bytes → ReaderPhase) : Relay σ :=
  if 0 < n ∧ n ≤ rest.length then
    { s.setReader k { r with phase := next (rest.drop n) } with wire := s.wire ++ rest.take n }
  else s

def endWrite (r : Reader) (next : ReaderPhase) : Relay σ :=
  { s.setReader k { r with phase := next } with muxWriter := none }

end Relay

inductive ReaderInput
  | poll
  | park
  | cancel
  | locked
  /-- The read returns a chunk; the empty chunk stands for the end or an error. -/
  | received (peer : Address) (chunk : Bytes)
  | wrote (n : ℕ)
  | flushed
  | writeFailed

namespace Relay

variable (s : Relay σ) (k : ℕ) (r : Reader)

def poll : Relay σ :=
  if r.live then s.setReader k { r with running := true } else s

def cancel : Relay σ :=
  if r.aborted ∧ ¬ r.running then
    { s.setReader k { r with
        phase := .done
        lock := if r.lock = some .reader then none else r.lock } with
      muxWriter := if s.muxWriter = some k then none else s.muxWriter }
  else s

def locked : Relay σ :=
  match r.phase with
  | .lock =>
    if r.lock = none then s.setReader k { r with phase := .read, lock := some .reader } else s
  | .sendKeep peer chunk => s.beginWrite k r (r.keepFrame peer chunk) .writeKeep .sendEnd
  | .sendEnd => s.beginWrite k r r.endFrame .writeEnd .done
  | _ => s

def received (peer : Address) (chunk : Bytes) : Relay σ :=
  match r.phase with
  | .read =>
    if chunk.length ≤ r.kind.bufLen then
      { s.setReader k { r with phase := r.afterRead peer chunk, lock := none } with
        log := if chunk = [] then s.log else s.log ++ [.read k chunk] }
    else s
  | _ => s

def readerStep : ReaderInput → Relay σ
  | .poll => s.poll k r
  | .park => s.setReader k { r with running := false }
  | .cancel => s.cancel k r
  | .locked => if r.running then s.locked k r else s
  | .received peer chunk => if r.running then s.received k r peer chunk else s
  | .wrote n =>
    match r.running, r.phase with
    | true, .writeKeep rest => s.wrote k n r rest .writeKeep
    | true, .writeEnd rest => s.wrote k n r rest .writeEnd
    | _, _ => s
  | .flushed =>
    match r.running, r.phase with
    | true, .writeKeep [] => s.endWrite k r r.kind.start
    | true, .writeEnd [] => s.endWrite k r .done
    | _, _ => s
  | .writeFailed =>
    match r.running, r.phase with
    | true, .writeKeep _ => s.endWrite k r .sendEnd
    | true, .writeEnd _ => s.endWrite k r .done
    | _, _ => s

end Relay

inductive Input
  | frame
  | relay (answer : Except Failure Unit)
  | reader (k : ℕ) (input : ReaderInput)

def step [AsyncRead σ] (s : Relay σ) : Input → Relay σ
  | .frame => s.nextFrame
  | .relay answer => s.nextOp answer
  | .reader k input =>
    match s.readers[k]? with
    | some r => s.readerStep k r input
    | none => s

end MuxRelay

end Blackwire.Vless
