import Blackwire.Mkcp.Segment

/-!
# The mKCP engine

`Kcp` of `mkcp/kcp.rs`: one end of a conversation.  It cuts messages into segments, numbers and
sends them, sends them again until they are acknowledged, and puts the segments that arrive back
together.

Arithmetic on the fixed-width fields wraps around, as it does in a release build.
-/

namespace Blackwire.Mkcp

def rtoNdl : UInt32 := 30
def rtoMin : UInt32 := 100
def rtoDef : UInt32 := 200
def rtoMax : UInt32 := 60000
def wndSnd : UInt16 := 32
def wndRcv : UInt16 := 128
def threshMin : UInt16 := 2
def threshInit : UInt16 := 2
def probeInit : UInt32 := 7000
def probeLimit : UInt32 := 120000
def deadLink : UInt32 := 20
def mtu : ℕ := 1400

structure Kcp where
  conv : UInt32
  mss : UInt32
  state : Int
  sndUna : UInt32
  sndNxt : UInt32
  rcvNxt : UInt32
  ssthresh : UInt16
  rxRttval : UInt32
  rxSrtt : UInt32
  rxRto : UInt32
  rxMinrto : UInt32
  sndWnd : UInt16
  rcvWnd : UInt16
  rmtWnd : UInt16
  cwnd : UInt16
  probe : UInt32
  current : UInt32
  tsFlush : UInt32
  xmit : UInt32
  nodelay : Bool
  updated : Bool
  tsProbe : UInt32
  probeWait : UInt32
  deadLink : UInt32
  incr : UInt32
  sndQueue : List Segment
  rcvQueue : List Segment
  sndBuf : List Segment
  rcvBuf : List Segment
  acklist : List (UInt32 × UInt32)
  fastresend : UInt32
  nocwnd : Bool

namespace Kcp

def new (conv : UInt32) : Kcp where
  conv := conv
  mss := UInt32.ofNat (mtu - overhead)
  state := 0
  sndUna := 0
  sndNxt := 0
  rcvNxt := 0
  ssthresh := threshInit
  rxRttval := 0
  rxSrtt := 0
  rxRto := rtoDef
  rxMinrto := rtoMin
  sndWnd := wndSnd
  rcvWnd := wndRcv
  rmtWnd := wndRcv
  cwnd := 0
  probe := 0
  current := 0
  tsFlush := 100
  xmit := 0
  nodelay := false
  updated := false
  tsProbe := 0
  probeWait := 0
  deadLink := Mkcp.deadLink
  incr := 0
  sndQueue := []
  rcvQueue := []
  sndBuf := []
  rcvBuf := []
  acklist := []
  fastresend := 0
  nocwnd := false

def setNodelay (nodelay : Bool) (k : Kcp) : Kcp :=
  { k with nodelay := nodelay, rxMinrto := if nodelay then rtoNdl else rtoMin }

def setWndsize (snd rcv : UInt16) (k : Kcp) : Kcp :=
  { k with
    sndWnd := if snd > 0 then snd else k.sndWnd
    rcvWnd := if rcv > 0 then rcv else k.rcvWnd }

def update (current : UInt32) (k : Kcp) : Kcp :=
  { k with
    current := current
    updated := true
    tsFlush := if k.updated then k.tsFlush else current }

/-! ### Messages -/

/-- The fragments of a message from an offset on: the countdown and the bytes of each one; `count`
are still to come. -/
def fragmentLoop (mss : ℕ) (buf : Bytes) : ℕ → ℕ → List (UInt8 × Bytes)
  | 0, _ => []
  | count + 1, offset =>
    let size := min (buf.length - offset) mss
    (UInt8.ofNat count, (buf.drop offset).take size) :: fragmentLoop mss buf count (offset + size)

def send (buf : Bytes) (k : Kcp) : Int × Kcp :=
  if buf = [] then (-1, k)
  else
    let mss := k.mss.toNat
    let count := (buf.length + mss - 1) / mss
    if count ≥ 256 then (-2, k)
    else
      let segs := (fragmentLoop mss buf count 0).map fun fragment =>
        { Segment.new k.conv cmdPush with frg := fragment.1, data := fragment.2 }
      (0, { k with sndQueue := k.sndQueue ++ segs })

variable (k : Kcp) (sn : UInt32) (seg : Segment)

/-- `peeksize`, with `none` for `-1`.  For a message of more than one fragment it is the size of
everything in the queue. -/
def peeksize : Option ℕ :=
  match k.rcvQueue with
  | [] => none
  | seg :: _ =>
    if seg.frg = 0 then some seg.data.length
    else if k.rcvQueue.length < (seg.frg + 1).toNat then none
    else some (k.rcvQueue.map fun s => s.data.length).sum

def popMessage : List Segment → Bytes × List Segment
  | [] => ([], [])
  | seg :: queue =>
    if seg.frg = 0 then (seg.data, queue)
    else
      let (data, queue) := popMessage queue
      (seg.data ++ data, queue)

def moveLoop (rcvWnd : ℕ) : List Segment → List Segment → UInt32 →
    List Segment × List Segment × UInt32
  | [], queue, rcvNxt => ([], queue, rcvNxt)
  | seg :: buf, queue, rcvNxt =>
    if seg.sn = rcvNxt ∧ queue.length < rcvWnd then
      moveLoop rcvWnd buf (queue ++ [seg]) (rcvNxt + 1)
    else (seg :: buf, queue, rcvNxt)

/-- The segments that are next in order go to the queue. -/
def moveRcvBuf : Kcp :=
  let (buf, queue, rcvNxt) := moveLoop k.rcvWnd.toNat k.rcvBuf k.rcvQueue k.rcvNxt
  { k with rcvBuf := buf, rcvQueue := queue, rcvNxt := rcvNxt }

/-- `as i32` of a length. -/
def toI32 (n : ℕ) : Int := (n : Int).bmod (2 ^ 32)

/-- `recv` into a buffer of a given length: the bytes written, or the negative return value. -/
def recv (bufLen : ℕ) (k : Kcp) : Except Int Bytes × Kcp :=
  if k.rcvQueue = [] then (.error (-1), k)
  else
    match k.peeksize with
    | none => (.error (-1), k)
    | some peeksz =>
      if peeksz > toI32 bufLen then (.error (-2), k)
      else
        let recover := k.rcvQueue.length ≥ k.rcvWnd.toNat
        let (data, queue) := popMessage k.rcvQueue
        let k := moveRcvBuf { k with rcvQueue := queue }
        (.ok data,
          { k with
            probe := if recover ∧ k.rcvQueue.length < k.rcvWnd.toNat then k.probe ||| 2
              else k.probe })

/-! ### What arrives -/

def parseUna (una : UInt32) (k : Kcp) : Kcp :=
  { k with sndBuf := k.sndBuf.filter fun s => s.sn ≥ una }

def shrinkBuf : Kcp :=
  { k with sndUna := (k.sndBuf.head?.map Segment.sn).getD k.sndNxt }

def updateAck (rtt : UInt32) (k : Kcp) : Kcp :=
  let delta := if rtt < k.rxSrtt then k.rxSrtt - rtt else rtt - k.rxSrtt
  let rxRttval := if k.rxSrtt = 0 then rtt / 2 else (3 * k.rxRttval + delta) / 4
  let rxSrtt := if k.rxSrtt = 0 then rtt else max ((7 * k.rxSrtt + rtt) / 8) 1
  { k with
    rxRttval := rxRttval
    rxSrtt := rxSrtt
    rxRto := min (max (rxSrtt + 4 * rxRttval) k.rxMinrto) rtoMax }

def parseAck (k : Kcp) : Kcp :=
  { k with
    sndBuf := if sn < k.sndUna ∨ sn ≥ k.sndNxt then k.sndBuf
      else k.sndBuf.filter fun s => s.sn ≠ sn }

def fastackLoop : List Segment → List Segment
  | [] => []
  | seg :: segs =>
    if seg.sn < sn then { seg with fastack := seg.fastack + 1 } :: fastackLoop segs
    else seg :: segs

def parseFastack (k : Kcp) : Kcp :=
  { k with
    sndBuf := if sn < k.sndUna ∨ sn ≥ k.sndNxt then k.sndBuf else fastackLoop sn k.sndBuf }

def insertPos (buf : List Segment) : ℕ :=
  match buf.reverse.findIdx? fun s => s.sn < sn with
  | none => 0
  | some i => buf.length - i

/-- A segment is kept if it is in the window and not there yet. -/
def parseData (k : Kcp) : Kcp :=
  if seg.sn ≥ k.rcvNxt + k.rcvWnd.toUInt32 ∨ seg.sn < k.rcvNxt then k
  else if k.rcvBuf.any fun s => s.sn = seg.sn then k
  else
    let pos := insertPos seg.sn k.rcvBuf
    moveRcvBuf { k with rcvBuf := k.rcvBuf.take pos ++ seg :: k.rcvBuf.drop pos }

/-- The body of the loop of `input`: what to do about one segment.  The greatest number of an
acknowledged segment is carried along. -/
def inputSegment (maxack : Option UInt32) (k : Kcp) : Except Int (Option UInt32) × Kcp :=
  if seg.conv ≠ k.conv then (.error (-1), k)
  else
    let k := shrinkBuf (parseUna seg.una { k with rmtWnd := seg.wnd })
    if seg.cmd = cmdAck then
      let k := shrinkBuf (parseAck seg.sn (updateAck (k.current - seg.ts) k))
      (.ok (if maxack.all fun m => seg.sn > m then some seg.sn else maxack), k)
    else if seg.cmd = cmdPush then
      if seg.sn < k.rcvNxt + k.rcvWnd.toUInt32 then
        let k := { k with acklist := k.acklist ++ [(seg.sn, seg.ts)] }
        (.ok maxack, if seg.sn ≥ k.rcvNxt then parseData seg k else k)
      else (.ok maxack, k)
    else if seg.cmd = cmdWask then (.ok maxack, { k with probe := k.probe ||| 2 })
    else if seg.cmd = cmdWins then (.ok maxack, k)
    else (.error (-3), k)

/-- The loop of `input`.  Each segment has at least one byte, so the length of the datagram is
enough fuel. -/
def inputLoop : ℕ → Bytes → Option UInt32 → Kcp → Except Int (Option UInt32) × Kcp
  | 0, _, maxack, k => (.ok maxack, k)
  | fuel + 1, cursor, maxack, k =>
    if cursor = [] then (.ok maxack, k)
    else
      match Segment.decode cursor with
      | none => (.error (-1), k)
      | some (seg, cursor) =>
        match inputSegment seg maxack k with
        | (.error e, k) => (.error e, k)
        | (.ok maxack, k) => inputLoop fuel cursor maxack k

def openWindow (prevUna : UInt32) (k : Kcp) : Kcp :=
  if k.sndUna > prevUna ∧ k.cwnd < k.rmtWnd then
    let incr := if k.incr < k.mss then k.mss else k.incr
    let grown := incr + ((k.mss * k.mss) / incr + k.mss / 16)
    let (cwnd, incr) :=
      if k.cwnd.toUInt32 < k.ssthresh.toUInt32 then (k.cwnd + 1, k.incr + k.mss)
      else (if (k.cwnd.toUInt32 + 1) * k.mss ≤ grown then k.cwnd + 1 else k.cwnd, grown)
    { k with
      cwnd := if cwnd > k.rmtWnd then k.rmtWnd else cwnd
      incr := if cwnd > k.rmtWnd then k.rmtWnd.toUInt32 * k.mss else incr }
  else k

/-- The segments of a datagram, one after the other; a wrong one ends the call. -/
def input (data : Bytes) (k : Kcp) : Int × Kcp :=
  let prevUna := k.sndUna
  match inputLoop (data.length + 1) data none k with
  | (.error e, k) => (e, k)
  | (.ok maxack, k) =>
    let k := match maxack with
      | some sn => parseFastack sn k
      | none => k
    (0, openWindow prevUna k)

/-! ### What is sent -/

def wndUnused : UInt16 :=
  let len := UInt16.ofNat k.rcvQueue.length
  if len ≤ k.rcvWnd then k.rcvWnd - len else 0

def makeCtrl (cmd : UInt8) (k : Kcp) : Segment :=
  { Segment.new k.conv cmd with wnd := k.wndUnused, una := k.rcvNxt }

def ackSegments : List Segment :=
  k.acklist.map fun ack =>
    { Segment.new k.conv cmdAck with
      wnd := k.wndUnused, ts := ack.2, sn := ack.1, una := k.rcvNxt }

def probeWindow : Kcp :=
  if k.rmtWnd = 0 then
    if k.probeWait = 0 then
      { k with probeWait := probeInit, tsProbe := k.current + probeInit }
    else if k.current ≥ k.tsProbe then
      let wait := if k.probeWait < probeInit then probeInit else k.probeWait
      let wait := min (wait + wait / 2) probeLimit
      { k with probeWait := wait, tsProbe := k.current + wait, probe := k.probe ||| 1 }
    else k
  else { k with tsProbe := 0, probeWait := 0 }

def probeSegments : List Segment :=
  (if k.probe &&& 1 ≠ 0 then [k.makeCtrl cmdWask] else []) ++
    (if k.probe &&& 2 ≠ 0 then [k.makeCtrl cmdWins] else [])

def sendWindow : UInt16 :=
  let c := min k.sndWnd k.rmtWnd
  if k.nocwnd then c else min c k.cwnd

def numberSegment : Segment :=
  { seg with
    conv := k.conv, cmd := cmdPush, wnd := k.wndUnused, ts := k.current, sn := sn, una := k.rcvNxt
    resendts := k.current, rto := k.rxRto, xmit := 0 }

/-- The loop of `flush` that numbers segments of the queue, as many as the window allows: the queue,
the buffer, and the next number. -/
def numberLoop (limit : UInt32) : List Segment → List Segment → UInt32 →
    List Segment × List Segment × UInt32
  | [], buf, sndNxt => ([], buf, sndNxt)
  | seg :: queue, buf, sndNxt =>
    if sndNxt < limit then
      numberLoop limit queue (buf ++ [numberSegment k sndNxt seg]) (sndNxt + 1)
    else (seg :: queue, buf, sndNxt)

def fillBuf : Kcp :=
  let limit := k.sndUna + k.sendWindow.toUInt32
  let (queue, buf, sndNxt) := numberLoop k limit k.sndQueue k.sndBuf k.sndNxt
  { k with sndQueue := queue, sndBuf := buf, sndNxt := sndNxt }

inductive Reason
  | first
  | timeout
  | fast
  deriving DecidableEq

def resent : UInt32 :=
  if k.fastresend > 0 then k.fastresend else UInt32.ofNat (2 ^ 32 - 1)

def rtomin : UInt32 := if k.nodelay then 0 else k.rxRto >>> 3

def schedule : Segment × Option Reason :=
  if seg.xmit = 0 then
    ({ seg with
        xmit := seg.xmit + 1, rto := k.rxRto, resendts := k.current + k.rxRto + k.rtomin },
      some .first)
  else if k.current ≥ seg.resendts then
    let rto := seg.rto + if k.nodelay then k.rxRto / 2 else max k.rxRto seg.rto
    ({ seg with xmit := seg.xmit + 1, rto := rto, resendts := k.current + rto }, some .timeout)
  else if seg.fastack ≥ k.resent ∧ seg.xmit ≤ k.fastresend then
    ({ seg with xmit := seg.xmit + 1, fastack := 0, resendts := k.current + seg.rto }, some .fast)
  else (seg, none)

/-- The body of the loop of `flush` over the buffer: the segment, and whether it is sent. -/
def resendSegment : Segment × Option Reason :=
  match schedule k seg with
  | (seg, none) => (seg, none)
  | (seg, some reason) =>
    ({ seg with ts := k.current, wnd := k.wndUnused, una := k.rcvNxt }, some reason)

def adjustWindow (cwnd : UInt16) (change lost : Bool) : Kcp :=
  let ssthresh := if change then max ((k.sndNxt - k.sndUna) / 2).toUInt16 threshMin else k.ssthresh
  let cwnd₁ := if change then ssthresh + k.resent.toUInt16 else k.cwnd
  let incr := if change then cwnd₁.toUInt32 * k.mss else k.incr
  let cwnd₂ := if lost then 1 else cwnd₁
  { k with
    ssthresh := if lost then max (cwnd / 2) threshMin else ssthresh
    cwnd := if cwnd₂ < 1 then 1 else cwnd₂
    incr := if lost ∨ cwnd₂ < 1 then k.mss else incr }

/-- Acknowledgements, probes, new segments, and those that are due again. -/
def flush : List Bytes × Kcp :=
  if k.updated = false then ([], k)
  else
    let acks := k.ackSegments
    let k := probeWindow { k with acklist := [] }
    let probes := k.probeSegments
    let k := { k with probe := 0 }
    let cwnd := k.sendWindow
    let k := fillBuf k
    let scheduled := k.sndBuf.map (resendSegment k)
    let sends := scheduled.filterMap fun entry => entry.2.map fun _ => entry.1
    let k := { k with
      sndBuf := scheduled.map Prod.fst
      xmit := k.xmit + UInt32.ofNat (scheduled.countP fun entry => entry.2 = some .timeout)
      state := if sends.any fun seg => seg.xmit ≥ k.deadLink then -1 else k.state }
    ((acks ++ probes ++ sends).map Segment.encode,
      adjustWindow k cwnd (scheduled.any fun entry => entry.2 = some .fast)
        (scheduled.any fun entry => entry.2 = some .timeout))

end Kcp

end Blackwire.Mkcp
