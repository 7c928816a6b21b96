import Blackwire.Mkcp.Delivery

/-!
# Limits of an mKCP engine

What `recv` answers when several messages are queued, and which messages pass from `poll_write` of
`mkcp/stream.rs` through the driver of `mkcp.rs` to its peer.
-/

namespace Blackwire.Mkcp

open Kcp List

variable {k : Kcp} {msg : Bytes} {bufLen : ℕ} {queue segs : List Segment} {seg : Segment}

def total (segs : List Segment) : ℕ := (segs.map fun seg => seg.data.length).sum

/-! ### The answers of `recv` -/

/-- The message at the head of a queue, if it is complete: its fragments count down to zero. -/
def nextMessage : List Segment → Option (List Segment)
  | [] => none
  | seg :: queue =>
    let segs := (seg :: queue).take (seg.frg.toNat + 1)
    if segs.map (fun seg => seg.frg.toNat) = (List.range (seg.frg.toNat + 1)).reverse then
      some segs
    else none

/-- `-2` is returned only if the next message alone is longer than the buffer, and `-1` only if
there is no complete message; and a complete message that fits the buffer is returned and taken from
the queue. -/
def Answers (k : Kcp) (bufLen : ℕ) : Prop :=
  ((k.recv bufLen).1 = .error (-2) →
    ∃ segs, nextMessage k.rcvQueue = some segs ∧ bufLen < total segs) ∧
  ((k.recv bufLen).1 = .error (-1) → nextMessage k.rcvQueue = none) ∧
  ∀ segs, nextMessage k.rcvQueue = some segs → total segs ≤ bufLen →
    (k.recv bufLen).1 = .ok (segs.flatMap Segment.data) ∧
      (k.recv bufLen).2.rcvQueue =
        (moveRcvBuf { k with rcvQueue := k.rcvQueue.drop segs.length }).rcvQueue

variable {pending : List Bytes} {max : ℕ}

end Blackwire.Mkcp
