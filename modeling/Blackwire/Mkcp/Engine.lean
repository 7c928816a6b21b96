import Blackwire.Lib.Arq
import Blackwire.Mkcp.Message

/-!
# What the engine does to its queues

The engine is the sender of one direction and the receiver of the other one.  Its sending half are
`sndQueue`, `sndBuf` and `sndNxt`, its receiving half `rcvQueue`, `rcvBuf`, `rcvNxt` and `acklist`;
everything else is timing.

* `Evolves s r base k₀ k`: from `k₀` the engine has come to `k` by processing segments that tell the
  truth about the other side, which is the sender `s` and the receiver `r`;
* `flush_spec`: what `flush` sends.
-/

namespace Blackwire.Mkcp

open Arq List

def Segment.entry (seg : Segment) : ℕ × Piece := (seg.sn.toNat, seg.piece)

def Segment.key (seg : Segment) : UInt32 × UInt8 × ℕ × Piece := (seg.conv, seg.cmd, seg.entry)

open Segment

variable {seg : Segment}

namespace Kcp

def view (base : List Piece) (k : Kcp) : Receiver Piece :=
  ⟨base ++ k.rcvQueue.map piece, k.rcvBuf.map entry⟩

def halves (k : Kcp) : UInt32 × UInt32 × List Segment × UInt32 × List (UInt32 × UInt8 × ℕ × Piece) ×
    List Segment × List Segment × UInt32 × List (UInt32 × UInt32) :=
  (k.conv, k.mss, k.sndQueue, k.sndNxt, k.sndBuf.map key, k.rcvQueue, k.rcvBuf, k.rcvNxt,
    k.acklist)

/-- From `k₀` the engine has come to `k`: the other side holds everything that has left the buffer,
nothing that had arrived is lost, and what has arrived is what the other side has sent. -/
structure Evolves (s : Sender Piece) (r : Receiver Piece) (base : List Piece) (k₀ k : Kcp) :
    Prop where
  conv : k.conv = k₀.conv
  mss : k.mss = k₀.mss
  sndQueue : k.sndQueue = k₀.sndQueue
  sndNxt : k.sndNxt = k₀.sndNxt
  kept : ∀ e ∈ k.sndBuf.map key, e ∈ k₀.sndBuf.map key
  released : ∀ e ∈ k₀.sndBuf.map key, e ∈ k.sndBuf.map key ∨ r.Knows e.2.2.1
  linked : Linked s (k.view base)
  extended : (k₀.view base).Extends (k.view base)
  rcvNxt : k.rcvNxt.toNat = (k.view base).next
  acks : ∀ ack ∈ k.acklist, (k.view base).Knows ack.1.toNat

variable {s : Sender Piece} {r : Receiver Piece} {base : List Piece} {k₀ k k' : Kcp}

theorem Evolves.refl (hlinked : Linked s (k.view base))
    (hrcvNxt : k.rcvNxt.toNat = (k.view base).next)
    (hacks : ∀ ack ∈ k.acklist, (k.view base).Knows ack.1.toNat) : Evolves s r base k k where
  conv := rfl
  mss := rfl
  sndQueue := rfl
  sndNxt := rfl
  kept _ := id
  released _ := .inl
  linked := hlinked
  extended := .refl _
  rcvNxt := hrcvNxt
  acks := hacks

section

variable (h : Evolves s r base k₀ k)
include h

theorem Evolves.congr (hhalves : k'.halves = k.halves) : Evolves s r base k₀ k' := by
  simp only [halves, Prod.mk.injEq] at hhalves
  obtain ⟨hconv, hmss, hqueue, hnxt, hbuf, hrcvQueue, hrcvBuf, hrcvNxt, hacklist⟩ := hhalves
  have hview : k'.view base = k.view base := by rw [view, view, hrcvQueue, hrcvBuf]
  refine ⟨hconv.trans h.conv, hmss.trans h.mss, hqueue.trans h.sndQueue, hnxt.trans h.sndNxt, ?_,
    ?_, ?_, ?_, ?_, ?_⟩
  · rw [hbuf]
    exact h.kept
  · rw [hbuf]
    exact h.released
  · rw [hview]
    exact h.linked
  · rw [hview]
    exact h.extended
  · rw [hview, hrcvNxt]
    exact h.rcvNxt
  · rw [hview, hacklist]
    exact h.acks

/-! ### The sending half -/

theorem Evolves.filter (p : Segment → Bool)
    (hknows : ∀ seg ∈ k.sndBuf, p seg = false → r.Knows seg.sn.toNat) :
    Evolves s r base k₀ { k with sndBuf := k.sndBuf.filter p } where
  conv := h.conv
  mss := h.mss
  sndQueue := h.sndQueue
  sndNxt := h.sndNxt
  kept e he := by
    obtain ⟨seg, hseg, rfl⟩ := mem_map.1 he
    exact h.kept _ (mem_map_of_mem (mem_filter.1 hseg).1)
  released e he := by
    obtain hmem | hknown := h.released e he
    · obtain ⟨seg, hseg, rfl⟩ := mem_map.1 hmem
      cases hp : p seg with
      | false => exact .inr (hknows seg hseg hp)
      | true => exact .inl (mem_map_of_mem (mem_filter.2 ⟨hseg, hp⟩))
    · exact .inr hknown
  linked := h.linked
  extended := h.extended
  rcvNxt := h.rcvNxt
  acks := h.acks

theorem Evolves.parseUna {una : UInt32} (huna : una.toNat ≤ r.next) :
    Evolves s r base k₀ (parseUna una k) := by
  refine h.filter _ fun seg _ hold => Receiver.knows_of_lt ?_
  have hlt : seg.sn < una := UInt32.not_le.1 (of_decide_eq_false hold)
  exact (UInt32.lt_iff_toNat_lt.1 hlt).trans_le huna

theorem Evolves.parseAck {sn : UInt32} (hsn : r.Knows sn.toNat) :
    Evolves s r base k₀ (parseAck sn k) := by
  unfold Kcp.parseAck
  split_ifs
  · exact h
  · refine h.filter _ fun seg _ heq => ?_
    obtain rfl : seg.sn = sn := by simpa using heq
    exact hsn

theorem Evolves.shrinkBuf : Evolves s r base k₀ (shrinkBuf k) :=
  h.congr rfl

end

theorem map_key_fastackLoop (sn : UInt32) (segs : List Segment) :
    (fastackLoop sn segs).map key = segs.map key := by
  induction segs with
  | nil => rfl
  | cons seg segs ih =>
    rw [fastackLoop]
    split_ifs
    · rw [map_cons, ih]
      rfl
    · rfl

theorem halves_parseFastack (sn : UInt32) (k : Kcp) : (parseFastack sn k).halves = k.halves := by
  simp only [halves, parseFastack]
  split_ifs
  · rfl
  · rw [map_key_fastackLoop]

theorem halves_openWindow (prevUna : UInt32) (k : Kcp) :
    (openWindow prevUna k).halves = k.halves := by
  unfold openWindow
  split_ifs <;> rfl

/-! ### The receiving half -/

theorem toNat_succ {n : UInt32} (h : n.toNat + 1 < 2 ^ 32) : (n + 1).toNat = n.toNat + 1 := by
  exact Nat.mod_eq_of_lt h

theorem moveLoop_linked {rcvWnd : ℕ} {buf queue : List Segment} {rcvNxt : UInt32}
    (hs : s.numbered.length < 2 ^ 31) (h : Linked s ⟨base ++ queue.map piece, buf.map entry⟩)
    (hnxt : rcvNxt.toNat = (base ++ queue.map piece).length) {buf' queue' : List Segment}
    {rcvNxt' : UInt32} (hrun : moveLoop rcvWnd buf queue rcvNxt = (buf', queue', rcvNxt')) :
    Linked s ⟨base ++ queue'.map piece, buf'.map entry⟩ ∧
      Receiver.Extends ⟨base ++ queue.map piece, buf.map entry⟩
        ⟨base ++ queue'.map piece, buf'.map entry⟩ ∧
      rcvNxt'.toNat = (base ++ queue'.map piece).length := by
  induction buf generalizing queue rcvNxt with
  | nil =>
    obtain ⟨rfl, rfl, rfl⟩ : [] = buf' ∧ queue = queue' ∧ rcvNxt = rcvNxt' := by
      simpa [moveLoop] using hrun
    exact ⟨h, .refl _, hnxt⟩
  | cons seg buf ih =>
    rw [moveLoop] at hrun
    split_ifs at hrun with hmove
    · obtain ⟨hsn, -⟩ := hmove
      have hentry : seg.entry = ((base ++ queue.map piece).length, seg.piece) := by
        rw [← hnxt, ← hsn]
        rfl
      have hmem : ((base ++ queue.map piece).length, seg.piece) ∈
          (seg :: buf).map entry := by
        rw [← hentry]
        exact mem_cons_self
      have hall : ∀ e ∈ (seg :: buf).map entry,
          e = ((base ++ queue.map piece).length, seg.piece) ∨
            e ∈ buf.map entry := by
        rw [← hentry]
        exact fun e he => mem_cons.1 he
      obtain ⟨hlinked, hextends⟩ := h.take hmem (fun e he => mem_cons_of_mem _ he) hall
      have hqueue : base ++ queue.map piece ++ [seg.piece] =
          base ++ (queue ++ [seg]).map piece := by
        rw [map_append, append_assoc]
        rfl
      rw [hqueue] at hlinked hextends
      have hnext : (rcvNxt + 1).toNat = (base ++ (queue ++ [seg]).map piece).length := by
        -- no more pieces are taken than were numbered, so the next number does not wrap
        have hle := hlinked.taken.length_le
        rw [← hqueue, length_append, length_singleton] at hle ⊢
        rw [toNat_succ (by omega), hnxt]
      obtain ⟨hlinked', hextends', hnxt'⟩ := ih hlinked hnext hrun
      exact ⟨hlinked', hextends.trans hextends', hnxt'⟩
    · obtain ⟨rfl, rfl, rfl⟩ : seg :: buf = buf' ∧ queue = queue' ∧ rcvNxt = rcvNxt' := by
        simpa using hrun
      exact ⟨h, .refl _, hnxt⟩

section

variable (h : Evolves s r base k₀ k)
include h

theorem Evolves.moveRcvBuf (hs : s.numbered.length < 2 ^ 31) :
    Evolves s r base k₀ (moveRcvBuf k) := by
  rcases hrun : moveLoop k.rcvWnd.toNat k.rcvBuf k.rcvQueue k.rcvNxt with ⟨buf, queue, rcvNxt⟩
  obtain ⟨hlinked, hextends, hnxt⟩ := moveLoop_linked hs h.linked h.rcvNxt hrun
  have hmove : Kcp.moveRcvBuf k =
      { k with rcvBuf := buf, rcvQueue := queue, rcvNxt := rcvNxt } := by
    rw [Kcp.moveRcvBuf, hrun]
  rw [hmove]
  exact ⟨h.conv, h.mss, h.sndQueue, h.sndNxt, h.kept, h.released, hlinked,
    h.extended.trans hextends, hnxt, fun ack hack => hextends.knows (h.acks ack hack)⟩

theorem Evolves.insert (pos : ℕ) (hseg : s.Numbers seg.sn.toNat seg.piece) :
    Evolves s r base k₀ { k with rcvBuf := k.rcvBuf.take pos ++ seg :: k.rcvBuf.drop pos } := by
  have hmem : ∀ e, e ∈ (k.rcvBuf.take pos ++ seg :: k.rcvBuf.drop pos).map entry ↔
      e = seg.entry ∨ e ∈ k.rcvBuf.map entry := by
    intro e
    conv_rhs => rw [← take_append_drop pos k.rcvBuf]
    simp only [map_append, map_cons, mem_append, mem_cons]
    tauto
  have hextends : (k.view base).Extends
      ⟨(k.view base).taken,
        (k.rcvBuf.take pos ++ seg :: k.rcvBuf.drop pos).map entry⟩ :=
    ⟨prefix_rfl, fun i a hi => .inr ((hmem _).2 (.inr hi))⟩
  exact ⟨h.conv, h.mss, h.sndQueue, h.sndNxt, h.kept, h.released,
    h.linked.store hseg (fun e he => (hmem e).1 he) (fun e he => (hmem e).2 (.inr he)),
    h.extended.trans hextends, h.rcvNxt, fun ack hack => hextends.knows (h.acks ack hack)⟩

theorem Evolves.parseData (hs : s.numbered.length < 2 ^ 31)
    (hseg : s.Numbers seg.sn.toNat seg.piece) :
    Evolves s r base k₀ (parseData seg k) ∧
      (seg.sn < k.rcvNxt + k.rcvWnd.toUInt32 → k.rcvNxt ≤ seg.sn →
        ((Kcp.parseData seg k).view base).Knows seg.sn.toNat) := by
  unfold Kcp.parseData
  split_ifs with hwindow hstored
  · refine ⟨h, fun hlt hle => ?_⟩
    obtain hge | hlt' := hwindow
    · exact absurd hlt (UInt32.not_lt.2 hge)
    · exact absurd hle (UInt32.not_le.2 hlt')
  · refine ⟨h, fun _ _ => ?_⟩
    obtain ⟨old, hold, heq⟩ := any_eq_true.1 hstored
    rw [← of_decide_eq_true heq]
    exact ⟨old.piece, .inr (mem_map_of_mem hold)⟩
  · have hinsert := h.insert (insertPos seg.sn k.rcvBuf) hseg
    have hmove := hinsert.moveRcvBuf hs
    refine ⟨hmove, fun _ _ => ?_⟩
    -- the segment is in the buffer, and moving segments to the queue loses none
    have hin : seg.entry ∈ (k.rcvBuf.take (insertPos seg.sn k.rcvBuf) ++
        seg :: k.rcvBuf.drop (insertPos seg.sn k.rcvBuf)).map entry :=
      mem_map_of_mem (mem_append_right _ mem_cons_self)
    have hself := Evolves.refl (r := r) hinsert.linked hinsert.rcvNxt hinsert.acks
    exact (hself.moveRcvBuf hs).extended.knows ⟨seg.piece, .inr hin⟩

end

theorem parseData_acklist (seg : Segment) (k : Kcp) (acklist : List (UInt32 × UInt32)) :
    Kcp.parseData seg { k with acklist := acklist } =
      { Kcp.parseData seg k with acklist := acklist } := by
  unfold Kcp.parseData
  split_ifs <;> rfl

theorem Evolves.acknowledge (h : Evolves s r base k₀ k) {sn : UInt32} (ts : UInt32)
    (hsn : (k.view base).Knows sn.toNat) {acklist : List (UInt32 × UInt32)}
    (hacklist : ∀ ack ∈ acklist, ack = (sn, ts) ∨ ack ∈ k.acklist) :
    Evolves s r base k₀ { k with acklist := acklist } := by
  refine ⟨h.conv, h.mss, h.sndQueue, h.sndNxt, h.kept, h.released, h.linked, h.extended, h.rcvNxt,
    fun ack hack => ?_⟩
  obtain rfl | hmem := hacklist ack hack
  · exact hsn
  · exact h.acks ack hmem

theorem parseData_acks (seg : Segment) (k : Kcp) : (Kcp.parseData seg k).acklist = k.acklist := by
  unfold Kcp.parseData
  split_ifs <;> rfl

/-! ### One segment -/

structure Honest (s : Sender Piece) (r : Receiver Piece) (seg : Segment) : Prop where
  push : seg.cmd = cmdPush → s.Numbers seg.sn.toNat seg.piece
  ack : seg.cmd = cmdAck → r.Knows seg.sn.toNat
  una : seg.una.toNat ≤ r.next

theorem Evolves.inputSegment (h : Evolves s r base k₀ k) (hs : s.numbered.length < 2 ^ 31)
    (hseg : Honest s r seg) (maxack : Option UInt32) :
    Evolves s r base k₀ (inputSegment seg maxack k).2 := by
  unfold Kcp.inputSegment
  by_cases hconv : seg.conv ≠ k.conv
  · rw [if_pos hconv]
    exact h
  rw [if_neg hconv]
  -- the window and the cumulative acknowledgement of every segment
  have hwnd : Evolves s r base k₀ { k with rmtWnd := seg.wnd } := h.congr rfl
  have huna := (hwnd.parseUna hseg.una).shrinkBuf
  generalize Kcp.shrinkBuf (Kcp.parseUna seg.una { k with rmtWnd := seg.wnd }) = k at huna ⊢
  by_cases hack : seg.cmd = cmdAck
  · have hrtt : Evolves s r base k₀ (updateAck (k.current - seg.ts) k) := huna.congr rfl
    rw [if_pos hack]
    exact (hrtt.parseAck (hseg.ack hack)).shrinkBuf
  rw [if_neg hack]
  by_cases hpush : seg.cmd = cmdPush
  · rw [if_pos hpush]
    by_cases hwindow : seg.sn < k.rcvNxt + k.rcvWnd.toUInt32
    · dsimp only
      split_ifs with hnew
      · obtain ⟨hdata, hknows⟩ := huna.parseData hs (hseg.push hpush)
        rw [parseData_acklist]
        refine hdata.acknowledge seg.ts (hknows hwindow hnew) fun ack hmem => ?_
        rw [parseData_acks]
        simpa [or_comm] using hmem
      · -- an old segment, which has been taken
        have hlt := UInt32.lt_iff_toNat_lt.1 (UInt32.not_le.1 hnew)
        rw [huna.rcvNxt] at hlt
        refine huna.acknowledge seg.ts (Receiver.knows_of_lt hlt) fun ack hmem => ?_
        simpa [or_comm] using hmem
    · rw [if_neg hwindow]
      exact huna
  split_ifs
  · exact huna.congr rfl
  · exact huna
  · exact huna

theorem Evolves.input (h : Evolves s r base k₀ k) (hs : s.numbered.length < 2 ^ 31)
    (hlen : seg.data.length < 2 ^ 32) (hseg : Honest s r seg) :
    Evolves s r base k₀ (input seg.encode k).2 := by
  have hdecode : decode seg.encode = some (seg.arrived, []) := by
    simpa using decode_encode_append hlen []
  have hhonest : Honest s r seg.arrived := ⟨hseg.push, hseg.ack, hseg.una⟩
  have hstep := h.inputSegment hs hhonest none
  have hloop : inputLoop (seg.encode.length + 1) seg.encode none k =
      Kcp.inputSegment seg.arrived none k := by
    rw [inputLoop, hdecode]
    dsimp only
    rcases Kcp.inputSegment seg.arrived none k with ⟨e | maxack, k⟩
    · rfl
    · -- nothing is left of the datagram
      rfl
  unfold Kcp.input
  rw [hloop]
  -- fast acknowledgements and the congestion window are timing
  rcases hrun : Kcp.inputSegment seg.arrived none k with ⟨e | _ | sn, k⟩ <;> rw [hrun] at hstep
  · exact hstep
  · exact hstep.congr (halves_openWindow ..)
  · exact (hstep.congr (halves_parseFastack sn k)).congr (halves_openWindow ..)

/-! ### Sending -/

theorem numberLoop_spec (k : Kcp) (limit : UInt32) (queue buf : List Segment) (sndNxt : UInt32) :
    ∃ taken, queue = taken ++ (numberLoop k limit queue buf sndNxt).1 ∧
      (∀ seg ∈ (numberLoop k limit queue buf sndNxt).2.1,
        seg ∈ buf ∨ (seg.conv = k.conv ∧ seg.cmd = cmdPush)) ∧
      (sndNxt.toNat + taken.length < 2 ^ 32 →
        (numberLoop k limit queue buf sndNxt).2.1.map entry =
          buf.map entry ++ numberFrom sndNxt.toNat (taken.map piece) ∧
        (numberLoop k limit queue buf sndNxt).2.2.toNat = sndNxt.toNat + taken.length) := by
  induction queue generalizing buf sndNxt with
  | nil => exact ⟨[], rfl, fun seg hseg => .inl hseg, fun _ => ⟨(append_nil _).symm, rfl⟩⟩
  | cons seg queue ih =>
    rw [numberLoop]
    split_ifs with hlimit
    · obtain ⟨taken, hqueue, hmem, hnumber⟩ := ih (buf ++ [numberSegment k sndNxt seg]) (sndNxt + 1)
      refine ⟨seg :: taken, by rw [cons_append, ← hqueue], fun seg' hseg' => ?_, fun hlt => ?_⟩
      · obtain hbuf | hnew := hmem seg' hseg'
        · obtain hold | hlast := mem_append.1 hbuf
          · exact .inl hold
          · rw [mem_singleton.1 hlast]
            exact .inr ⟨rfl, rfl⟩
        · exact .inr hnew
      · rw [length_cons] at hlt
        have hnext : (sndNxt + 1).toNat = sndNxt.toNat + 1 := toNat_succ (by omega)
        obtain ⟨hentries, hnxt⟩ := hnumber (by omega)
        constructor
        · rw [hentries, hnext, map_append, append_assoc]
          rfl
        · rw [length_cons]
          omega
    · exact ⟨[], rfl, fun seg hseg => .inl hseg, fun _ => ⟨(append_nil _).symm, rfl⟩⟩

theorem key_resendSegment (k : Kcp) (seg : Segment) : (resendSegment k seg).1.key = seg.key := by
  have hkey : (schedule k seg).1.key = seg.key := by
    unfold schedule
    split_ifs <;> rfl
  unfold resendSegment
  rcases hrun : schedule k seg with ⟨seg', _ | reason⟩
  · rw [hrun] at hkey
    exact hkey
  · rw [hrun] at hkey
    exact hkey

variable {k : Kcp}

theorem una_resendSegment {reason : Reason} (h : (resendSegment k seg).2 = some reason) :
    (resendSegment k seg).1.una = k.rcvNxt := by
  unfold resendSegment at h ⊢
  rcases hrun : schedule k seg with ⟨seg', _ | reason'⟩
  · rw [hrun] at h
    cases h
  · rfl

def beforeFill (k : Kcp) : Kcp := { probeWindow { k with acklist := [] } with probe := 0 }

theorem halves_beforeFill (k : Kcp) : (beforeFill k).halves = { k with acklist := [] }.halves := by
  unfold beforeFill probeWindow
  split_ifs <;> rfl

theorem mem_probeSegments (h : seg ∈ k.probeSegments) :
    ∃ cmd, (cmd = cmdWask ∨ cmd = cmdWins) ∧ seg = k.makeCtrl cmd := by
  obtain hask | htell := mem_append.1 h
  · split_ifs at hask
    · exact ⟨cmdWask, .inl rfl, mem_singleton.1 hask⟩
    · cases hask
  · split_ifs at htell
    · exact ⟨cmdWins, .inr rfl, mem_singleton.1 htell⟩
    · cases htell

theorem mem_resend
    (h : seg ∈
      (k.sndBuf.map (resendSegment k)).filterMap fun entry => entry.2.map fun _ => entry.1) :
    seg.una = k.rcvNxt ∧ seg.key ∈ k.sndBuf.map key := by
  obtain ⟨entry, hentry, hsome⟩ := mem_filterMap.1 h
  obtain ⟨old, hold, rfl⟩ := mem_map.1 hentry
  obtain ⟨reason, hreason, rfl⟩ := Option.map_eq_some_iff.1 hsome
  refine ⟨una_resendSegment hreason, ?_⟩
  rw [key_resendSegment]
  exact mem_map_of_mem hold

/-- What `flush` sends: acknowledgements of what is on its list, segments about windows, and
segments of its buffer. -/
inductive Sends (k k' : Kcp) (seg : Segment) : Prop
  | ack (ts : UInt32) (hconv : seg.conv = k.conv) (hcmd : seg.cmd = cmdAck) (hdata : seg.data = [])
      (hmem : (seg.sn, ts) ∈ k.acklist)
  | probe (hconv : seg.conv = k.conv) (hack : seg.cmd ≠ cmdAck) (hpush : seg.cmd ≠ cmdPush)
      (hdata : seg.data = [])
  | push (hmem : seg.key ∈ k'.sndBuf.map key)

theorem flush_halves (hupdated : k.updated = true) :
    (flush k).2.halves = (fillBuf (beforeFill k)).halves ∧
      ∀ d ∈ (flush k).1, ∃ seg : Segment, d = seg.encode ∧ seg.una = k.rcvNxt ∧
        Sends k (fillBuf (beforeFill k)) seg := by
  have hconv : (beforeFill k).conv = k.conv := congrArg (fun h => h.1) (halves_beforeFill k)
  have hrcvNxt : (beforeFill k).rcvNxt = k.rcvNxt :=
    congrArg (fun h => h.2.2.2.2.2.2.2.1) (halves_beforeFill k)
  have hrun : flush k = _ := if_neg (by rw [hupdated]; exact Bool.noConfusion)
  rw [hrun]
  constructor
  · -- sending a segment again only touches its timing
    have hkeys : (((fillBuf (beforeFill k)).sndBuf.map (resendSegment (fillBuf (beforeFill k)))).map
        Prod.fst).map key = (fillBuf (beforeFill k)).sndBuf.map key := by
      rw [map_map, map_map]
      exact map_congr_left fun seg _ => key_resendSegment _ seg
    have hcopy : ∀ buf : List Segment,
        buf.map key = (fillBuf (beforeFill k)).sndBuf.map key →
        ({ fillBuf (beforeFill k) with sndBuf := buf }).halves =
          (fillBuf (beforeFill k)).halves := by
      intro buf hbuf
      simp only [halves, hbuf]
    exact hcopy _ hkeys
  · intro d hd
    obtain ⟨seg, hseg, rfl⟩ := mem_map.1 hd
    refine ⟨seg, rfl, ?_⟩
    obtain hseg | hsend := mem_append.1 hseg
    · obtain hack | hprobe := mem_append.1 hseg
      · obtain ⟨ack, hmem, rfl⟩ := mem_map.1 hack
        exact ⟨rfl, .ack ack.2 rfl rfl rfl hmem⟩
      · obtain ⟨cmd, hcmd, rfl⟩ := mem_probeSegments hprobe
        refine ⟨hrcvNxt, .probe hconv ?_ ?_ rfl⟩
        all_goals obtain rfl | rfl := hcmd <;> exact of_decide_eq_true rfl
    · obtain ⟨huna, hmem⟩ := mem_resend hsend
      exact ⟨huna.trans hrcvNxt, .push hmem⟩

/-- What `flush` does: it takes segments from the queue and numbers them, leaves the receiving half
alone but for the acknowledgements, and sends acknowledgements and segments of its buffer. -/
structure Flushes (k : Kcp) (taken : List Segment) (out : List Bytes) (k' : Kcp) : Prop where
  mss : k'.mss = k.mss
  sndQueue : k.sndQueue = taken ++ k'.sndQueue
  kept : ∀ key ∈ k'.sndBuf.map Segment.key, key ∈ k.sndBuf.map Segment.key ∨ key.2.1 = cmdPush
  numbered : k.sndNxt.toNat + taken.length < 2 ^ 32 →
    k'.sndBuf.map Segment.entry = k.sndBuf.map Segment.entry ++
      numberFrom k.sndNxt.toNat (taken.map Segment.piece) ∧
    k'.sndNxt.toNat = k.sndNxt.toNat + taken.length
  view : ∀ base, k'.view base = k.view base
  rcvNxt : k'.rcvNxt = k.rcvNxt
  acklist : k'.acklist = []
  out : ∀ d ∈ out, ∃ seg : Segment, d = seg.encode ∧ seg.una = k.rcvNxt ∧ Sends k k' seg

theorem map_entry_eq (segs : List Segment) :
    segs.map entry = (segs.map key).map fun key => key.2.2 := by
  rw [map_map]
  rfl

theorem flush_spec (hupdated : k.updated = true) :
    ∃ taken, Flushes k taken (flush k).1 (flush k).2 := by
  obtain ⟨hhalves, hout⟩ := flush_halves hupdated
  have hbefore := halves_beforeFill k
  have hbuf : (beforeFill k).sndBuf = k.sndBuf := by
    unfold beforeFill probeWindow
    split_ifs <;> rfl
  obtain ⟨taken, hqueue, hmem, hnumbered⟩ := numberLoop_spec (beforeFill k)
    ((beforeFill k).sndUna + (beforeFill k).sendWindow.toUInt32) (beforeFill k).sndQueue
    (beforeFill k).sndBuf (beforeFill k).sndNxt
  simp only [halves, Prod.mk.injEq] at hbefore hhalves
  obtain ⟨-, hmss, hsndQueue, hsndNxt, -, hrcvQueue, hrcvBuf, hrcvNxt, hacklist⟩ := hbefore
  obtain ⟨-, hmss', hsndQueue', hsndNxt', hkeys, hrcvQueue', hrcvBuf', hrcvNxt', hacklist'⟩ :=
    hhalves
  refine ⟨taken, hmss'.trans hmss, ?_, ?_, ?_, ?_, hrcvNxt'.trans hrcvNxt,
    hacklist'.trans hacklist, ?_⟩
  · rw [hsndQueue', ← hsndQueue]
    exact hqueue
  · rw [hkeys]
    intro key hkey
    obtain ⟨seg, hseg, rfl⟩ := mem_map.1 hkey
    obtain hold | ⟨-, hcmd⟩ := hmem seg hseg
    · rw [hbuf] at hold
      exact .inl (mem_map_of_mem hold)
    · exact .inr hcmd
  · rw [map_entry_eq, hkeys, ← map_entry_eq, hsndNxt', ← hbuf, ← hsndNxt]
    exact hnumbered
  · intro base
    rw [view, view, hrcvQueue', hrcvBuf', ← hrcvQueue, ← hrcvBuf]
    rfl
  · intro d hd
    obtain ⟨seg, rfl, huna, hsends⟩ := hout d hd
    refine ⟨seg, rfl, huna, ?_⟩
    cases hsends with
    | ack ts hconv hcmd hdata hmem => exact .ack ts hconv hcmd hdata hmem
    | probe hconv hack hpush hdata => exact .probe hconv hack hpush hdata
    | push hmem => exact .push (hkeys ▸ hmem)

end Kcp

end Blackwire.Mkcp
