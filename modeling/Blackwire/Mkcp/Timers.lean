import Blackwire.Mkcp.Delivery

/-!
# Timers of an mKCP engine

`flush` sends a segment again, or a window probe, when its timer has run out.  The clock is a
wrapping number of milliseconds.

* `timed_run`: in every run the timer of a segment is the one that the `flush` set that sent it.
* `timers_iff`: when `flush` takes a timer for run out exactly when it has.
-/

namespace Blackwire.Mkcp

open Kcp List

variable {k k' k'' : Kcp} {seg : Segment} {conv : UInt32} {calls : List Call}

/-- The timeout of a segment that was sent at `ts`. -/
def Segment.timeout (seg : Segment) : UInt32 := seg.resendts - seg.ts

/-- What belongs to the timer of a segment. -/
def Segment.timer (seg : Segment) : UInt32 × UInt32 × UInt32 × UInt32 × UInt32 :=
  (seg.sn, seg.ts, seg.resendts, seg.rto, seg.xmit)

/-- The clock when the timer of the window probe was set. -/
def Kcp.probeSet (k : Kcp) : UInt32 := k.tsProbe - k.probeWait

/-! ### What the other calls keep -/

/-- What a call other than `flush` keeps: the timers of the segments that stay, and of the probe. -/
structure Keeps (k k' : Kcp) : Prop where
  fastresend : k'.fastresend = k.fastresend
  tsProbe : k'.tsProbe = k.tsProbe
  probeWait : k'.probeWait = k.probeWait
  probe : k'.probe = k.probe ∨ k'.probe = k.probe ||| 2
  sndBuf : ∀ seg' ∈ k'.sndBuf, ∃ seg ∈ k.sndBuf, seg.cmd = seg'.cmd ∧ seg.timer = seg'.timer

def Kcp.timing (k : Kcp) : UInt32 × UInt32 × UInt32 × UInt32 × List Segment :=
  (k.fastresend, k.tsProbe, k.probeWait, k.probe, k.sndBuf)

theorem Keeps.trans (h : Keeps k k') (h' : Keeps k' k'') : Keeps k k'' := by
  refine ⟨h'.fastresend.trans h.fastresend, h'.tsProbe.trans h.tsProbe,
    h'.probeWait.trans h.probeWait, ?_, fun seg'' hseg'' => ?_⟩
  · rcases h.probe with hp | hp <;> rcases h'.probe with hp' | hp' <;>
      simp [hp, hp', UInt32.or_assoc]
  · obtain ⟨seg', hseg', hcmd', htimer'⟩ := h'.sndBuf seg'' hseg''
    obtain ⟨seg, hseg, hcmd, htimer⟩ := h.sndBuf seg' hseg'
    exact ⟨seg, hseg, hcmd.trans hcmd', htimer.trans htimer'⟩

theorem Keeps.of_timing (h : k'.timing = k.timing) : Keeps k k' := by
  simp only [Kcp.timing, Prod.mk.injEq] at h
  obtain ⟨hfastresend, htsProbe, hprobeWait, hprobe, hsndBuf⟩ := h
  exact ⟨hfastresend, htsProbe, hprobeWait, .inl hprobe,
    fun seg hseg => ⟨seg, hsndBuf ▸ hseg, rfl, rfl⟩⟩

theorem Keeps.filter (k : Kcp) (p : Segment → Bool) :
    Keeps k { k with sndBuf := k.sndBuf.filter p } :=
  ⟨rfl, rfl, rfl, .inl rfl, fun seg hseg => ⟨seg, mem_of_mem_filter hseg, rfl, rfl⟩⟩

theorem timing_parseData (seg : Segment) (k : Kcp) : (parseData seg k).timing = k.timing := by
  unfold parseData
  split_ifs <;> rfl

theorem timing_send (buf : Bytes) (k : Kcp) : (k.send buf).2.timing = k.timing := by
  unfold send
  dsimp only
  split_ifs <;> rfl

theorem timing_openWindow (prevUna : UInt32) (k : Kcp) :
    (openWindow prevUna k).timing = k.timing := by
  unfold openWindow
  split_ifs <;> rfl

theorem keeps_parseAck (sn : UInt32) (k : Kcp) : Keeps k (parseAck sn k) := by
  unfold parseAck
  split_ifs
  · exact .of_timing rfl
  · exact .filter k _

theorem mem_fastackLoop {sn : UInt32} {segs : List Segment} (h : seg ∈ fastackLoop sn segs) :
    ∃ seg' ∈ segs, seg'.cmd = seg.cmd ∧ seg'.timer = seg.timer := by
  induction segs with
  | nil => cases h
  | cons head segs ih =>
    rw [fastackLoop] at h
    split_ifs at h
    · obtain rfl | h := mem_cons.1 h
      · exact ⟨head, mem_cons_self, rfl, rfl⟩
      · obtain ⟨seg', hseg', heq⟩ := ih h
        exact ⟨seg', mem_cons_of_mem _ hseg', heq⟩
    · exact ⟨seg, h, rfl, rfl⟩

theorem keeps_parseFastack (sn : UInt32) (k : Kcp) : Keeps k (parseFastack sn k) := by
  unfold parseFastack
  split_ifs
  · exact .of_timing rfl
  · exact ⟨rfl, rfl, rfl, .inl rfl, fun _ => mem_fastackLoop⟩

theorem keeps_inputSegment (seg : Segment) (maxack : Option UInt32) (k : Kcp) :
    Keeps k (inputSegment seg maxack k).2 := by
  have huna : Keeps k (shrinkBuf (parseUna seg.una { k with rmtWnd := seg.wnd })) :=
    (Keeps.filter k fun s => s.sn ≥ seg.una).trans (.of_timing rfl)
  unfold inputSegment
  by_cases hconv : seg.conv ≠ k.conv
  · rw [if_pos hconv]
    exact .of_timing rfl
  rw [if_neg hconv]
  generalize shrinkBuf (parseUna seg.una { k with rmtWnd := seg.wnd }) = k' at huna ⊢
  refine huna.trans ?_
  dsimp only
  split_ifs
  · exact (Keeps.of_timing rfl).trans ((keeps_parseAck seg.sn _).trans (.of_timing rfl))
  · exact (Keeps.of_timing rfl).trans ((keeps_parseAck seg.sn _).trans (.of_timing rfl))
  · exact .of_timing (timing_parseData seg _)
  · exact .of_timing rfl
  · exact .of_timing rfl
  · exact ⟨rfl, rfl, rfl, .inr rfl, fun seg hseg => ⟨seg, hseg, rfl, rfl⟩⟩
  · exact .of_timing rfl
  · exact .of_timing rfl

theorem keeps_inputLoop (fuel : ℕ) (cursor : Bytes) (maxack : Option UInt32) (k : Kcp) :
    Keeps k (inputLoop fuel cursor maxack k).2 := by
  induction fuel generalizing cursor maxack k with
  | zero => exact .of_timing rfl
  | succ fuel ih =>
    unfold inputLoop
    split_ifs
    · exact .of_timing rfl
    split
    · exact .of_timing rfl
    · next seg cursor _ =>
      have hkeeps := keeps_inputSegment seg maxack k
      split
      · next hrun =>
        rw [hrun] at hkeeps
        exact hkeeps
      · next hrun =>
        rw [hrun] at hkeeps
        exact hkeeps.trans (ih _ _ _)

theorem keeps_input (data : Bytes) (k : Kcp) : Keeps k (k.input data).2 := by
  have hkeeps := keeps_inputLoop (data.length + 1) data none k
  unfold input
  split
  · next hrun =>
    rw [hrun] at hkeeps
    exact hkeeps
  · next maxack k' hrun =>
    rw [hrun] at hkeeps
    refine hkeeps.trans (Keeps.trans ?_ (.of_timing (timing_openWindow _ _)))
    cases maxack with
    | none => exact .of_timing rfl
    | some sn => exact keeps_parseFastack sn k'

/-- Every call other than `flush` keeps the timers. -/
theorem keeps_call {p : Peer} {call : Call} (h : call ≠ .flush) :
    Keeps p.kcp (p.call call).kcp := by
  cases call with
  | send buf => exact .of_timing (timing_send buf p.kcp)
  | recv bufLen =>
    rw [Peer.call]
    obtain ⟨-, hrecv⟩ | ⟨-, -, -, hrecv⟩ | ⟨n, probe, -, -, -, hprobe, hrecv⟩ :=
      recv_cases p.kcp bufLen
    · rw [hrecv]
      exact .of_timing rfl
    · rw [hrecv]
      exact .of_timing rfl
    · rw [hrecv]
      exact ⟨rfl, rfl, rfl, hprobe, fun seg hseg => ⟨seg, hseg, rfl, rfl⟩⟩
  | input data => exact keeps_input data p.kcp
  | flush => exact absurd rfl h
  | update | setNodelay | setWndsize => exact .of_timing rfl

/-! ### `flush` -/

theorem numberLoop_append (k : Kcp) (limit : UInt32) (queue buf : List Segment) (sndNxt : UInt32) :
    ∃ new, (numberLoop k limit queue buf sndNxt).2.1 = buf ++ new ∧
      ∀ seg ∈ new, seg.cmd = cmdPush ∧ seg.xmit = 0 := by
  induction queue generalizing buf sndNxt with
  | nil => exact ⟨[], (append_nil _).symm, nofun⟩
  | cons seg queue ih =>
    unfold numberLoop
    split_ifs
    · obtain ⟨new, hnew, hfresh⟩ := ih (buf ++ [numberSegment k sndNxt seg]) (sndNxt + 1)
      refine ⟨numberSegment k sndNxt seg :: new, by rw [hnew, append_assoc]; rfl, ?_⟩
      exact forall_mem_cons.2 ⟨⟨rfl, rfl⟩, hfresh⟩
    · exact ⟨[], (append_nil _).symm, nofun⟩

/-- The engine as `flush` looks at its buffer. -/
def filled (k : Kcp) : Kcp := fillBuf (beforeFill k)

theorem filled_fields (k : Kcp) :
    (filled k).current = k.current ∧ (filled k).fastresend = k.fastresend ∧
      (filled k).rtomin = k.rtomin := by
  unfold filled fillBuf beforeFill probeWindow
  split_ifs <;> exact ⟨rfl, rfl, rfl⟩

theorem sndBuf_filled (k : Kcp) :
    ∃ new, (filled k).sndBuf = k.sndBuf ++ new ∧ ∀ seg ∈ new, seg.cmd = cmdPush ∧ seg.xmit = 0 := by
  have hbuf : (beforeFill k).sndBuf = k.sndBuf := by
    unfold beforeFill probeWindow
    split_ifs <;> rfl
  obtain ⟨new, hnew, hfresh⟩ := numberLoop_append (beforeFill k)
    ((beforeFill k).sndUna + (beforeFill k).sendWindow.toUInt32) (beforeFill k).sndQueue
    (beforeFill k).sndBuf (beforeFill k).sndNxt
  exact ⟨new, hnew.trans (by rw [hbuf]), hfresh⟩

theorem flush_eq (hupdated : k.updated = true) :
    k.flush.2.sndBuf = ((filled k).sndBuf.map (resendSegment (filled k))).map Prod.fst ∧
      k.flush.1 = (k.ackSegments ++ (probeWindow { k with acklist := [] }).probeSegments ++
        ((filled k).sndBuf.map (resendSegment (filled k))).filterMap fun entry =>
          entry.2.map fun _ => entry.1).map Segment.encode := by
  have hrun : flush k = _ := if_neg (by rw [hupdated]; exact Bool.noConfusion)
  rw [hrun]
  exact ⟨rfl, rfl⟩

theorem flush_fields (hupdated : k.updated = true) :
    k.flush.2.fastresend = k.fastresend ∧ k.flush.2.probe = 0 ∧
      k.flush.2.tsProbe = (probeWindow { k with acklist := [] }).tsProbe ∧
      k.flush.2.probeWait = (probeWindow { k with acklist := [] }).probeWait := by
  have hrun : flush k = _ := if_neg (by rw [hupdated]; exact Bool.noConfusion)
  rw [hrun]
  exact ⟨(filled_fields k).2.1, rfl, rfl, rfl⟩

theorem resendSegment_cases (k : Kcp) (seg : Segment) :
    resendSegment k seg = (seg, none) ∧ seg.xmit ≠ 0 ∨
      ∃ seg' reason, resendSegment k seg = (seg', some reason) ∧ seg'.ts = k.current ∧
        seg'.xmit = seg.xmit + 1 ∧
          seg'.timeout = seg'.rto + if seg'.xmit = 1 then k.rtomin else 0 := by
  have hsince (t : UInt32) : k.current + t - k.current = t := by
    rw [UInt32.add_comm, UInt32.add_sub_cancel]
  unfold resendSegment schedule
  by_cases hfirst : seg.xmit = 0
  · exact .inr ⟨_, _, by rw [if_pos hfirst], rfl, rfl, by
      simp [hfirst, Segment.timeout, UInt32.add_assoc, hsince]⟩
  have hagain : seg.xmit + 1 ≠ 1 := fun h => hfirst (by simpa using h)
  rw [if_neg hfirst]
  by_cases hlate : k.current ≥ seg.resendts
  · rw [if_pos hlate]
    exact .inr ⟨_, _, rfl, rfl, rfl, by simp [hagain, Segment.timeout, hsince]⟩
  rw [if_neg hlate]
  split_ifs
  · exact .inr ⟨_, _, rfl, rfl, rfl, by simp [hagain, Segment.timeout, hsince]⟩
  · exact .inl ⟨rfl, hfirst⟩

theorem resendSegment_of_sent (hfast : k.fastresend = 0) (hsent : seg.xmit ≠ 0) :
    (resendSegment k seg).2.isSome ↔ k.current ≥ seg.resendts := by
  unfold resendSegment schedule
  rw [if_neg hsent]
  by_cases hlate : k.current ≥ seg.resendts
  · simp [hlate]
  · have hnot : ¬(seg.fastack ≥ k.resent ∧ seg.xmit ≤ k.fastresend) := by
      rw [hfast]
      exact fun h => hsent (UInt32.le_zero_iff.1 h.2)
    simp [hlate, hnot]

theorem mem_flush (hupdated : k.updated = true) (hseg : seg ∈ (filled k).sndBuf) {seg' : Segment}
    {reason : Reason} (hresend : resendSegment (filled k) seg = (seg', some reason)) :
    seg'.encode ∈ k.flush.1 := by
  rw [(flush_eq hupdated).2]
  refine mem_map_of_mem (mem_append_right _ (mem_filterMap.2 ⟨_, mem_map_of_mem hseg, ?_⟩))
  rw [hresend]
  rfl

/-- A segment that was sent before is sent again when its deadline has come. -/
theorem resent_iff (hupdated : k.updated = true) (hfast : k.fastresend = 0) {i : ℕ}
    (hseg : k.sndBuf[i]? = some seg) (hsent : seg.xmit ≠ 0) :
    (∃ seg', k.flush.2.sndBuf[i]? = some seg' ∧ seg'.xmit = seg.xmit + 1 ∧
      seg'.encode ∈ k.flush.1) ↔ k.current ≥ seg.resendts := by
  obtain ⟨hcurrent, hfastresend, -⟩ := filled_fields k
  obtain ⟨new, hnew, -⟩ := sndBuf_filled k
  have hfilled : (filled k).sndBuf[i]? = some seg := by
    rw [hnew, getElem?_append_left (List.getElem?_eq_some_iff.1 hseg).1, hseg]
  have hflushed : k.flush.2.sndBuf[i]? = some (resendSegment (filled k) seg).1 := by
    rw [(flush_eq hupdated).1, getElem?_map, getElem?_map, hfilled]
    rfl
  rw [← hcurrent, ← resendSegment_of_sent (hfastresend.trans hfast) hsent, hflushed]
  obtain ⟨hresend, -⟩ | ⟨seg', reason, hresend, -, hxmit, -⟩ := resendSegment_cases (filled k) seg
  · rw [hresend]
    simp
  · have hmem := mem_flush hupdated (mem_of_getElem? hfilled) hresend
    rw [hresend]
    simp [hxmit, hmem]

theorem getElem?_encode (seg : Segment) : seg.encode[4]? = some seg.cmd := by
  rw [Segment.encode, getElem?_append_right (by rw [Bytes.length_toLe])]
  simp

theorem cmd_resendSegment (k : Kcp) (seg : Segment) : (resendSegment k seg).1.cmd = seg.cmd :=
  congrArg (fun key => key.2.1) (key_resendSegment k seg)

theorem cmd_filled (hpush : ∀ seg ∈ k.sndBuf, seg.cmd = cmdPush) :
    ∀ seg ∈ (filled k).sndBuf, seg.cmd = cmdPush := by
  obtain ⟨new, hnew, hfresh⟩ := sndBuf_filled k
  rw [hnew]
  exact forall_mem_append.2 ⟨hpush, fun seg hseg => (hfresh seg hseg).1⟩

theorem ask_mem_probeSegments (k : Kcp) :
    (∃ seg ∈ k.probeSegments, seg.cmd = cmdWask) ↔ k.probe &&& 1 ≠ 0 := by
  have hwins : cmdWins ≠ cmdWask := by decide
  by_cases hask : k.probe &&& 1 = 0 <;> by_cases htell : k.probe &&& 2 = 0 <;>
    simp [probeSegments, makeCtrl, Segment.new, hask, htell, hwins]

/-- A probe of a closed window is sent when its time has come. -/
theorem probed_iff (hupdated : k.updated = true) (hprobe : k.probe = 0 ∨ k.probe = 2)
    (hpush : ∀ seg ∈ k.sndBuf, seg.cmd = cmdPush) (hwnd : k.rmtWnd = 0) (hwait : k.probeWait ≠ 0) :
    (∃ bytes ∈ k.flush.1, bytes[4]? = some cmdWask) ↔ k.current ≥ k.tsProbe := by
  have hasks : (∃ bytes ∈ k.flush.1, bytes[4]? = some cmdWask) ↔
      ∃ seg ∈ (probeWindow { k with acklist := [] }).probeSegments, seg.cmd = cmdWask := by
    rw [(flush_eq hupdated).2]
    constructor
    · rintro ⟨bytes, hbytes, hcmd⟩
      obtain ⟨seg, hseg, rfl⟩ := mem_map.1 hbytes
      rw [getElem?_encode, Option.some.injEq] at hcmd
      obtain hseg | hsend := mem_append.1 hseg
      · obtain hack | hprobe := mem_append.1 hseg
        · obtain ⟨ack, -, rfl⟩ := mem_map.1 hack
          exact absurd (show cmdAck = cmdWask from hcmd) (by decide)
        · exact ⟨seg, hprobe, hcmd⟩
      · obtain ⟨entry, hentry, hsome⟩ := mem_filterMap.1 hsend
        obtain ⟨old, hold, rfl⟩ := mem_map.1 hentry
        obtain ⟨reason, -, rfl⟩ := Option.map_eq_some_iff.1 hsome
        rw [cmd_resendSegment, cmd_filled hpush old hold] at hcmd
        exact absurd hcmd (by decide)
    · rintro ⟨seg, hseg, hcmd⟩
      refine ⟨_, mem_map_of_mem (mem_append_left _ (mem_append_right _ hseg)), ?_⟩
      rw [getElem?_encode, hcmd]
  rw [hasks, ask_mem_probeSegments, probeWindow, if_pos hwnd, if_neg hwait]
  have hasked : ((2 : UInt32) ||| 1) &&& 1 ≠ 0 := by decide
  have hnot : (2 : UInt32) &&& 1 = 0 := by decide
  by_cases hlate : k.current ≥ k.tsProbe <;> rcases hprobe with hp | hp <;>
    simp [hlate, hp, hasked, hnot]

/-! ### Runs -/

/-- The engine after a run of calls. -/
def engine (conv : UInt32) (calls : List Call) : Kcp :=
  (calls.foldl Peer.call ⟨Kcp.new conv, [], [], 0, []⟩).kcp

/-- A `flush` of the run, when the clock showed `seg.ts`, has sent the segment and set its timer as
it is; the timeout is that of the segment, and the first time `rtomin` more. -/
def TimerSet (conv : UInt32) (calls : List Call) (seg : Segment) : Prop :=
  ∃ before, before ++ [.flush] <+: calls ∧
    let k := engine conv before
    k.current = seg.ts ∧ seg.timeout = seg.rto + (if seg.xmit = 1 then k.rtomin else 0) ∧
      ∃ sent : Segment, sent.encode ∈ k.flush.1 ∧ sent.timer = seg.timer

/-- A `flush` of the run has set the timer of the probe as it is. -/
def ProbeSet (conv : UInt32) (calls : List Call) (k : Kcp) : Prop :=
  ∃ before, before ++ [.flush] <+: calls ∧ (engine conv before).current = k.probeSet ∧
    (engine conv (before ++ [.flush])).tsProbe = k.tsProbe ∧
      (engine conv (before ++ [.flush])).probeWait = k.probeWait

/-- What holds in every run: the timers are as they were set, and nothing is sent again but for its
timer. -/
structure Timed (conv : UInt32) (calls : List Call) (k : Kcp) : Prop where
  fastresend : k.fastresend = 0
  probe : k.probe = 0 ∨ k.probe = 2
  push : ∀ seg ∈ k.sndBuf, seg.cmd = cmdPush
  sent : ∀ seg ∈ k.sndBuf, seg.xmit ≠ 0 → TimerSet conv calls seg
  waits : k.probeWait ≠ 0 → ProbeSet conv calls k

theorem TimerSet.mono {calls' : List Call} {seg' : Segment} (h : TimerSet conv calls seg)
    (hcalls : calls <+: calls') (htimer : seg.timer = seg'.timer) : TimerSet conv calls' seg' := by
  obtain ⟨before, hbefore, hclock, htimeout, sent, hsent, hsame⟩ := h
  have hfields := htimer
  simp only [Segment.timer, Prod.mk.injEq] at hfields
  obtain ⟨hsn, hts, hresendts, hrto, hxmit⟩ := hfields
  refine ⟨before, hbefore.trans hcalls, hclock.trans hts, ?_, sent, hsent, hsame.trans htimer⟩
  rw [Segment.timeout, ← hresendts, ← hts, ← hrto, ← hxmit]
  exact htimeout

theorem Timed.keeps {calls' : List Call} (h : Timed conv calls k) (hkeeps : Keeps k k')
    (hcalls : calls <+: calls') : Timed conv calls' k' := by
  refine ⟨hkeeps.fastresend.trans h.fastresend, ?_, fun seg' hseg' => ?_,
    fun seg' hseg' hsent => ?_, fun hwait => ?_⟩
  · rcases hkeeps.probe with hp | hp <;> rcases h.probe with hp' | hp' <;> simp [hp, hp']
  · obtain ⟨seg, hseg, hcmd, -⟩ := hkeeps.sndBuf seg' hseg'
    exact hcmd.symm.trans (h.push seg hseg)
  · obtain ⟨seg, hseg, -, htimer⟩ := hkeeps.sndBuf seg' hseg'
    have hxmit : seg.xmit = seg'.xmit := congrArg (fun timer => timer.2.2.2.2) htimer
    exact (h.sent seg hseg (hxmit ▸ hsent)).mono hcalls htimer
  · obtain ⟨before, hbefore, hclock, hts, hw⟩ := h.waits (hkeeps.probeWait ▸ hwait)
    refine ⟨before, hbefore.trans hcalls, ?_, hts.trans hkeeps.tsProbe.symm,
      hw.trans hkeeps.probeWait.symm⟩
    rw [Kcp.probeSet, hkeeps.tsProbe, hkeeps.probeWait]
    exact hclock

theorem engine_snoc (conv : UInt32) (calls : List Call) (call : Call) :
    engine conv (calls ++ [call]) =
      ((calls.foldl Peer.call ⟨Kcp.new conv, [], [], 0, []⟩).call call).kcp := by
  rw [engine, foldl_append]
  rfl

/-- A segment that `flush` has sent has its timer from there. -/
theorem timerSet_flush (hupdated : (engine conv calls).updated = true)
    (hsent : ∀ seg ∈ (engine conv calls).sndBuf, seg.xmit ≠ 0 → TimerSet conv calls seg)
    (hseg : seg ∈ (engine conv calls).flush.2.sndBuf) : TimerSet conv (calls ++ [.flush]) seg := by
  obtain ⟨hcurrent, -, hrtomin⟩ := filled_fields (engine conv calls)
  obtain ⟨new, hnew, hfresh⟩ := sndBuf_filled (engine conv calls)
  rw [(flush_eq hupdated).1, map_map] at hseg
  obtain ⟨old, hold, rfl⟩ := mem_map.1 hseg
  obtain ⟨hresend, hxmit⟩ | ⟨seg', reason, hresend, hts, hxmit, htimeout⟩ :=
    resendSegment_cases (filled (engine conv calls)) old
  · have hkept : old ∈ (engine conv calls).sndBuf :=
      (mem_append.1 (hnew ▸ hold)).resolve_right fun h => hxmit (hfresh old h).2
    rw [Function.comp_apply, hresend]
    exact (hsent old hkept hxmit).mono (prefix_append _ _) rfl
  · rw [Function.comp_apply, hresend]
    exact ⟨calls, prefix_rfl, (hts.trans hcurrent).symm, hrtomin ▸ htimeout, seg',
      mem_flush hupdated hold hresend, rfl⟩

theorem probeSet_flush (hupdated : (engine conv calls).updated = true)
    (hwaits : (engine conv calls).probeWait ≠ 0 → ProbeSet conv calls (engine conv calls))
    (hwait : (engine conv calls).flush.2.probeWait ≠ 0) :
    ProbeSet conv (calls ++ [.flush]) (engine conv calls).flush.2 := by
  have hengine : engine conv (calls ++ [.flush]) = (engine conv calls).flush.2 := engine_snoc ..
  obtain ⟨-, -, htsProbe, hprobeWait⟩ := flush_fields hupdated
  have hnew (wait : UInt32) (hts : (engine conv calls).flush.2.tsProbe =
        (engine conv calls).current + wait)
      (hw : (engine conv calls).flush.2.probeWait = wait) :
      ProbeSet conv (calls ++ [.flush]) (engine conv calls).flush.2 := by
    refine ⟨calls, prefix_rfl, ?_, by rw [hengine], by rw [hengine]⟩
    rw [Kcp.probeSet, hts, hw, UInt32.add_sub_cancel]
  unfold probeWindow at htsProbe hprobeWait
  split_ifs at htsProbe hprobeWait
  · exact hnew _ htsProbe hprobeWait
  · exact hnew _ htsProbe hprobeWait
  · exact hnew _ htsProbe hprobeWait
  · obtain ⟨before, hbefore, hclock, hts, hw⟩ := hwaits (hprobeWait ▸ hwait)
    refine ⟨before, hbefore.trans (prefix_append _ _), ?_, hts.trans htsProbe.symm,
      hw.trans hprobeWait.symm⟩
    rw [Kcp.probeSet, htsProbe, hprobeWait]
    exact hclock
  · exact absurd hprobeWait hwait

theorem Timed.flush (h : Timed conv calls (engine conv calls)) :
    Timed conv (calls ++ [.flush]) (engine conv (calls ++ [.flush])) := by
  have hengine : engine conv (calls ++ [.flush]) = (engine conv calls).flush.2 := engine_snoc ..
  rw [hengine]
  by_cases hupdated : (engine conv calls).updated = true
  · refine ⟨?_, ?_, fun seg hseg => ?_, fun seg hseg _ => timerSet_flush hupdated h.sent hseg,
      probeSet_flush hupdated h.waits⟩
    · exact (flush_fields hupdated).1.trans h.fastresend
    · exact .inl (flush_fields hupdated).2.1
    · rw [(flush_eq hupdated).1, map_map] at hseg
      obtain ⟨old, hold, rfl⟩ := mem_map.1 hseg
      exact (cmd_resendSegment _ old).trans (cmd_filled h.push old hold)
  · have hsame : (engine conv calls).flush.2 = engine conv calls := by
      rw [Kcp.flush, if_pos (by simpa using hupdated)]
    rw [hsame]
    exact h.keeps (.of_timing rfl) (prefix_append _ _)

theorem timed_run (conv : UInt32) (calls : List Call) : Timed conv calls (engine conv calls) := by
  induction calls using List.reverseRecOn with
  | nil => exact ⟨rfl, .inl rfl, nofun, nofun, fun h => absurd rfl h⟩
  | append_singleton calls call ih =>
    by_cases hflush : call = .flush
    · rw [hflush]
      exact ih.flush
    · rw [engine_snoc]
      exact ih.keeps (keeps_call hflush) (prefix_append _ _)

/-- Comparing two clock values is comparing the times since `t` if and only if both are on the same
side of it. -/
theorem ge_iff_elapsed (a b t : UInt32) : (a ≥ b ↔ b - t ≤ a - t) ↔ (a < t ↔ b < t) := by
  have ha := a.toNat_lt
  have hb := b.toNat_lt
  simp only [ge_iff_le, UInt32.le_iff_toNat_le, UInt32.lt_iff_toNat_lt, UInt32.toNat_sub]
  omega

theorem tsProbe_sub_probeSet (k : Kcp) : k.tsProbe - k.probeSet = k.probeWait := by
  have hwait := k.probeWait.toNat_lt
  refine UInt32.toNat_inj.1 ?_
  rw [Kcp.probeSet, UInt32.toNat_sub, UInt32.toNat_sub]
  omega

/-- **Timers.**  In every run of calls, a segment that was sent has the timer that the `flush` set
that sent it.  The next `flush`, at any time, sends the segment again exactly when its timeout has
passed since, modulo `2 ^ 32`, if and only if the clock and the deadline are on the same side of the
wrap; the same holds of the probe of a closed window. -/
theorem timers_iff (conv : UInt32) (calls : List Call) (clock : UInt32) :
    let k := engine conv calls
    let flushed := (k.update clock).flush
    (∀ (i : ℕ) (seg : Segment), k.sndBuf[i]? = some seg → seg.xmit ≠ 0 →
      TimerSet conv calls seg ∧
        (((∃ seg' : Segment, flushed.2.sndBuf[i]? = some seg' ∧ seg'.xmit = seg.xmit + 1 ∧
            seg'.encode ∈ flushed.1) ↔ seg.timeout ≤ clock - seg.ts) ↔
          (clock < seg.ts ↔ seg.resendts < seg.ts))) ∧
    (k.rmtWnd = 0 → k.probeWait ≠ 0 →
      ProbeSet conv calls k ∧
        (((∃ bytes ∈ flushed.1, bytes[4]? = some cmdWask) ↔ k.probeWait ≤ clock - k.probeSet) ↔
          (clock < k.probeSet ↔ k.tsProbe < k.probeSet))) := by
  intro k flushed
  have htimed := timed_run conv calls
  refine ⟨fun i seg hseg hsent => ⟨htimed.sent seg (mem_of_getElem? hseg) hsent, ?_⟩,
    fun hwnd hwait => ⟨htimed.waits hwait, ?_⟩⟩
  · rw [resent_iff (k := k.update clock) rfl htimed.fastresend hseg hsent]
    exact ge_iff_elapsed ..
  · rw [probed_iff (k := k.update clock) rfl htimed.probe htimed.push hwnd hwait, ← ge_iff_elapsed,
      tsProbe_sub_probeSet]
    rfl

/-- A message is sent 100 ms before the clock wraps, and again with the next flush. -/
theorem wrapped_resend :
    let k := engine 7 [.update (UInt32.ofNat (2 ^ 32 - 100)), .flush, .send [1], .flush]
    ((k.update (UInt32.ofNat (2 ^ 32 - 90))).flush).2.sndBuf.map Segment.xmit = [2] ∧
      k.sndBuf.map Segment.timeout = [225] := by
  decide +kernel

end Blackwire.Mkcp
