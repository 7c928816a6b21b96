import Blackwire.App.Relay
import Blackwire.Common.SpliceRelay
import Blackwire.Lib.AsyncRead

/-!
# The traffic of a connection

The end of `dispatch` in `dispatcher.rs`, with `guard_pooled_first_write`: the first bytes of the
client may be written to a pooled connection before the relay begins, and when the relay has
returned, what it has counted is recorded for the user.
-/

namespace Blackwire.Relaying

open Loop Splicing CopyRelay Function Link

/-! ### Before and after the relay -/

def pooledFirstWriteGuardBufSize : ℕ := 2048

inductive FirstRead where
  | timeout
  | failed
  | read (n : ℕ)

/-- `guard_pooled_first_write`, with whether the outbound is a pooled socket in the fast profile,
whether the write to it succeeds, and whether a fresh connection can be opened and written to: the
client's link after it and the bytes that were written, or an error. -/
def guardPooledFirstWrite (pooled : Bool) (link : Link UInt8) (first : FirstRead) (write : Bool)
    (fresh : Option Bool) : Option (Link UInt8 × ℕ) :=
  if pooled then
    match first with
    | .timeout => some (link, 0)
    | .failed => none
    | .read n =>
      let n := min n (min link.rest.length pooledFirstWriteGuardBufSize)
      if n = 0 then some (link, 0)
      else if write || fresh == some true then some ((link.take n).give n, n)
      else none
  else some (link, 0)

/-- What `dispatch` is given: the user, what the streams are, and whether the outbound is pooled. -/
structure Connection where
  user : Option String
  flow : Flow
  pooled : Bool

def Flow.ahead (ahead : Dir → ℕ) : Flow → Dir → ℕ
  | .wrapped, _ => 0
  | .vision _, .up => 0
  | .vision _, .down => ahead .down
  | .raw _, d => ahead d

def linksOf (streams : Dir → Bytes) (flow : Flow) (ahead : Dir → ℕ) (link : Link UInt8) : Links
  | .up => link.take (flow.ahead ahead .up)
  | .down => (start (streams .down)).take (flow.ahead ahead .down)

def begins (c : Connection) (streams : Dir → Bytes) (ahead : Dir → ℕ) (first : FirstRead)
    (write : Bool) (fresh : Option Bool) : Option (Relay × ℕ) :=
  (guardPooledFirstWrite c.pooled (.start (streams .up)) first write fresh).map fun guarded =>
    (.start c.flow (linksOf streams c.flow ahead guarded.1), guarded.2)

def recorded (user : Option String) (prewritten : ℕ) (r : Relay) : Option (String × ℕ × ℕ) :=
  match r.stage with
  | .done result =>
    let counts := (result.map fun (up, down) => (up + prewritten, down)).getD (0, 0)
    user.map fun user => (user, counts.1, counts.2)
  | _ => none

/-! ### The counts of the relay -/

variable {flow : Flow} {r r' : Relay} {event : Event} {links : Links} {d : Dir} {base : Dir → ℕ}

def Stage.owed : Stage → Dir → ℕ
  | .moving d n, d' => if d' = d then n else 0
  | .inner front, .up => front.length
  | _, _ => 0

def Stage.Idle : Stage → Prop
  | .head | .select | .shutting _ | .entering _ => True
  | _ => False

def Relay.Accounts (base : Dir → ℕ) (r : Relay) : Prop :=
  match r.stage with
  | .splice _ splice => splice.Books (fun d => base d + r.count d) r.links
  | .copy copy => ∀ d, (copy d).Sound (base d + r.count d) (r.links d)
  | .done (some counts) =>
    (r.links .up).out.length = base .up + counts.1 ∧
      (r.links .down).out.length = base .down + counts.2
  | .done none => True
  | stage =>
    stage.Tidy r.links ∧
      ∀ d, (r.links d).out.length + (r.links d).buf.length =
        base d + r.count d + stage.owed d

/-- A relay that returns an error has delivered nothing. -/
def Relay.Silent (r : Relay) : Prop :=
  match r.stage with
  | .done none => ∀ d, (r.links d).out = []
  | _ => True

instance Relay.Silent.decidable (r : Relay) : Decidable r.Silent := by
  rcases r with ⟨links, _, _, _, stage⟩
  cases stage with
  | done result =>
    cases result with
    | none => exact inferInstanceAs (Decidable (∀ d, (links d).out = []))
    | some _ => exact isTrue trivial
  | _ => exact isTrue trivial

/-- The condition on a step: a splice loses no count. -/
def Accounted (r : Relay) (event : Event) : Prop :=
  match r.stage, event with
  | .splice _ splice, .splice event => splice.Accounted event
  | _, _ => True

open Relay

instance Accounted.decidable : ∀ (r : Relay) (event : Event), Decidable (Accounted r event)
  | ⟨_, _, _, _, .splice _ splice⟩, .splice event =>
    inferInstanceAs (Decidable (splice.Accounted event))
  | ⟨_, _, _, _, .splice _ _⟩, .wrote _ | ⟨_, _, _, _, .splice _ _⟩, .head _ _ _ => isTrue trivial
  | ⟨_, _, _, _, .splice _ _⟩, .enter _ | ⟨_, _, _, _, .splice _ _⟩, .read _ _ => isTrue trivial
  | ⟨_, _, _, _, .splice _ _⟩, .shut | ⟨_, _, _, _, .splice _ _⟩, .failed => isTrue trivial
  | ⟨_, _, _, _, .splice _ _⟩, .copy _ _ => isTrue trivial
  | ⟨_, _, _, _, .ahead _⟩, _ | ⟨_, _, _, _, .head⟩, _ | ⟨_, _, _, _, .select⟩, _ => isTrue trivial
  | ⟨_, _, _, _, .moving _ _⟩, _ | ⟨_, _, _, _, .shutting _⟩, _ => isTrue trivial
  | ⟨_, _, _, _, .inner _⟩, _ | ⟨_, _, _, _, .entering _⟩, _ => isTrue trivial
  | ⟨_, _, _, _, .copy _⟩, _ | ⟨_, _, _, _, .done _⟩, _ => isTrue trivial

namespace Relay.Accounts

theorem count_idle (hbuf : ∀ d, (r.links d).buf = [])
    (hcount : ∀ d, (r.links d).out.length = base d + r.count d) (d : Dir) :
    (r.links d).out.length + (r.links d).buf.length = base d + r.count d + 0 := by
  rw [hbuf, hcount]
  rfl

theorem count_setLink (hcount : ∀ d, (r.links d).out.length = base d + r.count d)
    {link : Link UInt8} (hlink : link.out.length = base d + r.count d) :
    ∀ d', ((r.setLink d link).links d').out.length = base d' + r.count d' :=
  Dir.forall_update (P := fun d (link : Link UInt8) => link.out.length = base d + r.count d) hcount
    hlink

theorem idle (h : r.Accounts base) (hidle : r.stage.Idle) :
    (∀ d, (r.links d).buf = []) ∧ ∀ d, (r.links d).out.length = base d + r.count d := by
  obtain ⟨links, count, eof, streak, stage⟩ := r
  have hboth (hbuf : ∀ d, (links d).buf = [])
      (hsum : ∀ d, (links d).out.length + (links d).buf.length = base d + count d + 0) :
      (∀ d, (links d).buf = []) ∧ ∀ d, (links d).out.length = base d + count d := by
    refine ⟨hbuf, fun d => ?_⟩
    have hd := hsum d
    rw [hbuf] at hd
    exact hd
  cases stage with
  | head | select | shutting | entering => exact hboth (fun d => h.1 d nofun) h.2
  | _ => exact hidle.elim

section

variable (hbuf : ∀ d, (r.links d).buf = [])
include hbuf

section

variable (hcount : ∀ d, (r.links d).out.length = base d + r.count d)
include hcount

theorem copy_start : (r.goto (.copy .start)).Accounts base := fun d => .start (hbuf d) (hcount d)

theorem goOn : r.goOn.Accounts base := by
  unfold Relay.goOn
  split_ifs
  · exact ⟨hcount .up, hcount .down⟩
  · exact ⟨fun d _ => hbuf d, count_idle hbuf hcount⟩

theorem intoInner (inner : Option ℕ) : (r.intoInner inner).Accounts base := by
  cases inner with
  | none => exact copy_start hbuf hcount
  | some n =>
    have htake : ((r.links .up).take n).out.length = base .up + r.count .up := hcount .up
    have hcount' := count_setLink hcount htake
    have htidy := tidy_intoInner hbuf (some n)
    simp only [Relay.intoInner, goto] at htidy ⊢
    split_ifs at htidy ⊢ with hnone
    · exact ⟨htidy, count_idle (fun d => htidy d (by simp [Stage.writing])) hcount'⟩
    · refine ⟨htidy, fun d => ?_⟩
      rw [hcount']
      cases d with
      | up =>
        rw [Link.take, hbuf]
        rfl
      | down =>
        rw [links_setLink_of_ne r (by decide), hbuf]
        rfl

end

end

theorem atHead (h : r.Accounts base) (hstage : r.stage = .head) (elapsed : ℕ) (direct : Bool)
    (inner : Option ℕ) : (r.atHead flow elapsed direct inner).Accounts base := by
  obtain ⟨hbuf, hcount⟩ := h.idle (hstage ▸ trivial)
  have hentering : (r.goto (.entering [])).Accounts base :=
    ⟨fun d _ => hbuf d, count_idle hbuf hcount⟩
  cases flow with
  | wrapped => exact h
  | raw policy =>
    cases policy with
    | disabled => exact copy_start hbuf hcount
    | always => exact hentering
    | adaptive =>
      simp only [atHead]
      split_ifs
      · exact hentering
      · exact goOn hbuf hcount
  | vision policy =>
    simp only [atHead]
    split_ifs
    · exact intoInner hbuf hcount inner
    · exact goOn hbuf hcount

theorem writing (h : r.Accounts base) (hwriting : r.stage.writing = some d) :
    r.stage.Tidy r.links ∧
      ∀ d, (r.links d).out.length + (r.links d).buf.length =
        base d + r.count d + r.stage.owed d := by
  unfold Accounts at h
  split at h
  case h_5 => exact h
  all_goals
    rename_i hstage
    rw [hstage] at hwriting
    cases hwriting

theorem of_writing (hwriting : r.stage.writing = some d) (htidy : r.stage.Tidy r.links)
    (hcount : ∀ d, (r.links d).out.length + (r.links d).buf.length =
      base d + r.count d + r.stage.owed d) : r.Accounts base := by
  unfold Accounts
  split
  case h_5 => exact ⟨htidy, hcount⟩
  all_goals
    rename_i hstage
    rw [hstage] at hwriting
    cases hwriting

theorem written (htidy : r.stage.Tidy r.links)
    (hcount : ∀ d, (r.links d).out.length + (r.links d).buf.length =
      base d + r.count d + r.stage.owed d)
    (hwriting : r.stage.writing = some d) (hbuf : (r.links d).buf = []) :
    r.written.Accounts base := by
  have htidy' := tidy_written htidy hwriting hbuf
  obtain ⟨links, count, eof, streak, stage⟩ := r
  cases stage with
  | ahead d' =>
    cases d' with
    | up =>
      by_cases hdown : (links .down).buf = []
      · simp only [written, goto, afterAhead, hdown, if_true] at htidy' ⊢
        exact ⟨htidy', hcount⟩
      · simp only [written, goto, afterAhead, hdown, if_false] at htidy' ⊢
        exact ⟨htidy', hcount⟩
    | down => exact ⟨htidy', hcount⟩
  | moving d' n =>
    refine ⟨htidy', fun d => (hcount d).trans ?_⟩
    show base d + count d + (if d = d' then n else 0) =
      base d + update count d' (count d' + n) d + 0
    by_cases hd : d = d'
    · subst hd
      rw [update_self, if_pos rfl]
      omega
    · rw [update_of_ne hd, if_neg hd]
  | inner front =>
    refine ⟨htidy', fun d => (hcount d).trans ?_⟩
    cases d with
    | up => exact Nat.add_assoc ..
    | down => rfl
  | _ => cases hwriting

theorem afterFailure (hbuf : ∀ d, (r.links d).buf = [])
    (hcount : ∀ d, (r.links d).out.length = base d + r.count d) (front : Bytes) :
    (r.afterFailure flow front).Accounts base := by
  cases flow with
  | wrapped => exact copy_start hbuf hcount
  | raw policy =>
    cases policy with
    | disabled => exact copy_start hbuf hcount
    | adaptive => exact goOn hbuf hcount
    | always => exact copy_start hbuf hcount
  | vision policy =>
    exact copy_start (buf_setLink .up hbuf (hbuf .up)) (count_setLink hcount (hcount .up))

theorem afterSplice {front : Bytes} {splice : Splice} {event : SpliceEvent}
    {result : Links × Step Splice (Option (ℕ × ℕ))}
    (hbooks : splice.Books (fun d => base d + r.count d) r.links)
    (hdoes : splice.Does r.links event result) (haccounted : splice.Accounted event) :
    (r.afterSplice flow front result).Accounts base := by
  match result with
  | (links', .next splice') => exact hbooks.next hdoes haccounted
  | (links', .done (some more)) =>
    obtain ⟨hup, hdown⟩ := hbooks.done hdoes haccounted
    exact ⟨hup.trans (Nat.add_assoc ..), hdown.trans (Nat.add_assoc ..)⟩
  | (links', .done none) =>
    have hbroken := hbooks.broken hdoes haccounted
    exact afterFailure (fun d => (hbroken d).2)
      (fun d => (hbroken d).1) front

theorem afterCopy {copy : Copy} (hsound : ∀ d, (copy d).Sound (base d + r.count d) (r.links d))
    (d : Dir) (answer : Answer) : (r.afterCopy (copy.step r.links d answer)).Accounts base := by
  have hsound' := Copy.sound_step (fun d => base d + r.count d) hsound d answer
  unfold Relay.afterCopy
  split
  case h_1 hresult => exact hsound'
  case h_2 more hresult =>
    cases more with
    | none => trivial
    | some more =>
      obtain ⟨_, hup, hdown⟩ := Copy.sound_ended _ hsound' hresult
      exact ⟨hup.trans (Nat.add_assoc ..), hdown.trans (Nat.add_assoc ..)⟩

theorem count_give (hcount : ∀ d, (r.links d).out.length + (r.links d).buf.length =
      base d + r.count d + r.stage.owed d) {k : ℕ} (hle : k ≤ (r.links d).buf.length) (d' : Dir) :
    ((r.setLink d ((r.links d).give k)).links d').out.length +
        ((r.setLink d ((r.links d).give k)).links d').buf.length =
      base d' + r.count d' + r.stage.owed d' := by
  rw [← hcount]
  by_cases hd : d' = d
  · subst hd
    rw [links_setLink, length_out_give hle, length_buf_give]
    omega
  · rw [links_setLink_of_ne r hd]

theorem chunk (hbuf : ∀ d, (r.links d).buf = [])
    (hcount : ∀ d, (r.links d).out.length = base d + r.count d) {n : ℕ}
    (hle : n ≤ (r.links d).rest.length) :
    ((r.setLink d ((r.links d).take n)).goto (.moving d n)).Accounts base := by
  refine ⟨fun d' hd' => ?_, fun d' => ?_⟩
  · have hd : d' ≠ d := fun heq => hd' (congrArg some heq.symm)
    show ((r.setLink d _).links d').buf = []
    rw [links_setLink_of_ne r hd]
    exact hbuf d'
  · show ((r.setLink d ((r.links d).take n)).links d').out.length +
        ((r.setLink d ((r.links d).take n)).links d').buf.length =
      base d' + r.count d' + if d' = d then n else 0
    by_cases hd : d' = d
    · subst hd
      rw [links_setLink, length_buf_take hle, hbuf, if_pos rfl, List.length_nil,
        Nat.zero_add, ← hcount]
      rfl
    · rw [links_setLink_of_ne r hd, hbuf, hcount, if_neg hd]
      rfl

theorem closed (hbuf : ∀ d, (r.links d).buf = [])
    (hcount : ∀ d, (r.links d).out.length = base d + r.count d) :
    ((r.setLink d (r.links d).close).goto .head).Accounts base := by
  have hclose : (r.links d).close.buf = [] := hbuf d
  have hbuf' := buf_setLink d hbuf hclose
  exact ⟨fun d' _ => hbuf' d', count_idle hbuf' (count_setLink hcount (hcount d))⟩

theorem does (h : r.Accounts base) (hdoes : r.Does flow event r')
    (haccounted : Relaying.Accounted r event) : r'.Accounts base := by
  cases hdoes with
  | nothing => exact h
  | part hwriting hle =>
    obtain ⟨htidy, hcount⟩ := h.writing hwriting
    exact of_writing hwriting (htidy.update hwriting _) (count_give hcount hle)
  | written hwriting hle hbuf =>
    obtain ⟨htidy, hcount⟩ := h.writing hwriting
    refine written (htidy.update hwriting _) (count_give hcount hle) hwriting ?_
    rwa [links_setLink]
  | headed hstage => exact h.atHead hstage _ _ _
  | eof hstage =>
    obtain ⟨hbuf, hcount⟩ := h.idle (hstage ▸ trivial)
    exact ⟨fun d _ => hbuf d, count_idle hbuf hcount⟩
  | chunk hstage hle =>
    obtain ⟨hbuf, hcount⟩ := h.idle (hstage ▸ trivial)
    exact chunk hbuf hcount hle
  | closed hstage =>
    obtain ⟨hbuf, hcount⟩ := h.idle (hstage ▸ trivial)
    exact closed hbuf hcount
  | entered hstage =>
    obtain ⟨_, hcount⟩ := h.idle (hstage ▸ trivial)
    exact Splice.Books.start hcount _
  | spliced hstage hdoes =>
    rw [Accounts, hstage] at h
    simp only [Relaying.Accounted, hstage] at haccounted
    exact afterSplice h hdoes haccounted
  | copied hstage =>
    rw [Accounts, hstage] at h
    exact afterCopy h _ _
  | failed => trivial

theorem start (hflow : flow ≠ .wrapped) (htidy : (start flow links).stage.Tidy links)
    (hbase : ∀ d, (links d).out.length = base d) : (start flow links).Accounts base := by
  have hcount (d : Dir) : (links d).out.length + (links d).buf.length =
      base d + (links d).buf.length + 0 := by
    rw [hbase]
    rfl
  cases flow with
  | wrapped => exact absurd rfl hflow
  | raw policy | vision policy =>
    unfold start at htidy ⊢
    dsimp only at htidy ⊢
    split_ifs at htidy ⊢ <;> exact ⟨htidy, hcount⟩

theorem start_wrapped (hbuf : ∀ d, (links d).buf = [])
    (hbase : ∀ d, (links d).out.length = base d) : (Relay.start .wrapped links).Accounts base := by
  intro d
  refine .start (hbuf d) ?_
  show (links d).out.length = base d + (links d).buf.length
  rw [hbuf, hbase]
  rfl

end Relay.Accounts

theorem guardPooledFirstWrite_out {pooled : Bool} {stream : Bytes} {first : FirstRead}
    {write : Bool} {fresh : Option Bool} {link : Link UInt8} {n : ℕ}
    (h : guardPooledFirstWrite pooled (.start stream) first write fresh = some (link, n)) :
    link.buf = [] ∧ link.out.length = n := by
  cases pooled with
  | false =>
    cases h
    exact ⟨rfl, rfl⟩
  | true =>
    cases first with
    | timeout =>
      cases h
      exact ⟨rfl, rfl⟩
    | failed => cases h
    | read k =>
      simp only [guardPooledFirstWrite, if_true] at h
      split_ifs at h
      · cases h
        exact ⟨rfl, rfl⟩
      · cases h
        generalize hk :
          min k (min (start stream).rest.length pooledFirstWriteGuardBufSize) = k'
        have hle : k' ≤ (start stream).rest.length := by omega
        have hlength : ((start stream).take k').buf.length = k' := by
          rw [length_buf_take hle]
          exact Nat.zero_add k'
        refine ⟨List.drop_eq_nil_of_le hlength.le, ?_⟩
        rw [length_out_give hlength.ge]
        exact Nat.zero_add k'

theorem begins_accounts {c : Connection} {streams : Dir → Bytes} {ahead : Dir → ℕ}
    {first : FirstRead} {write : Bool} {fresh : Option Bool} {prewritten : ℕ}
    (h : begins c streams ahead first write fresh = some (r, prewritten)) :
    r.Accounts fun d => if d = .up then prewritten else 0 := by
  obtain ⟨⟨link, n⟩, hguard, heq⟩ := Option.map_eq_some_iff.1 h
  obtain ⟨hbuf, hout⟩ := guardPooledFirstWrite_out hguard
  cases heq
  have hbase (d : Dir) : (linksOf streams c.flow ahead link d).out.length =
      if d = .up then n else 0 := by
    cases d with
    | up => exact hout
    | down => rfl
  obtain ⟨user, flow, pooled⟩ := c
  cases flow with
  | raw policy => exact .start nofun (tidy_start policy _) hbase
  | wrapped =>
    refine .start_wrapped (fun d => ?_) hbase
    cases d with
    | up =>
      show link.buf ++ [] = []
      rw [hbuf]
      rfl
    | down => rfl
  | vision policy =>
    refine .start nofun (tidy_start_vision policy ?_) hbase
    show link.buf ++ [] = []
    rw [hbuf]
    rfl

theorem recorded_iff {user : Option String} {name : String} {prewritten up down : ℕ}
    (h : r.Accounts fun d => if d = .up then prewritten else 0)
    (hrecorded : recorded user prewritten r = some (name, up, down)) :
    user = some name ∧
      ((up = (r.links .up).out.length ∧ down = (r.links .down).out.length) ↔ r.Silent) := by
  obtain ⟨links, count, eof, streak, stage⟩ := r
  match stage, user with
  | .done none, some _ =>
    cases hrecorded
    refine ⟨rfl, fun hzero d => List.eq_nil_of_length_eq_zero ?_, fun hsilent => ?_⟩
    · cases d with
      | up => exact hzero.1.symm
      | down => exact hzero.2.symm
    · exact ⟨(congrArg List.length (hsilent .up)).symm, (congrArg List.length (hsilent .down)).symm⟩
  | .done (some counts), some _ =>
    obtain ⟨hup, hdown⟩ := h
    cases hrecorded
    refine ⟨rfl, fun _ => trivial, fun _ => ⟨?_, ?_⟩⟩
    · rw [hup]
      exact Nat.add_comm ..
    · rw [hdown]
      exact (Nat.zero_add _).symm

/-- **The recorded traffic.**  As long as no splice fails with bytes delivered, and none is cut off
with bytes that it leaves uncounted, the counts that `dispatch` records for the user are the numbers
of bytes that were delivered to the outbound and to the inbound exactly if the relay returns no
error, or has delivered nothing. -/
theorem dispatch_records (c : Connection) (streams : Dir → Bytes) (ahead : Dir → ℕ)
    (first : FirstRead) (write : Bool) (fresh : Option Bool) {prewritten : ℕ}
    (hbegins : begins c streams ahead first write fresh = some (r, prewritten))
    (events : List Event) (h : Run.Meets Accounted (step c.flow) r events)
    {user : String} {up down : ℕ}
    (hrecorded : recorded c.user prewritten (events.foldl (step c.flow) r) =
      some (user, up, down)) :
    c.user = some user ∧
      ((up = ((events.foldl (step c.flow) r).links .up).out.length ∧
        down = ((events.foldl (step c.flow) r).links .down).out.length) ↔
          (events.foldl (step c.flow) r).Silent) := by
  have haccounts : (events.foldl (step c.flow) r).Accounts
      fun d => if d = .up then prewritten else 0 :=
    Run.invariant_of_meets (fun r event h hok => h.does (r.step_does _ event) hok)
      (begins_accounts hbegins) h
  exact recorded_iff haccounts hrecorded

def sampleConnection : Connection := ⟨some "user", .raw .always, true⟩

def sampleRelay : Relay :=
  .start (.raw .always) (linksOf sampleStreams (.raw .always) (fun _ => 0)
    (((start [1, 2]).take 1).give 1))

def sampleEvents : List Event :=
  .head 0 false none :: .enter (some false) ::
    [.move .up (.moved 1), .move .up (.moved 1), .move .up (.moved 0), .move .down (.moved 1),
      .move .down (.moved 1), .move .down (.moved 0)].map fun event => .splice (.epoll event)

theorem dispatch_records_sample :
    2 = ((sampleEvents.foldl (step (.raw .always)) sampleRelay).links .up).out.length ∧
      1 = ((sampleEvents.foldl (step (.raw .always)) sampleRelay).links .down).out.length :=
  have hbegins : begins sampleConnection sampleStreams (fun _ => 0) (.read 1) true none =
      some (sampleRelay, 1) := rfl
  have hrecorded : recorded (some "user") 1
      (sampleEvents.foldl (step (.raw .always)) sampleRelay) = some ("user", 2, 1) := by
    decide +kernel
  have hsilent : (sampleEvents.foldl (step (.raw .always)) sampleRelay).Silent := by decide +kernel
  (dispatch_records sampleConnection sampleStreams (fun _ => 0) (.read 1) true none hbegins
    sampleEvents (by decide +kernel) hrecorded).2.2 hsilent

def traffic (flow : Flow) (events : List Event) : Option ((ℕ × ℕ) × Bytes × Bytes) :=
  (begins ⟨some "user", flow, false⟩ sampleStreams (fun _ => 0) .timeout true none).bind
    fun begun =>
      let r := events.foldl (step flow) begun.1
      (recorded (some "user") begun.2 r).map fun record =>
        (record.2, (r.links .up).out, (r.links .down).out)

def failingEvents : List Event :=
  [(.up, .read 1), (.up, .wrote 1), (.up, .flushed), (.up, .failed), (.down, .read 1),
    (.down, .wrote 1), (.down, .flushed), (.down, .read 0)].map fun event => .copy event.1 event.2

def lateEvents : List Event :=
  .head 0 false none :: .enter (some false) ::
    [.move .down (.moved 1), .move .down (.moved 1), .move .up (.moved 2), .move .up (.moved 2),
      .move .up (.moved 0), .expire].map fun event => .splice (.epoll event)

def fallbackEvents : List Event :=
  [.head 0 false none, .enter (some true), .splice (.created true),
    .splice (.uring (.complete .up (.moved 2))), .splice (.uring (.reap .up)),
    .splice (.uring (.complete .up (.moved 2))), .splice (.uring .fault), .copy .up (.read 0),
    .copy .down (.read 1), .copy .down (.wrote 1), .copy .down .flushed, .copy .down (.read 0)]

/-- Runs whose traffic is recorded wrongly: no byte of a relay that fails is recorded, none of a
direction that is cut off, and none of a ring that fails. -/
theorem dispatch_miscounts :
    traffic .wrapped failingEvents = some ((0, 0), [1], [3]) ∧
      traffic (.raw .always) lateEvents = some ((2, 0), [1, 2], [3]) ∧
      traffic (.raw .always) fallbackEvents = some ((0, 1), [1, 2], [3]) := by
  decide +kernel

/-! ### The bytes in front of a Vision stream's socket -/

theorem Unrepeated.front_eq (h : Unrepeated r event) {policy : Policy} {front : Bytes}
    {splice : Splice} (hstage : r.stage = .splice front splice)
    (hcopy : (r.step (.vision policy) event).stage = .copy .start) : front = [] := by
  cases event with
  | splice event =>
    simp only [Unrepeated, hstage] at h
    simp only [Relay.step, hstage] at hcopy
    rcases hresult : splice.step r.links event with ⟨_, (_ | _) | _⟩ <;>
      rw [hresult] at h hcopy
    · exact h
    all_goals cases hcopy
  | _ =>
    simp only [Relay.step, hstage] at hcopy
    cases hcopy

def visionStart (policy : Policy) (streams : Dir → Bytes) (ahead : Dir → ℕ) : Relay :=
  .start (.vision policy) (readAhead streams (Flow.ahead ahead (.vision policy)))

/-- **The bytes in front are written once.**  As long as a splice fails with no byte moved and no
bytes in front of the socket, and none is cut off with bytes that it leaves uncounted, the server
gets the client's bytes in order, each once, and the count that is returned is that of the bytes
written. -/
theorem vision_in_order (policy : Policy) (streams : Dir → Bytes) (ahead : Dir → ℕ)
    (events : List Event)
    (h : Run.Meets (fun r event => Lossless r event ∧ Accounted r event ∧ Unrepeated r event)
      (Relay.step (.vision policy)) (visionStart policy streams ahead) events) :
    let r := events.foldl (Relay.step (.vision policy)) (visionStart policy streams ahead)
    (r.links .up).out <+: streams .up ∧
      ∀ counts, r.stage = .done (some counts) → counts.1 = (r.links .up).out.length := by
  have hup : (readAhead streams (Flow.ahead ahead (.vision policy)) .up).buf = [] := rfl
  intro r
  obtain ⟨hsound, haccounts⟩ : Relay.Sound streams r ∧ r.Accounts fun _ => 0 :=
    Run.invariant_of_meets (P := fun r => Relay.Sound streams r ∧ r.Accounts fun _ => 0)
      (fun r event h hok => ⟨h.1.does (r.step_does _ event) hok.1 fun _ _ _ => hok.2.2.front_eq,
        h.2.does (r.step_does _ event) hok.2.1⟩)
      ⟨.of_tidy (Relay.tidy_start_vision policy hup) fun _ => Link.carried_take _ _,
        .start nofun (Relay.tidy_start_vision policy hup) fun _ => rfl⟩ h
  refine ⟨hsound.out .up, fun counts hdone => ?_⟩
  rw [Relay.Accounts, hdone] at haccounts
  rw [haccounts.1, Nat.zero_add]

/-- The client's first byte is in front of the socket and is written when the relay splices. -/
def frontWritten : List Event :=
  [.head 0 true (some 1), .wrote 1, .enter (some true), .splice (.created true)]

/-- The splice moves the second byte of the client and the byte of the server, and ends. -/
def frontSpliced : List Event :=
  [.head 0 true (some 1), .wrote 1, .enter (some false)] ++
    [.move .up (.moved 1), .move .up (.moved 1), .move .up (.moved 0), .move .down (.moved 1),
      .move .down (.moved 1), .move .down (.moved 0)].map fun event => .splice (.epoll event)

theorem vision_front_once :
    ((frontSpliced.foldl (step (.vision .always))
        (visionStart .always sampleStreams fun _ => 0)).links .up).out <+: [1, 2] ∧
      2 = ((frontSpliced.foldl (step (.vision .always))
        (visionStart .always sampleStreams fun _ => 0)).links .up).out.length :=
  have horder := vision_in_order .always sampleStreams (fun _ => 0) frontSpliced (by decide +kernel)
  ⟨horder.1, horder.2 (2, 1) rfl⟩

/-- The ring fails before it has moved a byte, and the first byte is written again. -/
theorem vision_front_twice :
    ((List.foldl (step (.vision .always)) (visionStart .always sampleStreams fun _ => 0)
      (frontWritten ++ [.splice (.uring .fault), .copy .up (.read 1), .copy .up (.wrote 1)])).links
        .up).out = [1, 1] := by
  decide +kernel

end Blackwire.Relaying

/-! ### The first write, poll by poll -/

namespace Blackwire.FirstWrite

open AsyncIO AsyncRead List

variable {σ : Type} [AsyncRead σ]

/-- `write_all` on a connection that was not used: whether it succeeds, and what was taken. -/
def writeAll (bs : Bytes) : Option ℕ → Bool × Bytes
  | some n => (false, bs.take n)
  | none => (true, bs)

/-- `guard_pooled_first_write`, with how the write to the pooled connection fails, and whether a
fresh one is opened and how the write to that one fails: the client's stream, the bytes that the
connection has taken, and their number. -/
def guardPooledFirstWrite (pooled : Bool) (inbound : σ) (fails : Option ℕ)
    (fresh : Option (Option ℕ)) : Option (σ × Bytes × ℕ) :=
  if pooled then
    match readSome true Relaying.pooledFirstWriteGuardBufSize inbound with
    | (.error .elapsed, inbound) => some (inbound, [], 0)
    | (.error .unexpectedEof, _) => none
    | (.ok first, inbound) =>
      if first = [] then some (inbound, [], 0)
      else
        match writeAll first fails with
        | (true, outbound) => some (inbound, outbound, first.length)
        | (false, _) =>
          match fresh.map (writeAll first) with
          | some (true, outbound) => some (inbound, outbound, first.length)
          | _ => none
  else some (inbound, [], 0)

theorem rest_readSomeAux (n fuel : ℕ) (s : σ) : rest s =
    (readSomeAux true n fuel s).1.toOption.getD [] ++ rest (readSomeAux true n fuel s).2 := by
  induction fuel generalizing s with
  | zero => rfl
  | succ fuel ih =>
    unfold readSomeAux
    split
    · rename_i hpoll
      rw [← rest_pending hpoll]
      split_ifs
      · rfl
      · exact ih _
    · rename_i hpoll
      exact rest_ready hpoll

/-- **The first write is made once.**  For every stream, timing and failure, the connection that is
used has taken the first `k` bytes of the client, and the others are still to be read. -/
theorem guard_once (pooled : Bool) (inbound : σ) (fails : Option ℕ) (fresh : Option (Option ℕ)) :
    match guardPooledFirstWrite pooled inbound fails fresh with
    | none => True
    | some (inbound', outbound, k) =>
      outbound = (rest inbound).take k ∧ rest inbound' = (rest inbound).drop k := by
  have hread := rest_readSomeAux Relaying.pooledFirstWriteGuardBufSize (stalls inbound + 1) inbound
  unfold guardPooledFirstWrite readSome
  generalize readSomeAux true _ _ inbound = result at hread ⊢
  obtain ⟨(_ | _) | first, inbound'⟩ := result <;> cases pooled
  case error.elapsed.true => exact ⟨rfl, hread.symm⟩
  case error.unexpectedEof.true => trivial
  case ok.true =>
    have hsplit : first = (rest inbound).take first.length ∧
        rest inbound' = (rest inbound).drop first.length := by
      rw [hread]
      exact ⟨take_left.symm, drop_left.symm⟩
    rw [if_pos rfl]
    dsimp only
    split_ifs with hempty
    · subst hempty
      exact ⟨rfl, hread.symm⟩
    · rcases fails with _ | n
      · exact hsplit
      · rcases fresh with _ | _ | n
        · trivial
        · exact hsplit
        · trivial
  all_goals exact ⟨rfl, rfl⟩

end Blackwire.FirstWrite
