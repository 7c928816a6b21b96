import Blackwire.Common.SplicePoll
import Blackwire.Common.SpliceRing

/-!
# The relay of a connection

`relay_bidirectional_with_splice_policy` of `relay.rs`, with `adaptive_copy_then_splice` and
`relay_vision_inbound_with_splice_policy`: bytes that were read ahead are passed on first, then the
streams are copied or spliced, and when splicing fails they are copied.
-/

namespace Blackwire.Relaying

open Loop Splicing CopyRelay Function

/-! ### The policy -/

inductive Policy where
  | disabled
  | adaptive
  | always

/-- What the relay is given: a stream that is wrapped, two raw sockets, or a Vision stream and a raw
socket. -/
inductive Flow where
  | wrapped
  | raw (policy : Policy)
  | vision (policy : Policy)

def adaptiveSpliceMinBytes : ℕ := 256 * 1024

def adaptiveSpliceLongStreamAfter : ℕ := 30 * 1000 * 1000

def adaptiveCopyBufferBytes : ℕ := 64 * 1024

def adaptiveSpliceFullReadStreak : ℕ := 4

def adaptiveSpliceFullReadMinBytes : ℕ := 64 * 1024

def adaptiveSpliceReady (copiedTotal elapsed fullReadStreak : ℕ) : Bool :=
  decide (adaptiveSpliceFullReadStreak ≤ fullReadStreak) &&
    (decide (adaptiveSpliceMinBytes ≤ copiedTotal) ||
      decide (adaptiveSpliceFullReadMinBytes ≤ copiedTotal) &&
        decide (adaptiveSpliceLongStreamAfter ≤ elapsed))

def adaptiveSpliceReadyForDirections (copied : Dir → ℕ) (elapsed : ℕ) (streak : Dir → ℕ) : Bool :=
  adaptiveSpliceReady (copied .up) elapsed (streak .up) ||
    adaptiveSpliceReady (copied .down) elapsed (streak .down)

variable (policy : Policy) {flow : Flow} {links links' : Links} {d : Dir} (streams : Dir → Bytes)
  (ahead : Dir → ℕ)

def visionSplicePolicyReady (copied : Dir → ℕ) (elapsed : ℕ) (streak : Dir → ℕ) : Bool :=
  match policy with
  | .disabled => false
  | .always => true
  | .adaptive => adaptiveSpliceReadyForDirections copied elapsed streak

def updateFullReadStreak (current readLen bufLen : ℕ) : ℕ :=
  if readLen = bufLen then min (current + 1) 255 else 0

/-! ### The relay -/

/-- Where the relay is: it writes bytes that were read ahead in a direction; it is at the head of
its loop, in `select`, in `write_all` with a chunk of `n` bytes, or in `shutdown`; it writes the
bytes in front of the socket under a Vision stream; it is about to splice, splices, or copies; or it
has returned.  A relay that splices keeps the bytes in front, in case that it fails. -/
inductive Stage where
  | ahead (d : Dir)
  | head
  | select
  | moving (d : Dir) (n : ℕ)
  | shutting (d : Dir)
  | inner (front : Bytes)
  | entering (front : Bytes)
  | splice (front : Bytes) (splice : Splice)
  | copy (copy : Copy)
  | done (result : Option (ℕ × ℕ))

def Stage.writing : Stage → Option Dir
  | .ahead d | .moving d _ => some d
  | .inner _ => some .up
  | _ => none

/-- `relay_bidirectional_with_splice_policy`, with both directions.  What was read ahead is held in
the links, and is counted from the beginning. -/
structure Relay where
  links : Links
  count : Dir → ℕ
  eof : Dir → Bool
  streak : Dir → ℕ
  stage : Stage

/-- What happens: bytes are written, the loop looks at its conditions, `splice_bidirectional` finds
out what is known of the ring, bytes are read, a socket is closed, a call fails, or something
happens to the splice or the copy.  At its head the loop sees the time that has passed, whether a
Vision stream has come to its raw socket, and the number of bytes in front of that socket, or that
it is wrapped. -/
inductive Event where
  | wrote (k : ℕ)
  | head (elapsed : ℕ) (direct : Bool) (inner : Option ℕ)
  | enter (available : Option Bool)
  | read (d : Dir) (n : ℕ)
  | shut
  | failed
  | splice (event : SpliceEvent)
  | copy (d : Dir) (answer : Answer)

variable {r r' : Relay} {event : Event}

namespace Relay

variable (r : Relay) (flow : Flow)

def setLink (d : Dir) (link : Link UInt8) : Relay :=
  { r with links := update r.links d link }

def goto (stage : Stage) : Relay := { r with stage := stage }

def afterAhead : Dir → Stage
  | .up => if (r.links .down).buf = [] then .head else .ahead .down
  | .down => .head

def start (links : Links) : Relay where
  links := links
  count d := (links d).buf.length
  eof _ := false
  streak _ := 0
  stage :=
    match flow with
    | .wrapped => .copy .start
    | .raw _ =>
      if (links .up).buf ≠ [] then .ahead .up
      else if (links .down).buf ≠ [] then .ahead .down
      else .head
    | .vision _ => if (links .down).buf = [] then .head else .ahead .down

def counts (more : ℕ × ℕ) : ℕ × ℕ := (r.count .up + more.1, r.count .down + more.2)

def goOn : Relay :=
  if r.eof .up && r.eof .down then r.goto (.done (some (r.counts (0, 0)))) else r.goto .select

/-- The raw socket under a Vision stream, with `n` bytes in front of it, or another stream. -/
def intoInner : Option ℕ → Relay
  | none => r.goto (.copy .start)
  | some n =>
    let front := (r.links .up).rest.take n
    (r.setLink .up ((r.links .up).take n)).goto (if front = [] then .entering [] else .inner front)

def atHead (r : Relay) (elapsed : ℕ) (direct : Bool) (inner : Option ℕ) : Relay :=
  match flow with
  | .wrapped => r
  | .raw .disabled => r.goto (.copy .start)
  | .raw .always => r.goto (.entering [])
  | .raw .adaptive =>
    if !r.eof .up && !r.eof .down &&
        adaptiveSpliceReadyForDirections r.count elapsed r.streak then
      r.goto (.entering [])
    else r.goOn
  | .vision policy =>
    if direct && !r.eof .up && !r.eof .down &&
        visionSplicePolicyReady policy r.count elapsed r.streak then
      r.intoInner inner
    else r.goOn

def afterFailure (r : Relay) (front : Bytes) : Relay :=
  match flow with
  | .raw .adaptive => r.goOn
  | .vision _ => (r.setLink .up ((r.links .up).unread front)).goto (.copy .start)
  | _ => r.goto (.copy .start)

def written : Relay :=
  match r.stage with
  | .ahead d => r.goto (r.afterAhead d)
  | .moving d n =>
    { r with
      count := update r.count d (r.count d + n)
      streak := update r.streak d (updateFullReadStreak (r.streak d) n adaptiveCopyBufferBytes)
      stage := .head }
  | .inner front =>
    { r with
      count := update r.count .up (r.count .up + front.length)
      stage := .entering front }
  | _ => r

def write (k : ℕ) : Relay :=
  match r.stage.writing with
  | none => r
  | some d =>
    if 0 < k ∧ k ≤ (r.links d).buf.length then
      let r := r.setLink d ((r.links d).give k)
      if (r.links d).buf = [] then r.written else r
    else r

def read (d : Dir) (n : ℕ) : Relay :=
  if r.eof d then r
  else if n ≤ min (r.links d).rest.length adaptiveCopyBufferBytes then
    if n = 0 then
      if (r.links d).rest = [] then
        { r with eof := update r.eof d true, stage := .shutting d }
      else r
    else (r.setLink d ((r.links d).take n)).goto (.moving d n)
  else r

def afterSplice (r : Relay) (front : Bytes) : Links × Step Splice (Option (ℕ × ℕ)) → Relay
  | (links, .next splice) => { r with links := links, stage := .splice front splice }
  | (links, .done (some more)) => { r with links := links, stage := .done (some (r.counts more)) }
  | (links, .done none) => afterFailure flow { r with links := links } front

def afterCopy (result : Links × Copy) : Relay :=
  match result.2.result with
  | none => { r with links := result.1, stage := .copy result.2 }
  | some more => { r with links := result.1, stage := .done (more.map r.counts) }

def step (r : Relay) (event : Event) : Relay :=
  match r.stage, event with
  | .ahead _, .wrote k | .moving _ _, .wrote k | .inner _, .wrote k => r.write k
  | .ahead _, .failed | .moving _ _, .failed | .inner _, .failed => r.goto (.done none)
  | .head, .head elapsed direct inner => r.atHead flow elapsed direct inner
  | .select, .read d n => r.read d n
  | .select, .failed | .shutting _, .failed => r.goto (.done none)
  | .shutting d, .shut => (r.setLink d (r.links d).close).goto .head
  | .entering front, .enter available => r.goto (.splice front (.start available))
  | .splice front splice, .splice event => r.afterSplice flow front (splice.step r.links event)
  | .copy copy, .copy d answer => r.afterCopy (copy.step r.links d answer)
  | _, _ => r

end Relay

theorem Relay.links_setLink (r : Relay) (d : Dir) (link : Link UInt8) :
    (r.setLink d link).links d = link := update_self ..

theorem Relay.links_setLink_of_ne (r : Relay) {d d' : Dir} (h : d' ≠ d) (link : Link UInt8) :
    (r.setLink d link).links d' = r.links d' := update_of_ne h ..

theorem Relay.buf_setLink (d : Dir) (hbuf : ∀ d, (r.links d).buf = [])
    {link : Link UInt8} (hlink : link.buf = []) : ∀ d', ((r.setLink d link).links d').buf = [] :=
  Dir.forall_update (P := fun _ (link : Link UInt8) => link.buf = []) hbuf hlink

/-! ### What an event can do -/

inductive Relay.Does (flow : Flow) (r : Relay) : Event → Relay → Prop
  | nothing {event : Event} : Does flow r event r
  | part {d : Dir} {k : ℕ} (hwriting : r.stage.writing = some d) (hle : k ≤ (r.links d).buf.length)
    (hbuf : ((r.links d).give k).buf ≠ []) :
    Does flow r (.wrote k) (r.setLink d ((r.links d).give k))
  | written {d : Dir} {k : ℕ} (hwriting : r.stage.writing = some d)
    (hle : k ≤ (r.links d).buf.length) (hbuf : ((r.links d).give k).buf = []) :
    Does flow r (.wrote k) (r.setLink d ((r.links d).give k)).written
  | headed {elapsed : ℕ} {direct : Bool} {inner : Option ℕ} (hstage : r.stage = .head) :
    Does flow r (.head elapsed direct inner) (r.atHead flow elapsed direct inner)
  | eof {d : Dir} (hstage : r.stage = .select) (hrest : (r.links d).rest = []) :
    Does flow r (.read d 0) { r with eof := update r.eof d true, stage := .shutting d }
  | chunk {d : Dir} {n : ℕ} (hstage : r.stage = .select) (hle : n ≤ (r.links d).rest.length) :
    Does flow r (.read d n) ((r.setLink d ((r.links d).take n)).goto (.moving d n))
  | closed {d : Dir} (hstage : r.stage = .shutting d) :
    Does flow r .shut ((r.setLink d (r.links d).close).goto .head)
  | entered {front : Bytes} {available : Option Bool} (hstage : r.stage = .entering front) :
    Does flow r (.enter available) (r.goto (.splice front (.start available)))
  | spliced {front : Bytes} {splice : Splice} {event : SpliceEvent}
    {result : Links × Step Splice (Option (ℕ × ℕ))} (hstage : r.stage = .splice front splice)
    (hdoes : splice.Does r.links event result) :
    Does flow r (.splice event) (r.afterSplice flow front result)
  | copied {copy : Copy} {d : Dir} {answer : Answer} (hstage : r.stage = .copy copy) :
    Does flow r (.copy d answer) (r.afterCopy (copy.step r.links d answer))
  | failed (hcopy : ∀ copy, r.stage ≠ .copy copy)
    (hsplice : ∀ front splice, r.stage ≠ .splice front splice)
    (hdone : ∀ result, r.stage ≠ .done result) :
    Does flow r .failed (r.goto (.done none))

theorem Relay.write_does (flow : Flow) (r : Relay) (k : ℕ) :
    Does flow r (.wrote k) (r.write k) := by
  unfold write
  split
  case h_1 => exact .nothing
  case h_2 d hwriting =>
    split_ifs with hk
    · show Does flow r (.wrote k) (if _ then _ else _)
      rw [links_setLink]
      split_ifs with hbuf
      · exact .written hwriting hk.2 hbuf
      · exact .part hwriting hk.2 hbuf
    · exact .nothing

theorem Relay.read_does (flow : Flow) {r : Relay} (hstage : r.stage = .select) (d : Dir) (n : ℕ) :
    Does flow r (.read d n) (r.read d n) := by
  unfold read
  split_ifs with heof hle hzero hrest
  · exact .nothing
  · subst hzero
    exact .eof hstage hrest
  · exact .nothing
  · exact .chunk hstage (by omega)
  · exact .nothing

theorem Relay.step_does (flow : Flow) (r : Relay) (event : Event) :
    Does flow r event (r.step flow event) := by
  unfold step
  split
  case h_1 | h_2 | h_3 => exact r.write_does flow _
  case h_7 hstage => exact .headed hstage
  case h_8 d n hstage => exact r.read_does flow hstage d n
  case h_4 hstage | h_5 hstage | h_6 hstage | h_9 hstage | h_10 hstage =>
    exact .failed (hstage ▸ nofun) (hstage ▸ nofun) (hstage ▸ nofun)
  case h_11 hstage => exact .closed hstage
  case h_12 hstage => exact .entered hstage
  case h_13 hstage => exact .spliced hstage (Splice.step_does _ _ _)
  case h_14 hstage => exact .copied hstage
  case h_15 => exact .nothing

/-! ### Raw sockets -/

def Stage.Tidy (links : Links) : Stage → Prop
  | .ahead .up => True
  | .splice _ running => running.Tidy links
  | .copy _ => True
  | .done _ => True
  | stage => ∀ d, stage.writing ≠ some d → (links d).buf = []

theorem Stage.Tidy.update {stage : Stage} (h : stage.Tidy links) (hwriting : stage.writing = some d)
    (link : Link UInt8) : stage.Tidy (Function.update links d link) := by
  have hother (hbuf : ∀ d', stage.writing ≠ some d' → (links d').buf = []) (d' : Dir)
      (hd' : stage.writing ≠ some d') : (Function.update links d link d').buf = [] := by
    have hd : d' ≠ d := fun heq => hd' (heq ▸ hwriting)
    rw [Function.update_of_ne hd]
    exact hbuf d' hd'
  cases stage with
  | ahead d' =>
    cases d' with
    | up => trivial
    | down => exact hother h
  | moving | inner => exact hother h
  | _ => cases hwriting

theorem Stage.Tidy.empty {stage : Stage} (h : stage.Tidy links) (hwriting : stage.writing = some d)
    (hstage : stage ≠ .ahead .up) (hbuf : (links d).buf = []) (d' : Dir) : (links d').buf = [] := by
  by_cases hd : d' = d
  · rwa [hd]
  have hother : stage.writing ≠ some d' := fun heq => hd (Option.some.inj (heq.symm.trans hwriting))
  cases stage with
  | ahead d₁ =>
    cases d₁ with
    | up => exact absurd rfl hstage
    | down => exact h d' hother
  | moving | inner => exact h d' hother
  | _ => cases hwriting

theorem Relay.links_written (r : Relay) : r.written.links = r.links := by
  unfold written
  split <;> rfl

theorem Relay.tidy_written (htidy : r.stage.Tidy r.links) (hwriting : r.stage.writing = some d)
    (hbuf : (r.links d).buf = []) : r.written.stage.Tidy r.links := by
  unfold written
  split
  case h_1 d' hstage =>
    rw [hstage] at hwriting htidy
    cases hwriting
    cases d with
    | up =>
      simp only [goto, afterAhead]
      split_ifs with hdown
      · intro d _
        cases d with
        | up => exact hbuf
        | down => exact hdown
      · intro d hd
        cases d with
        | up => exact hbuf
        | down => exact absurd rfl hd
    | down => exact fun d _ => htidy.empty rfl nofun hbuf d
  case h_2 d' n hstage | h_3 front hstage =>
    rw [hstage] at hwriting htidy
    exact fun d _ => htidy.empty hwriting nofun hbuf d
  case h_4 => exact htidy

theorem Relay.tidy_intoInner (hbuf : ∀ d, (r.links d).buf = []) (inner : Option ℕ) :
    (r.intoInner inner).stage.Tidy (r.intoInner inner).links := by
  cases inner with
  | none => trivial
  | some n =>
    simp only [intoInner, goto]
    split_ifs with hnone
    · refine fun d _ => buf_setLink .up hbuf ?_ d
      rwa [Link.take, hbuf]
    · intro d hd
      have hd' : d ≠ .up := fun heq => hd (congrArg some heq.symm)
      rw [links_setLink_of_ne r hd']
      exact hbuf d

def Relay.Sound (streams : Dir → Bytes) (r : Relay) : Prop :=
  match r.stage with
  | .done _ => ∀ d, (r.links d).out <+: streams d
  | stage => stage.Tidy r.links ∧ ∀ d, (r.links d).carried = streams d

open Relay

/-- The condition on a step: a splice that fails has no bytes in its pipes. -/
def Lossless (r : Relay) (event : Event) : Prop :=
  match r.stage, event with
  | .splice _ splice, .splice event => splice.Lossless r.links event
  | _, _ => True

namespace Relay.Sound

variable {streams : Dir → Bytes}

theorem of_tidy (htidy : r.stage.Tidy r.links) (hcarried : ∀ d, (r.links d).carried = streams d) :
    Sound streams r := by
  unfold Sound
  split
  case h_1 =>
    intro d
    rw [← hcarried]
    exact (r.links d).out_prefix_carried
  case h_2 => exact ⟨htidy, hcarried⟩

theorem tidy (h : Sound streams r) : r.stage.Tidy r.links := by
  unfold Sound at h
  split at h
  case h_1 result hstage =>
    rw [hstage]
    trivial
  case h_2 => exact h.1

theorem carried (h : Sound streams r) (hdone : ∀ result, r.stage ≠ .done result) (d : Dir) :
    (r.links d).carried = streams d := by
  unfold Sound at h
  split at h
  case h_1 result hstage => exact absurd hstage (hdone result)
  case h_2 => exact h.2 d

theorem out (h : Sound streams r) (d : Dir) : (r.links d).out <+: streams d := by
  unfold Sound at h
  split at h
  case h_1 => exact h d
  case h_2 =>
    rw [← h.2]
    exact (r.links d).out_prefix_carried

theorem goOn (hbuf : ∀ d, (r.links d).buf = []) (hcarried : ∀ d, (r.links d).carried = streams d) :
    Sound streams r.goOn := by
  unfold Relay.goOn
  split_ifs
  · exact of_tidy trivial hcarried
  · exact of_tidy (fun d _ => hbuf d) hcarried

theorem intoInner (hbuf : ∀ d, (r.links d).buf = [])
    (hcarried : ∀ d, (r.links d).carried = streams d) (inner : Option ℕ) :
    Sound streams (r.intoInner inner) := by
  refine of_tidy (tidy_intoInner hbuf inner) ?_
  cases inner with
  | none => exact hcarried
  | some n => exact fun d => (moves_update (.take n _) d).carried.trans (hcarried d)

theorem atHead (h : Sound streams r) (hstage : r.stage = .head) (elapsed : ℕ) (direct : Bool)
    (inner : Option ℕ) : Sound streams (r.atHead flow elapsed direct inner) := by
  have htidy := h.tidy
  have hcarried := h.carried (hstage ▸ nofun)
  rw [hstage] at htidy
  have hbuf (d : Dir) : (r.links d).buf = [] := htidy d nofun
  have hentering : Sound streams (r.goto (.entering [])) := of_tidy (fun d _ => hbuf d) hcarried
  cases flow with
  | wrapped => exact h
  | raw policy =>
    cases policy with
    | disabled => exact of_tidy trivial hcarried
    | always => exact hentering
    | adaptive =>
      simp only [atHead]
      split_ifs
      · exact hentering
      · exact goOn hbuf hcarried
  | vision policy =>
    simp only [atHead]
    split_ifs
    · exact intoInner hbuf hcarried inner
    · exact goOn hbuf hcarried

theorem written (htidy : r.stage.Tidy r.links) (hcarried : ∀ d, (r.links d).carried = streams d)
    (hwriting : r.stage.writing = some d) (hbuf : (r.links d).buf = []) :
    Sound streams r.written := by
  refine of_tidy ?_ ?_
  · rw [links_written]
    exact tidy_written htidy hwriting hbuf
  · rwa [links_written]

theorem afterSplice {front : Bytes} {splice : Splice} {event : SpliceEvent}
    {result : Links × Step Splice (Option (ℕ × ℕ))} (htidy : splice.Tidy r.links)
    (hcarried : ∀ d, (r.links d).carried = streams d) (hdoes : splice.Does r.links event result)
    (hlossless : splice.Lossless r.links event)
    (hfront : (∃ policy, flow = .vision policy) → result.2 = .done none → front = []) :
    Sound streams (r.afterSplice flow front result) := by
  match result with
  | (links', .next splice') =>
    obtain ⟨htidy', hmoves⟩ := hdoes.next htidy hlossless
    exact of_tidy htidy' fun d => (hmoves d).carried.trans (hcarried d)
  | (_, .done (some more)) =>
    obtain ⟨links₁, rfl, hmoves⟩ := hdoes.done
    intro d
    rw [← hcarried, ← (hmoves d).carried]
    exact (links₁ d).out_prefix_carried
  | (links', .done none) =>
    have hbroken := hdoes.broken htidy hlossless
    have hcarried' (d : Dir) : (links' d).carried = streams d :=
      (hbroken d).1.carried.trans (hcarried d)
    cases flow with
    | wrapped => exact of_tidy trivial hcarried'
    | raw policy =>
      cases policy with
      | disabled | always => exact of_tidy trivial hcarried'
      | adaptive => exact goOn (fun d => (hbroken d).2) hcarried'
    | vision policy =>
      obtain rfl := hfront ⟨policy, rfl⟩ rfl
      refine of_tidy trivial ?_
      show ∀ d, (update links' .up (links' .up) d).carried = streams d
      rwa [update_eq_self]

theorem afterCopy {copy : Copy} (hcarried : ∀ d, (r.links d).carried = streams d) (d : Dir)
    (answer : Answer) : Sound streams (r.afterCopy (copy.step r.links d answer)) := by
  have hcarried' (d' : Dir) : ((copy.step r.links d answer).1 d').carried = streams d' :=
    (moves_update (CopyOne.step_does _ _ _).moves d').carried.trans (hcarried d')
  unfold Relay.afterCopy
  split
  · exact of_tidy trivial hcarried'
  · exact of_tidy trivial hcarried'

theorem does (h : Sound streams r) (hdoes : Does flow r event r') (hlossless : Lossless r event)
    (hfront : (∃ policy, flow = .vision policy) →
      ∀ front splice, r.stage = .splice front splice → r'.stage = .copy .start → front = []) :
    Sound streams r' := by
  have htidy := h.tidy
  -- `write_all` runs before the relay has returned
  have hgive {d : Dir} (hwriting : r.stage.writing = some d) (k : ℕ) (d' : Dir) :
      ((r.setLink d ((r.links d).give k)).links d').carried = streams d' := by
    have hdone (result : Option (ℕ × ℕ)) (heq : r.stage = .done result) : False := by
      rw [heq] at hwriting
      cases hwriting
    exact (moves_update (.give k _) d').carried.trans (h.carried hdone d')
  cases hdoes with
  | nothing => exact h
  | part hwriting => exact of_tidy (htidy.update hwriting _) (hgive hwriting _)
  | @written d k hwriting hle hbuf =>
    refine written (htidy.update hwriting _) (hgive hwriting k) hwriting ?_
    rwa [links_setLink]
  | headed hstage => exact h.atHead hstage _ _ _
  | eof hstage =>
    rw [hstage] at htidy
    exact of_tidy (fun d _ => htidy d nofun) (h.carried (hstage ▸ nofun))
  | @chunk d n hstage =>
    rw [hstage] at htidy
    refine of_tidy (fun d' hd' => ?_) fun d' => ?_
    · have hd : d' ≠ d := fun heq => hd' (congrArg some heq.symm)
      show ((r.setLink d _).links d').buf = []
      rw [links_setLink_of_ne r hd]
      exact htidy d' nofun
    · exact (moves_update (.take n _) d').carried.trans (h.carried (hstage ▸ nofun) d')
  | @closed d hstage =>
    rw [hstage] at htidy
    have hclose : (r.links d).close.buf = [] := htidy d nofun
    refine of_tidy (fun d' _ => ?_) fun d' => ?_
    · exact buf_setLink d (fun d => htidy d nofun) hclose d'
    · exact (moves_update (.close _) d').carried.trans (h.carried (hstage ▸ nofun) d')
  | entered hstage =>
    rw [hstage] at htidy
    exact of_tidy (Splice.tidy_start (fun d => htidy d nofun) _) (h.carried (hstage ▸ nofun))
  | @spliced _ _ _ result hstage hdoes =>
    rw [hstage] at htidy
    simp only [Lossless, hstage] at hlossless
    refine afterSplice htidy (h.carried (hstage ▸ nofun)) hdoes hlossless fun hvision hnone => ?_
    refine hfront hvision _ _ hstage ?_
    obtain ⟨policy, rfl⟩ := hvision
    obtain ⟨links', _⟩ := result
    cases hnone
    rfl
  | copied hstage => exact afterCopy (h.carried (hstage ▸ nofun)) _ _
  | failed hcopy hsplice hdone => exact of_tidy trivial (h.carried hdone)

end Relay.Sound

instance Lossless.decidable (r : Relay) (event : Event) : Decidable (Lossless r event) := by
  unfold Lossless
  split <;> infer_instance

/-- A splice that fails has no bytes in front of the socket to be sent again. -/
def Unrepeated (r : Relay) (event : Event) : Prop :=
  match r.stage, event with
  | .splice front splice, .splice event =>
    match (splice.step r.links event).2 with
    | .done none => front = []
    | _ => True
  | _, _ => True

instance Unrepeated.decidable (r : Relay) (event : Event) : Decidable (Unrepeated r event) := by
  unfold Unrepeated
  split
  · split <;> infer_instance
  · infer_instance

def readAhead : Links :=
  fun d => (Link.start (streams d)).take (ahead d)

theorem Relay.tidy_start (links : Links) : (start (.raw policy) links).stage.Tidy links := by
  unfold start
  dsimp only
  split_ifs with hup hdown
  · trivial
  · intro d hd
    cases d with
    | up => exact not_not.1 hup
    | down => exact absurd rfl hd
  · intro d _
    cases d with
    | up => exact not_not.1 hup
    | down => exact not_not.1 hdown

theorem Relay.tidy_start_vision (hup : (links .up).buf = []) :
    (start (.vision policy) links).stage.Tidy links := by
  unfold start
  dsimp only
  split_ifs with hdown
  · intro d _
    cases d with
    | up => exact hup
    | down => exact hdown
  · intro d hd
    cases d with
    | up => exact hup
    | down => exact absurd rfl hd

theorem Relay.Sound.start (policy : Policy) :
    Sound streams (.start (.raw policy) (readAhead streams ahead)) :=
  of_tidy (tidy_start policy _) fun _ => Link.carried_take _ _

/-- **Nothing is skipped, duplicated or reordered.**  Between raw sockets, under every policy, each
side has got a prefix of what the other has sent, also when splicing fails and the bytes are copied
from there on, as long as the pipes are empty whenever it fails. -/
theorem relay_in_order {events : List Event} (h : Run.Meets Lossless (step (.raw policy))
      (.start (.raw policy) (readAhead streams ahead)) events) (d : Dir) :
    ((events.foldl (step (.raw policy))
      (.start (.raw policy) (readAhead streams ahead))).links d).out <+: streams d := by
  have hsound : Sound streams (events.foldl (step (.raw policy))
      (.start (.raw policy) (readAhead streams ahead))) :=
    Run.invariant_of_meets (fun r event h hok => h.does (r.step_does _ event) hok nofun)
      (.start streams ahead policy) h
  exact hsound.out d

def sampleStreams : Dir → Bytes
  | .up => [1, 2]
  | .down => [3]

def sampleAhead : Dir → ℕ
  | .up => 1
  | .down => 0

/-- The ring relays the second byte and fails, and the answer is copied. -/
theorem relay_in_order_fallback :
    let events : List Event := [.wrote 1, .head 0 false none, .enter (some true),
      .splice (.created true), .splice (.uring (.complete .up (.moved 1))),
      .splice (.uring (.reap .up)), .splice (.uring (.complete .up (.moved 1))),
      .splice (.uring .fault), .copy .down (.read 1), .copy .down (.wrote 1)]
    let r := events.foldl (step (.raw .always))
      (.start (.raw .always) (readAhead sampleStreams sampleAhead))
    (r.links .up).out.length = 2 ∧ (r.links .up).out <+: [1, 2] ∧ (r.links .down).out = [3] :=
  ⟨by decide +kernel, relay_in_order .always sampleStreams sampleAhead (by decide +kernel) .up,
    by decide +kernel⟩

/-- The ring has the first byte of the client in a pipe when it fails: because a call to it fails,
or because the server's socket gives an error.  The bytes are copied from there on, and the server
gets the second byte only. -/
theorem fallback_skips :
    let begins : List Event := [.head 0 false none, .enter (some true), .splice (.created true),
      .splice (.uring (.complete .up (.moved 1))), .splice (.uring (.reap .up))]
    let copies : List Event := [.copy .up (.read 1), .copy .up (.wrote 1)]
    let fault : List Event := [.splice (.uring .fault)]
    let error : List Event := [.splice (.uring (.complete .down .failed)),
      .splice (.uring (.reap .down))]
    let r := (begins ++ fault ++ copies).foldl (step (.raw .always))
      (.start (.raw .always) (readAhead sampleStreams fun _ => 0))
    let r' := (begins ++ error ++ copies).foldl (step (.raw .always))
      (.start (.raw .always) (readAhead sampleStreams fun _ => 0))
    ((r.links .up).out = [2] ∧ ¬(r.links .up).out <+: sampleStreams .up) ∧
      ((r'.links .up).out = [2] ∧ ¬(r'.links .up).out <+: sampleStreams .up) := by
  decide +kernel

/-! ### One task for two directions -/

/-- The sink of a direction takes no more bytes. -/
def Full (d : Dir) (r : Relay) (event : Event) : Prop :=
  r.stage.writing = some d → ∀ k, event ≠ .wrote k

/-- The `select!` is biased: it looks at the uplink only when the downlink's source, unless its end
was seen, has nothing to read.  `ready` says whose source has bytes, or its end, to read. -/
def Selects (ready : Dir → Bool) (r : Relay) : Event → Prop
  | .read .up _ => ready .down = true → r.eof .down = true
  | _ => True

/-- A relay that moves no byte of direction `d`, of which `link` is left: it waits for the other
sink, has failed, or is about to read the downlink first. -/
def Stuck (ready : Dir → Bool) (d : Dir) (link : Link UInt8) (r : Relay) : Prop :=
  r.links d = link ∧
    ((∃ n, r.stage = .moving d.other n) ∨ r.stage = .done none ∨
      d = .up ∧ r.stage = .select ∧ ready .down = true ∧ r.eof .down = false ∧
        (r.links .down).rest ≠ [])

theorem Stuck.step {ready : Dir → Bool} {link : Link UInt8} (h : Stuck ready d link r)
    (hfull : Full d.other r event) (hselects : Selects ready r event) :
    Stuck ready d link (r.step flow event) := by
  obtain ⟨hlink, ⟨n, hmoving⟩ | hdone | ⟨rfl, hselect, hready, heof, hrest⟩⟩ := h
  · cases event with
    | wrote k => exact absurd rfl (hfull (by rw [hmoving]; rfl) k)
    | _ => simp [Stuck, Relay.step, hmoving, Relay.goto, hlink]
  · simp [Stuck, Relay.step, hdone, hlink]
  · have hstays : Stuck ready .up link r := ⟨hlink, .inr (.inr ⟨rfl, hselect, hready, heof, hrest⟩)⟩
    cases event with
    | read d n =>
      cases d with
      | up => exact absurd (hselects hready) (by simp [heof])
      | down =>
        simp only [Relay.step, hselect, Relay.read]
        split_ifs
        case neg => exact ⟨hlink, .inl ⟨n, rfl⟩⟩
        all_goals exact hstays
    | failed => simp [Stuck, Relay.step, hselect, Relay.goto, hlink]
    | _ => simpa only [Relay.step, hselect] using hstays

end Blackwire.Relaying
