import Blackwire.Common.CopyRelay
import Blackwire.Lib.Loop

/-!
# The splicing relay

`splice_bidirectional` of `splice.rs`, in its two forms: `UringBidir::run`, which submits splice
operations to a ring and looks at their completions, and `splice_bidirectional_epoll`, which makes
the system calls itself.  In both, each direction has a kernel pipe: bytes are spliced from a socket
into the pipe and from the pipe to the other socket.

* `OneWay.Does`, `Uring.Does`, `Epoll.Does`, `Splice.Does`: what an event can do.
-/

namespace Blackwire.Splicing

open Loop Function Link

/-! ### The kernel -/

def pipeCapacity : ℕ := 256 * 1024

/-- A splice from the socket into the pipe, or of at most `len` bytes from the pipe to the other
socket. -/
inductive Op where
  | splIn
  | splOut (len : ℕ)
  deriving DecidableEq

/-- The result of a splice: bytes that were moved, `EAGAIN`, `ECANCELED`, or another error. -/
inductive Res where
  | moved (n : ℕ)
  | again
  | cancelled
  | failed
  deriving DecidableEq

variable (link : Link UInt8)

/-- What a splice with a result does; `none` where the kernel does not give that result.  Nothing is
moved out of a socket only at the end of its stream. -/
def spliced : Op → Res → Option (Link UInt8)
  | .splIn, .moved n =>
    if n ≤ min link.rest.length pipeCapacity ∧ (n = 0 → link.rest = []) then some (link.take n)
    else none
  | .splOut len, .moved n => if n ≤ min len link.buf.length then some (link.give n) else none
  | _, _ => some link

/-! ### The ring -/

/-- One direction of `run`: the fields of `State` for it, whether the other socket is to be closed,
the operation that the kernel works on, and the completion that was not looked at yet. -/
structure Half where
  inPipe : ℕ
  eof : Bool
  pending : ℕ
  total : ℕ
  shutdown : Bool
  op : Option Op
  cqe : Option (Op × Res)

namespace Half

variable (half : Half)

/-- `push_in`, `push_out` and `push_out_guarded`, with the count of pending operations. -/
def push (op : Op) : Half :=
  { half with op := some op, pending := half.pending + 1 }

def start : Half := push ⟨0, false, 0, 0, false, none, none⟩ .splIn

def complete (half : Half) (res : Res) : Link UInt8 × Half :=
  match half.op with
  | none => (link, half)
  | some op =>
    match spliced link op res with
    | none => (link, half)
    | some link => (link, { half with op := none, cqe := some (op, res) })

def onIn : Res → Option Half
  | .moved 0 | .cancelled => some { half with eof := true, shutdown := true }
  | .moved n => some ({ half with inPipe := half.inPipe + n }.push (.splOut (half.inPipe + n)))
  | .again | .failed => none

def onOut : Res → Half
  | .again => half.push (.splOut half.inPipe)
  | .moved (n + 1) =>
    let inPipe := half.inPipe - min (n + 1) half.inPipe
    let half := { half with inPipe := inPipe, total := half.total + (n + 1) }
    if 0 < inPipe then half.push (.splOut inPipe)
    else if half.eof then half
    else half.push .splIn
  | .moved 0 | .cancelled | .failed => { half with eof := true }

def seen : Half := { half with cqe := none, pending := half.pending - 1 }

def reap : Option Half :=
  match half.cqe with
  | none => some half
  | some (.splIn, res) => half.seen.onIn res
  | some (.splOut _, res) => some (half.seen.onOut res)

end Half

/-- `UringBidir`, while it runs.  With `drain` the time for the second direction is running. -/
structure Uring where
  half : Dir → Half
  drain : Bool

inductive UringEvent where
  | complete (d : Dir) (res : Res)
  | reap (d : Dir)
  | endRound
  | expire
  | fault
  deriving DecidableEq

namespace Uring

def start : Uring := ⟨fun _ => .start, false⟩

variable (ring : Uring)

def isDone : Bool :=
  (ring.half .up).eof && (ring.half .down).eof && (ring.half .up).pending == 0 &&
    (ring.half .down).pending == 0

def totals : ℕ × ℕ := ((ring.half .up).total, (ring.half .down).total)

variable (links : Links) (ring : Uring)

def closing : Links :=
  fun d => if (ring.half d).shutdown then (links d).close else links d

def nextRound : Uring where
  half d := { ring.half d with shutdown := false }
  drain := ring.drain || (ring.half .up).eof || (ring.half .down).eof

def endRound : Links × Step Uring (Option (ℕ × ℕ)) :=
  (ring.closing links, if ring.isDone then .done (some ring.totals) else .next ring.nextRound)

def step : UringEvent → Links × Step Uring (Option (ℕ × ℕ))
  | .complete d res =>
    let result := (ring.half d).complete (links d) res
    (update links d result.1,
      .next { ring with half := update ring.half d result.2 })
  | .reap d =>
    match (ring.half d).reap with
    | none => (links, .done none)
    | some half => (links, .next { ring with half := update ring.half d half })
  | .endRound => ring.endRound links
  | .expire => if ring.drain then (links, .done (some ring.totals)) else (links, .next ring)
  | .fault => (links, .done none)

end Uring

/-! ### The system calls -/

/-- Where `splice_one_direction` is: before a splice into the pipe, before one of the rest out of
it, or at its end. -/
inductive Phase where
  | reading
  | draining (remaining : ℕ)
  | finished (ok : Bool)
  deriving DecidableEq

structure OneWay where
  phase : Phase
  total : ℕ

namespace OneWay

def start : OneWay := ⟨.reading, 0⟩

def afterOut (remaining : ℕ) : Phase := if remaining = 0 then .reading else .draining remaining

/-- One splice.  When nothing was moved out of the pipe, or with `EAGAIN`, it is made again. -/
def step (way : OneWay) (res : Res) : Link UInt8 × OneWay :=
  match way.phase, res with
  | .reading, .moved n =>
    match spliced link .splIn (.moved n) with
    | none => (link, way)
    | some link =>
      if n = 0 then (link.close, { way with phase := .finished true })
      else (link, { way with phase := .draining n })
  | .draining remaining, .moved n =>
    match spliced link (.splOut remaining) (.moved n) with
    | none => (link, way)
    | some link => (link, { phase := afterOut (remaining - n), total := way.total + n })
  | .finished _, _ => (link, way)
  | _, .again => (link, way)
  | _, _ => (link, { way with phase := .finished false })

end OneWay

/-- `splice_bidirectional_epoll`, while it runs: its two directions, and the one that has ended. -/
structure Epoll where
  way : Dir → OneWay
  first : Option Dir

variable (poll : Epoll)

inductive EpollEvent where
  | move (d : Dir) (res : Res)
  | expire
  deriving DecidableEq

namespace Epoll

def start : Epoll := ⟨fun _ => .start, none⟩

def totals : ℕ × ℕ :=
  match (poll.way .up).phase, (poll.way .down).phase with
  | .finished _, .finished _ => ((poll.way .up).total, (poll.way .down).total)
  | .finished _, _ => ((poll.way .up).total, 0)
  | _, _ => (0, (poll.way .down).total)

def step (links : Links) (poll : Epoll) : EpollEvent → Links × Step Epoll (Option (ℕ × ℕ))
  | .move d res =>
    if poll.first = some d then (links, .next poll)
    else
      let result := (poll.way d).step (links d) res
      let links := update links d result.1
      let poll := { poll with way := update poll.way d result.2 }
      match result.2.phase with
      | .finished false => (links, .done none)
      | .finished true =>
        match poll.first with
        | none => (links, .next { poll with first := some d })
        | some _ => (links, .done (some poll.totals))
      | _ => (links, .next poll)
  | .expire =>
    match poll.first with
    | none => (links, .next poll)
    | some _ => (links, .done (some poll.totals))

end Epoll

/-! ### Both forms -/

/-- `splice_bidirectional`, while it runs: the ring is created, the ring runs, or the system calls
are made.  With `probe` it is not yet known whether the ring works. -/
inductive Splice where
  | creating (probe : Bool)
  | uring (probe : Bool) (ring : Uring)
  | epoll (poll : Epoll)

inductive SpliceEvent where
  | created (ok : Bool)
  | uring (event : UringEvent)
  | epoll (event : EpollEvent)

def closePipes (links : Links) : Links := fun d => (links d).drop

namespace Splice

def start : Option Bool → Splice
  | some true => .creating false
  | some false => .epoll .start
  | none => .creating true

def ringFailed (probe : Bool) (links : Links) : Links × Step Splice (Option (ℕ × ℕ)) :=
  (closePipes links, if probe then .next (.epoll .start) else .done none)

def step (links : Links) : Splice → SpliceEvent → Links × Step Splice (Option (ℕ × ℕ))
  | .creating probe, .created true => (links, .next (.uring probe .start))
  | .creating probe, .created false => ringFailed probe links
  | .uring probe ring, .uring event =>
    match ring.step links event with
    | (links, .next ring) => (links, .next (.uring probe ring))
    | (links, .done (some counts)) => (closePipes links, .done (some counts))
    | (links, .done none) => ringFailed probe links
  | .epoll poll, .epoll event =>
    match poll.step links event with
    | (links, .next poll) => (links, .next (.epoll poll))
    | (links, .done result) => (closePipes links, .done result)
  | splice, _ => (links, .next splice)

end Splice

/-! ### What one splice does -/

variable {link link' : Link UInt8} {half half' : Half} {op : Op} {res : Res} {links : Links}
  {result : Link UInt8 × OneWay}

theorem spliced_in {n : ℕ} (h : spliced link .splIn (.moved n) = some link') :
    n ≤ link.rest.length ∧ (n = 0 → link.rest = []) ∧ link' = link.take n := by
  simp only [spliced] at h
  split_ifs at h with hn
  cases h
  exact ⟨by omega, hn.2, rfl⟩

theorem spliced_out {len n : ℕ} (h : spliced link (.splOut len) (.moved n) = some link') :
    n ≤ len ∧ n ≤ link.buf.length ∧ link' = link.give n := by
  simp only [spliced] at h
  split_ifs at h with hn
  cases h
  exact ⟨by omega, by omega, rfl⟩

theorem spliced_all (link : Link UInt8) :
    spliced link .splIn (.moved (min link.rest.length pipeCapacity)) =
      some (link.take (min link.rest.length pipeCapacity)) := by
  have hrest : min link.rest.length pipeCapacity = 0 → link.rest = [] := by
    intro hzero
    unfold pipeCapacity at hzero
    exact List.length_eq_zero_iff.1 (by omega)
  simp only [spliced, le_refl, true_and, if_pos hrest]

theorem spliced_moves (h : spliced link op res = some link') : Moves link link' := by
  unfold spliced at h
  split at h
  · split_ifs at h
    cases h
    exact .take _ link
  · split_ifs at h
    cases h
    exact .give _ link
  · cases h
    exact .refl link

theorem Half.complete_cases (link : Link UInt8) (half : Half) (res : Res) :
    half.complete link res = (link, half) ∨
      ∃ op link', half.op = some op ∧ spliced link op res = some link' ∧
        half.complete link res = (link', { half with op := none, cqe := some (op, res) }) := by
  unfold complete
  split
  case h_1 => exact .inl rfl
  case h_2 op hop =>
    split
    case h_1 => exact .inl rfl
    case h_2 link' hspliced => exact .inr ⟨op, link', hop, hspliced, rfl⟩

theorem Half.complete_moves (link : Link UInt8) (half : Half) (res : Res) :
    Moves link (half.complete link res).1 := by
  rcases half.complete_cases link res with heq | ⟨op, link', _, hspliced, heq⟩
  · rw [heq]
    exact .refl link
  · rw [heq]
    exact spliced_moves hspliced

inductive OneWay.Does (link : Link UInt8) (way : OneWay) : Res → Link UInt8 × OneWay → Prop
  | nothing {res : Res} : Does link way res (link, way)
  | eof (hphase : way.phase = .reading) (hrest : link.rest = []) :
    Does link way (.moved 0) ((link.take 0).close, { way with phase := .finished true })
  | filled {n : ℕ} (hphase : way.phase = .reading) (hpos : 0 < n) (hle : n ≤ link.rest.length) :
    Does link way (.moved n) (link.take n, { way with phase := .draining n })
  | emptied {remaining n : ℕ} (hphase : way.phase = .draining remaining)
    (hle : n ≤ remaining) (hbuf : n ≤ link.buf.length) :
    Does link way (.moved n)
      (link.give n, { phase := afterOut (remaining - n), total := way.total + n })
  | failed {res : Res} (hagain : res ≠ .again) (hmoved : ∀ n, res ≠ .moved n) :
    Does link way res (link, { way with phase := .finished false })

theorem OneWay.step_does (link : Link UInt8) (way : OneWay) (res : Res) :
    Does link way res (way.step link res) := by
  unfold step
  split
  case h_1 n hphase =>
    cases hspliced : spliced link .splIn (.moved n) with
    | none => exact .nothing
    | some link' =>
      obtain ⟨hle, hrest, rfl⟩ := spliced_in hspliced
      split_ifs with hzero
      · subst hzero
        exact .eof hphase (hrest rfl)
      · exact .filled hphase (by omega) hle
  case h_2 remaining n hphase =>
    cases hspliced : spliced link (.splOut remaining) (.moved n) with
    | none => exact .nothing
    | some link' =>
      obtain ⟨hle, hbuf, rfl⟩ := spliced_out hspliced
      exact .emptied hphase hle hbuf
  case h_3 | h_4 => exact .nothing
  case h_5 hagain hfinished hreading hdraining =>
    refine .failed hagain fun n hn => ?_
    cases hphase : way.phase with
    | reading => exact hreading n hphase hn
    | draining remaining => exact hdraining remaining n hphase hn
    | finished ok => exact hfinished ok hphase

theorem OneWay.Does.moves {way : OneWay} (h : Does link way res result) : Moves link result.1 := by
  cases h with
  | nothing => exact .refl link
  | eof => exact (Moves.take 0 link).trans (.close _)
  | filled => exact .take _ link
  | emptied => exact .give _ link
  | failed => exact .refl link

theorem moves_update {d : Dir} (h : Moves (links d) link) (d' : Dir) :
    Moves (links d') (update links d link d') :=
  Dir.forall_update (P := fun d link => Moves (links d) link) (fun _ => .refl _) h d'

inductive Uring.Does (links : Links) (ring : Uring) :
    UringEvent → Links × Step Uring (Option (ℕ × ℕ)) → Prop
  | completed (d : Dir) (res : Res) :
    Does links ring (.complete d res)
      (update links d ((ring.half d).complete (links d) res).1,
        .next
          { ring with
            half := update ring.half d ((ring.half d).complete (links d) res).2 })
  | reaped {d : Dir} {half : Half} (hreap : (ring.half d).reap = some half) :
    Does links ring (.reap d)
      (links, .next { ring with half := update ring.half d half })
  | broken {d : Dir} (hreap : (ring.half d).reap = none) :
    Does links ring (.reap d) (links, .done none)
  | ended (hdone : ring.isDone = true) :
    Does links ring .endRound (ring.closing links, .done (some ring.totals))
  | continued (hdone : ring.isDone = false) :
    Does links ring .endRound (ring.closing links, .next ring.nextRound)
  | expired (hdrain : ring.drain = true) :
    Does links ring .expire (links, .done (some ring.totals))
  | early (hdrain : ring.drain = false) : Does links ring .expire (links, .next ring)
  | faulted : Does links ring .fault (links, .done none)

theorem Uring.step_does (links : Links) (ring : Uring) (event : UringEvent) :
    Does links ring event (ring.step links event) := by
  cases event with
  | complete d res => exact .completed d res
  | reap d =>
    simp only [step]
    split
    · exact .broken ‹_›
    · exact .reaped ‹_›
  | endRound =>
    simp only [step, endRound]
    split_ifs with hdone
    · exact .ended hdone
    · exact .continued (Bool.eq_false_iff.2 hdone)
  | expire =>
    simp only [step]
    split_ifs with hdrain
    · exact .expired hdrain
    · exact .early (Bool.eq_false_iff.2 hdrain)
  | fault => exact .faulted

inductive Epoll.Does (links : Links) (poll : Epoll) :
    EpollEvent → Links × Step Epoll (Option (ℕ × ℕ)) → Prop
  | ignored {d : Dir} {res : Res} (hfirst : poll.first = some d) :
    Does links poll (.move d res) (links, .next poll)
  | moved {d : Dir} {res : Res} {result : Link UInt8 × OneWay}
    (hway : (poll.way d).step (links d) res = result) (hfirst : poll.first ≠ some d)
    (hphase : ∀ ok, result.2.phase ≠ .finished ok) :
    Does links poll (.move d res)
      (update links d result.1,
        .next { poll with way := update poll.way d result.2 })
  | broken {d : Dir} {res : Res} {result : Link UInt8 × OneWay}
    (hway : (poll.way d).step (links d) res = result) (hfirst : poll.first ≠ some d)
    (hphase : result.2.phase = .finished false) :
    Does links poll (.move d res) (update links d result.1, .done none)
  | first {d : Dir} {res : Res} {result : Link UInt8 × OneWay}
    (hway : (poll.way d).step (links d) res = result) (hphase : result.2.phase = .finished true)
    (hfirst : poll.first = none) :
    Does links poll (.move d res)
      (update links d result.1,
        .next ⟨update poll.way d result.2, some d⟩)
  | second {d d' : Dir} {res : Res} {result : Link UInt8 × OneWay}
    (hway : (poll.way d).step (links d) res = result) (hphase : result.2.phase = .finished true)
    (hfirst : poll.first = some d') (hne : d' ≠ d) :
    Does links poll (.move d res)
      (update links d result.1,
        .done (some (totals ⟨update poll.way d result.2, some d'⟩)))
  | early (hfirst : poll.first = none) : Does links poll .expire (links, .next poll)
  | expired {d : Dir} (hfirst : poll.first = some d) :
    Does links poll .expire (links, .done (some poll.totals))

theorem Epoll.step_does (links : Links) (poll : Epoll) (event : EpollEvent) :
    Does links poll event (poll.step links event) := by
  cases event with
  | move d res =>
    simp only [step]
    split_ifs with hfirst
    · exact .ignored hfirst
    · split
      case h_1 hphase => exact .broken rfl hfirst hphase
      case h_2 hphase =>
        obtain ⟨way, first⟩ := poll
        cases first with
        | none => exact .first rfl hphase rfl
        | some d' => exact .second rfl hphase rfl fun hd => hfirst (congrArg some hd)
      case h_3 hbroken hended =>
        refine .moved rfl hfirst fun ok => ?_
        cases ok with
        | true => exact hended
        | false => exact hbroken
  | expire =>
    simp only [step]
    split
    · exact .early ‹_›
    · exact .expired ‹_›

theorem Uring.Does.moves {ring : Uring} {event : UringEvent}
    {result : Links × Step Uring (Option (ℕ × ℕ))} (h : Does links ring event result) (d : Dir) :
    Moves (links d) (result.1 d) := by
  have hclosing : Moves (links d) (ring.closing links d) := by
    unfold closing
    split_ifs
    · exact .close _
    · exact .refl _
  cases h with
  | completed d' res => exact moves_update (Half.complete_moves _ _ _) d
  | reaped | broken => exact .refl _
  | ended | continued => exact hclosing
  | expired | early | faulted => exact .refl _

theorem Epoll.Does.moves {poll : Epoll} {event : EpollEvent}
    {result : Links × Step Epoll (Option (ℕ × ℕ))} (h : Does links poll event result) (d : Dir) :
    Moves (links d) (result.1 d) := by
  have hmove {d' : Dir} {res : Res} {result : Link UInt8 × OneWay}
      (hway : (poll.way d').step (links d') res = result) :
      Moves (links d) (update links d' result.1 d) := by
    subst hway
    exact moves_update (OneWay.step_does _ _ _).moves d
  cases h with
  | ignored => exact .refl _
  | moved hway => exact hmove hway
  | broken hway => exact hmove hway
  | first hway => exact hmove hway
  | second hway => exact hmove hway
  | early | expired => exact .refl _

inductive Splice.Does (links : Links) :
    Splice → SpliceEvent → Links × Step Splice (Option (ℕ × ℕ)) → Prop
  | nothing {splice : Splice} {event : SpliceEvent} :
    Does links splice event (links, .next splice)
  | created {probe : Bool} :
    Does links (.creating probe) (.created true) (links, .next (.uring probe .start))
  | uncreated :
    Does links (.creating true) (.created false) (closePipes links, .next (.epoll .start))
  | refused : Does links (.creating false) (.created false) (closePipes links, .done none)
  | ring {probe : Bool} {ring ring' : Uring} {event : UringEvent} {links' : Links}
    (hring : ring.Does links event (links', .next ring')) :
    Does links (.uring probe ring) (.uring event) (links', .next (.uring probe ring'))
  | ringDone {probe : Bool} {ring : Uring} {event : UringEvent} {links' : Links} {counts : ℕ × ℕ}
    (hring : ring.Does links event (links', .done (some counts))) :
    Does links (.uring probe ring) (.uring event) (closePipes links', .done (some counts))
  | ringLeft {ring : Uring} {event : UringEvent} {links' : Links}
    (hring : ring.Does links event (links', .done none)) :
    Does links (.uring true ring) (.uring event) (closePipes links', .next (.epoll .start))
  | ringBroken {ring : Uring} {event : UringEvent} {links' : Links}
    (hring : ring.Does links event (links', .done none)) :
    Does links (.uring false ring) (.uring event) (closePipes links', .done none)
  | poll {poll poll' : Epoll} {event : EpollEvent} {links' : Links}
    (hpoll : poll.Does links event (links', .next poll')) :
    Does links (.epoll poll) (.epoll event) (links', .next (.epoll poll'))
  | pollDone {poll : Epoll} {event : EpollEvent} {links' : Links} {result : Option (ℕ × ℕ)}
    (hpoll : poll.Does links event (links', .done result)) :
    Does links (.epoll poll) (.epoll event) (closePipes links', .done result)

theorem Splice.step_does (links : Links) (splice : Splice) (event : SpliceEvent) :
    Does links splice event (splice.step links event) := by
  unfold step
  split
  case h_1 => exact .created
  case h_2 probe =>
    cases probe with
    | true => exact .uncreated
    | false => exact .refused
  case h_3 probe ring event =>
    have hdoes := Uring.step_does links ring event
    split
    case h_1 heq => exact .ring (heq ▸ hdoes)
    case h_2 heq => exact .ringDone (heq ▸ hdoes)
    case h_3 heq =>
      cases probe with
      | true => exact .ringLeft (heq ▸ hdoes)
      | false => exact .ringBroken (heq ▸ hdoes)
  case h_4 poll event =>
    have hdoes := Epoll.step_does links poll event
    split
    case h_1 heq => exact .poll (heq ▸ hdoes)
    case h_2 heq => exact .pollDone (heq ▸ hdoes)
  case h_5 => exact .nothing

/-! ### Results -/

def Holds {σ : Type} (P : Links → σ → Prop) (result : Links × Step σ (Option (ℕ × ℕ))) : Prop :=
  match result.2 with
  | .next s => P result.1 s
  | .done (some _) => ∃ d, (result.1 d).Delivered
  | .done none => False

def Nearer {σ : Type} (left : Links → σ → ℕ) (n : ℕ)
    (result : Links × Step σ (Option (ℕ × ℕ))) : Prop :=
  match result.2 with
  | .next s => left result.1 s < n
  | .done _ => True

/-! ### What is lost when splicing fails -/

def Uring.Fails (ring : Uring) : UringEvent → Prop
  | .reap d =>
    (ring.half d).cqe = some (.splIn, .again) ∨ (ring.half d).cqe = some (.splIn, .failed)
  | .fault => True
  | _ => False

instance Uring.Fails.decidable (ring : Uring) (event : UringEvent) :
    Decidable (ring.Fails event) := by
  unfold Fails
  split <;> infer_instance

def Epoll.Fails : EpollEvent → Prop
  | .move d res =>
    poll.first ≠ some d ∧
      (res = .cancelled ∨ res = .failed ∨ (poll.way d).phase = .finished false)
  | .expire => False

instance Epoll.Fails.decidable : ∀ event, Decidable (poll.Fails event)
  | .move _ _ => inferInstanceAs (Decidable (_ ∧ _))
  | .expire => isFalse id

theorem OneWay.Does.broken {way : OneWay}
    (h : Does link way res result) (hphase : result.2.phase = .finished false) :
    result.1 = link ∧ (res = .cancelled ∨ res = .failed ∨ way.phase = .finished false) := by
  cases h with
  | nothing => exact ⟨rfl, .inr (.inr hphase)⟩
  | eof | filled => cases hphase
  | emptied =>
    unfold afterOut at hphase
    split_ifs at hphase
  | failed hagain hmoved =>
    refine ⟨rfl, ?_⟩
    cases res with
    | moved n => exact absurd rfl (hmoved n)
    | again => exact absurd rfl hagain
    | cancelled => exact .inl rfl
    | failed => exact .inr (.inl rfl)

theorem Half.reap_eq_none (h : half.reap = none) :
    half.cqe = some (.splIn, .again) ∨ half.cqe = some (.splIn, .failed) := by
  unfold reap at h
  split at h
  case h_1 => cases h
  case h_2 res hcqe =>
    unfold onIn at h
    split at h
    case h_1 => cases h
    case h_2 => cases h
    case h_3 => cases h
    case h_4 => exact .inl hcqe
    case h_5 => exact .inr hcqe
  case h_3 => cases h

theorem Uring.Does.broken_eq {ring : Uring} {event : UringEvent} {links' : Links}
    (h : Does links ring event (links', .done none)) : links' = links ∧ ring.Fails event := by
  cases h with
  | broken hreap => exact ⟨rfl, Half.reap_eq_none hreap⟩
  | faulted => exact ⟨rfl, trivial⟩

theorem Epoll.Does.broken_eq {poll : Epoll} {event : EpollEvent} {links' : Links}
    (h : Does links poll event (links', .done none)) : links' = links ∧ poll.Fails event := by
  cases h with
  | @broken d res result hway hfirst hphase =>
    subst hway
    obtain ⟨hlink, hres⟩ := (OneWay.step_does _ _ _).broken hphase
    refine ⟨?_, hfirst, hres⟩
    rw [hlink, update_eq_self]

def Splice.Tidy (links : Links) : Splice → Prop
  | .creating _ => ∀ d, (links d).buf = []
  | _ => True

theorem Splice.tidy_start (h : ∀ d, (links d).buf = []) :
    ∀ available, (Splice.start available).Tidy links
  | some true => h
  | some false => trivial
  | none => h

def Splice.Lossless (links : Links) : Splice → SpliceEvent → Prop
  | .uring _ ring, .uring event => ring.Fails event → ∀ d, (links d).buf = []
  | .epoll poll, .epoll event => poll.Fails event → ∀ d, (links d).buf = []
  | _, _ => True

instance Splice.Lossless.decidable (links : Links) (splice : Splice) (event : SpliceEvent) :
    Decidable (splice.Lossless links event) := by
  unfold Lossless
  split <;> infer_instance

namespace Splice.Does

variable {splice splice' : Splice} {event : SpliceEvent} {links' : Links}

theorem next (h : splice.Does links event (links', .next splice')) (htidy : splice.Tidy links)
    (hlossless : splice.Lossless links event) :
    splice'.Tidy links' ∧ ∀ d, Moves (links d) (links' d) := by
  cases h with
  | nothing => exact ⟨htidy, fun d => .refl _⟩
  | created => exact ⟨trivial, fun d => .refl _⟩
  | uncreated => exact ⟨trivial, fun d => .drop (htidy d)⟩
  | ring hring => exact ⟨trivial, hring.moves⟩
  | ringLeft hring =>
    obtain ⟨rfl, hfails⟩ := hring.broken_eq
    exact ⟨trivial, fun d => .drop (hlossless hfails d)⟩
  | poll hpoll => exact ⟨trivial, hpoll.moves⟩

theorem done {result : Option (ℕ × ℕ)} (h : splice.Does links event (links', .done result)) :
    ∃ links₁, links' = closePipes links₁ ∧ ∀ d, Moves (links d) (links₁ d) := by
  cases h with
  | refused => exact ⟨_, rfl, fun d => .refl _⟩
  | ringDone hring => exact ⟨_, rfl, hring.moves⟩
  | ringBroken hring => exact ⟨_, rfl, hring.moves⟩
  | pollDone hpoll => exact ⟨_, rfl, hpoll.moves⟩

theorem broken (h : splice.Does links event (links', .done none)) (htidy : splice.Tidy links)
    (hlossless : splice.Lossless links event) (d : Dir) :
    Moves (links d) (links' d) ∧ (links' d).buf = [] := by
  cases h with
  | refused => exact ⟨.drop (htidy d), rfl⟩
  | ringBroken hring =>
    obtain ⟨rfl, hfails⟩ := hring.broken_eq
    exact ⟨.drop (hlossless hfails d), rfl⟩
  | pollDone hpoll =>
    obtain ⟨rfl, hfails⟩ := hpoll.broken_eq
    exact ⟨.drop (hlossless hfails d), rfl⟩

end Splice.Does

end Blackwire.Splicing
