import Blackwire.Common.SplicePoll
import Blackwire.Common.SpliceRing

/-!
# Splicing and copying

`splice_bidirectional` against `copy_bidirectional_pooled`.
-/

namespace Blackwire.Splicing

open Loop Run

variable {links links' : Links} {base : Dir → ℕ} (streams : Dir → Bytes)

/-! ### Both forms -/

def Splice.Fair : Splice → SpliceEvent → Prop
  | .creating probe, .created ok => ok = true ∨ probe = true
  | .uring _ ring, .uring event => ring.Fair event
  | .epoll _, .epoll event => Epoll.Fair event
  | _, _ => True

open Splice

instance Splice.Fair.decidable : ∀ splice event, Decidable (Fair splice event)
  | .creating probe, .created ok => inferInstanceAs (Decidable (ok = true ∨ probe = true))
  | .uring _ ring, .uring event => inferInstanceAs (Decidable (ring.Fair event))
  | .epoll _, .epoll event => inferInstanceAs (Decidable (Epoll.Fair event))
  | .creating _, .uring _ | .creating _, .epoll _ => isTrue trivial
  | .uring _ _, .created _ | .uring _ _, .epoll _ => isTrue trivial
  | .epoll _, .created _ | .epoll _, .uring _ => isTrue trivial

def Splice.InTime (links : Links) (d : Dir) : Splice → SpliceEvent → Prop
  | .uring _ ring, .uring .expire => ring.drain = true → (links d).Delivered
  | .epoll poll, .epoll .expire => poll.first ≠ none → (links d).Delivered
  | _, _ => True

instance Splice.InTime.decidable (links : Links) (d : Dir) :
    ∀ splice event, Decidable (InTime links d splice event)
  | .uring _ ring, .uring .expire =>
    inferInstanceAs (Decidable (ring.drain = true → (links d).Delivered))
  | .epoll poll, .epoll .expire =>
    inferInstanceAs (Decidable (poll.first ≠ none → (links d).Delivered))
  | .uring _ _, .uring (.complete _ _) | .uring _ _, .uring (.reap _) => isTrue trivial
  | .uring _ _, .uring .endRound | .uring _ _, .uring .fault => isTrue trivial
  | .epoll _, .epoll (.move _ _) => isTrue trivial
  | .creating _, _ | .uring _ _, .created _ | .uring _ _, .epoll _ => isTrue trivial
  | .epoll _, .created _ | .epoll _, .uring _ => isTrue trivial

def Splice.Steady (base : Dir → ℕ) (links : Links) : Splice → Prop
  | .creating _ => ∀ d, (links d).buf = [] ∧ (links d).out.length = base d
  | .uring _ ring => ring.Steady links ∧ ring.Books base links
  | .epoll poll => poll.Steady links

def Splice.left (links : Links) : Splice → ℕ
  | .creating _ => 10 * ((links .up).rest.length + (links .down).rest.length) + 9
  | .uring _ ring => ring.left links
  | .epoll poll => poll.left links

theorem buf_closePipes (links : Links) (d : Dir) : (closePipes links d).buf = [] := rfl

namespace Splice.Steady

variable {splice : Splice} {event : SpliceEvent}

theorem start (hbuf : ∀ d, (links d).buf = []) (hcount : ∀ d, (links d).out.length = base d) :
    ∀ available, (start available).Steady base links
  | some true => fun d => ⟨hbuf d, hcount d⟩
  | some false => Epoll.Steady.start hbuf
  | none => fun d => ⟨hbuf d, hcount d⟩

section

variable (h : splice.Steady base links)
include h

theorem next {splice' : Splice}
    (hdoes : splice.Does links event (links', .next splice')) (hfair : splice.Fair event) :
    splice'.Steady base links' ∧ ∀ d, Link.Moves (links d) (links' d) := by
  cases hdoes with
  | nothing => exact ⟨h, fun d => .refl _⟩
  | created => exact ⟨⟨.start fun d => (h d).1, .start fun d => (h d).2⟩, fun d => .refl _⟩
  | uncreated => exact ⟨Epoll.Steady.start (buf_closePipes links), fun d => .drop (h d).1⟩
  | ring hring => exact ⟨⟨h.1.does hring hfair, h.2.next hring⟩, hring.moves⟩
  | ringLeft hring => exact (h.1.does hring hfair).elim
  | poll hpoll => exact ⟨Epoll.Steady.does h hpoll hfair, hpoll.moves⟩

theorem not_broken
    (hdoes : splice.Does links event (links', .done none)) (hfair : splice.Fair event) : False := by
  cases hdoes with
  | refused => exact absurd hfair (by decide)
  | ringBroken hring => exact h.1.does hring hfair
  | pollDone hpoll => exact Epoll.Steady.does h hpoll hfair

theorem done {counts : ℕ × ℕ}
    (hdoes : splice.Does links event (links', .done (some counts))) (hfair : splice.Fair event) :
    ∃ links₁, links' = closePipes links₁ ∧ (∀ d, Link.Moves (links d) (links₁ d)) ∧
      (∃ d, (links₁ d).Delivered) ∧
        ∀ d, splice.InTime links d event → (links₁ d).Delivered := by
  cases hdoes with
  | ringDone hring =>
    refine ⟨_, rfl, hring.moves, h.1.does hring hfair, fun d hintime => ?_⟩
    refine h.1.done hring d fun heq hdrain => ?_
    subst heq
    exact hintime hdrain
  | pollDone hpoll =>
    refine ⟨_, rfl, hpoll.moves, Epoll.Steady.does h hpoll hfair, fun d hintime => ?_⟩
    refine Epoll.Steady.done h hpoll hfair d fun heq hfirst => ?_
    subst heq
    exact hintime hfirst

theorem progress :
    ∃ event, splice.Fair event ∧ (∀ d, splice.InTime links d event) ∧
      Nearer left (splice.left links) (splice.step links event) := by
  cases splice with
  | creating probe =>
    refine ⟨.created true, .inl rfl, fun _ => trivial, ?_⟩
    have hup := (h .up).1
    have hdown := (h .down).1
    simp only [Nearer, step, left, Uring.left, Uring.start, Half.left, hup, hdown,
      List.length_nil]
    simp only [Half.rank, Half.start, Half.push]
    omega
  | uring probe ring =>
    obtain ⟨event, hexpire, hfair, hnearer⟩ := h.1.progress h.2
    refine ⟨.uring event, hfair, fun d => ?_, ?_⟩
    · cases event with
      | expire => exact absurd rfl hexpire
      | _ => trivial
    · have hholds := h.1.does (Uring.step_does links ring event) hfair
      simp only [step]
      generalize ring.step links event = result at hnearer hholds ⊢
      obtain ⟨links', result | ring'⟩ := result
      · cases result with
        | none => exact hholds.elim
        | some counts => trivial
      · exact hnearer
  | epoll poll =>
    obtain ⟨event, hexpire, hfair, hnearer⟩ := Epoll.Steady.progress h
    refine ⟨.epoll event, hfair, fun d => ?_, ?_⟩
    · cases event with
      | expire => exact absurd rfl hexpire
      | move => trivial
    · simp only [step]
      generalize poll.step links event = result at hnearer ⊢
      obtain ⟨links', result | poll'⟩ := result
      · trivial
      · exact hnearer

end

end Splice.Steady

/-! ### The counts -/

def Splice.Books (base : Dir → ℕ) (links : Links) : Splice → Prop
  | .creating _ => ∀ d, (links d).out.length = base d
  | .uring _ ring => ring.Books base links
  | .epoll poll => poll.Books base links

def Splice.Accounted : Splice → SpliceEvent → Prop
  | .uring _ ring, .uring event =>
    (ring.Fails event → ∀ d, (ring.half d).total + (ring.half d).unreaped = 0) ∧
      (event = .expire → ring.drain = true → ∀ d, (ring.half d).unreaped = 0)
  | .epoll poll, .epoll event =>
    (poll.Fails event → ∀ d, (poll.way d).total = 0) ∧
      (event = .expire → ∀ d, poll.first = some d → (poll.way d.other).total = 0)
  | _, _ => True

instance Splice.Accounted.decidable :
    ∀ splice event, Decidable (Accounted splice event)
  | .uring _ ring, .uring event => inferInstanceAs (Decidable
    ((ring.Fails event → ∀ d, (ring.half d).total + (ring.half d).unreaped = 0) ∧
      (event = .expire → ring.drain = true → ∀ d, (ring.half d).unreaped = 0)))
  | .epoll poll, .epoll event => inferInstanceAs (Decidable
    ((poll.Fails event → ∀ d, (poll.way d).total = 0) ∧
      (event = .expire → ∀ d, poll.first = some d → (poll.way d.other).total = 0)))
  | .creating _, _ => isTrue trivial
  | .uring _ _, .created _ | .uring _ _, .epoll _ => isTrue trivial
  | .epoll _, .created _ | .epoll _, .uring _ => isTrue trivial

namespace Splice.Books

variable {splice splice' : Splice} {event : SpliceEvent}

theorem start (hcount : ∀ d, (links d).out.length = base d) :
    ∀ available, (start available).Books base links
  | some true => hcount
  | some false => Epoll.Books.start hcount
  | none => hcount

theorem uring_broken {ring : Uring} {event : UringEvent} (h : ring.Books base links)
    (hring : ring.Does links event (links', .done none)) (haccounted : ring.Fails event →
      ∀ d, (ring.half d).total + (ring.half d).unreaped = 0) (d : Dir) :
    (links' d).out.length = base d := by
  obtain ⟨rfl, hfails⟩ := hring.broken_eq
  have hzero := haccounted hfails d
  have hcount := (h d).count
  omega

theorem epoll_broken {poll : Epoll} {event : EpollEvent} (h : poll.Books base links)
    (hpoll : poll.Does links event (links', .done none))
    (haccounted : poll.Fails event → ∀ d, (poll.way d).total = 0) (d : Dir) :
    (links' d).out.length = base d := by
  obtain ⟨rfl, hfails⟩ := hpoll.broken_eq
  have hzero := haccounted hfails d
  have hcount := h.count d
  omega

section

variable (h : splice.Books base links)
include h

theorem next (hdoes : splice.Does links event (links', .next splice'))
    (haccounted : splice.Accounted event) : splice'.Books base links' := by
  cases hdoes with
  | nothing => exact h
  | created => exact Uring.Books.start h
  | uncreated => exact Epoll.Books.start h
  | ring hring => exact Uring.Books.next h hring
  | ringLeft hring =>
    have hcount := uring_broken h hring haccounted.1
    exact Epoll.Books.start hcount
  | poll hpoll => exact Epoll.Books.next h hpoll

theorem done {counts : ℕ × ℕ} (hdoes : splice.Does links event (links', .done (some counts)))
    (haccounted : splice.Accounted event) :
    (links' .up).out.length = base .up + counts.1 ∧
      (links' .down).out.length = base .down + counts.2 := by
  cases hdoes with
  | ringDone hring =>
    have hcounts := Uring.Books.done h hring haccounted.2
    exact hcounts
  | pollDone hpoll =>
    have hcounts := Epoll.Books.done h hpoll haccounted.2
    exact hcounts

theorem broken (hdoes : splice.Does links event (links', .done none))
    (haccounted : splice.Accounted event) (d : Dir) :
    (links' d).out.length = base d ∧ (links' d).buf = [] := by
  cases hdoes with
  | refused => exact ⟨h d, rfl⟩
  | ringBroken hring => exact ⟨uring_broken h hring haccounted.1 d, rfl⟩
  | pollDone hpoll => exact ⟨epoll_broken h hpoll haccounted.1 d, rfl⟩

end

end Splice.Books

/-! ### Whole runs -/

abbrev State := Links × Step Splice (Option (ℕ × ℕ))

def step (s : State) (event : SpliceEvent) : State :=
  match s.2 with
  | .next splice => splice.step s.1 event
  | .done _ => s

def State.start (available : Option Bool) : State :=
  (fun d => .start (streams d), .next (.start available))

def State.result (s : State) : Option (Option (ℕ × ℕ)) :=
  match s.2 with
  | .next _ => none
  | .done result => some result

/-- The kernel answers as it does without a fault. -/
def Fair (s : State) (event : SpliceEvent) : Prop :=
  match s.2 with
  | .next splice => splice.Fair event
  | .done _ => True

/-- No drain window ends with bytes left in the direction. -/
def InTime (d : Dir) (s : State) (event : SpliceEvent) : Prop :=
  match s.2 with
  | .next splice => splice.InTime s.1 d event
  | .done _ => True

instance Fair.decidable : ∀ (s : State) (event : SpliceEvent), Decidable (Fair s event)
  | (_, .next splice), event => inferInstanceAs (Decidable (splice.Fair event))
  | (_, .done _), _ => isTrue trivial

instance InTime.decidable (d : Dir) :
    ∀ (s : State) (event : SpliceEvent), Decidable (InTime d s event)
  | (links, .next splice), event => inferInstanceAs (Decidable (splice.InTime links d event))
  | (_, .done _), _ => isTrue trivial

def Sound (s : State) : Prop :=
  match s.2 with
  | .next splice => splice.Steady (fun _ => 0) s.1 ∧ ∀ d, (s.1 d).carried = streams d
  | .done (some _) => (∃ d, (s.1 d).out = streams d) ∧ ∀ d, (s.1 d).out <+: streams d
  | .done none => False

/-- A result comes only with all bytes delivered. -/
def Whole (d : Dir) (s : State) : Prop :=
  match s.2 with
  | .next _ => True
  | .done _ => (s.1 d).out = streams d

variable {result : Option (ℕ × ℕ)}

theorem Whole.out {streams : Dir → Bytes} {d : Dir} {s : State} (h : Whole streams d s)
    (hresult : s.result = some result) : (s.1 d).out = streams d := by
  obtain ⟨links, state⟩ := s
  cases state with
  | next splice => cases hresult
  | done result => exact h

def State.left (s : State) : ℕ :=
  match s.2 with
  | .next splice => splice.left s.1 + 1
  | .done _ => 0

namespace Sound

variable {streams : Dir → Bytes} {s : State} {event : SpliceEvent}

theorem start (streams : Dir → Bytes) (available : Option Bool) :
    Sound streams (.start streams available) :=
  ⟨Steady.start (fun _ => rfl) (fun _ => rfl) available, fun _ => rfl⟩

section

variable (h : Sound streams s)
include h

theorem step (hfair : Fair s event) : Sound streams (step s event) := by
  obtain ⟨links, state⟩ := s
  cases state with
  | done result => exact h
  | next splice =>
    obtain ⟨hsteady, hcarried⟩ := h
    have hdoes := step_does links splice event
    show Sound streams (splice.step links event)
    generalize splice.step links event = result at hdoes ⊢
    match result with
    | (links', .next splice') =>
      obtain ⟨hsteady', hmoves⟩ := hsteady.next hdoes hfair
      exact ⟨hsteady', fun d => (hmoves d).carried.trans (hcarried d)⟩
    | (_, .done (some counts)) =>
      obtain ⟨links₁, rfl, hmoves, ⟨d, hdelivered⟩, _⟩ := hsteady.done hdoes hfair
      have hcarried₁ (d : Dir) : (links₁ d).carried = streams d :=
        (hmoves d).carried.trans (hcarried d)
      refine ⟨⟨d, hdelivered.out_eq_carried.trans (hcarried₁ d)⟩, fun d => ?_⟩
      rw [← hcarried₁]
      exact (links₁ d).out_prefix_carried
    | (_, .done none) => exact hsteady.not_broken hdoes hfair

theorem whole_step (hfair : Fair s event) {d : Dir}
    (hwhole : Whole streams d s) (hintime : InTime d s event) :
    Whole streams d (Splicing.step s event) := by
  obtain ⟨links, state⟩ := s
  cases state with
  | done result => exact hwhole
  | next splice =>
    obtain ⟨hsteady, hcarried⟩ := h
    have hdoes := step_does links splice event
    show Whole streams d (splice.step links event)
    generalize splice.step links event = result at hdoes ⊢
    match result with
    | (_, .next _) => trivial
    | (_, .done (some counts)) =>
      obtain ⟨links₁, rfl, hmoves, _, hdelivered⟩ := hsteady.done hdoes hfair
      show (links₁ d).out = streams d
      rw [(hdelivered d hintime).out_eq_carried, (hmoves d).carried, hcarried]
    | (_, .done none) => exact (hsteady.not_broken hdoes hfair).elim

theorem whole {events : List SpliceEvent} {d : Dir}
    (hwhole : Whole streams d s) (hfair : Meets Fair Splicing.step s events)
    (hintime : Meets (InTime d) Splicing.step s events) :
    Whole streams d (events.foldl Splicing.step s) := by
  refine (invariant_of_meets (P := fun s => Sound streams s ∧ Whole streams d s)
    (fun s event hP hok => ?_) ⟨h, hwhole⟩ (hfair.and hintime)).2
  exact ⟨hP.1.step hok.1, hP.1.whole_step hok.1 hP.2 hok.2⟩

theorem ended (hresult : s.result = some result) :
    (∃ d, (s.1 d).out = streams d) ∧ ∀ d, (s.1 d).out <+: streams d := by
  obtain ⟨links, state⟩ := s
  match state with
  | .next splice => cases hresult
  | .done none => exact h.elim
  | .done (some counts) => exact h

theorem can_end :
    ∃ events, Meets (fun s event => Fair s event ∧ ∀ d, InTime d s event) Splicing.step s
        events ∧ Sound streams (events.foldl Splicing.step s) ∧
      (events.foldl Splicing.step s).result ≠ none := by
  refine exists_meets_of_measure (Q := fun s => s.result ≠ none)
    State.left (fun s h => ?_) h
  obtain ⟨links, state⟩ := s
  cases state with
  | done result => exact .inl nofun
  | next splice =>
    have hsteady : splice.Steady (fun _ => 0) links := h.1
    obtain ⟨event, hfair, hintime, hnearer⟩ := hsteady.progress
    refine .inr ⟨event, ⟨hfair, hintime⟩, h.step hfair, ?_⟩
    show State.left (splice.step links event) < splice.left links + 1
    generalize splice.step links event = result at hnearer ⊢
    match result with
    | (_, .next _) => exact Nat.succ_lt_succ hnearer
    | (_, .done _) => exact Nat.succ_pos _

end

end Sound

/-- **The splicing relay and the copying relay.**  Both relay the same two streams, and nothing
fails.  Then both can always return.  When they have, the copying relay has given each side exactly
the stream of the other; the splicing relay has done so in one direction, and in the other too if
the time for it did not run out with bytes on their way.  Otherwise it has given a prefix. -/
theorem splice_eq_copy (streams : Dir → Bytes) (available : Option Bool)
    (events : List SpliceEvent) (answers : List (Dir × CopyRelay.Answer))
    (hfair : Meets Fair step (.start streams available) events)
    (hcopy : Meets CopyRelay.Calm CopyRelay.step (.start streams) answers) :
    let s := events.foldl step (.start streams available)
    let t := answers.foldl CopyRelay.step (.start streams)
    (∃ more, Meets (fun s event => Fair s event ∧ ∀ d, InTime d s event) step s more ∧
      (more.foldl step s).result ≠ none) ∧
    (∃ more, Meets CopyRelay.Calm CopyRelay.step t more ∧
      (more.foldl CopyRelay.step t).2.result ≠ none) ∧
    ∀ result result', s.result = some result → t.2.result = some result' →
      (∀ d, (t.1 d).out = streams d ∧ (s.1 d).out <+: (t.1 d).out) ∧
      (∃ d, (s.1 d).out = (t.1 d).out) ∧
      ∀ d, Meets (InTime d) step (.start streams available) events →
        (s.1 d).out = (t.1 d).out := by
  have hsound : Sound streams (events.foldl step (.start streams available)) :=
    invariant_of_meets (fun _ _ h hok => h.step hok) (.start streams available) hfair
  have hrunning : CopyRelay.Running streams (answers.foldl CopyRelay.step (.start streams)) :=
    invariant_of_meets (fun _ _ h hok => h.step hok) (.start streams) hcopy
  obtain ⟨more, hmore, _, hends⟩ := hsound.can_end
  obtain ⟨more', hmore', _, hends'⟩ := hrunning.can_end
  refine ⟨⟨more, hmore, hends⟩, ⟨more', hmore', hends'⟩, fun result result' hdone hdone' => ?_⟩
  have hcopied := hrunning.ended hdone'
  obtain ⟨⟨d, hd⟩, hout⟩ := hsound.ended hdone
  refine ⟨fun d => ⟨hcopied d, ?_⟩, ⟨d, hd.trans (hcopied d).symm⟩, fun d hintime => ?_⟩
  · rw [hcopied]
    exact hout d
  · have hwhole := Sound.whole (.start streams available) trivial hfair hintime
    exact (hwhole.out hdone).trans (hcopied d).symm

def sampleStreams : Dir → Bytes
  | .up => [1, 2]
  | .down => [3]

def sampleEvents : List SpliceEvent :=
  .created true ::
    [.complete .up (.moved 2), .reap .up, .complete .up (.moved 2), .reap .up,
      .complete .up (.moved 0), .reap .up, .endRound, .complete .down (.moved 1), .reap .down,
      .complete .down .again, .reap .down, .complete .down (.moved 1), .reap .down,
      .complete .down (.moved 0), .reap .down, .endRound].map .uring

def sampleAnswers : List (Dir × CopyRelay.Answer) :=
  [(.up, .read 2), (.up, .wrote 2), (.up, .flushed), (.up, .read 0), (.down, .read 1),
    (.down, .wrote 1), (.down, .flushed), (.down, .read 0)]

theorem splice_eq_copy_sample :
    ((sampleEvents.foldl step (.start sampleStreams none)).1 .down).out =
      ((sampleAnswers.foldl CopyRelay.step (.start sampleStreams)).1 .down).out :=
  ((splice_eq_copy sampleStreams none sampleEvents sampleAnswers (by decide +kernel)
    (by decide +kernel)).2.2 (some (2, 1)) (some (2, 1)) (by decide +kernel)
    (by decide +kernel)).2.2 .down (by decide +kernel)

def lateStreams : Dir → Bytes
  | .up => []
  | .down => [7]

/-- The time for the answer runs out, for the ring and for the system calls; nothing fails.  The
answer is given up, where the copying relay waits for it. -/
theorem late_answer_lost :
    let ring : List SpliceEvent := [.created true, .uring (.complete .up (.moved 0)),
      .uring (.reap .up), .uring .endRound, .uring .expire]
    let poll : List SpliceEvent := [.epoll (.move .up (.moved 0)), .epoll .expire]
    let answers : List (Dir × CopyRelay.Answer) := [(.up, .read 0), (.down, .read 1),
      (.down, .wrote 1), (.down, .flushed), (.down, .read 0)]
    let s := ring.foldl step (.start lateStreams (some true))
    let s' := poll.foldl step (.start lateStreams (some false))
    let t := answers.foldl CopyRelay.step (.start lateStreams)
    (Meets Fair step (.start lateStreams (some true)) ring ∧
      s.result = some (some (0, 0)) ∧ (s.1 .down).out = []) ∧
    (Meets Fair step (.start lateStreams (some false)) poll ∧
      s'.result = some (some (0, 0)) ∧ (s'.1 .down).out = []) ∧
    (Meets CopyRelay.Calm CopyRelay.step (.start lateStreams) answers ∧
      t.2.result = some (some (0, 1)) ∧ (t.1 .down).out = [7]) := by
  decide +kernel

end Blackwire.Splicing
