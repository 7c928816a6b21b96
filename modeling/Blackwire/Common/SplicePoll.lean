import Blackwire.Common.Splice

/-!
# The system calls

What holds of `splice_bidirectional_epoll` in every state that it reaches.

* `Epoll.Steady.progress`: the system calls can always go on.
-/

namespace Blackwire.Splicing

open Loop List

variable {link : Link UInt8} {res : Res} {links links' : Links} {base : Dir → ℕ}
  {poll poll' : Epoll} {event : EpollEvent} {result : Link UInt8 × OneWay} {d : Dir}

/-! ### The system calls when nothing fails -/

section OneWay

variable {way : OneWay} {result : Link UInt8 × OneWay}

theorem OneWay.Does.count {base : ℕ} (h : Does link way res result)
    (hcount : link.out.length = base + way.total) :
    result.1.out.length = base + result.2.total := by
  cases h with
  | nothing | eof | filled => exact hcount
  | @emptied remaining n _ _ hbuf =>
    show (link.give n).out.length = base + (way.total + n)
    rw [Link.length_out_give hbuf]
    omega
  | failed => exact hcount

def OneWay.Steady (link : Link UInt8) (way : OneWay) : Prop :=
  match way.phase with
  | .reading => link.buf = []
  | .draining remaining => link.buf ≠ [] ∧ remaining = link.buf.length
  | .finished true => link.buf = [] ∧ link.rest = []
  | .finished false => False

def Res.Normal : Res → Prop
  | .moved _ | .again => True
  | .cancelled | .failed => False

instance Res.Normal.decidable : ∀ res : Res, Decidable res.Normal
  | .moved _ | .again => isTrue trivial
  | .cancelled | .failed => isFalse id

def OneWay.left (link : Link UInt8) (way : OneWay) : ℕ :=
  10 * (link.rest.length + link.buf.length) +
    match way.phase with
    | .reading => 2
    | .draining _ => 1
    | .finished _ => 0

namespace OneWay.Steady

theorem start (hbuf : link.buf = []) : Steady link .start := hbuf

theorem does (h : Steady link way) (hdoes : Does link way res result) (hnormal : res.Normal) :
    Steady result.1 result.2 := by
  cases hdoes with
  | nothing => exact h
  | eof hphase hrest =>
    rw [Steady, hphase] at h
    refine ⟨?_, hrest⟩
    show link.buf ++ link.rest.take 0 = []
    rw [h]
    rfl
  | @filled n hphase hpos hle =>
    rw [Steady, hphase] at h
    have hlength : (link.take n).buf.length = n := by
      rw [Link.length_buf_take hle, h, length_nil, Nat.zero_add]
    have hsome : 0 < (link.take n).buf.length := by omega
    exact ⟨length_pos_iff.1 hsome, hlength.symm⟩
  | @emptied remaining n hphase hle hbuf =>
    rw [Steady, hphase] at h
    have hlength : (link.give n).buf.length = remaining - n := by rw [Link.length_buf_give, h.2]
    unfold Steady afterOut
    split_ifs with hzero
    · exact length_eq_zero_iff.1 (hlength.trans hzero)
    · have hsome : 0 < (link.give n).buf.length := by omega
      exact ⟨length_pos_iff.1 hsome, hlength.symm⟩
  | failed hagain hmoved =>
    cases res with
    | moved n => exact absurd rfl (hmoved n)
    | again => exact absurd rfl hagain
    | cancelled | failed => exact hnormal

theorem progress (h : Steady link way) :
    way.phase = .finished true ∨
      ∃ res, res.Normal ∧ (way.step link res).2.left (way.step link res).1 < way.left link := by
  obtain ⟨phase, total⟩ := way
  cases phase with
  | finished ok =>
    cases ok with
    | true => exact .inl rfl
    | false => exact h.elim
  | reading =>
    refine .inr ⟨.moved (min link.rest.length pipeCapacity), trivial, ?_⟩
    simp only [step, spliced_all]
    split_ifs
    · simp only [left, Link.close, Link.take, length_drop, length_append, length_take]
      omega
    · simp only [left, Link.take, length_drop, length_append, length_take]
      omega
  | draining remaining =>
    obtain ⟨hbuf, hremaining⟩ := h
    have hpos := length_pos_iff.2 hbuf
    have hle : remaining ≤ min remaining link.buf.length := by omega
    have hspliced : spliced link (.splOut remaining) (.moved remaining) =
        some (link.give remaining) := by
      simp only [spliced, if_pos hle]
    refine .inr ⟨.moved remaining, trivial, ?_⟩
    simp only [step, hspliced, left, afterOut, Nat.sub_self, if_true, Link.give, length_drop]
    omega

end OneWay.Steady

end OneWay

/-! ### Both directions of the system calls -/

structure Epoll.Ordered (poll : Epoll) : Prop where
  first : ∀ d, (poll.way d).phase = .finished true ↔ poll.first = some d
  alive : ∀ d, (poll.way d).phase ≠ .finished false

theorem Epoll.Ordered.start : Ordered .start := ⟨fun _ => ⟨nofun, nofun⟩, fun _ => nofun⟩

theorem Epoll.Ordered.next (h : poll.Ordered)
    (hdoes : Does links poll event (links', .next poll')) : poll'.Ordered := by
  cases hdoes with
  | ignored => exact h
  | @moved d res result hway hfirst hphase =>
    constructor
    · refine Dir.forall_update
        (P := fun d (way : OneWay) => way.phase = .finished true ↔ poll.first = some d) h.first ?_
      exact ⟨fun heq => absurd heq (hphase true), fun heq => absurd heq hfirst⟩
    · exact Dir.forall_update (P := fun _ (way : OneWay) => way.phase ≠ .finished false) h.alive
        (hphase false)
  | @first d res result hway hphase hfirst =>
    constructor
    · intro d'
      by_cases hd : d' = d
      · subst hd
        simp [hphase]
      · simp only [Function.update_of_ne hd, h.first d', hfirst, Option.some.injEq]
        exact ⟨nofun, fun heq => absurd heq.symm hd⟩
    · exact Dir.forall_update (P := fun _ (way : OneWay) => way.phase ≠ .finished false) h.alive
        (hphase ▸ nofun)
  | early => exact h

structure Epoll.Books (base : Dir → ℕ) (links : Links) (poll : Epoll) : Prop where
  count : ∀ d, (links d).out.length = base d + (poll.way d).total
  ordered : poll.Ordered

namespace Epoll.Books

theorem start (hcount : ∀ d, (links d).out.length = base d) : Books base links .start :=
  ⟨hcount, .start⟩

section

variable (h : Books base links poll)
include h

theorem update {res : Res} (hway : (poll.way d).step (links d) res = result) (d' : Dir) :
    (Function.update links d result.1 d').out.length =
      base d' + (Function.update poll.way d result.2 d').total := by
  subst hway
  exact Dir.forall_update₂
    (P := fun d (link : Link UInt8) (way : OneWay) => link.out.length = base d + way.total) h.count
    ((OneWay.step_does _ _ _).count (h.count d)) d'

theorem next (hdoes : Does links poll event (links', .next poll')) : Books base links' poll' := by
  refine ⟨?_, h.ordered.next hdoes⟩
  cases hdoes with
  | ignored => exact h.count
  | moved hway => exact h.update hway
  | first hway => exact h.update hway
  | early => exact h.count

theorem not_finished (hfirst : poll.first ≠ some d)
    (ok : Bool) : (poll.way d).phase ≠ .finished ok := by
  cases ok with
  | true => exact fun heq => hfirst ((h.ordered.first d).1 heq)
  | false => exact h.ordered.alive d

end

theorem totals_up {ok : Bool} (hup : (poll.way .up).phase = .finished ok)
    (hdown : ∀ ok, (poll.way .down).phase ≠ .finished ok) :
    poll.totals = ((poll.way .up).total, 0) := by
  simp only [Epoll.totals, hup]

theorem totals_down (hup : ∀ ok, (poll.way .up).phase ≠ .finished ok) :
    poll.totals = (0, (poll.way .down).total) := by
  unfold Epoll.totals
  split
  case h_1 heq _ | h_2 heq _ => exact absurd heq (hup _)
  case h_3 => rfl

theorem done (h : Books base links poll) {counts : ℕ × ℕ}
    (hdoes : Does links poll event (links', .done (some counts)))
    (hexpire : event = .expire → ∀ d, poll.first = some d → (poll.way d.other).total = 0) :
    (links' .up).out.length = base .up + counts.1 ∧
      (links' .down).out.length = base .down + counts.2 := by
  cases hdoes with
  | @second d d' res result hway hphase hfirst hne =>
    have hphases (d'' : Dir) :
        (Function.update poll.way d result.2 d'').phase = .finished true := by
      by_cases hd : d'' = d
      · subst hd
        rwa [Function.update_self]
      · have hd' : d'' = d' := (Dir.eq_other_of_ne hd).trans (Dir.eq_other_of_ne hne).symm
        rw [Function.update_of_ne hd, hd']
        exact (h.ordered.first d').2 hfirst
    simp only [Epoll.totals, hphases .up, hphases .down]
    exact ⟨h.update hway .up, h.update hway .down⟩
  | @expired d hfirst =>
    have hup := h.count .up
    have hdown := h.count .down
    cases d with
    | up =>
      have hne : poll.first ≠ some .down := hfirst ▸ nofun
      rw [totals_up ((h.ordered.first .up).2 hfirst) (h.not_finished hne)]
      have hzero : (poll.way .down).total = 0 := hexpire rfl .up hfirst
      rw [hzero] at hdown
      exact ⟨hup, hdown⟩
    | down =>
      have hne : poll.first ≠ some .up := hfirst ▸ nofun
      rw [totals_down (h.not_finished hne)]
      have hzero : (poll.way .up).total = 0 := hexpire rfl .down hfirst
      rw [hzero] at hup
      exact ⟨hup, hdown⟩

end Epoll.Books

def Epoll.Fair : EpollEvent → Prop
  | .move _ res => res.Normal
  | .expire => True

instance Epoll.Fair.decidable : ∀ event, Decidable (Epoll.Fair event)
  | .move _ res => inferInstanceAs (Decidable res.Normal)
  | .expire => isTrue trivial

structure Epoll.Steady (links : Links) (poll : Epoll) : Prop where
  way : ∀ d, (poll.way d).Steady (links d)
  ordered : poll.Ordered

def Epoll.left (links : Links) (poll : Epoll) : ℕ :=
  (poll.way .up).left (links .up) + (poll.way .down).left (links .down)

namespace Epoll.Steady

theorem start (hbuf : ∀ d, (links d).buf = []) : Steady links .start where
  way d := .start (hbuf d)
  ordered := .start

section

variable (h : Steady links poll)
include h

theorem delivered (hfirst : poll.first = some d) : (links d).Delivered := by
  have hway := h.way d
  rw [OneWay.Steady, (h.ordered.first d).2 hfirst] at hway
  exact hway

section

variable {res : Res} (hway : (poll.way d).step (links d) res = result)
include hway

theorem update (hnormal : res.Normal) (d' : Dir) :
    (Function.update poll.way d result.2 d').Steady (Function.update links d result.1 d') := by
  subst hway
  exact Dir.forall_update₂ h.way
    ((h.way d).does (OneWay.step_does _ _ _) hnormal) d'

theorem update_finished (hnormal : res.Normal) (hphase : result.2.phase = .finished true) :
    (Function.update links d result.1 d).Delivered := by
  have hsteady := h.update hway hnormal d
  simp only [Function.update_self, OneWay.Steady, hphase] at hsteady ⊢
  exact hsteady

end

theorem does {result : Links × Step Epoll (Option (ℕ × ℕ))}
    (hdoes : Does links poll event result) (hfair : Fair event) : Holds Steady result := by
  cases hdoes with
  | ignored => exact h
  | moved hway hfirst hphase =>
    exact ⟨h.update hway hfair, h.ordered.next (.moved hway hfirst hphase)⟩
  | @broken d res result hway hfirst hphase =>
    have hsteady := h.update hway hfair d
    simp only [Function.update_self, OneWay.Steady, hphase] at hsteady
  | first hway hphase hfirst =>
    exact ⟨h.update hway hfair, h.ordered.next (.first hway hphase hfirst)⟩
  | @second d d' res result hway hphase => exact ⟨d, h.update_finished hway hfair hphase⟩
  | early => exact h
  | expired hfirst => exact ⟨_, h.delivered hfirst⟩

theorem done {counts : ℕ × ℕ}
    (hdoes : Does links poll event (links', .done (some counts))) (hfair : Fair event) (d : Dir)
    (hexpire : event = .expire → poll.first ≠ none → (links d).Delivered) :
    (links' d).Delivered := by
  cases hdoes with
  | @second d₂ d₁ res result hway hphase hfirst hne =>
    by_cases hd : d = d₂
    · subst hd
      exact h.update_finished hway hfair hphase
    · have hd' : d = d₁ := (Dir.eq_other_of_ne hd).trans (Dir.eq_other_of_ne hne).symm
      subst hd'
      rw [Function.update_of_ne hd]
      exact h.delivered hfirst
  | expired hfirst => exact hexpire rfl (hfirst ▸ nofun)

theorem progress :
    ∃ event, event ≠ .expire ∧ Fair event ∧
      Nearer Epoll.left (poll.left links) (poll.step links event) := by
  have hsome : ∃ d, (poll.way d).phase ≠ .finished true := by
    by_contra hnone
    simp only [not_exists, not_not] at hnone
    have hup := (h.ordered.first .up).1 (hnone .up)
    have hdown := (h.ordered.first .down).1 (hnone .down)
    cases hup.symm.trans hdown
  obtain ⟨d, hphase⟩ := hsome
  obtain ⟨res, hnormal, hlt⟩ := (h.way d).progress.resolve_left hphase
  have hleft : Epoll.left (Function.update links d ((poll.way d).step (links d) res).1)
      { poll with way := Function.update poll.way d ((poll.way d).step (links d) res).2 } <
        poll.left links := by
    refine Dir.add_lt_add
      (f := fun d' => (Function.update poll.way d ((poll.way d).step (links d) res).2 d').left
        (Function.update links d ((poll.way d).step (links d) res).1 d'))
      (g := fun d' => (poll.way d').left (links d')) (d := d) ?_ fun d' hd => ?_
    · simpa only [Function.update_self] using hlt
    · simp only [Function.update_of_ne hd]
  have hfirst : poll.first ≠ some d := fun heq => hphase ((h.ordered.first d).2 heq)
  refine ⟨.move d res, nofun, hnormal, ?_⟩
  generalize hresult : poll.step links (.move d res) = result
  have hdoes := Epoll.step_does links poll (.move d res)
  rw [hresult] at hdoes
  cases hdoes with
  | ignored heq => exact absurd heq hfirst
  | moved hway =>
    subst hway
    exact hleft
  | broken => trivial
  | first hway =>
    subst hway
    exact hleft
  | second => trivial

end

end Epoll.Steady

end Blackwire.Splicing
