import Blackwire.Lib.Bytes
import Blackwire.Lib.Link
import Blackwire.Lib.Run

/-!
# The copying relay

`copy_one_pooled` and `copy_bidirectional_pooled` of `relay.rs`: both directions of a relay are
copied through buffers, each until its source ends, whatever the other one does.
-/

namespace Blackwire

open List Function

abbrev Links := Dir → Link UInt8

namespace CopyRelay

def bufSize : ℕ := 16 * 1024

/-- Where the copy of one direction is: at the read, in `write_all` or in `flush` with a chunk of
`n` bytes, or at its end, with or without an error. -/
inductive Phase where
  | reading
  | writing (n : ℕ)
  | flushing (n : ℕ)
  | finished (ok : Bool)
  deriving DecidableEq

def Phase.afterWrite (n : ℕ) (left : Bytes) : Phase :=
  if left = [] then .flushing n else .writing n

structure CopyOne where
  phase : Phase
  total : ℕ

/-- What the streams answer: bytes read, of which none means the end, bytes written, a flush, or an
error. -/
inductive Answer where
  | read (n : ℕ)
  | wrote (n : ℕ)
  | flushed
  | failed
  deriving DecidableEq

namespace CopyOne

def start : CopyOne := ⟨.reading, 0⟩

def finish (link : Link UInt8) (one : CopyOne) (ok : Bool) : Link UInt8 × CopyOne :=
  (link.close, { one with phase := .finished ok })

/-- One answer of a stream.  A read returns at most a buffer, and nothing only at the end of the
source. -/
def step (link : Link UInt8) (one : CopyOne) (answer : Answer) : Link UInt8 × CopyOne :=
  match one.phase, answer with
  | .reading, .read n =>
    if n ≤ min link.rest.length bufSize then
      if n = 0 then if link.rest = [] then one.finish link true else (link, one)
      else (link.take n, { one with phase := .writing n })
    else (link, one)
  | .reading, .failed => one.finish link false
  | .writing n, .wrote k =>
    if 0 < k ∧ k ≤ link.buf.length then
      (link.give k, { one with phase := .afterWrite n (link.buf.drop k) })
    else (link, one)
  | .writing _, .failed => one.finish link false
  | .flushing n, .flushed => (link, { phase := .reading, total := one.total + n })
  | .flushing _, .failed => one.finish link false
  | _, _ => (link, one)

end CopyOne

abbrev Copy := Dir → CopyOne

namespace Copy

def start : Copy := fun _ => .start

def step (links : Links) (copy : Copy) (d : Dir) (answer : Answer) : Links × Copy :=
  let result := (copy d).step (links d) answer
  (update links d result.1, update copy d result.2)

/-- What `copy_bidirectional_pooled` returns when both copies have ended: the counts, or the error
of one of them. -/
def result (copy : Copy) : Option (Option (ℕ × ℕ)) :=
  match (copy .up).phase, (copy .down).phase with
  | .finished true, .finished true => some (some ((copy .up).total, (copy .down).total))
  | .finished _, .finished _ => some none
  | _, _ => none

end Copy

/-! ### One direction -/

variable {link : Link UInt8} {one : CopyOne} {answer : Answer} {result : Link UInt8 × CopyOne}
  {links : Links} {copy : Copy} {d : Dir} {streams : Dir → Bytes}

inductive CopyOne.Does (link : Link UInt8) (one : CopyOne) : Answer → Link UInt8 × CopyOne → Prop
  | nothing {answer : Answer} : Does link one answer (link, one)
  | eof (hphase : one.phase = .reading) (hrest : link.rest = []) :
    Does link one (.read 0) (one.finish link true)
  | read {n : ℕ} (hphase : one.phase = .reading) (hpos : 0 < n) (hle : n ≤ link.rest.length) :
    Does link one (.read n) (link.take n, { one with phase := .writing n })
  | wrote {n k : ℕ} (hphase : one.phase = .writing n) (hpos : 0 < k) (hle : k ≤ link.buf.length) :
    Does link one (.wrote k)
      (link.give k, { one with phase := .afterWrite n (link.buf.drop k) })
  | flushed {n : ℕ} (hphase : one.phase = .flushing n) :
    Does link one .flushed (link, { phase := .reading, total := one.total + n })
  | failed : Does link one .failed (one.finish link false)

theorem CopyOne.step_does (link : Link UInt8) (one : CopyOne) (answer : Answer) :
    Does link one answer (one.step link answer) := by
  unfold step
  split
  case h_1 n hphase =>
    split_ifs with hle hzero hrest
    · subst hzero
      exact .eof hphase hrest
    · exact .nothing
    · exact .read hphase (by omega) (by omega)
    · exact .nothing
  case h_2 => exact .failed
  case h_3 n k hphase =>
    split_ifs with hk
    · exact .wrote hphase hk.1 hk.2
    · exact .nothing
  case h_4 => exact .failed
  case h_5 n hphase => exact .flushed hphase
  case h_6 => exact .failed
  case h_7 => exact .nothing

theorem CopyOne.Does.moves (h : Does link one answer result) : Link.Moves link result.1 := by
  cases h with
  | nothing => exact .refl link
  | eof => exact .close link
  | read => exact .take _ link
  | wrote => exact .give _ link
  | flushed => exact .refl link
  | failed => exact .close link

def CopyOne.Sound (base : ℕ) (link : Link UInt8) (one : CopyOne) : Prop :=
  match one.phase with
  | .reading => link.buf = [] ∧ link.out.length = base + one.total
  | .writing n => link.buf ≠ [] ∧ link.out.length + link.buf.length = base + one.total + n
  | .flushing n => link.buf = [] ∧ link.out.length = base + one.total + n
  | .finished true => link.buf = [] ∧ link.rest = [] ∧ link.out.length = base + one.total
  | .finished false => True

namespace CopyOne.Sound

variable {base : ℕ}

theorem start (hbuf : link.buf = []) (hcount : link.out.length = base) :
    Sound base link .start := ⟨hbuf, hcount⟩

theorem wrote {n k : ℕ} (h : Sound base link one) (hphase : one.phase = .writing n)
    (hle : k ≤ link.buf.length) :
    Sound base (link.give k) { one with phase := .afterWrite n (link.buf.drop k) } := by
  rw [Sound, hphase] at h
  have hout := Link.length_out_give hle
  have hbuf : (link.give k).buf = link.buf.drop k := rfl
  have hlength := Link.length_buf_give k link
  unfold Sound Phase.afterWrite
  split_ifs with hleft
  · refine ⟨hbuf.trans hleft, ?_⟩
    rw [hbuf, hleft, length_nil] at hlength
    show (link.give k).out.length = base + one.total + n
    omega
  · refine ⟨fun hempty => hleft (hbuf.symm.trans hempty), ?_⟩
    show (link.give k).out.length + (link.give k).buf.length = base + one.total + n
    omega

theorem does (h : Sound base link one) (hdoes : Does link one answer result) :
    Sound base result.1 result.2 := by
  cases hdoes with
  | nothing => exact h
  | failed => trivial
  | eof hphase hrest =>
    rw [Sound, hphase] at h
    exact ⟨h.1, hrest, h.2⟩
  | @read n hphase hpos hle =>
    rw [Sound, hphase] at h
    obtain ⟨hbuf, hcount⟩ := h
    have hlength : (link.take n).buf.length = n := by
      rw [Link.length_buf_take hle, hbuf, length_nil, Nat.zero_add]
    have hsome : 0 < (link.take n).buf.length := by omega
    refine ⟨length_pos_iff.1 hsome, ?_⟩
    show link.out.length + (link.take n).buf.length = base + one.total + n
    omega
  | wrote hphase hpos hle => exact h.wrote hphase hle
  | @flushed n hphase =>
    rw [Sound, hphase] at h
    exact ⟨h.1, h.2.trans (Nat.add_assoc _ _ _)⟩

end CopyOne.Sound

def CopyOne.Alive (one : CopyOne) : Prop := one.phase ≠ .finished false

theorem CopyOne.Does.alive (h : Does link one answer result) (halive : one.Alive)
    (hanswer : answer ≠ .failed) : result.2.Alive := by
  cases h with
  | nothing => exact halive
  | failed => exact absurd rfl hanswer
  | eof => exact nofun
  | read => exact nofun
  | wrote =>
    unfold Alive Phase.afterWrite
    split_ifs <;> exact nofun
  | flushed => exact nofun

def CopyOne.left (link : Link UInt8) (one : CopyOne) : ℕ :=
  10 * (link.rest.length + link.buf.length) +
    match one.phase with
    | .reading => 2
    | .writing _ => 1
    | .flushing _ => 5
    | .finished _ => 0

theorem CopyOne.Sound.progress {base : ℕ} (h : Sound base link one) (halive : one.Alive) :
    one.phase = .finished true ∨
      ∃ answer, answer ≠ .failed ∧
        left (one.step link answer).1 (one.step link answer).2 < left link one := by
  obtain ⟨phase, total⟩ := one
  cases phase with
  | finished ok =>
    cases ok with
    | true => exact .inl rfl
    | false => exact absurd rfl halive
  | reading =>
    refine .inr ⟨.read (min link.rest.length bufSize), Answer.noConfusion, ?_⟩
    by_cases hrest : link.rest = []
    · simp [step, hrest, finish, left, Link.close]
    · have hpos := length_pos_iff.2 hrest
      have hn : ¬min link.rest.length bufSize = 0 := by
        unfold bufSize
        omega
      simp only [step, le_refl, if_true, if_neg hn, left, Link.take, length_drop,
        length_append, length_take]
      omega
  | writing n =>
    have hpos := length_pos_iff.2 h.1
    refine .inr ⟨.wrote link.buf.length, Answer.noConfusion, ?_⟩
    simp only [step, hpos, le_refl, and_self, if_true, left, Link.give, drop_length,
      Phase.afterWrite, length_nil]
    omega
  | flushing n =>
    refine .inr ⟨.flushed, Answer.noConfusion, ?_⟩
    simp only [step, left]
    omega

/-! ### Both directions -/

theorem Copy.sound_step (base : Dir → ℕ) (h : ∀ d, (copy d).Sound (base d) (links d)) (d : Dir)
    (answer : Answer) (d' : Dir) :
    ((copy.step links d answer).2 d').Sound (base d') ((copy.step links d answer).1 d') :=
  Dir.forall_update₂ h
    ((h d).does (CopyOne.step_does _ _ _)) d'

theorem Copy.sound_ended (base : Dir → ℕ) (h : ∀ d, (copy d).Sound (base d) (links d))
    {up down : ℕ} (hresult : copy.result = some (some (up, down))) :
    (∀ d, (links d).Delivered) ∧ (links .up).out.length = base .up + up ∧
      (links .down).out.length = base .down + down := by
  have hup := h .up
  have hdown := h .down
  unfold Copy.result at hresult
  split at hresult
  case h_1 hphase hphase' =>
    rw [CopyOne.Sound, hphase] at hup
    rw [CopyOne.Sound, hphase'] at hdown
    cases hresult
    refine ⟨fun d => ?_, hup.2.2, hdown.2.2⟩
    cases d with
    | up => exact ⟨hup.1, hup.2.1⟩
    | down => exact ⟨hdown.1, hdown.2.1⟩
  case h_2 | h_3 => cases hresult

/-! ### Whole runs -/

abbrev State := Links × Copy

def step (s : State) (event : Dir × Answer) : State := s.2.step s.1 event.1 event.2

def Calm (_ : State) (event : Dir × Answer) : Prop := event.2 ≠ .failed

instance Calm.decidable (s : State) (event : Dir × Answer) : Decidable (Calm s event) :=
  inferInstanceAs (Decidable (event.2 ≠ .failed))

structure Running (streams : Dir → Bytes) (s : State) : Prop where
  carried : ∀ d, (s.1 d).carried = streams d
  sound : ∀ d, (s.2 d).Sound 0 (s.1 d)
  alive : ∀ d, (s.2 d).Alive

def State.start (streams : Dir → Bytes) : State := (fun d => .start (streams d), .start)

theorem Running.start (streams : Dir → Bytes) : Running streams (.start streams) where
  carried _ := rfl
  sound _ := .start rfl rfl
  alive _ := nofun

theorem Running.step {s : State} (h : Running streams s) {event : Dir × Answer}
    (hcalm : Calm s event) : Running streams (step s event) where
  carried :=
    Dir.forall_update (P := fun d (link : Link UInt8) => link.carried = streams d) h.carried
      ((CopyOne.step_does _ _ _).moves.carried.trans (h.carried event.1))
  sound := Copy.sound_step (fun _ => 0) h.sound event.1 event.2
  alive :=
    Dir.forall_update h.alive
      ((CopyOne.step_does _ _ _).alive (h.alive event.1) hcalm)

def State.left (s : State) : ℕ := (s.2 .up).left (s.1 .up) + (s.2 .down).left (s.1 .down)

/-- **The copying relay relays everything.**  When both copies have ended without an error, each
destination has the whole stream of the other side. -/
theorem Running.ended {s : State} (h : Running streams s) {result : Option (ℕ × ℕ)}
    (hresult : s.2.result = some result) (d : Dir) : (s.1 d).out = streams d := by
  cases result with
  | some counts =>
    have hdelivered := (Copy.sound_ended (fun _ => 0) h.sound hresult).1 d
    exact hdelivered.out_eq_carried.trans (h.carried d)
  | none =>
    -- a copy that has failed
    unfold Copy.result at hresult
    split at hresult
    case h_1 => cases hresult
    case h_2 ok ok' hnot hphase hphase' =>
      have hup := h.alive .up
      have hdown := h.alive .down
      rw [CopyOne.Alive, hphase] at hup
      rw [CopyOne.Alive, hphase'] at hdown
      simp only [ne_eq, Phase.finished.injEq, Bool.not_eq_false] at hup hdown
      exact absurd hdown (hnot hup)
    case h_3 => cases hresult

theorem Running.can_end {s : State} (h : Running streams s) :
    ∃ events, Run.Meets Calm CopyRelay.step s events ∧
      Running streams (events.foldl CopyRelay.step s) ∧
        (events.foldl CopyRelay.step s).2.result ≠ none := by
  refine Run.exists_meets_of_measure (Q := fun s => s.2.result ≠ none)
    State.left (fun s h => ?_) h
  have hone (d : Dir) (hphase : (s.2 d).phase ≠ .finished true) :
      ∃ event, Calm s event ∧ Running streams (CopyRelay.step s event) ∧
        (CopyRelay.step s event).left < s.left := by
    obtain ⟨answer, hanswer, hlt⟩ := ((h.sound d).progress (h.alive d)).resolve_left hphase
    refine ⟨(d, answer), hanswer, h.step hanswer, ?_⟩
    refine Dir.add_lt_add (f := fun d' => ((CopyRelay.step s (d, answer)).2 d').left
        ((CopyRelay.step s (d, answer)).1 d'))
      (g := fun d' => (s.2 d').left (s.1 d')) (d := d) ?_ fun d' hd => ?_
    · simpa only [CopyRelay.step, Copy.step, update_self] using hlt
    · simp only [CopyRelay.step, Copy.step, update_of_ne hd]
  by_cases hup : (s.2 .up).phase = .finished true
  · by_cases hdown : (s.2 .down).phase = .finished true
    · refine .inl ?_
      rw [Copy.result, hup, hdown]
      exact nofun
    · exact .inr (hone .down hdown)
  · exact .inr (hone .up hup)

end CopyRelay

end Blackwire
