import Blackwire.Lib.Bytes
import Blackwire.Lib.Link

/-!
# Readers that can be dropped

A reader takes one item from a stream of bytes, in as many polls as it needs; between two polls its
state holds what it has taken.  A loop that waits for the first of two such readers starts new ones
after every item: the state of the other reader is dropped, with the bytes in it.
-/

namespace Select

open Function

/-- What a socket holds: the bytes that have arrived and are not read, and the error that the stream
ends with behind them, if it has ended. -/
structure Inbox where
  bytes : Bytes
  ended : Option String

/-- The answer of a reader: it has taken all bytes and waits for more, or it is done and leaves the
rest. -/
inductive PollItem (φ ε α : Type)
  | pending (state : φ)
  | ready (item : Except ε α) (rest : Bytes)

def PollItem.isReady {φ ε α : Type} : PollItem φ ε α → Bool
  | .pending _ => false
  | .ready _ _ => true

structure Reader (φ ε α : Type) where
  start : φ
  poll : φ → Inbox → PollItem φ ε α
  taken : φ → Bytes
  wire : α → Bytes
  taken_start : taken start = []
  taken_pending {state inbox state'} : poll state inbox = .pending state' →
    taken state' = taken state ++ inbox.bytes
  wire_ready {state inbox item rest} : poll state inbox = .ready (.ok item) rest →
    taken state ++ inbox.bytes = wire item ++ rest

structure Port (φ : Type) where
  state : φ
  inbox : Inbox

variable {φ ε α : Type} (reader : Reader φ ε α) (port : Port φ)

def Port.bytes : Bytes := reader.taken port.state ++ port.inbox.bytes

def Port.arrive (bs : Bytes) : Port φ :=
  { port with inbox.bytes := port.inbox.bytes ++ bs }

@[simp] theorem Port.bytes_arrive (bs : Bytes) :
    (port.arrive bs).bytes reader = port.bytes reader ++ bs := by
  simp [bytes, arrive]

def Port.poll (port : Port φ) : PollItem φ ε α := reader.poll port.state port.inbox

def restart (ports : Dir → Port φ) (d : Dir) : Port φ := { ports d with state := reader.start }

def select (first : Dir) (ports : Dir → Port φ) : Option (Dir × Except ε α) × (Dir → Port φ) :=
  match (ports first).poll reader with
  | .ready item rest =>
    (some (first, item), restart reader
      (update ports first { ports first with inbox.bytes := rest }))
  | .pending state =>
    let ports := update ports first ⟨state, ⟨[], (ports first).inbox.ended⟩⟩
    match (ports first.other).poll reader with
    | .ready item rest =>
      (some (first.other, item), restart reader
        (update ports first.other { ports first.other with inbox.bytes := rest }))
    | .pending state =>
      (none, update ports first.other
        ⟨state, ⟨[], (ports first.other).inbox.ended⟩⟩)

def Interrupts (first : Dir) (ports : Dir → Port φ) : Prop :=
  if ((ports first).poll reader).isReady then reader.taken (ports first.other).state ≠ []
  else ((ports first.other).poll reader).isReady ∧ (ports first).bytes reader ≠ []

instance Interrupts.decidable (first : Dir) (ports : Dir → Port φ) :
    Decidable (Interrupts reader first ports) :=
  inferInstanceAs (Decidable
    (if ((ports first).poll reader).isReady then reader.taken (ports first.other).state ≠ []
      else ((ports first.other).poll reader).isReady ∧ (ports first).bytes reader ≠ []))

variable {reader} {first : Dir} {ports : Dir → Port φ}

theorem bytes_of_pending {port : Port φ} {state : φ} (h : port.poll reader = .pending state) :
    (Port.mk state ⟨[], port.inbox.ended⟩).bytes reader = port.bytes reader := by
  rw [Port.bytes, List.append_nil, reader.taken_pending h, Port.bytes]

theorem bytes_of_ready {port : Port φ} {item : α} {rest : Bytes}
    (h : port.poll reader = .ready (.ok item) rest) :
    port.bytes reader = reader.wire item ++ rest := reader.wire_ready h

theorem bytes_restart (d : Dir) :
    (restart reader ports d).bytes reader = (ports d).inbox.bytes := by
  rw [Port.bytes, restart, reader.taken_start, List.nil_append]

/-- Nothing is lost while both readers wait. -/
theorem select_pending {ports' : Dir → Port φ} (h : select reader first ports = (none, ports'))
    (d : Dir) : (ports' d).bytes reader = (ports d).bytes reader := by
  unfold select at h
  cases hfirst : (ports first).poll reader with
  | ready item rest => simp [hfirst] at h
  | pending state =>
    have hne : first.other ≠ first := by cases first <;> simp [Dir.other]
    simp only [hfirst, update_of_ne hne] at h
    cases hother : (ports first.other).poll reader with
    | ready item rest => simp [hother] at h
    | pending state' =>
      simp only [hother, Prod.mk.injEq, true_and] at h
      subst h
      by_cases hd : d = first.other
      · subst hd
        rw [update_self]
        exact bytes_of_pending hother
      · obtain rfl : d = first := by cases d <;> cases first <;> simp [Dir.other] at hd ⊢
        rw [update_of_ne hd, update_self]
        exact bytes_of_pending hfirst

theorem select_ready {ports' : Dir → Port φ} {d : Dir} {item : α}
    (h : select reader first ports = (some (d, .ok item), ports'))
    (hkeeps : ¬ Interrupts reader first ports) :
    (ports d).bytes reader = reader.wire item ++ (ports' d).bytes reader ∧
      (ports' d.other).bytes reader = (ports d.other).bytes reader := by
  have hne : first.other ≠ first := by cases first <;> simp [Dir.other]
  unfold select at h
  unfold Interrupts at hkeeps
  cases hfirst : (ports first).poll reader with
  | ready item' rest =>
    simp only [hfirst, PollItem.isReady, if_true, not_not, Prod.mk.injEq, Option.some.injEq]
      at h hkeeps
    obtain ⟨⟨rfl, rfl⟩, rfl⟩ := h
    rw [bytes_restart, bytes_restart, update_self, update_of_ne hne]
    refine ⟨bytes_of_ready hfirst, ?_⟩
    rw [Port.bytes, hkeeps, List.nil_append]
  | pending state =>
    simp only [hfirst, PollItem.isReady, Bool.false_eq_true, if_false, update_of_ne hne] at h hkeeps
    cases hother : (ports first.other).poll reader with
    | pending state' => simp [hother] at h
    | ready item' rest =>
      simp only [hother, true_and, not_not, Prod.mk.injEq, Option.some.injEq]
        at h hkeeps
      obtain ⟨⟨rfl, rfl⟩, rfl⟩ := h
      have hother' : first.other.other = first := by cases first <;> rfl
      rw [bytes_restart, bytes_restart, hother', update_self,
        update_of_ne hne.symm, update_self, hkeeps]
      exact ⟨bytes_of_ready hother, rfl⟩

end Select
