import Blackwire.Common.Vision

/-!
# Unpadding in pieces

`VisionUnpaddingState::feed` on the two parts of a byte string, against the same on the whole.
Inside a frame the bytes may come in any pieces.  The beginning of a frame is looked for only at
the beginning of a read, and all its header must be there.
-/

namespace Blackwire

open List

namespace VisionUnpaddingState

variable {uuid : Octets 16} {st : VisionUnpaddingState} {input : Bytes} {st' : VisionUnpaddingState}
  {fuel : ℕ} {a : Bytes}

/-- The read begins with the UUID and has the whole header. -/
def OpensFrame (uuid : Octets 16) (input : Bytes) : Prop :=
  21 ≤ input.length ∧ input.take 16 = uuid.val

/-! ### Frames byte by byte -/

section

variable (st : VisionUnpaddingState)

def advance (b : UInt8) : VisionUnpaddingState :=
  if 0 < st.remainingCommand then st.command b
  else if 0 < st.remainingContent then { st with remainingContent := st.remainingContent - 1 }
  else { st with remainingPadding := st.remainingPadding - 1 }

def carried (b : UInt8) : Bytes :=
  if st.remainingCommand ≤ 0 ∧ 0 < st.remainingContent then [b] else []

def next (b : UInt8) : Option VisionUnpaddingState :=
  if (st.advance b).isDone then
    if (st.advance b).currentCommand = visionCommandPaddingContinue then
      some { st.advance b with remainingCommand := 5 }
    else none
  else some (st.advance b)

end

/-- The bytes lie inside the frames that a read from this state begins with or continues. -/
def InFrame (uuid : Octets 16) (st : VisionUnpaddingState) (bs : Bytes) : Prop :=
  if st.isInitial then
    OpensFrame uuid bs ∧ ((bs.drop 16).foldlM next { st with remainingCommand := 5 }).isSome
  else (bs.foldlM next st).isSome

def closed (st : VisionUnpaddingState) : VisionUnpaddingState :=
  ⟨visionInitial, visionInitial, visionInitial, st.currentCommand⟩

theorem isInitial_of_not_done (h : st.isDone = false) : st.isInitial = false := by
  simp only [isDone, Bool.and_eq_false_iff, decide_eq_false_iff_not] at h
  rw [Bool.eq_false_iff]
  intro hinitial
  simp only [isInitial, Bool.and_eq_true, decide_eq_true_eq] at hinitial
  simp only [visionInitial] at hinitial
  omega

theorem next_not_done {b : UInt8} (h : st.next b = some st') : st'.isDone = false := by
  unfold next at h
  split_ifs at h with hdone hcommand
  · cases h; simp [isDone]
  · cases h; simpa using hdone

/-! ### The loop -/

theorem feedAux_nil (uuid : Octets 16) (fuel : ℕ) (st : VisionUnpaddingState) :
    feedAux uuid fuel st [] = ([], false, st) := by
  cases fuel <;> simp [feedAux]

theorem feedAux_initial {uuid : Octets 16} (fuel : ℕ) (hst : st.isInitial)
    (hinput : ¬ (21 ≤ input.length ∧ input.take 16 = uuid.val)) :
    feedAux uuid (fuel + 1) st input = (input, false, st) := by
  unfold feedAux
  by_cases hnil : input = []
  · simp [hnil]
  · simp [if_neg hnil, openFrame, hst, if_neg hinput]

def settle (uuid : Octets 16) (fuel : ℕ) (left : VisionUnpaddingState × Bytes × Bytes) :
    Bytes × Bool × VisionUnpaddingState :=
  if left.1.isDone then
    if left.1.currentCommand = visionCommandPaddingContinue then
      ((left.2.1 ++ (feedAux uuid fuel { left.1 with remainingCommand := 5 } left.2.2).1,
        (feedAux uuid fuel { left.1 with remainingCommand := 5 } left.2.2).2))
    else (left.2.1 ++ left.2.2, left.1.currentCommand = visionCommandPaddingDirect, left.1.closed)
  else (left.2.1 ++ (feedAux uuid fuel left.1 left.2.2).1, (feedAux uuid fuel left.1 left.2.2).2)

theorem feedAux_live (h : st.isDone = false) (hinput : input ≠ []) (fuel : ℕ) :
    feedAux uuid (fuel + 1) st input = settle uuid fuel (st.consume input) := by
  simp only [feedAux, hinput, if_false, openFrame, isInitial_of_not_done h, settle]
  rfl

theorem length_consume (h : st.isDone = false) (hinput : input ≠ []) :
    (st.consume input).2.2.length < input.length := by
  have hpos := length_pos_iff.2 hinput
  simp only [isDone, Bool.and_eq_false_iff, decide_eq_false_iff_not] at h
  unfold consume
  split_ifs <;> simp <;> omega

theorem settle_fuel {fuel' : ℕ} {left : VisionUnpaddingState × Bytes × Bytes}
    (h : ∀ st, st.isDone = false → feedAux uuid fuel st left.2.2 = feedAux uuid fuel' st left.2.2) :
    settle uuid fuel left = settle uuid fuel' left := by
  unfold settle
  split_ifs with hdone
  · rw [h _ (by simp [isDone])]
  · rfl
  · rw [h _ (by simpa using hdone)]

section

variable (h : st.isDone = false)
include h

/-- Fuel beyond the length of the input changes nothing. -/
theorem feedAux_fuel {fuel' : ℕ} (hf : input.length < fuel)
    (hf' : input.length < fuel') : feedAux uuid fuel st input = feedAux uuid fuel' st input := by
  induction fuel generalizing fuel' st input with
  | zero => omega
  | succ fuel ih =>
    obtain ⟨fuel', rfl⟩ : ∃ k, fuel' = k + 1 := ⟨fuel' - 1, by omega⟩
    by_cases hinput : input = []
    · rw [hinput, feedAux_nil, feedAux_nil]
    have hlen := length_consume h hinput
    rw [feedAux_live h hinput, feedAux_live h hinput]
    exact settle_fuel fun _ hst => ih hst (by omega) (by omega)

theorem feed_live (hinput : input ≠ []) (hfuel : input.length ≤ fuel) :
    st.feed uuid input = settle uuid fuel (st.consume input) := by
  rw [← feedAux_live h hinput]
  exact feedAux_fuel h (by omega) (by omega)

theorem consume_cons (b : UInt8) (bs : Bytes) :
    st.consume (b :: bs) = (st.advance b, st.carried b, bs) ∨
      (st.advance b).isDone = false ∧ bs ≠ [] ∧ st.consume (b :: bs) =
        (((st.advance b).consume bs).1, st.carried b ++ ((st.advance b).consume bs).2.1,
          ((st.advance b).consume bs).2.2) := by
  by_cases hcommand : 0 < st.remainingCommand
  · left
    simp [consume, advance, carried, hcommand]
  simp only [isDone, Bool.and_eq_false_iff, decide_eq_false_iff_not] at h
  obtain ⟨c, n, p, cmd⟩ := st
  simp only at h hcommand
  by_cases hn : 0 < n
  · by_cases hone : n = 1 ∨ bs = []
    · have hmin : min n.toNat (bs.length + 1) = 1 := by
        rcases hone with rfl | rfl <;> simp
        omega
      simp [consume, advance, carried, hcommand, hn, hmin, not_lt.1 hcommand]
    · rw [not_or] at hone
      have hmin : min n.toNat (bs.length + 1) = min (n - 1).toNat bs.length + 1 := by omega
      have hn' : 1 < n := by omega
      refine .inr ⟨?_, hone.2, ?_⟩
      · simp [advance, hcommand, hn, isDone]
        omega
      · simp [consume, advance, carried, hcommand, hn, hn', hmin, not_lt.1 hcommand]
        omega
  · have hp : 0 < p := by omega
    by_cases hone : p = 1 ∨ bs = []
    · have hmin : min p.toNat (bs.length + 1) = 1 := by
        rcases hone with rfl | rfl <;> simp
        omega
      simp [consume, advance, carried, hcommand, hn, hp, hmin]
    · rw [not_or] at hone
      have hmin : min p.toNat (bs.length + 1) = min (p - 1).toNat bs.length + 1 := by omega
      have hp' : 1 < p := by omega
      refine .inr ⟨?_, hone.2, ?_⟩
      · simp [advance, hcommand, hn, isDone]
        omega
      · simp [consume, advance, carried, hcommand, hn, hp, hp', hmin]
        omega

theorem feed_cons (b : UInt8) (bs : Bytes) :
    st.feed uuid (b :: bs) = match st.next b with
      | some st' => (st.carried b ++ (st'.feed uuid bs).1, (st'.feed uuid bs).2)
      | none => (st.carried b ++ bs,
          (st.advance b).currentCommand = visionCommandPaddingDirect, (st.advance b).closed) := by
  rw [feed_live h (cons_ne_nil b bs) (show _ ≤ bs.length + 2 by simp)]
  rcases consume_cons h b bs with heq | ⟨hdone, hbs, heq⟩
  · rw [heq, next, settle]
    split_ifs <;> rfl
  · rw [next, if_neg (by simpa using hdone), heq]
    simp only [feed_live hdone hbs (show _ ≤ bs.length + 2 by omega), settle]
    split_ifs <;> simp only [append_assoc]

end

/-! ### Cuts inside and behind a frame -/

section

variable (uuid : Octets 16)

theorem feed_append_of_some (h : st.isDone = false) (ha : a.foldlM next st = some st') :
    st'.isDone = false ∧ (st.feed uuid a).2 = (false, st') ∧ ∀ b, st.feed uuid (a ++ b) =
      ((st.feed uuid a).1 ++ (st'.feed uuid b).1, (st'.feed uuid b).2) := by
  induction a generalizing st with
  | nil =>
    cases ha
    exact ⟨h, by simp [feed, feedAux_nil], fun b => by simp [feed, feedAux_nil]⟩
  | cons x a ih =>
    obtain ⟨st₁, hnext, ha⟩ := Option.bind_eq_some_iff.1 ha
    obtain ⟨hlive, hfeed, happend⟩ := ih (next_not_done hnext) ha
    simpa [feed_cons h, hnext, happend, hfeed] using hlive

theorem feed_append_of_none (h : st.isDone = false) (ha : a.foldlM next st = none) :
    (st.feed uuid a).2.2.isInitial ∧
      ∀ b, st.feed uuid (a ++ b) = ((st.feed uuid a).1 ++ b, (st.feed uuid a).2) := by
  induction a generalizing st with
  | nil => cases ha
  | cons x a ih =>
    simp only [cons_append, feed_cons h]
    cases hnext : st.next x with
    | none => simp [closed, isInitial]
    | some st₁ =>
      obtain ⟨hinitial, happend⟩ := ih (next_not_done hnext) (by simpa [hnext] using ha)
      exact ⟨hinitial, fun b => by simp [happend]⟩

theorem length_feed_le (h : st.isDone = false) (input : Bytes) :
    (st.feed uuid input).1.length ≤ input.length := by
  induction input generalizing st with
  | nil => simp [feed, feedAux_nil]
  | cons x input ih =>
    have hcarried : (st.carried x).length ≤ 1 := by unfold carried; split_ifs <;> simp
    rw [feed_cons h]
    cases hnext : st.next x with
    | none => simp; omega
    | some st₁ =>
      have := ih (next_not_done hnext)
      simp
      omega

end

/-! ### Cuts outside a frame -/

def opened (st : VisionUnpaddingState) : VisionUnpaddingState := { st with remainingCommand := 5 }

theorem opened_not_done (st : VisionUnpaddingState) : st.opened.isDone = false := by
  simp [opened, isDone]

theorem feed_initial (hst : st.isInitial) (hinput : ¬ OpensFrame uuid input) :
    st.feed uuid input = (input, false, st) :=
  feedAux_initial _ hst hinput

theorem feed_open (hst : st.isInitial) (hinput : OpensFrame uuid input) :
    st.feed uuid input = st.opened.feed uuid (input.drop 16) := by
  have hlen := hinput.1
  have hne : input ≠ [] := ne_nil_of_length_pos (by omega)
  have hdrop : input.drop 16 ≠ [] := ne_nil_of_length_pos (by simp; omega)
  rw [feed_live st.opened_not_done hdrop (show _ ≤ input.length + 1 by simp; omega)]
  simp only [feed, feedAux, hne, if_false, openFrame, hst, if_true, hinput.2, hlen, and_self]
  rfl

theorem OpensFrame.append (h : OpensFrame uuid a) (b : Bytes) : OpensFrame uuid (a ++ b) := by
  have := h.1
  refine ⟨by simp; omega, ?_⟩
  rw [take_append_of_le_length (by omega), h.2]

theorem length_feed_lt (hst : st.isInitial) (hinput : OpensFrame uuid input) :
    (st.feed uuid input).1.length < input.length := by
  have hle := length_feed_le uuid st.opened_not_done (input.drop 16)
  have := hinput.1
  rw [feed_open hst hinput]
  simp only [length_drop] at hle
  omega

/-! ### Reads cut in two -/

/-- Two reads give what one read of both gives: the output, the switch to direct copy and the
state. -/
def Agrees (uuid : Octets 16) (st : VisionUnpaddingState) (a b : Bytes) : Prop :=
  let first := st.feed uuid a
  let second := first.2.2.feed uuid b
  st.feed uuid (a ++ b) = (first.1 ++ second.1, first.2.1 || second.2.1, second.2.2)

/-- The cut between two reads is harmless: nothing is read before it, it lies inside a frame, or
what follows it opens no frame and it goes through no header. -/
def Harmless (uuid : Octets 16) (st : VisionUnpaddingState) (a b : Bytes) : Prop :=
  a = [] ∨ InFrame uuid st a ∨
    ¬ OpensFrame uuid b ∧ (st.isInitial → OpensFrame uuid (a ++ b) → OpensFrame uuid a)

theorem agrees_live_iff (h : st.isDone = false) {b : Bytes} :
    Agrees uuid st a b ↔ (a.foldlM next st).isSome ∨ ¬ OpensFrame uuid b := by
  cases ha : a.foldlM next st with
  | some st' =>
    obtain ⟨-, hfeed, happend⟩ := feed_append_of_some uuid h ha
    simp [Agrees, happend, hfeed]
  | none =>
    obtain ⟨hinitial, happend⟩ := feed_append_of_none uuid h ha
    rw [Agrees, happend]
    by_cases hopens : OpensFrame uuid b
    · refine iff_of_false (fun hagrees => ?_) (by simp [hopens])
      rw [Prod.mk.injEq, append_cancel_left_eq] at hagrees
      have hlt := length_feed_lt hinitial hopens
      rw [← hagrees.1] at hlt
      exact lt_irrefl _ hlt
    · simp [feed_initial hinitial hopens, hopens]

theorem agrees_opened_iff (hst : st.isInitial) (ha : OpensFrame uuid a) {b : Bytes} :
    Agrees uuid st a b ↔ InFrame uuid st a ∨ ¬ OpensFrame uuid b := by
  have hlen : 16 ≤ a.length := (by decide : 16 ≤ 21).trans ha.1
  have hagrees : Agrees uuid st a b ↔ Agrees uuid st.opened (a.drop 16) b := by
    rw [Agrees, Agrees, feed_open hst ha, feed_open hst (ha.append b),
      drop_append_of_le_length hlen]
  rw [hagrees, agrees_live_iff st.opened_not_done, InFrame, if_pos hst, and_iff_right ha]
  rfl

/-- Outside a frame: if only one of the second read and the whole opens a frame, bytes are missing
from one of the two outputs. -/
theorem agrees_unopened (hst : st.isInitial) (ha : ¬ OpensFrame uuid a) {b : Bytes} :
    (¬ OpensFrame uuid b → ¬ OpensFrame uuid (a ++ b) → Agrees uuid st a b) ∧
      (Agrees uuid st a b → (OpensFrame uuid b ↔ OpensFrame uuid (a ++ b))) := by
  rw [Agrees, feed_initial hst ha]
  by_cases hb : OpensFrame uuid b <;> by_cases hwhole : OpensFrame uuid (a ++ b)
  · simp [hb, hwhole]
  · refine ⟨fun h => absurd hb h, fun hagrees => ?_⟩
    rw [feed_initial hst hwhole, Prod.mk.injEq, append_cancel_left_eq] at hagrees
    have hlt := length_feed_lt hst hb
    rw [← hagrees.1] at hlt
    exact absurd hlt (lt_irrefl _)
  · refine ⟨fun _ h => absurd hwhole h, fun hagrees => ?_⟩
    have hlt := length_feed_lt hst hwhole
    rw [hagrees, feed_initial hst hb] at hlt
    exact absurd hlt (lt_irrefl _)
  · simp [feed_initial hst hb, feed_initial hst hwhole, hb, hwhole]

/-- A state that a sequence of reads leads to. -/
def Reachable (uuid : Octets 16) (st : VisionUnpaddingState) : Prop :=
  ∃ inputs : List Bytes, st = inputs.foldl (fun st input => (st.feed uuid input).2.2) new

theorem feed_state (h : st.isInitial ∨ st.isDone = false) (input : Bytes) :
    (st.feed uuid input).2.2.isInitial ∨ (st.feed uuid input).2.2.isDone = false := by
  have hlive : ∀ {st : VisionUnpaddingState} {input : Bytes}, st.isDone = false →
      (st.feed uuid input).2.2.isInitial ∨ (st.feed uuid input).2.2.isDone = false := by
    intro st input hst
    cases ha : input.foldlM next st with
    | none => exact .inl (feed_append_of_none uuid hst ha).1
    | some st' =>
      obtain ⟨hdone, hfeed, -⟩ := feed_append_of_some uuid hst ha
      exact .inr (by rw [hfeed]; exact hdone)
  rcases h with hst | hst
  · by_cases hopens : OpensFrame uuid input
    · rw [feed_open hst hopens]
      exact hlive st.opened_not_done
    · rw [feed_initial hst hopens]
      exact .inl hst
  · exact hlive hst

theorem Reachable.cases (h : Reachable uuid st) : st.isInitial ∨ st.isDone = false := by
  obtain ⟨inputs, rfl⟩ := h
  induction inputs using List.reverseRecOn with
  | nil => exact .inl rfl
  | append_singleton inputs input ih =>
    rw [foldl_append]
    exact feed_state ih input

/-- **Reads cut in two.**  In every reachable state two reads are unpadded as one if the cut between
them is harmless, and only then, but for a cut before which no frame was opened and after which both
the second read and the whole open one. -/
theorem feed_append (uuid : Octets 16) (st : VisionUnpaddingState) (hst : Reachable uuid st)
    (a b : Bytes) :
    (Harmless uuid st a b → Agrees uuid st a b) ∧
      (Agrees uuid st a b → ¬ Harmless uuid st a b →
        ¬ OpensFrame uuid a ∧ OpensFrame uuid b ∧ OpensFrame uuid (a ++ b)) := by
  by_cases hnil : a = []
  · exact ⟨fun _ => by simp [hnil, Agrees, feed, feedAux_nil], fun _ h => absurd (.inl hnil) h⟩
  unfold Harmless
  rcases hst.cases with hinitial | hlive
  · by_cases ha : OpensFrame uuid a
    · rw [agrees_opened_iff hinitial ha]
      tauto
    · have hinside : ¬ InFrame uuid st a := by simp [InFrame, hinitial, ha]
      have hunopened := agrees_unopened (b := b) hinitial ha
      tauto
  · have hnot : ¬ st.isInitial := by simp [isInitial_of_not_done hlive]
    rw [agrees_live_iff hlive, InFrame, if_neg hnot]
    tauto

/-- A frame is cut in its content, and plain bytes are cut anywhere. -/
theorem feed_append_sample : Reachable sampleUuid new ∧
    Agrees sampleUuid new (sampleUuid.val ++ [1, 0, 2, 0, 0, 9]) [8] ∧
    Agrees sampleUuid new [1, 2] [3] :=
  ⟨⟨[], rfl⟩, (feed_append sampleUuid new ⟨[], rfl⟩ _ _).1 (.inr (.inl (by
    unfold InFrame OpensFrame; decide))),
    (feed_append sampleUuid new ⟨[], rfl⟩ _ _).1 (.inr (.inr (by unfold OpensFrame; decide)))⟩

/-- A read that ends behind the UUID: the UUID and the header are passed on. -/
theorem header_cut_not_agrees : Reachable sampleUuid new ∧
    ¬ Agrees sampleUuid new sampleUuid.val [1, 0, 1, 0, 0, 9] :=
  ⟨⟨[], rfl⟩, by unfold Agrees; decide +kernel⟩

end VisionUnpaddingState

end Blackwire
