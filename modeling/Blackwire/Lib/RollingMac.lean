import Blackwire.Lib.Bytes

/-!
# Rolling tags

A sender feeds a MAC with its messages, each followed by its tag; the tag of a message is that of
everything fed before it and of the message itself.  Nothing in what is fed tells where a message
ends.
-/

namespace RollingMac

open List

variable (tag : Bytes → Bytes) (start : Bytes)

def fed : Bytes → List Bytes → Bytes
  | start, [] => start
  | start, m :: ms => fed (start ++ m ++ tag (start ++ m)) ms

def tagged : Bytes → List Bytes → List Bytes
  | _, [] => []
  | start, m :: ms => (start ++ m) :: tagged (start ++ m ++ tag (start ++ m)) ms

theorem fed_append (ms ns : List Bytes) :
    fed tag start (ms ++ ns) = fed tag (fed tag start ms) ns := by
  induction ms generalizing start with
  | nil => rfl
  | cons m ms ih => exact ih _

theorem tagged_append (ms ns : List Bytes) :
    tagged tag start (ms ++ ns) = tagged tag start ms ++ tagged tag (fed tag start ms) ns := by
  induction ms generalizing start with
  | nil => rfl
  | cons m ms ih => rw [cons_append, tagged, ih, tagged, fed, cons_append]

variable {tag}

theorem start_isPrefix_fed (ms : List Bytes) : start <+: fed tag start ms := by
  induction ms generalizing start with
  | nil => exact prefix_rfl
  | cons m ms ih =>
    refine List.IsPrefix.trans ?_ (ih _)
    rw [append_assoc]
    exact prefix_append _ _

theorem start_isPrefix_of_mem {start x : Bytes} {ms : List Bytes} (h : x ∈ tagged tag start ms) :
    start <+: x := by
  induction ms generalizing start with
  | nil => cases h
  | cons m ms ih =>
    rw [tagged, mem_cons] at h
    rcases h with rfl | h
    · exact prefix_append _ _
    · refine List.IsPrefix.trans ?_ (ih h)
      rw [append_assoc]
      exact prefix_append _ _

theorem length_lt_of_mem (htag : ∀ x, tag x ≠ []) {start x : Bytes} {ms : List Bytes}
    (h : x ∈ tagged tag start ms) : x.length < (fed tag start ms).length := by
  induction ms generalizing start with
  | nil => cases h
  | cons m ms ih =>
    rw [tagged, mem_cons] at h
    rcases h with rfl | h
    · have hle : (start ++ m ++ tag (start ++ m)).length ≤ (fed tag _ ms).length :=
        (start_isPrefix_fed _ ms).length_le
      have hpos := length_pos_of_ne_nil (htag (start ++ m))
      rw [length_append] at hle
      rw [fed]
      omega
    · exact ih h

theorem next_of_mem (htag : ∀ x, tag x ≠ []) {start data : Bytes} {done todo : List Bytes}
    (h : fed tag start done ++ data ∈ tagged tag start (done ++ todo)) :
    ∃ m todo', todo = m :: todo' ∧
      (data = m ∨ m ++ tag (fed tag start done ++ m) <+: data) := by
  rw [tagged_append, mem_append] at h
  rcases h with h | h
  · -- an earlier message: its string is too short
    have hlt := length_lt_of_mem htag h
    rw [length_append] at hlt
    omega
  · cases todo with
    | nil => cases h
    | cons m todo =>
      refine ⟨m, todo, rfl, ?_⟩
      rw [tagged, mem_cons] at h
      rcases h with h | h
      · exact .inl (append_cancel_left h)
      · have hpre := start_isPrefix_of_mem h
        rw [append_assoc, prefix_append_right_inj] at hpre
        exact .inr hpre

variable (tag) in
/-- One direction: `log` are all the strings that holders of the key have computed tags of.  What
was accepted is a beginning of what was sent, and whatever begins like this direction is of this
direction. -/
structure Sound (start : Bytes) (log sent accepted : List Bytes) : Prop where
  accepted_sent : accepted <+: sent
  mem_tagged : ∀ x ∈ log, start <+: x → x ∈ tagged tag start sent

namespace Sound

variable {start : Bytes} {log sent accepted : List Bytes}

section

variable (h : Sound tag start log sent accepted)
include h

theorem send (m : Bytes) :
    Sound tag start (log ++ [fed tag start sent ++ m]) (sent ++ [m]) accepted where
  accepted_sent := h.accepted_sent.trans (prefix_append _ _)
  mem_tagged := by
    intro x hx hstart
    rw [tagged_append, mem_append]
    rw [mem_append, mem_singleton] at hx
    rcases hx with hx | rfl
    · exact .inl (h.mem_tagged x hx hstart)
    · exact .inr mem_cons_self

theorem foreign {x : Bytes} (hx : ¬ start <+: x) :
    Sound tag start (log ++ [x]) sent accepted where
  accepted_sent := h.accepted_sent
  mem_tagged := by
    intro y hy hstart
    rw [mem_append, mem_singleton] at hy
    rcases hy with hy | rfl
    · exact h.mem_tagged y hy hstart
    · exact absurd hstart hx

/-- **A tagged string is the next message**, unless it goes on behind the tag of that message. -/
theorem accept (htag : ∀ x, tag x ≠ []) {data : Bytes} (hlog : fed tag start accepted ++ data ∈ log)
    (hends : ∀ m, sent[accepted.length]? = some m →
      ¬ m ++ tag (fed tag start accepted ++ m) <+: data) :
    Sound tag start log sent (accepted ++ [data]) := by
  obtain ⟨todo, htodo⟩ := h.accepted_sent
  have hstart : start <+: fed tag start accepted ++ data :=
    (start_isPrefix_fed start accepted).trans (prefix_append _ _)
  have hmem := h.mem_tagged _ hlog hstart
  rw [← htodo] at hmem
  obtain ⟨m, todo', rfl, rfl | hmore⟩ := next_of_mem htag hmem
  · exact ⟨⟨todo', by rw [← htodo, append_assoc]; rfl⟩, h.mem_tagged⟩
  · exact absurd hmore (hends m (by simp [← htodo]))

end

end Sound

end RollingMac
