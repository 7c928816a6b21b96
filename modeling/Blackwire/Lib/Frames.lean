import Blackwire.Lib.Bytes

/-!
# Streams of frames

An encoder that turns values into frames while its state moves on, `enc : σ → α → Bytes × σ`, and
the stream `encodeAll enc s as` of the frames of a list of values.  A receiver holds some beginning
of such a stream; either it holds the first frame, or its bytes are a beginning of that frame
(`prefix_encodeAll_cons`).
-/

namespace Frames

open List

variable {σ α : Type} (enc : σ → α → Bytes × σ)

def encodeAll : σ → List α → Bytes
  | _, [] => []
  | s, a :: as => (enc s a).1 ++ encodeAll (enc s a).2 as

def endState : σ → List α → σ
  | s, [] => s
  | s, a :: as => endState (enc s a).2 as

theorem encodeAll_append (s : σ) (as bs : List α) :
    encodeAll enc s (as ++ bs) = encodeAll enc s as ++ encodeAll enc (endState enc s as) bs := by
  induction as generalizing s with
  | nil => rfl
  | cons a as ih => rw [cons_append, encodeAll, ih, encodeAll, endState, append_assoc]

theorem endState_append (s : σ) (as bs : List α) :
    endState enc s (as ++ bs) = endState enc (endState enc s as) bs := by
  induction as generalizing s with
  | nil => rfl
  | cons a as ih => rw [cons_append, endState, ih, endState]

variable {enc}

theorem prefix_encodeAll_cons {s : σ} {a : α} {as : List α} {raw : Bytes}
    (h : raw <+: encodeAll enc s (a :: as)) :
    (∃ tail, raw = (enc s a).1 ++ tail ∧ tail <+: encodeAll enc (enc s a).2 as) ∨
      (raw.length < (enc s a).1.length ∧ raw <+: (enc s a).1) := by
  by_cases hlen : (enc s a).1.length ≤ raw.length
  · obtain ⟨tail, rfl⟩ := prefix_of_prefix_length_le (prefix_append _ _) h hlen
    exact .inl ⟨tail, rfl, (prefix_append_right_inj _).1 h⟩
  · exact .inr ⟨by omega, prefix_of_prefix_length_le h (prefix_append _ _) (by omega)⟩

variable (enc) in
/-- What is left of a stream behind its last whole frame, if `todo` are the values still to come: a
beginning of the next frame that is not all of it. -/
def Incomplete (s : σ) : List α → Bytes → Prop
  | [], tail => tail = []
  | a :: _, tail => tail <+: (enc s a).1 ∧ tail.length < (enc s a).1.length

theorem exists_split_of_prefix {s : σ} {as : List α} {raw : Bytes}
    (h : raw <+: encodeAll enc s as) :
    ∃ done todo tail, as = done ++ todo ∧ raw = encodeAll enc s done ++ tail ∧
      Incomplete enc (endState enc s done) todo tail := by
  induction as generalizing s raw with
  | nil =>
    obtain rfl := prefix_nil.1 h
    exact ⟨[], [], [], rfl, rfl, rfl⟩
  | cons a as ih =>
    obtain ⟨tail, rfl, htail⟩ | ⟨hlen, hpre⟩ := prefix_encodeAll_cons h
    · obtain ⟨done, todo, tail', rfl, rfl, hend⟩ := ih htail
      exact ⟨a :: done, todo, tail', rfl, (append_assoc ..).symm, hend⟩
    · exact ⟨[], a :: as, raw, rfl, rfl, hpre, hlen⟩

theorem Incomplete.eq_nil {s : σ} {todo : List α}
    (h : Incomplete enc s todo (encodeAll enc s todo)) : todo = [] := by
  cases todo with
  | nil => rfl
  | cons a todo =>
    have hlen := h.2
    rw [encodeAll, length_append] at hlen
    omega

end Frames
