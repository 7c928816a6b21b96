import Blackwire.Lib.AsyncRead

/-!
# The segments of a stream

A `Source` delivers its bytes in segments.  A computation that reads a fixed number of bytes does
not see them, but one that takes what there is does: it gets what is left of the current segment.
-/

namespace AsyncIO.Source

open List

def segments : Source → List Segment
  | [] => []
  | .pending _ :: s => segments s
  | .data seg :: s => seg :: segments s

variable (segs : List Segment) {seg : Segment} {n : ℕ}

def bytesOf : Bytes := (segs.map Subtype.val).flatten

theorem bytesOf_cons (seg : Segment) (segs : List Segment) :
    bytesOf (seg :: segs) = seg.val ++ bytesOf segs := rfl

theorem contents_eq_bytesOf (s : Source) : contents s = bytesOf s.segments := by
  induction s with
  | nil => rfl
  | cons event s ih =>
    cases event with
    | pending => exact ih
    | data seg => rw [contents, segments, bytesOf_cons, ih]

theorem length_le_bytesOf : segs.length ≤ (bytesOf segs).length :=
  Bytes.length_le_flatMap (fun seg => seg.property) segs

/-! ### Where reading leaves the segments -/

theorem drop_ne_nil (h : n < seg.val.length) : seg.val.drop n ≠ [] := by
  simpa using h

def skip : ℕ → List Segment → List Segment
  | _, [] => []
  | n, seg :: segs =>
    if h : n < seg.val.length then ⟨seg.val.drop n, drop_ne_nil h⟩ :: segs
    else skip (n - seg.val.length) segs

theorem skip_cons_of_lt (h : n < seg.val.length) (segs : List Segment) :
    skip n (seg :: segs) = ⟨seg.val.drop n, drop_ne_nil h⟩ :: segs := dif_pos h

theorem skip_cons_of_le (h : seg.val.length ≤ n) (segs : List Segment) :
    skip n (seg :: segs) = skip (n - seg.val.length) segs := dif_neg (not_lt.2 h)

@[simp] theorem skip_zero : skip 0 segs = segs := by
  cases segs with
  | nil => rfl
  | cons seg segs => exact skip_cons_of_lt (length_pos_iff.2 seg.property) segs

theorem skip_skip (m n : ℕ) (segs : List Segment) : skip m (skip n segs) = skip (n + m) segs := by
  induction segs generalizing n with
  | nil => rfl
  | cons seg segs ih =>
    by_cases hn : n < seg.val.length
    · rw [skip_cons_of_lt hn]
      have hdrop : (seg.val.drop n).length = seg.val.length - n := length_drop
      by_cases hm : n + m < seg.val.length
      · rw [skip_cons_of_lt hm, skip_cons_of_lt (by show m < (seg.val.drop n).length; omega)]
        simp
      · have hle : (seg.val.drop n).length ≤ m := by omega
        have hskip : skip m (⟨seg.val.drop n, drop_ne_nil hn⟩ :: segs) =
            skip (m - (seg.val.drop n).length) segs := skip_cons_of_le hle segs
        rw [hskip, skip_cons_of_le (not_lt.1 hm)]
        congr 1
        omega
    · rw [skip_cons_of_le (by omega), skip_cons_of_le (by omega), ih]
      congr 1
      omega

theorem bytesOf_skip (n : ℕ) (segs : List Segment) :
    bytesOf (skip n segs) = (bytesOf segs).drop n := by
  induction segs generalizing n with
  | nil => exact drop_nil.symm
  | cons seg segs ih =>
    by_cases hn : n < seg.val.length
    · rw [skip_cons_of_lt hn, bytesOf_cons, bytesOf_cons, drop_append_of_le_length hn.le]
    · have hle : seg.val.length ≤ n := not_lt.1 hn
      rw [skip_cons_of_le hle, ih, bytesOf_cons, drop_append, drop_eq_nil_of_le hle, nil_append]

variable {segs : List Segment} {s : Source}

theorem bytesOf_eq_nil_iff : bytesOf segs = [] ↔ segs = [] := by
  constructor
  · intro h
    have hle := length_le_bytesOf segs
    rw [h] at hle
    exact length_eq_zero_iff.1 (Nat.le_zero.1 hle)
  · rintro rfl
    rfl

theorem skip_eq_of_bytesOf {e : Bytes} (h : bytesOf segs = e ++ bytesOf (skip n segs)) :
    skip n segs = skip e.length segs := by
  have hlen := congrArg List.length h
  rw [length_append, bytesOf_skip, length_drop] at hlen
  by_cases hn : n ≤ (bytesOf segs).length
  · congr 1
    omega
  · -- both skip everything
    have hall : ∀ k, (bytesOf segs).length ≤ k → skip k segs = [] := by
      intro k hk
      rw [← bytesOf_eq_nil_iff, bytesOf_skip, drop_eq_nil_of_le hk]
    rw [hall n (by omega), hall e.length (by omega)]

/-- The source is somewhere behind the beginning of `segs`, and no deadline passes while it is
pending. -/
def Within (segs : List Segment) (s : Source) : Prop := Patient s ∧ ∃ n, s.segments = skip n segs

theorem within_self (h : Patient s) : Within s.segments s := ⟨h, 0, (skip_zero _).symm⟩

theorem segments_pollRead (n : ℕ) (s : Source) :
    (AsyncRead.pollRead n s).2.segments =
      match (AsyncRead.pollRead n s).1 with
      | .pending _ => s.segments
      | .ready bs => skip bs.length s.segments := by
  rcases s with _ | ⟨e | seg, s⟩
  · rfl
  · rfl
  · show (pollRead n _).2.segments = match (pollRead n _).1 with
      | .pending _ => _ | .ready bs => skip bs.length _
    simp only [pollRead]
    split_ifs with h
    · dsimp only [segments]
      rw [length_take, Nat.min_eq_left h.le, skip_cons_of_lt h]
    · dsimp only [segments]
      rw [skip_cons_of_le (Nat.le_refl _), Nat.sub_self, skip_zero]

theorem Within.pollRead (n : ℕ) (h : Within segs s) : Within segs (AsyncRead.pollRead n s).2 := by
  obtain ⟨hpatient, k, hk⟩ := h
  refine ⟨hpatient.pollRead n, ?_⟩
  rw [segments_pollRead, hk]
  cases (AsyncRead.pollRead n s).1 with
  | pending e => exact ⟨k, rfl⟩
  | ready bs => exact ⟨k + bs.length, skip_skip ..⟩

/-- Where a computation that reads exactly `e` leaves the segments. -/
theorem segments_of_decodes {ε α : Type} {m : ReadM Source ε α} {e p : Bytes} {a : α}
    (hdecodes : ReadM.Decodes m e a) (hwithin : ∀ segs, ReadM.Preserves (Within segs) m)
    (hpatient : Patient s) (hs : contents s = e ++ p) :
    ∃ s', m false s = (.ok a, s') ∧ Patient s' ∧ contents s' = p ∧
      s'.segments = skip e.length s.segments := by
  obtain ⟨s', hrun, hrest⟩ := hdecodes s p hs
  obtain ⟨hpatient', n, hn⟩ : Within s.segments s' := by
    have h := hwithin s.segments false s (within_self hpatient)
    rwa [hrun] at h
  refine ⟨s', hrun, hpatient', hrest, ?_⟩
  rw [hn]
  refine skip_eq_of_bytesOf ?_
  rw [← hn, ← contents_eq_bytesOf, ← contents_eq_bytesOf, hs, ← hrest]
  rfl

/-! ### What one read delivers -/

def firstRead (n : ℕ) : List Segment → Bytes
  | [] => []
  | seg :: _ => seg.val.take n

theorem readSome_eq (timed : Bool) (n : ℕ) (htimed : timed = true → Patient s) :
    ∃ s', readSome timed n s = (.ok (firstRead n s.segments), s') ∧ (Patient s → Patient s') ∧
      s'.segments = skip (firstRead n s.segments).length s.segments := by
  suffices haux : ∀ fuel, stalls s < fuel →
      ∃ s', readSomeAux timed n fuel s = (.ok (firstRead n s.segments), s') ∧
        (Patient s → Patient s') ∧
        s'.segments = skip (firstRead n s.segments).length s.segments from
    haux _ (Nat.lt_succ_self _)
  -- every pending answer uses up one of the stalls, and with it some fuel
  induction s with
  | nil =>
    rintro (_ | fuel) hfuel
    · omega
    · exact ⟨[], rfl, id, rfl⟩
  | cons event s ih =>
    rintro (_ | fuel) hfuel
    · omega
    have htail : Patient (event :: s) → Patient s := fun h hmem => h (mem_cons_of_mem _ hmem)
    cases event with
    | pending e =>
      have hwait : (timed && e) = false := by
        cases timed with
        | false => rfl
        | true =>
          cases e with
          | false => rfl
          | true => exact absurd mem_cons_self (htimed rfl)
      have hpoll : AsyncRead.pollRead n (.pending e :: s) = (.pending e, s) := rfl
      obtain ⟨s', hread, hpatient, hs'⟩ :=
        ih (fun h => htail (htimed h)) fuel (Nat.lt_of_succ_lt_succ hfuel)
      refine ⟨s', ?_, fun h => hpatient (htail h), hs'⟩
      rw [readSomeAux, hpoll]
      dsimp only
      rw [hwait]
      exact hread
    | data seg =>
      have hready : (AsyncRead.pollRead n (.data seg :: s)).1 =
          .ready (seg.val.take n) := by
        show (pollRead n _).1 = _
        simp only [pollRead]
        split_ifs with h
        · rfl
        · rw [take_of_length_le (by omega)]
      have hsegments := segments_pollRead n (.data seg :: s)
      have hpatient : Patient (.data seg :: s) →
          Patient (AsyncRead.pollRead n (.data seg :: s)).2 := fun h => h.pollRead n
      rcases hpoll : AsyncRead.pollRead n (.data seg :: s) with ⟨answer, s'⟩
      rw [hpoll] at hready hsegments hpatient
      obtain rfl : answer = .ready (seg.val.take n) := hready
      refine ⟨s', ?_, hpatient, hsegments⟩
      rw [readSomeAux, hpoll]
      rfl

theorem readSome_of_segments (h : s.segments = seg :: segs) (hn : seg.val.length ≤ n) :
    ∃ s', readSome false n s = (.ok seg.val, s') ∧ s'.segments = segs := by
  obtain ⟨s', hread, -, hs'⟩ := readSome_eq false n Bool.noConfusion
  have hfirst : firstRead n s.segments = seg.val := by
    rw [h]
    exact take_of_length_le hn
  rw [hfirst] at hread hs'
  rw [h, skip_cons_of_le (Nat.le_refl _), Nat.sub_self, skip_zero] at hs'
  exact ⟨s', hread, hs'⟩

theorem readSome_of_segments_nil (n : ℕ) (h : s.segments = []) :
    ∃ s', readSome false n s = (.ok [], s') := by
  obtain ⟨s', hread, -, -⟩ := readSome_eq false n Bool.noConfusion
  rw [h] at hread
  exact ⟨s', hread⟩

/-! ### Boundaries -/

def boundaries : List Segment → List ℕ
  | [] => [0]
  | seg :: segs => 0 :: (boundaries segs).map (seg.val.length + ·)

theorem mem_boundaries_cons :
    n ∈ boundaries (seg :: segs) ↔
      n = 0 ∨ (seg.val.length ≤ n ∧ n - seg.val.length ∈ boundaries segs) := by
  rw [boundaries, mem_cons, mem_map]
  constructor
  · rintro (rfl | ⟨m, hm, rfl⟩)
    · exact .inl rfl
    · exact .inr ⟨Nat.le_add_right .., by rwa [Nat.add_sub_cancel_left]⟩
  · rintro (rfl | ⟨hle, hm⟩)
    · exact .inl rfl
    · exact .inr ⟨_, hm, Nat.add_sub_cancel' hle⟩

theorem zero_mem_boundaries (segs : List Segment) : 0 ∈ boundaries segs := by
  cases segs <;> exact mem_cons_self

theorem mem_boundaries_skip {k m : ℕ} (hm : 0 < m) :
    m ∈ boundaries (skip k segs) ↔ k + m ∈ boundaries segs := by
  induction segs generalizing k with
  | nil => simp [skip, boundaries, hm.ne']
  | cons seg segs ih =>
    have hlen : (seg.val.drop k).length = seg.val.length - k := length_drop
    by_cases hk : k < seg.val.length
    · have hsub : m - (seg.val.length - k) = k + m - seg.val.length := by omega
      rw [skip_cons_of_lt hk, mem_boundaries_cons, mem_boundaries_cons]
      rw [hlen, hsub]
      constructor
      · rintro (h | ⟨hle, hmem⟩)
        · omega
        · exact .inr ⟨by omega, hmem⟩
      · rintro (h | ⟨hle, hmem⟩)
        · omega
        · exact .inr ⟨by omega, hmem⟩
    · have hsub : k - seg.val.length + m = k + m - seg.val.length := by omega
      rw [skip_cons_of_le (by omega), ih, hsub, mem_boundaries_cons]
      constructor
      · intro hmem
        exact .inr ⟨by omega, hmem⟩
      · rintro (h | ⟨-, hmem⟩)
        · omega
        · exact hmem

theorem firstRead_eq_iff {msg more : Bytes} (h : bytesOf segs = msg ++ more) (hne : msg ≠ [])
    (hn : msg.length ≤ n) :
    firstRead n segs = msg ↔
      (∀ b ∈ boundaries segs, 0 < b → msg.length ≤ b) ∧
        (msg.length ∈ boundaries segs ∨ msg.length = n) := by
  have hpos := length_pos_iff.2 hne
  cases segs with
  | nil => exact absurd (append_eq_nil_iff.1 h.symm).1 hne
  | cons seg segs =>
    have hfirst : seg.val.length ∈ boundaries (seg :: segs) :=
      mem_boundaries_cons.2 (.inr ⟨Nat.le_refl _, by
        rw [Nat.sub_self]
        exact zero_mem_boundaries segs⟩)
    have hseg := length_pos_iff.2 seg.property
    constructor
    · intro hread
      have hlen : min n seg.val.length = msg.length := by
        rw [← hread]
        exact length_take.symm
      constructor
      · intro b hb hb0
        obtain rfl | ⟨hle, -⟩ := mem_boundaries_cons.1 hb <;> omega
      · by_cases hfill : msg.length = n
        · exact .inr hfill
        · left
          rwa [show msg.length = seg.val.length by omega]
    · rintro ⟨hinside, hend⟩
      -- the end of the first segment is a boundary, so the message lies within the segment
      have hle : msg.length ≤ seg.val.length := hinside _ hfirst hseg
      have hmsg : msg = seg.val.take msg.length := by
        have htake := congrArg (List.take msg.length) h
        rw [bytesOf_cons, take_append_of_le_length hle, take_left] at htake
        exact htake.symm
      show seg.val.take n = msg
      obtain hend | rfl := hend
      · obtain h0 | ⟨hge, -⟩ := mem_boundaries_cons.1 hend
        · omega
        · rw [take_of_length_le (by omega), hmsg, take_of_length_le (by omega)]
      · exact hmsg.symm

end AsyncIO.Source
