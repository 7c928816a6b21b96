import Blackwire.Common.Splice

/-!
# The ring

What holds of `UringBidir::run` in every state that it reaches.

* `Uring.Steady.progress`: a ring on which nothing has failed can always go on;
* `Uring.ring_accounts`: what is counted after any completions.
-/

namespace Blackwire.Splicing

open Loop List

variable {link link' : Link UInt8} {half half' : Half} {op : Op} {res : Res} {links : Links}

/-! ### The books of the ring -/

def given : Op → Res → ℕ
  | .splOut _, .moved n => n
  | _, _ => 0

def Half.unreaped (half : Half) : ℕ :=
  match half.cqe with
  | some (op, res) => given op res
  | none => 0

theorem length_out_spliced (h : spliced link op res = some link') :
    link'.out.length = link.out.length + given op res := by
  cases op with
  | splIn =>
    cases res with
    | moved n =>
      obtain ⟨_, _, rfl⟩ := spliced_in h
      rfl
    | _ =>
      cases h
      rfl
  | splOut len =>
    cases res with
    | moved n =>
      obtain ⟨_, hle, rfl⟩ := spliced_out h
      exact Link.length_out_give hle
    | _ =>
      cases h
      rfl

/-- At most one operation is under way, and the bytes that were delivered are counted when its
completion is looked at. -/
structure Half.Books (base : ℕ) (link : Link UInt8) (half : Half) : Prop where
  single : half.op = none ∨ half.cqe = none
  pending : half.pending = half.op.isSome.toNat + half.cqe.isSome.toNat
  count : link.out.length = base + half.total + half.unreaped

variable {ring ring' : Uring} {links' : Links} {base : Dir → ℕ} {event : UringEvent}

namespace Half.Books

variable {base : ℕ}

theorem start (hcount : link.out.length = base) : Books base link .start :=
  ⟨.inr rfl, rfl, hcount⟩

section

variable (h : Books base link half)
include h

theorem complete (res : Res) :
    Books base (half.complete link res).1 (half.complete link res).2 := by
  rcases half.complete_cases link res with heq | ⟨op, link', hop, hspliced, heq⟩
  · rw [heq]
    exact h
  · have hcqe : half.cqe = none := by
      rcases h.single with hnone | hnone
      · cases hop.symm.trans hnone
      · exact hnone
    have hpending := h.pending
    have hcount := h.count
    rw [heq]
    rw [hop, hcqe] at hpending
    simp only [unreaped, hcqe] at hcount
    refine ⟨.inl rfl, hpending, ?_⟩
    rw [length_out_spliced hspliced, hcount]
    rfl

theorem push (hop : half.op = none) (hcqe : half.cqe = none)
    (op : Op) : Books base link (half.push op) := by
  have hpending := h.pending
  rw [hop] at hpending
  refine ⟨.inr hcqe, ?_, h.count⟩
  show half.pending + 1 = 1 + half.cqe.isSome.toNat
  rw [hpending, hcqe]
  rfl

theorem op_of_cqe {completion : Op × Res} (hcqe : half.cqe = some completion) : half.op = none := by
  rcases h.single with hnone | hnone
  · exact hnone
  · cases hcqe.symm.trans hnone

theorem forget {res : Res}
    (hcqe : half.cqe = some (op, res)) {total : ℕ} (htotal : total = half.total + given op res)
    (inPipe : ℕ) (eof shutdown : Bool) :
    Books base link ⟨inPipe, eof, half.pending - 1, total, shutdown, half.op, none⟩ := by
  have hpending := h.pending
  have hcount := h.count
  rw [hcqe] at hpending
  simp only [unreaped, hcqe] at hcount
  refine ⟨.inr rfl, ?_, ?_⟩
  · rw [hpending, h.op_of_cqe hcqe]
    rfl
  · show link.out.length = base + total + 0
    omega

theorem onIn (hcqe : half.cqe = some (.splIn, res))
    (hin : half.seen.onIn res = some half') : Books base link half' := by
  have hop := h.op_of_cqe hcqe
  match res with
  | .moved 0 | .cancelled =>
    cases hin
    exact h.forget hcqe rfl _ _ _
  | .moved (n + 1) =>
    cases hin
    exact (h.forget hcqe rfl _ _ _).push hop rfl _
  | .again | .failed => cases hin

theorem onOut {len : ℕ} (hcqe : half.cqe = some (.splOut len, res)) :
    Books base link (half.seen.onOut res) := by
  have hop := h.op_of_cqe hcqe
  match res with
  | .again => exact (h.forget hcqe rfl _ _ _).push hop rfl _
  | .moved (n + 1) =>
    unfold Half.onOut
    dsimp only
    split_ifs
    · exact (h.forget hcqe rfl _ _ _).push hop rfl _
    · exact h.forget hcqe rfl _ _ _
    · exact (h.forget hcqe rfl _ _ _).push hop rfl _
  | .moved 0 => exact h.forget hcqe rfl _ _ _
  | .cancelled => exact h.forget hcqe rfl _ _ _
  | .failed => exact h.forget hcqe rfl _ _ _

theorem reap (hreap : half.reap = some half') : Books base link half' := by
  unfold Half.reap at hreap
  split at hreap
  case h_1 =>
    cases hreap
    exact h
  case h_2 res hcqe => exact h.onIn hcqe hreap
  case h_3 len res hcqe =>
    cases hreap
    exact h.onOut hcqe

theorem unreaped_eq_zero (hpending : half.pending = 0) : half.unreaped = 0 := by
  have hbooks := h.pending
  cases hcqe : half.cqe with
  | none => simp only [unreaped, hcqe]
  | some completion =>
    rw [hcqe, hpending] at hbooks
    simp at hbooks

end

end Half.Books

/-! ### The ring when nothing fails -/

def Normal : Op → Res → Prop
  | .splIn, .moved _ => True
  | .splOut _, .moved n => 0 < n
  | .splOut _, .again => True
  | _, _ => False

instance Normal.decidable (op : Op) (res : Res) : Decidable (Normal op res) := by
  unfold Normal
  split <;> infer_instance

def Half.Expects (half : Half) (res : Res) : Prop := ∀ op ∈ half.op, Normal op res

instance Half.Expects.decidable (half : Half) (res : Res) : Decidable (half.Expects res) :=
  inferInstanceAs (Decidable (∀ op ∈ half.op, Normal op res))

theorem Half.eof_reap (h : half.reap = some half') (heof : half.eof = true) : half'.eof = true := by
  unfold reap at h
  split at h
  case h_1 =>
    cases h
    exact heof
  case h_2 res hcqe =>
    match res with
    | .moved 0 | .cancelled =>
      cases h
      rfl
    | .moved (n + 1) =>
      cases h
      exact heof
    | .again | .failed => cases h
  case h_3 len res hcqe =>
    cases h
    match res with
    | .again => exact heof
    | .moved 0 | .cancelled | .failed => rfl
    | .moved (n + 1) =>
      simp only [onOut]
      split_ifs <;> exact heof

def Half.Steady (link : Link UInt8) (half : Half) : Prop :=
  match half.eof, half.op, half.cqe with
  | false, some .splIn, none => link.buf = [] ∧ half.inPipe = 0
  | false, none, some (.splIn, .moved n) =>
    half.inPipe = 0 ∧ link.buf.length = n ∧ (n = 0 → link.rest = [])
  | false, some (.splOut len), none =>
    link.buf ≠ [] ∧ half.inPipe = link.buf.length ∧ len = link.buf.length
  | false, none, some (.splOut _, .moved n) => 0 < n ∧ half.inPipe = link.buf.length + n
  | false, none, some (.splOut _, .again) => link.buf ≠ [] ∧ half.inPipe = link.buf.length
  | true, none, none => link.buf = [] ∧ link.rest = []
  | _, _, _ => False

def Half.rank (half : Half) : ℕ :=
  match half.op, half.cqe with
  | some .splIn, _ => 4
  | some (.splOut _), _ => 2
  | none, some (.splIn, _) => 3
  | none, some (.splOut _, .again) => 3
  | none, some (.splOut _, _) => 9
  | none, none => 0

def Half.left (link : Link UInt8) (half : Half) : ℕ :=
  10 * (link.rest.length + link.buf.length) + half.rank

namespace Half.Steady

theorem start (hbuf : link.buf = []) : Steady link .start := ⟨hbuf, rfl⟩

section

variable (h : Steady link half)
include h

theorem close : Steady link.close half := h

theorem quiet : Steady link { half with shutdown := false } := h

theorem eof (heof : half.eof = true) : link.Delivered := by
  obtain ⟨inPipe, eof, pending, total, shutdown, op, cqe⟩ := half
  subst heof
  cases op <;> cases cqe
  · exact h
  · exact h.elim
  · exact h.elim
  · exact h.elim

theorem of_op (hop : half.op = some op) : half.eof = false ∧ half.cqe = none := by
  obtain ⟨inPipe, eof, pending, total, shutdown, _, cqe⟩ := half
  cases hop
  cases eof <;> cases cqe <;> cases op <;> first | exact ⟨rfl, rfl⟩ | exact h.elim

variable {completion : Op × Res}

theorem of_cqe (hcqe : half.cqe = some completion) : half.eof = false ∧ half.op = none := by
  obtain ⟨inPipe, eof, pending, total, shutdown, op, _⟩ := half
  cases hcqe
  rcases op with _ | _ | _ <;> cases eof <;> first | exact ⟨rfl, rfl⟩ | exact h.elim

theorem complete (hexpects : half.Expects res) :
    Steady (half.complete link res).1 (half.complete link res).2 := by
  rcases half.complete_cases link res with heq | ⟨op, link', hop, hspliced, heq⟩
  · rw [heq]
    exact h
  · rw [heq]
    obtain ⟨heof, hcqe⟩ := h.of_op hop
    have hres := hexpects op hop
    match op, res with
    | .splIn, .moved n =>
      obtain ⟨hle, hrest, rfl⟩ := spliced_in hspliced
      simp only [Steady, heof, hop, hcqe] at h ⊢
      refine ⟨h.2, ?_, ?_⟩
      · rw [Link.length_buf_take hle, h.1, length_nil, Nat.zero_add]
      · rintro rfl
        exact hrest rfl
    | .splOut len, .moved n =>
      obtain ⟨_, hle, rfl⟩ := spliced_out hspliced
      simp only [Steady, heof, hop, hcqe] at h ⊢
      have hlength := Link.length_buf_give n link
      exact ⟨hres, by omega⟩
    | .splOut len, .again =>
      cases hspliced
      simp only [Steady, heof, hop, hcqe] at h ⊢
      exact ⟨h.1, h.2.1⟩

theorem onIn (hcqe : half.cqe = some (.splIn, res)) :
    ∃ half', half.seen.onIn res = some half' ∧ Steady link half' := by
  obtain ⟨heof, hop⟩ := h.of_cqe hcqe
  simp only [Steady, heof, hop, hcqe] at h
  match res with
  | .moved 0 =>
    refine ⟨_, rfl, ?_⟩
    simp only [Steady, Half.seen, hop]
    exact ⟨length_eq_zero_iff.1 h.2.1, h.2.2 rfl⟩
  | .moved (n + 1) =>
    refine ⟨_, rfl, ?_⟩
    simp only [Steady, Half.push, Half.seen, heof]
    have hpos : 0 < link.buf.length := by omega
    exact ⟨length_pos_iff.1 hpos, by omega, by omega⟩

theorem onOut {len : ℕ} (hcqe : half.cqe = some (.splOut len, res)) :
    Steady link (half.seen.onOut res) := by
  obtain ⟨heof, hop⟩ := h.of_cqe hcqe
  simp only [Steady, heof, hop, hcqe] at h
  match res with
  | .moved 0 => omega
  | .moved (n + 1) =>
    have hleft : half.inPipe - min (n + 1) half.inPipe = link.buf.length := by omega
    simp only [Half.onOut, Half.seen, hleft, heof, Bool.false_eq_true, if_false]
    split_ifs with hpos
    · simp only [Steady, Half.push]
      exact ⟨length_pos_iff.1 hpos, trivial, trivial⟩
    · have hzero : link.buf.length = 0 := by omega
      exact ⟨length_eq_zero_iff.1 hzero, hzero⟩
  | .again =>
    simp only [Steady, Half.onOut, Half.push, Half.seen, heof]
    exact ⟨h.1, h.2, h.2⟩

theorem reap : ∃ half', half.reap = some half' ∧ Steady link half' := by
  unfold Half.reap
  split
  case h_1 => exact ⟨half, rfl, h⟩
  case h_2 res hcqe => exact h.onIn hcqe
  case h_3 len res hcqe => exact ⟨_, rfl, h.onOut hcqe⟩

theorem rank_reap (hcqe : half.cqe = some completion)
    (hreap : half.reap = some half') : half'.rank < half.rank := by
  obtain ⟨heof, hop⟩ := h.of_cqe hcqe
  obtain ⟨op, res⟩ := completion
  simp only [Steady, heof, hop, hcqe] at h
  simp only [Half.reap, hcqe] at hreap
  match op, res with
  | .splIn, .moved 0 =>
    cases hreap
    simp only [rank, Half.seen, hop, hcqe]
    omega
  | .splIn, .moved (n + 1) =>
    cases hreap
    simp only [rank, Half.push, hop, hcqe]
    omega
  | .splOut len, .moved 0 => omega
  | .splOut len, .moved (n + 1) =>
    cases hreap
    simp only [Half.onOut, Half.seen, heof, Bool.false_eq_true, if_false]
    split_ifs
    all_goals
      simp only [rank, Half.push, hop, hcqe]
      omega
  | .splOut len, .again =>
    cases hreap
    simp only [rank, Half.onOut, Half.push, hop, hcqe]
    omega

theorem left_complete (hop : half.op = some op) :
    ∃ res, Normal op res ∧
      (half.complete link res).2.left (half.complete link res).1 < half.left link := by
  obtain ⟨heof, hcqe⟩ := h.of_op hop
  simp only [Steady, heof, hop, hcqe] at h
  match op with
  | .splIn =>
    refine ⟨.moved (min link.rest.length pipeCapacity), trivial, ?_⟩
    simp only [Half.complete, hop, spliced_all, left, rank, hcqe, Link.take, length_drop,
      length_append, length_take]
    omega
  | .splOut len =>
    have hpos := length_pos_iff.2 h.1
    have hlen : len ≤ min len link.buf.length := by omega
    have hspliced : spliced link (.splOut len) (.moved len) = some (link.give len) := by
      simp only [spliced, if_pos hlen]
    refine ⟨.moved len, ?_, ?_⟩
    · show 0 < len
      omega
    · simp only [Half.complete, hop, hspliced, left, rank, hcqe, Link.give, length_drop]
      omega

end

end Half.Steady

/-! ### Both directions of the ring -/

def Uring.Books (base : Dir → ℕ) (links : Links) (ring : Uring) : Prop :=
  ∀ d, (ring.half d).Books (base d) (links d)

theorem Uring.closing_apply (links : Links) (ring : Uring) (d : Dir) :
    ring.closing links d = links d ∨ ring.closing links d = (links d).close := by
  unfold closing
  split_ifs
  · exact .inr rfl
  · exact .inl rfl

theorem Uring.out_closing (links : Links) (ring : Uring) (d : Dir) :
    (ring.closing links d).out = (links d).out := by
  rcases ring.closing_apply links d with heq | heq <;> rw [heq]
  rfl

namespace Uring.Books

theorem start (hcount : ∀ d, (links d).out.length = base d) : Books base links .start :=
  fun d => .start (hcount d)

theorem next (h : Books base links ring) (hdoes : Does links ring event (links', .next ring')) :
    Books base links' ring' := by
  cases hdoes with
  | completed d res =>
    exact Dir.forall_update₂ h
      ((h d).complete res)
  | @reaped d half hreap =>
    exact Dir.forall_update h
      ((h d).reap hreap)
  | continued =>
    intro d
    refine ⟨(h d).single, (h d).pending, ?_⟩
    rw [out_closing]
    exact (h d).count
  | early => exact h

theorem done (h : Books base links ring) {counts : ℕ × ℕ}
    (hdoes : Does links ring event (links', .done (some counts)))
    (hexpire : event = .expire → ring.drain = true → ∀ d, (ring.half d).unreaped = 0) :
    (links' .up).out.length = base .up + counts.1 ∧
      (links' .down).out.length = base .down + counts.2 := by
  have hcount (d : Dir) (hzero : (ring.half d).unreaped = 0) :
      (links d).out.length = base d + (ring.half d).total := by
    have := (h d).count
    omega
  cases hdoes with
  | ended hdone =>
    simp only [isDone, Bool.and_eq_true, beq_iff_eq] at hdone
    rw [out_closing, out_closing]
    exact ⟨hcount .up ((h .up).unreaped_eq_zero hdone.1.2),
      hcount .down ((h .down).unreaped_eq_zero hdone.2)⟩
  | expired hdrain =>
    exact ⟨hcount .up (hexpire rfl hdrain .up), hcount .down (hexpire rfl hdrain .down)⟩

end Uring.Books

def Uring.Fair (ring : Uring) : UringEvent → Prop
  | .complete d res => (ring.half d).Expects res
  | .reap _ | .endRound | .expire => True
  | .fault => False

instance Uring.Fair.decidable (ring : Uring) : ∀ event, Decidable (ring.Fair event)
  | .complete d res => inferInstanceAs (Decidable ((ring.half d).Expects res))
  | .reap _ | .endRound | .expire => isTrue trivial
  | .fault => isFalse id

structure Uring.Steady (links : Links) (ring : Uring) : Prop where
  half : ∀ d, (ring.half d).Steady (links d)
  drain : ring.drain = true → ∃ d, (ring.half d).eof = true

def Uring.left (links : Links) (ring : Uring) : ℕ :=
  (ring.half .up).left (links .up) + (ring.half .down).left (links .down)

namespace Uring.Steady

theorem start (hbuf : ∀ d, (links d).buf = []) : Steady links .start :=
  ⟨fun d => .start (hbuf d), nofun⟩

theorem closing (h : Steady links ring) (d : Dir) :
    (ring.half d).Steady (ring.closing links d) := by
  rcases ring.closing_apply links d with heq | heq
  · rw [heq]
    exact h.half d
  · rw [heq]
    exact (h.half d).close

variable {d : Dir}

theorem left_update (hlt : half.left link < (ring.half d).left (links d)) :
    left (Function.update links d link)
      { ring with half := Function.update ring.half d half } < ring.left links := by
  refine Dir.add_lt_add
    (f := fun d' => (Function.update ring.half d half d').left (Function.update links d link d'))
    (g := fun d' => (ring.half d').left (links d')) (d := d) ?_ fun d' hd => ?_
  · simpa only [Function.update_self] using hlt
  · simp only [Function.update_of_ne hd]

section

variable (h : Steady links ring)
include h

theorem update (hhalf : half.Steady link) (heof : (ring.half d).eof = true → half.eof = true) :
    Steady (Function.update links d link)
      { ring with half := Function.update ring.half d half } := by
  refine ⟨Dir.forall_update₂ h.half hhalf,
    fun hdrain => ?_⟩
  obtain ⟨d', heof'⟩ := h.drain hdrain
  have hkept (d' : Dir) :
      (ring.half d').eof = true → (Function.update ring.half d half d').eof = true :=
    Dir.forall_update (P := fun d (half : Half) => (ring.half d).eof = true → half.eof = true)
      (fun _ => id) heof d'
  exact ⟨d', hkept d' heof'⟩

theorem nextRound : Steady (ring.closing links) ring.nextRound := by
  refine ⟨fun d => (h.closing d).quiet, fun hdrain => ?_⟩
  simp only [Uring.nextRound, Bool.or_eq_true] at hdrain
  rcases hdrain with (hdrain | heof) | heof
  · exact h.drain hdrain
  · exact ⟨.up, heof⟩
  · exact ⟨.down, heof⟩

theorem does {result : Links × Step Uring (Option (ℕ × ℕ))}
    (hdoes : Does links ring event result) (hfair : ring.Fair event) : Holds Steady result := by
  cases hdoes with
  | completed d res =>
    refine h.update ((h.half d).complete hfair) fun heof => ?_
    rcases (ring.half d).complete_cases (links d) res with heq | ⟨op, link', _, _, heq⟩
    · rw [heq]
      exact heof
    · rw [heq]
      exact heof
  | @reaped d half hreap =>
    obtain ⟨half', hreap', hsteady⟩ := (h.half d).reap
    cases hreap.symm.trans hreap'
    have hupdate := h.update hsteady fun heof => Half.eof_reap hreap heof
    rwa [Function.update_eq_self] at hupdate
  | @broken d hreap =>
    obtain ⟨half', hreap', _⟩ := (h.half d).reap
    cases hreap.symm.trans hreap'
  | ended hdone =>
    simp only [isDone, Bool.and_eq_true] at hdone
    exact ⟨.up, (h.closing .up).eof hdone.1.1.1⟩
  | continued => exact h.nextRound
  | expired hdrain =>
    obtain ⟨d, heof⟩ := h.drain hdrain
    exact ⟨d, (h.half d).eof heof⟩
  | early => exact h
  | faulted => exact hfair.elim

theorem done {counts : ℕ × ℕ}
    (hdoes : Does links ring event (links', .done (some counts))) (d : Dir)
    (hexpire : event = .expire → ring.drain = true → (links d).Delivered) :
    (links' d).Delivered := by
  cases hdoes with
  | ended hdone =>
    simp only [isDone, Bool.and_eq_true] at hdone
    cases d with
    | up => exact (h.closing .up).eof hdone.1.1.1
    | down => exact (h.closing .down).eof hdone.1.1.2
  | expired hdrain => exact hexpire rfl hdrain

theorem progress_complete (hop : (ring.half d).op = some op) :
    ∃ event, event ≠ .expire ∧ ring.Fair event ∧
      Nearer left (ring.left links) (ring.step links event) := by
  obtain ⟨res, hnormal, hlt⟩ := (h.half d).left_complete hop
  refine ⟨.complete d res, nofun, fun op' hop' => ?_, left_update hlt⟩
  cases hop.symm.trans hop'
  exact hnormal

theorem progress_reap {completion : Op × Res} (hcqe : (ring.half d).cqe = some completion) :
    ∃ event, event ≠ .expire ∧ ring.Fair event ∧
      Nearer left (ring.left links) (ring.step links event) := by
  obtain ⟨half, hreap, _⟩ := (h.half d).reap
  refine ⟨.reap d, nofun, trivial, ?_⟩
  have hlt : half.left (links d) < (ring.half d).left (links d) :=
    Nat.add_lt_add_left ((h.half d).rank_reap hcqe hreap) _
  have hupdate : left (Function.update links d (links d))
      { ring with half := Function.update ring.half d half } < ring.left links := left_update hlt
  rw [Function.update_eq_self] at hupdate
  simp only [step, hreap]
  exact hupdate

theorem progress (hbooks : Books base links ring) :
    ∃ event, event ≠ .expire ∧ ring.Fair event ∧
      Nearer left (ring.left links) (ring.step links event) := by
  by_cases hop : ∃ d op, (ring.half d).op = some op
  · obtain ⟨d, op, hop⟩ := hop
    exact h.progress_complete hop
  by_cases hcqe : ∃ d completion, (ring.half d).cqe = some completion
  · obtain ⟨d, completion, hcqe⟩ := hcqe
    exact h.progress_reap hcqe
  -- nothing is under way: both directions have ended
  have hop' (d : Dir) : (ring.half d).op = none :=
    Option.eq_none_iff_forall_ne_some.2 fun op heq => hop ⟨d, op, heq⟩
  have hcqe' (d : Dir) : (ring.half d).cqe = none :=
    Option.eq_none_iff_forall_ne_some.2 fun completion heq => hcqe ⟨d, completion, heq⟩
  have heof (d : Dir) : (ring.half d).eof = true := by
    have hsteady := h.half d
    by_contra hnot
    simp only [Half.Steady, hop' d, hcqe' d, Bool.eq_false_iff.2 hnot] at hsteady
  have hpending (d : Dir) : (ring.half d).pending = 0 := by
    rw [(hbooks d).pending, hop', hcqe']
    rfl
  have hdone : ring.isDone = true := by simp [isDone, heof, hpending]
  refine ⟨.endRound, nofun, trivial, ?_⟩
  simp [step, endRound, hdone, Nearer]

end

end Uring.Steady

/-! ### The bytes in the pipes -/

def taken : Op → Res → ℕ
  | .splIn, .moved n => n
  | _, _ => 0

/-- The bytes that were spliced into the pipe by a completion that was not looked at. -/
def Half.unseen (half : Half) : ℕ :=
  match half.cqe with
  | some (op, res) => taken op res
  | none => 0

/-- What is in the pipe is counted; a splice into the pipe is made when it is empty; and the other
socket is closed, or is to be, when nothing is under way, the pipe is empty and the source has
ended, or `cut`: the splice from it was cancelled. -/
structure Half.Ledger (cut : Prop) (link : Link UInt8) (half : Half) : Prop where
  pipe : half.inPipe + half.unseen = link.buf.length + half.unreaped
  reading : half.op = some .splIn → half.inPipe = 0
  read : ∀ res, half.cqe = some (.splIn, res) →
    half.inPipe = 0 ∧ (res = .moved 0 ∨ res = .cancelled → link.rest = [] ∨ cut)
  closing : half.shutdown = true ∨ link.closed = true →
    half.op = none ∧ half.cqe = none ∧ half.inPipe = 0 ∧ (link.rest = [] ∨ cut)

namespace Half.Ledger

variable {cut : Prop} {base : ℕ}

section

variable (h : Ledger cut link half) (hbooks : half.Books base link)
include h hbooks

theorem complete (hcut : half.op = some .splIn → res = .cancelled → cut) :
    Ledger cut (half.complete link res).1 (half.complete link res).2 := by
  obtain ⟨hpipe, hreading, hread, hclosing⟩ := h
  have hsingle := hbooks.single
  rcases half.complete_cases link res with heq | ⟨op, link', hop, hspliced, heq⟩
  · rw [heq]
    exact ⟨hpipe, hreading, hread, hclosing⟩
  · rw [heq]
    simp only [hop, reduceCtorEq, false_or] at hsingle
    simp only [unseen, unreaped, hsingle] at hpipe
    cases op with
    | splIn =>
      cases res with
      | moved n =>
        obtain ⟨hle, hrest, rfl⟩ := spliced_in hspliced
        have := Link.length_buf_take hle
        constructor <;> simp_all [unseen, unreaped, taken, given, Link.take]
      | _ =>
        cases hspliced
        constructor <;> simp_all [unseen, unreaped, taken, given]
    | splOut len =>
      cases res with
      | moved n =>
        obtain ⟨-, hle, rfl⟩ := spliced_out hspliced
        have := Link.length_buf_give n link
        have hclosed : (link.give n).closed = link.closed := rfl
        constructor <;> simp_all [unseen, unreaped, taken, given]
      | _ =>
        cases hspliced
        constructor <;> simp_all [unseen, unreaped, taken, given]

theorem reap (hreap : half.reap = some half') : Ledger cut link half' := by
  obtain ⟨hpipe, hreading, hread, hclosing⟩ := h
  have hsingle := hbooks.single
  unfold Half.reap at hreap
  split at hreap
  case h_1 =>
    cases hreap
    exact ⟨hpipe, hreading, hread, hclosing⟩
  case h_2 res hcqe =>
    simp only [unseen, unreaped, hcqe] at hpipe
    rcases res with (_ | n) | _ | _ | _ <;> cases hreap <;> constructor <;>
      simp_all [unseen, unreaped, taken, given, seen, push]
  case h_3 len res hcqe =>
    cases hreap
    simp only [unseen, unreaped, hcqe] at hpipe
    rcases res with (_ | n) | _ | _ | _
    case moved.succ =>
      have hleft : half.inPipe - min (n + 1) half.inPipe = link.buf.length := by
        simp only [given, taken] at hpipe
        omega
      simp only [Half.onOut, Half.seen, hleft]
      split_ifs <;> constructor <;> simp_all [unseen, unreaped, taken, given, push]
    all_goals constructor <;> simp_all [unseen, unreaped, taken, given, onOut, seen, push]

end

end Half.Ledger

/-! ### Runs of the ring -/

namespace Uring

abbrev State := Links × Step Uring (Option (ℕ × ℕ))

def State.start (streams : Dir → Bytes) : State := (fun d => .start (streams d), .next .start)

def State.step (s : State) (event : UringEvent) : State :=
  match s.2 with
  | .next ring => ring.step s.1 event
  | .done _ => s

/-- The splice from the source of `d` was cancelled at some point of the run. -/
def Cancelled (streams : Dir → Bytes) (events : List UringEvent) (d : Dir) : Prop :=
  ∃ before links ring, before ++ [.complete d .cancelled] <+: events ∧
    before.foldl State.step (State.start streams) = (links, .next ring) ∧
      (ring.half d).op = some .splIn

structure Accounts (cut : Dir → Prop) (links : Links) (ring : Uring) : Prop where
  books : Books (fun _ => 0) links ring
  ledger : ∀ d, (ring.half d).Ledger (cut d) (links d)

theorem closed_closing {d : Dir} (h : (ring.closing links d).closed = true) :
    (ring.half d).shutdown = true ∨ (links d).closed = true := by
  unfold closing at h
  split_ifs at h with hshut
  · exact .inl hshut
  · exact .inr h

theorem Accounts.next {cut : Dir → Prop} (h : Accounts cut links ring)
    (hcut : ∀ d, event = .complete d .cancelled → (ring.half d).op = some .splIn → cut d)
    (hdoes : Does links ring event (links', .next ring')) : Accounts cut links' ring' := by
  refine ⟨h.books.next hdoes, ?_⟩
  obtain ⟨hbooks, hledger⟩ := h
  cases hdoes with
  | completed d res =>
    exact Dir.forall_update₂ hledger
      ((hledger d).complete (hbooks d) fun hop hres => hcut d (hres ▸ rfl) hop)
  | @reaped d half hreap =>
    exact Dir.forall_update hledger
      ((hledger d).reap (hbooks d) hreap)
  | continued =>
    intro d
    have hd := hledger d
    have hclosing (hclosed : (ring.closing links d).closed = true) :=
      hd.closing (closed_closing hclosed)
    rcases ring.closing_apply links d with heq | heq <;> rw [heq] at hclosing ⊢ <;>
      exact ⟨hd.pipe, hd.reading, hd.read, fun hshut => hclosing (hshut.resolve_left nofun)⟩
  | early => exact hledger

/-- A closed direction has nothing in its pipe, and its source has ended or was cut. -/
theorem Accounts.of_closed {cut : Dir → Prop} (h : Accounts cut links ring) {d : Dir}
    (hclosed : (ring.half d).shutdown = true ∨ (links d).closed = true) :
    (links d).buf = [] ∧ ((links d).rest = [] ∨ cut d) := by
  obtain ⟨hop, hcqe, hzero, hended⟩ := (h.ledger d).closing hclosed
  have hpipe := (h.ledger d).pipe
  simp only [Half.unseen, Half.unreaped, hcqe, hzero] at hpipe
  exact ⟨length_eq_zero_iff.1 hpipe.symm, hended⟩

/-- What holds of a state of a run, with the directions whose splice was cancelled. -/
def State.Sound (cut : Dir → Prop) (s : State) : Prop :=
  match s with
  | (links, .next ring) => Accounts cut links ring
  | (links, .done _) =>
    ∀ d, (links d).closed = true → (links d).buf = [] ∧ ((links d).rest = [] ∨ cut d)

theorem State.sound_run {streams : Dir → Bytes} {events before : List UringEvent}
    (hbefore : before <+: events) :
    Sound (Cancelled streams events) (before.foldl State.step (.start streams)) := by
  induction before using List.reverseRecOn with
  | nil => exact ⟨.start fun _ => rfl, fun _ => ⟨rfl, fun _ => rfl, nofun, nofun⟩⟩
  | append_singleton before event ih =>
    replace ih := ih ((prefix_append _ _).trans hbefore)
    rw [foldl_append]
    rcases hrun : before.foldl State.step (.start streams) with ⟨links, result | ring⟩ <;>
      rw [hrun] at ih
    · exact ih
    · have hdoes := step_does links ring event
      show Sound _ (ring.step links event)
      rcases hstep : ring.step links event with ⟨links', result | ring'⟩ <;> rw [hstep] at hdoes
      · intro d hclosed
        cases hdoes with
        | ended hdone =>
          have hd := Accounts.of_closed ih (closed_closing hclosed)
          rcases ring.closing_apply links d with heq | heq <;> rw [heq] <;> exact hd
        | _ => exact Accounts.of_closed ih (.inr hclosed)
      · refine Accounts.next ih (fun d hevent hop => ?_) hdoes
        exact ⟨before, links, ring, hevent ▸ hbefore, hrun, hop⟩

/-- **The books of the ring.**  For every sequence of completions, each direction has at most one
operation; its counter of operations is exact, and so is positive when a completion is looked at;
what it has forwarded and what is in its pipe are the bytes that were spliced in; and the other
socket is closed only when the pipe is empty and the source has ended, or the splice from it was
cancelled. -/
theorem ring_accounts (streams : Dir → Bytes) (events : List UringEvent) (d : Dir) :
    let s := events.foldl State.step (.start streams)
    (∀ ring, s.2 = .next ring →
      let half := ring.half d
      (half.op = none ∨ half.cqe = none) ∧
        half.pending = half.op.isSome.toNat + half.cqe.isSome.toNat ∧
        half.total + half.inPipe + half.unseen = (s.1 d).out.length + (s.1 d).buf.length) ∧
      ((s.1 d).closed = true →
        (s.1 d).buf = [] ∧ ((s.1 d).rest = [] ∨ Cancelled streams events d)) := by
  have hsound : State.Sound (Cancelled streams events) (events.foldl State.step (.start streams)) :=
    State.sound_run (prefix_refl events)
  rcases hrun : events.foldl State.step (.start streams) with ⟨links, result | ring⟩ <;>
    rw [hrun] at hsound
  · exact ⟨nofun, hsound d⟩
  · refine ⟨?_, fun hclosed => Accounts.of_closed hsound (.inr hclosed)⟩
    rintro _ ⟨⟩
    obtain ⟨hbooks, hledger⟩ := hsound
    have hcount : (links d).out.length = 0 + (ring.half d).total + (ring.half d).unreaped :=
      (hbooks d).count
    have hpipe := (hledger d).pipe
    refine ⟨(hbooks d).single, (hbooks d).pending, ?_⟩
    show _ + _ + _ = (links d).out.length + (links d).buf.length
    omega

/-- The splice from a source that has not ended is cancelled, and the other socket is closed. -/
theorem cancelled_closes :
    let s := [.complete .up .cancelled, .reap .up, .endRound].foldl State.step
      (.start fun _ => [1])
    (s.1 .up).closed = true ∧ (s.1 .up).rest = [1] := by
  decide +kernel

end Uring

end Blackwire.Splicing
