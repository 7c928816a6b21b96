import Blackwire.Lib.Bytes

/-!
# Asynchronous readers

A reader answers a poll with *pending* or with bytes.  `AsyncRead σ` is the interface: `pollRead`,
and the abstract value `rest` of a reader, the bytes it has yet to deliver.  Its laws say that
polling only ever moves bytes from the front of `rest` to the caller.
-/

namespace AsyncIO

open List Bytes Nat

/-- The answer to one poll of a reader.  In `pending expired` the flag tells whether the deadline
armed around the read, if any, has passed; `ready []` on a non-empty buffer is the end of the
stream. -/
inductive PollRead
  | pending (expired : Bool)
  | ready (bs : Bytes)

/-- A reader that can be polled for at most `n` bytes. -/
class AsyncRead (σ : Type) where
  pollRead : ℕ → σ → PollRead × σ
  rest : σ → Bytes
  stalls : σ → ℕ
  length_ready {n s bs s'} : pollRead n s = (.ready bs, s') → bs.length ≤ n
  rest_ready {n s bs s'} : pollRead n s = (.ready bs, s') → rest s = bs ++ rest s'
  rest_eof {n s s'} : pollRead (n + 1) s = (.ready [], s') → rest s = []
  rest_pending {n s e s'} : pollRead n s = (.pending e, s') → rest s' = rest s
  stalls_ready {n s bs s'} : pollRead n s = (.ready bs, s') → stalls s' ≤ stalls s
  stalls_pending {n s e s'} : pollRead n s = (.pending e, s') → stalls s' < stalls s

open AsyncRead

inductive IoError
  | unexpectedEof
  | elapsed
  deriving DecidableEq

variable {σ : Type} [AsyncRead σ] {n fuel : ℕ} {bs : Bytes} {timed : Bool} {s' s : σ}

/-! ### Filling a buffer -/

def readExactAux (timed : Bool) : ℕ → ℕ → σ → Except IoError Bytes × σ
  | 0, _, s => (.error .unexpectedEof, s)
  | _ + 1, 0, s => (.ok [], s)
  | fuel + 1, n + 1, s =>
    match pollRead (n + 1) s with
    | (.pending e, s') =>
      if timed && e then (.error .elapsed, s') else readExactAux timed fuel (n + 1) s'
    | (.ready [], s') => (.error .unexpectedEof, s')
    | (.ready (b :: bs), s') =>
      match readExactAux timed fuel (n + 1 - (b :: bs).length) s' with
      | (.ok tail, s'') => (.ok (b :: bs ++ tail), s'')
      | (.error e, s'') => (.error e, s'')

/-- Read exactly `n` bytes.  Each poll delivers a byte or uses up one stall, so the fuel is
enough. -/
def readExact (timed : Bool) (n : ℕ) (s : σ) : Except IoError Bytes × σ :=
  readExactAux timed (n + stalls s + 1) n s

theorem readExactAux_length (h : readExactAux timed fuel n s = (.ok bs, s')) : bs.length = n := by
  induction fuel generalizing n s s' bs with
  | zero => simp [readExactAux] at h
  | succ fuel ih =>
    cases n with
    | zero => simp only [readExactAux, Prod.mk.injEq, Except.ok.injEq] at h; simp [← h.1]
    | succ n =>
      unfold readExactAux at h
      split at h
      · split_ifs at h
        · simp at h
        · exact ih h
      · simp at h
      · rename_i b bs₀ s₁ hp
        have hle := length_ready hp
        split at h
        · rename_i tail s₂ ht
          have htail := ih ht
          simp only [Prod.mk.injEq, Except.ok.injEq] at h
          rw [← h.1, length_append]
          omega
        · simp at h

theorem readExact_length (h : readExact timed n s = (.ok bs, s')) :
    bs.length = n := readExactAux_length h

theorem readExactAux_ok {p : Bytes} (hr : rest s = bs ++ p) (hn : bs.length = n)
    (hf : n + stalls s < fuel) :
    ∃ s', readExactAux false fuel n s = (.ok bs, s') ∧ rest s' = p := by
  induction fuel generalizing n s bs with
  | zero => omega
  | succ fuel ih =>
    cases n with
    | zero =>
      rw [length_eq_zero_iff] at hn
      subst hn
      exact ⟨s, rfl, hr⟩
    | succ n =>
      unfold readExactAux
      split
      · rename_i e s₁ hp
        have hlt := stalls_pending hp
        simpa using ih (by rw [rest_pending hp, hr]) hn (by omega)
      · rename_i s₁ hp
        rw [rest_eof hp] at hr
        obtain ⟨rfl, -⟩ := append_eq_nil_iff.1 hr.symm
        simp at hn
      · rename_i b cs s₁ hp
        -- what arrived is a prefix of what is wanted
        have hle := length_ready hp
        have hs := stalls_ready hp
        have hsplit : bs ++ p = b :: cs ++ rest s₁ := by rw [← hr, rest_ready hp]
        obtain ⟨tail, rfl⟩ : b :: cs <+: bs :=
          prefix_of_prefix_length_le ⟨rest s₁, hsplit.symm⟩ ⟨p, rfl⟩ (by omega)
        have hrest : rest s₁ = tail ++ p := by
          rw [append_assoc] at hsplit
          exact (append_cancel_left hsplit).symm
        simp only [length_append, length_cons] at hn hle
        obtain ⟨s', hs', hr'⟩ := ih hrest (n := n + 1 - (b :: cs).length)
          (by simp only [length_cons]; omega) (by simp only [length_cons]; omega)
        exact ⟨s', by rw [hs'], hr'⟩

/-- Without a deadline, `readExact` delivers the next bytes of the stream however they arrive. -/
theorem readExact_ok {p : Bytes} (hr : rest s = bs ++ p) (hn : bs.length = n) :
    ∃ s', readExact false n s = (.ok bs, s') ∧ rest s' = p :=
  readExactAux_ok hr hn (lt_succ_self _)

theorem readExactAux_short (hr : (rest s).length < n) (hf : n + stalls s < fuel) :
    ∃ s', readExactAux false fuel n s = (.error .unexpectedEof, s') := by
  induction fuel generalizing n s with
  | zero => omega
  | succ fuel ih =>
    obtain ⟨n, rfl⟩ : ∃ k, n = k + 1 := ⟨n - 1, by omega⟩
    unfold readExactAux
    split
    · rename_i e s₁ hp
      have hlt := stalls_pending hp
      simpa using ih (by rw [rest_pending hp]; exact hr) (by omega)
    · exact ⟨_, rfl⟩
    · rename_i b bs s₁ hp
      -- what arrived was not enough, and what is left is not enough for the rest
      have hlen := congrArg List.length (rest_ready hp)
      have hle := length_ready hp
      have hs := stalls_ready hp
      rw [length_append] at hlen
      rw [length_cons] at hlen hle
      obtain ⟨s', hs'⟩ := ih (n := n + 1 - (b :: bs).length) (s := s₁)
        (by simp only [length_cons]; omega) (by simp only [length_cons]; omega)
      exact ⟨s', by rw [hs']⟩

theorem readExact_short (hr : (rest s).length < n) :
    ∃ s', readExact false n s = (.error .unexpectedEof, s') :=
  readExactAux_short hr (lt_succ_self _)

/-- What every poll preserves, `readExact` preserves, also when it fails. -/
theorem readExact_preserves {P : σ → Prop} (hpoll : ∀ n s, P s → P (pollRead n s).2)
    (timed : Bool) (n : ℕ) (hs : P s) : P (readExact timed n s).2 := by
  unfold readExact
  generalize n + stalls s + 1 = fuel
  induction fuel generalizing n s with
  | zero => exact hs
  | succ fuel ih =>
    cases n with
    | zero => exact hs
    | succ n =>
      have hp := hpoll (n + 1) s hs
      unfold readExactAux
      split
      · rename_i e s₁ heq
        rw [heq] at hp
        split_ifs
        · exact hp
        · exact ih _ hp
      · rename_i s₁ heq
        rwa [heq] at hp
      · rename_i b bs s₁ heq
        rw [heq] at hp
        have htail := ih (n + 1 - (b :: bs).length) hp
        split <;> rename_i heq' <;> rwa [heq'] at htail

/-! ### One read -/

def readSomeAux (timed : Bool) (n : ℕ) : ℕ → σ → Except IoError Bytes × σ
  | 0, s => (.error .unexpectedEof, s)
  | fuel + 1, s =>
    match pollRead n s with
    | (.pending e, s') => if timed && e then (.error .elapsed, s') else readSomeAux timed n fuel s'
    | (.ready bs, s') => (.ok bs, s')

def readSome (timed : Bool) (n : ℕ) (s : σ) : Except IoError Bytes × σ :=
  readSomeAux timed n (stalls s + 1) s

theorem readSomeAux_ok (hf : stalls s < fuel) :
    ∃ bs s', readSomeAux false n fuel s = (.ok bs, s') ∧ rest s = bs ++ rest s' ∧
      (0 < n → bs = [] → rest s = []) := by
  induction fuel generalizing s with
  | zero => omega
  | succ fuel ih =>
    unfold readSomeAux
    split
    · rename_i e s₁ hp
      have hlt := stalls_pending hp
      have hrest := rest_pending hp
      obtain ⟨bs, s', h, hr, he⟩ := ih (s := s₁) (by omega)
      rw [hrest] at hr he
      exact ⟨bs, s', by simpa using h, hr, he⟩
    · rename_i bs s₁ hp
      refine ⟨bs, s₁, rfl, rest_ready hp, ?_⟩
      rintro hn rfl
      obtain ⟨k, rfl⟩ : ∃ k, n = k + 1 := ⟨n - 1, by omega⟩
      exact rest_eof hp

theorem readSome_ok (n : ℕ) (s : σ) :
    ∃ bs s', readSome false n s = (.ok bs, s') ∧ rest s = bs ++ rest s' ∧
      (0 < n → bs = [] → rest s = []) :=
  readSomeAux_ok (lt_succ_self _)

/-! ### Reading computations -/

/-- Errors that an input/output error converts to. -/
class FromIo (ε : Type) where
  ofIo : IoError → ε

/-- A computation that reads from a `σ`.  It is told whether a deadline is armed around it, and
leaves a reader also when it fails. -/
def ReadM (σ ε α : Type) := Bool → σ → Except ε α × σ

namespace ReadM

variable {ε α β : Type} {m : ReadM σ ε α} {k : α → ReadM σ ε β} {a : α} {b : β} {e : Bytes}

instance : Monad (ReadM σ ε) where
  pure a := fun _ s => (.ok a, s)
  bind m k := fun timed s =>
    match m timed s with
    | (.ok a, s') => k a timed s'
    | (.error e, s') => (.error e, s')

omit [AsyncRead σ] in
theorem bind_ok (h : m timed s = (.ok a, s')) : (m >>= k) timed s = k a timed s' := by
  show (match m timed s with | (.ok a, s') => k a timed s' | (.error e, s') => (.error e, s')) = _
  rw [h]

omit [AsyncRead σ] in
theorem bind_error {e : ε} (h : m timed s = (.error e, s')) :
    (m >>= k) timed s = (.error e, s') := by
  show (match m timed s with | (.ok a, s') => k a timed s' | (.error e, s') => (.error e, s')) = _
  rw [h]

omit [AsyncRead σ] in
theorem of_bind_ok (h : (m >>= k) timed s = (.ok b, s')) :
    ∃ a s₁, m timed s = (.ok a, s₁) ∧ k a timed s₁ = (.ok b, s') := by
  rcases hm : m timed s with ⟨_ | a, s₁⟩
  · rw [bind_error hm] at h
    cases h
  · rw [bind_ok hm] at h
    exact ⟨a, s₁, rfl, h⟩

def fail (e : ε) : ReadM σ ε α := fun _ s => (.error e, s)

def ofExcept (r : Except ε α) : ReadM σ ε α := fun _ s => (r, s)

omit [AsyncRead σ] in
theorem ofExcept_ok_bind (a : α) (k : α → ReadM σ ε β) : (ofExcept (.ok a) >>= k) = k a := rfl

def withDeadline (armed : Bool) (m : ReadM σ ε α) : ReadM σ ε α := fun _ s => m armed s

def readArray [FromIo ε] (n : ℕ) : ReadM σ ε (Octets n) := fun timed s =>
  match h : readExact timed n s with
  | (.ok bs, s') => (.ok ⟨bs, readExact_length h⟩, s')
  | (.error e, s') => (.error (FromIo.ofIo e), s')

def readU8 [FromIo ε] : ReadM σ ε UInt8 := do
  let b ← readArray 1
  pure (b.val.headD 0)

def readU16 [FromIo ε] : ReadM σ ε UInt16 := do
  let b ← readArray 2
  pure (UInt16.ofNat (ofBe b.val))

def readVec [FromIo ε] (n : ℕ) : ReadM σ ε Bytes := do
  let b ← readArray n
  pure b.val

/-! ### Exact consumption -/

def Decodes (m : ReadM σ ε α) (e : Bytes) (a : α) : Prop :=
  ∀ s p, rest s = e ++ p → ∃ s', m false s = (.ok a, s') ∧ rest s' = p

theorem Decodes.pure (a : α) : Decodes (σ := σ) (ε := ε) (Pure.pure a) [] a :=
  fun s _ h => ⟨s, rfl, h⟩

theorem Decodes.bind {d : Bytes} (hm : Decodes m d a) (hk : Decodes (k a) e b) :
    Decodes (m >>= k) (d ++ e) b := by
  intro s p h
  obtain ⟨s₁, hs₁, hr₁⟩ := hm s (e ++ p) (by rw [h, append_assoc])
  obtain ⟨s₂, hs₂, hr₂⟩ := hk s₁ p hr₁
  exact ⟨s₂, (bind_ok hs₁).trans hs₂, hr₂⟩

theorem Decodes.bind_nil (hm : Decodes m e a) (hk : Decodes (k a) [] b) :
    Decodes (m >>= k) e b := by
  simpa using hm.bind hk

theorem Decodes.nil_bind (hm : Decodes m [] a) (hk : Decodes (k a) e b) :
    Decodes (m >>= k) e b := hm.bind hk

theorem Decodes.map (hm : Decodes m e a) (f : α → β) (hb : f a = b) :
    Decodes (m >>= fun x => Pure.pure (f x)) e b := by
  subst hb
  exact hm.bind_nil (Decodes.pure (f a))

theorem Decodes.ofExcept {r : Except ε α} (h : r = .ok a) : Decodes (σ := σ) (ofExcept r) [] a := by
  subst h
  exact Decodes.pure a

variable [FromIo ε]

theorem decodes_readArray (bs : Octets n) : Decodes (σ := σ) (ε := ε) (readArray n) bs.val bs := by
  intro s p h
  obtain ⟨s', hs', hr'⟩ := readExact_ok h bs.property
  refine ⟨s', ?_, hr'⟩
  unfold readArray
  split
  · rename_i bs' s₁ heq
    rw [hs'] at heq
    simp only [Prod.mk.injEq, Except.ok.injEq] at heq
    simp [← heq.1, ← heq.2]
  · rename_i e s₁ heq
    rw [hs'] at heq
    simp at heq

theorem decodes_readVec (h : bs.length = n) : Decodes (σ := σ) (ε := ε) (readVec n) bs bs :=
  (decodes_readArray ⟨bs, h⟩).map (fun b => b.val) rfl

theorem decodes_readU8 (b : UInt8) : Decodes (σ := σ) (ε := ε) readU8 [b] b :=
  (decodes_readArray ⟨[b], rfl⟩).map (fun b => b.val.headD 0) rfl

theorem decodes_readU16_octets (bs : Octets 2) :
    Decodes (σ := σ) (ε := ε) readU16 bs.val (UInt16.ofNat (ofBe bs.val)) :=
  (decodes_readArray bs).map (fun b => UInt16.ofNat (ofBe b.val)) rfl

theorem decodes_readU16 (n : UInt16) : Decodes (σ := σ) (ε := ε) readU16 (toBe 2 n.toNat) n := by
  have h := decodes_readU16_octets (σ := σ) (ε := ε) ⟨toBe 2 n.toNat, length_toBe 2 _⟩
  rwa [ofNat_ofBe_toBe_two] at h

/-! ### Failure -/

omit [FromIo ε] in
def Fails (m : ReadM σ ε α) (bs : Bytes) : Prop :=
  ∀ s, rest s = bs → ∃ e s', m false s = (.error e, s')

omit [FromIo ε] in
theorem Fails.fail (e : ε) (bs : Bytes) : Fails (σ := σ) (ReadM.fail (α := α) e) bs :=
  fun s _ => ⟨e, s, rfl⟩

omit [FromIo ε] in
theorem Fails.bind (hm : Fails m bs) (k : α → ReadM σ ε β) : Fails (m >>= k) bs := by
  intro s hs
  obtain ⟨e, s', hrun⟩ := hm s hs
  exact ⟨e, s', bind_error hrun⟩

omit [FromIo ε] in
theorem Decodes.bind_fails (hm : Decodes m e a) (hk : Fails (k a) bs) :
    Fails (m >>= k) (e ++ bs) := by
  intro s hs
  obtain ⟨s₁, hrun, hrest⟩ := hm s bs hs
  obtain ⟨err, s', herr⟩ := hk s₁ hrest
  exact ⟨err, s', (bind_ok hrun).trans herr⟩

theorem fails_readArray (h : bs.length < n) : Fails (σ := σ) (ε := ε) (readArray n) bs := by
  intro s hs
  obtain ⟨s', hrun⟩ := readExact_short (by rw [hs]; exact h)
  refine ⟨FromIo.ofIo .unexpectedEof, s', ?_⟩
  unfold readArray
  split
  · rename_i bs' s₁ heq
    rw [hrun] at heq
    simp at heq
  · rename_i e s₁ heq
    rw [hrun] at heq
    simp only [Prod.mk.injEq, Except.error.injEq] at heq
    rw [← heq.1, ← heq.2]

theorem fails_readVec (h : bs.length < n) :
    Fails (σ := σ) (ε := ε) (readVec n) bs := (fails_readArray h).bind _

theorem fails_readU8 : Fails (σ := σ) (ε := ε) readU8 [] := (fails_readArray (by simp)).bind _

theorem fails_readU16 (h : bs.length < 2) : Fails (σ := σ) (ε := ε) readU16 bs :=
  (fails_readArray h).bind _

end ReadM

/-! ### What a computation preserves -/

namespace ReadM

variable {σ ε α β : Type} {P : σ → Prop}

/-- Whether it succeeds or fails, `m` leaves a reader with the property `P` when it gets one. -/
def Preserves (P : σ → Prop) (m : ReadM σ ε α) : Prop := ∀ timed s, P s → P (m timed s).2

theorem Preserves.pure (a : α) : Preserves (ε := ε) P (Pure.pure a) := fun _ _ h => h

theorem Preserves.fail (e : ε) : Preserves P (ReadM.fail (α := α) e) := fun _ _ h => h

theorem Preserves.ofExcept (r : Except ε α) : Preserves P (ofExcept r) := fun _ _ h => h

theorem Preserves.bind {m : ReadM σ ε α} {k : α → ReadM σ ε β} (hm : Preserves P m)
    (hk : ∀ a, Preserves P (k a)) : Preserves P (m >>= k) := by
  intro timed s hs
  have h := hm timed s hs
  show P (match m timed s with
    | (.ok a, s') => k a timed s' | (.error e, s') => (.error e, s')).2
  split <;> rename_i heq <;> rw [heq] at h
  · exact hk _ _ _ h
  · exact h

theorem Preserves.withDeadline {m : ReadM σ ε α} (hm : Preserves P m) (armed : Bool) :
    Preserves P (withDeadline armed m) := fun _ s => hm armed s

variable [AsyncRead σ] [FromIo ε]

variable (hpoll : ∀ n s, P s → P (pollRead n s).2)
include hpoll

theorem preserves_readArray (n : ℕ) : Preserves P (readArray (σ := σ) (ε := ε) n) := by
  intro timed s hs
  have h := readExact_preserves hpoll timed n hs
  unfold readArray
  split <;> rename_i heq <;> rwa [heq] at h

theorem preserves_readU8 : Preserves P (readU8 (σ := σ) (ε := ε)) :=
  (preserves_readArray hpoll 1).bind fun _ => .pure _

theorem preserves_readU16 : Preserves P (readU16 (σ := σ) (ε := ε)) :=
  (preserves_readArray hpoll 2).bind fun _ => .pure _

theorem preserves_readVec (n : ℕ) : Preserves P (readVec (σ := σ) (ε := ε) n) :=
  (preserves_readArray hpoll n).bind fun _ => .pure _

end ReadM

/-! ### One of two readers -/

section Sum

variable {τ : Type} [AsyncRead τ]

def pollEither (n : ℕ) : σ ⊕ τ → PollRead × (σ ⊕ τ)
  | .inl s => (pollRead n s).map id .inl
  | .inr t => (pollRead n t).map id .inr

theorem pollEither_cases {s s' : σ ⊕ τ} {answer : PollRead} (h : pollEither n s = (answer, s')) :
    (∃ a a', s = .inl a ∧ s' = .inl a' ∧ pollRead n a = (answer, a')) ∨
      ∃ b b', s = .inr b ∧ s' = .inr b' ∧ pollRead n b = (answer, b') := by
  cases s with
  | inl a =>
    obtain ⟨hanswer, hs'⟩ := Prod.mk.inj h
    exact .inl ⟨a, _, rfl, hs'.symm, Prod.ext hanswer rfl⟩
  | inr b =>
    obtain ⟨hanswer, hs'⟩ := Prod.mk.inj h
    exact .inr ⟨b, _, rfl, hs'.symm, Prod.ext hanswer rfl⟩

instance : AsyncRead (σ ⊕ τ) where
  pollRead := pollEither
  rest := Sum.elim rest rest
  stalls := Sum.elim stalls stalls
  length_ready h := by
    obtain ⟨_, _, -, -, hp⟩ | ⟨_, _, -, -, hp⟩ := pollEither_cases h <;> exact length_ready hp
  rest_ready h := by
    obtain ⟨_, _, rfl, rfl, hp⟩ | ⟨_, _, rfl, rfl, hp⟩ := pollEither_cases h <;> exact rest_ready hp
  rest_eof h := by
    obtain ⟨_, _, rfl, -, hp⟩ | ⟨_, _, rfl, -, hp⟩ := pollEither_cases h <;> exact rest_eof hp
  rest_pending h := by
    obtain ⟨_, _, rfl, rfl, hp⟩ | ⟨_, _, rfl, rfl, hp⟩ := pollEither_cases h <;>
      exact rest_pending hp
  stalls_ready h := by
    obtain ⟨_, _, rfl, rfl, hp⟩ | ⟨_, _, rfl, rfl, hp⟩ := pollEither_cases h <;>
      exact stalls_ready hp
  stalls_pending h := by
    obtain ⟨_, _, rfl, rfl, hp⟩ | ⟨_, _, rfl, rfl, hp⟩ := pollEither_cases h <;>
      exact stalls_pending hp

end Sum

/-! ### A reader given by its answers -/

abbrev Segment := {bs : Bytes // bs ≠ []}

inductive ReadEvent
  | pending (expired : Bool)
  | data (seg : Segment)
  deriving DecidableEq

abbrev Source := List ReadEvent

namespace Source

def contents : Source → Bytes
  | [] => []
  | .pending _ :: s => contents s
  | .data seg :: s => seg.val ++ contents s

def pollRead (n : ℕ) : Source → PollRead × Source
  | [] => (.ready [], [])
  | .pending e :: s => (.pending e, s)
  | .data seg :: s =>
    if h : n < seg.val.length then
      (.ready (seg.val.take n), .data ⟨seg.val.drop n, by simpa using h⟩ :: s)
    else (.ready seg.val, s)

def stalls : Source → ℕ
  | [] => 0
  | .pending _ :: s => stalls s + 1
  | .data _ :: s => stalls s

def ofSegments (segs : List Segment) : Source := segs.map .data

@[simp] theorem contents_ofSegments (segs : List Segment) :
    contents (ofSegments segs) = (segs.map Subtype.val).flatten := by
  induction segs with
  | nil => rfl
  | cons seg segs ih => simpa [ofSegments, contents] using ih

variable {s t : Source} {answer : PollRead}

/-- A poll meets the end of the stream, uses up a stall, or moves bytes out of a segment. -/
theorem pollRead_cases (h : pollRead n s = (answer, t)) :
    (s = [] ∧ t = [] ∧ answer = .ready []) ∨ (∃ e, s = .pending e :: t ∧ answer = .pending e) ∨
      ∃ bs, answer = .ready bs ∧ bs.length ≤ n ∧ (0 < n → bs ≠ []) ∧
        contents s = bs ++ contents t ∧ stalls t = stalls s ∧
        ∀ e, .pending e ∈ t ↔ .pending e ∈ s := by
  rcases s with _ | ⟨e | seg, s⟩
  · cases h
    exact .inl ⟨rfl, rfl, rfl⟩
  · cases h
    exact .inr (.inl ⟨e, rfl, rfl⟩)
  · refine .inr (.inr ?_)
    rw [pollRead] at h
    split_ifs at h with hn
    · cases h
      refine ⟨_, rfl, ?_, fun hpos => ?_, ?_, rfl, by simp⟩
      · rw [length_take]
        omega
      · simp [seg.property, hpos.ne']
      · simp [contents, ← append_assoc]
    · cases h
      exact ⟨_, rfl, not_lt.1 hn, fun _ => seg.property, rfl, rfl, by simp⟩

theorem eq_nil_of_pollRead (hn : 0 < n) (h : pollRead n s = (.ready [], t)) : s = [] := by
  obtain ⟨rfl, -⟩ | ⟨_, -, h⟩ | ⟨_, h, -, hne, -⟩ := pollRead_cases h
  · rfl
  · cases h
  · cases h
    exact absurd rfl (hne hn)

instance : AsyncRead Source where
  pollRead := pollRead
  rest := contents
  stalls := stalls
  length_ready h := by
    obtain ⟨-, -, h⟩ | ⟨_, -, h⟩ | ⟨_, h, hlen, -⟩ := pollRead_cases h <;> cases h
    · exact zero_le _
    · exact hlen
  rest_ready h := by
    obtain ⟨rfl, rfl, h⟩ | ⟨_, -, h⟩ | ⟨_, h, -, -, hcontents, -⟩ := pollRead_cases h <;> cases h
    · rfl
    · exact hcontents
  rest_eof h := by
    rw [eq_nil_of_pollRead (succ_pos _) h]
    rfl
  rest_pending h := by
    obtain ⟨-, -, h⟩ | ⟨_, rfl, -⟩ | ⟨_, h, -⟩ := pollRead_cases h
    · cases h
    · rfl
    · cases h
  stalls_ready h := by
    obtain ⟨rfl, rfl, -⟩ | ⟨_, -, h⟩ | ⟨_, -, -, -, -, hstalls, -⟩ := pollRead_cases h
    · exact le_rfl
    · cases h
    · exact hstalls.le
  stalls_pending h := by
    obtain ⟨-, -, h⟩ | ⟨_, rfl, -⟩ | ⟨_, h, -⟩ := pollRead_cases h
    · cases h
    · exact lt_succ_self _
    · cases h

@[simp] theorem rest_eq (s : Source) : rest s = contents s := rfl

theorem exists_rest (bs : Bytes) : ∃ s : Source, rest s = bs := by
  by_cases h : bs = []
  · exact ⟨[], h.symm⟩
  · refine ⟨ofSegments [⟨bs, h⟩], ?_⟩
    exact append_nil bs

theorem pollRead_short {seg : Segment} (hlen : ¬n < seg.val.length) :
    AsyncRead.pollRead n (.data seg :: s : Source) = (.ready seg.val, s) := by
  show pollRead _ _ = _
  rw [pollRead, dif_neg hlen]

theorem pollRead_ofSegments_cons {seg : Segment} (h : seg.val.length ≤ n) (segs : List Segment) :
    AsyncRead.pollRead n (ofSegments (seg :: segs)) = (.ready seg.val, ofSegments segs) :=
  pollRead_short (not_lt.2 h)

/-- No deadline passes. -/
def Patient (s : Source) : Prop := .pending true ∉ s

theorem Patient.pollRead_ne (h : Patient s) (n : ℕ) :
    (AsyncRead.pollRead n s).1 ≠ .pending true := by
  intro he
  obtain ⟨-, -, h'⟩ | ⟨e, hs, h'⟩ | ⟨_, h', -⟩ := pollRead_cases (Prod.ext he rfl) <;> cases h'
  exact h (hs ▸ mem_cons_self)

theorem Patient.pollRead (h : Patient s) (n : ℕ) : Patient (AsyncRead.pollRead n s).2 := by
  obtain ⟨-, ht, -⟩ | ⟨_, hs, -⟩ | ⟨_, -, -, -, -, -, hmem⟩ :=
    pollRead_cases (Prod.ext rfl rfl)
  · exact fun hmem => not_mem_nil (ht ▸ hmem)
  · exact fun hmem => h (hs ▸ mem_cons_of_mem _ hmem)
  · exact fun ht => h ((hmem true).1 ht)

/-- The next bytes arrive before their deadline. -/
def Prompt : ℕ → Source → Prop
  | 0, _ => True
  | _ + 1, [] => False
  | n + 1, .pending e :: s => e = false ∧ Prompt (n + 1) s
  | n + 1, .data seg :: s => Prompt (n + 1 - seg.val.length) s

instance Prompt.decidable : (n : ℕ) → (s : Source) → Decidable (Prompt n s)
  | 0, s => .isTrue (by rw [Prompt]; trivial)
  | _ + 1, [] => .isFalse id
  | n + 1, .pending e :: s =>
    have := Prompt.decidable (n + 1) s
    inferInstanceAs (Decidable (e = false ∧ Prompt (n + 1) s))
  | n + 1, .data seg :: s => Prompt.decidable (n + 1 - seg.val.length) s

/-- The source behind its next bytes. -/
def behind : ℕ → Source → Source
  | 0, s => s
  | _ + 1, [] => []
  | n + 1, .pending _ :: s => behind (n + 1) s
  | n + 1, .data seg :: s =>
    if h : n + 1 < seg.val.length then .data ⟨seg.val.drop (n + 1), by simpa using h⟩ :: s
    else behind (n + 1 - seg.val.length) s

theorem contents_behind (n : ℕ) (s : Source) : contents (behind n s) = (contents s).drop n := by
  induction s generalizing n with
  | nil => cases n <;> simp [behind, contents]
  | cons event s ih =>
    cases n with
    | zero => rfl
    | succ n =>
      cases event with
      | pending e => exact ih (n + 1)
      | data seg =>
        unfold behind
        split_ifs with hlen
        · rw [contents, contents, drop_append_of_le_length (by omega)]
        · have hseg : seg.val.drop (n + 1) = [] := drop_eq_nil_of_le (by omega)
          rw [ih, contents, drop_append, hseg, nil_append]

theorem Patient.prompt (h : Patient s) (hn : n ≤ (contents s).length) : Prompt n s := by
  induction s generalizing n with
  | nil =>
    obtain rfl : n = 0 := le_zero.1 hn
    trivial
  | cons event s ih =>
    have hs : Patient s := fun hmem => h (mem_cons_of_mem _ hmem)
    cases n with
    | zero => trivial
    | succ n =>
      cases event with
      | pending e =>
        refine ⟨?_, ih hs hn⟩
        cases e with
        | false => rfl
        | true => exact absurd mem_cons_self h
      | data seg =>
        refine ih hs ?_
        rw [contents, length_append] at hn
        omega

theorem Patient.behind (h : Patient s) (n : ℕ) : Patient (behind n s) := by
  induction s generalizing n with
  | nil => cases n <;> exact h
  | cons event s ih =>
    have hs : Patient s := fun hmem => h (mem_cons_of_mem _ hmem)
    cases n with
    | zero => exact h
    | succ n =>
      cases event with
      | pending e => exact ih hs (n + 1)
      | data seg =>
        unfold Source.behind
        split_ifs with hlen
        · exact fun hmem => h (by simpa using hmem)
        · exact ih hs _

theorem pollRead_long {b : UInt8} {hne : b :: bs ≠ []} (hlen : n + 1 < (b :: bs).length) :
    AsyncRead.pollRead (n + 1) (.data ⟨b :: bs, hne⟩ :: s : Source) =
      (.ready (b :: bs.take n), behind (n + 1) (.data ⟨b :: bs, hne⟩ :: s)) := by
  show pollRead _ _ = _
  rw [pollRead, dif_pos hlen, behind, dif_pos hlen]
  rfl

theorem readExactAux_prompt (hf : n + stalls s < fuel) (h : Prompt n s) :
    readExactAux true fuel n s = (.ok ((contents s).take n), behind n s) := by
  induction fuel generalizing n s with
  | zero => omega
  | succ fuel ih =>
    cases n with
    | zero => simp [readExactAux, behind]
    | succ n =>
      rcases s with _ | ⟨e | ⟨_ | ⟨b, bs⟩, hne⟩, s⟩
      · exact h.elim
      · obtain ⟨rfl, h⟩ := h
        exact ih (by simp only [stalls] at hf; omega) h
      · exact absurd rfl hne
      · simp only [stalls] at hf
        by_cases hlen : n + 1 < (b :: bs).length
        · obtain ⟨fuel, rfl⟩ : ∃ k, fuel = k + 1 := ⟨fuel - 1, by omega⟩
          have hn : n + 1 - (b :: bs.take n).length = 0 := by
            simp only [length_cons, length_take] at hlen ⊢
            omega
          rw [readExactAux, pollRead_long hlen]
          dsimp only
          rw [hn, readExactAux, contents, take_append_of_le_length hlen.le]
          simp
        · have hpos : 0 < (b :: bs).length := succ_pos _
          have hbehind : Prompt (n + 1 - (b :: bs).length) s := h
          rw [readExactAux, pollRead_short hlen]
          dsimp only
          rw [ih (by omega) hbehind, behind, dif_neg hlen, contents, take_append,
            take_of_length_le (not_lt.1 hlen)]

/-- **Reading before a deadline.**  Bytes that arrive in time are read. -/
theorem readExact_prompt (h : Prompt n s) :
    readExact true n s = (.ok ((contents s).take n), behind n s) :=
  readExactAux_prompt (lt_succ_self _) h

end Source

end AsyncIO
