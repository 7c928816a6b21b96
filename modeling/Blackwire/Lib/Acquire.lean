import Mathlib.Tactic

/-!
# Computations that acquire resources and may fail

An error is the list of its messages, the outermost first (`Failure`), as `anyhow` keeps them.  A
computation of type `Acquire ρ α` acquires resources one after the other and ends in a value or in
an error; what it has acquired by then is part of its outcome, also when it fails.
-/

abbrev Failure := List String

namespace Failure

open List

variable {α ε β : Type}

def bail (msg : String) : Except Failure α := .error [msg]

def bailIf (p : Prop) [Decidable p] (msg : String) : Except Failure Unit :=
  if p then bail msg else .ok ()

def okOr (value : Option α) (msg : String) : Except Failure α := value.elim (bail msg) .ok

def lift (result : Except String α) : Except Failure α := result.mapError fun e => [e]

def withContext (result : Except Failure α) (msg : String) : Except Failure α :=
  result.mapError fun e => msg :: e

theorem map_eq_ok {result : Except ε α} {f : α → β} {b : β} :
    result.map f = .ok b ↔ ∃ a, result = .ok a ∧ f a = b := by
  cases result <;> simp [Except.map]

theorem okOr_eq_ok {value : Option α} {msg : String} {a : α} :
    okOr value msg = .ok a ↔ value = some a := by
  cases value with
  | none => simp [okOr, bail]
  | some b => simp [okOr]

theorem mapError_eq_ok {ε' : Type} {result : Except ε α} {f : ε → ε'} {a : α} :
    result.mapError f = .ok a ↔ result = .ok a := by
  cases result <;> simp [Except.mapError]

theorem lift_eq_ok {result : Except String α} {a : α} : lift result = .ok a ↔ result = .ok a :=
  mapError_eq_ok

theorem withContext_eq_ok {result : Except Failure α} {msg : String} {a : α} :
    withContext result msg = .ok a ↔ result = .ok a :=
  mapError_eq_ok

theorem mapM_eq_ok {f : α → Except ε β} {as : List α} {bs : List β} :
    as.mapM f = .ok bs ↔ List.Forall₂ (fun a b => f a = .ok b) as bs := by
  induction as generalizing bs with
  | nil =>
    constructor
    · intro h
      obtain rfl := Except.ok.inj h
      exact .nil
    · rintro ⟨⟩
      rfl
  | cons a as ih =>
    rw [mapM_cons, forall₂_cons_left_iff]
    constructor
    · intro h
      cases ha : f a with
      | error e => simp [ha, bind, Except.bind] at h
      | ok b =>
        cases has : as.mapM f with
        | error e => simp [ha, has, bind, Except.bind] at h
        | ok rest =>
          rw [ha, has] at h
          exact ⟨b, rest, rfl, ih.1 has, (Except.ok.inj h).symm⟩
    · rintro ⟨b, rest, hb, hrest, rfl⟩
      rw [hb, ih.2 hrest]
      rfl

theorem exists_of_mem_mapM {f : α → Except ε β} {as : List α} {bs : List β} {b : β}
    (h : as.mapM f = .ok bs) (hb : b ∈ bs) : ∃ a ∈ as, f a = .ok b := by
  have hall := mapM_eq_ok.1 h
  clear h
  induction hall with
  | nil => cases hb
  | @cons a c as bs hac _ ih =>
    rcases mem_cons.1 hb with rfl | hmem
    · exact ⟨a, mem_cons_self, hac⟩
    · obtain ⟨a', ha', hf⟩ := ih hmem
      exact ⟨a', mem_cons_of_mem a ha', hf⟩

end Failure

structure Acquire (ρ α : Type) where
  held : List ρ
  result : Except Failure α

namespace Acquire

open List

variable {ρ α β : Type} (m : Acquire ρ α)

/-- A sequence: what the first part has acquired is not given back when the second fails. -/
def andThen (f : α → Acquire ρ β) : Acquire ρ β :=
  match m.result with
  | .error e => ⟨m.held, .error e⟩
  | .ok a => ⟨m.held ++ (f a).held, (f a).result⟩

instance : Monad (Acquire ρ) where
  pure a := ⟨[], .ok a⟩
  bind := andThen

def ofExcept (result : Except Failure α) : Acquire ρ α := ⟨[], result⟩

def acquire (r : ρ) : Acquire ρ Unit := ⟨[r], .ok ()⟩

def withContext (m : Acquire ρ α) (msg : String) : Acquire ρ α :=
  ⟨m.held, Failure.withContext m.result msg⟩

variable {m : Acquire ρ α} {f : α → Acquire ρ β}

theorem bind_of_error {e : Failure} (h : m.result = .error e) : m >>= f = ⟨m.held, .error e⟩ := by
  show andThen m f = _
  rw [andThen, h]

theorem bind_of_ok {a : α} (h : m.result = .ok a) :
    m >>= f = ⟨m.held ++ (f a).held, (f a).result⟩ := by
  show andThen m f = _
  rw [andThen, h]

theorem result_bind_eq_ok {b : β} :
    (m >>= f).result = .ok b ↔ ∃ a, m.result = .ok a ∧ (f a).result = .ok b := by
  cases h : m.result with
  | error e => simp [bind_of_error h]
  | ok a => simp [bind_of_ok h]

end Acquire
