import Blackwire.Lib.AsyncRead

/-!
# Buffered readers

A reader behind a buffer, which is filled by one read when it is empty, and the loop that reads up
to a delimiter.  `contents` is what a buffered reader has yet to give: its buffer, and then the rest
of the reader behind it.
-/

namespace AsyncIO

open AsyncRead List

structure BufReader (σ : Type) where
  buffer : Bytes
  inner : σ

namespace BufReader

variable {σ : Type} [AsyncRead σ] {delim : UInt8}

def capacity : ℕ := 8192

def new (inner : σ) : BufReader σ := ⟨[], inner⟩

def contents (r : BufReader σ) : Bytes := r.buffer ++ rest r.inner

def fillBuf (timed : Bool) (r : BufReader σ) : Except IoError Unit × BufReader σ :=
  if r.buffer.isEmpty then
    match readSome timed capacity r.inner with
    | (.ok bs, inner) => (.ok (), ⟨bs, inner⟩)
    | (.error e, inner) => (.error e, ⟨[], inner⟩)
  else (.ok (), r)

def consume (n : ℕ) (r : BufReader σ) : BufReader σ := { r with buffer := r.buffer.drop n }

def through (delim : UInt8) (bs : Bytes) : Bytes := bs.take (bs.idxOf delim + 1)

/-- Collect what is buffered until the delimiter has been seen or the stream ends, with fuel for the
rounds. -/
def readUntilAux (delim : UInt8) (timed : Bool) :
    ℕ → Bytes → BufReader σ → Except IoError Bytes × BufReader σ
  | 0, _, r => (.error .unexpectedEof, r)
  | fuel + 1, read, r =>
    match fillBuf timed r with
    | (.error e, r) => (.error e, r)
    | (.ok (), r) =>
      let used := through delim r.buffer
      if delim ∈ r.buffer ∨ used = [] then (.ok (read ++ used), r.consume used.length)
      else readUntilAux delim timed fuel (read ++ used) (r.consume used.length)

def readUntil (delim : UInt8) (timed : Bool) (r : BufReader σ) :
    Except IoError Bytes × BufReader σ :=
  readUntilAux delim timed (r.contents.length + 1) [] r

/-! ### What is taken -/

theorem fillBuf_ok (r : BufReader σ) :
    ∃ r', fillBuf false r = (.ok (), r') ∧ r'.contents = r.contents ∧
      (r'.buffer = [] → r.contents = []) := by
  unfold fillBuf
  by_cases hempty : r.buffer = []
  · obtain ⟨bs, inner, hread, hrest, heof⟩ := readSome_ok capacity r.inner
    have hcontents : r.contents = rest r.inner := by rw [contents, hempty, nil_append]
    rw [if_pos (List.isEmpty_iff.2 hempty), hread, hcontents]
    exact ⟨_, rfl, hrest.symm, heof (by decide)⟩
  · rw [if_neg fun h => hempty (List.isEmpty_iff.1 h)]
    exact ⟨r, rfl, rfl, fun h => absurd h hempty⟩

theorem through_append_drop (delim : UInt8) (bs : Bytes) :
    through delim bs ++ bs.drop (through delim bs).length = bs :=
  prefix_iff_eq_append.1 (List.take_prefix _ bs)

theorem through_of_notMem {bs : Bytes} (h : delim ∉ bs) : through delim bs = bs := by
  rw [through, idxOf_eq_length h]
  exact take_of_length_le (by omega)

theorem through_append_of_notMem {as : Bytes} (h : delim ∉ as) (bs : Bytes) :
    through delim (as ++ bs) = as ++ through delim bs := by
  rw [through, idxOf_append_of_notMem h, Nat.add_assoc, take_length_add_append]
  rfl

theorem through_append_of_mem {as : Bytes} (h : delim ∈ as) (bs : Bytes) :
    through delim (as ++ bs) = through delim as := by
  rw [through, idxOf_append_of_mem h]
  exact take_append_of_le_length (idxOf_lt_length_of_mem h)

theorem readUntilAux_ok {fuel : ℕ} {r : BufReader σ} (hf : r.contents.length < fuel)
    (read : Bytes) :
    ∃ r', readUntilAux delim false fuel read r = (.ok (read ++ through delim r.contents), r') ∧
      through delim r.contents ++ r'.contents = r.contents := by
  induction fuel generalizing r read with
  | zero => omega
  | succ fuel ih =>
    obtain ⟨r₁, hfill, hcontents, hend⟩ := fillBuf_ok r
    rw [← hcontents] at hf hend ⊢
    unfold readUntilAux
    rw [hfill]
    dsimp only
    by_cases hmem : delim ∈ r₁.buffer
    · have hthrough : through delim r₁.contents = through delim r₁.buffer :=
        through_append_of_mem hmem _
      rw [if_pos (Or.inl hmem), hthrough]
      refine ⟨_, rfl, ?_⟩
      rw [consume, contents, ← append_assoc, through_append_drop]
      rfl
    · have hthrough : through delim r₁.contents = r₁.buffer ++ through delim (rest r₁.inner) :=
        through_append_of_notMem hmem _
      rw [through_of_notMem hmem]
      by_cases hempty : r₁.buffer = []
      · -- nothing is left
        have hinner : rest r₁.inner = [] := (append_eq_nil_iff.1 (hend hempty)).2
        rw [hend hempty, hempty]
        refine ⟨_, rfl, ?_⟩
        rw [consume, contents, hempty, hinner]
        rfl
      · rw [if_neg (by simp [hmem, hempty])]
        have hrest : (r₁.consume r₁.buffer.length).contents = rest r₁.inner := by
          rw [consume, contents, drop_length, nil_append]
        have hlt : (rest r₁.inner).length < fuel := by
          have hpos := length_pos_of_ne_nil hempty
          rw [contents, length_append] at hf
          omega
        obtain ⟨r', hread, hleft⟩ := ih (hrest ▸ hlt) (read ++ r₁.buffer)
        rw [hrest] at hread hleft
        refine ⟨r', ?_, ?_⟩
        · rw [hread, hthrough, append_assoc]
        · rw [hthrough, append_assoc, hleft]
          rfl

/-- **Reading up to a delimiter.**  Without a deadline, the bytes up to and with the first delimiter
are taken, or all there are, however they arrive; the others are left. -/
theorem readUntil_ok (delim : UInt8) (r : BufReader σ) :
    ∃ r', readUntil delim false r = (.ok (through delim r.contents), r') ∧
      through delim r.contents ++ r'.contents = r.contents :=
  readUntilAux_ok (Nat.lt_succ_self _) []

end BufReader

end AsyncIO
