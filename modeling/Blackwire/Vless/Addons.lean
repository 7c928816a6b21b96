import Blackwire.Common.Address
import Blackwire.Lib.Loop

/-!
# The addons field of a VLESS request

`parse_flow_from_addons` and `read_varint` of `vless/codec.rs`, on a 64-bit target in a release
build: `usize` additions wrap modulo `2 ^ 64`, an index or a slice outside the string panics.

The parser walks the fields of a protobuf message with a cursor.
-/

namespace Blackwire.Vless

open Loop

/-! ### Machine arithmetic -/

def usizeAdd (a b : ℕ) : ℕ := (a + b) % 2 ^ 64

def saturatingAdd (a b : ℕ) : ℕ := min (a + b) (2 ^ 64 - 1)

variable (data : Bytes) (cursor : ℕ)

def slice (a b : ℕ) : Option Bytes :=
  if a ≤ b ∧ b ≤ data.length then some ((data.drop a).take (b - a)) else none

theorem usizeAdd_of_lt {a b : ℕ} (h : a + b < 2 ^ 64) : usizeAdd a b = a + b :=
  Nat.mod_eq_of_lt h

theorem saturatingAdd_of_lt {a b : ℕ} (h : a + b < 2 ^ 64) : saturatingAdd a b = a + b := by
  unfold saturatingAdd
  omega

/-! ### The parser -/

/-- What `read_varint` does: an index out of bounds, no value, or a value, with the cursor it
leaves. -/
inductive Varint
  | panic
  | none (cursor : ℕ)
  | some (value : UInt64) (cursor : ℕ)

/-- The loop of `read_varint`.  `shift` reaches `64` in the tenth iteration, so ten rounds of fuel
are never used up. -/
def readVarintLoop : ℕ → ℕ → UInt64 → ℕ → Varint
  | 0, cursor, _, _ => .none cursor
  | fuel + 1, cursor, result, shift =>
    if cursor < data.length then
      match data[cursor]? with
      | .none => .panic
      | .some byte =>
        let cursor := usizeAdd cursor 1
        let result := result ||| ((byte &&& 0x7f).toUInt64 <<< UInt64.ofNat shift)
        if byte &&& 0x80 = 0 then .some result cursor
        else
          let shift := shift + 7
          if shift ≥ 64 then .none cursor else readVarintLoop fuel cursor result shift
    else .none cursor

def readVarint : Varint := readVarintLoop data 10 cursor 0 0

/-- One iteration of `parse_flow_from_addons`.  Leaving the loop with an error means a panic. -/
def parseFlowStep : Step ℕ (Except Unit String) :=
  if cursor < data.length then
    match readVarint data cursor with
    | .panic => .done (.error ())
    | .none _ => .done (.ok "")
    | .some tag cursor =>
      let fieldNumber := (tag >>> 3).toUInt32
      let wireType := (tag &&& 0x07).toUInt8
      if wireType = 2 then
        match readVarint data cursor with
        | .panic => .done (.error ())
        | .none _ => .done (.ok "")
        | .some len cursor =>
          let len := len.toNat
          if usizeAdd cursor len > data.length then .done (.ok "")
          else if fieldNumber = 1 then
            match slice data cursor (usizeAdd cursor len) with
            | none => .done (.error ())
            | some content =>
              match Bytes.fromUtf8 content with
              | some s => .done (.ok s)
              | none => .next (usizeAdd cursor len)
          else .next (usizeAdd cursor len)
      else if wireType = 0 then
        match readVarint data cursor with
        | .panic => .done (.error ())
        | .none _ => .done (.ok "")
        | .some _ cursor => .next cursor
      else if wireType = 1 then .next (saturatingAdd cursor 8)
      else if wireType = 5 then .next (saturatingAdd cursor 4)
      else .done (.ok "")
  else .done (.ok "")

/-- `parse_flow_from_addons`.  The cursor takes fewer values than `data.len()` inside the loop, so
a loop that has gone round more often goes round for ever (`parseFlow_hang`). -/
def parseFlowFromAddons : Except Stop String :=
  match run (parseFlowStep data) (data.length + 1) 0 with
  | .done (.ok flow) => .ok flow
  | .done (.error ()) => .error .panic
  | .next _ => .error .hang

/-! ### What an iteration does -/

/-- The start and the declared length of the content, when the iteration that starts at `cursor`
meets a length-delimited field. -/
def lengthField : Option (ℕ × ℕ) :=
  if cursor < data.length then
    match readVarint data cursor with
    | .some tag cursor =>
      if (tag &&& 0x07).toUInt8 = 2 then
        match readVarint data cursor with
        | .some len cursor => some (cursor, len.toNat)
        | _ => none
      else none
    | _ => none
  else none

variable {data : Bytes}

theorem readVarintLoop_cases (hd : data.length < 2 ^ 64) (fuel cursor : ℕ) (result : UInt64)
    (shift : ℕ) :
    (∃ c, readVarintLoop data fuel cursor result shift = .none c) ∨
    (∃ v c, readVarintLoop data fuel cursor result shift = .some v c ∧
      cursor < c ∧ c ≤ data.length) := by
  induction fuel generalizing cursor result shift with
  | zero => exact Or.inl ⟨cursor, rfl⟩
  | succ fuel ih =>
    unfold readVarintLoop
    split_ifs with hlt
    · have hadd : usizeAdd cursor 1 = cursor + 1 := usizeAdd_of_lt (by omega)
      rw [List.getElem?_eq_getElem hlt]
      simp only [hadd]
      split_ifs with hbyte hshift
      · exact Or.inr ⟨_, _, rfl, by omega, by omega⟩
      · exact Or.inl ⟨_, rfl⟩
      · rcases ih (cursor + 1) _ (shift + 7) with ⟨c, hc⟩ | ⟨v, c, hc, h₁, h₂⟩
        · exact Or.inl ⟨c, hc⟩
        · exact Or.inr ⟨v, c, hc, by omega, h₂⟩
    · exact Or.inl ⟨cursor, rfl⟩

theorem readVarint_cases (hd : data.length < 2 ^ 64) (cursor : ℕ) :
    (∃ c, readVarint data cursor = .none c) ∨
    (∃ v c, readVarint data cursor = .some v c ∧ cursor < c ∧ c ≤ data.length) :=
  readVarintLoop_cases hd 10 cursor 0 0

/-- Where the next field starts, when the field at `cursor` is skipped; lengths are natural
numbers. -/
def nextField (data : Bytes) (cursor : ℕ) : Option ℕ :=
  if cursor < data.length then
    match readVarint data cursor with
    | .some tag cursor =>
      let fieldNumber := (tag >>> 3).toUInt32
      let wireType := (tag &&& 0x07).toUInt8
      if wireType = 2 then
        match readVarint data cursor with
        | .some len cursor =>
          if cursor + len.toNat > data.length then none
          else if fieldNumber = 1 ∧
              (Bytes.fromUtf8 ((data.drop cursor).take len.toNat)).isSome then none
          else some (cursor + len.toNat)
        | _ => none
      else if wireType = 0 then
        match readVarint data cursor with
        | .some _ cursor => some cursor
        | _ => none
      else if wireType = 1 then some (cursor + 8)
      else if wireType = 5 then some (cursor + 4)
      else none
    | _ => none
  else none

def FitsAt (data : Bytes) (cursor : ℕ) : Prop :=
  ∀ start len, lengthField data cursor = some (start, len) → start + len < 2 ^ 64

theorem parseFlowStep_cases (hd : data.length ≤ 255) {cursor : ℕ} (hfit : FitsAt data cursor) :
    (∃ flow, parseFlowStep data cursor = .done (.ok flow) ∧ nextField data cursor = none) ∨
    (∃ c, parseFlowStep data cursor = .next c ∧ nextField data cursor = some c ∧ cursor < c) := by
  have hd' : data.length < 2 ^ 64 := by omega
  unfold FitsAt lengthField at hfit
  unfold parseFlowStep nextField
  by_cases hlt : cursor < data.length
  swap
  · simp [hlt]
  simp only [hlt, if_true] at hfit ⊢
  rcases readVarint_cases hd' cursor with ⟨c, hc⟩ | ⟨tag, c₁, hc, hc₁, hle₁⟩
  · simp [hc]
  simp only [hc] at hfit ⊢
  generalize (tag &&& 0x07).toUInt8 = wireType at hfit ⊢
  by_cases h2 : wireType = 2
  · -- a length-delimited field
    subst h2
    rcases readVarint_cases hd' c₁ with ⟨c, hc⟩ | ⟨len, c₂, hc, hc₂, hle₂⟩
    · simp [hc]
    simp only [hc] at hfit ⊢
    rw [usizeAdd_of_lt (hfit c₂ len.toNat rfl)]
    by_cases hin : c₂ + len.toNat > data.length
    · simp [hin]
    have hslice : slice data c₂ (c₂ + len.toNat) = some ((data.drop c₂).take len.toNat) := by
      rw [slice, if_pos (by omega), Nat.add_sub_cancel_left]
    simp only [hin, if_false, hslice]
    by_cases h1 : (tag >>> 3).toUInt32 = 1
    · cases hu : Bytes.fromUtf8 ((data.drop c₂).take len.toNat) with
      | some flow => simp [h1]
      | none => simp [h1]; omega
    · simp [h1]; omega
  simp only [h2, if_false]
  by_cases h0 : wireType = 0
  · simp only [h0, if_true]
    rcases readVarint_cases hd' c₁ with ⟨c, hc⟩ | ⟨v, c₂, hc, hc₂, -⟩
    · simp [hc]
    · simp [hc]; omega
  simp only [h0, if_false]
  have hsat : ∀ k ≤ 8, saturatingAdd c₁ k = c₁ + k := fun k hk => saturatingAdd_of_lt (by omega)
  by_cases h1 : wireType = 1
  · simp [h1, hsat]; omega
  by_cases h5 : wireType = 5
  · simp [h5, hsat]; omega
  · simp [h1, h5]

/-! ### Safety -/

/-- The positions at which fields start when the message is read with unbounded arithmetic. -/
inductive Walk (data : Bytes) : ℕ → Prop
  | start : Walk data 0
  | field {c c' : ℕ} : Walk data c → nextField data c = some c' → Walk data c'

/-- No field on the walk ends at `2 ^ 64` or later. -/
def LengthsFit (data : Bytes) : Prop := ∀ c, Walk data c → FitsAt data c

/-- The parser ends, stays in bounds, does not overflow, and moves on. -/
structure Safe (data : Bytes) : Prop where
  terminates : ∃ fuel flow, run (parseFlowStep data) fuel 0 = .done (.ok flow)
  in_bounds : ∀ c, Visits (parseFlowStep data) 0 c → parseFlowStep data c ≠ .done (.error ())
  no_overflow : ∀ c, Visits (parseFlowStep data) 0 c → FitsAt data c
  advances : ∀ c c', Visits (parseFlowStep data) 0 c → parseFlowStep data c = .next c' → c < c'

theorem visits_of_walk (hd : data.length ≤ 255) (hs : Safe data) {c : ℕ} (hw : Walk data c) :
    Visits (parseFlowStep data) 0 c := by
  induction hw with
  | start => exact .start
  | field _ hn ih =>
    rcases parseFlowStep_cases hd (hs.no_overflow _ ih) with ⟨_, -, hnone⟩ | ⟨c₁, hstep, hsome, -⟩
    · rw [hnone] at hn; cases hn
    · rw [hsome] at hn; cases hn
      exact .next ih hstep

theorem walk_of_visits (hd : data.length ≤ 255) (hf : LengthsFit data) {c : ℕ}
    (hv : Visits (parseFlowStep data) 0 c) : Walk data c := by
  induction hv with
  | start => exact .start
  | next _ hstep ih =>
    rcases parseFlowStep_cases hd (hf _ ih) with ⟨_, hdone, -⟩ | ⟨c₁, hnext, hsome, -⟩
    · rw [hdone] at hstep; cases hstep
    · rw [hnext] at hstep; cases hstep
      exact .field ih hsome

/-- **The parser is safe exactly on the messages whose declared lengths do not wrap the cursor.** -/
theorem safe_iff_lengthsFit (data : Bytes) (hd : data.length ≤ 255) :
    Safe data ↔ LengthsFit data := by
  constructor
  · intro hs c hw
    exact hs.no_overflow c (visits_of_walk hd hs hw)
  · intro hf
    have hcases := fun c hv => parseFlowStep_cases hd (hf c (walk_of_visits hd hf hv))
    have hadv : ∀ c c', Visits (parseFlowStep data) 0 c → parseFlowStep data c = .next c' →
        c < c' := by
      intro c c' hv hstep
      rcases hcases c hv with ⟨_, hdone, -⟩ | ⟨c₁, hnext, -, hlt⟩
      · rw [hdone] at hstep; cases hstep
      · rw [hnext] at hstep; cases hstep
        exact hlt
    have hin : ∀ c, Visits (parseFlowStep data) 0 c → parseFlowStep data c ≠ .done (.error ()) := by
      intro c hv hstep
      rcases hcases c hv with ⟨_, hdone, -⟩ | ⟨c₁, hnext, -⟩
      · rw [hdone] at hstep; cases hstep
      · rw [hnext] at hstep; cases hstep
    refine ⟨?_, hin, fun c hv => hf c (walk_of_visits hd hf hv), hadv⟩
    -- inside the loop the cursor is below the length of the string
    obtain ⟨fuel, r, hr⟩ : ∃ fuel r, run (parseFlowStep data) fuel 0 = .done r :=
      exists_run_eq_done (fun c => data.length - c) (fun c c' hv hstep => by
        have hlt := hadv c c' hv hstep
        have hc : c < data.length := by
          by_contra hc
          simp [parseFlowStep, hc] at hstep
        omega)
    refine ⟨fuel, ?_⟩
    obtain ⟨c, hv, hdone⟩ := exists_visits_of_run_eq_done hr
    cases r with
    | ok flow => exact ⟨flow, hr⟩
    | error u => exact absurd hdone (hin c hv)

def loopingAddons : Bytes := [0x12, 0xf5, 0xff, 0xff, 0xff, 0xff, 0xff, 0xff, 0xff, 0xff, 0x01]

theorem safe_iff_lengthsFit_flow :
    ([0x0a, 0x01, 0x78] : Bytes).length ≤ 255 ∧
      (Safe [0x0a, 0x01, 0x78] ↔ LengthsFit [0x0a, 0x01, 0x78]) :=
  ⟨by decide, safe_iff_lengthsFit _ (by decide)⟩

/-- Eleven bytes send the parser back to its start after every iteration. -/
theorem loopingAddons_unsafe :
    loopingAddons.length ≤ 255 ∧ ¬ Safe loopingAddons ∧
      ∀ fuel, run (parseFlowStep loopingAddons) fuel 0 = .next 0 := by
  have hstep : parseFlowStep loopingAddons 0 = .next 0 := by decide
  refine ⟨by decide, fun hs => ?_, fun fuel => ?_⟩
  · exact absurd (hs.advances 0 0 .start hstep) (lt_irrefl 0)
  · induction fuel with
    | zero => rfl
    | succ fuel ih => rw [run_succ_of_next hstep, ih]

end Blackwire.Vless
