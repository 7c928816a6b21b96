import Blackwire.Common.Address
import Blackwire.Lib.Leb128

/-!
# The frames of the gRPC tunnel

The two layers of framing in `grpc.rs`: a message of gRPC with its five-byte header, and in it a
protobuf `Hunk` with the data.  Lengths are those of a 64-bit target.

* `decodeGrpcFrame_message`, `decodeGrpcFrame_incomplete`, `decodeGrpcFrame_too_long`: a message is
  taken off the buffer when it is all there, and refused when it is too long.
-/

namespace Blackwire.Grpc

open List Bytes Leb128 Nat UInt64

/-! ### Constants -/

def maxMessageSize : ℕ := 16 * 1024 * 1024
def frameHeaderLen : ℕ := 5
def coalesceTargetBytes : ℕ := 16 * 1024

def hex (n : ℕ) : String := "0x" ++ String.ofList (toDigits 16 n)

/-! ### Varints -/

def putVarintLoop : ℕ → ℕ → Bytes
  | 0, val => [UInt8.ofNat val &&& 0x7f]
  | fuel + 1, val =>
    let byte := UInt8.ofNat val &&& 0x7f
    let val := val / 2 ^ 7
    if val = 0 then [byte] else (byte ||| 0x80) :: putVarintLoop fuel val

def putVarint (val : UInt64) : Bytes := putVarintLoop 9 val.toNat

def getVarintLoop : Bytes → ℕ → UInt64 → ℕ → Option (UInt64 × ℕ)
  | [], _, _, _ => none
  | byte :: buf, i, val, shift =>
    if shift ≥ 64 then none
    else
      let val := val ||| ((byte &&& 0x7f).toUInt64 <<< ofNat shift)
      if byte &&& 0x80 = 0 then some (val, i + 1) else getVarintLoop buf (i + 1) val (shift + 7)

def getVarint (buf : Bytes) : Option (UInt64 × ℕ) := getVarintLoop buf 0 0 0

/-! ### Hunks -/

def appendHunk (buf data : Bytes) : Bytes :=
  buf ++ 0x0A :: putVarint (ofNat data.length) ++ data

variable (payload : Bytes)

/-- `decode_hunk`.  The sum of two 64-bit lengths wraps around, and then the slice panics. -/
def decodeHunk : Except Stop Bytes :=
  match payload with
  | [] => .ok []
  | tag :: body =>
    if tag ≠ 0x0A then
      .error (.error (.protocol
        ("gRPC Gun: expected Hunk field tag 0x0A, got " ++ hex tag.toNat)))
    else
      match getVarint body with
      | none => .error (.error (.protocol "gRPC Gun: truncated or oversized Hunk varint"))
      | some (dataLen, varintLen) =>
        let offset := 1 + varintLen
        let stop := (offset + dataLen.toNat) % 2 ^ 64
        if payload.length < stop then
          .error (.error (.protocol "gRPC Gun: Hunk data extends past message boundary"))
        else if stop < offset then .error .panic
        else .ok ((payload.drop offset).take (stop - offset))

/-! ### Messages -/

def appendGrpcFramePrefix (buf : Bytes) (payloadLen : ℕ) : Bytes :=
  buf ++ 0x00 :: toBe 4 payloadLen

def varintLenLoop : ℕ → ℕ → ℕ
  | 0, _ => 1
  | fuel + 1, remaining =>
    if remaining ≥ 0x80 then varintLenLoop fuel (remaining / 2 ^ 7) + 1 else 1

def hunkLen (payloadLen : ℕ) : ℕ := 1 + varintLenLoop 9 payloadLen + payloadLen

def hunkFrame : Bytes :=
  appendHunk (appendGrpcFramePrefix [] (hunkLen payload.length)) payload

/-- `decode_grpc_frame`: the payload of the next message if it is there, and the bytes behind it. -/
def decodeGrpcFrame (buf : Bytes) : Except ProxyError (Option Bytes) × Bytes :=
  match buf with
  | compressed :: l₀ :: l₁ :: l₂ :: l₃ :: rest =>
    if compressed ≠ 0x00 then
      (.error (.transport
        ("gRPC: compressed frames not supported (flag=" ++ hex compressed.toNat ++ ")")), buf)
    else
      let len := ofBe [l₀, l₁, l₂, l₃]
      if len > maxMessageSize then
        (.error (.transport ("gRPC: message too large (" ++ toString len ++ " bytes)")), buf)
      else if buf.length < frameHeaderLen + len then (.ok none, buf)
      else (.ok (some (rest.take len)), rest.drop len)
  | _ => (.ok none, buf)

/-! ### Reading varints -/

theorem getVarintLoop_append {e : Bytes} (he : Leb128.Terminated e) (rest : Bytes) (i acc : ℕ)
    (hi : i < 10) (hacc : acc < 2 ^ (7 * i)) :
    getVarintLoop (e ++ rest) i (ofNat acc) (7 * i) =
      if i + e.length ≤ 10 then
        some (ofNat (acc + value e * 2 ^ (7 * i)), i + e.length)
      else none := by
  -- the induction is on the groups still to come; `acc` holds those read so far
  induction e generalizing i acc with
  | nil => exact he.elim
  | cons b e ih =>
    have hshift : ¬ 7 * i ≥ 64 := by omega
    rw [cons_append, getVarintLoop, if_neg hshift, or_shifted hacc (by omega) _ (toNat_low_bits b)]
    cases e with
    | nil =>
      have hb : b &&& 0x80 = 0 := (high_bit_eq_zero b).2 he
      rw [if_pos hb, if_pos (by simp only [length_singleton]; omega)]
      simp [value]
    | cons c e =>
      have hb : ¬ b &&& 0x80 = 0 := by
        rw [high_bit_eq_zero]
        have := he.1
        omega
      rw [if_neg hb]
      by_cases hlast : i = 9
      · -- the next byte stands at bit 70
        rw [cons_append, getVarintLoop, if_pos (by omega),
          if_neg (by simp only [length_cons]; omega)]
      · have hgroup : b.toNat % 128 < 128 := mod_lt _ (by omega)
        have hpow : 2 ^ (7 * (i + 1)) = 128 * 2 ^ (7 * i) := by
          rw [mul_add, pow_add]
          omega
        have hacc' : acc + b.toNat % 128 * 2 ^ (7 * i) < 2 ^ (7 * (i + 1)) := by
          have := mul_le_mul_right (2 ^ (7 * i)) (le_of_lt_succ hgroup)
          omega
        have hrec := ih he.2 (i + 1) _ (by omega) hacc'
        rw [show 7 * i + 7 = 7 * (i + 1) by omega, hrec, length_cons (a := b),
          add_right_comm, ← add_assoc]
        have hvalue : value (b :: c :: e) =
            b.toNat % 128 + 128 * value (c :: e) := rfl
        have hsum : acc + b.toNat % 128 * 2 ^ (7 * i) +
            value (c :: e) * 2 ^ (7 * (i + 1)) =
            acc + value (b :: c :: e) * 2 ^ (7 * i) := by
          rw [hvalue]
          ring
        rw [hsum]

theorem getVarintLoop_eq_none {bs : Bytes} (h : ∀ b ∈ bs, 128 ≤ b.toNat) (i : ℕ) (val : UInt64)
    (shift : ℕ) : getVarintLoop bs i val shift = none := by
  induction bs generalizing i val shift with
  | nil => rfl
  | cons b bs ih =>
    have hb : ¬ b &&& 0x80 = 0 := by
      rw [high_bit_eq_zero]
      have := h b mem_cons_self
      omega
    rw [getVarintLoop]
    split_ifs
    · rfl
    · exact ih (fun c hc => h c (mem_cons_of_mem _ hc)) _ _ _

/-- **Reading a varint.**  A varint of at most ten bytes is read modulo `2 ^ 64`. -/
theorem getVarint_append {e : Bytes} (he : Leb128.Terminated e) (rest : Bytes) :
    getVarint (e ++ rest) =
      if e.length ≤ 10 then some (ofNat (value e), e.length) else none := by
  have h := getVarintLoop_append he rest 0 0 (by omega) (by simp)
  simpa [getVarint] using h

theorem getVarint_eq_none {bs : Bytes} (h : ∀ b ∈ bs, 128 ≤ b.toNat) : getVarint bs = none :=
  getVarintLoop_eq_none h 0 0 0

/-! ### Decoding Hunks -/

/-- The Hunk declares data that ends at `2 ^ 64` or later. -/
def Overflows : Prop :=
  ∃ e rest, payload = 0x0A :: (e ++ rest) ∧ Leb128.Terminated e ∧ e.length ≤ 10 ∧
    2 ^ 64 ≤ 1 + e.length + value e % 2 ^ 64

theorem decodeHunk_of_terminated {e : Bytes} (he : Leb128.Terminated e) (hlen : e.length ≤ 10)
    (rest : Bytes) :
    decodeHunk (0x0A :: (e ++ rest)) =
      if 2 ^ 64 ≤ 1 + e.length + value e % 2 ^ 64 then .error .panic
      else if rest.length < value e % 2 ^ 64 then
        .error (.error (.protocol "gRPC Gun: Hunk data extends past message boundary"))
      else .ok (rest.take (value e % 2 ^ 64)) := by
  have hvalue : (ofNat (value e)).toNat = value e % 2 ^ 64 := toNat_ofNat'
  have hlt : value e % 2 ^ 64 < 2 ^ 64 := Nat.mod_lt _ (by positivity)
  have hlength : (0x0A :: (e ++ rest)).length = 1 + e.length + rest.length := by
    simp only [length_cons, length_append]
    omega
  simp only [decodeHunk, ne_eq, not_true_eq_false, if_false, getVarint_append he, if_pos hlen,
    hvalue, hlength]
  generalize value e % 2 ^ 64 = dataLen at hlt ⊢
  by_cases hwrap : 2 ^ 64 ≤ 1 + e.length + dataLen
  · -- the sum wraps around to less than the offset
    rw [if_pos hwrap, if_neg (by omega), if_pos (by omega)]
  · have hstop : (1 + e.length + dataLen) % 2 ^ 64 = 1 + e.length + dataLen :=
      Nat.mod_eq_of_lt (by omega)
    rw [if_neg hwrap, hstop]
    by_cases hshort : rest.length < dataLen
    · rw [if_pos hshort, if_pos (by omega)]
    · have hdrop : (0x0A :: (e ++ rest)).drop (1 + e.length) = rest := by
        rw [Nat.add_comm, drop_succ_cons, drop_left]
      rw [if_neg hshort, if_neg (by omega), if_neg (by omega), hdrop, Nat.add_sub_cancel_left]

theorem decodeHunk_of_getVarint {body : Bytes} (h : getVarint body = none) :
    decodeHunk (0x0A :: body) =
      .error (.error (.protocol "gRPC Gun: truncated or oversized Hunk varint")) := by
  simp [decodeHunk, h]

/-- **Decoding a Hunk** panics exactly when the end of the declared data is not below `2 ^ 64`. -/
theorem decodeHunk_eq_panic_iff : decodeHunk payload = .error .panic ↔ Overflows payload := by
  constructor
  · intro h
    cases payload with
    | nil => simp [decodeHunk] at h
    | cons tag body =>
      by_cases htag : tag = 0x0A
      · subst htag
        rcases exists_terminated body with ⟨e, rest, rfl, he⟩ | hall
        · by_cases hlen : e.length ≤ 10
          · rw [decodeHunk_of_terminated he hlen] at h
            split_ifs at h with hwrap
            · exact ⟨e, rest, rfl, he, hlen, hwrap⟩
            · simp at h
          · rw [decodeHunk_of_getVarint (by rw [getVarint_append he, if_neg hlen])] at h
            simp at h
        · rw [decodeHunk_of_getVarint (getVarint_eq_none hall)] at h
          simp at h
      · simp [decodeHunk, htag] at h
  · rintro ⟨e, rest, rfl, he, hlen, hwrap⟩
    rw [decodeHunk_of_terminated he hlen, if_pos hwrap]

variable {payload : Bytes}

theorem decodeHunk_length {data : Bytes} (h : decodeHunk payload = .ok data) :
    data.length ≤ payload.length := by
  unfold decodeHunk at h
  split at h
  · obtain rfl := Except.ok.inj h
    exact le_rfl
  · split_ifs at h
    split at h
    · cases h
    · dsimp only at h
      split_ifs at h
      obtain rfl := Except.ok.inj h
      rw [length_take]
      omega

theorem decodeHunk_ne_hang (payload : Bytes) : decodeHunk payload ≠ .error .hang := by
  intro h
  unfold decodeHunk at h
  split at h
  · cases h
  · split_ifs at h
    · cases h
    · split at h
      · cases h
      · dsimp only at h
        split_ifs at h <;> cases h

/-! ### Writing varints -/

theorem toNat_low_seven (n : ℕ) : (UInt8.ofNat n &&& 0x7f).toNat = n % 128 := by
  rw [← UInt8.toNat_toUInt64, low_bits]

theorem toNat_high_bit (b : UInt8) (hb : b.toNat < 128) : (b ||| 0x80).toNat = b.toNat + 128 := by
  rw [UInt8.toNat_or, Nat.or_comm]
  exact (Nat.two_pow_add_eq_or_of_lt (i := 7) hb 1).symm.trans (Nat.add_comm _ _)

theorem putVarintLoop_spec (fuel val : ℕ) (h : val < 128 ^ (fuel + 1)) :
    Leb128.Terminated (putVarintLoop fuel val) ∧ value (putVarintLoop fuel val) = val ∧
      (putVarintLoop fuel val).length = varintLenLoop fuel val := by
  induction fuel generalizing val with
  | zero =>
    have hlow : (UInt8.ofNat val &&& 0x7f).toNat = val := by
      rw [toNat_low_seven]
      exact Nat.mod_eq_of_lt (by simpa using h)
    refine ⟨?_, ?_, rfl⟩
    · rw [putVarintLoop, terminated_singleton, hlow]
      simpa using h
    · rw [putVarintLoop, value, value]
      omega
  | succ fuel ih =>
    have hlow := toNat_low_seven val
    have hgroup : val % 128 < 128 := Nat.mod_lt _ (by omega)
    rw [putVarintLoop, varintLenLoop]
    by_cases hlast : val / 2 ^ 7 = 0
    · rw [if_pos hlast, if_neg (by omega)]
      refine ⟨?_, ?_, rfl⟩
      · rw [terminated_singleton, hlow]
        exact hgroup
      · rw [value, value]
        omega
    · have hrest : val / 2 ^ 7 < 128 ^ (fuel + 1) := by exact Nat.div_lt_of_lt_mul (by omega)
      obtain ⟨hend, hvalue, hlen⟩ := ih _ hrest
      have hhigh := toNat_high_bit (UInt8.ofNat val &&& 0x7f) (by omega)
      rw [if_neg hlast, if_pos (by omega)]
      refine ⟨hend.cons (by omega), ?_, by rw [length_cons, hlen]⟩
      rw [value]
      omega

/-- **Writing a varint.** -/
theorem putVarint_spec {n : ℕ} (hn : n < 2 ^ 64) :
    Leb128.Terminated (putVarint (ofNat n)) ∧
      value (putVarint (ofNat n)) = n ∧
      (putVarint (ofNat n)).length = varintLenLoop 9 n := by
  have htoNat : (ofNat n).toNat = n := by exact mod_eq_of_lt hn
  rw [putVarint, htoNat]
  exact putVarintLoop_spec 9 n (hn.trans_le (by norm_num))

theorem varintLenLoop_le (fuel remaining : ℕ) : varintLenLoop fuel remaining ≤ fuel + 1 := by
  induction fuel generalizing remaining with
  | zero => exact le_rfl
  | succ fuel ih =>
    rw [varintLenLoop]
    split_ifs
    · have := ih (remaining / 2 ^ 7)
      omega
    · omega

theorem varintLenLoop_le_iff {fuel k : ℕ} (hk : k < fuel) (remaining : ℕ) :
    varintLenLoop fuel remaining ≤ k + 1 ↔ remaining < 2 ^ (7 * (k + 1)) := by
  induction fuel generalizing k remaining with
  | zero => omega
  | succ fuel ih =>
    rw [varintLenLoop]
    split_ifs with hmore
    · cases k with
      | zero =>
        have hpos : 0 < varintLenLoop fuel (remaining / 2 ^ 7) := by
          cases fuel with
          | zero => exact Nat.one_pos
          | succ fuel => rw [varintLenLoop]; split_ifs <;> omega
        omega
      | succ k =>
        rw [Nat.add_le_add_iff_right, ih (by omega), Nat.div_lt_iff_lt_mul (by decide),
          ← Nat.pow_add, Nat.mul_succ 7 (k + 1)]
    · have hpow : 2 ^ 7 ≤ 2 ^ (7 * (k + 1)) := Nat.pow_le_pow_right (by decide) (by omega)
      omega

theorem decodeHunk_appendHunk {data : Bytes} (h : data.length < 2 ^ 63) :
    decodeHunk (appendHunk [] data) = .ok data := by
  obtain ⟨hend, hvalue, hlen⟩ := putVarint_spec (n := data.length) (by omega)
  have hle := varintLenLoop_le 9 data.length
  have hmod : data.length % 2 ^ 64 = data.length := mod_eq_of_lt (by omega)
  show decodeHunk (0x0A :: (putVarint (ofNat data.length) ++ data)) = _
  rw [decodeHunk_of_terminated hend (by omega), hvalue, hmod, if_neg (by omega), if_neg (by omega),
    take_length]

/-! ### Frames -/

def message (payload : Bytes) : Bytes := 0x00 :: toBe 4 payload.length ++ payload

theorem length_message (payload : Bytes) : (message payload).length = 5 + payload.length := by
  simp only [message, cons_append, length_cons, length_append, length_toBe]
  omega

theorem hunkFrame_eq_message (h : payload.length < 2 ^ 64) :
    hunkFrame payload = message (appendHunk [] payload) := by
  obtain ⟨-, -, hlen⟩ := putVarint_spec h
  have hhunk : (appendHunk [] payload).length = hunkLen payload.length := by
    simp only [appendHunk, nil_append, cons_append, length_cons, length_append, hlen, hunkLen]
    omega
  rw [message, hhunk]
  simp [hunkFrame, appendHunk, appendGrpcFramePrefix]

theorem decodeGrpcFrame_header {len : ℕ} (hlen : len < 2 ^ 32) (rest : Bytes) :
    decodeGrpcFrame (0x00 :: toBe 4 len ++ rest) =
      if len > maxMessageSize then
        (.error (.transport ("gRPC: message too large (" ++ toString len ++ " bytes)")),
          0x00 :: toBe 4 len ++ rest)
      else if rest.length < len then (.ok none, 0x00 :: toBe 4 len ++ rest)
      else (.ok (some (rest.take len)), rest.drop len) := by
  obtain ⟨l₀, l₁, l₂, l₃, hbe⟩ : ∃ l₀ l₁ l₂ l₃, toBe 4 len = [l₀, l₁, l₂, l₃] :=
    ⟨_, _, _, _, rfl⟩
  have hvalue : ofBe [l₀, l₁, l₂, l₃] = len := by
    rw [← hbe]
    exact ofBe_toBe (by simpa using hlen)
  have hlength : (0x00 :: l₀ :: l₁ :: l₂ :: l₃ :: rest).length = frameHeaderLen + rest.length := by
    simp only [length_cons, frameHeaderLen]
    omega
  rw [hbe]
  simp [decodeGrpcFrame, hvalue, hlength]

theorem decodeGrpcFrame_message (h : payload.length ≤ maxMessageSize) (rest : Bytes) :
    decodeGrpcFrame (message payload ++ rest) = (.ok (some payload), rest) := by
  have hlt : payload.length < 2 ^ 32 := by
    simp only [maxMessageSize] at h
    omega
  rw [message, append_assoc, decodeGrpcFrame_header hlt, if_neg (by omega),
    if_neg (by simp), take_left, drop_left]

theorem decodeGrpcFrame_short {raw : Bytes} (h : raw.length < 5) :
    decodeGrpcFrame raw = (.ok none, raw) := by
  unfold decodeGrpcFrame
  split
  · simp only [length_cons] at h
    omega
  · rfl

theorem decodeGrpcFrame_incomplete {raw : Bytes} (h : payload.length ≤ maxMessageSize)
    (hraw : raw <+: message payload) (hlen : raw.length < (message payload).length) :
    decodeGrpcFrame raw = (.ok none, raw) := by
  rw [length_message] at hlen
  by_cases hheader : 5 ≤ raw.length
  · have hlt : payload.length < 2 ^ 32 := by
      simp only [maxMessageSize] at h
      omega
    obtain ⟨rest, rfl⟩ : 0x00 :: toBe 4 payload.length <+: raw := by
      refine prefix_of_prefix_length_le ⟨payload, rfl⟩ hraw ?_
      exact hheader
    rw [decodeGrpcFrame_header hlt, if_neg (by omega), if_pos]
    simp only [cons_append, length_cons, length_append, length_toBe] at hlen
    omega
  · exact decodeGrpcFrame_short (by omega)

theorem decodeGrpcFrame_too_long (h : maxMessageSize < payload.length)
    (hlt : payload.length < 2 ^ 32) (rest : Bytes) :
    decodeGrpcFrame (message payload ++ rest) =
      (.error (.transport ("gRPC: message too large (" ++ toString payload.length ++ " bytes)")),
        message payload ++ rest) := by
  rw [message, append_assoc, decodeGrpcFrame_header hlt, if_pos h]

end Blackwire.Grpc
