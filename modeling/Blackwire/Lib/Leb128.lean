import Blackwire.Lib.Bytes

/-!
# Numbers in groups of seven bits

A number is written as bytes of seven bits each, the lowest first; the high bit of every byte but
the last is set.
-/

namespace Leb128

/-! ### Groups -/

variable (b : UInt8)

theorem or_high_bit : (b ||| 0x80) &&& 0x80 ≠ 0 := by
  rcases b with ⟨b⟩
  revert b
  decide +kernel

theorem or_low_bits : (b ||| 0x80) &&& 0x7f = b &&& 0x7f := by
  rcases b with ⟨b⟩
  revert b
  decide +kernel

theorem high_bit_eq_zero : b &&& 0x80 = 0 ↔ b.toNat < 128 := by
  rcases b with ⟨b⟩
  revert b
  decide +kernel

theorem toNat_low_bits : (b &&& 0x7f).toUInt64.toNat = b.toNat % 128 := by
  have h : (0x7f : UInt8).toNat = 2 ^ 7 - 1 := rfl
  rw [UInt8.toNat_toUInt64, UInt8.toNat_and, h, Nat.and_two_pow_sub_one_eq_mod]

theorem low_bits (n : ℕ) : (UInt8.ofNat n &&& 0x7f).toUInt64.toNat = n % 128 := by
  rw [toNat_low_bits, UInt8.toNat_ofNat']
  omega

/-- Adding a group of seven bits above the bits read so far. -/
theorem or_shifted {result group shift : ℕ} (hr : result < 2 ^ shift) (hs : shift < 64) (g : UInt64)
    (hgroup : g.toNat = group) :
    UInt64.ofNat result ||| g <<< UInt64.ofNat shift =
      UInt64.ofNat (result + group * 2 ^ shift) := by
  have hshift : (UInt64.ofNat shift).toNat % 64 = shift := by
    rw [UInt64.toNat_ofNat']
    omega
  -- the bits of the group that fit stand above those of the result
  obtain ⟨room, hroom⟩ : ∃ room, 64 = shift + room := ⟨64 - shift, by omega⟩
  have hpow : 2 ^ 64 = 2 ^ shift * 2 ^ room := by rw [hroom, pow_add]
  have hresult : result < 2 ^ 64 := hr.trans_le (Nat.pow_le_pow_right (by omega) (by omega))
  have hcut : group * 2 ^ shift % 2 ^ 64 = 2 ^ shift * (group % 2 ^ room) := by
    rw [hpow, Nat.mul_comm group, Nat.mul_mod_mul_left]
  have hsum : (result + group * 2 ^ shift) % 2 ^ 64 = 2 ^ shift * (group % 2 ^ room) + result := by
    rw [Nat.add_mod, hcut, Nat.mod_eq_of_lt hresult, Nat.add_comm, Nat.mod_eq_of_lt]
    have hlt : group % 2 ^ room < 2 ^ room := Nat.mod_lt _ (by positivity)
    calc 2 ^ shift * (group % 2 ^ room) + result
        < 2 ^ shift * (group % 2 ^ room) + 2 ^ shift := by omega
      _ = 2 ^ shift * (group % 2 ^ room + 1) := by rw [Nat.mul_add, Nat.mul_one]
      _ ≤ 2 ^ shift * 2 ^ room := Nat.mul_le_mul_left _ hlt
      _ = 2 ^ 64 := hpow.symm
  rw [← UInt64.toNat_inj, UInt64.toNat_or, UInt64.toNat_shiftLeft, hshift, hgroup,
    UInt64.toNat_ofNat', UInt64.toNat_ofNat', Nat.shiftLeft_eq, hcut, hsum,
    Nat.mod_eq_of_lt hresult, Nat.or_comm, ← Nat.two_pow_add_eq_or_of_lt hr]

/-! ### Encodings -/

def value : List UInt8 → ℕ
  | [] => 0
  | b :: bs => b.toNat % 128 + 128 * value bs

def Terminated : List UInt8 → Prop
  | [] => False
  | [b] => b.toNat < 128
  | b :: bs => 128 ≤ b.toNat ∧ Terminated bs

instance Terminated.decidable : (bs : List UInt8) → Decidable (Terminated bs)
  | [] => isFalse id
  | [b] => inferInstanceAs (Decidable (b.toNat < 128))
  | b :: c :: bs =>
    have := Terminated.decidable (c :: bs)
    inferInstanceAs (Decidable (128 ≤ b.toNat ∧ Terminated (c :: bs)))

theorem terminated_singleton : Terminated [b] ↔ b.toNat < 128 := Iff.rfl

theorem Terminated.cons {b : UInt8} {e : Bytes} (hb : 128 ≤ b.toNat) (h : Terminated e) :
    Terminated (b :: e) := by
  cases e with
  | nil => exact h.elim
  | cons c e => exact ⟨hb, h⟩

theorem exists_terminated (bs : Bytes) :
    (∃ e rest, bs = e ++ rest ∧ Terminated e) ∨ ∀ b ∈ bs, 128 ≤ b.toNat := by
  induction bs with
  | nil => exact .inr (by simp)
  | cons b bs ih =>
    by_cases hb : b.toNat < 128
    · exact .inl ⟨[b], bs, rfl, hb⟩
    · rcases ih with ⟨e, rest, rfl, he⟩ | hall
      · exact .inl ⟨b :: e, rest, rfl, he.cons (by omega)⟩
      · refine .inr fun c hc => ?_
        rcases List.mem_cons.1 hc with rfl | hc
        · omega
        · exact hall c hc

/-- A number below a power of `128` has that many groups. -/
theorem value_lt (e : Bytes) : value e < 128 ^ e.length := by
  induction e with
  | nil => simp [value]
  | cons b e ih =>
    rw [value, List.length_cons]
    omega

end Leb128
