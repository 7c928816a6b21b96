import Blackwire.Lib.Bytes

/-!
# Typed fields with a length

Lists of fields, each with a type and a length of two bytes in front of its value.
-/

namespace Tlv

open List Bytes

def word (bs : Bytes) : ℕ := ofBe (bs.take 2)

theorem word_toBe {n : ℕ} (h : n < 65536) (tail : Bytes) : word (toBe 2 n ++ tail) = n := by
  rw [word, take_left' (length_toBe 2 n), ofBe_toBe h]

def put (kind : UInt16) (value : Bytes) : Bytes :=
  toBe 2 kind.toNat ++ (toBe 2 value.length ++ value)

@[simp] theorem length_put (kind : UInt16) (value : Bytes) :
    (put kind value).length = 4 + value.length := by
  simp only [put, length_append, length_toBe]
  omega

def putAll (fields : List (UInt16 × Bytes)) : Bytes := fields.flatMap fun f => put f.1 f.2

section

variable (fields : List (UInt16 × Bytes))
include fields

theorem putAll_cons (f : UInt16 × Bytes) :
    putAll (f :: fields) = put f.1 f.2 ++ putAll fields := rfl

theorem length_putAll_cons (f : UInt16 × Bytes) :
    (putAll (f :: fields)).length = 4 + f.2.length + (putAll fields).length := by
  rw [putAll_cons, length_append, length_put]

theorem four_mul_length_le : 4 * fields.length ≤ (putAll fields).length := by
  induction fields with
  | nil => exact Nat.le_refl 0
  | cons f fields ih =>
    rw [length_putAll_cons, length_cons]
    omega

end

theorem length_lt_of_mem {f : UInt16 × Bytes} {fields : List (UInt16 × Bytes)} (h : f ∈ fields) :
    f.2.length < (putAll fields).length := by
  have hle := (sublist_flatten_of_mem
    (mem_map_of_mem (f := fun f : UInt16 × Bytes => put f.1 f.2) h)).length_le
  rw [length_put] at hle
  exact lt_of_lt_of_le (by omega) hle

def header (bs : Bytes) : Option (ℕ × ℕ × Bytes) :=
  if bs.length < 4 then none else some (word bs, word (bs.drop 2), bs.drop 4)

theorem header_put (kind : UInt16) {value : Bytes} (h : value.length < 65536) (tail : Bytes) :
    header (put kind value ++ tail) = some (kind.toNat, value.length, value ++ tail) := by
  have hkind : kind.toNat < 65536 := kind.toNat_lt
  have hdrop : (put kind value ++ tail).drop 2 =
      toBe 2 value.length ++ (value ++ tail) := by
    rw [put, append_assoc, drop_left' (length_toBe 2 _), append_assoc]
  have hdrop' : (put kind value ++ tail).drop 4 = value ++ tail := by
    rw [← drop_drop (i := 2) (j := 2), hdrop, drop_left' (length_toBe 2 _)]
  have hlen : ¬ (put kind value ++ tail).length < 4 := by
    rw [length_append, length_put]
    omega
  rw [header, if_neg hlen, hdrop, hdrop', word_toBe h, put, append_assoc, word_toBe hkind]

end Tlv
