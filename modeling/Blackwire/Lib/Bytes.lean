import Mathlib.Tactic

/-!
# Byte strings

Byte strings are lists of `UInt8`; arrays of a fixed length are the subtype `Octets n`.
-/

abbrev Bytes := List UInt8

abbrev Octets (n : ℕ) := {bs : Bytes // bs.length = n}

def Octets.replicate (n : ℕ) (b : UInt8) : Octets n := ⟨List.replicate n b, List.length_replicate⟩

namespace Bytes

open List

/-! ### Big-endian integers -/

def toBe : ℕ → ℕ → Bytes
  | 0, _ => []
  | w + 1, n => toBe w (n / 256) ++ [UInt8.ofNat n]

variable (bs : Bytes) {n : ℕ} {tail data front : Bytes} {pos : ℕ}

def ofBe : ℕ := bs.foldl (fun acc b => acc * 256 + b.toNat) 0

@[simp] theorem ofBe_nil : ofBe [] = 0 := rfl

theorem ofBe_append_singleton (b : UInt8) : ofBe (bs ++ [b]) = ofBe bs * 256 + b.toNat := by
  simp [ofBe]

@[simp] theorem length_toBe (w n : ℕ) : (toBe w n).length = w := by
  induction w generalizing n with
  | zero => rfl
  | succ w ih => simp [toBe, ih]

theorem ofBe_toBe_mod (w n : ℕ) : ofBe (toBe w n) = n % 256 ^ w := by
  induction w generalizing n with
  | zero => simp [toBe, Nat.mod_one]
  | succ w ih =>
    have hb : (UInt8.ofNat n).toNat = n % 256 := by simp
    rw [toBe, ofBe_append_singleton, ih, pow_succ, Nat.mul_comm (256 ^ w), Nat.mod_mul]
    omega

theorem ofBe_toBe {w : ℕ} (h : n < 256 ^ w) : ofBe (toBe w n) = n := by
  rw [ofBe_toBe_mod, Nat.mod_eq_of_lt h]

theorem toBe_ofBe : toBe bs.length (ofBe bs) = bs := by
  induction bs using List.reverseRecOn with
  | nil => rfl
  | append_singleton bs b ih =>
    have hb := b.toNat_lt
    have hlow : UInt8.ofNat (ofBe bs * 256 + b.toNat) = b := by
      rw [← UInt8.toNat_inj, UInt8.toNat_ofNat']
      omega
    have hhigh : (ofBe bs * 256 + b.toNat) / 256 = ofBe bs := by omega
    rw [length_append, length_singleton, ofBe_append_singleton, toBe, hhigh, ih, hlow]

@[simp] theorem ofNat_ofBe_toBe_two (n : UInt16) : UInt16.ofNat (ofBe (toBe 2 n.toNat)) = n := by
  rw [ofBe_toBe n.toNat_lt, UInt16.ofNat_toNat]

@[simp] theorem ofNat_ofBe_toBe_four (n : UInt32) : UInt32.ofNat (ofBe (toBe 4 n.toNat)) = n := by
  rw [ofBe_toBe n.toNat_lt, UInt32.ofNat_toNat]

theorem toBe_two (n : ℕ) : toBe 2 n = [UInt8.ofNat (n / 256), UInt8.ofNat n] := rfl

/-! ### Little-endian integers -/

def toLe (w n : ℕ) : Bytes := (toBe w n).reverse

def ofLe : ℕ := ofBe bs.reverse

@[simp] theorem length_toLe (w n : ℕ) : (toLe w n).length = w := by
  rw [toLe, length_reverse, length_toBe]

theorem ofLe_toLe {w : ℕ} (h : n < 256 ^ w) : ofLe (toLe w n) = n := by
  rw [ofLe, toLe, reverse_reverse, ofBe_toBe h]

/-! ### Slices -/

def slice (data : Bytes) (pos n : ℕ) (h : pos + n ≤ data.length) : Octets n :=
  ⟨(data.drop pos).take n, by rw [length_take, length_drop]; omega⟩

@[simp] theorem length_slice (data : Bytes) (pos n : ℕ) (h : pos + n ≤ data.length) :
    (slice data pos n h).val.length = n := (slice data pos n h).property

theorem slice_append (bs : Octets n) (hdata : data = front ++ (bs.val ++ tail))
    (hpos : front.length = pos) (h : pos + n ≤ data.length) : slice data pos n h = bs := by
  subst hdata hpos
  apply Subtype.ext
  show ((front ++ (bs.val ++ tail)).drop front.length).take n = bs.val
  rw [drop_left, take_left' bs.property]

theorem slice_append_drop (data : Bytes) (pos n : ℕ) (h : pos + n ≤ data.length) :
    (slice data pos n h).val ++ data.drop (pos + n) = data.drop pos := by
  rw [← drop_drop]
  exact take_append_drop n (data.drop pos)

theorem slice_zero_append_drop (data : Bytes) (n : ℕ) (h : 0 + n ≤ data.length) :
    (slice data 0 n h).val ++ data.drop n = data := take_append_drop n data

theorem drop_add (front : Bytes) (h : data.drop pos = front ++ tail) (hn : front.length = n) :
    data.drop (pos + n) = tail := by
  rw [← drop_drop, h, drop_left' hn]

theorem length_sub_of_drop (h : data.drop pos = front ++ tail) :
    data.length - pos = front.length + tail.length := by
  rw [← length_drop, h, length_append]

theorem getD_append (hdata : data = front ++ tail) (hpos : front.length = pos) (i : ℕ) (d : UInt8) :
    data.getD (pos + i) d = tail.getD i d := by
  subst hdata hpos
  simp [getD_eq_getElem?_getD, List.getElem?_append_right]

theorem length_le_flatMap {α : Type} {piece : α → Bytes} (hpiece : ∀ a, piece a ≠ [])
    (as : List α) : as.length ≤ (as.flatMap piece).length := by
  induction as with
  | nil => exact Nat.le_refl _
  | cons a as ih =>
    have hpos := length_pos_iff.2 (hpiece a)
    rw [flatMap_cons, length_append, length_cons]
    omega

/-! ### Strings as bytes -/

def utf8 (s : String) : Bytes := s.toByteArray.data.toList

def fromUtf8 : Option String := String.fromUTF8? ⟨bs.toArray⟩

theorem mk_utf8 (s : String) : (⟨(utf8 s).toArray⟩ : ByteArray) = s.toByteArray := by
  simp [utf8]

@[simp] theorem fromUtf8_utf8 (s : String) : fromUtf8 (utf8 s) = some s := by
  rw [fromUtf8, mk_utf8, String.fromUTF8?, dif_pos]
  rfl

theorem utf8_injective : Function.Injective utf8 := by
  intro s t h
  have := congrArg fromUtf8 h
  simpa using this

end Bytes
