import Mathlib.Algebra.Group.Int.Defs
import Mathlib.Logic.Basic
import Mathlib.Tactic.SplitIfs

/-!
# JSON values

`serde_json::Value`, with the accessors that the builders use.  An object is the list of its members
in the order of their keys, which is how a `BTreeMap` holds them, so that two objects are equal when
their lists are.
-/

namespace Blackwire.Json

inductive Value
  | null
  | bool (b : Bool)
  | number (n : ℤ)
  | float (text : String)
  | string (s : String)
  | array (items : List Value)
  | object (fields : List (String × Value))

namespace Value

/-! ### Equality -/

mutual

def decEq : (a b : Value) → Decidable (a = b)
  | .null, .null => isTrue rfl
  | .bool a, .bool b => decidable_of_iff (a = b) ⟨congrArg _, Value.bool.inj⟩
  | .number a, .number b => decidable_of_iff (a = b) ⟨congrArg _, Value.number.inj⟩
  | .float a, .float b => decidable_of_iff (a = b) ⟨congrArg _, Value.float.inj⟩
  | .string a, .string b => decidable_of_iff (a = b) ⟨congrArg _, Value.string.inj⟩
  | .array a, .array b =>
    have := decEqItems a b
    decidable_of_iff (a = b) ⟨congrArg _, Value.array.inj⟩
  | .object a, .object b =>
    have := decEqFields a b
    decidable_of_iff (a = b) ⟨congrArg _, Value.object.inj⟩
  | .null, .bool _ | .null, .number _ | .null, .float _ | .null, .string _ | .null, .array _
  | .null, .object _ | .bool _, .null | .bool _, .number _ | .bool _, .float _
  | .bool _, .string _ | .bool _, .array _ | .bool _, .object _ | .number _, .null
  | .number _, .bool _ | .number _, .float _ | .number _, .string _ | .number _, .array _
  | .number _, .object _ | .float _, .null | .float _, .bool _ | .float _, .number _
  | .float _, .string _ | .float _, .array _ | .float _, .object _ | .string _, .null
  | .string _, .bool _ | .string _, .number _ | .string _, .float _ | .string _, .array _
  | .string _, .object _ | .array _, .null | .array _, .bool _ | .array _, .number _
  | .array _, .float _ | .array _, .string _ | .array _, .object _ | .object _, .null
  | .object _, .bool _ | .object _, .number _ | .object _, .float _ | .object _, .string _
  | .object _, .array _ => isFalse (by simp)

def decEqItems : (as bs : List Value) → Decidable (as = bs)
  | [], [] => isTrue rfl
  | [], _ :: _ | _ :: _, [] => isFalse (by simp)
  | a :: as, b :: bs =>
    have := decEq a b
    have := decEqItems as bs
    decidable_of_iff (a = b ∧ as = bs) (by simp)

def decEqFields : (as bs : List (String × Value)) → Decidable (as = bs)
  | [], [] => isTrue rfl
  | [], _ :: _ | _ :: _, [] => isFalse (by simp)
  | (k, a) :: as, (l, b) :: bs =>
    have := decEq a b
    have := decEqFields as bs
    decidable_of_iff ((k = l ∧ a = b) ∧ as = bs) (by simp)

end

instance : DecidableEq Value := decEq

/-! ### Accessors -/

variable (key : String) (value : Value)

def get : Value → Option Value
  | .object fields => fields.lookup key
  | _ => none

def field : Value := (value.get key).getD .null

def item (i : ℕ) : Value → Value
  | .array items => items.getD i .null
  | _ => .null

def asStr : Value → Option String
  | .string s => some s
  | _ => none

def asArray : Value → Option (List Value)
  | .array items => some items
  | _ => none

def items (key : String) : List Value := (value.field key).asArray.getD []

def asU64 : Value → Option ℕ
  | .number n => if 0 ≤ n ∧ n < 2 ^ 64 then some n.toNat else none
  | _ => none

def asBool : Value → Option Bool
  | .bool b => some b
  | _ => none

def typeName : Value → String
  | .null => "null"
  | .bool _ => "boolean"
  | .number _ => "number"
  | .float _ => "number"
  | .string _ => "string"
  | .array _ => "array"
  | .object _ => "object"

def remove : Value → Value
  | .object fields => .object (fields.filter fun field => field.1 ≠ key)
  | value => value

def asObject : Value → Option (List (String × Value))
  | .object fields => some fields
  | _ => none

def insertField : List (String × Value) → List (String × Value)
  | [] => [(key, value)]
  | (k, v) :: fields =>
    if key = k then (key, value) :: fields
    else if key < k then (key, value) :: (k, v) :: fields
    else (k, v) :: insertField fields

def orInsertField (fields : List (String × Value)) : List (String × Value) :=
  if (fields.lookup key).isSome then fields else insertField key value fields

def insert (target : Value) (key : String) (value : Value) : Value :=
  match target with
  | .object fields => .object (insertField key value fields)
  | other => other

def insertSome (target : Value) (key : String) (value : Option Value) : Value :=
  value.elim target fun v => target.insert key v

theorem lookup_cons_eq (key k : String) (value : Value) (fields : List (String × Value)) :
    ((k, value) :: fields).lookup key = if key = k then some value else fields.lookup key := by
  by_cases h : key = k
  · simp [h]
  · rw [List.lookup_cons, beq_false_of_ne h, if_neg h]

theorem lookup_insertField (key k : String) (value : Value) (fields : List (String × Value)) :
    (insertField k value fields).lookup key =
      if key = k then some value else fields.lookup key := by
  induction fields with
  | nil => exact lookup_cons_eq key k value []
  | cons field fields ih =>
    obtain ⟨l, v⟩ := field
    unfold insertField
    by_cases hkl : k = l
    · subst hkl
      rw [if_pos rfl, lookup_cons_eq, lookup_cons_eq]
      split_ifs <;> rfl
    · rw [if_neg hkl]
      by_cases hlt : k < l
      · rw [if_pos hlt, lookup_cons_eq]
      · rw [if_neg hlt, lookup_cons_eq, lookup_cons_eq, ih]
        by_cases h : key = k
        · rw [if_pos h, if_pos h, if_neg (h ▸ hkl)]
        · rw [if_neg h, if_neg h]

variable {key k : String}

theorem get_insert_ne (h : key ≠ k) (target value : Value) :
    (target.insert k value).get key = target.get key := by
  cases target <;> simp [insert, get, lookup_insertField, h]

theorem get_insertSome_ne (h : key ≠ k) (target : Value) (value : Option Value) :
    (target.insertSome k value).get key = target.get key := by
  cases value with
  | none => rfl
  | some v => exact get_insert_ne h target v

end Value

end Blackwire.Json
