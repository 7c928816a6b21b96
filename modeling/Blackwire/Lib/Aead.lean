import Blackwire.Lib.Bytes

/-!
# Authenticated encryption

An AEAD cipher as a pair of functions, and the one property of it that round trips rest on: it
opens what it has sealed under the same key, nonce and associated data.  `Aead.tagging` is a cipher
that has the property and can be evaluated; it does not hide the message.
-/

/-- An AEAD cipher with keys `κ` and 12-byte nonces: sealing and opening may fail. -/
structure Aead (κ : Type) where
  encrypt : κ → Octets 12 → Bytes → Bytes → Option Bytes
  decrypt : κ → Octets 12 → Bytes → Bytes → Option Bytes

/-- The cipher seals every message of at most `limit` bytes, which adds a tag, and opens what it has
sealed. -/
def Aead.Opens {κ : Type} (a : Aead κ) (tag limit : ℕ) : Prop :=
  ∀ key nonce aad msg, msg.length ≤ limit →
    ∃ ct, a.encrypt key nonce aad msg = some ct ∧ ct.length = msg.length + tag ∧
      a.decrypt key nonce aad ct = some msg

namespace Aead

variable {κ : Type} {n : ℕ} (tag : κ → Octets 12 → Bytes → Bytes → Octets n)

def tagging : Aead κ where
  encrypt key nonce aad msg := some (msg ++ (tag key nonce aad msg).val)
  decrypt key nonce aad ct :=
    let msg := ct.take (ct.length - n)
    if ct = msg ++ (tag key nonce aad msg).val then some msg else none

theorem tagging_opens (limit : ℕ) : (tagging tag).Opens n limit := by
  intro key nonce aad msg _
  have hlen : (msg ++ (tag key nonce aad msg).val).length = msg.length + n := by
    rw [List.length_append, (tag key nonce aad msg).property]
  refine ⟨_, rfl, hlen, ?_⟩
  have htake : (msg ++ (tag key nonce aad msg).val).take
      ((msg ++ (tag key nonce aad msg).val).length - n) = msg := by
    rw [hlen, Nat.add_sub_cancel, List.take_left]
  simp only [tagging, htake, if_true]

end Aead
