import Blackwire.Lib.Tlv

/-!
# The Chrome ClientHello

The builder of `blackwire-tls`: a TLS ClientHello record with the fields and the extensions that
Chrome sends.  Lengths are written on as many bytes as their fields have.
-/

namespace Blackwire.Tls

open List Bytes

/-! ### GREASE -/

def greaseValuesU16 : List UInt16 :=
  [0x0A0A, 0x1A1A, 0x2A2A, 0x3A3A, 0x4A4A, 0x5A5A, 0x6A6A, 0x7A7A, 0x8A8A, 0x9A9A, 0xAAAA, 0xBABA,
    0xCACA, 0xDADA, 0xEAEA, 0xFAFA]

def greaseU16 (idx : Fin 16) : UInt16 := greaseValuesU16.get idx

/-! ### Profiles -/

structure FingerprintProfile where
  cipherSuites : List UInt16
  extensions : List UInt16
  supportedGroups : List UInt16
  alpn : List String
  signatureAlgorithms : List UInt16

def FingerprintProfile.chrome131 : FingerprintProfile where
  cipherSuites := [0x1301, 0x1302, 0x1303, 0xC02B, 0xC02F, 0xC02C, 0xC030, 0xCCA9, 0xCCA8, 0xC013,
    0xC014, 0x009C, 0x009D, 0x002F, 0x0035]
  extensions := [0x0000, 0x0017, 0xFF01, 0x000A, 0x000B, 0x0023, 0x0010, 0x0005, 0x000D, 0x0012,
    0x0033, 0x002D, 0x002B, 0x001B, 0x0015]
  supportedGroups := [29, 23, 24]
  alpn := ["h2", "http/1.1"]
  signatureAlgorithms := [0x0403, 0x0804, 0x0401, 0x0503, 0x0805, 0x0501, 0x0806, 0x0601]

/-! ### Extensions -/

def putU16 (n : UInt16) : Bytes := toBe 2 n.toNat

/-- What varies between two ClientHellos of one profile, but for the random and the session id. -/
structure HelloChoices where
  sni : String
  greaseCipher : Fin 16
  greaseExt : Fin 16
  x25519Pub : Octets 32
  secp256r1Pub : Option Bytes

section Extensions

variable (profile : FingerprintProfile) (c : HelloChoices) (random sessionId : Octets 32)

def serverName : Bytes :=
  let nameBytes := utf8 c.sni
  toBe 2 (1 + 2 + nameBytes.length) ++ (0x00 :: (toBe 2 nameBytes.length ++ nameBytes))

def supportedGroups : Bytes :=
  toBe 2 ((1 + profile.supportedGroups.length) * 2) ++
    (putU16 (greaseU16 c.greaseCipher) ++ profile.supportedGroups.flatMap putU16)

def alpn : Bytes :=
  let inner := profile.alpn.flatMap fun protocol =>
    UInt8.ofNat (utf8 protocol).length :: utf8 protocol
  toBe 2 inner.length ++ inner

def signatureAlgorithms : Bytes :=
  toBe 2 (profile.signatureAlgorithms.length * 2) ++
    profile.signatureAlgorithms.flatMap putU16

/-- The shares of `ext_key_share`: GREASE, x25519, and secp256r1 if there is a key for it. -/
def clientShares : Bytes :=
  Tlv.put (greaseU16 c.greaseCipher) [0x00] ++ (Tlv.put 29 c.x25519Pub.val ++
    match c.secp256r1Pub with
    | some pubkey => Tlv.put 23 pubkey
    | none => [])

def keyShare : Bytes := toBe 2 (clientShares c).length ++ clientShares c

def extensionValue (extType : UInt16) : Bytes :=
  if extType = 0x0000 then serverName c
  else if extType = 0x0017 then []
  else if extType = 0xFF01 then [0x00]
  else if extType = 0x000A then supportedGroups profile c
  else if extType = 0x000B then [0x01, 0x00]
  else if extType = 0x0023 then []
  else if extType = 0x0010 then alpn profile
  else if extType = 0x0005 then [0x01, 0x00, 0x00, 0x00, 0x00]
  else if extType = 0x000D then signatureAlgorithms profile
  else if extType = 0x0012 then []
  else if extType = 0x0033 then keyShare c
  else if extType = 0x002D then [0x01, 0x01]
  else if extType = 0x002B then [0x08, 0x7A, 0x7A, 0x03, 0x04, 0x03, 0x03, 0x03, 0x02]
  else if extType = 0x001B then [0x02, 0x00, 0x02]
  else if extType = 0x0015 then [0x00]
  else []

def buildExtensions : Bytes :=
  profile.extensions.flatMap (fun extType => Tlv.put extType (extensionValue profile c extType)) ++
    Tlv.put (greaseU16 c.greaseExt) [0x00, 0x00]

/-! ### The record -/

def cipherSuites : Bytes :=
  toBe 2 ((1 + profile.cipherSuites.length) * 2) ++
    (putU16 (greaseU16 c.greaseCipher) ++ profile.cipherSuites.flatMap putU16)

def behindSessionId : Bytes :=
  cipherSuites profile c ++ (0x01 :: 0x00 ::
    (toBe 2 (buildExtensions profile c).length ++ buildExtensions profile c))

def buildClientHelloBody : Bytes :=
  0x03 :: 0x03 :: (random.val ++ (0x20 :: (sessionId.val ++ behindSessionId profile c)))

def buildHandshake : Bytes :=
  let body := buildClientHelloBody profile c random sessionId
  0x01 :: (toBe 3 body.length ++ body)

def build : Bytes :=
  let handshake := buildHandshake profile c random sessionId
  0x16 :: 0x03 :: 0x01 :: (toBe 2 handshake.length ++ handshake)

def helloFront (random : Octets 32) : Bytes :=
  0x01 :: (toBe 3 (67 + (behindSessionId profile c).length) ++
    (0x03 :: 0x03 :: (random.val ++ [0x20])))

@[simp] theorem length_helloFront (random : Octets 32) :
    (helloFront profile c random).length = 39 := by
  simp [helloFront, random.property]

/-- **The place of the session id.**  What is in front of it and behind it does not depend on it. -/
theorem buildHandshake_eq : buildHandshake profile c random sessionId =
      helloFront profile c random ++ (sessionId.val ++ behindSessionId profile c) := by
  have hlen : (buildClientHelloBody profile c random sessionId).length =
      67 + (behindSessionId profile c).length := by
    simp only [buildClientHelloBody, length_cons, length_append, random.property,
      sessionId.property]
    omega
  rw [buildHandshake, hlen, helloFront, buildClientHelloBody]
  simp

end Extensions

/-! ### The fields of a ClientHello -/

variable (profile : FingerprintProfile) (c : HelloChoices)

def extensionFields : List (UInt16 × Bytes) :=
  profile.extensions.map (fun extType => (extType, extensionValue profile c extType)) ++
    [(greaseU16 c.greaseExt, [0x00, 0x00])]

theorem buildExtensions_eq :
    buildExtensions profile c = Tlv.putAll (extensionFields profile c) := by
  simp [buildExtensions, Tlv.putAll, extensionFields, flatMap_map]

def shareFields : List (UInt16 × Bytes) :=
  (greaseU16 c.greaseCipher, [0x00]) :: (29, c.x25519Pub.val) ::
    (c.secp256r1Pub.toList.map fun pubkey => (23, pubkey))

theorem clientShares_eq : clientShares c = Tlv.putAll (shareFields c) := by
  cases h : c.secp256r1Pub <;> simp [clientShares, Tlv.putAll, shareFields, h]

theorem greaseU16_ne (idx : Fin 16) :
    (greaseU16 idx).toNat ≠ 0x0000 ∧ (greaseU16 idx).toNat ≠ 0x0033 := by
  revert idx
  decide

end Blackwire.Tls
