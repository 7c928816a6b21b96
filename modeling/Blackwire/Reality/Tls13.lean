import Blackwire.Common.Relay
import Blackwire.Reality.Cert

/-!
# TLS 1.3 for the REALITY client

The key schedule, the record protection and the parsers of `reality/tls13.rs`.  The hash, HMAC,
HKDF, AEAD and key-agreement functions are parameters; what the code does with them is not.
-/

namespace Blackwire.Reality

open Bytes

/-! ### Constants -/

def rtChangeCipherSpec : UInt8 := 0x14
def rtAlert : UInt8 := 0x15
def rtHandshake : UInt8 := 0x16
def rtApplicationData : UInt8 := 0x17
def hsServerHello : UInt8 := 0x02
def hsEncryptedExtensions : UInt8 := 0x08
def hsCertificateVerify : UInt8 := 0x0f
def hsFinished : UInt8 := 0x14
def helloRetryRequestRandom : Bytes :=
  [0xCF, 0x21, 0xAD, 0x74, 0xE5, 0x9A, 0x61, 0x11, 0xBE, 0x1D, 0x8C, 0x02, 0x1E, 0x65, 0xB8, 0x91,
    0xC2, 0xA2, 0x11, 0x16, 0x7A, 0xBB, 0x8C, 0x5E, 0x07, 0x9E, 0x09, 0xE2, 0xC8, 0xA8, 0x33, 0x9C]

def hexPad (w n : ℕ) : String :=
  let digits := Nat.toDigits 16 n
  String.ofList (List.replicate (w - digits.length) '0' ++ digits)

/-! ### Cipher suites -/

inductive CipherSuite
  | aes128GcmSha256
  | aes256GcmSha384

namespace CipherSuite

def fromU16 (v : ℕ) : Except ProxyError CipherSuite :=
  if v = 0x1301 then .ok .aes128GcmSha256
  else if v = 0x1302 then .ok .aes256GcmSha384
  else .error (.protocol ("unsupported TLS 1.3 cipher suite 0x" ++ hexPad 4 v))

def hashLen : CipherSuite → ℕ
  | .aes128GcmSha256 => 32
  | .aes256GcmSha384 => 48

def keyLen : CipherSuite → ℕ
  | .aes128GcmSha256 => 16
  | .aes256GcmSha384 => 32

def aeadName : CipherSuite → String
  | .aes128GcmSha256 => "AES-128-GCM"
  | .aes256GcmSha384 => "AES-256-GCM"

def hashName : CipherSuite → String
  | .aes128GcmSha256 => "SHA-256"
  | .aes256GcmSha384 => "SHA-384"

end CipherSuite

/-- The primitives that the handshake rests on.  `κ` is the type of P-256 secrets. -/
structure TlsCrypto (κ : Type) extends CertCrypto where
  hash : CipherSuite → Bytes → Bytes
  hmac : CipherSuite → Bytes → Bytes → Bytes
  hkdfExtract : CipherSuite → Bytes → Bytes → Bytes
  validPrk : CipherSuite → Bytes → Bool
  hkdfExpand : CipherSuite → Bytes → Bytes → ℕ → Option Bytes
  aeadSeal : CipherSuite → Bytes → Octets 12 → Bytes → Bytes → Bytes
  aeadOpen : CipherSuite → Bytes → Octets 12 → Bytes → Bytes → Option Bytes
  x25519 : Octets 32 → Octets 32 → Octets 32
  /-- `from_sec1_bytes` and `diffie_hellman`, with the text of the error of the former. -/
  p256 : κ → Bytes → Except String Bytes

/-! ### Key schedule -/

section KeySchedule

variable {κ : Type} (crypto : TlsCrypto κ) (cs : CipherSuite)

def expandLabel (prk : Bytes) (label : String) (context : Bytes) (len : ℕ) :
    Except ProxyError Bytes :=
  let fullLabel := utf8 ("tls13 " ++ label)
  let info := toBe 2 len ++ UInt8.ofNat fullLabel.length :: fullLabel ++
    UInt8.ofNat context.length :: context
  if !crypto.validPrk cs prk then
    .error (.tls ("TLS 1.3 HKDF-Expand: invalid " ++ cs.hashName ++ " PRK"))
  else
    match crypto.hkdfExpand cs prk info len with
    | some okm => .ok okm
    | none => .error (.tls ("TLS 1.3 HKDF-Expand: " ++ cs.hashName ++ " output length"))

def deriveSecret (prk : Bytes) (label : String) (transcriptHash : Bytes) :
    Except ProxyError Bytes :=
  expandLabel crypto cs prk label transcriptHash cs.hashLen

def ivFromLabel (trafficSecret : Bytes) : Except ProxyError (Octets 12) := do
  let raw ← expandLabel crypto cs trafficSecret "iv" [] 12
  if h : raw.length = 12 then .ok ⟨raw, h⟩
  else .error (.tls "TLS 1.3 IV derivation length mismatch")

structure HsKeys where
  clientKey : Bytes
  clientIv : Octets 12
  clientFinishedKey : Bytes
  serverKey : Bytes
  serverIv : Octets 12
  serverFinishedKey : Bytes
  masterSecret : Bytes

structure AppKeys where
  cs : CipherSuite
  clientKey : Bytes
  clientIv : Octets 12
  serverKey : Bytes
  serverIv : Octets 12

def deriveHandshakeKeys (dhe : Octets 32) (transcriptHash : Bytes) : Except ProxyError HsKeys := do
  let zero := List.replicate cs.hashLen 0
  let earlySecret := crypto.hkdfExtract cs zero zero
  let emptyHash := crypto.hash cs []
  let derived ← deriveSecret crypto cs earlySecret "derived" emptyHash
  let hsSecret := crypto.hkdfExtract cs derived dhe.val
  let cHsTraffic ← deriveSecret crypto cs hsSecret "c hs traffic" transcriptHash
  let sHsTraffic ← deriveSecret crypto cs hsSecret "s hs traffic" transcriptHash
  let derived2 ← deriveSecret crypto cs hsSecret "derived" emptyHash
  let masterSecret := crypto.hkdfExtract cs derived2 zero
  let clientKey ← expandLabel crypto cs cHsTraffic "key" [] cs.keyLen
  let clientIv ← ivFromLabel crypto cs cHsTraffic
  let serverKey ← expandLabel crypto cs sHsTraffic "key" [] cs.keyLen
  let serverIv ← ivFromLabel crypto cs sHsTraffic
  let clientFinishedKey ← expandLabel crypto cs cHsTraffic "finished" [] cs.hashLen
  let serverFinishedKey ← expandLabel crypto cs sHsTraffic "finished" [] cs.hashLen
  pure { clientKey, clientIv, clientFinishedKey, serverKey, serverIv, serverFinishedKey,
         masterSecret }

def deriveAppKeys (masterSecret transcriptHash : Bytes) : Except ProxyError AppKeys := do
  let cApp ← deriveSecret crypto cs masterSecret "c ap traffic" transcriptHash
  let sApp ← deriveSecret crypto cs masterSecret "s ap traffic" transcriptHash
  let clientKey ← expandLabel crypto cs cApp "key" [] cs.keyLen
  let clientIv ← ivFromLabel crypto cs cApp
  let serverKey ← expandLabel crypto cs sApp "key" [] cs.keyLen
  let serverIv ← ivFromLabel crypto cs sApp
  pure { cs, clientKey, clientIv, serverKey, serverIv }

/-! ### Records -/

def computeNonce (iv : Octets 12) (seq : UInt64) : Octets 12 :=
  ⟨iv.val.zipWith (· ^^^ ·) (List.replicate 4 0 ++ toBe 8 seq.toNat), by
    simp [iv.property, length_toBe]⟩

structure Record where
  header : Octets 5
  body : Bytes
  length_body : body.length = ofBe (header.val.drop 3)

def decryptAppRecord (key : Bytes) (iv : Octets 12) (seq : UInt64) (record : Record) :
    Except ProxyError (Bytes × UInt8) :=
  let nonce := computeNonce iv seq
  if key.length ≠ cs.keyLen then .error (.protocol ("bad " ++ cs.aeadName ++ " key len"))
  else
    match crypto.aeadOpen cs key nonce record.header.val record.body with
    | none => .error (.protocol (cs.aeadName ++ " decrypt failed"))
    | some plaintext =>
      match plaintext.getLast? with
      | none => .error (.protocol "decrypted TLS record is empty (no content-type byte)")
      | some innerType => .ok (plaintext.dropLast, innerType)

def encryptAppRecord (key : Bytes) (iv : Octets 12) (seq : UInt64) (innerPlaintext : Bytes)
    (innerType : UInt8) : Except ProxyError Bytes :=
  let msg := innerPlaintext ++ [innerType]
  let header := [rtApplicationData, 0x03, 0x03] ++ toBe 2 (msg.length + 16)
  let nonce := computeNonce iv seq
  if key.length ≠ cs.keyLen then .error (.protocol ("bad " ++ cs.aeadName ++ " key"))
  else .ok (header ++ crypto.aeadSeal cs key nonce header msg)

end KeySchedule

/-! ### Handshake messages -/

def u16At (bs : Bytes) (pos : ℕ) : ℕ := ofBe ((bs.drop pos).take 2)

def describeServerHelloExtension (extType : ℕ) (extData : Bytes) : String :=
  let len := extData.length
  if extType = 0x002b ∧ len = 2 then
    "supported_versions(len=" ++ toString len ++ ", selected=0x" ++
      hexPad 4 (u16At extData 0) ++ ")"
  else if extType = 0x0033 ∧ len ≥ 2 then
    if len = 2 then "key_share(len=2, selected_group=0x" ++ hexPad 4 (u16At extData 0) ++ ")"
    else if len ≥ 4 then
      "key_share(len=" ++ toString len ++ ", group=0x" ++ hexPad 4 (u16At extData 0) ++
        ", key_len=" ++ toString (u16At extData 2) ++ ")"
    else "key_share(len=" ++ toString len ++ ")"
  else "0x" ++ hexPad 4 extType ++ "(len=" ++ toString len ++ ")"

def keyShareOf (extData : Bytes) : Option (ℕ × Bytes) :=
  if extData.length ≥ 4 then
    let keyLen := u16At extData 2
    if extData.length ≥ 4 + keyLen then some (u16At extData 0, (extData.drop 4).take keyLen)
    else none
  else none

/-- The extension loop of `parse_server_hello`: the last usable key share and the summaries of the
extensions.  Each round takes at least four bytes. -/
def parseExtensions (hsBody : Bytes) (extEnd : ℕ) :
    ℕ → ℕ → Option (ℕ × Bytes) → List String → Option (ℕ × Bytes) × List String
  | 0, _, share, summaries => (share, summaries)
  | fuel + 1, pos, share, summaries =>
    if pos + 4 ≤ extEnd then
      let extType := u16At hsBody pos
      let extLen := u16At hsBody (pos + 2)
      let pos := pos + 4
      if pos + extLen > hsBody.length then (share, summaries)
      else
        let extData := (hsBody.drop pos).take extLen
        let share := if extType = 0x0033 then (keyShareOf extData).orElse fun _ => share else share
        parseExtensions hsBody extEnd fuel (pos + extLen) share
          (summaries ++ [describeServerHelloExtension extType extData])
    else (share, summaries)

/-- `parse_server_hello` behind the session id: cipher suite and extensions from `pos` on. -/
def parseServerHelloTail (hsBody : Bytes) (isHrr : Bool) (pos : ℕ) :
    Except ProxyError (CipherSuite × ℕ × Bytes) :=
  if pos + 3 > hsBody.length then .error (.protocol "ServerHello: truncated at cipher_suite")
  else do
    let rawCs := u16At hsBody pos
    let cs ← CipherSuite.fromU16 rawCs
    let pos := pos + 2 + 1
    if pos + 2 > hsBody.length then .error (.protocol "ServerHello: no extensions length")
    else
      let extTotal := u16At hsBody pos
      let pos := pos + 2
      let extEnd := min (pos + extTotal) hsBody.length
      match parseExtensions hsBody extEnd hsBody.length pos none [] with
      | (some (group, share), _) => .ok (cs, group, share)
      | (none, summaries) =>
        .error (.protocol ((if isHrr then "HelloRetryRequest" else "ServerHello") ++
          ": no usable key_share; cipher_suite=0x" ++ hexPad 4 rawCs ++ "; extensions=[" ++
          String.intercalate ", " summaries ++ "]"))

/-- `parse_server_hello`.  The slice of the random bytes panics on a body of fewer than 38
bytes. -/
def parseServerHello (hsBody : Bytes) : Except Stop (CipherSuite × ℕ × Bytes) :=
  match hsBody with
  | hsType :: _ :: _ :: _ :: _ =>
    if hsType ≠ hsServerHello then
      .error (.error (.protocol ("expected ServerHello (0x02), got 0x" ++ hexPad 2 hsType.toNat)))
    else if hsBody.length < 38 then .error .panic
    else
      let isHrr := (hsBody.drop 6).take 32 == helloRetryRequestRandom
      match hsBody.drop 38 with
      | [] => .error (.error (.protocol "ServerHello: truncated at session_id"))
      | sidLen :: _ => (parseServerHelloTail hsBody isHrr (38 + (1 + sidLen.toNat))).mapError .error
  | _ => .error (.error (.protocol "ServerHello body too short"))

def splitHandshakeMessagesAux : ℕ → Bytes → List (UInt8 × Bytes)
  | fuel + 1, hsType :: l₀ :: l₁ :: l₂ :: rest =>
    let hsLen := ofBe [l₀, l₁, l₂]
    if rest.length < hsLen then []
    else
      (hsType, hsType :: l₀ :: l₁ :: l₂ :: rest.take hsLen) ::
        splitHandshakeMessagesAux fuel (rest.drop hsLen)
  | _, _ => []

def splitHandshakeMessages (data : Bytes) : List (UInt8 × Bytes) :=
  splitHandshakeMessagesAux data.length data

end Blackwire.Reality
