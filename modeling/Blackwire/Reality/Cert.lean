import Blackwire.Common.Address

/-!
# The REALITY certificate

`parse_certificate_message_der`, `ed25519_public_key_from_cert`, `signature_matches_go_hmac` and
`verify_reality_cert_hmac` of `reality/cert.rs`.  HMAC-SHA512 and the parser of X.509 certificates
are parameters.
-/

namespace Blackwire.Reality

structure X509Certificate where
  algorithm : String
  subjectPublicKey : Bytes
  signatureValue : Bytes

structure CertCrypto where
  hmacSha512 : Octets 32 → Octets 32 → Octets 64
  fromDer : Bytes → Except String X509Certificate

def hsCertificate : UInt8 := 0x0b

def readU24 (bytes : Bytes) : Except ProxyError ℕ :=
  if bytes.length < 3 then .error (.tls "TLS uint24: truncated")
  else .ok (Bytes.ofBe (bytes.take 3))

def leafCertificate (msg : Bytes) (pos listEnd : ℕ) : Except ProxyError Bytes :=
  if pos + 3 > listEnd then .error (.tls "TLS Certificate message: empty certificate_list")
  else do
    let certDataLen ← readU24 ((msg.drop pos).take 3)
    let pos := pos + 3
    if pos + certDataLen > listEnd then
      .error (.tls "TLS Certificate message: cert_data truncated")
    else .ok ((msg.drop pos).take certDataLen)

def parseCertificateMessageDer (msg : Bytes) : Except ProxyError Bytes :=
  if msg.head? ≠ some hsCertificate then .error (.tls "TLS Certificate message: bad handshake type")
  else if msg.length < 4 + 1 + 3 + 3 then .error (.tls "TLS Certificate message: truncated header")
  else
    let ctxLen := (msg.getD 4 0).toNat
    let pos := 4 + 1
    if pos + ctxLen + 3 > msg.length then .error (.tls "TLS Certificate message: truncated context")
    else do
      let pos := pos + ctxLen
      let listLen ← readU24 ((msg.drop pos).take 3)
      let pos := pos + 3
      if pos + listLen > msg.length then
        .error (.tls "TLS Certificate message: certificate_list truncated")
      else leafCertificate msg pos (pos + listLen)

def ed25519PublicKeyFromCert (cert : X509Certificate) : Except ProxyError (Octets 32) :=
  if cert.algorithm ≠ "1.3.101.112" then
    .error (.tls "REALITY cert: expected ed25519 subject public key")
  else
    let key := cert.subjectPublicKey
    if h : key.length = 32 then .ok ⟨key, h⟩
    else if h : key.length = 33 ∧ key.head? = some 0 then
      .ok ⟨key.drop 1, by rw [List.length_drop, h.1]⟩
    else
      .error (.tls ("REALITY cert: unexpected ed25519 SPKI length " ++ toString key.length))

def signatureMatchesGoHmac (signatureField : Bytes) (hmac : Octets 64) : Bool :=
  let n := signatureField.length
  if n = 64 then signatureField == hmac.val
  else if n = 65 ∧ signatureField.head? = some 0 then signatureField.drop 1 == hmac.val
  else if n > 64 then signatureField.drop (n - 64) == hmac.val
  else false

variable (crypto : CertCrypto)

def realityCertHmac (authKey ed25519PublicKey : Octets 32) : Octets 64 :=
  crypto.hmacSha512 authKey ed25519PublicKey

def verifyRealityCertHmac (authKey : Octets 32) (certDer : Bytes) : Except ProxyError Unit :=
  match crypto.fromDer certDer with
  | .error e => .error (.tls ("REALITY cert parse: " ++ e))
  | .ok cert => do
    let pubkey ← ed25519PublicKeyFromCert cert
    if signatureMatchesGoHmac cert.signatureValue (realityCertHmac crypto authKey pubkey) then
      .ok ()
    else
      .error (.tls "REALITY cert signature does not match HMAC-SHA512(auth_key, public_key)")

/-- A `Certificate` message whose leaf certificate passes the check under the auth key. -/
def PassesHmac (authKey : Octets 32) (msg : Bytes) : Prop :=
  ∃ certDer, parseCertificateMessageDer msg = .ok certDer ∧
    verifyRealityCertHmac crypto authKey certDer = .ok ()

end Blackwire.Reality
