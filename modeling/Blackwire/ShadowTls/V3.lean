import Blackwire.Common.Address

/-!
# ShadowTLS v3 frames

The frames of `shadowtls/v3.rs`: TLS ApplicationData records whose payload begins with a four-byte
tag.  A tag is the beginning of the HMAC of everything that its direction has carried so far, so the
state of an HMAC is the key and the bytes it has been fed.

* `taintBackendApplicationData` makes such a record.

HMAC-SHA1 and SHA-256 are parameters.
-/

namespace Blackwire.ShadowTls

open List Bytes

/-! ### Constants -/

def tlsHeaderLen : ℕ := 5
def tlsApplicationData : UInt8 := 0x17
def tagLen : ℕ := 4
def maxTlsPlaintext : ℕ := 16384

structure ShadowCrypto where
  hmacSha1 : Bytes → Bytes → Octets 20
  sha256 : Bytes → Octets 32

def sampleCrypto : ShadowCrypto where
  hmacSha1 _ msg := ⟨(msg.reverse ++ List.replicate 20 0).take 20, by simp⟩
  sha256 _ := .replicate 32 0

/-! ### Records -/

def encodeTlsRecord (recordType : UInt8) (version : Octets 2) (payload : Bytes) : Bytes :=
  recordType :: version.val ++ toBe 2 payload.length ++ payload

def tls12 : Octets 2 := ⟨toBe 2 0x0303, length_toBe 2 _⟩

def applicationPayload (record : Bytes) : Except ProxyError Bytes :=
  if record.length < tlsHeaderLen then .error (.protocol "ShadowTLS v3 TLS record too short")
  else
    let recordType := record.getD 0 0
    let len := ofBe ((record.drop 3).take 2)
    if recordType ≠ tlsApplicationData then
      .error (.protocol
        ("ShadowTLS v3 expected ApplicationData record, got " ++ toString recordType))
    else if record.length < tlsHeaderLen + len then
      .error (.protocol "ShadowTLS v3 truncated ApplicationData record")
    else .ok ((record.drop tlsHeaderLen).take len)

theorem applicationPayload_encode (version : Octets 2) {payload : Bytes}
    (h : payload.length < 65536) :
    applicationPayload (encodeTlsRecord tlsApplicationData version payload) = .ok payload := by
  obtain ⟨_ | ⟨v₀, _ | ⟨v₁, _ | _⟩⟩, hversion⟩ := version <;> simp at hversion
  have hlen : ofBe (toBe 2 payload.length) = payload.length := ofBe_toBe (by simpa using h)
  have htake : (toBe 2 payload.length ++ payload).take 2 = toBe 2 payload.length :=
    take_left' (length_toBe 2 _)
  have hdrop : (toBe 2 payload.length ++ payload).drop 2 = payload := drop_left' (length_toBe 2 _)
  simp only [applicationPayload, encodeTlsRecord, tlsHeaderLen, cons_append, nil_append,
    drop_succ_cons, drop_zero, htake, hdrop, hlen, length_cons, length_append,
    length_toBe, getD_cons_zero, ne_eq, not_true_eq_false, if_false]
  rw [if_neg (by omega), if_neg (by omega), take_length]

/-! ### Rolling tags -/

structure ShadowHmac where
  key : Bytes
  input : Bytes

def ShadowHmac.update (mac : ShadowHmac) (data : Bytes) : ShadowHmac :=
  { mac with input := mac.input ++ data }

variable (crypto : ShadowCrypto)

def firstTag (mac : ShadowHmac) : Octets 4 :=
  slice (crypto.hmacSha1 mac.key mac.input).val 0 4
    (by rw [(crypto.hmacSha1 mac.key mac.input).property]; decide)

def nextTag (mac : ShadowHmac) (data : Bytes) : Octets 4 := firstTag crypto (mac.update data)

def residualHandshakeMac (psk : Bytes) (serverRandom : Octets 32) : ShadowHmac :=
  ShadowHmac.update ⟨psk, []⟩ serverRandom.val

/-! ### Encoder -/

structure V3FrameEncoder where
  mac : ShadowHmac

namespace V3FrameEncoder

def new (psk : Bytes) (serverRandom : Octets 32) (direction : UInt8) : V3FrameEncoder :=
  ⟨(ShadowHmac.update ⟨psk, []⟩ serverRandom.val).update [direction]⟩

def clientToServer (psk : Bytes) (serverRandom : Octets 32) : V3FrameEncoder :=
  new psk serverRandom 0x43

def serverToClient (psk : Bytes) (serverRandom : Octets 32) : V3FrameEncoder :=
  new psk serverRandom 0x53

def encodeApplicationData (encoder : V3FrameEncoder) (plaintext : Bytes) :
    Except ProxyError Bytes × V3FrameEncoder :=
  if maxTlsPlaintext < plaintext.length then
    (.error (.protocol ("ShadowTLS v3 plaintext too large: " ++ toString plaintext.length)),
      encoder)
  else
    let tag := nextTag crypto encoder.mac plaintext
    (.ok (encodeTlsRecord tlsApplicationData tls12 (tag.val ++ plaintext)),
      ⟨(encoder.mac.update plaintext).update tag.val⟩)

end V3FrameEncoder

/-! ### Decoder -/

inductive V3FrameKind
  | residualHandshake
  | data

structure V3FrameDecoder where
  dataMac : ShadowHmac
  residualMac : Option ShadowHmac

namespace V3FrameDecoder

def clientToServer (psk : Bytes) (serverRandom : Octets 32) : V3FrameDecoder :=
  ⟨(V3FrameEncoder.clientToServer psk serverRandom).mac, none⟩

def serverToClient (psk : Bytes) (serverRandom : Octets 32) : V3FrameDecoder :=
  ⟨(V3FrameEncoder.serverToClient psk serverRandom).mac,
    some (residualHandshakeMac psk serverRandom)⟩

/-- The end of `decode_application_data`: the tag is compared with that of the data direction. -/
def decodeData (decoder : V3FrameDecoder) (candidate data : Bytes) :
    Except ProxyError (V3FrameKind × Bytes) × V3FrameDecoder :=
  if (nextTag crypto decoder.dataMac data).val ≠ candidate then (.error .authFailed, decoder)
  else (.ok (.data, data), ⟨(decoder.dataMac.update data).update candidate, none⟩)

def decodeApplicationData (decoder : V3FrameDecoder) (record : Bytes) :
    Except ProxyError (V3FrameKind × Bytes) × V3FrameDecoder :=
  match applicationPayload record with
  | .error e => (.error e, decoder)
  | .ok payload =>
    if payload.length < tagLen then
      (.error (.protocol "ShadowTLS v3 ApplicationData frame too short"), decoder)
    else
      let candidate := payload.take tagLen
      let data := payload.drop tagLen
      match decoder.residualMac with
      | some mac =>
        -- residue of the handshake is recognised first, and dropped
        if (nextTag crypto mac data).val = candidate then
          (.ok (.residualHandshake, []), { decoder with residualMac := some (mac.update data) })
        else decodeData crypto decoder candidate data
      | none => decodeData crypto decoder candidate data

end V3FrameDecoder

/-! ### Residue of the handshake -/

def xorWithHandshakeMask (data psk : Bytes) (serverRandom : Octets 32) : Bytes :=
  let mask := (crypto.sha256 (psk ++ serverRandom.val)).val
  data.zipIdx.map fun byteIdx => byteIdx.1 ^^^ mask.getD (byteIdx.2 % mask.length) 0

def taintBackendApplicationData (residualMac : ShadowHmac) (psk : Bytes) (serverRandom : Octets 32)
    (record : Bytes) : Except ProxyError Bytes × ShadowHmac :=
  match applicationPayload record with
  | .error e => (.error e, residualMac)
  | .ok payload =>
    let processed := xorWithHandshakeMask crypto payload psk serverRandom
    let tag := nextTag crypto residualMac processed
    (.ok (encodeTlsRecord tlsApplicationData tls12 (tag.val ++ processed)),
      residualMac.update processed)

end Blackwire.ShadowTls
