import Blackwire.Lib.Aead
import Blackwire.Reality.Parser
import Mathlib.Data.List.DropRight

/-!
# REALITY authentication

What the client puts into its ClientHello, and what the server makes of it.  The client derives a
key from its exchange with the long-term key of the server, and hides an encrypted token in the
session id; the associated data is the ClientHello with a session id of zeros.
-/

namespace Blackwire.Reality

open Tls List Bytes

/-! ### Primitives -/

structure RealityCrypto where
  x25519Public : Octets 32 → Octets 32
  x25519 : Octets 32 → Octets 32 → Octets 32
  hkdfSha256 : Bytes → Bytes → Bytes → Option (Octets 32)
  aes256Gcm : Aead (Octets 32)

/-- The laws of X25519 and of AES-GCM that the handshake rests on. -/
structure RealityCrypto.Lawful (crypto : RealityCrypto) : Prop where
  agrees : ∀ a b, crypto.x25519 a (crypto.x25519Public b) = crypto.x25519 b (crypto.x25519Public a)
  opens : crypto.aes256Gcm.Opens 16 16
  keyStream : ∀ key nonce aad aad' ct msg msg',
    crypto.aes256Gcm.decrypt key nonce aad ct = some msg →
    crypto.aes256Gcm.decrypt key nonce aad' ct = some msg' → msg = msg'

def sampleCrypto : RealityCrypto where
  x25519Public secret := secret
  x25519 secret peer := ⟨List.zipWith (· ^^^ ·) secret.val peer.val, by
    rw [length_zipWith, secret.property, peer.property, Nat.min_self]⟩
  hkdfSha256 _ material _ := if h : material.length = 32 then some ⟨material, h⟩ else none
  aes256Gcm := .tagging fun key _ _ _ => slice key.val 0 16 (by rw [key.property]; omega)

theorem sampleCrypto_lawful : sampleCrypto.Lawful where
  agrees a b := by
    refine Subtype.ext ?_
    exact zipWith_comm_of_comm UInt8.xor_comm
  opens := Aead.tagging_opens _ 16
  keyStream key nonce aad aad' ct msg msg' h h' := by
    simp only [sampleCrypto, Aead.tagging] at h h'
    split_ifs at h h'
    exact (Option.some.inj h).symm.trans (Option.some.inj h')

def realityHkdfInfo : Bytes := utf8 "REALITY"
def sessionIdOffsetInHandshakeBody : ℕ := 39
def maxTimeDiffSecs : ℤ := 120

def nonceOf (random : Octets 32) : Octets 12 :=
  slice random.val 20 12 (by rw [random.property])

variable (crypto : RealityCrypto) (shortId : Bytes)

/-! ### The client -/

structure RealityClientConfig where
  serverPublicKey : Octets 32
  shortId : Bytes
  sni : String

variable (config : RealityClientConfig)

structure DialDraws where
  clientSecret : Octets 32
  secp256r1Public : Bytes
  random : Octets 32
  greaseCipher : Fin 16
  greaseExt : Fin 16

/-- The plaintext of `encrypt_reality_token`: a version of zeros, the time on four bytes, and at
most eight bytes of the short id, filled up with zeros. -/
def realityToken (now : ℕ) : Bytes :=
  [0, 0, 0, 0] ++ (toBe 4 now ++
    (shortId.take 8 ++ List.replicate (8 - min shortId.length 8) 0))

def encryptRealityToken (random authKey : Octets 32) (now : ℕ) (aad : Bytes) :
    Except ProxyError (Octets 32) :=
  match crypto.aes256Gcm.encrypt authKey (nonceOf random) aad (realityToken shortId now) with
  | none => .error (.protocol "REALITY token encryption failed")
  | some output =>
    if h : output.length = 32 then .ok ⟨output, h⟩
    else .error (.protocol "REALITY token encryption length mismatch")

def helloChoices (draws : DialDraws) : HelloChoices where
  sni := config.sni
  greaseCipher := draws.greaseCipher
  greaseExt := draws.greaseExt
  x25519Pub := crypto.x25519Public draws.clientSecret
  secp256r1Pub := some draws.secp256r1Public

def zeroSessionId : Octets 32 := .replicate 32 0

/-- `RealityClient::dial` up to the write of the ClientHello: what is written, and the key. -/
def dialHello (draws : DialDraws) (now : ℕ) : Except ProxyError (Bytes × Octets 32) :=
  let authSharedSecret := crypto.x25519 draws.clientSecret config.serverPublicKey
  match crypto.hkdfSha256 (draws.random.val.take 20) authSharedSecret.val realityHkdfInfo with
  | none => .error (.protocol "HKDF expand failed")
  | some authKey => do
    let hello := build .chrome131 (helloChoices crypto config draws) draws.random zeroSessionId
    let aad := hello.drop 5
    let token ← encryptRealityToken crypto config.shortId draws.random authKey now aad
    let sidStart := 5 + sessionIdOffsetInHandshakeBody
    .ok (hello.take sidStart ++ (token.val ++ hello.drop (sidStart + 32)), authKey)

/-! ### The server -/

structure RealityServerConfig where
  privateKey : Octets 32
  shortIds : List Bytes
  maxTimeDiff : ℤ

def RealityServerConfig.new (config : RealityServerConfig) : RealityServerConfig :=
  if config.maxTimeDiff ≤ 0 then { config with maxTimeDiff := maxTimeDiffSecs } else config

variable (config : RealityServerConfig) (fields : ClientHelloFields) (server : RealityServerConfig)

@[simp] theorem RealityServerConfig.privateKey_new : config.new.privateKey = config.privateKey := by
  rw [new]
  split_ifs <;> rfl

@[simp] theorem RealityServerConfig.shortIds_new : config.new.shortIds = config.shortIds := by
  rw [new]
  split_ifs <;> rfl

def realityAuthPeerPublicKeysOrFallback (handshakeBody : Bytes) : List (Octets 32) :=
  let peerKeys := realityAuthPeerPublicKeys handshakeBody
  if peerKeys.isEmpty then peerKeys ++ [fields.x25519KeyShare] else peerKeys

def deriveRealityAuthKey (privateKey peerPub clientRandom : Octets 32) : Option (Octets 32) :=
  crypto.hkdfSha256 (clientRandom.val.take 20) (crypto.x25519 privateKey peerPub).val
    realityHkdfInfo

def xrayZeroedSessionIdAad (handshakeBody : Bytes) : Except String Bytes :=
  let sidStart := sessionIdOffsetInHandshakeBody
  if handshakeBody.length < sidStart + 32 then
    .error "handshake body too short to contain session_id"
  else
    .ok (handshakeBody.take sidStart ++ (List.replicate 32 0 ++ handshakeBody.drop (sidStart + 32)))

def xrayPlaintextSessionIdAad (handshakeBody plaintext16 : Bytes) : Except String Bytes :=
  let sidStart := sessionIdOffsetInHandshakeBody
  if handshakeBody.length < sidStart + 32 then
    .error "handshake body too short to contain session_id"
  else if plaintext16.length ≠ 16 then .error "REALITY token plaintext must be 16 bytes"
  else
    .ok (handshakeBody.take sidStart ++ (plaintext16 ++ (List.replicate 16 0 ++
      handshakeBody.drop (sidStart + 32))))

def stripZeroPadding : Bytes := shortId.rdropWhile (· == 0)

def validateRealityToken (plaintext : Bytes) (allowedShortIds : List Bytes) (maxTimeDiff now : ℤ) :
    Except String Unit :=
  if plaintext.length < 16 then
    .error ("decrypted token too short: " ++ toString plaintext.length ++ " bytes")
  else
    let ts : ℤ := ofBe ((plaintext.drop 4).take 4)
    let shortId := (plaintext.drop 8).take 8
    let diff := |now - ts|
    if maxTimeDiff < diff then
      .error ("timestamp skew too large: " ++ toString diff ++ "s (max " ++ toString maxTimeDiff ++
        "s)")
    else if stripZeroPadding shortId ∉ allowedShortIds then .error "short_id not in allowed list"
    else .ok ()

def realityAuthRoundtripMatches (authKey : Octets 32) (aad plaintext : Bytes) : Bool :=
  if plaintext.length < 16 then false
  else crypto.aes256Gcm.encrypt authKey (nonceOf fields.random) aad (plaintext.take 16) ==
    some fields.sessionId.val

def decryptAndValidateRealityToken (authKey : Octets 32) (aad : Bytes)
    (shortIds : List Bytes) (maxTimeDiff now : ℤ) : Option Bytes :=
  match crypto.aes256Gcm.decrypt authKey (nonceOf fields.random) aad fields.sessionId.val with
  | none => none
  | some plaintext =>
    match validateRealityToken plaintext shortIds maxTimeDiff now with
    | .error _ => none
    | .ok () =>
      if realityAuthRoundtripMatches crypto fields authKey aad plaintext then some plaintext
      else none

def versionPrefixes : List (Bytes) := [[1, 8, 1, 0], [26, 3, 27, 0], [1, 8, 0, 0], [0, 0, 0, 0]]

def candidateRealityTokens (shortIds : List Bytes) (maxTimeDiff now : ℤ) : List Bytes :=
  let window := min (max maxTimeDiff 1) 600
  shortIds.flatMap fun shortId =>
    let sid8 := shortId.take 8 ++ List.replicate (8 - min shortId.length 8) 0
    versionPrefixes.flatMap fun version =>
      let b3End := if version.take 3 = [1, 8, 1] then 1 else (version.getD 3 0).toNat
      (List.range (b3End + 1)).flatMap fun b3 =>
        (List.range (2 * window.toNat + 1)).map fun dt =>
          let ts := (now + ((dt : ℤ) - window)) % 2 ^ 32
          version.take 3 ++ (UInt8.ofNat b3 :: (toBe 4 ts.toNat ++ sid8))

def candidateAads (now : ℤ) (zeroedAad handshakeBody : Bytes) : List Bytes :=
  zeroedAad :: handshakeBody ::
    (candidateRealityTokens server.shortIds server.maxTimeDiff now).filterMap fun plaintext16 =>
      (xrayPlaintextSessionIdAad handshakeBody plaintext16).toOption

def deriveAuthKey (now : ℤ) (fields : ClientHelloFields)
    (handshakeBody : Bytes) : Except String (Octets 32) := do
  let peerKeys := realityAuthPeerPublicKeysOrFallback fields handshakeBody
  let zeroedAad ← xrayZeroedSessionIdAad handshakeBody
  let found := peerKeys.findSome? fun peerPub =>
    match deriveRealityAuthKey crypto server.privateKey peerPub fields.random with
    | none => none
    | some authKey =>
      if (candidateAads server now zeroedAad handshakeBody).any fun aad =>
          (decryptAndValidateRealityToken crypto fields authKey aad server.shortIds
            server.maxTimeDiff now).isSome then
        some authKey
      else none
  match found with
  | some authKey => .ok authKey
  | none => .error "REALITY authentication failed"

/-! ### Tokens -/

section Token

variable (shortId : Bytes) (now : ℕ)

@[simp] theorem length_realityToken : (realityToken shortId now).length = 16 := by
  simp only [realityToken, length_append, length_cons, length_nil,
    length_toBe, length_take, length_replicate]
  omega

theorem time_realityToken : ofBe (((realityToken shortId now).drop 4).take 4) = now % 2 ^ 32 := by
  have hdrop : (realityToken shortId now).drop 4 = toBe 4 now ++
      (shortId.take 8 ++ List.replicate (8 - min shortId.length 8) 0) := rfl
  rw [hdrop, take_left' (length_toBe 4 now), ofBe_toBe_mod]
  norm_num

theorem shortId_realityToken : ((realityToken shortId now).drop 8).take 8 =
    shortId.take 8 ++ List.replicate (8 - min shortId.length 8) 0 := by
  have hdrop : (realityToken shortId now).drop 8 =
      shortId.take 8 ++ List.replicate (8 - min shortId.length 8) 0 := by
    exact drop_left' (length_toBe 4 now)
  rw [hdrop]
  refine take_of_length_le ?_
  rw [length_append, length_take, length_replicate]
  omega

theorem stripZeroPadding_append (n : ℕ) :
    stripZeroPadding (shortId ++ List.replicate n 0) = stripZeroPadding shortId := by
  induction n with
  | zero => rw [replicate_zero, append_nil]
  | succ n ih =>
    rw [replicate_succ', ← append_assoc, stripZeroPadding, rdropWhile_concat_pos _ _ _ (by rfl)]
    exact ih

variable {shortId}

theorem validateRealityToken_eq_ok (hshort : shortId.length ≤ 8) (allowed : List Bytes)
    (maxTimeDiff serverNow : ℤ) :
    validateRealityToken (realityToken shortId now) allowed maxTimeDiff serverNow = .ok () ↔
      stripZeroPadding shortId ∈ allowed ∧
        |serverNow - ((now % 2 ^ 32 : ℕ) : ℤ)| ≤ maxTimeDiff := by
  rw [validateRealityToken, time_realityToken, shortId_realityToken,
    take_of_length_le hshort]
  dsimp only
  rw [stripZeroPadding_append]
  generalize ((now % 2 ^ 32 : ℕ)) = ts
  by_cases hclock : maxTimeDiff < |serverNow - ts|
  · rw [if_pos hclock]
    simp [not_le.2 hclock]
  · rw [if_neg hclock]
    by_cases hmem : stripZeroPadding shortId ∈ allowed
    · simp [hmem, not_lt.1 hclock]
    · simp [hmem]

end Token

/-! ### Agreement -/

variable {crypto} {authKey : Octets 32} {server : RealityServerConfig}

theorem patch_build (c : HelloChoices) (random token : Octets 32) :
    (build .chrome131 c random zeroSessionId).take 44 ++
        (token.val ++ (build .chrome131 c random zeroSessionId).drop 76) =
      build .chrome131 c random token := by
  have hbuild : ∃ front : Bytes, front.length = 44 ∧ ∀ sessionId : Octets 32,
      build .chrome131 c random sessionId =
        front ++ (sessionId.val ++ behindSessionId .chrome131 c) := by
    refine ⟨0x16 :: 0x03 :: 0x01 :: (toBe 2 (71 + (behindSessionId .chrome131 c).length) ++
      helloFront .chrome131 c random), ?_, ?_⟩
    · simp
    · intro sessionId
      have hlen : (buildHandshake .chrome131 c random sessionId).length =
          71 + (behindSessionId .chrome131 c).length := by
        rw [buildHandshake_eq, length_append, length_append, length_helloFront]
        omega
      rw [build, hlen, buildHandshake_eq]
      simp
  obtain ⟨front, hfront, heq⟩ := hbuild
  have hbehind : (front ++ (zeroSessionId.val ++ behindSessionId .chrome131 c)).drop 76 =
      behindSessionId .chrome131 c := by
    rw [← append_assoc]
    refine drop_left' ?_
    rw [length_append, hfront, zeroSessionId.property]
  rw [heq, take_left' hfront, hbehind, heq]

theorem encryptRealityToken_ok {shortId aad : Bytes} {random token : Octets 32} {now : ℕ}
    (h : encryptRealityToken crypto shortId random authKey now aad = .ok token) :
    crypto.aes256Gcm.encrypt authKey (nonceOf random) aad (realityToken shortId now) =
      some token.val := by
  unfold encryptRealityToken at h
  cases hseal : crypto.aes256Gcm.encrypt authKey (nonceOf random) aad
      (realityToken shortId now) with
  | none =>
    rw [hseal] at h
    cases h
  | some output =>
    rw [hseal] at h
    dsimp only at h
    split_ifs at h with hlen
    cases h
    rfl

theorem dialHello_spec {config : RealityClientConfig} {draws : DialDraws} {now : ℕ} {hello : Bytes}
    (h : dialHello crypto config draws now = .ok (hello, authKey)) :
    ∃ token : Octets 32,
      crypto.hkdfSha256 (draws.random.val.take 20)
          (crypto.x25519 draws.clientSecret config.serverPublicKey).val realityHkdfInfo =
        some authKey ∧
      crypto.aes256Gcm.encrypt authKey (nonceOf draws.random)
          (buildHandshake .chrome131 (helloChoices crypto config draws) draws.random zeroSessionId)
          (realityToken config.shortId now) = some token.val ∧
      hello = build .chrome131 (helloChoices crypto config draws) draws.random token := by
  have haad : (build .chrome131 (helloChoices crypto config draws) draws.random
      zeroSessionId).drop 5 = buildHandshake .chrome131 (helloChoices crypto config draws)
        draws.random zeroSessionId := drop_left' (length_toBe 2 _)
  unfold dialHello at h
  dsimp only at h
  cases hkdf : crypto.hkdfSha256 (draws.random.val.take 20)
      (crypto.x25519 draws.clientSecret config.serverPublicKey).val realityHkdfInfo with
  | none =>
    rw [hkdf] at h
    cases h
  | some key =>
    rw [hkdf, haad] at h
    dsimp only at h
    cases hseal : encryptRealityToken crypto config.shortId draws.random key now
        (buildHandshake .chrome131 (helloChoices crypto config draws) draws.random
          zeroSessionId) with
    | error e =>
      rw [hseal] at h
      cases h
    | ok token =>
      rw [hseal] at h
      cases h
      exact ⟨token, rfl, encryptRealityToken_ok hseal, patch_build _ _ token⟩

theorem xrayZeroedSessionIdAad_build (c : HelloChoices) (random token : Octets 32) :
    xrayZeroedSessionIdAad (buildHandshake .chrome131 c random token) =
      .ok (buildHandshake .chrome131 c random zeroSessionId) := by
  have hfront : (helloFront .chrome131 c random).length = sessionIdOffsetInHandshakeBody :=
    length_helloFront .chrome131 c random
  have hdrop : (buildHandshake .chrome131 c random token).drop
      (sessionIdOffsetInHandshakeBody + 32) = behindSessionId .chrome131 c := by
    rw [buildHandshake_eq, ← append_assoc]
    refine drop_left' ?_
    rw [length_append, hfront, token.property]
  have hlen : ¬ (buildHandshake .chrome131 c random token).length <
      sessionIdOffsetInHandshakeBody + 32 := by
    rw [buildHandshake_eq, length_append, length_append]
    omega
  rw [xrayZeroedSessionIdAad, if_neg hlen, hdrop, buildHandshake_eq, take_left' hfront,
    buildHandshake_eq]
  rfl

theorem decryptAndValidate_isSome {fields : ClientHelloFields} {aad : Bytes} {shortIds : List Bytes}
    {maxTimeDiff now : ℤ} :
    (decryptAndValidateRealityToken crypto fields authKey aad shortIds maxTimeDiff now).isSome ↔
      ∃ plaintext,
        crypto.aes256Gcm.decrypt authKey (nonceOf fields.random) aad fields.sessionId.val =
          some plaintext ∧
        validateRealityToken plaintext shortIds maxTimeDiff now = .ok () ∧
        realityAuthRoundtripMatches crypto fields authKey aad plaintext := by
  unfold decryptAndValidateRealityToken
  cases hopen : crypto.aes256Gcm.decrypt authKey (nonceOf fields.random) aad
      fields.sessionId.val with
  | none => simp
  | some plaintext =>
    cases hvalid : validateRealityToken plaintext shortIds maxTimeDiff now with
    | error e => simp [hvalid]
    | ok _ =>
      by_cases hround : realityAuthRoundtripMatches crypto fields authKey aad plaintext <;>
        simp [hround, hvalid]

theorem deriveAuthKey_build (hlawful : crypto.Lawful) {c : HelloChoices} {random token : Octets 32}
    {msg sni : Bytes} {now : ℤ} (hfits : (buildHandshake .chrome131 c random token).length < 65536)
    (hkdf : deriveRealityAuthKey crypto server.privateKey c.x25519Pub random = some authKey)
    (hmsg : msg.length = 16) (hseal : crypto.aes256Gcm.encrypt authKey (nonceOf random)
      (buildHandshake .chrome131 c random zeroSessionId) msg = some token.val) :
    deriveAuthKey crypto server now ⟨random, token, c.x25519Pub, sni⟩
        (buildHandshake .chrome131 c random token) = .ok authKey ↔
      validateRealityToken msg server.shortIds server.maxTimeDiff now = .ok () := by
  obtain ⟨ct, hct, -, hopen⟩ := hlawful.opens authKey (nonceOf random)
    (buildHandshake .chrome131 c random zeroSessionId) msg hmsg.le
  obtain rfl : ct = token.val := by
    rw [hseal] at hct
    exact (Option.some.inj hct).symm
  have hany : ((candidateAads server now (buildHandshake .chrome131 c random zeroSessionId)
        (buildHandshake .chrome131 c random token)).any fun aad =>
      (decryptAndValidateRealityToken crypto ⟨random, token, c.x25519Pub, sni⟩ authKey aad
        server.shortIds server.maxTimeDiff now).isSome) = true ↔
      validateRealityToken msg server.shortIds server.maxTimeDiff now = .ok () := by
    rw [any_eq_true]
    constructor
    · rintro ⟨aad, -, hsome⟩
      obtain ⟨plaintext, hplain, hvalid, -⟩ := decryptAndValidate_isSome.1 hsome
      -- whatever the associated data, the plaintext is the token
      rwa [hlawful.keyStream _ _ _ _ _ _ _ hopen hplain]
    · intro hvalid
      refine ⟨_, mem_cons_self, decryptAndValidate_isSome.2 ⟨msg, hopen, hvalid, ?_⟩⟩
      rw [realityAuthRoundtripMatches, if_neg (by omega), take_of_length_le hmsg.le, hseal]
      exact beq_self_eq_true _
  have hpeers : realityAuthPeerPublicKeysOrFallback ⟨random, token, c.x25519Pub, sni⟩
      (buildHandshake .chrome131 c random token) = [c.x25519Pub] := by
    rw [realityAuthPeerPublicKeysOrFallback, realityAuthPeerPublicKeys_build hfits]
    rfl
  rw [deriveAuthKey, xrayZeroedSessionIdAad_build, hpeers, ← hany]
  simp only [bind, Except.bind, List.findSome?_cons, List.findSome?_nil, hkdf]
  split_ifs with h
  · exact ⟨fun _ => h, fun _ => rfl⟩
  · refine ⟨fun hok => ?_, fun hsome => absurd hsome h⟩
    cases hok

/-- **Agreement of the client and the server.**  The server finds the key of the client in its
ClientHello if and only if it allows the short id without its trailing zeros, and the time of the
client, cut to 32 bits, is close enough to its own. -/
theorem deriveAuthKey_dialHello (hlawful : crypto.Lawful) {client : RealityClientConfig}
    {draws : DialDraws} {clientNow : ℕ} (serverNow : ℤ) {hello : Bytes}
    (hkey : client.serverPublicKey = crypto.x25519Public server.privateKey)
    (hshort : client.shortId.length ≤ 8)
    (hdial : dialHello crypto client draws clientNow = .ok (hello, authKey)) :
    ∃ handshake fields,
      hello = 0x16 :: 0x03 :: 0x01 :: (toBe 2 handshake.length ++ handshake) ∧
      (handshake.length < 65536 → parseClientHello handshake = .ok fields ∧
        (deriveAuthKey crypto server serverNow fields handshake = .ok authKey ↔
          stripZeroPadding client.shortId ∈ server.shortIds ∧
            |serverNow - ((clientNow % 2 ^ 32 : ℕ) : ℤ)| ≤ server.maxTimeDiff)) := by
  obtain ⟨token, hkdf, hseal, hhello⟩ := dialHello_spec hdial
  have hkdf' : deriveRealityAuthKey crypto server.privateKey
      (helloChoices crypto client draws).x25519Pub draws.random = some authKey := by
    rw [deriveRealityAuthKey, helloChoices, hlawful.agrees, ← hkey]
    exact hkdf
  refine ⟨_, _, hhello, fun hfits => ⟨parseClientHello_build hfits, ?_⟩⟩
  rw [← validateRealityToken_eq_ok clientNow hshort]
  exact deriveAuthKey_build hlawful hfits hkdf' (length_realityToken _ _) hseal

end Blackwire.Reality
