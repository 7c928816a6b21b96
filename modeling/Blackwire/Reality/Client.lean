import Blackwire.Reality.Tls13

/-!
# Completing the REALITY handshake

`complete_tls13_handshake` of `reality/tls13.rs`: the client reads the ServerHello, derives the
handshake keys, decrypts the server's messages until it has seen a Finished, and answers.  A
Certificate message is checked against the auth key when it arrives; nothing checks that one has
arrived.
-/

namespace Blackwire.Reality

open List

variable {κ : Type} (crypto : TlsCrypto κ) {records : List Record}

/-! ### The handshake -/

abbrev HsMessage := UInt8 × Bytes

structure HsState where
  transcript : Bytes
  srvSeq : UInt64
  foundFinished : Bool

def keyAgreement (x25519Secret : Octets 32) (p256Secret : Option κ) (group : ℕ) (share : Bytes) :
    Except ProxyError Bytes :=
  if group = 29 then
    if h : share.length = 32 then .ok (crypto.x25519 x25519Secret ⟨share, h⟩).val
    else
      .error (.protocol ("ServerHello x25519 key_share length mismatch: " ++ toString share.length))
  else if group = 23 then
    match p256Secret with
    | none => .error (.protocol "ServerHello selected secp256r1 but client has no P-256 key share")
    | some secret =>
      match crypto.p256 secret share with
      | .ok shared => .ok shared
      | .error e => .error (.protocol ("invalid secp256r1 ServerHello key_share: " ++ e))
  else .error (.protocol ("unsupported ServerHello key_share group 0x" ++ hexPad 4 group))

def sharedSecret (secret : Bytes) : Except ProxyError (Octets 32) :=
  if h : secret.length = 32 then .ok ⟨secret, h⟩
  else .error (.protocol "TLS key agreement secret length mismatch")

/-- The keys of a handshake whose ServerHello has been read, with the transcript so far. -/
structure Started where
  cs : CipherSuite
  keys : HsKeys
  transcript : Bytes
  records : List Record

def startHandshake (records : List Record) (clientHello : Bytes) (x25519Secret : Octets 32)
    (p256Secret : Option κ) : Except Stop Started :=
  match records with
  | [] => .error (.error (.io .unexpectedEof))
  | sh :: records =>
    let recordType := sh.header.val.headD 0
    if recordType ≠ rtHandshake then
      .error (.error (.protocol ("expected TLS Handshake (0x16), got 0x" ++
        hexPad 2 recordType.toNat ++ " — REALITY auth may have failed")))
    else do
      let (cs, group, share) ← parseServerHello sh.body
      let transcript := clientHello ++ sh.body
      let secret ← (keyAgreement crypto x25519Secret p256Secret group share).mapError .error
      let dhe ← (sharedSecret secret).mapError .error
      let keys ← (deriveHandshakeKeys crypto cs dhe (crypto.hash cs transcript)).mapError .error
      pure { cs, keys, transcript, records }

section Flight

variable (cs : CipherSuite) (keys : HsKeys) (authKey : Octets 32)

def processMessage (st : HsState) (message : HsMessage) : Except ProxyError HsState :=
  let (hsType, msg) := message
  if hsType = hsCertificate then do
    let certDer ← parseCertificateMessageDer msg
    let _ ← verifyRealityCertHmac crypto.toCertCrypto authKey certDer
    pure { st with transcript := st.transcript ++ msg }
  else if hsType = hsEncryptedExtensions ∨ hsType = hsCertificateVerify then
    .ok { st with transcript := st.transcript ++ msg }
  else if hsType = hsFinished then
    let expected := crypto.hmac cs keys.serverFinishedKey (crypto.hash cs st.transcript)
    if msg.drop 4 ≠ expected then .error (.protocol "server Finished HMAC mismatch")
    else .ok { st with transcript := st.transcript ++ msg, foundFinished := true }
  else .ok st

def processMessages : HsState → List HsMessage → Except ProxyError HsState
  | st, [] => .ok st
  | st, message :: messages => do
    let st ← processMessage crypto cs keys authKey st message
    processMessages st messages

def readFlight : HsState → List Record → Except ProxyError HsState
  | st, [] => if st.foundFinished then .ok st else .error (.io .unexpectedEof)
  | st, record :: records =>
    if st.foundFinished then .ok st
    else
      let recordType := record.header.val.headD 0
      if recordType = rtChangeCipherSpec then readFlight st records
      else if recordType = rtAlert then
        .error (.protocol ("TLS alert from server during handshake: level=" ++
          toString (record.body.headD 0) ++ " desc=" ++ toString (record.body.getD 1 0)))
      else if recordType = rtApplicationData then do
        let (inner, innerType) ←
          decryptAppRecord crypto cs keys.serverKey keys.serverIv st.srvSeq record
        let st := { st with srvSeq := st.srvSeq + 1 }
        if innerType ≠ rtHandshake then readFlight st records
        else do
          let st ← processMessages crypto cs keys authKey st (splitHandshakeMessages inner)
          readFlight st records
      else
        .error (.protocol ("unexpected TLS record type 0x" ++ hexPad 2 recordType.toNat ++
          " during handshake"))

end Flight

def finishedMessage (verifyData : Bytes) : Bytes :=
  hsFinished :: Bytes.toBe 3 verifyData.length ++ verifyData

/-- `complete_tls13_handshake` behind the server's Finished: derive the application keys and send
ChangeCipherSpec and Finished. -/
def answerFlight (cs : CipherSuite) (keys : HsKeys) (transcript : Bytes) (tcp : Peer) :
    Except ProxyError AppKeys × Peer :=
  let transcriptHash := crypto.hash cs transcript
  match deriveAppKeys crypto cs keys.masterSecret transcriptHash with
  | .error e => (.error e, tcp)
  | .ok appKeys =>
    match tcp.writeAll [rtChangeCipherSpec, 0x03, 0x03, 0x00, 0x01, 0x01] with
    | (false, tcp) => (.error (.io .writeZero), tcp)
    | (true, tcp) =>
      let verifyData := crypto.hmac cs keys.clientFinishedKey transcriptHash
      match encryptAppRecord crypto cs keys.clientKey keys.clientIv 0 (finishedMessage verifyData)
          rtHandshake with
      | .error e => (.error e, tcp)
      | .ok record =>
        match tcp.writeAll record with
        | (false, tcp) => (.error (.io .writeZero), tcp)
        | (true, tcp) => (.ok appKeys, tcp)

def completeTls13Handshake (records : List Record) (tcp : Peer) (clientHello : Bytes)
    (x25519Secret : Octets 32) (p256Secret : Option κ) (authKey : Octets 32) :
    Except Stop AppKeys × Peer :=
  match startHandshake crypto records clientHello x25519Secret p256Secret with
  | .error e => (.error e, tcp)
  | .ok started =>
    match readFlight crypto started.cs started.keys authKey ⟨started.transcript, 0, false⟩
        started.records with
    | .error e => (.error (.error e), tcp)
    | .ok st =>
      let (result, tcp) := answerFlight crypto started.cs started.keys st.transcript tcp
      (result.mapError .error, tcp)

/-! ### The flight of the server -/

def decryptedMessages (cs : CipherSuite) (keys : HsKeys) : UInt64 → List Record → List HsMessage
  | _, [] => []
  | seq, record :: records =>
    let recordType := record.header.val.headD 0
    if recordType = rtChangeCipherSpec then decryptedMessages cs keys seq records
    else if recordType = rtApplicationData then
      match decryptAppRecord crypto cs keys.serverKey keys.serverIv seq record with
      | .error _ => []
      | .ok (inner, innerType) =>
        if innerType ≠ rtHandshake then decryptedMessages cs keys (seq + 1) records
        else splitHandshakeMessages inner ++ decryptedMessages cs keys (seq + 1) records
    else []

def serverFlight (records : List Record) (clientHello : Bytes) (x25519Secret : Octets 32)
    (p256Secret : Option κ) : List HsMessage :=
  match startHandshake crypto records clientHello x25519Secret p256Secret with
  | .error _ => []
  | .ok started => decryptedMessages crypto started.cs started.keys 0 started.records

def BeforeFinished (P : HsMessage → Prop) (flight : List HsMessage) : Prop :=
  ∃ before finished after, flight = before ++ finished :: after ∧ finished.1 = hsFinished ∧
    (∀ m ∈ before, m.1 ≠ hsFinished) ∧ ∃ m ∈ before, P m

/-- A certificate comes before the Finished. -/
def CertificateFirst (flight : List HsMessage) : Prop :=
  BeforeFinished (fun m => m.1 = hsCertificate) flight

/-- A certificate with the right HMAC comes before the Finished. -/
def VerifiedFirst (authKey : Octets 32) (flight : List HsMessage) : Prop :=
  BeforeFinished (fun m => m.1 = hsCertificate ∧ PassesHmac crypto.toCertCrypto authKey m.2) flight

/-! ### What an accepted flight contains -/

section Accepted

variable {crypto} {cs : CipherSuite} {keys : HsKeys} {authKey : Octets 32} {st st' : HsState}
  {messages : List HsMessage}

theorem processMessage_eq_ok {m : HsMessage}
    (h : processMessage crypto cs keys authKey st m = .ok st') :
    (m.1 = hsCertificate → PassesHmac crypto.toCertCrypto authKey m.2) ∧
      (st'.foundFinished = true → st.foundFinished = true ∨ m.1 = hsFinished) ∧
      st'.srvSeq = st.srvSeq := by
  obtain ⟨hsType, msg⟩ := m
  unfold processMessage at h
  by_cases hcert : hsType = hsCertificate
  · simp only [hcert, if_true] at h
    obtain ⟨certDer, hparse, h⟩ := bind_eq_ok.1 h
    obtain ⟨u, hverify, h⟩ := bind_eq_ok.1 h
    obtain rfl := Except.ok.inj h
    exact ⟨fun _ => ⟨certDer, hparse, hverify⟩, .inl, rfl⟩
  · simp only [if_neg hcert] at h
    refine ⟨fun h => absurd h hcert, ?_⟩
    split_ifs at h with hext hfin hmac
    all_goals obtain rfl := Except.ok.inj h
    · exact ⟨.inl, rfl⟩
    · exact ⟨fun _ => .inr hfin, rfl⟩
    · exact ⟨.inl, rfl⟩

theorem processMessages_eq_ok (h : processMessages crypto cs keys authKey st messages = .ok st') :
    (∀ m ∈ messages, m.1 = hsCertificate → PassesHmac crypto.toCertCrypto authKey m.2) ∧
      (st'.foundFinished = true → st.foundFinished = true ∨ ∃ m ∈ messages, m.1 = hsFinished) ∧
      st'.srvSeq = st.srvSeq := by
  induction messages generalizing st with
  | nil =>
    obtain rfl := Except.ok.inj h
    exact ⟨by simp, .inl, rfl⟩
  | cons m messages ih =>
    obtain ⟨st₁, hm, h⟩ := bind_eq_ok.1 h
    obtain ⟨hpass, hfin, hseq⟩ := processMessage_eq_ok hm
    obtain ⟨hpass', hfin', hseq'⟩ := ih h
    refine ⟨?_, ?_, hseq'.trans hseq⟩
    · rintro m' (_ | ⟨_, hmem⟩)
      · exact hpass
      · exact hpass' m' hmem
    · intro hf
      rcases hfin' hf with hf | ⟨m', hmem, hm'⟩
      · rcases hfin hf with hf | hm
        · exact .inl hf
        · exact .inr ⟨m, mem_cons_self, hm⟩
      · exact .inr ⟨m', mem_cons_of_mem _ hmem, hm'⟩

theorem readFlight_cons_cases (crypto : TlsCrypto κ) (cs : CipherSuite) (keys : HsKeys)
    (hfound : ¬ st.foundFinished) (record : Record) (records : List Record) :
    (∃ e, ∀ authKey, readFlight crypto cs keys authKey st (record :: records) = .error e) ∨
    (∃ seq, decryptedMessages crypto cs keys st.srvSeq (record :: records) =
        decryptedMessages crypto cs keys seq records ∧
      ∀ authKey, readFlight crypto cs keys authKey st (record :: records) =
        readFlight crypto cs keys authKey { st with srvSeq := seq } records) ∨
    (∃ seq messages, decryptedMessages crypto cs keys st.srvSeq (record :: records) =
        messages ++ decryptedMessages crypto cs keys seq records ∧
      ∀ authKey, readFlight crypto cs keys authKey st (record :: records) =
        (processMessages crypto cs keys authKey { st with srvSeq := seq } messages >>=
          fun st => readFlight crypto cs keys authKey st records)) := by
  simp only [readFlight, decryptedMessages, if_neg hfound]
  by_cases hccs : record.header.val.headD 0 = rtChangeCipherSpec
  · simp only [if_pos hccs]
    exact .inr (.inl ⟨st.srvSeq, rfl, fun _ => rfl⟩)
  simp only [if_neg hccs]
  by_cases halert : record.header.val.headD 0 = rtAlert
  · simp only [if_pos halert]
    exact .inl ⟨_, fun _ => rfl⟩
  simp only [if_neg halert]
  by_cases happ : record.header.val.headD 0 = rtApplicationData
  · simp only [if_pos happ]
    cases hdec : decryptAppRecord crypto cs keys.serverKey keys.serverIv st.srvSeq record with
    | error e => exact .inl ⟨e, fun _ => rfl⟩
    | ok plain =>
      obtain ⟨inner, innerType⟩ := plain
      right
      by_cases hinner : innerType = rtHandshake
      · refine .inr ⟨st.srvSeq + 1, splitHandshakeMessages inner, ?_, fun authKey => ?_⟩
        · exact if_neg (not_not.2 hinner)
        · exact if_neg (not_not.2 hinner)
      · refine .inl ⟨st.srvSeq + 1, ?_, fun authKey => ?_⟩
        · exact if_pos hinner
        · exact if_pos hinner
  · simp only [if_neg happ]
    exact .inl ⟨_, fun _ => rfl⟩

theorem readFlight_eq_ok (h : readFlight crypto cs keys authKey st records = .ok st') :
    st.foundFinished = true ∨
      ∃ done rest, decryptedMessages crypto cs keys st.srvSeq records = done ++ rest ∧
        (∀ m ∈ done, m.1 = hsCertificate → PassesHmac crypto.toCertCrypto authKey m.2) ∧
        ∃ m ∈ done, m.1 = hsFinished := by
  induction records generalizing st with
  | nil =>
    unfold readFlight at h
    split_ifs at h with hfound
    exact .inl hfound
  | cons record records ih =>
    by_cases hfound : st.foundFinished
    · exact .inl hfound
    right
    obtain ⟨e, hread⟩ | ⟨seq, hflight, hread⟩ | ⟨seq, messages, hflight, hread⟩ :=
      readFlight_cons_cases crypto cs keys hfound record records
    · rw [hread] at h
      cases h
    · rw [hread] at h
      rw [hflight]
      exact (ih h).resolve_left hfound
    · rw [hread] at h
      rw [hflight]
      obtain ⟨st₁, hmsgs, h⟩ := bind_eq_ok.1 h
      obtain ⟨hpass, hfin, hseq⟩ := processMessages_eq_ok hmsgs
      rcases ih h with hfound₁ | ⟨done, rest, hsplit, hpass', m, hmem, hm⟩
      · -- the Finished is in this record
        exact ⟨messages, _, rfl, hpass, (hfin hfound₁).resolve_left hfound⟩
      · -- the Finished is in a later record
        rw [hseq] at hsplit
        refine ⟨messages ++ done, rest, by rw [hsplit, append_assoc], ?_,
          m, mem_append_right _ hmem, hm⟩
        intro m' hmem'
        rcases mem_append.1 hmem' with hmem' | hmem'
        · exact hpass m' hmem'
        · exact hpass' m' hmem'

theorem mem_done_of_mem_before {before after done rest : List HsMessage} {finished m f : HsMessage}
    (hsplit : before ++ finished :: after = done ++ rest)
    (hbefore : ∀ m ∈ before, m.1 ≠ hsFinished) (hf : f ∈ done) (hff : f.1 = hsFinished)
    (hm : m ∈ before) : m ∈ done := by
  rcases append_eq_append_iff.1 hsplit with ⟨mid, rfl, -⟩ | ⟨mid, rfl, -⟩
  · exact mem_append_left _ hm
  · exact absurd hff (hbefore f (mem_append_left _ hf))

theorem processMessages_congr (st : HsState) (h : ∀ m ∈ messages, m.1 ≠ hsCertificate)
    (authKey' : Octets 32) :
    processMessages crypto cs keys authKey st messages =
      processMessages crypto cs keys authKey' st messages := by
  induction messages generalizing st with
  | nil => rfl
  | cons m messages ih =>
    have hm : processMessage crypto cs keys authKey st m =
        processMessage crypto cs keys authKey' st m := by
      unfold processMessage
      simp only [if_neg (h m mem_cons_self)]
    unfold processMessages
    rw [hm]
    cases processMessage crypto cs keys authKey' st m with
    | error e => rfl
    | ok st₁ => exact ih st₁ fun m' hmem => h m' (mem_cons_of_mem _ hmem)

theorem readFlight_congr (st : HsState)
    (h : ∀ m ∈ decryptedMessages crypto cs keys st.srvSeq records, m.1 ≠ hsCertificate)
    (authKey' : Octets 32) :
    readFlight crypto cs keys authKey st records =
      readFlight crypto cs keys authKey' st records := by
  induction records generalizing st with
  | nil => rfl
  | cons record records ih =>
    by_cases hfound : st.foundFinished
    · simp only [readFlight, if_pos hfound]
    obtain ⟨e, hread⟩ | ⟨seq, hflight, hread⟩ | ⟨seq, messages, hflight, hread⟩ :=
      readFlight_cons_cases crypto cs keys hfound record records
    · rw [hread, hread]
    · rw [hread, hread]
      exact ih _ (by rwa [hflight] at h)
    · rw [hread, hread]
      rw [hflight] at h
      rw [processMessages_congr _ (fun m hmem => h m (mem_append_left _ hmem)) authKey']
      cases hmsgs : processMessages crypto cs keys authKey' { st with srvSeq := seq } messages with
      | error e =>
        -- the loops are not reached: the results are compared, not the loops
        rfl
      | ok st₁ =>
        have hseq := (processMessages_eq_ok hmsgs).2.2
        exact ih st₁ fun m hmem => h m (mem_append_right _ (by rwa [hseq] at hmem))

end Accepted

/-! ### Acceptance -/

section Acceptance

variable {crypto} {x25519Secret : Octets 32} {p256Secret : Option κ}

theorem complete_eq_ok {tcp : Peer} {clientHello : Bytes} {authKey : Octets 32} {appKeys : AppKeys}
    (h : (completeTls13Handshake crypto records tcp clientHello x25519Secret p256Secret authKey).1 =
      .ok appKeys) :
    ∃ started st, startHandshake crypto records clientHello x25519Secret p256Secret = .ok started ∧
      readFlight crypto started.cs started.keys authKey ⟨started.transcript, 0, false⟩
        started.records = .ok st := by
  unfold completeTls13Handshake at h
  cases hstart : startHandshake crypto records clientHello x25519Secret p256Secret with
  | error e => simp [hstart] at h
  | ok started =>
    simp only [hstart] at h
    cases hread : readFlight crypto started.cs started.keys authKey ⟨started.transcript, 0, false⟩
        started.records with
    | error e => simp [hread] at h
    | ok st => exact ⟨started, st, rfl, hread⟩

theorem complete_without_certificate {clientHello : Bytes}
    (h : ∀ m ∈ serverFlight crypto records clientHello x25519Secret p256Secret, m.1 ≠ hsCertificate)
    (tcp : Peer) (authKey authKey' : Octets 32) :
    completeTls13Handshake crypto records tcp clientHello x25519Secret p256Secret authKey =
      completeTls13Handshake crypto records tcp clientHello x25519Secret p256Secret authKey' := by
  unfold completeTls13Handshake
  cases hstart : startHandshake crypto records clientHello x25519Secret p256Secret with
  | error e => rfl
  | ok started =>
    simp only [serverFlight, hstart] at h
    simp only [readFlight_congr ⟨started.transcript, 0, false⟩ h authKey']

end Acceptance

/-- **What acceptance proves.**  When the client accepts, a certificate was verified under the auth
key before the Finished exactly when a Certificate message stands before the Finished in the
server's flight.  A flight with a Certificate message before its Finished, none of whose
certificates carries the right HMAC, is not accepted; but for a flight without a Certificate message
the client's decision is the same under every auth key. -/
theorem complete_verified_iff (records : List Record) (tcp : Peer) (clientHello : Bytes)
    (x25519Secret : Octets 32) (p256Secret : Option κ) (authKey : Octets 32) :
    let flight := serverFlight crypto records clientHello x25519Secret p256Secret
    let complete := completeTls13Handshake crypto records tcp clientHello x25519Secret p256Secret
    (∀ appKeys, (complete authKey).1 = .ok appKeys →
      (VerifiedFirst crypto authKey flight ↔ CertificateFirst flight)) ∧
    (CertificateFirst flight →
      (∀ m ∈ flight, m.1 = hsCertificate → ¬ PassesHmac crypto.toCertCrypto authKey m.2) →
      ∀ appKeys, (complete authKey).1 ≠ .ok appKeys) ∧
    ((∀ m ∈ flight, m.1 ≠ hsCertificate) → ∀ authKey', complete authKey = complete authKey') := by
  intro flight complete
  have hiff : ∀ appKeys, (complete authKey).1 = .ok appKeys →
      (VerifiedFirst crypto authKey flight ↔ CertificateFirst flight) := by
    intro appKeys hok
    obtain ⟨started, st, hstart, hread⟩ := complete_eq_ok hok
    have hflight : flight = decryptedMessages crypto started.cs started.keys 0 started.records := by
      simp only [flight, serverFlight, hstart]
    obtain ⟨done, rest, hsplit, hpass, f, hf, hff⟩ :=
      (readFlight_eq_ok hread).resolve_left Bool.false_ne_true
    constructor
    · rintro ⟨before, fin, after, heq, hfin, hbefore, m, hm, hcert, -⟩
      exact ⟨before, fin, after, heq, hfin, hbefore, m, hm, hcert⟩
    · rintro ⟨before, fin, after, heq, hfin, hbefore, m, hm, hcert⟩
      have hjoin : before ++ fin :: after = done ++ rest := by rw [← heq, hflight, hsplit]
      have hdone := mem_done_of_mem_before hjoin hbefore hf hff hm
      exact ⟨before, fin, after, heq, hfin, hbefore, m, hm, hcert, hpass m hdone hcert⟩
  refine ⟨hiff, ?_, ?_⟩
  · intro hfirst hnone appKeys hok
    obtain ⟨before, fin, after, heq, -, -, m, hm, hcert, hpass⟩ := (hiff appKeys hok).2 hfirst
    exact hnone m (by rw [heq]; exact mem_append_left _ hm) hcert hpass
  · intro hnone authKey'
    exact complete_without_certificate hnone tcp authKey authKey'

/-! ### Two flights -/

def checksum (bs : Bytes) : UInt8 := UInt8.ofNat bs.length + bs.headD 0

def checksumCrypto : TlsCrypto Unit where
  hmacSha512 key pubkey := ⟨key.val ++ pubkey.val, by simp [key.property, pubkey.property]⟩
  fromDer der :=
    if der.length = 96 then .ok ⟨"1.3.101.112", der.take 32, der.drop 32⟩ else .error "bad length"
  hash cs data := List.replicate cs.hashLen (checksum data)
  hmac cs key data := List.replicate cs.hashLen (checksum (key ++ data))
  hkdfExtract cs salt ikm := List.replicate cs.hashLen (checksum (salt ++ ikm))
  validPrk cs prk := cs.hashLen ≤ prk.length
  hkdfExpand _ prk info len := some (List.replicate len (checksum (prk ++ info)))
  aeadSeal _ key nonce aad msg :=
    msg ++ List.replicate 16 (checksum (key ++ nonce.val ++ aad ++ msg))
  aeadOpen _ key nonce aad ct :=
    let msg := ct.take (ct.length - 16)
    if ct.drop msg.length = List.replicate 16 (checksum (key ++ nonce.val ++ aad ++ msg)) then
      some msg
    else none
  x25519 secret share :=
    ⟨secret.val.zipWith (· + ·) share.val, by simp [secret.property, share.property]⟩
  p256 _ share := .ok (share.take 32)

def serverHello : Record where
  header := ⟨[0x16, 3, 3, 0, 84], rfl⟩
  body := [0x02, 0, 0, 80, 3, 3] ++ List.replicate 32 0 ++
    [0, 0x13, 0x01, 0, 0, 40, 0, 0x33, 0, 36, 0, 29, 0, 32] ++ List.replicate 32 5
  length_body := by decide

def bareFlight : List Record :=
  [serverHello,
    { header := ⟨[0x17, 3, 3, 0, 53], rfl⟩
      body := [20, 0, 0, 32] ++ List.replicate 32 153 ++ [22] ++ List.replicate 16 154
      length_body := by decide }]

def clientSecret : Octets 32 := ⟨List.replicate 32 1, rfl⟩

/-- The client accepts a server that sends no certificate, whatever the auth key is. -/
theorem bareFlight_accepted :
    ∃ appKeys, ∀ authKey : Octets 32,
      (completeTls13Handshake checksumCrypto bareFlight ⟨[], none⟩ [] clientSecret none authKey).1 =
          .ok appKeys ∧
        ¬ VerifiedFirst checksumCrypto authKey
          (serverFlight checksumCrypto bareFlight [] clientSecret none) := by
  have hnone : ∀ m ∈ serverFlight checksumCrypto bareFlight [] clientSecret none,
      m.1 ≠ hsCertificate := by decide +kernel
  have hok : (completeTls13Handshake checksumCrypto bareFlight ⟨[], none⟩ [] clientSecret none
      clientSecret).1.toBool = true := by decide +kernel
  cases hresult : (completeTls13Handshake checksumCrypto bareFlight ⟨[], none⟩ [] clientSecret none
      clientSecret).1 with
  | error e =>
    rw [hresult] at hok
    cases hok
  | ok appKeys =>
    refine ⟨appKeys, fun authKey => ⟨?_, ?_⟩⟩
    · rw [complete_without_certificate hnone _ authKey, hresult]
    · rintro ⟨before, fin, after, heq, -, -, m, hm, hcert, -⟩
      exact hnone m (by rw [heq]; exact mem_append_left _ hm) hcert

def sampleAuthKey : Octets 32 := ⟨List.replicate 32 9, rfl⟩

def certificateMessage : Bytes :=
  [0x0b, 0, 0, 105, 0, 0, 0, 101, 0, 0, 96] ++ List.replicate 32 6 ++ List.replicate 32 9 ++
    List.replicate 32 6 ++ [0, 0]

def certifiedFlight : List Record :=
  [serverHello,
    { header := ⟨[0x17, 3, 3, 0, 162], rfl⟩
      body := certificateMessage ++ [20, 0, 0, 32] ++ List.replicate 32 153 ++ [22] ++
        List.replicate 16 7
      length_body := by decide +kernel }]

theorem certifiedFlight_verified :
    ∃ appKeys,
      (completeTls13Handshake checksumCrypto certifiedFlight ⟨[], none⟩ [] clientSecret none
        sampleAuthKey).1 = .ok appKeys ∧
      VerifiedFirst checksumCrypto sampleAuthKey
        (serverFlight checksumCrypto certifiedFlight [] clientSecret none) := by
  have hflight : serverFlight checksumCrypto certifiedFlight [] clientSecret none =
      [(hsCertificate, certificateMessage),
        (hsFinished, [20, 0, 0, 32] ++ List.replicate 32 153)] := by decide +kernel
  have hok : (completeTls13Handshake checksumCrypto certifiedFlight ⟨[], none⟩ [] clientSecret none
      sampleAuthKey).1.toBool = true := by decide +kernel
  cases hresult : (completeTls13Handshake checksumCrypto certifiedFlight ⟨[], none⟩ [] clientSecret
      none sampleAuthKey).1 with
  | error e =>
    rw [hresult] at hok
    cases hok
  | ok appKeys =>
    refine ⟨appKeys, rfl, ?_⟩
    refine ((complete_verified_iff checksumCrypto certifiedFlight ⟨[], none⟩ [] clientSecret none
      sampleAuthKey).1 appKeys hresult).2 ?_
    rw [hflight]
    exact ⟨[_], _, [], rfl, rfl, by simp [hsCertificate, hsFinished], _, mem_singleton_self _, rfl⟩

end Blackwire.Reality
