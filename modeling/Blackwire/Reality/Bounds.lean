import Blackwire.Reality.Client
import Mathlib.Data.List.GetD

/-!
# Bounds in the parsers of the REALITY client

The parsers of `reality/tls13.rs` and `reality/cert.rs` with every index and slice as it stands
in the source: one that is out of bounds panics.  Without them the parsers are those of `Tls13` and
`Cert`, in which only the slice of the random bytes of a ServerHello is checked.
-/

namespace Blackwire.Reality

open List

namespace Checked

/-! ### Indices and slices -/

def byteAt (bs : Bytes) (pos : ℕ) : Except Stop UInt8 :=
  if pos < bs.length then .ok (bs.getD pos 0) else .error .panic

def range (bs : Bytes) (start stop : ℕ) : Except Stop Bytes :=
  if start ≤ stop ∧ stop ≤ bs.length then .ok ((bs.drop start).take (stop - start))
  else .error .panic

def be16 (bs : Bytes) (pos : ℕ) : Except Stop ℕ := do
  let hi ← byteAt bs pos
  let lo ← byteAt bs (pos + 1)
  pure (Bytes.ofBe [hi, lo])

variable {bs : Bytes} {pos : ℕ} (hsBody data : Bytes)

theorem ok_bind {α β : Type} (a : α) (f : α → Except Stop β) : (Except.ok a >>= f) = f a := rfl

theorem byteAt_of_lt (h : pos < bs.length) : byteAt bs pos = .ok (bs.getD pos 0) := if_pos h

theorem range_add {n : ℕ} (h : pos + n ≤ bs.length) :
    range bs pos (pos + n) = .ok ((bs.drop pos).take n) := by
  rw [range, if_pos ⟨Nat.le_add_right _ _, h⟩, Nat.add_sub_cancel_left]

theorem drop_eq_getD_cons (h : pos < bs.length) :
    bs.drop pos = bs.getD pos 0 :: bs.drop (pos + 1) := by
  rw [drop_eq_getElem_cons h, getD_eq_getElem]

theorem be16_of_le (h : pos + 2 ≤ bs.length) : be16 bs pos = .ok (u16At bs pos) := by
  rw [be16, byteAt_of_lt (by omega), byteAt_of_lt (by omega), u16At,
    drop_eq_getD_cons (by omega), drop_eq_getD_cons (by omega)]
  rfl

/-! ### ServerHello -/

def describe (extType : ℕ) (extData : Bytes) : Except Stop String :=
  if extType = 0x002b ∧ extData.length = 2 then do
    let _ ← be16 extData 0
    pure (describeServerHelloExtension extType extData)
  else if extType = 0x0033 ∧ extData.length ≥ 2 then do
    let _ ← be16 extData 0
    if extData.length ≥ 4 then do
      let _ ← be16 extData 2
      pure (describeServerHelloExtension extType extData)
    else pure (describeServerHelloExtension extType extData)
  else pure (describeServerHelloExtension extType extData)

def keyShare (extData : Bytes) : Except Stop (Option (ℕ × Bytes)) :=
  if extData.length ≥ 4 then do
    let group ← be16 extData 0
    let keyLen ← be16 extData 2
    if extData.length ≥ 4 + keyLen then do
      let key ← range extData 4 (4 + keyLen)
      pure (some (group, key))
    else pure none
  else pure none

def extensions (extEnd : ℕ) : ℕ → ℕ → Option (ℕ × Bytes) → List String →
    Except Stop (Option (ℕ × Bytes) × List String)
  | 0, _, share, summaries => .ok (share, summaries)
  | fuel + 1, pos, share, summaries =>
    if pos + 4 ≤ extEnd then do
      let extType ← be16 hsBody pos
      let extLen ← be16 hsBody (pos + 2)
      let pos := pos + 4
      if pos + extLen > hsBody.length then pure (share, summaries)
      else do
        let extData ← range hsBody pos (pos + extLen)
        let summary ← describe extType extData
        let found ← if extType = 0x0033 then keyShare extData else pure none
        extensions extEnd fuel (pos + extLen) (found.orElse fun _ => share)
          (summaries ++ [summary])
    else .ok (share, summaries)

def serverHelloTail (isHrr : Bool) (pos : ℕ) : Except Stop (CipherSuite × ℕ × Bytes) :=
  if pos + 3 > hsBody.length then
    .error (.error (.protocol "ServerHello: truncated at cipher_suite"))
  else do
    let rawCs ← be16 hsBody pos
    let cs ← (CipherSuite.fromU16 rawCs).mapError .error
    let pos := pos + 2 + 1
    if pos + 2 > hsBody.length then .error (.error (.protocol "ServerHello: no extensions length"))
    else do
      let extTotal ← be16 hsBody pos
      let pos := pos + 2
      match ← extensions hsBody (min (pos + extTotal) hsBody.length) hsBody.length pos none [] with
      | (some (group, share), _) => .ok (cs, group, share)
      | (none, summaries) =>
        .error (.error (.protocol ((if isHrr then "HelloRetryRequest" else "ServerHello") ++
          ": no usable key_share; cipher_suite=0x" ++ hexPad 4 rawCs ++ "; extensions=[" ++
          String.intercalate ", " summaries ++ "]")))

def serverHello : Except Stop (CipherSuite × ℕ × Bytes) :=
  if hsBody.length < 4 then .error (.error (.protocol "ServerHello body too short"))
  else do
    let hsType ← byteAt hsBody 0
    if hsType ≠ hsServerHello then
      .error (.error (.protocol ("expected ServerHello (0x02), got 0x" ++ hexPad 2 hsType.toNat)))
    else do
      let random ← range hsBody 6 38
      if hsBody.length ≤ 38 then
        .error (.error (.protocol "ServerHello: truncated at session_id"))
      else do
        let sidLen ← byteAt hsBody 38
        serverHelloTail hsBody (random == helloRetryRequestRandom) (38 + (1 + sidLen.toNat))

theorem describe_eq (extType : ℕ) (extData : Bytes) :
    describe extType extData = .ok (describeServerHelloExtension extType extData) := by
  unfold describe
  split_ifs with h₁ h₂ h₃
  · rw [be16_of_le (by omega)]; rfl
  · rw [be16_of_le (by omega), be16_of_le (by omega)]; rfl
  · rw [be16_of_le (by omega)]; rfl
  · rfl

theorem keyShare_eq (extData : Bytes) : keyShare extData = .ok (keyShareOf extData) := by
  unfold keyShare keyShareOf
  split_ifs with hlen
  · rw [be16_of_le (by omega), be16_of_le (by omega)]
    show (if _ then _ else _) = Except.ok (if _ then _ else _)
    split_ifs with hkey
    · rw [range_add hkey]; rfl
    · rfl
  · rfl

theorem extensions_eq {hsBody : Bytes} {extEnd : ℕ} (hend : extEnd ≤ hsBody.length) (fuel pos : ℕ)
    (share : Option (ℕ × Bytes)) (summaries : List String) :
    extensions hsBody extEnd fuel pos share summaries =
      .ok (parseExtensions hsBody extEnd fuel pos share summaries) := by
  induction fuel generalizing pos share summaries with
  | zero => rfl
  | succ fuel ih =>
    unfold extensions parseExtensions
    by_cases hpos : pos + 4 ≤ extEnd
    · simp only [hpos, if_true, be16_of_le (show pos + 2 ≤ hsBody.length by omega),
        be16_of_le (show pos + 2 + 2 ≤ hsBody.length by omega), ok_bind]
      by_cases hext : pos + 4 + u16At hsBody (pos + 2) > hsBody.length
      · simp only [hext, if_true]
        rfl
      · simp only [hext, if_false, range_add (not_lt.1 hext), ok_bind, describe_eq, keyShare_eq]
        split_ifs with htype
        · exact ih _ _ _
        · exact ih _ _ _
    · simp [hpos]

theorem serverHelloTail_eq (hsBody : Bytes) (isHrr : Bool) (pos : ℕ) :
    serverHelloTail hsBody isHrr pos =
      (parseServerHelloTail hsBody isHrr pos).mapError .error := by
  unfold serverHelloTail parseServerHelloTail
  by_cases hpos : pos + 3 > hsBody.length
  · rw [if_pos hpos, if_pos hpos]; rfl
  rw [if_neg hpos, if_neg hpos, be16_of_le (by omega)]
  cases hcs : CipherSuite.fromU16 (u16At hsBody pos) with
  | error e => simp [bind, Except.bind, hcs, Except.mapError]
  | ok cs =>
    simp only [bind, Except.bind, hcs, Except.mapError]
    by_cases hlen : pos + 2 + 1 + 2 > hsBody.length
    · simp [hlen]
    · simp only [hlen, if_false, be16_of_le (not_lt.1 hlen), extensions_eq (min_le_right _ _)]
      rcases parseExtensions _ _ _ _ _ _ with ⟨_ | ⟨group, share⟩, summaries⟩ <;> rfl

theorem serverHello_eq (hsBody : Bytes) : serverHello hsBody = parseServerHello hsBody := by
  unfold serverHello
  match hsBody with
  | [] | [_] | [_, _] | [_, _, _] => rfl
  | hsType :: b₁ :: b₂ :: b₃ :: bs =>
    rw [if_neg (by simp), byteAt_of_lt (by simp), parseServerHello, ok_bind, getD_cons_zero]
    generalize hsType :: b₁ :: b₂ :: b₃ :: bs = hsBody
    by_cases htype : hsType ≠ hsServerHello
    · simp [htype]
    by_cases hshort : hsBody.length < 38
    · simp only [htype, if_false, hshort, if_true, range, not_le.2 hshort, and_false]
      rfl
    simp only [htype, if_false, hshort, range_add (show 6 + 32 ≤ hsBody.length by omega), ok_bind]
    by_cases hsid : hsBody.length ≤ 38
    · simp only [hsid, if_true, drop_eq_nil_of_le hsid]
    · simp [hsid, drop_eq_getD_cons (not_le.1 hsid), byteAt_of_lt (not_le.1 hsid), ok_bind,
        serverHelloTail_eq]

/-! ### Messages, records and certificates -/

def messagesFrom : ℕ → ℕ → Except Stop (List HsMessage)
  | 0, _ => .ok []
  | fuel + 1, pos =>
    if pos + 4 ≤ data.length then do
      let hsType ← byteAt data pos
      let l₀ ← byteAt data (pos + 1)
      let l₁ ← byteAt data (pos + 2)
      let l₂ ← byteAt data (pos + 3)
      let msgEnd := pos + (4 + Bytes.ofBe [l₀, l₁, l₂])
      if msgEnd > data.length then .ok []
      else do
        let msg ← range data pos msgEnd
        let msgs ← messagesFrom fuel msgEnd
        pure ((hsType, msg) :: msgs)
    else .ok []

def messages : Except Stop (List HsMessage) := messagesFrom data data.length 0

def decrypt {κ : Type} (crypto : TlsCrypto κ) (cs : CipherSuite) (key : Bytes) (iv : Octets 12)
    (seq : UInt64) (record : Record) : Except Stop (Bytes × UInt8) :=
  if key.length ≠ cs.keyLen then .error (.error (.protocol ("bad " ++ cs.aeadName ++ " key len")))
  else
    match crypto.aeadOpen cs key (computeNonce iv seq) record.header.val record.body with
    | none => .error (.error (.protocol (cs.aeadName ++ " decrypt failed")))
    | some plaintext =>
      if plaintext = [] then
        .error (.error (.protocol "decrypted TLS record is empty (no content-type byte)"))
      else do
        let innerType ← byteAt plaintext (plaintext.length - 1)
        let inner ← range plaintext 0 (0 + (plaintext.length - 1))
        pure (inner, innerType)

def leaf (msg : Bytes) (pos listEnd : ℕ) : Except Stop Bytes :=
  if pos + 3 > listEnd then .error (.error (.tls "TLS Certificate message: empty certificate_list"))
  else do
    let certDataLen ← (readU24 (← range msg pos (pos + 3))).mapError .error
    let pos := pos + 3
    if pos + certDataLen > listEnd then
      .error (.error (.tls "TLS Certificate message: cert_data truncated"))
    else range msg pos (pos + certDataLen)

def certificate (msg : Bytes) : Except Stop Bytes :=
  if msg.head? ≠ some hsCertificate then
    .error (.error (.tls "TLS Certificate message: bad handshake type"))
  else if msg.length < 4 + 1 + 3 + 3 then
    .error (.error (.tls "TLS Certificate message: truncated header"))
  else do
    let ctxLen ← byteAt msg 4
    let pos := 4 + 1
    if pos + ctxLen.toNat + 3 > msg.length then
      .error (.error (.tls "TLS Certificate message: truncated context"))
    else do
      let pos := pos + ctxLen.toNat
      let listLen ← (readU24 (← range msg pos (pos + 3))).mapError .error
      let pos := pos + 3
      if pos + listLen > msg.length then
        .error (.error (.tls "TLS Certificate message: certificate_list truncated"))
      else leaf msg pos (pos + listLen)

theorem drop_eq_four (h : pos + 4 ≤ bs.length) :
    bs.drop pos = bs.getD pos 0 :: bs.getD (pos + 1) 0 :: bs.getD (pos + 2) 0 ::
      bs.getD (pos + 3) 0 :: bs.drop (pos + 4) := by
  rw [drop_eq_getD_cons (by omega), drop_eq_getD_cons (by omega), drop_eq_getD_cons (by omega),
    drop_eq_getD_cons (by omega)]

theorem splitHandshakeMessagesAux_short (fuel : ℕ) {bs : Bytes} (h : bs.length < 4) :
    splitHandshakeMessagesAux fuel bs = [] := by
  match fuel, bs with
  | 0, _ => rfl
  | _ + 1, [] | _ + 1, [_] | _ + 1, [_, _] | _ + 1, [_, _, _] => rfl
  | _ + 1, _ :: _ :: _ :: _ :: _ => simp at h; omega

theorem messagesFrom_eq (fuel pos : ℕ) :
    messagesFrom data fuel pos = .ok (splitHandshakeMessagesAux fuel (data.drop pos)) := by
  induction fuel generalizing pos with
  | zero => rfl
  | succ fuel ih =>
    unfold messagesFrom
    by_cases hpos : pos + 4 ≤ data.length
    · rw [drop_eq_four hpos, splitHandshakeMessagesAux]
      simp only [hpos, if_true, byteAt_of_lt (show pos < data.length by omega),
        byteAt_of_lt (show pos + 1 < data.length by omega),
        byteAt_of_lt (show pos + 2 < data.length by omega),
        byteAt_of_lt (show pos + 3 < data.length by omega), ok_bind, length_drop]
      generalize hn : Bytes.ofBe _ = n
      by_cases hend : pos + (4 + n) > data.length
      · rw [if_pos hend, if_pos (by omega)]
      · rw [if_neg hend, if_neg (by omega), range_add (not_lt.1 hend), ih,
          drop_eq_four hpos, drop_drop, Nat.add_assoc, Nat.add_comm]
        rfl
    · rw [if_neg hpos, splitHandshakeMessagesAux_short]
      rw [length_drop]
      omega

theorem four_le_length {fuel : ℕ} {data : Bytes} {m : HsMessage}
    (h : m ∈ splitHandshakeMessagesAux fuel data) : 4 ≤ m.2.length := by
  induction fuel generalizing data with
  | zero => simp [splitHandshakeMessagesAux] at h
  | succ fuel ih =>
    by_cases hlen : data.length < 4
    · simp [splitHandshakeMessagesAux_short _ hlen] at h
    match data with
    | [] | [_] | [_, _] | [_, _, _] => simp at hlen
    | _ :: _ :: _ :: _ :: rest =>
      rw [splitHandshakeMessagesAux] at h
      split_ifs at h
      · cases h
      · rcases mem_cons.1 h with rfl | h
        · simp
        · exact ih h

theorem decrypt_eq {κ : Type} (crypto : TlsCrypto κ) (cs : CipherSuite) (key : Bytes)
    (iv : Octets 12) (seq : UInt64) (record : Record) : decrypt crypto cs key iv seq record =
      (decryptAppRecord crypto cs key iv seq record).mapError .error := by
  unfold decrypt decryptAppRecord
  by_cases hkey : key.length ≠ cs.keyLen
  · rw [if_pos hkey, if_pos hkey]; rfl
  rw [if_neg hkey, if_neg hkey]
  cases hopen : crypto.aeadOpen cs key (computeNonce iv seq) record.header.val record.body with
  | none => rfl
  | some plaintext =>
    simp only
    rcases plaintext.eq_nil_or_concat with rfl | ⟨inner, innerType, rfl⟩
    · rfl
    · rw [byteAt_of_lt (by simp), range_add (by simp)]
      simp [ok_bind]
      rfl

theorem leaf_eq {msg : Bytes} {pos listEnd : ℕ} (h : listEnd ≤ msg.length) :
    leaf msg pos listEnd = (leafCertificate msg pos listEnd).mapError .error := by
  unfold leaf leafCertificate
  by_cases hpos : pos + 3 > listEnd
  · rw [if_pos hpos, if_pos hpos]; rfl
  rw [if_neg hpos, if_neg hpos, range_add (by omega), ok_bind]
  cases readU24 ((msg.drop pos).take 3) with
  | error e => rfl
  | ok n =>
    show (if _ then _ else _) = Except.mapError _ (if _ then _ else _)
    split_ifs with hlen
    · rfl
    · rw [range_add (by omega)]; rfl

theorem certificate_eq (msg : Bytes) :
    certificate msg = (parseCertificateMessageDer msg).mapError .error := by
  unfold certificate parseCertificateMessageDer
  split_ifs with htype hlen
  · rfl
  · rfl
  rw [byteAt_of_lt (by omega), ok_bind]
  dsimp only
  split_ifs with hctx
  · rfl
  rw [range_add (by omega), ok_bind]
  cases readU24 ((msg.drop (4 + 1 + (msg.getD 4 0).toNat)).take 3) with
  | error e => rfl
  | ok n =>
    show (if _ then _ else _) = Except.mapError _ (if _ then _ else _)
    split_ifs with hlist
    · rfl
    · exact leaf_eq (not_lt.1 hlist)

end Checked

/-! ### The handshake -/

theorem mapError_ne_panic {α : Type} (x : Except ProxyError α) :
    x.mapError Stop.error ≠ .error .panic := by
  cases x <;> simp [Except.mapError]

theorem bind_ne_panic {α β : Type} {x : Except Stop α} {f : α → Except Stop β}
    (hx : x ≠ .error .panic) (hf : ∀ a, f a ≠ .error .panic) : (x >>= f) ≠ .error .panic := by
  cases x with
  | error e => exact fun h => hx (congrArg Except.error (Except.error.inj h))
  | ok a => exact hf a

theorem parseServerHello_eq_panic {hsBody : Bytes} : parseServerHello hsBody = .error .panic ↔
    hsBody.headD 0 = hsServerHello ∧ 4 ≤ hsBody.length ∧ hsBody.length < 38 := by
  match hsBody with
  | [] | [_] | [_, _] | [_, _, _] => simp [parseServerHello]
  | hsType :: b₁ :: b₂ :: b₃ :: bs =>
    rw [parseServerHello]
    split_ifs with htype hshort
    · simp [htype]
    · simpa [not_not.1 htype] using hshort
    · refine iff_of_false ?_ fun h => hshort h.2.2
      split
      · simp
      · exact mapError_ne_panic _

variable {κ : Type}

theorem startHandshake_eq_panic (crypto : TlsCrypto κ) (records : List Record) (clientHello : Bytes)
    (x25519Secret : Octets 32) (p256Secret : Option κ) :
    startHandshake crypto records clientHello x25519Secret p256Secret = .error .panic ↔
      ∃ sh rest, records = sh :: rest ∧ sh.header.val.headD 0 = rtHandshake ∧
        parseServerHello sh.body = .error .panic := by
  cases records with
  | nil => simp [startHandshake]
  | cons sh rest =>
    rw [startHandshake]
    split_ifs with htype
    · refine iff_of_false (by simp) ?_
      rintro ⟨_, _, heq, htype', -⟩
      exact htype ((List.cons.inj heq).1 ▸ htype')
    cases hparse : parseServerHello sh.body with
    | error e =>
      refine ⟨fun h => ⟨sh, rest, rfl, not_not.1 htype,
        hparse.trans (congrArg Except.error (Except.error.inj h))⟩, ?_⟩
      rintro ⟨_, _, heq, -, hpanic⟩
      rw [← (List.cons.inj heq).1, hparse] at hpanic
      exact congrArg Except.error (Except.error.inj hpanic)
    | ok result =>
      refine iff_of_false (bind_ne_panic (by simp) fun _ => bind_ne_panic (mapError_ne_panic _)
        fun _ => bind_ne_panic (mapError_ne_panic _) fun _ => bind_ne_panic (mapError_ne_panic _)
        fun _ => by simp [pure, Except.pure]) ?_
      rintro ⟨_, _, heq, -, hpanic⟩
      rw [← (List.cons.inj heq).1, hparse] at hpanic
      cases hpanic

/-- **Panics.**  The handshake of the client panics exactly if the first record is a handshake
record whose body begins like a ServerHello and has at least 4 and fewer than 38 bytes.  Every other
index and slice of the parsers is in bounds, whatever the server sends. -/
theorem handshake_panics_iff (crypto : TlsCrypto κ) (records : List Record) (tcp : Peer)
    (clientHello : Bytes) (x25519Secret : Octets 32) (p256Secret : Option κ) (authKey : Octets 32) :
    ((completeTls13Handshake crypto records tcp clientHello x25519Secret p256Secret authKey).1 =
        .error .panic ↔
      ∃ sh rest, records = sh :: rest ∧ sh.header.val.headD 0 = rtHandshake ∧
        sh.body.headD 0 = hsServerHello ∧ 4 ≤ sh.body.length ∧ sh.body.length < 38) ∧
    (∀ hsBody, Checked.serverHello hsBody = parseServerHello hsBody) ∧
    (∀ data, Checked.messages data = .ok (splitHandshakeMessages data) ∧
      ∀ m ∈ splitHandshakeMessages data, 4 ≤ m.2.length) ∧
    (∀ cs key iv seq record, Checked.decrypt crypto cs key iv seq record =
      (decryptAppRecord crypto cs key iv seq record).mapError .error) ∧
    ∀ msg, Checked.certificate msg = (parseCertificateMessageDer msg).mapError .error := by
  refine ⟨?_, Checked.serverHello_eq, fun data => ⟨Checked.messagesFrom_eq data _ 0,
    fun m => Checked.four_le_length⟩, Checked.decrypt_eq crypto, Checked.certificate_eq⟩
  simp only [← parseServerHello_eq_panic]
  rw [← startHandshake_eq_panic]
  unfold completeTls13Handshake
  cases hstart : startHandshake crypto records clientHello x25519Secret p256Secret with
  | error e => simp
  | ok started =>
    refine iff_of_false ?_ (by simp)
    dsimp only
    split
    · simp
    · exact mapError_ne_panic _

def shortHello : Record where
  header := ⟨[0x16, 3, 3, 0, 4], rfl⟩
  body := [0x02, 0, 0, 0]
  length_body := by decide

/-- A ServerHello of four bytes: the slice of its random bytes is out of bounds. -/
theorem shortHello_panics :
    (completeTls13Handshake checksumCrypto [shortHello] ⟨[], none⟩ [] clientSecret none
      sampleAuthKey).1 = .error .panic := rfl

end Blackwire.Reality
