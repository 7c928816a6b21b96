import Blackwire.Lib.Duplex
import Blackwire.Vmess.Auth

/-!
# VMess headers

`vmess/codec.rs`.  A request header is a plaintext with a checksum, sealed under keys that are
derived from the user's key, the auth id and a nonce of the connection; its length is sealed apart.
-/

namespace Blackwire.Vmess

open AsyncIO AsyncIO.ReadM List Bytes

/-! ### Constants and data -/

def pathLenKey : Bytes := utf8 "VMess Header AEAD Key_Length"
def pathLenIv : Bytes := utf8 "VMess Header AEAD Nonce_Length"
def pathHdrKey : Bytes := utf8 "VMess Header AEAD Key"
def pathHdrIv : Bytes := utf8 "VMess Header AEAD Nonce"
def pathRespLenKey : Bytes := utf8 "AEAD Resp Header Len Key"
def pathRespLenIv : Bytes := utf8 "AEAD Resp Header Len IV"
def pathRespHdrKey : Bytes := utf8 "AEAD Resp Header Key"
def pathRespHdrIv : Bytes := utf8 "AEAD Resp Header IV"

def atypIpv4 : UInt8 := 0x01
def atypDomain : UInt8 := 0x02
def atypIpv6 : UInt8 := 0x03
def cmdTcp : UInt8 := 0x01
def cmdUdp : UInt8 := 0x02
def cmdMux : UInt8 := 0x03
def muxDomain : String := "v1.mux.cool"

structure VmessRequest where
  iv : Octets 16
  key : Octets 16
  v : UInt8
  options : UInt8
  security : Security
  dest : Address

/-! ### The plaintext of a request -/

variable (data : Bytes) {dest : Address}

def fnv32a : UInt32 :=
  data.foldl (fun hash byte => (hash ^^^ byte.toUInt32) * 0x01000193) 0x811c9dc5

def putDest : Address → Except ProxyError Bytes
  | .ipv4 ip port => .ok (toBe 2 port.toNat ++ atypIpv4 :: ip.val)
  | .ipv6 ip port => .ok (toBe 2 port.toNat ++ atypIpv6 :: ip.val)
  | .domain name port => do
    let len ← domainWireLen name
    pure (toBe 2 port.toNat ++ atypDomain :: len :: utf8 name)

def buildRequestPlaintext (iv key : Octets 16) (v padLen : UInt8) (security : Security)
    (dest : Address) (pad : ℕ → UInt8) : Except ProxyError Bytes := do
  let address ← putDest dest
  let buf := 0x01 :: iv.val ++ key.val ++
    [v, 0x01, (padLen <<< 4) ||| security.toByte, 0x00, 0x01] ++ address ++
    (List.range padLen.toNat).map pad
  pure (buf ++ toBe 4 (fnv32a buf).toNat)

def readVmessAddress (pos : ℕ) (atyp : UInt8) (port : UInt16) : Except ProxyError (Address × ℕ) :=
  if atyp = atypIpv4 then
    if h : pos + 4 ≤ data.length then .ok (.ipv4 (slice data pos 4 h) port, pos + 4)
    else .error (.protocol "VMess: truncated IPv4")
  else if atyp = atypIpv6 then
    if h : pos + 16 ≤ data.length then .ok (.ipv6 (slice data pos 16 h) port, pos + 16)
    else .error (.protocol "VMess: truncated IPv6")
  else if atyp = atypDomain then
    if data.length ≤ pos then .error (.protocol "VMess: truncated domain len")
    else
      let dlen := (data.getD pos 0).toNat
      if data.length < pos + 1 + dlen then .error (.protocol "VMess: truncated domain")
      else
        match fromUtf8 ((data.drop (pos + 1)).take dlen) with
        | some domain => .ok (.domain domain port, pos + 1 + dlen)
        | none => .error (.protocol "VMess: domain not UTF-8")
  else .error (.protocol ("VMess: unknown ATYP " ++ hex atyp.toNat))

/-- The destination that a command and what stands at `pos` give, and the position behind it. -/
def readDest (pos : ℕ) (cmd : UInt8) (port : UInt16) : Except ProxyError (Address × ℕ) :=
  if cmd = cmdTcp ∨ cmd = cmdUdp then
    if data.length ≤ pos then .error (.protocol "VMess: truncated at atyp")
    else readVmessAddress data (pos + 1) (data.getD pos 0) port
  else if cmd = cmdMux then
    if data.length ≤ pos then .error (.protocol "VMess: truncated at atyp")
    else do
      let (_, pos) ← readVmessAddress data (pos + 1) (data.getD pos 0) port
      pure (.domain muxDomain port, pos)
  else .error (.protocol ("VMess: unknown command " ++ hex cmd.toNat))

def readU32Be (pos : ℕ) : Except ProxyError UInt32 :=
  if h : pos + 4 ≤ data.length then .ok (UInt32.ofNat (ofBe (slice data pos 4 h).val))
  else .error (.protocol "VMess: truncated u32 field")

def decodePlaintext : Except ProxyError VmessRequest :=
  if h : data.length < 38 then .error (.protocol "VMess: header too short")
  else
    let ver := data.getD 0 0
    if ver ≠ 1 then .error (.protocol ("VMess: unexpected version " ++ toString ver.toNat))
    else do
      let iv := slice data 1 16 (by omega)
      let key := slice data 17 16 (by omega)
      let v := data.getD 33 0
      let options := data.getD 34 0
      let padSec := data.getD 35 0
      let padLen := (padSec >>> 4).toNat
      let security ← Security.tryFrom (padSec &&& 0x0F)
      let cmd := data.getD 37 0
      if data.length < 40 then .error (.protocol "VMess: truncated at port")
      else do
        let port := UInt16.ofNat (ofBe [data.getD 38 0, data.getD 39 0])
        let (dest, pos) ← readDest data 40 cmd port
        let pos := pos + padLen
        if data.length < pos + 4 then .error (.protocol "VMess: truncated checksum")
        else do
          let expected := fnv32a (data.take pos)
          let received ← readU32Be data pos
          if expected ≠ received then .error (.protocol "VMess: header checksum mismatch")
          else pure { iv, key, v, options, security, dest }

/-! ### Round trip of the plaintext -/

theorem readVmessAddress_put {address : Bytes} (h : putDest dest = .ok address) :
    ∃ atyp body, address = toBe 2 dest.port.toNat ++ atyp :: body ∧ body.length ≤ 256 ∧
      ∀ {data front tail : Bytes} {pos : ℕ}, data = front ++ (body ++ tail) → front.length = pos →
        readVmessAddress data pos atyp dest.port = .ok (dest, pos + body.length) := by
  cases dest with
  | ipv4 ip port =>
    obtain rfl := Except.ok.inj h
    refine ⟨atypIpv4, ip.val, rfl, by rw [ip.property]; decide, ?_⟩
    intro data front tail pos hdata hpos
    have hle : pos + 4 ≤ data.length := by
      rw [hdata, length_append, length_append]
      omega
    rw [readVmessAddress, dif_pos hle, slice_append ip hdata hpos, ip.property]
    rfl
  | ipv6 ip port =>
    obtain rfl := Except.ok.inj h
    refine ⟨atypIpv6, ip.val, rfl, by rw [ip.property]; decide, ?_⟩
    intro data front tail pos hdata hpos
    have hle : pos + 16 ≤ data.length := by
      rw [hdata, length_append, length_append]
      omega
    rw [readVmessAddress, dif_pos hle,
      slice_append ip hdata hpos, ip.property]
    rfl
  | domain name port =>
    obtain ⟨len, hlen, h⟩ := bind_eq_ok.1 h
    obtain rfl := Except.ok.inj h
    obtain ⟨hname, hshort⟩ := domainWireLen_eq_ok hlen
    refine ⟨atypDomain, len :: utf8 name, rfl, by rw [length_cons]; omega, ?_⟩
    intro data front tail pos hdata hpos
    have hbyte : data.getD pos 0 = len := getD_append hdata hpos 0 0
    have hlength : data.length = pos + (1 + (utf8 name).length + tail.length) := by
      rw [hdata, length_append, length_append, length_cons]
      omega
    have hslice : (data.drop (pos + 1)).take len.toNat = utf8 name := by
      have hfront : (front ++ [len]).length = pos + 1 := by
        rw [length_append, hpos]
        rfl
      have hsplit : data = front ++ [len] ++ (utf8 name ++ tail) := by
        rw [hdata, append_assoc]
        rfl
      rw [hsplit, drop_left' hfront, take_left' hname.symm]
    rw [readVmessAddress, if_neg (by decide), if_neg (by decide), if_pos rfl, if_neg (by omega)]
    simp only [hbyte, hslice, fromUtf8_utf8]
    rw [if_neg (by omega), length_cons]
    congr 2
    omega

variable {security : Security} {key : Octets 16} {crypto : VmessCrypto}

theorem decodePlaintext_eq_ok {data tail : Bytes} {iv : Octets 16}
    {v options padSec reserved cmd : UInt8} {port : UInt16} {pos : ℕ}
    (hdata : data = 0x01 :: (iv.val ++ (key.val ++
      (v :: options :: padSec :: reserved :: cmd :: (toBe 2 port.toNat ++ tail)))))
    (hsecurity : Security.tryFrom (padSec &&& 0x0F) = .ok security)
    (hdest : readDest data 40 cmd port = .ok (dest, pos))
    (hlen : pos + (padSec >>> 4).toNat + 4 ≤ data.length)
    (hsum : readU32Be data (pos + (padSec >>> 4).toNat) =
      .ok (fnv32a (data.take (pos + (padSec >>> 4).toNat)))) :
    decodePlaintext data = .ok { iv, key, v, options, security, dest } := by
  have hiv := iv.property
  have hkey := key.property
  have hlength : 40 ≤ data.length := by
    simp only [hdata, length_cons, length_append, hiv, hkey, length_toBe]
    omega
  have hver : data.getD 0 0 = 1 := by
    rw [hdata]
    rfl
  have hslice₁ : ∀ h, slice data 1 16 h = iv := by
    intro h
    have hsplit : data = [0x01] ++ (iv.val ++ _) := hdata
    exact slice_append iv hsplit rfl h
  have hfront : ((0x01) :: iv.val).length = 17 := by rw [length_cons, hiv]
  have hslice₂ : ∀ h, slice data 17 16 h = key := by
    intro h
    have hsplit : data = 0x01 :: iv.val ++ (key.val ++ _) := hdata
    exact slice_append key hsplit hfront h
  -- the bytes behind the key
  have hbyte : ∀ i, data.getD (33 + i) 0 =
      (v :: options :: padSec :: reserved :: cmd ::
        (toBe 2 port.toNat ++ tail)).getD i 0 := by
    intro i
    have hsplit := hdata.trans (append_assoc (0x01 :: iv.val) key.val _).symm
    refine getD_append hsplit ?_ i 0
    rw [length_append, hfront, hkey]
  have hport : UInt16.ofNat (ofBe [data.getD 38 0, data.getD 39 0]) = port := by
    have hpair : [data.getD 38 0, data.getD 39 0] = toBe 2 port.toNat := by
      rw [hbyte 5, hbyte 6]
      rfl
    rw [hpair, ofNat_ofBe_toBe_two]
  have hv : data.getD 33 0 = v := hbyte 0
  have hoptions : data.getD 34 0 = options := hbyte 1
  have hpadSec : data.getD 35 0 = padSec := hbyte 2
  have hcmd : data.getD 37 0 = cmd := hbyte 4
  rw [decodePlaintext, dif_neg (by omega)]
  simp only [hver, ne_eq, not_true_eq_false, if_false, hslice₁, hslice₂, hv, hoptions, hpadSec,
    hsecurity, hcmd, hport, hdest]
  show (if data.length < 40 then _ else _) = _
  rw [if_neg (by omega)]
  show (if data.length < pos + (padSec >>> 4).toNat + 4 then _ else _) = _
  rw [if_neg (by omega), hsum]
  exact if_neg (not_not.2 rfl)

theorem padSec_split {padLen : UInt8} (h : padLen.toNat < 16) (security : Security) :
    ((padLen <<< 4) ||| security.toByte) >>> 4 = padLen ∧
      Security.tryFrom (((padLen <<< 4) ||| security.toByte) &&& 0x0F) = .ok security := by
  have hfin : ∀ n : Fin 16, ∀ security : Security,
      ((UInt8.ofNat n <<< 4) ||| security.toByte) >>> 4 = UInt8.ofNat n ∧
        ((UInt8.ofNat n <<< 4) ||| security.toByte) &&& 0x0F = security.toByte := by
    intro n security
    revert n
    cases security <;> decide
  obtain ⟨hshift, hmask⟩ := hfin ⟨padLen.toNat, h⟩ security
  rw [UInt8.ofNat_toNat] at hshift hmask
  refine ⟨hshift, ?_⟩
  rw [hmask]
  cases security <;> rfl

/-- **Request headers.**  The server reads what the client has put into the plaintext. -/
theorem decodePlaintext_build {iv : Octets 16} {v padLen : UInt8} {pad : ℕ → UInt8}
    {plaintext : Bytes}
    (h : buildRequestPlaintext iv key v padLen security dest pad = .ok plaintext)
    (hpad : padLen.toNat < 16) :
    decodePlaintext plaintext = .ok { iv, key, v, options := 0x01, security, dest } ∧
      plaintext.length < 65536 := by
  obtain ⟨address, haddress, h⟩ := bind_eq_ok.1 h
  obtain ⟨atyp, body, rfl, hbody, hread⟩ := readVmessAddress_put haddress
  have hplaintext := (Except.ok.inj h).symm
  set padSec := (padLen <<< 4) ||| security.toByte
  set padding := (List.range padLen.toNat).map pad
  set buf := 0x01 :: iv.val ++ key.val ++ [v, 0x01, padSec, 0x00, 0x01] ++
    (toBe 2 dest.port.toNat ++ atyp :: body) ++ padding with hbuf
  obtain ⟨hpadLen, hsecurity⟩ := padSec_split hpad security
  have hshift : (padSec >>> 4).toNat = padLen.toNat := congrArg UInt8.toNat hpadLen
  have hlength : buf.length = 41 + body.length + padLen.toNat := by
    simp [hbuf, iv.property, key.property, padding]
    omega
  have htotal : plaintext.length = buf.length + 4 := by rw [hplaintext, length_append, length_toBe]
  have htake : plaintext.take buf.length = buf := by rw [hplaintext, take_left]
  -- the address begins behind 38 bytes of fixed fields and the port
  have hdest : readDest plaintext 40 cmdTcp dest.port = .ok (dest, 41 + body.length) := by
    have hsplit : plaintext = (0x01 :: iv.val ++ key.val ++ [v, 0x01, padSec, 0x00, 0x01] ++
        toBe 2 dest.port.toNat) ++ (atyp :: (body ++ (padding ++
          toBe 4 (fnv32a buf).toNat))) := by
      rw [hplaintext, hbuf]
      simp
    have hatyp : plaintext.getD 40 0 = atyp := by
      refine getD_append hsplit ?_ 0 0
      simp [iv.property, key.property]
    rw [readDest, if_pos (.inl rfl), if_neg (by omega), hatyp]
    refine hread (hsplit.trans (append_cons _ _ _)) ?_
    simp [iv.property, key.property]
  have hdata : plaintext = 0x01 :: (iv.val ++ (key.val ++ (v :: 0x01 :: padSec :: 0x00 :: cmdTcp ::
      (toBe 2 dest.port.toNat ++ (atyp :: (body ++ (padding ++
        toBe 4 (fnv32a buf).toNat))))))) := by
    rw [hplaintext, hbuf]
    simp [cmdTcp]
  refine ⟨decodePlaintext_eq_ok hdata hsecurity hdest ?_ ?_, ?_⟩
  · omega
  · have hpos : 41 + body.length + (padSec >>> 4).toNat = buf.length := by rw [hshift, hlength]
    have hle : buf.length + 4 ≤ plaintext.length := htotal.ge
    have hend : plaintext = buf ++ (toBe 4 (fnv32a buf).toNat ++ []) := by
      rw [hplaintext, append_nil]
    have hslice := slice_append ⟨toBe 4 (fnv32a buf).toNat, length_toBe 4 _⟩
      hend rfl hle
    rw [hpos, readU32Be, dif_pos hle, hslice, htake, ofNat_ofBe_toBe_four]
  · omega

/-! ### Sealed headers -/

section Sealed

variable (crypto : VmessCrypto)

def vmessAeadEncrypt (key : Octets 16) (nonce : Octets 12) (msg aad : Bytes) (err : String) :
    Except ProxyError Bytes :=
  match crypto.aesGcm.encrypt key nonce aad msg with
  | some ct => .ok ct
  | none => .error (.protocol err)

def vmessAeadDecrypt (key : Octets 16) (nonce : Octets 12) (ciphertext aad : Bytes)
    (err : String) : Except ProxyError Bytes :=
  match crypto.aesGcm.decrypt key nonce aad ciphertext with
  | some msg => .ok msg
  | none => .error (.protocol err)

def sha256Half (bytes : Octets 16) : Octets 16 :=
  slice (crypto.sha256 bytes.val).val 0 16
    (by rw [(crypto.sha256 bytes.val).property]; decide)

def responseBodyKey (requestKey : Octets 16) : Octets 16 := sha256Half crypto requestKey
def responseBodyIv (requestIv : Octets 16) : Octets 16 := sha256Half crypto requestIv

structure HeaderDraws where
  iv : Octets 16
  key : Octets 16
  v : UInt8
  connectionNonce : Octets 8
  padLen : UInt32
  pad : ℕ → UInt8

structure EncodedHeader where
  iv : Octets 16
  key : Octets 16
  v : UInt8
  connectionNonce : Octets 8
  encLen : Bytes
  encHeader : Bytes

def requestPaths (path : Bytes) (authId : Octets 16) (connectionNonce : Octets 8) : List Bytes :=
  [path, authId.val, connectionNonce.val]

def encodeHeader (draws : HeaderDraws) (cmdKey authId : Octets 16) (dest : Address)
    (security : Security) : Except ProxyError EncodedHeader := do
  let padLen := (draws.padLen % 16).toUInt8
  let plaintext ← buildRequestPlaintext draws.iv draws.key draws.v padLen security dest draws.pad
  let hdrKey := kdf crypto 16 cmdKey.val (requestPaths pathHdrKey authId draws.connectionNonce)
  let hdrNonce := kdf crypto 12 cmdKey.val (requestPaths pathHdrIv authId draws.connectionNonce)
  let encHeader ← vmessAeadEncrypt crypto hdrKey hdrNonce plaintext authId.val
    "VMess: header ciphertext encrypt failed"
  let lenKey := kdf crypto 16 cmdKey.val (requestPaths pathLenKey authId draws.connectionNonce)
  let lenNonce := kdf crypto 12 cmdKey.val (requestPaths pathLenIv authId draws.connectionNonce)
  let encLen ← vmessAeadEncrypt crypto lenKey lenNonce (toBe 2 plaintext.length) authId.val
    "VMess: header length encrypt failed"
  pure ⟨draws.iv, draws.key, draws.v, draws.connectionNonce, encLen, encHeader⟩

def decryptLengthField (cmdKey authId : Octets 16) (connectionNonce : Octets 8) (enc : Octets 18) :
    Except ProxyError ℕ := do
  let key := kdf crypto 16 cmdKey.val (requestPaths pathLenKey authId connectionNonce)
  let nonce := kdf crypto 12 cmdKey.val (requestPaths pathLenIv authId connectionNonce)
  let plaintext ← vmessAeadDecrypt crypto key nonce enc.val authId.val
    "VMess: length field decryption failed"
  if plaintext.length < 2 then .error (.protocol "VMess: length field too short")
  else pure (ofBe (plaintext.take 2))

def hex04 (n : UInt8) : String :=
  "0x" ++ String.ofList (List.leftpad 2 '0' (Nat.toDigits 16 n.toNat))

variable {σ : Type} [AsyncRead σ]

def decodeHeader (cmdKey authId : Octets 16) (connectionNonce : Octets 8) (encLen : ℕ) :
    ReadM σ Stop VmessRequest := do
  let ciphertext ← readVec (encLen + 16)
  let key := kdf crypto 16 cmdKey.val (requestPaths pathHdrKey authId connectionNonce)
  let nonce := kdf crypto 12 cmdKey.val (requestPaths pathHdrIv authId connectionNonce)
  let plaintext ← ofProxy (vmessAeadDecrypt crypto key nonce ciphertext authId.val
    "VMess: AEAD header decryption failed")
  ofProxy (decodePlaintext plaintext)

def sendResponseHeader (v : UInt8) (respBodyKey respBodyIv : Octets 16) :
    ReadM (Duplex σ) Stop Unit := do
  let plaintext := [v, 0, 0, 0]
  let lenKey := kdf crypto 16 respBodyKey.val [pathRespLenKey]
  let lenNonce := kdf crypto 12 respBodyIv.val [pathRespLenIv]
  let encLen ← ofProxy (vmessAeadEncrypt crypto lenKey lenNonce (toBe 2 plaintext.length) []
    "VMess: resp header len encrypt failed")
  let hdrKey := kdf crypto 16 respBodyKey.val [pathRespHdrKey]
  let hdrNonce := kdf crypto 12 respBodyIv.val [pathRespHdrIv]
  let encHdr ← ofProxy (vmessAeadEncrypt crypto hdrKey hdrNonce plaintext []
    "VMess: resp header encrypt failed")
  Duplex.writeAll encLen
  Duplex.writeAll encHdr

/-- `read_response_header`.  A length field of less than two bytes makes the indexing panic. -/
def readResponseHeader (expectedV : UInt8) (respBodyKey respBodyIv : Octets 16) :
    ReadM σ Stop Unit := do
  let lenKey := kdf crypto 16 respBodyKey.val [pathRespLenKey]
  let lenNonce := kdf crypto 12 respBodyIv.val [pathRespLenIv]
  let encLen ← readArray 18
  let lenPt ← ofProxy (vmessAeadDecrypt crypto lenKey lenNonce encLen.val []
    "VMess: resp len decrypt failed")
  if lenPt.length < 2 then fail .panic
  else do
    let payloadLen := ofBe (lenPt.take 2)
    let hdrKey := kdf crypto 16 respBodyKey.val [pathRespHdrKey]
    let hdrNonce := kdf crypto 12 respBodyIv.val [pathRespHdrIv]
    let encHdr ← readVec (payloadLen + 16)
    let hdrPt ← ofProxy (vmessAeadDecrypt crypto hdrKey hdrNonce encHdr []
      "VMess: resp header decrypt failed")
    let gotV := hdrPt.headD 0
    if gotV ≠ expectedV then
      fail (.error (.protocol ("VMess: response V mismatch: got " ++ hex04 gotV ++ ", expected " ++
        hex04 expectedV)))
    else pure ()

end Sealed

/-! ### Round trips of sealed headers -/

theorem vmessAeadDecrypt_encrypt (hcrypto : crypto.Lawful) (key : Octets 16) (nonce : Octets 12)
    {msg : Bytes} (hmsg : msg.length < 65536) (aad : Bytes) (err err' : String) :
    ∃ ct, vmessAeadEncrypt crypto key nonce msg aad err = .ok ct ∧ ct.length = msg.length + 16 ∧
      vmessAeadDecrypt crypto key nonce ct aad err' = .ok msg := by
  obtain ⟨ct, hseal, hlen, hopen⟩ := hcrypto.aesGcm_opens key nonce aad msg hmsg.le
  refine ⟨ct, ?_, hlen, ?_⟩
  · rw [vmessAeadEncrypt, hseal]
  · rw [vmessAeadDecrypt, hopen]

theorem vmessAeadDecrypt_of_encrypt (hcrypto : crypto.Lawful) {nonce : Octets 12}
    {msg aad ct : Bytes} {err : String} (hmsg : msg.length < 65536)
    (h : vmessAeadEncrypt crypto key nonce msg aad err = .ok ct) (err' : String) :
    ct.length = msg.length + 16 ∧ vmessAeadDecrypt crypto key nonce ct aad err' = .ok msg := by
  obtain ⟨ct', hseal, hlen, hopen⟩ := vmessAeadDecrypt_encrypt hcrypto key nonce hmsg aad err err'
  rw [h] at hseal
  obtain rfl := Except.ok.inj hseal
  exact ⟨hlen, hopen⟩

theorem ofBe_take_toBe {n : ℕ} (h : n < 65536) : ofBe ((toBe 2 n).take 2) = n := by
  rw [take_of_length_le (length_toBe 2 n).le, ofBe_toBe h]

theorem padLen_lt (draws : HeaderDraws) : (draws.padLen % 16).toUInt8.toNat < 16 := by
  have hmod : (draws.padLen % 16).toNat < 16 := by exact Nat.mod_lt _ (by decide)
  rw [UInt32.toNat_toUInt8]
  omega

def EncodedHeader.request (enc : EncodedHeader) (security : Security) (dest : Address) :
    VmessRequest where
  iv := enc.iv
  key := enc.key
  v := enc.v
  options := 0x01
  security := security
  dest := dest

/-- **Request headers.**  The server opens the length field, and reads the header that the client
has sealed, from any stream and nothing behind it. -/
theorem decodes_header (hcrypto : crypto.Lawful) {draws : HeaderDraws} {cmdKey authId : Octets 16}
    {enc : EncodedHeader} (h : encodeHeader crypto draws cmdKey authId dest security = .ok enc) :
    ∃ (encLen : Octets 18) (headerLen : ℕ), enc.encLen = encLen.val ∧
      decryptLengthField crypto cmdKey authId enc.connectionNonce encLen = .ok headerLen ∧
      ∀ {σ : Type} [AsyncRead σ], Decodes (σ := σ)
        (decodeHeader crypto cmdKey authId enc.connectionNonce headerLen) enc.encHeader
        (enc.request security dest) := by
  obtain ⟨plaintext, hbuild, h⟩ := bind_eq_ok.1 h
  obtain ⟨encHeader, hheader, h⟩ := bind_eq_ok.1 h
  obtain ⟨encLen, hlen, h⟩ := bind_eq_ok.1 h
  obtain rfl := Except.ok.inj h
  obtain ⟨hdecode, hshort⟩ := decodePlaintext_build hbuild (padLen_lt draws)
  obtain ⟨hlength, hopenLen⟩ := vmessAeadDecrypt_of_encrypt hcrypto
    (by rw [length_toBe]; decide) hlen "VMess: length field decryption failed"
  obtain ⟨hlength', hopen⟩ := vmessAeadDecrypt_of_encrypt hcrypto hshort hheader
    "VMess: AEAD header decryption failed"
  refine ⟨⟨encLen, hlength⟩, plaintext.length, rfl, ?_, ?_⟩
  · refine bind_eq_ok.2 ⟨_, hopenLen, ?_⟩
    rw [ofBe_take_toBe hshort]
    rfl
  · refine (decodes_readVec hlength').bind_nil ?_
    exact (decodes_ofProxy hopen).bind_nil (decodes_ofProxy hdecode)

theorem exists_encodeHeader (hcrypto : crypto.Lawful) (draws : HeaderDraws)
    (cmdKey authId : Octets 16) {address : Bytes} (hdest : putDest dest = .ok address)
    (security : Security) :
    ∃ enc, encodeHeader crypto draws cmdKey authId dest security = .ok enc := by
  obtain ⟨plaintext, hbuild⟩ : ∃ plaintext, buildRequestPlaintext draws.iv draws.key draws.v
      (draws.padLen % 16).toUInt8 security dest draws.pad = .ok plaintext :=
    ⟨_, bind_eq_ok.2 ⟨address, hdest, rfl⟩⟩
  obtain ⟨-, hshort⟩ := decodePlaintext_build hbuild (padLen_lt draws)
  obtain ⟨encHeader, hheader, -⟩ := vmessAeadDecrypt_encrypt hcrypto
    (kdf crypto 16 cmdKey.val (requestPaths pathHdrKey authId draws.connectionNonce))
    (kdf crypto 12 cmdKey.val (requestPaths pathHdrIv authId draws.connectionNonce))
    hshort authId.val "VMess: header ciphertext encrypt failed" ""
  have hfield : (toBe 2 plaintext.length).length < 65536 := by
    rw [length_toBe]
    decide
  obtain ⟨encLen, hlen, -⟩ := vmessAeadDecrypt_encrypt hcrypto
    (kdf crypto 16 cmdKey.val (requestPaths pathLenKey authId draws.connectionNonce))
    (kdf crypto 12 cmdKey.val (requestPaths pathLenIv authId draws.connectionNonce))
    hfield authId.val "VMess: header length encrypt failed" ""
  exact ⟨_, bind_eq_ok.2 ⟨plaintext, hbuild, bind_eq_ok.2 ⟨encHeader, hheader,
    bind_eq_ok.2 ⟨encLen, hlen, rfl⟩⟩⟩⟩

theorem talks_ofProxy {σ α : Type} [AsyncRead σ] {result : Except ProxyError α} {a : α}
    (h : result = .ok a) : Duplex.Talks (σ := σ) (ofProxy result) [] [] fun _ => a := by
  subst h
  exact .pure a

/-- **Response headers.**  The client accepts what the server sends, and reads nothing behind it. -/
theorem decodes_response (hcrypto : crypto.Lawful) (v : UInt8)
    (respBodyKey respBodyIv : Octets 16) :
    ∃ response, (∀ {σ : Type} [AsyncRead σ], Duplex.Talks (σ := σ)
        (sendResponseHeader crypto v respBodyKey respBodyIv) [] response fun _ => ()) ∧
      ∀ {σ : Type} [AsyncRead σ], Decodes (σ := σ)
        (readResponseHeader crypto v respBodyKey respBodyIv) response () := by
  obtain ⟨encLen, hsealLen, hlength, hopenLen⟩ := vmessAeadDecrypt_encrypt hcrypto
    (kdf crypto 16 respBodyKey.val [pathRespLenKey]) (kdf crypto 12 respBodyIv.val [pathRespLenIv])
    (by decide : (toBe 2 4).length < 65536) [] "VMess: resp header len encrypt failed"
    "VMess: resp len decrypt failed"
  obtain ⟨encHdr, hseal, hlength', hopen⟩ := vmessAeadDecrypt_encrypt hcrypto
    (kdf crypto 16 respBodyKey.val [pathRespHdrKey]) (kdf crypto 12 respBodyIv.val [pathRespHdrIv])
    (by simp : [v, 0, 0, 0].length < 65536) [] "VMess: resp header encrypt failed"
    "VMess: resp header decrypt failed"
  refine ⟨encLen ++ encHdr, ?_, ?_⟩
  · refine (talks_ofProxy hsealLen).bind_send ?_
    refine (talks_ofProxy hseal).bind_send ?_
    exact (Duplex.Talks.writeAll encLen).bind_send (.writeAll encHdr)
  · refine (decodes_readArray ⟨encLen, hlength⟩).bind ?_
    refine (decodes_ofProxy hopenLen).nil_bind ?_
    have hpayload : ofBe ((toBe 2 4).take 2) = 4 := ofBe_take_toBe (by decide)
    simp only [hpayload]
    refine (decodes_readVec hlength').bind_nil ?_
    refine (decodes_ofProxy hopen).bind_nil ?_
    have hv : ¬ [v, 0, 0, 0].headD 0 ≠ v := not_not.2 rfl
    rw [if_neg hv]
    exact .pure ()

end Blackwire.Vmess
