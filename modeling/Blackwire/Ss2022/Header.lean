import Blackwire.Common.Socks5Address
import Blackwire.Vmess.Crypto
import Mathlib.Data.Nat.Dist

/-!
# Headers of Shadowsocks 2022

The primitives that the SS-2022 code calls, `make_nonce` and `derive_subkey`, and the headers of
`ss2022/inbound.rs`, `ss2022/outbound.rs` and `ss2022/variable_header.rs`.  A request is a salt, a
sealed fixed header with a timestamp and a length, and a sealed variable header with the
destination; a response is a salt, a sealed fixed header that repeats the salt of the request, and a
sealed first payload.

* `openFixedHeader_seal`, `openResponseHeader_seal`: each party reads the fixed header that the
  other one wrote, if the clocks are close.
-/

namespace Blackwire.Ss2022

open Socks5Address List Bytes

/-! ### Primitives -/

/-- The primitives: AES-256-GCM, and the key derivation of BLAKE3 with its context string. -/
structure Ss2022Crypto where
  aes256Gcm : Aead (Octets 32)
  deriveKey : String → Bytes → Octets 32

def Ss2022Crypto.Lawful (crypto : Ss2022Crypto) : Prop := crypto.aes256Gcm.Opens 16 65536

def subkeyContext : String := "shadowsocks 2022 session subkey"

def makeNonce (counter : UInt64) : Octets 12 :=
  ⟨toLe 8 counter.toNat ++ [0, 0, 0, 0], by simp⟩

def typeTcp : UInt8 := 0x00
def typeServer : UInt8 := 0x01
def maxTimeDiff : ℕ := 30

variable (crypto : Ss2022Crypto)

def deriveSubkey (psk salt : Octets 32) : Octets 32 :=
  crypto.deriveKey subkeyContext (psk.val ++ salt.val)

def sealWith (subkey : Octets 32) (counter : UInt64) (msg : Bytes) (error : String) :
    Except ProxyError Bytes :=
  match crypto.aes256Gcm.encrypt subkey (makeNonce counter) [] msg with
  | none => .error (.protocol error)
  | some ct => .ok ct

def openWith (subkey : Octets 32) (counter : UInt64) (ct : Bytes) (error : String) :
    Except ProxyError Bytes :=
  match crypto.aes256Gcm.decrypt subkey (makeNonce counter) [] ct with
  | none => .error (.protocol error)
  | some msg => .ok msg

/-! ### Fixed headers -/

def u64FromBe8 (bytes : Bytes) : Except ProxyError UInt64 :=
  if bytes.length = 8 then .ok (UInt64.ofNat (ofBe bytes))
  else .error (.protocol "SS-2022: timestamp field must be 8 bytes")

def checkTimestamp (ts : UInt64) (now : ℕ) : Except ProxyError Unit :=
  if Nat.dist ts.toNat now > maxTimeDiff then .error .authFailed else .ok ()

def requestFixedHeader (ts : UInt64) (variableLen : ℕ) : Bytes :=
  typeTcp :: (toBe 8 ts.toNat ++ toBe 2 variableLen)

def decodeFixedHeader (reqSubkey : Octets 32) (fixedCt : Octets 27) :
    Except ProxyError (UInt64 × ℕ) := do
  let fixed ← openWith crypto reqSubkey 0 fixedCt.val "SS-2022: fixed header decrypt failed"
  if fixed.length ≠ 11 ∨ fixed.headD 0 ≠ typeTcp then
    .error (.protocol "SS-2022: invalid request fixed header")
  else do
    let ts ← u64FromBe8 ((fixed.drop 1).take 8)
    pure (ts, ofBe ((fixed.drop 9).take 2))

def openFixedHeader (reqSubkey : Octets 32) (now : ℕ) (fixedCt : Octets 27) :
    Except ProxyError (UInt64 × ℕ) := do
  let (ts, variableLen) ← decodeFixedHeader crypto reqSubkey fixedCt
  checkTimestamp ts now
  pure (ts, variableLen)

def buildResponseFixedHeader (ts : UInt64) (reqSalt : Octets 32) : Bytes :=
  typeServer :: (toBe 8 ts.toNat ++ (reqSalt.val ++ [0, 0]))

def openResponseHeader (respSubkey : Octets 32) (now : ℕ) (respHdrCt : Octets 59) :
    Except ProxyError ℕ := do
  let respHdr ← openWith crypto respSubkey 0 respHdrCt.val "SS-2022: response header decrypt failed"
  if respHdr.length ≠ 43 ∨ respHdr.headD 0 ≠ typeServer then
    .error (.protocol "SS-2022: invalid response header type")
  else do
    let respTs ← u64FromBe8 ((respHdr.drop 1).take 8)
    checkTimestamp respTs now
    pure (ofBe ((respHdr.drop 41).take 2))

/-! ### The variable header -/

def buildRequestVariableHeader (dest : Address) : Except ProxyError Bytes := do
  let buf ← writeSocks5Address dest
  pure (buf ++ toBe 2 0)

def parseVariableHeader (data : Bytes) : Except ProxyError (Address × Bytes) :=
  match data with
  | [] => .error (.protocol "SS-2022: empty variable header")
  | atyp :: tail => do
    let (dest, consumed) ← decodeSocks5Address tail atyp "SS-2022"
    let pos := 1 + consumed
    if pos + 2 > data.length then .error (.protocol "SS-2022: truncated padding length")
    else
      let padLen := ofBe ((data.drop pos).take 2)
      let pos := pos + 2
      if pos + padLen > data.length then .error (.protocol "SS-2022: truncated padding")
      else .ok (dest, data.drop (pos + padLen))

def openVariableHeader (reqSubkey : Octets 32) (varCt : Bytes) :
    Except ProxyError (Address × Bytes) := do
  let header ← openWith crypto reqSubkey 1 varCt "SS-2022: variable header decrypt failed"
  parseVariableHeader header

/-! ### Reading what the other party wrote -/

variable {crypto} {ts : UInt64}

theorem sealWith_openWith (hcrypto : crypto.Lawful) (subkey : Octets 32) (counter : UInt64)
    {msg : Bytes} (hmsg : msg.length ≤ 65536) (error : String) :
    ∃ ct, sealWith crypto subkey counter msg error = .ok ct ∧ ct.length = msg.length + 16 ∧
      ∀ error', openWith crypto subkey counter ct error' = .ok msg := by
  obtain ⟨ct, hseal, hlen, hopen⟩ := hcrypto subkey (makeNonce counter) [] msg hmsg
  refine ⟨ct, by rw [sealWith, hseal], hlen, fun error' => ?_⟩
  rw [openWith, hopen]

theorem checkTimestamp_eq_ok {now : ℕ} :
    checkTimestamp ts now = .ok () ↔ Nat.dist ts.toNat now ≤ maxTimeDiff := by
  unfold checkTimestamp
  split_ifs with h
  · exact ⟨fun h => (by cases h), fun hle => absurd hle (by omega)⟩
  · exact ⟨fun _ => by omega, fun _ => rfl⟩

theorem u64FromBe8_append (typ : UInt8) (ts : UInt64) (tail : Bytes) :
    u64FromBe8 (((typ :: (toBe 8 ts.toNat ++ tail)).drop 1).take 8) = .ok ts := by
  have hlen := length_toBe 8 ts.toNat
  rw [drop_succ_cons, drop_zero, take_left' hlen, u64FromBe8, if_pos hlen,
    ofBe_toBe ts.toNat_lt, UInt64.ofNat_toNat]

theorem length_requestFixedHeader (ts : UInt64) (variableLen : ℕ) :
    (requestFixedHeader ts variableLen).length = 11 := by
  simp [requestFixedHeader]

theorem length_buildResponseFixedHeader (ts : UInt64) (reqSalt : Octets 32) :
    (buildResponseFixedHeader ts reqSalt).length = 43 := by
  simp [buildResponseFixedHeader, reqSalt.property]

theorem decodeFixedHeader_seal {reqSubkey : Octets 32} {fixedCt : Octets 27} {variableLen : ℕ}
    (hlen : variableLen < 65536) (hopen : ∀ error, openWith crypto reqSubkey 0 fixedCt.val error =
      .ok (requestFixedHeader ts variableLen)) :
    decodeFixedHeader crypto reqSubkey fixedCt = .ok (ts, variableLen) := by
  have hvalid : ¬((requestFixedHeader ts variableLen).length ≠ 11 ∨
      (requestFixedHeader ts variableLen).headD 0 ≠ typeTcp) :=
    not_or.2 ⟨not_not.2 (length_requestFixedHeader ..), not_not.2 rfl⟩
  have hback : ((requestFixedHeader ts variableLen).drop 9).take 2 = toBe 2 variableLen := by
    rw [requestFixedHeader, drop_succ_cons, drop_left' (length_toBe ..)]
    exact take_of_length_le (length_toBe ..).le
  refine bind_eq_ok.2 ⟨_, hopen _, ?_⟩
  rw [if_neg hvalid]
  refine bind_eq_ok.2 ⟨ts, u64FromBe8_append .., ?_⟩
  rw [hback, ofBe_toBe hlen]
  rfl

theorem openFixedHeader_seal {reqSubkey : Octets 32} {fixedCt : Octets 27} {variableLen : ℕ}
    (hlen : variableLen < 65536) (hopen : ∀ error, openWith crypto reqSubkey 0 fixedCt.val error =
      .ok (requestFixedHeader ts variableLen)) {now : ℕ}
    (hclock : Nat.dist ts.toNat now ≤ maxTimeDiff) :
    openFixedHeader crypto reqSubkey now fixedCt = .ok (ts, variableLen) := by
  refine bind_eq_ok.2 ⟨_, decodeFixedHeader_seal hlen hopen, ?_⟩
  exact bind_eq_ok.2 ⟨(), checkTimestamp_eq_ok.2 hclock, rfl⟩

theorem openResponseHeader_seal {respSubkey : Octets 32} {respHdrCt : Octets 59}
    {reqSalt : Octets 32} (hopen : ∀ error, openWith crypto respSubkey 0 respHdrCt.val error =
      .ok (buildResponseFixedHeader ts reqSalt)) {now : ℕ}
    (hclock : Nat.dist ts.toNat now ≤ maxTimeDiff) :
    openResponseHeader crypto respSubkey now respHdrCt = .ok 0 := by
  have hvalid : ¬((buildResponseFixedHeader ts reqSalt).length ≠ 43 ∨
      (buildResponseFixedHeader ts reqSalt).headD 0 ≠ typeServer) :=
    not_or.2 ⟨not_not.2 (length_buildResponseFixedHeader ..), not_not.2 rfl⟩
  have hback : ((buildResponseFixedHeader ts reqSalt).drop 41).take 2 = [0, 0] := by
    have hfront : (toBe 8 ts.toNat ++ reqSalt.val).length = 40 := by simp [reqSalt.property]
    rw [buildResponseFixedHeader, drop_succ_cons, ← append_assoc, drop_left' hfront]
    rfl
  refine bind_eq_ok.2 ⟨_, hopen _, ?_⟩
  rw [if_neg hvalid]
  refine bind_eq_ok.2 ⟨ts, u64FromBe8_append .., ?_⟩
  refine bind_eq_ok.2 ⟨(), checkTimestamp_eq_ok.2 hclock, ?_⟩
  rw [hback]
  rfl

theorem parseVariableHeader_append {dest : Address} {buf : Bytes}
    (hbuf : writeSocks5Address dest = .ok buf) {padding : Bytes} (hpad : padding.length < 65536)
    (payload : Bytes) :
    parseVariableHeader (buf ++ (toBe 2 padding.length ++ (padding ++ payload))) =
      .ok (dest, payload) := by
  obtain ⟨atyp, body, rfl, hdecode⟩ := decodeSocks5Address_append hbuf
  have hpos : (atyp :: body).length = 1 + body.length := by rw [length_cons, Nat.add_comm]
  have hpadLen : (((atyp :: body) ++ (toBe 2 padding.length ++ (padding ++ payload))).drop
      (1 + body.length)).take 2 = toBe 2 padding.length := by
    rw [drop_left' hpos, take_left' (length_toBe ..)]
  have hrest : ((atyp :: body) ++ (toBe 2 padding.length ++ (padding ++ payload))).drop
      (1 + body.length + 2 + padding.length) = payload := by
    rw [← append_assoc, ← append_assoc, drop_left']
    simp only [length_append, length_cons, length_toBe]
    omega
  have hpadValue : ofBe (toBe 2 padding.length) = padding.length := ofBe_toBe hpad
  refine bind_eq_ok.2 ⟨_, hdecode "SS-2022" _, ?_⟩
  simp only [hpadLen, hpadValue, hrest, length_cons, length_append, length_toBe]
  rw [if_neg (by omega), if_neg (by omega)]

/-! ### Primitives that can be evaluated -/

def sampleCrypto : Ss2022Crypto where
  aes256Gcm := Aead.tagging fun key nonce aad msg =>
    Vmess.digest 16 (key.val ++ nonce.val ++ aad ++ msg)
  deriveKey context material := Vmess.digest 32 (utf8 context ++ material)

theorem sampleCrypto_lawful : sampleCrypto.Lawful := Aead.tagging_opens _ _

end Blackwire.Ss2022
