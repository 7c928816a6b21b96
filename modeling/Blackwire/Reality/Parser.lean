import Blackwire.Reality.Tls13
import Blackwire.Tls.ClientHello

/-!
# The REALITY parser of a ClientHello

`reality/parser.rs`: the fields of a ClientHello that REALITY uses, and the public keys in its
`key_share` extension.  A position in the body is modelled by the bytes from there on, so a check
against the end of the body is a check of their length.
-/

namespace Blackwire.Reality

open List Bytes

/-! ### Key shares -/

def groupX25519 : ℕ := 29
def groupX25519Mlkem768 : ℕ := 0x11ec

/-- The keys that `collect_x25519_auth_keys` has seen: x25519 alone, and the end of an ML-KEM one.
-/
structure SeenKeys where
  standaloneX25519 : Option (Octets 32)
  mlkemTail : Option (Octets 32)

def SeenKeys.note (seen : SeenKeys) (group : ℕ) (key : Bytes) : SeenKeys :=
  if h : group = groupX25519 ∧ key.length = 32 then
    { seen with standaloneX25519 := some ⟨key, h.2⟩ }
  else if h : group = groupX25519Mlkem768 ∧ 32 ≤ key.length then
    { seen with mlkemTail := some ⟨key.drop (key.length - 32), by rw [length_drop]; omega⟩ }
  else seen

/-- The loop of `collect_x25519_auth_keys`; `left` is what the announced length still allows. -/
def sharesLoop : ℕ → ℕ → Bytes → SeenKeys → SeenKeys
  | 0, _, _, seen => seen
  | fuel + 1, left, rest, seen =>
    if left < 4 then seen
    else
      match Tlv.header rest with
      | none => seen
      | some (group, keyLen, rest) =>
        if rest.length < keyLen then seen
        else sharesLoop fuel (left - (4 + keyLen)) (rest.drop keyLen)
          (seen.note group (rest.take keyLen))

variable (extData body : Bytes)

def collectX25519AuthKeys : List (Octets 32) :=
  if extData.length < 2 then []
  else
    let sharesLen := Tlv.word extData
    let seen := sharesLoop extData.length sharesLen (extData.drop 2) ⟨none, none⟩
    seen.standaloneX25519.toList ++
      match seen.mlkemTail with
      | some k => if seen.standaloneX25519 ≠ some k then [k] else []
      | none => []

def firstX25519KeyShare : Option (Octets 32) :=
  (collectX25519AuthKeys extData).head?

/-! ### Fields -/

structure ClientHelloFields where
  random : Octets 32
  sessionId : Octets 32
  x25519KeyShare : Octets 32
  sni : Bytes

def skipCipherSuites (rest : Bytes) : Except ProxyError Bytes :=
  if rest.length < 2 then .error (.protocol "truncated at cipher_suites_len")
  else if rest.length < 2 + Tlv.word rest then .error (.protocol "truncated cipher_suites")
  else .ok (rest.drop (2 + Tlv.word rest))

def skipCompressionMethods (rest : Bytes) : Except ProxyError Bytes :=
  if rest.length = 0 then .error (.protocol "truncated at compression_methods_len")
  else if rest.length < 1 + (rest.getD 0 0).toNat then
    .error (.protocol "truncated compression_methods")
  else .ok (rest.drop (1 + (rest.getD 0 0).toNat))

def parseSni : Bytes :=
  if extData.length < 5 then []
  else
    let nameLen := Tlv.word (extData.drop 3)
    if extData.length < 5 + nameLen then [] else (extData.drop 5).take nameLen

/-- The key share and the server name that the loop of `parse_client_hello` has found. -/
structure Found where
  keyShare : Option (Octets 32)
  sni : Bytes

def Found.note (found : Found) (extType : ℕ) (extData : Bytes) : Found :=
  if extType = 0x0000 then { found with sni := parseSni extData }
  else if extType = 0x0033 then { found with keyShare := firstX25519KeyShare extData }
  else found

def extensionLoop : ℕ → Bytes → Found → Except ProxyError Found
  | 0, _, found => .ok found
  | fuel + 1, rest, found =>
    match Tlv.header rest with
    | none => .ok found
    | some (extType, extLen, rest) =>
      if rest.length < extLen then .error (.protocol "truncated extension data")
      else extensionLoop fuel (rest.drop extLen) (found.note extType (rest.take extLen))

def parseClientHello : Except ProxyError ClientHelloFields :=
  if h : body.length < 71 then
    .error (.protocol ("ClientHello body too short: " ++ toString body.length ++ " bytes"))
  else if body.getD 0 0 ≠ 0x01 then
    .error (.protocol
      ("expected ClientHello (0x01), got 0x" ++ hexPad 2 (body.getD 0 0).toNat))
  else if (body.getD 38 0).toNat ≠ 32 then
    .error (.protocol
      ("session_id_len must be 32, got " ++ toString (body.getD 38 0).toNat))
  else do
    let rest ← skipCipherSuites (body.drop 71)
    let rest ← skipCompressionMethods rest
    if rest.length < 2 then .error (.protocol "truncated at extensions_len")
    else
      let found ← extensionLoop rest.length (rest.drop 2) ⟨none, []⟩
      match found.keyShare with
      | none => .error (.protocol "no x25519 key share found in ClientHello")
      | some keyShare =>
        .ok ⟨slice body 6 32 (by omega), slice body 39 32 (by omega), keyShare,
          found.sni⟩

/-- The loop of `key_share_extension_data`; `left` is what the announced length still allows. -/
def keyShareLoop : ℕ → ℕ → Bytes → Option Bytes
  | 0, _, _ => none
  | fuel + 1, left, rest =>
    if left < 4 then none
    else
      match Tlv.header rest with
      | none => none
      | some (extType, extLen, rest) =>
        if rest.length < extLen then none
        else if extType = 0x0033 then some (rest.take extLen)
        else keyShareLoop fuel (left - (4 + extLen)) (rest.drop extLen)

def keyShareExtensionData : Option Bytes :=
  if body.length < 38 + 1 ∨ body.getD 0 0 ≠ 0x01 then none
  else
    let rest := body.drop (38 + 1 + (body.getD 38 0).toNat)
    if rest.length < 2 then none
    else
      let rest := rest.drop (2 + Tlv.word rest)
      if rest.length = 0 then none
      else
        let rest := rest.drop (1 + (rest.getD 0 0).toNat)
        if rest.length < 2 then none
        else
          let extTotal := Tlv.word rest
          let rest := rest.drop 2
          keyShareLoop rest.length (min extTotal rest.length) rest

def realityAuthPeerPublicKeys : List (Octets 32) :=
  match keyShareExtensionData body with
  | none => []
  | some extData => collectX25519AuthKeys extData

/-! ### Reading lists of fields -/

section Loops

variable {fields : List (UInt16 × Bytes)} {fuel : ℕ} (hfits : ∀ f ∈ fields, f.2.length < 65536)
  (hfuel : fields.length < fuel)

include hfits hfuel

theorem extensionLoop_putAll (found : Found) : extensionLoop fuel (Tlv.putAll fields) found =
      .ok (fields.foldl (fun found f => found.note f.1.toNat f.2) found) := by
  induction fields generalizing fuel found with
  | nil => cases fuel <;> rfl
  | cons f fields ih =>
    obtain ⟨fuel, rfl⟩ : ∃ k, fuel = k + 1 := ⟨fuel - 1, by omega⟩
    rw [extensionLoop, Tlv.putAll_cons, Tlv.header_put f.1 (hfits f mem_cons_self)]
    dsimp only
    rw [if_neg (by rw [length_append]; omega), drop_left, take_left]
    exact ih (fun g hg => hfits g (mem_cons_of_mem _ hg)) (by simp at hfuel; omega) _

theorem keyShareLoop_putAll :
    keyShareLoop fuel (Tlv.putAll fields).length (Tlv.putAll fields) =
      (fields.find? fun f => f.1.toNat = 0x0033).map Prod.snd := by
  induction fields generalizing fuel with
  | nil => cases fuel <;> rfl
  | cons f fields ih =>
    obtain ⟨fuel, rfl⟩ : ∃ k, fuel = k + 1 := ⟨fuel - 1, by omega⟩
    rw [keyShareLoop, Tlv.length_putAll_cons, if_neg (by omega), Tlv.putAll_cons,
      Tlv.header_put f.1 (hfits f mem_cons_self)]
    dsimp only
    rw [drop_left, Nat.add_sub_cancel_left]
    by_cases hkey : f.1.toNat = 0x0033
    · simp [hkey]
    · rw [ih (fun g hg => hfits g (mem_cons_of_mem _ hg))
        (by simp at hfuel; omega)]
      simp [hkey]

theorem sharesLoop_putAll (seen : SeenKeys) :
    sharesLoop fuel (Tlv.putAll fields).length (Tlv.putAll fields) seen =
      fields.foldl (fun seen f => seen.note f.1.toNat f.2) seen := by
  induction fields generalizing fuel seen with
  | nil => cases fuel <;> rfl
  | cons f fields ih =>
    obtain ⟨fuel, rfl⟩ : ∃ k, fuel = k + 1 := ⟨fuel - 1, by omega⟩
    rw [sharesLoop, Tlv.length_putAll_cons, if_neg (by omega), Tlv.putAll_cons,
      Tlv.header_put f.1 (hfits f mem_cons_self)]
    dsimp only
    rw [if_neg (by rw [length_append]; omega), drop_left, take_left, Nat.add_sub_cancel_left]
    exact ih (fun g hg => hfits g (mem_cons_of_mem _ hg)) (by simp at hfuel; omega) _

end Loops

/-! ### The ClientHello of the builder -/

section Build

open Tls

variable {c : HelloChoices} {random sessionId : Octets 32}

theorem collectX25519AuthKeys_keyShare (hfits : (keyShare c).length < 65536) :
    collectX25519AuthKeys (keyShare c) = [c.x25519Pub] := by
  have hlen : (keyShare c).length = 2 + (Tlv.putAll (shareFields c)).length := by
    rw [keyShare, clientShares_eq, length_append, length_toBe]
  have hcount := Tlv.four_mul_length_le (shareFields c)
  have hshares : ∀ f ∈ shareFields c, f.2.length < 65536 := fun f hf => by
    have := Tlv.length_lt_of_mem hf
    omega
  have hseen : (shareFields c).foldl (fun seen f => seen.note f.1.toNat f.2) ⟨none, none⟩ =
      (⟨some c.x25519Pub, none⟩ : SeenKeys) := by
    have hgrease : ∀ seen : SeenKeys, seen.note (greaseU16 c.greaseCipher).toNat [0x00] = seen := by
      simp [SeenKeys.note]
    have hkey : ∀ seen : SeenKeys, seen.note (29 : UInt16).toNat c.x25519Pub.val =
        { seen with standaloneX25519 := some c.x25519Pub } := by
      simp [SeenKeys.note, groupX25519, c.x25519Pub.property]
    rw [shareFields, foldl_cons, foldl_cons, hgrease, hkey]
    cases c.secp256r1Pub with
    | none => rfl
    | some pubkey => rfl
  rw [collectX25519AuthKeys, keyShare, clientShares_eq,
    Tlv.word_toBe (by omega), drop_left' (length_toBe 2 _)]
  rw [keyShare, clientShares_eq] at hlen
  dsimp only
  rw [sharesLoop_putAll hshares (by omega), hseen]
  rfl

theorem parseSni_serverName (hfits : (serverName c).length < 65536) :
    parseSni (serverName c) = utf8 c.sni := by
  have hlen : (serverName c).length = 5 + (utf8 c.sni).length := by
    simp only [serverName, length_append, length_cons, length_toBe]
    omega
  have hdrop : (serverName c).drop 3 =
      toBe 2 (utf8 c.sni).length ++ utf8 c.sni := by
    rfl
  have hdrop' : (serverName c).drop 5 = utf8 c.sni := by
    rw [← drop_drop (i := 2), hdrop, drop_left' (length_toBe 2 _)]
  rw [parseSni, if_neg (by omega), hdrop, Tlv.word_toBe (by omega)]
  rw [if_neg (by omega), hdrop', take_length]

theorem length_cipherSuites : (cipherSuites .chrome131 c).length = 34 := by
  rfl

section

variable (c : HelloChoices)

theorem length_behindSessionId :
    (behindSessionId .chrome131 c).length = 38 + (buildExtensions .chrome131 c).length := by
  simp only [behindSessionId, length_append, length_cons, length_cipherSuites, length_toBe]
  omega

theorem word_behindSessionId : Tlv.word (behindSessionId .chrome131 c) = 32 := by
  exact Tlv.word_toBe (by decide) _

theorem drop_behindSessionId : (behindSessionId .chrome131 c).drop (2 + 32) = 0x01 :: 0x00 ::
      (toBe 2 (buildExtensions .chrome131 c).length ++ buildExtensions .chrome131 c) :=
  drop_left' length_cipherSuites

theorem skip_behindSessionId : skipCipherSuites (behindSessionId .chrome131 c) =
      .ok (0x01 :: 0x00 :: (toBe 2 (buildExtensions .chrome131 c).length ++
        buildExtensions .chrome131 c)) := by
  have hlen := length_behindSessionId c
  rw [skipCipherSuites, if_neg (by omega), word_behindSessionId, if_neg (by omega),
    drop_behindSessionId]

end

theorem skip_compressionMethods (tail : Bytes) :
    skipCompressionMethods (0x01 :: 0x00 :: tail) = .ok tail := by
  simp [skipCompressionMethods]

theorem found_extensionFields (hfits : ∀ f ∈ extensionFields .chrome131 c, f.2.length < 65536) :
    (extensionFields .chrome131 c).foldl (fun found f => Found.note found f.1.toNat f.2)
      ⟨none, []⟩ = ⟨some c.x25519Pub, utf8 c.sni⟩ := by
  have hname := parseSni_serverName (hfits (0x0000, serverName c)
    (by simp [extensionFields, FingerprintProfile.chrome131, extensionValue]))
  have hkey := collectX25519AuthKeys_keyShare (hfits (0x0033, keyShare c)
    (by simp [extensionFields, FingerprintProfile.chrome131, extensionValue]))
  obtain ⟨hzero, hshare⟩ := greaseU16_ne c.greaseExt
  simp [extensionFields, FingerprintProfile.chrome131, extensionValue, Found.note, hname, hkey,
    firstX25519KeyShare, hzero, hshare]

theorem buildHandshake_fixed (c : HelloChoices) (random sessionId : Octets 32) :
    71 ≤ (buildHandshake .chrome131 c random sessionId).length ∧
      (buildHandshake .chrome131 c random sessionId).getD 0 0 = 0x01 ∧
      (buildHandshake .chrome131 c random sessionId).getD 38 0 = 0x20 ∧
      (buildHandshake .chrome131 c random sessionId).drop 71 = behindSessionId .chrome131 c := by
  have hfront := length_helloFront .chrome131 c random
  have hmiddle : (helloFront .chrome131 c random ++ sessionId.val).length = 71 := by
    rw [length_append, hfront, sessionId.property]
  have hlast : helloFront .chrome131 c random =
      (0x01 :: (toBe 3 (67 + (behindSessionId .chrome131 c).length) ++
        (0x03 :: 0x03 :: random.val))) ++ [0x20] := by
    simp [helloFront]
  rw [buildHandshake_eq, ← append_assoc]
  refine ⟨?_, rfl, ?_, drop_left' hmiddle⟩
  · rw [length_append]
    omega
  · rw [hlast, append_assoc, append_assoc]
    exact getD_append rfl (by simp [random.property]) 0 0

section

variable (hfits : (buildHandshake .chrome131 c random sessionId).length < 65536)
include hfits

theorem extensionFields_fits : (buildExtensions .chrome131 c).length < 65536 ∧
      ∀ f ∈ extensionFields .chrome131 c, f.2.length < 65536 := by
  have hlen : (buildExtensions .chrome131 c).length < 65536 := by
    rw [buildHandshake_eq] at hfits
    simp only [behindSessionId, length_append, length_cons] at hfits
    omega
  refine ⟨hlen, fun f hf => ?_⟩
  have hlt := Tlv.length_lt_of_mem hf
  rw [← buildExtensions_eq] at hlt
  omega

/-- **The parser reads what the builder has written.** -/
theorem parseClientHello_build :
    parseClientHello (buildHandshake .chrome131 c random sessionId) =
      .ok ⟨random, sessionId, c.x25519Pub, utf8 c.sni⟩ := by
  obtain ⟨hlen, htype, hsid, hdrop⟩ := buildHandshake_fixed c random sessionId
  obtain ⟨hext, hfields⟩ := extensionFields_fits hfits
  have hcount := Tlv.four_mul_length_le (extensionFields .chrome131 c)
  rw [← buildExtensions_eq] at hcount
  have hloop : extensionLoop (2 + (buildExtensions .chrome131 c).length)
      (buildExtensions .chrome131 c) ⟨none, []⟩ = .ok ⟨some c.x25519Pub, utf8 c.sni⟩ := by
    rw [buildExtensions_eq] at hcount ⊢
    rw [extensionLoop_putAll hfields (by omega), found_extensionFields hfields]
  have hlayout : buildHandshake .chrome131 c random sessionId =
      (0x01 :: (toBe 3 (67 + (behindSessionId .chrome131 c).length) ++ [0x03, 0x03])) ++
        (random.val ++ (0x20 :: (sessionId.val ++ behindSessionId .chrome131 c))) := by
    rw [buildHandshake_eq]
    simp [helloFront]
  have hrandom : slice (buildHandshake .chrome131 c random sessionId) 6 32 (by omega) =
      random := slice_append random hlayout (by simp) _
  have hsession : slice (buildHandshake .chrome131 c random sessionId) 39 32 (by omega) =
      sessionId := slice_append sessionId (buildHandshake_eq ..) (length_helloFront ..) _
  rw [parseClientHello, dif_neg (by omega), if_neg (by rw [htype]; decide),
    if_neg (by rw [hsid]; decide), hdrop, skip_behindSessionId]
  dsimp only [bind, Except.bind]
  rw [skip_compressionMethods]
  dsimp only
  rw [if_neg (by rw [length_append, length_toBe]; omega), length_append,
    length_toBe, drop_left' (length_toBe 2 _), hloop]
  dsimp only
  rw [hrandom, hsession]

/-- **The key for authentication is the one of the builder.** -/
theorem realityAuthPeerPublicKeys_build :
    realityAuthPeerPublicKeys (buildHandshake .chrome131 c random sessionId) = [c.x25519Pub] := by
  obtain ⟨hlen, htype, hsid, hdrop⟩ := buildHandshake_fixed c random sessionId
  obtain ⟨hext, hfields⟩ := extensionFields_fits hfits
  have hcount := Tlv.four_mul_length_le (extensionFields .chrome131 c)
  have hpos : 0 < (extensionFields .chrome131 c).length := by simp [extensionFields]
  have hshare : (0x0033, keyShare c) ∈ extensionFields .chrome131 c := by
    simp [extensionFields, FingerprintProfile.chrome131, extensionValue]
  have hloop : keyShareLoop (buildExtensions .chrome131 c).length
      (buildExtensions .chrome131 c).length (buildExtensions .chrome131 c) = some (keyShare c) := by
    rw [buildExtensions_eq, keyShareLoop_putAll hfields]
    · simp [extensionFields, FingerprintProfile.chrome131, extensionValue]
    · omega
  have hdata : keyShareExtensionData (buildHandshake .chrome131 c random sessionId) =
      some (keyShare c) := by
    have hdrop' : (buildHandshake .chrome131 c random sessionId).drop
        (38 + 1 + (0x20 : UInt8).toNat) = behindSessionId .chrome131 c := hdrop
    have hbehind := length_behindSessionId c
    rw [keyShareExtensionData, if_neg (by rw [htype]; simp; omega), hsid, hdrop']
    dsimp only
    rw [if_neg (by omega), word_behindSessionId, drop_behindSessionId, if_neg (by simp)]
    -- one compression method
    have hskip : ∀ tail : Bytes, (0x01 :: 0x00 :: tail).drop
        (1 + ((0x01 :: 0x00 :: tail).getD 0 0).toNat) = tail := fun _ => rfl
    rw [hskip, if_neg (by rw [length_append, length_toBe]; omega), Tlv.word_toBe hext,
      drop_left' (length_toBe 2 _), min_self, hloop]
  rw [realityAuthPeerPublicKeys, hdata]
  exact collectX25519AuthKeys_keyShare (hfields _ hshare)

end

end Build

end Blackwire.Reality
