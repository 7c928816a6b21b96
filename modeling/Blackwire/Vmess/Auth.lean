import Blackwire.Vmess.Crypto

/-!
# Users of VMess

The key derivation of `vmess/kdf.rs`, the auth ids of `vmess/auth.rs`, and the user registry of
`vmess/inbound.rs`.  A client names itself by an encrypted block that holds its clock; the server
tries the key of every user until one opens the block.

* `findByAuth_eq`: the lookup finds the user, in whatever order the map is walked, unless the key of
  another user validates the auth id as well.
-/

namespace Blackwire.Vmess

open List Bytes

variable (crypto : VmessCrypto)

/-! ### Key derivation -/

def vmessAeadKdfSalt : Bytes := utf8 "VMess AEAD KDF"
def hmacBlockSize : ℕ := 64

def hmacWithKdfHash (hash : Bytes → Octets 32) (key msg : Bytes) : Octets 32 :=
  let key := if key.length > hmacBlockSize then (hash key).val else key
  let blockKey := key ++ List.replicate (hmacBlockSize - key.length) 0
  let ipad := blockKey.map (0x36 ^^^ ·)
  let opad := blockKey.map (0x5c ^^^ ·)
  let inner := hash (ipad ++ msg)
  hash (opad ++ inner.val)

def kdfHashRev : List Bytes → Bytes → Octets 32
  | [], msg => crypto.hmacSha256 vmessAeadKdfSalt msg
  | key :: hashPaths, msg => hmacWithKdfHash (kdfHashRev hashPaths) key msg

def kdfHash (paths : List Bytes) (msg : Bytes) : Octets 32 := kdfHashRev crypto paths.reverse msg

def kdf (n : ℕ) (key : Bytes) (paths : List Bytes) (h : n ≤ 32 := by decide) : Octets n :=
  ⟨(kdfHash crypto paths key).val.take n, by
    rw [length_take, (kdfHash crypto paths key).property, min_eq_left h]⟩

/-! ### Auth ids -/

def maxTimeDiffSecs : ℕ := 120
def cmdKeySalt : Bytes := utf8 "c48619fe-8f02-49e0-b9e9-edf763e17e21"
def kdfAuthId : Bytes := utf8 "AES Auth ID Encryption"

def cmdKey (uuid : Octets 16) : Octets 16 := crypto.md5 (uuid.val ++ cmdKeySalt)

def authBlock (timestamp : UInt64) (random : Octets 4) : Octets 16 :=
  let head := toBe 8 timestamp.toNat ++ random.val
  ⟨head ++ toBe 4 (crypto.crc32 head).toNat, by simp [head, length_toBe, random.property]⟩

theorem keyLen_le : 16 ≤ 32 := by decide

def generateAuthIdAt (cmdKey : Octets 16) (timestamp : UInt64) (random : Octets 4) : Octets 16 :=
  crypto.aesEncrypt (kdf crypto 16 cmdKey.val [kdfAuthId] keyLen_le)
    (authBlock crypto timestamp random)

def absDiff (a b : ℕ) : ℕ := max a b - min a b

def validateAuthId (cmdKey authId : Octets 16) (maxDiffSecs : ℕ) (now : UInt64) : Bool :=
  let block := (crypto.aesDecrypt (kdf crypto 16 cmdKey.val [kdfAuthId] keyLen_le) authId).val
  let expectedCrc := crypto.crc32 (block.take 12)
  let receivedCrc := UInt32.ofNat (ofBe ((block.drop 12).take 4))
  if expectedCrc ≠ receivedCrc then false
  else
    let timestamp := ofBe (block.take 8)
    decide (absDiff now.toNat timestamp ≤ maxDiffSecs)

variable {crypto}

theorem validateAuthId_generate (hcrypto : crypto.Lawful) (cmdKey : Octets 16)
    {timestamp now : UInt64} (random : Octets 4) {maxDiffSecs : ℕ}
    (hclock : absDiff now.toNat timestamp.toNat ≤ maxDiffSecs) :
    validateAuthId crypto cmdKey (generateAuthIdAt crypto cmdKey timestamp random) maxDiffSecs now =
      true := by
  have htime : ofBe (toBe 8 timestamp.toNat) = timestamp.toNat := ofBe_toBe timestamp.toNat_lt
  have hhead : (toBe 8 timestamp.toNat ++ random.val).length = 12 := by
    rw [length_append, length_toBe, random.property]
  have hblock : (authBlock crypto timestamp random).val.take 12 =
      toBe 8 timestamp.toNat ++ random.val := take_left' hhead
  have hsum : ((authBlock crypto timestamp random).val.drop 12).take 4 =
      toBe 4 (crypto.crc32 (toBe 8 timestamp.toNat ++ random.val)).toNat := by
    rw [authBlock, drop_left' hhead, take_of_length_le (length_toBe 4 _).le]
  have hstamp : (authBlock crypto timestamp random).val.take 8 = toBe 8 timestamp.toNat := by
    have htake : (authBlock crypto timestamp random).val.take 8 =
        ((authBlock crypto timestamp random).val.take 12).take 8 := by
      rw [take_take]
      rfl
    rw [htake, hblock, take_left' (length_toBe 8 _)]
  simp [validateAuthId, generateAuthIdAt, hcrypto.aesDecrypt_aesEncrypt, hblock, hsum, hstamp,
    htime, ofNat_ofBe_toBe_four, hclock]

/-! ### The registry -/

variable (crypto)

structure VmessUser where
  uuid : Octets 16
  cmdKey : Octets 16
  email : String
  deriving DecidableEq

structure VmessUserRegistry where
  users : List (Octets 16 × VmessUser)
  keyed : ∀ entry ∈ users, entry.1 = entry.2.cmdKey ∧ entry.1 = cmdKey crypto entry.2.uuid
  nodup : (users.map Prod.fst).Nodup

variable {crypto}

namespace VmessUserRegistry

def new : VmessUserRegistry crypto := ⟨[], by simp, nodup_nil⟩

def addUser (uuid : Octets 16) (email : String) (registry : VmessUserRegistry crypto) :
    VmessUserRegistry crypto where
  users := (cmdKey crypto uuid, ⟨uuid, cmdKey crypto uuid, email⟩) ::
    registry.users.filter fun entry => entry.1 ≠ cmdKey crypto uuid
  keyed := by
    intro entry hentry
    rcases mem_cons.1 hentry with rfl | hold
    · exact ⟨rfl, rfl⟩
    · exact registry.keyed entry (mem_of_mem_filter hold)
  nodup := by
    rw [map_cons, nodup_cons]
    constructor
    · simp
    · exact registry.nodup.sublist (filter_sublist.map Prod.fst)

abbrev Order (registry : VmessUserRegistry crypto) :=
  {order : List (Octets 16 × VmessUser) // order.Perm registry.users}

def findByAuth (registry : VmessUserRegistry crypto) (order : registry.Order)
    (now : Octets 16 → UInt64) (authId : Octets 16) : Option VmessUser :=
  (order.val.find? fun entry =>
    validateAuthId crypto entry.1 authId maxTimeDiffSecs (now entry.1)).map Prod.snd

variable {registry : VmessUserRegistry crypto}

theorem findByAuth_eq (order : registry.Order) {now : Octets 16 → UInt64} {authId key : Octets 16}
    {user : VmessUser} (huser : (key, user) ∈ registry.users)
    (hvalid : validateAuthId crypto key authId maxTimeDiffSecs (now key) = true)
    (honly : ∀ entry ∈ registry.users,
      validateAuthId crypto entry.1 authId maxTimeDiffSecs (now entry.1) = true → entry.1 = key) :
    registry.findByAuth order now authId = some user := by
  rw [findByAuth]
  cases hfind : order.val.find? fun entry =>
      validateAuthId crypto entry.1 authId maxTimeDiffSecs (now entry.1) with
  | none =>
    rw [List.find?_eq_none] at hfind
    exact absurd hvalid (hfind (key, user) (order.property.mem_iff.2 huser))
  | some entry =>
    have hmem := order.property.mem_iff.1 (mem_of_find?_eq_some hfind)
    have hkey := honly entry hmem (by simpa using List.find?_some hfind)
    rw [inj_on_of_nodup_map registry.nodup hmem huser hkey]
    rfl

end VmessUserRegistry

end Blackwire.Vmess
