import Blackwire.Lib.Aead
import Blackwire.Common.Address

/-!
# Primitives of VMess

The cryptographic primitives that the VMess code calls, as the fields of a structure, with what the
results assume of them; and the security types of `vmess/codec.rs`.
-/

namespace Blackwire.Vmess

/-- The primitives: AES-128-GCM, ChaCha20-Poly1305, the AES-128 block cipher, hashes, HMAC, CRC-32,
and SHAKE-128 as the stream of its output bytes. -/
structure VmessCrypto where
  aesGcm : Aead (Octets 16)
  chaCha : Aead (Octets 32)
  aesEncrypt : Octets 16 → Octets 16 → Octets 16
  aesDecrypt : Octets 16 → Octets 16 → Octets 16
  md5 : Bytes → Octets 16
  sha256 : Bytes → Octets 32
  hmacSha256 : Bytes → Bytes → Octets 32
  crc32 : Bytes → UInt32
  shake128 : Bytes → ℕ → UInt8

/-- What is assumed of them: the AEADs open what they have sealed, for messages of up to 64 KiB, and
AES decryption inverts encryption. -/
structure VmessCrypto.Lawful (crypto : VmessCrypto) : Prop where
  aesGcm_opens : crypto.aesGcm.Opens 16 65536
  chaCha_opens : crypto.chaCha.Opens 16 65536
  aesDecrypt_aesEncrypt : ∀ key block, crypto.aesDecrypt key (crypto.aesEncrypt key block) = block

/-! ### Primitives that can be evaluated -/

def checksum (bs : Bytes) : UInt8 := bs.foldl (fun sum b => 31 * sum + b) 7

def digest (n : ℕ) (bs : Bytes) : Octets n :=
  ⟨(checksum bs :: List.replicate n 0).take n, by simp⟩

def maskBlock (key block : Octets 16) : Octets 16 :=
  ⟨List.zipWith (· ^^^ ·) key.val block.val, by simp [key.property, block.property]⟩

theorem maskBlock_maskBlock (key block : Octets 16) :
    maskBlock key (maskBlock key block) = block := by
  apply Subtype.ext
  apply List.ext_getElem
  · simp [maskBlock, key.property, block.property]
  · intro i h₁ h₂
    simp only [maskBlock, List.getElem_zipWith]
    rw [← UInt8.xor_assoc, UInt8.xor_self, UInt8.zero_xor]

def sampleCrypto : VmessCrypto where
  aesGcm := Aead.tagging fun key nonce aad msg => digest 16 (key.val ++ nonce.val ++ aad ++ msg)
  chaCha := Aead.tagging fun key nonce aad msg => digest 16 (key.val ++ nonce.val ++ aad ++ msg)
  aesEncrypt := maskBlock
  aesDecrypt := maskBlock
  md5 := digest 16
  sha256 := digest 32
  hmacSha256 key msg := digest 32 (key ++ msg)
  crc32 bs := (checksum bs).toUInt32
  shake128 seed n := checksum seed + UInt8.ofNat n

theorem sampleCrypto_lawful : sampleCrypto.Lawful where
  aesGcm_opens := Aead.tagging_opens _ _
  chaCha_opens := Aead.tagging_opens _ _
  aesDecrypt_aesEncrypt := maskBlock_maskBlock

/-! ### Security types -/

inductive Security
  | aes128Gcm
  | chaCha20Poly1305
  | none
  deriving DecidableEq

def Security.toByte : Security → UInt8
  | .aes128Gcm => 0x03
  | .chaCha20Poly1305 => 0x04
  | .none => 0x05

def Security.tryFrom (v : UInt8) : Except ProxyError Security :=
  if v = 0x03 then .ok .aes128Gcm
  else if v = 0x04 then .ok .chaCha20Poly1305
  else if v = 0x05 then .ok .none
  else .error (.protocol ("VMess: unknown security byte " ++ hex v.toNat))

end Blackwire.Vmess
