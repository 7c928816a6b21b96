import Blackwire.Lib.Serve
import Blackwire.Vmess.Crypto

/-!
# The VMess data stream

`VmessStream` of `vmess/stream.rs`.  Every write becomes one chunk: a 16-bit size, the encrypted
data, and padding.

The fields of the source for the two directions, `read_cipher`, `write_cipher` and so on, are the
fields of `read` and of `write`.
-/

namespace Blackwire.Vmess

open AsyncIO

/-! ### Ciphers and masks -/

def maxChunkSize : ℕ := 16 * 1024
def readChunkSize : ℕ := 64 * 1024
def requestOptionChunkMasking : UInt8 := 0x04
def requestOptionGlobalPadding : UInt8 := 0x08

def chunkNonce (counter : UInt16) (iv : Octets 16) : Octets 12 :=
  ⟨Bytes.toBe 2 counter.toNat ++ (iv.val.drop 2).take 10, by simp [Bytes.length_toBe, iv.property]⟩

inductive BodyCipher
  | aes128Gcm (key : Octets 16)
  | chaCha20Poly1305 (key : Octets 32)
  | none

section Ciphers

variable (crypto : VmessCrypto)

def chachaKey (key : Octets 16) : Octets 32 :=
  let first := crypto.md5 key.val
  let second := crypto.md5 first.val
  ⟨first.val ++ second.val, by simp [first.property, second.property]⟩

namespace BodyCipher

def new (security : Security) (key : Octets 16) : BodyCipher :=
  match security with
  | .aes128Gcm => .aes128Gcm key
  | .chaCha20Poly1305 => .chaCha20Poly1305 (chachaKey crypto key)
  | .none => .none

def overhead : BodyCipher → ℕ
  | .aes128Gcm _ => 16
  | .chaCha20Poly1305 _ => 16
  | .none => 0

def encrypt (cipher : BodyCipher) (nonce : Octets 12) (data : Bytes) : Option Bytes :=
  match cipher with
  | .aes128Gcm key => crypto.aesGcm.encrypt key nonce [] data
  | .chaCha20Poly1305 key => crypto.chaCha.encrypt key nonce [] data
  | .none => some data

def decrypt (cipher : BodyCipher) (nonce : Octets 12) (buf : Bytes) : Option Bytes :=
  match cipher with
  | .aes128Gcm key => crypto.aesGcm.decrypt key nonce [] buf
  | .chaCha20Poly1305 key => crypto.chaCha.decrypt key nonce [] buf
  | .none => some buf

end BodyCipher

structure SizeMask where
  stream : ℕ → UInt8
  pos : ℕ

def SizeMask.new (iv : Octets 16) : SizeMask := ⟨crypto.shake128 iv.val, 0⟩

def SizeMask.next (mask : SizeMask) : UInt16 × SizeMask :=
  (UInt16.ofNat (Bytes.ofBe [mask.stream mask.pos, mask.stream (mask.pos + 1)]),
    { mask with pos := mask.pos + 2 })

/-! ### One direction -/

structure Half where
  cipher : BodyCipher
  iv : Octets 16
  counter : UInt16
  sizeMask : Option SizeMask
  globalPadding : Bool

namespace Half

def new (key iv : Octets 16) (security : Security) (options : UInt8) : Half where
  cipher := BodyCipher.new crypto security key
  iv := iv
  counter := 0
  sizeMask :=
    if options &&& requestOptionChunkMasking ≠ 0 then some (SizeMask.new crypto iv) else none
  globalPadding := options &&& requestOptionGlobalPadding ≠ 0

theorem new_chunkStream (key iv : Octets 16) (security : Security) :
    new crypto key iv security 0x01 = new crypto key iv security 0 := rfl

def nextPaddingLen (half : Half) : ℕ × Half :=
  if half.globalPadding then
    match half.sizeMask with
    | some mask => (mask.next.1.toNat % 64, { half with sizeMask := some mask.next.2 })
    | none => (0, half)
  else (0, half)

def maskSize (size : UInt16) (half : Half) : UInt16 × Half :=
  match half.sizeMask with
  | some mask => (size ^^^ mask.next.1, { half with sizeMask := some mask.next.2 })
  | none => (size, half)

def encodeSize (size : ℕ) (half : Half) : Bytes × Half :=
  match half.maskSize (UInt16.ofNat size) with
  | (encoded, half) => (Bytes.toBe 2 encoded.toNat, half)

def decodeSize (bytes : Bytes) (half : Half) : ℕ × Half :=
  match half.maskSize (UInt16.ofNat (Bytes.ofBe bytes)) with
  | (decoded, half) => (decoded.toNat, half)

def nonce (half : Half) : Octets 12 := chunkNonce half.counter half.iv

/-- `append_encrypted_chunk`: the error, what is appended, and the direction afterwards.  `fill` is
what the random generator fills the padding with. -/
def appendEncryptedChunk (fill : ℕ → UInt8) (data : Bytes) (half : Half) :
    Option Fault × Bytes × Half :=
  match half.nextPaddingLen with
  | (paddingLen, drawn) =>
    match drawn.encodeSize (data.length + half.cipher.overhead + paddingLen) with
    | (size, drawn) =>
      match half.cipher.encrypt crypto half.nonce data with
      | some ct =>
        (none, size ++ ct ++ (List.range paddingLen).map fill,
          { drawn with counter := half.counter + 1 })
      | none => (some (.invalidData "VMess: body chunk encrypt failed"), size ++ data, drawn)

end Half

/-! ### The stream -/

structure VmessStream (σ : Type) where
  inner : σ
  read : Half
  readBuf : Bytes
  readRawBuf : Bytes
  /-- The decoded size and padding length of a chunk whose body has not arrived. -/
  readPending : Option (ℕ × ℕ)
  write : Half
  writeBuf : Bytes

namespace VmessStream

variable {σ : Type}

def newBidir (inner : σ) (readKey readIv writeKey writeIv : Octets 16) (security : Security)
    (options : UInt8) : VmessStream σ where
  inner := inner
  read := Half.new crypto readKey readIv security options
  readBuf := []
  readRawBuf := []
  readPending := none
  write := Half.new crypto writeKey writeIv security options
  writeBuf := []

def nextHeader (s : VmessStream σ) : Option ((ℕ × ℕ) × VmessStream σ) :=
  match s.readPending with
  | some pending => some (pending, { s with readPending := none })
  | none =>
    if s.readRawBuf.length < 2 then none
    else
      match s.read.nextPaddingLen with
      | (paddingLen, half) =>
        match half.decodeSize (s.readRawBuf.take 2) with
        | (size, half) => some ((size, paddingLen), { s with read := half })

def tryDecryptChunk (s : VmessStream σ) : Option (Except Fault Bytes) × VmessStream σ :=
  match s.nextHeader with
  | none => (none, s)
  | some ((size, paddingLen), s) =>
    if size < s.read.cipher.overhead + paddingLen then
      (some (.error (.invalidData "VMess: body chunk size smaller than authentication tag")), s)
    else if s.readRawBuf.length < 2 + size then
      (none, { s with readPending := some (size, paddingLen) })
    else
      let dataCt := (s.readRawBuf.drop 2).take (size - paddingLen)
      let s := { s with readRawBuf := s.readRawBuf.drop (2 + size) }
      match s.read.cipher.decrypt crypto s.read.nonce dataCt with
      | none => (some (.error (.invalidData "VMess: data chunk decryption failed")), s)
      | some pt => (some (.ok pt), { s with read := { s.read with counter := s.read.counter + 1 } })

section Read

variable [AsyncRead σ]

def pollReadAux (cap : ℕ) : ℕ → VmessStream σ → Poll × VmessStream σ
  | 0, s => (.pending, s)
  | fuel + 1, s =>
    if s.readBuf ≠ [] then
      (.ready (s.readBuf.take cap), { s with readBuf := s.readBuf.drop cap })
    else
      match s.tryDecryptChunk crypto with
      | (some (.ok pt), s) =>
        if pt = [] then (.ready [], s) else pollReadAux cap fuel { s with readBuf := pt }
      | (some (.error e), s) => (.failed e, s)
      | (none, s) =>
        match AsyncRead.pollRead readChunkSize s.inner with
        | (.pending _, inner) => (.pending, { s with inner })
        | (.ready bs, inner) =>
          if bs = [] then (.ready [], { s with inner })
          else
            match tryDecryptChunk crypto { s with inner, readRawBuf := s.readRawBuf ++ bs } with
            | (some (.ok pt), s) =>
              if pt = [] then (.ready [], s) else pollReadAux cap fuel { s with readBuf := pt }
            | (some (.error e), s) => (.failed e, s)
            | (none, s) => pollReadAux cap fuel s

def pollRead (cap : ℕ) (s : VmessStream σ) : Poll × VmessStream σ :=
  s.pollReadAux crypto cap ((AsyncRead.rest s.inner).length + 2)

end Read

section Write

variable [AsyncWrite σ]

def drainWriteBuf (s : VmessStream σ) : DrainEnd × VmessStream σ :=
  match drain s.writeBuf s.inner with
  | (e, n, inner) => (e, { s with inner, writeBuf := s.writeBuf.drop n })

def ofDrainEnd : DrainEnd → PollWrite
  | .failed e => .failed e
  | .writeZero => .failed (.writeZero "VMess: inner write returned 0")
  | _ => .pending

/-- `poll_write` once the buffer is empty: one chunk is queued, and written as far as possible. -/
def writeChunk (fill : ℕ → UInt8) (buf : Bytes) (s : VmessStream σ) : PollWrite × VmessStream σ :=
  let chunk := buf.take maxChunkSize
  match s.write.appendEncryptedChunk crypto fill chunk with
  | (some e, bytes, write) => (.failed e, { s with write, writeBuf := s.writeBuf ++ bytes })
  | (none, bytes, write) =>
    match drainWriteBuf { s with write, writeBuf := s.writeBuf ++ bytes } with
    | (.done, s) => (.ready chunk.length, s)
    | (.pending, s) => (.ready chunk.length, s)
    | (e, s) => (ofDrainEnd e, s)

def pollWrite (fill : ℕ → UInt8) (buf : Bytes) (s : VmessStream σ) : PollWrite × VmessStream σ :=
  match s.drainWriteBuf with
  | (.done, s) => s.writeChunk crypto fill buf
  | (e, s) => (ofDrainEnd e, s)

def pollFlush (s : VmessStream σ) : DrainEnd × VmessStream σ := s.drainWriteBuf

end Write

end VmessStream

end Ciphers

end Blackwire.Vmess
