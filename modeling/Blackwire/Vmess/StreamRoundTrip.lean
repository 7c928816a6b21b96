import Blackwire.Lib.ChunkStream
import Blackwire.Vmess.Stream

/-!
# Round trips through VMess streams

A `VmessStream` reads what another one writes.  It is a stream of chunks: its reader is a direction
with a header that was decoded ahead of its body, and its writer a direction (`codec`, `chunked`).
-/

namespace Blackwire.Vmess

open AsyncIO List Bytes AsyncRead

variable {crypto : VmessCrypto}

/-! ### Sizes -/

namespace Half

def drawn (half : Half) : Half := (half.nextPaddingLen.2.maskSize 0).2

section

variable (half : Half)
include half

theorem maskSize_snd (size : UInt16) : (half.maskSize size).2 = (half.maskSize 0).2 := by
  unfold maskSize
  split <;> rfl

theorem maskSize_maskSize (size : UInt16) :
    half.maskSize (half.maskSize size).1 = (size, (half.maskSize size).2) := by
  unfold maskSize
  split
  · rw [UInt16.xor_assoc, UInt16.xor_self, UInt16.xor_zero]
  · rfl

theorem decodeSize_encodeSize {size : ℕ} (hsize : size < 65536) :
    half.decodeSize (half.encodeSize size).1 = (size, (half.maskSize 0).2) := by
  have hbytes : UInt16.ofNat (ofBe (half.encodeSize size).1) =
      (half.maskSize (UInt16.ofNat size)).1 := by
    rw [encodeSize, ofNat_ofBe_toBe_two]
  rw [decodeSize, hbytes, maskSize_maskSize, maskSize_snd]
  simp only [UInt16.toNat_ofNat', Prod.mk.injEq, and_true]
  omega

theorem length_encodeSize (size : ℕ) : (half.encodeSize size).1.length = 2 :=
  length_toBe 2 _

theorem exists_drawn_eq : ∃ mask, half.drawn = { half with sizeMask := mask } := by
  have hpadding : ∃ mask, half.nextPaddingLen.2 = { half with sizeMask := mask } := by
    unfold nextPaddingLen
    split_ifs
    · split
      · exact ⟨_, rfl⟩
      · exact ⟨_, rfl⟩
    · exact ⟨_, rfl⟩
  obtain ⟨mask, hmask⟩ := hpadding
  rw [drawn, hmask, maskSize]
  split
  · exact ⟨_, rfl⟩
  · exact ⟨_, rfl⟩

@[simp] theorem cipher_drawn : half.drawn.cipher = half.cipher := by
  obtain ⟨mask, h⟩ := half.exists_drawn_eq
  rw [h]

@[simp] theorem counter_drawn : half.drawn.counter = half.counter := by
  obtain ⟨mask, h⟩ := half.exists_drawn_eq
  rw [h]

@[simp] theorem nonce_drawn : half.drawn.nonce = half.nonce := by
  obtain ⟨mask, h⟩ := half.exists_drawn_eq
  rw [h]
  rfl

theorem nextPaddingLen_lt : half.nextPaddingLen.1 < 64 := by
  unfold nextPaddingLen
  split_ifs
  · split
    · exact Nat.mod_lt _ (by decide)
    · exact Nat.zero_lt_succ _
  · exact Nat.zero_lt_succ _

end

end Half

theorem VmessCrypto.Lawful.encrypt (hcrypto : crypto.Lawful) (cipher : BodyCipher)
    (nonce : Octets 12) {data : Bytes} (hdata : data.length ≤ maxChunkSize) :
    ∃ ct, cipher.encrypt crypto nonce data = some ct ∧
      ct.length = data.length + cipher.overhead ∧ cipher.decrypt crypto nonce ct = some data := by
  have hlimit : data.length ≤ 65536 := hdata.trans (by decide)
  cases cipher with
  | aes128Gcm key => exact hcrypto.aesGcm_opens key nonce [] data hlimit
  | chaCha20Poly1305 key => exact hcrypto.chaCha_opens key nonce [] data hlimit
  | none => exact ⟨data, rfl, rfl, rfl⟩

/-! ### Chunks as frames -/

def Half.bump (half : Half) : Half := { half with counter := half.counter + 1 }

def decode (crypto : VmessCrypto) (r : Half × Option (ℕ × ℕ)) (raw : Bytes) :
    Option (Except Fault Bytes) × (Half × Option (ℕ × ℕ)) × Bytes :=
  match VmessStream.tryDecryptChunk crypto ⟨(), r.1, [], raw, r.2, r.1, []⟩ with
  | (result, s) => (result, (s.read, s.readPending), s.readRawBuf)

def codec (crypto : VmessCrypto) : ChunkCodec (Half × Option (ℕ × ℕ)) Half (ℕ → UInt8) where
  maxChunk := maxChunkSize
  readChunk := readChunkSize
  writeZero := "VMess: inner write returned 0"
  decode := decode crypto
  encode fill data half := half.appendEncryptedChunk crypto fill data

open Half

def chunkSize (half : Half) (chunk : Chunk (codec crypto)) : ℕ :=
  chunk.data.length + half.cipher.overhead + half.nextPaddingLen.1

section Frames

variable (hcrypto : crypto.Lawful) (half : Half) (chunk : Chunk (codec crypto))

theorem chunkSize_lt : chunkSize half chunk < 65536 := by
  have hdata : chunk.data.length ≤ maxChunkSize := chunk.length_data
  have hpadding := half.nextPaddingLen_lt
  have hoverhead : half.cipher.overhead ≤ 16 := by cases half.cipher <;> simp [BodyCipher.overhead]
  unfold chunkSize
  unfold maxChunkSize at hdata
  omega

include hcrypto

theorem appendEncryptedChunk_eq :
    ∃ ct, half.appendEncryptedChunk crypto chunk.draw chunk.data =
        (none, (half.nextPaddingLen.2.encodeSize (chunkSize half chunk)).1 ++ ct ++
          (List.range half.nextPaddingLen.1).map chunk.draw, half.drawn.bump) ∧
      ct.length = chunk.data.length + half.cipher.overhead ∧
      half.cipher.decrypt crypto half.nonce ct = some chunk.data := by
  obtain ⟨ct, hct, hlen, hopen⟩ := hcrypto.encrypt half.cipher half.nonce chunk.length_data
  refine ⟨ct, ?_, hlen, hopen⟩
  have hdrawn : (half.nextPaddingLen.2.encodeSize (chunkSize half chunk)).2 = half.drawn :=
    maskSize_snd _ _
  simp only [appendEncryptedChunk, hct]
  rw [show chunk.data.length + half.cipher.overhead + half.nextPaddingLen.1 = chunkSize half chunk
    from rfl, hdrawn, bump, counter_drawn]

theorem sealChunk_snd : ((codec crypto).sealChunk half chunk).2 = half.drawn.bump := by
  obtain ⟨ct, h, -⟩ := appendEncryptedChunk_eq hcrypto half chunk
  exact congrArg (fun result => result.2.2) h

theorem length_sealChunk :
    ((codec crypto).sealChunk half chunk).1.length = 2 + chunkSize half chunk := by
  obtain ⟨ct, h, hlen, -⟩ := appendEncryptedChunk_eq hcrypto half chunk
  simp only [ChunkCodec.sealChunk, codec, h, length_append, length_encodeSize, hlen,
    length_map, length_range, chunkSize]
  omega

theorem decodeSize_sealChunk :
    half.nextPaddingLen.2.decodeSize (((codec crypto).sealChunk half chunk).1.take 2) =
      (chunkSize half chunk, half.drawn) := by
  obtain ⟨ct, h, -⟩ := appendEncryptedChunk_eq hcrypto half chunk
  have htake : ((codec crypto).sealChunk half chunk).1.take 2 =
      (half.nextPaddingLen.2.encodeSize (chunkSize half chunk)).1 := by
    simp only [ChunkCodec.sealChunk, codec, h, append_assoc]
    exact take_left' (length_encodeSize _ _)
  rw [htake]
  exact decodeSize_encodeSize _ (chunkSize_lt half chunk)

theorem decrypt_sealChunk (tail : Bytes) :
    half.cipher.decrypt crypto half.nonce
        (((((codec crypto).sealChunk half chunk).1 ++ tail).drop 2).take
          (chunkSize half chunk - half.nextPaddingLen.1)) = some chunk.data := by
  obtain ⟨ct, h, hlen, hopen⟩ := appendEncryptedChunk_eq hcrypto half chunk
  have hsize : chunkSize half chunk - half.nextPaddingLen.1 = ct.length := by
    rw [chunkSize]
    omega
  simp only [ChunkCodec.sealChunk, codec, h, append_assoc]
  rw [drop_left' (length_encodeSize _ _), hsize, take_left, hopen]

end Frames

/-! ### The reader -/

/-- Where the reader stands in front of the chunks `todo`: before the header of the next one, or
behind it with the header decoded, so that the mask has already moved on. -/
inductive HeaderAt (half : Half) : List (Chunk (codec crypto)) → Half × Option (ℕ × ℕ) → Prop
  | fresh (todo : List (Chunk (codec crypto))) : HeaderAt half todo (half, none)
  | decoded (chunk : Chunk (codec crypto)) (todo : List (Chunk (codec crypto))) :
    HeaderAt half (chunk :: todo) (half.drawn, some (chunkSize half chunk, half.nextPaddingLen.1))

section Decode

variable {half : Half} {chunk : Chunk (codec crypto)} {todo : List (Chunk (codec crypto))}
  {r : Half × Option (ℕ × ℕ)} {raw : Bytes}

theorem nextHeader_cases (hcrypto : crypto.Lawful) (hat : HeaderAt half (chunk :: todo) r)
    (hraw : 2 ≤ raw.length → raw.take 2 = ((codec crypto).sealChunk half chunk).1.take 2) :
    (raw.length < 2 ∧ VmessStream.nextHeader ⟨(), r.1, [], raw, r.2, r.1, []⟩ = none) ∨
      VmessStream.nextHeader ⟨(), r.1, [], raw, r.2, r.1, []⟩ =
        some ((chunkSize half chunk, half.nextPaddingLen.1),
          ⟨(), half.drawn, [], raw, none, r.1, []⟩) := by
  cases hat with
  | decoded => exact .inr rfl
  | fresh =>
    by_cases hlen : raw.length < 2
    · exact .inl ⟨hlen, if_pos hlen⟩
    refine .inr ?_
    simp only [VmessStream.nextHeader, if_neg hlen, hraw (not_lt.1 hlen),
      decodeSize_sealChunk hcrypto]

theorem overhead_le_chunkSize (half : Half) (chunk : Chunk (codec crypto)) :
    ¬ chunkSize half chunk < half.cipher.overhead + half.nextPaddingLen.1 := by
  unfold chunkSize
  omega

theorem decode_short (hcrypto : crypto.Lawful) (hat : HeaderAt half (chunk :: todo) r)
    (hraw : raw <+: ((codec crypto).sealChunk half chunk).1)
    (hlen : raw.length < ((codec crypto).sealChunk half chunk).1.length) :
    ∃ r', decode crypto r raw = (none, r', raw) ∧ HeaderAt half (chunk :: todo) r' := by
  rw [length_sealChunk hcrypto] at hlen
  have htake : 2 ≤ raw.length → raw.take 2 = ((codec crypto).sealChunk half chunk).1.take 2 := by
    intro htwo
    obtain ⟨rest, hrest⟩ := hraw
    rw [← hrest, take_append_of_le_length htwo]
  obtain ⟨-, hnone⟩ | hsome := nextHeader_cases hcrypto hat htake
  · refine ⟨r, ?_, hat⟩
    simp only [decode, VmessStream.tryDecryptChunk, hnone]
  · refine ⟨_, ?_, .decoded chunk todo⟩
    simp only [decode, VmessStream.tryDecryptChunk, hsome, cipher_drawn,
      if_neg (overhead_le_chunkSize half chunk), if_pos hlen]

theorem decode_full (hcrypto : crypto.Lawful) (hat : HeaderAt half (chunk :: todo) r)
    (tail : Bytes) :
    decode crypto r (((codec crypto).sealChunk half chunk).1 ++ tail) =
      (some (.ok chunk.data), (half.drawn.bump, none), tail) := by
  have hframe := length_sealChunk hcrypto half chunk
  have htake : (((codec crypto).sealChunk half chunk).1 ++ tail).take 2 =
      ((codec crypto).sealChunk half chunk).1.take 2 :=
    take_append_of_le_length (by omega)
  have hthere : ¬ (((codec crypto).sealChunk half chunk).1 ++ tail).length <
      2 + chunkSize half chunk := by
    rw [length_append]
    omega
  have hdrop : (((codec crypto).sealChunk half chunk).1 ++ tail).drop (2 + chunkSize half chunk) =
      tail := drop_left' hframe
  obtain ⟨hshort, -⟩ | hsome := nextHeader_cases hcrypto hat fun _ => htake
  · omega
  simp only [decode, VmessStream.tryDecryptChunk, hsome, cipher_drawn, nonce_drawn,
    if_neg (overhead_le_chunkSize half chunk), if_neg hthere, decrypt_sealChunk hcrypto, hdrop,
    bump]

end Decode

/-- **Frames.**  A reader in the direction of a writer decodes its chunks, one after the other, and
keeps a header that it has decoded while the body is incomplete. -/
def framing (hcrypto : crypto.Lawful) : (codec crypto).Framing where
  Ready _ := True
  At half todo r := HeaderAt half todo r
  maxChunk_pos := (by decide : 0 < maxChunkSize)
  readChunk_pos := (by decide : 0 < readChunkSize)
  encode_ok half chunk _ := by
    obtain ⟨ct, h, -⟩ := appendEncryptedChunk_eq hcrypto half chunk
    exact congrArg Prod.fst h
  ready_seal _ _ _ := trivial
  decode_nil half r _ hat := by
    cases hat with
    | fresh => exact ⟨_, rfl, .fresh []⟩
  decode_short _ _ _ _ _ _ hat hraw hlen := decode_short hcrypto hat hraw hlen
  decode_full half chunk todo r tail _ hat := by
    refine ⟨_, decode_full hcrypto hat tail, ?_⟩
    rw [sealChunk_snd hcrypto]
    exact .fresh todo

/-! ### The stream as a stream of chunks -/

namespace VmessStream

variable {σ : Type} {t : ChunkStream σ (Half × Option (ℕ × ℕ)) Half}

section Writer

variable [AsyncWrite σ]

inductive Op
  | write (buf : Bytes) (fill : ℕ → UInt8)
  | flush

def Op.NonEmpty : Op → Prop
  | .write buf _ => buf ≠ []
  | .flush => True

def perform (crypto : VmessCrypto) :
    List Op → VmessStream σ → Except Fault (Bytes × VmessStream σ)
  | [], s => .ok ([], s)
  | .write buf fill :: ops, s =>
    match s.pollWrite crypto fill buf with
    | (.pending, s) => perform crypto ops s
    | (.ready n, s) => (perform crypto ops s).map fun result => (buf.take n ++ result.1, result.2)
    | (.failed e, _) => .error e
  | .flush :: ops, s =>
    match s.pollFlush with
    | (.failed e, _) => .error e
    | (.writeZero, _) => .error (.writeZero "VMess: inner write returned 0")
    | (_, s) => perform crypto ops s

end Writer

def chunked (s : VmessStream σ) : ChunkStream σ (Half × Option (ℕ × ℕ)) Half where
  inner := s.inner
  read := (s.read, s.readPending)
  readBuf := s.readBuf
  readRaw := s.readRawBuf
  write := s.write
  writeBuf := s.writeBuf

def Op.chunked : Op → ChunkStream.Op (ℕ → UInt8)
  | .write buf fill => .write buf fill
  | .flush => .flush

theorem Op.NonEmpty.chunked {op : Op} (h : op.NonEmpty) : op.chunked.NonEmpty := by
  cases op with
  | write buf fill => exact h
  | flush => exact trivial

theorem tryDecode_chunked (crypto : VmessCrypto) (s : VmessStream σ) :
    s.chunked.tryDecode (codec crypto) = Prod.map id chunked (s.tryDecryptChunk crypto) := by
  obtain ⟨inner, read, readBuf, raw, pending, write, writeBuf⟩ := s
  simp only [ChunkStream.tryDecode, codec, decode, chunked, tryDecryptChunk, nextHeader]
  cases pending with
  | some pending =>
    dsimp only
    split_ifs
    · rfl
    · rfl
    · cases read.cipher.decrypt crypto read.nonce
        ((raw.drop 2).take (pending.1 - pending.2)) <;> rfl
  | none =>
    by_cases hlen : raw.length < 2
    · simp only [if_pos hlen]
      rfl
    · simp only [if_neg hlen]
      split_ifs
      · rfl
      · rfl
      · split <;> rfl

theorem pollReadAux_chunked [AsyncRead σ] (cap fuel : ℕ) (s : VmessStream σ) :
    s.chunked.pollReadAux (codec crypto) cap fuel =
      Prod.map id chunked (s.pollReadAux crypto cap fuel) := by
  induction fuel generalizing s with
  | zero => rfl
  | succ fuel ih =>
    unfold ChunkStream.pollReadAux pollReadAux
    rw [tryDecode_chunked]
    by_cases hbuf : s.readBuf ≠ []
    · rw [if_pos hbuf, if_pos (show s.chunked.readBuf ≠ [] from hbuf)]
      rfl
    rw [if_neg hbuf, if_neg (show ¬ s.chunked.readBuf ≠ [] from hbuf)]
    rcases s.tryDecryptChunk crypto with ⟨_ | _ | pt, s₁⟩
    · simp only [Prod.map, id_eq]
      rw [show s₁.chunked.inner = s₁.inner from rfl,
        show (codec crypto).readChunk = readChunkSize from rfl]
      rcases AsyncRead.pollRead readChunkSize s₁.inner with ⟨_ | bs, inner⟩
      · rfl
      by_cases hbs : bs = []
      · simp only [if_pos hbs]
        rfl
      simp only [if_neg hbs]
      have harrived := tryDecode_chunked crypto
        { s₁ with inner := inner, readRawBuf := s₁.readRawBuf ++ bs }
      simp only [chunked] at harrived ⊢
      rw [harrived]
      rcases tryDecryptChunk crypto { s₁ with inner, readRawBuf := s₁.readRawBuf ++ bs } with
        ⟨_ | _ | pt, s₂⟩
      · exact ih s₂
      · rfl
      · by_cases hpt : pt = []
        · simp only [Prod.map, id_eq, if_pos hpt]
          rfl
        · simp only [Prod.map, id_eq, if_neg hpt]
          exact ih { s₂ with readBuf := pt }
    · rfl
    · by_cases hpt : pt = []
      · simp only [Prod.map, id_eq, if_pos hpt]
      · simp only [Prod.map, id_eq, if_neg hpt]
        exact ih { s₁ with readBuf := pt }

theorem pollRead_chunked [AsyncRead σ] (cap : ℕ) (s : VmessStream σ) :
    s.chunked.pollRead (codec crypto) cap = Prod.map id chunked (s.pollRead crypto cap) :=
  pollReadAux_chunked cap _ s

theorem drainWriteBuf_chunked [AsyncWrite σ] (s : VmessStream σ) :
    s.chunked.drainWriteBuf = Prod.map id chunked s.drainWriteBuf := rfl

theorem pollWrite_chunked [AsyncWrite σ] (fill : ℕ → UInt8) (buf : Bytes) (s : VmessStream σ) :
    s.chunked.pollWrite (codec crypto) fill buf =
      Prod.map id chunked (s.pollWrite crypto fill buf) := by
  unfold ChunkStream.pollWrite pollWrite
  rw [drainWriteBuf_chunked]
  rcases s.drainWriteBuf with ⟨_ | _ | _ | _, s₁⟩
  · simp only [Prod.map, id_eq]
    unfold ChunkStream.writeChunk writeChunk
    simp only [codec, chunked]
    rcases s₁.write.appendEncryptedChunk crypto fill (buf.take maxChunkSize) with
      ⟨_ | e, bytes, write⟩
    · unfold ChunkStream.drainWriteBuf drainWriteBuf
      dsimp only
      rcases drain (s₁.writeBuf ++ bytes) s₁.inner with ⟨_ | _ | _ | _, n, inner⟩ <;> rfl
    · rfl
  · rfl
  · rfl
  · rfl

theorem perform_chunked [AsyncWrite σ] (ops : List Op) (s : VmessStream σ) :
    s.chunked.perform (codec crypto) (ops.map Op.chunked) =
      (perform crypto ops s).map (Prod.map id chunked) := by
  induction ops generalizing s with
  | nil => rfl
  | cons op ops ih =>
    cases op with
    | write buf fill =>
      simp only [map_cons, Op.chunked, ChunkStream.perform, perform, pollWrite_chunked]
      rcases s.pollWrite crypto fill buf with ⟨_ | n | e, s₁⟩
      · exact ih s₁
      · simp only [Prod.map, id_eq, ih]
        cases perform crypto ops s₁ <;> rfl
      · rfl
    | flush =>
      simp only [map_cons, Op.chunked, ChunkStream.perform, perform, ChunkStream.pollFlush,
        pollFlush, drainWriteBuf_chunked]
      rcases s.drainWriteBuf with ⟨_ | _ | _ | _, s₁⟩
      · exact ih s₁
      · exact ih s₁
      · rfl
      · rfl

theorem perform_of_chunked [AsyncWrite σ] {ops : List Op} {s : VmessStream σ} {accepted : Bytes}
    (h : s.chunked.perform (codec crypto) (ops.map Op.chunked) = .ok (accepted, t)) :
    ∃ s', perform crypto ops s = .ok (accepted, s') ∧ s'.chunked = t := by
  rw [perform_chunked] at h
  cases hrun : perform crypto ops s with
  | error e =>
    rw [hrun] at h
    cases h
  | ok result =>
    rw [hrun] at h
    cases h
    exact ⟨_, rfl, rfl⟩

theorem collect_of_chunked [AsyncRead σ] {caps : List ℕ} {s : VmessStream σ} {out : Bytes}
    (h : collectState (ChunkStream.pollRead (codec crypto)) caps s.chunked = .ok (out, t)) :
    collect (pollRead crypto) caps s = .ok out := by
  rw [← collect_map chunked pollRead_chunked, collect_eq_map, h]
  rfl

/-- **Round trip.**  A writer over a sink with any schedule reports no error, and what it reports as
accepted is what a reader with the same key, IV, security type and options gets: at any time a
beginning of it, however the wire bytes that were sent so far are segmented, and all of it once the
buffer of the writer is empty, if the caller polls often enough.  Flushing more often than the sink
is pending empties the buffer. -/
theorem vmessStream_roundTrip {σ : Type} [AsyncRead σ] (hcrypto : crypto.Lawful)
    (key iv readKey readIv writeKey writeIv : Octets 16) (security : Security) (options : UInt8)
    (schedule : List WriteEvent) (ops : List Op) (hops : ∀ op ∈ ops, op.NonEmpty) :
    ∃ accepted writer,
      perform crypto ops
        (newBidir crypto (Sink.mk [] schedule) readKey readIv key iv security options) =
          .ok (accepted, writer) ∧
      (∀ (source : σ) (caps : List ℕ), rest source <+: writer.inner.taken →
        ∃ out, collect (pollRead crypto) caps
            (newBidir crypto source key iv writeKey writeIv security options) = .ok out ∧
          out <+: accepted) ∧
      (writer.writeBuf = [] → ∀ (source : σ) (caps : List ℕ),
        rest source = writer.inner.taken → (∀ cap ∈ caps, 0 < cap) →
        accepted.length + stalls source ≤ caps.length →
        collect (pollRead crypto) caps
          (newBidir crypto source key iv writeKey writeIv security options) = .ok accepted) ∧
      ∀ n, schedule.count .pending < n →
        ∃ flushed, perform crypto (ops ++ List.replicate n .flush)
            (newBidir crypto (Sink.mk [] schedule) readKey readIv key iv security options) =
              .ok (accepted, flushed) ∧
          flushed.writeBuf = [] := by
  have hready : (framing hcrypto).Ready (Half.new crypto key iv security options) := trivial
  have hbegin : ChunkStream.Writes (Half.new crypto key iv security options)
      ([] : List (Chunk (codec crypto)))
      (newBidir crypto (Sink.mk [] schedule) readKey readIv key iv security options).chunked :=
    ⟨rfl, rfl⟩
  have hat : ∀ (source : σ) (chunks : List (Chunk (codec crypto))),
      (framing hcrypto).At (Half.new crypto key iv security options) chunks
        (newBidir crypto source key iv writeKey writeIv security options).chunked.read :=
    fun _ chunks => .fresh chunks
  have hops' : ∀ op ∈ ops.map Op.chunked, op.NonEmpty := by
    intro op hmem
    obtain ⟨op, hop, rfl⟩ := mem_map.1 hmem
    exact (hops op hop).chunked
  obtain ⟨chunks, _, hrun, hwrites, hblocks, -⟩ := hbegin.perform hready hops'
  obtain ⟨writer, hperform, rfl⟩ := perform_of_chunked hrun
  refine ⟨payload chunks, writer, hperform, ?_, ?_, ?_⟩
  · intro source caps hsent
    obtain ⟨out, reader, hcollect, hout, -⟩ :=
      ChunkStream.collectState_of_writes hready hwrites (hat source chunks) rfl hsent caps
    exact ⟨out, collect_of_chunked hcollect, hout⟩
  · intro hempty source caps hsent hcaps hcount
    obtain ⟨reader, hcollect, -⟩ := ChunkStream.collectState_eq_of_writes hready hwrites hempty
      (hat source chunks) rfl hsent hcaps hcount
    exact collect_of_chunked hcollect
  · intro n hn
    obtain ⟨_, hflush, hempty⟩ := ChunkStream.perform_flush (codec crypto) (hblocks.trans_lt hn)
    have hboth := ChunkStream.perform_append hrun hflush
    rw [← show Op.chunked .flush = .flush from rfl, ← map_replicate, ← map_append,
      append_nil] at hboth
    obtain ⟨flushed, hflushed, rfl⟩ := perform_of_chunked hboth
    exact ⟨flushed, hflushed, hempty⟩

/-- Two writes and a flush, over a sink that takes one byte, is pending, and takes three more before
it takes all. -/
theorem sampleWrites_roundTrip :
    ∃ accepted writer,
      perform sampleCrypto
        [.write [1, 2, 3] fun _ => 0, .flush, .write [4] fun _ => 0]
        (newBidir sampleCrypto (Sink.mk [] [.accept 0, .pending, .accept 2]) (digest 16 [1])
          (digest 16 [2]) (digest 16 [3]) (digest 16 [4]) .aes128Gcm 0x0c) =
          .ok (accepted, writer) ∧
      ∀ (source : Source) (caps : List ℕ), rest source <+: writer.inner.taken →
        ∃ out, collect (pollRead sampleCrypto) caps
            (newBidir sampleCrypto source (digest 16 [3]) (digest 16 [4]) (digest 16 [5])
              (digest 16 [6]) .aes128Gcm 0x0c) = .ok out ∧
          out <+: accepted := by
  obtain ⟨accepted, writer, hrun, hread, -⟩ := vmessStream_roundTrip (σ := Source)
    sampleCrypto_lawful (digest 16 [3]) (digest 16 [4]) (digest 16 [1]) (digest 16 [2])
    (digest 16 [5]) (digest 16 [6]) .aes128Gcm 0x0c [.accept 0, .pending, .accept 2]
    [.write [1, 2, 3] fun _ => 0, .flush, .write [4] fun _ => 0] (by simp [Op.NonEmpty])
  exact ⟨accepted, writer, hrun, hread⟩

end VmessStream

/-! ### Nonces -/

theorem chunkNonce_injective (iv : Octets 16) : Function.Injective fun c => chunkNonce c iv := by
  intro c d h
  have hbytes := append_cancel_right (congrArg Subtype.val h)
  rw [← ofNat_ofBe_toBe_two c, hbytes, ofNat_ofBe_toBe_two]

/-- The ciphers, with their keys, and the nonces with which the chunks of successive writes are
encrypted. -/
def sealings (crypto : VmessCrypto) :
    List (Bytes × (ℕ → UInt8)) → Half → List (BodyCipher × Octets 12)
  | [], _ => []
  | (buf, fill) :: writes, half =>
    (half.cipher, half.nonce) ::
      sealings crypto writes (half.appendEncryptedChunk crypto fill (buf.take maxChunkSize)).2.2

theorem sealings_eq (hcrypto : crypto.Lawful) (writes : List (Bytes × (ℕ → UInt8))) (half : Half) :
    sealings crypto writes half = (List.range writes.length).map fun i =>
      (half.cipher, chunkNonce (half.counter + UInt16.ofNat i) half.iv) := by
  induction writes generalizing half with
  | nil => rfl
  | cons w writes ih =>
    obtain ⟨ct, hct, -⟩ := hcrypto.encrypt half.cipher half.nonce (length_take_le maxChunkSize w.1)
    obtain ⟨mask, hmask⟩ := half.exists_drawn_eq
    have hnext : (half.appendEncryptedChunk crypto w.2 (w.1.take maxChunkSize)).2.2 =
        { half with counter := half.counter + 1, sizeMask := mask } := by
      simp only [Half.appendEncryptedChunk, hct, Half.encodeSize, Half.maskSize_snd]
      rw [← Half.drawn, hmask]
    rw [sealings, hnext, ih, length_cons, range_succ_eq_map, map_cons, map_map]
    refine congrArg₂ _ (by simp [Half.nonce]) (map_congr_left fun i _ => ?_)
    simp [UInt16.ofNat_add, UInt16.add_assoc, UInt16.add_comm 1]

theorem not_nodup_sealings (hcrypto : crypto.Lawful) {writes : List (Bytes × (ℕ → UInt8))}
    (hlong : 65536 < writes.length) (half : Half) : ¬ (sealings crypto writes half).Nodup := by
  intro h
  rw [sealings_eq hcrypto] at h
  -- the counter has come round
  cases inj_on_of_nodup_map h (x := 0) (y := 65536) (by simp; omega) (by simpa) rfl

/-- **Nonces.**  No two chunks of a stream with an AEAD are sealed under the same key and nonce if
and only if there are at most as many as the counter has values. -/
theorem sealings_nodup_iff (hcrypto : crypto.Lawful) (key iv : Octets 16) (security : Security)
    (options : UInt8) (writes : List (Bytes × (ℕ → UInt8))) :
    (security ≠ .none → (sealings crypto writes (Half.new crypto key iv security options)).Nodup) ↔
      security = .none ∨ writes.length ≤ 65536 := by
  rw [← or_iff_not_imp_left]
  refine or_congr_right' fun _ => ⟨fun h => ?_, fun hshort => ?_⟩
  · exact not_lt.1 fun hlong => not_nodup_sealings hcrypto hlong _ h
  · rw [sealings_eq hcrypto]
    refine List.Nodup.map_on (fun i hi j hj hij => ?_) nodup_range
    have hcounter := chunkNonce_injective _ (Prod.mk.inj hij).2
    have hindex := congrArg UInt16.toNat (UInt16.add_right_inj _ |>.1 hcounter)
    rw [mem_range] at hi hj
    simp only [UInt16.toNat_ofNat'] at hindex
    omega

theorem two_sealings_nodup :
    (sealings sampleCrypto [([1], fun _ => 0), ([2], fun _ => 0)]
      (new sampleCrypto (digest 16 [1]) (digest 16 [2]) .aes128Gcm 0)).Nodup :=
  (sealings_nodup_iff sampleCrypto_lawful _ _ .aes128Gcm 0 _).2 (.inr (by decide)) (by decide)

theorem many_sealings_not_nodup :
    ¬ (sealings sampleCrypto (List.replicate 65537 ([1], fun _ => 0))
      (new sampleCrypto (digest 16 [1]) (digest 16 [2]) .aes128Gcm 0)).Nodup :=
  not_nodup_sealings sampleCrypto_lawful (by rw [length_replicate]; decide) _

end Blackwire.Vmess
