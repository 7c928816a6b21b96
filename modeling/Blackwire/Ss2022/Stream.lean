import Blackwire.Lib.ChunkStream
import Blackwire.Ss2022.Header

/-!
# The SS-2022 data stream

`Ss2022Stream` of `ss2022/stream.rs`.  A chunk is two sealed fields, the length of the data and the
data, each with a nonce of its own; the nonce is a counter that moves on with every field.

The rest of the stream is that of every stream of chunks, with the constants of this one.
-/

namespace Blackwire.Ss2022

open AsyncIO List Bytes AsyncRead Vmess

def maxChunkSize : ℕ := 16 * 1024
def readChunkSize : ℕ := 64 * 1024

structure ReadState where
  subkey : Octets 32
  counter : UInt64

/-- The state of the writer: its subkey, the nonce counter, and a response header that goes before
the first chunk. -/
structure WriteState where
  subkey : Octets 32
  counter : UInt64
  responseHeader : Option (Octets 43)

def ReadState.bump (r : ReadState) : ReadState := { r with counter := r.counter + 1 }

def WriteState.bump (w : WriteState) : WriteState := { w with counter := w.counter + 1 }

variable (crypto : Ss2022Crypto)

def tryDecryptChunk (r : ReadState) (src : Bytes) :
    Option (Except Fault Bytes) × ReadState × Bytes :=
  if src.length < 18 then (none, r, src)
  else
    match crypto.aes256Gcm.decrypt r.subkey (makeNonce r.counter) [] (src.take 18) with
    | none => (some (.error (.invalidData "SS-2022: length field decryption failed")), r, src)
    | some lenScratch =>
      let dataLen := (UInt16.ofNat (ofBe lenScratch)).toNat
      if dataLen = 0 then (some (.ok []), r.bump, src.drop 18)
      else if src.length < 18 + dataLen + 16 then (none, r, src)
      else
        let r := r.bump
        let dataCt := (src.drop 18).take (dataLen + 16)
        let src := src.drop (18 + dataLen + 16)
        match crypto.aes256Gcm.decrypt r.subkey (makeNonce r.counter) [] dataCt with
        | none => (some (.error (.invalidData "SS-2022: data chunk decryption failed")), r, src)
        | some plain => (some (.ok plain), r.bump, src)

def encryptAppend (subkey : Octets 32) (counter : UInt64) (data : Bytes) (error : String) :
    Option Fault × Bytes :=
  match crypto.aes256Gcm.encrypt subkey (makeNonce counter) [] data with
  | some ct => (none, ct)
  | none => (some (.invalidData error), data)

def appendFields (first data : Bytes) (firstError dataError : String) (w : WriteState) :
    Option Fault × Bytes × WriteState :=
  match encryptAppend crypto w.subkey w.counter first firstError with
  | (some e, bytes) => (some e, bytes, w)
  | (none, firstCt) =>
    let w := w.bump
    match encryptAppend crypto w.subkey w.counter data dataError with
    | (some e, bytes) => (some e, firstCt ++ bytes, w)
    | (none, dataCt) => (none, firstCt ++ dataCt, w.bump)

def appendEncryptedChunk (data : Bytes) (w : WriteState) : Option Fault × Bytes × WriteState :=
  match w.responseHeader with
  | some fixedHeader =>
    appendFields crypto (fixedHeader.val.take 41 ++ toBe 2 data.length) data
      "SS-2022: response header encrypt failed" "SS-2022: response payload encrypt failed"
      { w with responseHeader := none }
  | none =>
    appendFields crypto (toBe 2 data.length) data "SS-2022: chunk length encrypt failed"
      "SS-2022: chunk payload encrypt failed" w

def codec : ChunkCodec ReadState WriteState Unit where
  maxChunk := maxChunkSize
  readChunk := readChunkSize
  writeZero := "SS-2022: inner write returned 0"
  decode := tryDecryptChunk crypto
  encode _ := appendEncryptedChunk crypto

abbrev Ss2022Stream (σ : Type) := ChunkStream σ ReadState WriteState

namespace Ss2022Stream

variable {σ : Type}

def newBidir (inner : σ) (readSubkey : Octets 32) (readStartNonce : UInt64)
    (writeSubkey : Octets 32) (writeStartNonce : UInt64) (initialRead : Bytes)
    (responseHeader : Option (Octets 43)) : Ss2022Stream σ where
  inner := inner
  read := ⟨readSubkey, readStartNonce⟩
  readBuf := initialRead
  readRaw := []
  write := ⟨writeSubkey, writeStartNonce, responseHeader⟩
  writeBuf := []

def pollRead [AsyncRead σ] : ℕ → Ss2022Stream σ → Poll × Ss2022Stream σ :=
  ChunkStream.pollRead (codec crypto)

def pollWrite [AsyncWrite σ] : Bytes → Ss2022Stream σ → PollWrite × Ss2022Stream σ :=
  ChunkStream.pollWrite (codec crypto) ()

def pollFlush [AsyncWrite σ] : Ss2022Stream σ → DrainEnd × Ss2022Stream σ := ChunkStream.pollFlush

end Ss2022Stream

/-! ### Frames -/

variable {crypto} {data : Bytes}

theorem encryptAppend_eq (hcrypto : crypto.Lawful) (subkey : Octets 32) (counter : UInt64)
    (hdata : data.length ≤ 65536) (error : String) :
    ∃ ct, encryptAppend crypto subkey counter data error = (none, ct) ∧
      ct.length = data.length + 16 ∧
      crypto.aes256Gcm.decrypt subkey (makeNonce counter) [] ct = some data := by
  obtain ⟨ct, hseal, hlen, hopen⟩ := hcrypto subkey (makeNonce counter) [] data hdata
  exact ⟨ct, by rw [encryptAppend, hseal], hlen, hopen⟩

theorem appendEncryptedChunk_eq (hcrypto : crypto.Lawful) {w : WriteState}
    (hw : w.responseHeader = none) (hdata : data.length ≤ maxChunkSize) :
    ∃ lenCt dataCt, appendEncryptedChunk crypto data w = (none, lenCt ++ dataCt, w.bump.bump) ∧
      lenCt.length = 18 ∧ dataCt.length = data.length + 16 ∧
      crypto.aes256Gcm.decrypt w.subkey (makeNonce w.counter) [] lenCt =
        some (toBe 2 data.length) ∧
      crypto.aes256Gcm.decrypt w.subkey (makeNonce (w.counter + 1)) [] dataCt = some data := by
  have hshort : data.length ≤ 65536 := hdata.trans (by decide)
  have hfield : (toBe 2 data.length).length ≤ 65536 := by
    rw [length_toBe]
    decide
  obtain ⟨lenCt, hlenSeal, hlenLen, hlenOpen⟩ := encryptAppend_eq hcrypto w.subkey w.counter
    hfield "SS-2022: chunk length encrypt failed"
  obtain ⟨dataCt, hdataSeal, hdataLen, hdataOpen⟩ := encryptAppend_eq hcrypto w.subkey
    (w.counter + 1) hshort "SS-2022: chunk payload encrypt failed"
  refine ⟨lenCt, dataCt, ?_, by rw [hlenLen, length_toBe], hdataLen, hlenOpen, hdataOpen⟩
  simp only [appendEncryptedChunk, hw, appendFields, hlenSeal, WriteState.bump, hdataSeal]

theorem toNat_lengthField (hdata : data.length ≤ maxChunkSize) :
    (UInt16.ofNat (ofBe (toBe 2 data.length))).toNat = data.length := by
  have hlt : data.length < 256 ^ 2 := hdata.trans_lt (by decide)
  rw [ofBe_toBe hlt]
  exact Nat.mod_eq_of_lt hlt

section Decode

variable {r : ReadState} {lenCt dataCt data : Bytes} (hlenCt : lenCt.length = 18)
  (hdataCt : dataCt.length = data.length + 16)
  (hopen : crypto.aes256Gcm.decrypt r.subkey (makeNonce r.counter) [] lenCt =
    some (toBe 2 data.length))
  (hdata : data ≠ []) (hmax : data.length ≤ maxChunkSize)

include hlenCt hdataCt hopen hdata hmax

theorem tryDecryptChunk_short {raw : Bytes} (hraw : raw <+: lenCt ++ dataCt)
    (hshort : raw.length < (lenCt ++ dataCt).length) :
    tryDecryptChunk crypto r raw = (none, r, raw) := by
  unfold tryDecryptChunk
  by_cases hfield : raw.length < 18
  · rw [if_pos hfield]
  have htake : raw.take 18 = lenCt := by
    obtain ⟨rest, hrest⟩ := hraw
    have hfront := congrArg (List.take 18) hrest
    rwa [take_append_of_le_length (by omega), take_left' hlenCt] at hfront
  have hpos : data.length ≠ 0 := fun h => hdata (eq_nil_of_length_eq_zero h)
  rw [length_append] at hshort
  have hbody : raw.length < 18 + data.length + 16 := by omega
  rw [if_neg hfield, htake, hopen]
  simp only [toNat_lengthField hmax, if_neg hpos, if_pos hbody]

theorem tryDecryptChunk_full
    (hopenData : crypto.aes256Gcm.decrypt r.subkey (makeNonce (r.counter + 1)) [] dataCt =
      some data)
    (tail : Bytes) :
    tryDecryptChunk crypto r (lenCt ++ dataCt ++ tail) = (some (.ok data), r.bump.bump, tail) := by
  have hpos : data.length ≠ 0 := fun h => hdata (eq_nil_of_length_eq_zero h)
  have hlen : (lenCt ++ dataCt ++ tail).length = 18 + (data.length + 16) + tail.length := by
    rw [length_append, length_append, hlenCt, hdataCt]
  have hfront : (lenCt ++ dataCt ++ tail).take 18 = lenCt := by rw [append_assoc, take_left' hlenCt]
  have hmiddle : ((lenCt ++ dataCt ++ tail).drop 18).take (data.length + 16) = dataCt := by
    rw [append_assoc, drop_left' hlenCt, take_left' hdataCt]
  have hback : (lenCt ++ dataCt ++ tail).drop (18 + data.length + 16) = tail := by
    rw [drop_left']
    rw [length_append, hlenCt, hdataCt, Nat.add_assoc]
  unfold tryDecryptChunk
  rw [if_neg (by omega), hfront, hopen]
  simp only [toNat_lengthField hmax, if_neg hpos]
  rw [if_neg (by omega), hmiddle, hback]
  simp only [ReadState.bump, hopenData]

end Decode

/-- **Frames.**  A reader with the subkey and the counter of a writer without a response header
decodes its chunks, one after the other, and keeps its place while a chunk is incomplete. -/
def framing (hcrypto : crypto.Lawful) : (codec crypto).Framing where
  Ready w := w.responseHeader = none
  At w _ r := r = ⟨w.subkey, w.counter⟩
  maxChunk_pos := (by decide : 0 < maxChunkSize)
  readChunk_pos := (by decide : 0 < readChunkSize)
  encode_ok w chunk hw := by
    obtain ⟨_, _, h, -⟩ := appendEncryptedChunk_eq hcrypto hw chunk.length_data
    exact congrArg Prod.fst h
  ready_seal w chunk hw := by
    obtain ⟨_, _, h, -⟩ := appendEncryptedChunk_eq hcrypto hw chunk.length_data
    exact (congrArg (fun result => result.2.2.responseHeader) h).trans hw
  decode_nil w r _ hr := ⟨r, rfl, hr⟩
  decode_short w chunk todo r raw hw hr hraw hshort := by
    subst hr
    obtain ⟨lenCt, dataCt, h, hlenCt, hdataCt, hlen, -⟩ :=
      appendEncryptedChunk_eq hcrypto hw chunk.length_data
    have hframe : ((codec crypto).sealChunk w chunk).1 = lenCt ++ dataCt :=
      congrArg (fun result => result.2.1) h
    rw [hframe] at hraw hshort
    exact ⟨_, tryDecryptChunk_short hlenCt hdataCt hlen chunk.data_ne_nil chunk.length_data hraw
      hshort, rfl⟩
  decode_full w chunk todo r tail hw hr := by
    subst hr
    obtain ⟨lenCt, dataCt, h, hlenCt, hdataCt, hlen, hdata⟩ :=
      appendEncryptedChunk_eq hcrypto hw chunk.length_data
    have hframe : (codec crypto).sealChunk w chunk = (lenCt ++ dataCt, w.bump.bump) :=
      congrArg Prod.snd h
    rw [hframe]
    exact ⟨_, tryDecryptChunk_full hlenCt hdataCt hlen chunk.data_ne_nil chunk.length_data hdata
      tail, rfl⟩

/-! ### Round trips -/

namespace Ss2022Stream

open ChunkStream

/-- **Round trip.**  A writer over a sink with any schedule reports no error, whatever non-empty
buffers it is offered.  A reader with its subkey and its starting nonce gets what the writer
reported as accepted: at any time a beginning of it, however the wire bytes that were sent so far
are segmented and whatever the sizes of the buffers, and all of it once the buffer of the writer is
empty, if the caller polls often enough.  At any time the counter of the reader is the one that the
writer had when it had accepted what the reader has decrypted.  Flushing more often than the sink is
pending empties the buffer. -/
theorem ss2022Stream_roundTrip {σ : Type} [AsyncRead σ] (hcrypto : crypto.Lawful)
    (subkey readSubkey writeSubkey : Octets 32) (nonce readNonce writeNonce : UInt64)
    (initial initialRead : Bytes) (header : Option (Octets 43)) (schedule : List WriteEvent)
    (ops : List (Op Unit)) (hops : ∀ op ∈ ops, op.NonEmpty) :
    ∃ accepted writer,
      perform (codec crypto) ops
        (newBidir (Sink.mk [] schedule) readSubkey readNonce subkey nonce initial none) =
          .ok (accepted, writer) ∧
      (∀ (source : σ) (caps : List ℕ), rest source <+: writer.inner.taken →
        ∃ out reader, collectState (pollRead crypto) caps
            (newBidir source subkey nonce writeSubkey writeNonce initialRead header) =
              .ok (out, reader) ∧
          out <+: initialRead ++ accepted ∧
          ∃ ops₁ accepted₁ writer₁, ops₁ <+: ops ∧
            perform (codec crypto) ops₁
              (newBidir (Sink.mk [] schedule) readSubkey readNonce subkey nonce initial none) =
                .ok (accepted₁, writer₁) ∧
            out ++ reader.readBuf = initialRead ++ accepted₁ ∧
            reader.read.counter = writer₁.write.counter) ∧
      (writer.writeBuf = [] → ∀ (source : σ) (caps : List ℕ),
        rest source = writer.inner.taken → (∀ cap ∈ caps, 0 < cap) →
        (initialRead ++ accepted).length + stalls source ≤ caps.length →
        ∃ reader, collectState (pollRead crypto) caps
            (newBidir source subkey nonce writeSubkey writeNonce initialRead header) =
              .ok (initialRead ++ accepted, reader) ∧
          reader.readBuf = [] ∧ reader.read.counter = writer.write.counter) ∧
      ∀ n, schedule.count .pending < n →
        ∃ flushed, perform (codec crypto) (ops ++ List.replicate n .flush)
            (newBidir (Sink.mk [] schedule) readSubkey readNonce subkey nonce initial none) =
              .ok (accepted, flushed) ∧
          flushed.writeBuf = [] := by
  have hready : (framing hcrypto).Ready ⟨subkey, nonce, none⟩ := rfl
  have hbegin : Writes ⟨subkey, nonce, none⟩ ([] : List (Chunk (codec crypto)))
      (newBidir (Sink.mk [] schedule) readSubkey readNonce subkey nonce initial none) := ⟨rfl, rfl⟩
  have hat : ∀ source : σ, (framing hcrypto).At ⟨subkey, nonce, none⟩ []
      (newBidir source subkey nonce writeSubkey writeNonce initialRead header).read := fun _ => rfl
  obtain ⟨chunks, writer, hrun, hwrites, hblocks, hpoints⟩ := hbegin.perform hready hops
  refine ⟨payload chunks, writer, hrun, ?_, ?_, ?_⟩
  · intro source caps hsent
    obtain ⟨out, reader, hcollect, hout, decoded, todo, rfl, hend, hdecoded⟩ :=
      collectState_of_writes hready hwrites (hat source) rfl hsent caps
    -- the writer had framed exactly the decoded chunks after some of its calls
    obtain ⟨ops₁, writer₁, hops₁, hrun₁, hwrites₁⟩ := hpoints decoded (prefix_append _ _)
    refine ⟨out, reader, hcollect, hout, ops₁, _, writer₁, hops₁, hrun₁, hdecoded, ?_⟩
    have hread : reader.read = ⟨_, _⟩ := hend
    rw [hread, hwrites₁.write, nil_append]
  · intro hempty source caps hsent hcaps hcount
    obtain ⟨reader, hcollect, hbuf, hend⟩ :=
      collectState_eq_of_writes hready hwrites hempty (hat source) rfl hsent hcaps hcount
    refine ⟨reader, hcollect, hbuf, ?_⟩
    have hread : reader.read = ⟨_, _⟩ := hend
    rw [hread, hwrites.write]
  · intro n hn
    obtain ⟨flushed, hflush, hempty⟩ := perform_flush (codec crypto) (hblocks.trans_lt hn)
    refine ⟨flushed, ?_, hempty⟩
    rw [perform_append hrun hflush, append_nil]

/-- Two writes and a flush, over a sink that takes one byte, is pending, and takes three more before
it takes all, with the starting nonce that the handshake leaves. -/
theorem sampleWrites_decrypted :
    ∃ accepted writer,
      perform (codec sampleCrypto) [.write [1, 2, 3] (), .flush, .write [4] ()]
        (newBidir (Sink.mk [] [.accept 0, .pending, .accept 2]) (digest 32 [1]) 2
          (digest 32 [2]) 2 [] none) = .ok (accepted, writer) ∧
      ∀ (source : Source) (caps : List ℕ), rest source <+: writer.inner.taken →
        ∃ out reader, collectState (pollRead sampleCrypto) caps
            (newBidir source (digest 32 [2]) 2 (digest 32 [1]) 2 [] none) =
              .ok (out, reader) ∧ out <+: accepted := by
  obtain ⟨accepted, writer, hrun, hread, -⟩ := ss2022Stream_roundTrip (σ := Source)
    sampleCrypto_lawful (digest 32 [2]) (digest 32 [1]) (digest 32 [1]) 2 2 2 []
    [] none [.accept 0, .pending, .accept 2] [.write [1, 2, 3] (), .flush, .write [4] ()]
    (by simp [Op.NonEmpty])
  refine ⟨accepted, writer, hrun, fun source caps hsent => ?_⟩
  obtain ⟨out, reader, hcollect, hout, -⟩ := hread source caps hsent
  exact ⟨out, reader, hcollect, hout⟩

end Ss2022Stream

/-! ### Counters -/

/-- The reader `r` follows the writer `w` through the chunks: it takes exactly the bytes of each one
off the bytes that have arrived, and its counter is then that of the writer. -/
def LockStep (crypto : Ss2022Crypto) : List Bytes → WriteState → ReadState → Prop
  | [], w, r => r.counter = w.counter
  | data :: chunks, w, r =>
    r.counter = w.counter ∧
    ∀ tail, ∃ r', tryDecryptChunk crypto r ((appendEncryptedChunk crypto data w).2.1 ++ tail) =
        (some (.ok data), r', tail) ∧
      LockStep crypto chunks (appendEncryptedChunk crypto data w).2.2 r'

theorem tryDecryptChunk_empty {r : ReadState} {lenCt : Bytes} (hlenCt : lenCt.length = 18)
    (hopen : crypto.aes256Gcm.decrypt r.subkey (makeNonce r.counter) [] lenCt =
      some (toBe 2 0)) (tail : Bytes) :
    tryDecryptChunk crypto r (lenCt ++ tail) = (some (.ok []), r.bump, tail) := by
  have hzero : (UInt16.ofNat (ofBe (toBe 2 0))).toNat = 0 := rfl
  unfold tryDecryptChunk
  rw [if_neg (by rw [length_append]; omega), take_left' hlenCt, hopen]
  simp only [hzero, if_true, drop_left' hlenCt]

theorem not_lockStep_empty (hcrypto : crypto.Lawful) (subkey : Octets 32) (counter : UInt64)
    (chunks : List Bytes) :
    ¬ LockStep crypto ([] :: chunks) ⟨subkey, counter, none⟩ ⟨subkey, counter⟩ := by
  have hnone : ([] : Bytes).length ≤ maxChunkSize := Nat.zero_le _
  obtain ⟨lenCt, dataCt, hseal, hlenCt, hdataCt, hlen, -⟩ :=
    appendEncryptedChunk_eq hcrypto (w := ⟨subkey, counter, none⟩) rfl hnone
  rintro ⟨-, h⟩
  obtain ⟨r', hread, -⟩ := h []
  have hrest := tryDecryptChunk_empty (r := ⟨subkey, counter⟩) hlenCt hlen dataCt
  rw [hseal, append_nil, hrest] at hread
  -- the second field of the chunk is left
  rw [(Prod.mk.inj (Prod.mk.inj hread).2).2] at hdataCt
  cases hdataCt

/-- **Counters.**  A reader with the subkey and the counter of a writer follows it through the
chunks if and only if none of them is empty: the writer seals an empty chunk as two fields, and the
reader takes it for one. -/
theorem lockStep_iff (hcrypto : crypto.Lawful) (subkey : Octets 32) (counter : UInt64)
    (chunks : List Bytes) (hchunks : ∀ data ∈ chunks, data.length ≤ maxChunkSize) :
    LockStep crypto chunks ⟨subkey, counter, none⟩ ⟨subkey, counter⟩ ↔
      ∀ data ∈ chunks, data ≠ [] := by
  induction chunks generalizing counter with
  | nil => simp [LockStep]
  | cons data chunks ih =>
    obtain ⟨hdata, hchunks⟩ := forall_mem_cons.1 hchunks
    rw [forall_mem_cons]
    by_cases hempty : data = []
    · subst hempty
      exact iff_of_false (not_lockStep_empty hcrypto subkey counter chunks) fun h => h.1 rfl
    obtain ⟨lenCt, dataCt, hseal, hlenCt, hdataCt, hlen, hopen⟩ :=
      appendEncryptedChunk_eq hcrypto (w := ⟨subkey, counter, none⟩) rfl hdata
    have hread := tryDecryptChunk_full (r := ⟨subkey, counter⟩) hlenCt hdataCt hlen hempty hdata
      hopen
    rw [LockStep, hseal, and_iff_right hempty, ← ih (counter + 1 + 1) hchunks]
    refine ⟨fun h => ?_, fun h => ⟨rfl, fun tail => ⟨_, hread tail, h⟩⟩⟩
    obtain ⟨r', hr', hlock⟩ := h.2 []
    rw [hread] at hr'
    obtain rfl := (Prod.mk.inj (Prod.mk.inj hr').2).1
    exact hlock

theorem nonEmpty_lockStep :
    LockStep sampleCrypto [[1], [2, 3]] ⟨digest 32 [5], 2, none⟩ ⟨digest 32 [5], 2⟩ :=
  (lockStep_iff sampleCrypto_lawful _ _ _ (by decide)).2 (by decide)

theorem empty_not_lockStep :
    ¬ LockStep sampleCrypto [[]] ⟨digest 32 [5], 2, none⟩ ⟨digest 32 [5], 2⟩ :=
  not_lockStep_empty sampleCrypto_lawful _ _ _

end Blackwire.Ss2022
