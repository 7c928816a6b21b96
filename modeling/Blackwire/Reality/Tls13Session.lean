import Blackwire.Lib.Frames
import Blackwire.Lib.Run
import Blackwire.Reality.Client
import Blackwire.Reality.Tls13Stream

/-!
# What a TLS 1.3 stream delivers

Two ends of a connection with the same keys and opposite roles.  The writer takes any buffers, over
a stream with any schedule; the reader gets the bytes of the wire in any segments.
-/

namespace Blackwire.Reality

open AsyncIO List Bytes AsyncRead Frames

/-! ### Assumptions -/

structure TlsCrypto.OpensSealed {κ : Type} (crypto : TlsCrypto κ) : Prop where
  length_seal : ∀ cs key nonce aad msg, msg.length ≤ 16385 →
    (crypto.aeadSeal cs key nonce aad msg).length = msg.length + 16
  opens : ∀ cs key nonce aad msg, msg.length ≤ 16385 →
    crypto.aeadOpen cs key nonce aad (crypto.aeadSeal cs key nonce aad msg) = some msg
  sealed : ∀ cs key nonce aad ct msg, crypto.aeadOpen cs key nonce aad ct = some msg →
    ct = crypto.aeadSeal cs key nonce aad msg

/-! ### Records on the wire -/

def Record.bytes (record : Record) : Bytes := record.header.val ++ record.body

theorem Record.length_bytes (record : Record) : record.bytes.length = 5 + record.body.length := by
  rw [bytes, length_append, record.header.property]

variable {tail chunk : Bytes} {record : Record} {bs : Bytes} {chunks : List Bytes}

theorem Record.bytes_append_inj {r r' : Record} {tail' : Bytes}
    (h : r.bytes ++ tail = r'.bytes ++ tail') : r = r' ∧ tail = tail' := by
  rw [bytes, bytes, append_assoc, append_assoc] at h
  obtain ⟨hheader, hbehind⟩ := append_inj h (r.header.property.trans r'.header.property.symm)
  have hheader : r.header = r'.header := Subtype.ext hheader
  have hlen : r.body.length = r'.body.length := by rw [r.length_body, r'.length_body, hheader]
  obtain ⟨hbody, htail⟩ := append_inj hbehind hlen
  obtain ⟨header, body, hr⟩ := r
  cases hheader
  cases hbody
  exact ⟨rfl, htail⟩

def Cut (tail : Bytes) : Prop := ∃ record : Record, tail <+: record.bytes ∧ tail ≠ record.bytes

open Record

theorem Cut.not_record (h : Cut tail) (record : Record) (behind : Bytes) :
    tail ≠ record.bytes ++ behind := by
  rintro rfl
  obtain ⟨record', ⟨more, hmore⟩, hne⟩ := h
  rw [append_assoc] at hmore
  obtain ⟨rfl, hnil⟩ := bytes_append_inj (hmore.trans (append_nil _).symm)
  rw [(append_eq_nil_iff.1 hnil).1, append_nil] at hne
  exact hne rfl

/-! ### Sealed records -/

section Seal

variable {κ : Type} (crypto : TlsCrypto κ) (cs : CipherSuite)

def Traffic.frame (t : Traffic) (chunk : Bytes) : Bytes × Traffic :=
  let msg := chunk ++ [rtApplicationData]
  let header := [rtApplicationData, 0x03, 0x03] ++ toBe 2 (msg.length + 16)
  (header ++ crypto.aeadSeal cs t.key (computeNonce t.iv t.seq) header msg, t.bump)

theorem encryptAppRecord_eq (t : Traffic) (chunk : Bytes) :
    encryptAppRecord crypto cs t.key t.iv t.seq chunk rtApplicationData =
      if t.key.length ≠ cs.keyLen then .error (.protocol ("bad " ++ cs.aeadName ++ " key"))
      else .ok (t.frame crypto cs chunk).1 := rfl

variable {crypto cs}

theorem Traffic.frame_record (hcrypto : crypto.OpensSealed) {t : Traffic}
    (hkey : t.key.length = cs.keyLen) (hlen : chunk.length ≤ 16384) :
    ∃ record : Record, (t.frame crypto cs chunk).1 = record.bytes ∧
      record.header.val.headD 0 = rtApplicationData ∧
      decryptAppRecord crypto cs t.key t.iv t.seq record = .ok (chunk, rtApplicationData) := by
  set msg := chunk ++ [rtApplicationData] with hmsg
  set header : Bytes := [rtApplicationData, 0x03, 0x03] ++ toBe 2 (msg.length + 16) with hheader
  have hmsgLen : msg.length ≤ 16385 := by
    rw [length_append]
    exact Nat.succ_le_succ hlen
  have hheaderLen : header.length = 5 := by rfl
  have hseal := hcrypto.length_seal cs t.key (computeNonce t.iv t.seq) header msg hmsgLen
  have hbody : (crypto.aeadSeal cs t.key (computeNonce t.iv t.seq) header msg).length =
      ofBe (header.drop 3) := by
    have hdrop : header.drop 3 = toBe 2 (msg.length + 16) := rfl
    rw [hseal, hdrop, ofBe_toBe (by omega)]
  refine ⟨⟨⟨header, hheaderLen⟩, _, hbody⟩, rfl, rfl, ?_⟩
  rw [decryptAppRecord]
  rw [if_neg (not_not.2 hkey), hcrypto.opens _ _ _ _ _ hmsgLen]
  dsimp only
  rw [List.getLast?_concat, dropLast_concat]

end Seal

/-! ### The reader -/

open Traffic

namespace Tls13Stream

variable {σ κ : Type} {crypto : TlsCrypto κ} (s : Tls13Stream σ)

def opened (s : Tls13Stream σ) (chunk : Bytes) : Tls13Stream σ :=
  { s.bumpRead with readPhase := .plaintext chunk }

theorem cs_opened (chunk : Bytes) : (s.opened chunk).cs = s.cs := cs_bumpRead s

theorem readTraffic_opened (chunk : Bytes) :
    (s.opened chunk).readTraffic = s.readTraffic.bump := readTraffic_bumpRead s

variable {s : Tls13Stream σ}

theorem processRecord_data (htype : record.header.val.headD 0 = rtApplicationData)
    (hopen : decryptAppRecord crypto s.cs s.readTraffic.key s.readTraffic.iv s.readTraffic.seq
      record = .ok (chunk, rtApplicationData)) :
    s.processRecord crypto record = .next (s.opened chunk) := by
  rw [processRecord, if_pos htype, hopen]
  exact if_pos rfl

variable [AsyncRead σ] {got : Bytes}

theorem unread_opened (chunk : Bytes) : (s.opened chunk).unread = rest s.inner :=
  congrArg rest (inner_bumpRead s)

def plain (s : Tls13Stream σ) : Bytes :=
  match s.readPhase with
  | .plaintext plain => plain
  | _ => []

def Fits (s : Tls13Stream σ) : Prop :=
  match s.readPhase with
  | .plaintext _ => True
  | .header got => got.length ≤ 5
  | .body header got => got.length ≤ bodyLen header

/-- The wire holds, from where the reader is, the records of some chunks and the beginning of one
more; `bs` is what the reader has yet to deliver. -/
structure Reads (crypto : TlsCrypto κ) (s : Tls13Stream σ) (bs : Bytes) : Prop where
  fits : s.Fits
  wire : ∃ todo tail, (∀ chunk ∈ todo, chunk.length ≤ 16384) ∧
    (todo ≠ [] → s.readTraffic.key.length = s.cs.keyLen) ∧ Cut tail ∧
    s.unread = encodeAll (frame crypto s.cs) s.readTraffic todo ++ tail ∧
    bs = s.plain ++ todo.flatten

section

variable (h : Reads crypto s bs)
include h

theorem Reads.of_eq {s' : Tls13Stream σ} (hfits : s'.Fits)
    (hcs : s'.cs = s.cs) (htraffic : s'.readTraffic = s.readTraffic)
    (hunread : s'.unread = s.unread) (hplain : s'.plain = s.plain) : Reads crypto s' bs := by
  refine ⟨hfits, ?_⟩
  rw [hcs, htraffic, hunread, hplain]
  exact h.wire

theorem Reads.eq_plain (hcrypto : crypto.OpensSealed)
    (hnone : ∀ (record : Record) tail, s.unread ≠ record.bytes ++ tail) : bs = s.plain := by
  obtain ⟨todo, tail, hlen, hkey, -, hunread, rfl⟩ := h.wire
  cases todo with
  | nil => exact append_nil _
  | cons chunk todo =>
    obtain ⟨record, hframe, -⟩ := frame_record hcrypto (hkey (cons_ne_nil _ _))
      (hlen chunk mem_cons_self)
    rw [encodeAll, hframe, append_assoc] at hunread
    exact absurd hunread (hnone _ _)

theorem Reads.next_record (hcrypto : crypto.OpensSealed) {behind : Bytes}
    (hrecord : s.unread = record.bytes ++ behind) :
    ∃ chunk todo tail, (∀ chunk ∈ todo, chunk.length ≤ 16384) ∧
      s.readTraffic.key.length = s.cs.keyLen ∧ Cut tail ∧
      record.header.val.headD 0 = rtApplicationData ∧
      decryptAppRecord crypto s.cs s.readTraffic.key s.readTraffic.iv s.readTraffic.seq record =
        .ok (chunk, rtApplicationData) ∧
      behind = encodeAll (frame crypto s.cs) s.readTraffic.bump todo ++ tail ∧
      bs = s.plain ++ (chunk ++ todo.flatten) := by
  obtain ⟨todo, tail, hlen, hkey, hcut, hunread, rfl⟩ := h.wire
  rw [hrecord] at hunread
  cases todo with
  | nil => exact absurd hunread.symm (hcut.not_record record behind)
  | cons chunk todo =>
    have hkey := hkey (cons_ne_nil _ _)
    obtain ⟨record', hframe, htype, hopen⟩ := frame_record hcrypto hkey
      (hlen chunk mem_cons_self)
    rw [encodeAll, hframe, append_assoc] at hunread
    obtain ⟨rfl, hbehind⟩ := bytes_append_inj hunread
    exact ⟨chunk, todo, tail, fun c hc => hlen c (mem_cons_of_mem _ hc), hkey, hcut, htype,
      hopen, hbehind, rfl⟩

theorem Reads.body_done (hcrypto : crypto.OpensSealed) {header : Octets 5}
    (hphase : s.readPhase = .body header got) {body : Octets (bodyLen header)} {inner : σ}
    (hfill : fill (bodyLen header) got s.inner = (.done body, inner)) :
    ∃ s', processRecord crypto { s with inner, readPhase := .body header body.val }
        ⟨header, body.val, body.property⟩ = .next s' ∧ Reads crypto s' bs ∧ s'.inner = inner := by
  have hrecord : s.unread =
      bytes ⟨header, body.val, body.property⟩ ++ rest inner := by
    rw [unread_body_done hphase hfill, bytes, append_assoc]
  have hplain : s.plain = [] := by simp [plain, hphase]
  obtain ⟨chunk, todo, tail, hlen, hkey, hcut, htype, hopen, hbehind, rfl⟩ :=
    h.next_record hcrypto hrecord
  refine ⟨_, processRecord_data htype hopen, ⟨trivial, todo, tail, hlen, fun _ => ?_, hcut, ?_, ?_⟩,
    inner_bumpRead _⟩
  · rw [readTraffic_opened, cs_opened]
    exact hkey
  · rw [readTraffic_opened, cs_opened, unread_opened]
    exact hbehind
  · rw [hplain]
    rfl

theorem Reads.round_next (hcrypto : crypto.OpensSealed) {s' : Tls13Stream σ} {cap : ℕ}
    (hround : s.round crypto cap = .next s') :
    Reads crypto s' bs ∧ stalls s'.inner ≤ stalls s.inner := by
  have hfits := h.fits
  unfold round at hround
  split at hround <;> rename_i hphase <;> simp only [Fits, hphase] at hfits
  · split_ifs at hround with hplain
    cases hround
    refine ⟨h.of_eq (Nat.zero_le 5) rfl rfl ?_ ?_, le_rfl⟩
    · simp [unread, hphase]
    · simp only [plain, hphase]
      exact (not_not.1 hplain).symm
  · rename_i got
    have hmoved := fill_moved 5 got s.inner
    have hspec := fill_spec hfits s.inner
    split at hround <;> rename_i hfill <;> rw [hfill] at hmoved hspec
    · cases hround
    · cases hround
    · cases hround
      refine ⟨h.of_eq (Nat.zero_le _) rfl rfl ?_ ?_, hspec.stalls_le⟩
      · simp only [unread, hphase]
        exact hmoved
      · simp [plain, hphase]
  · have hspec := fill_spec hfits s.inner
    split at hround <;> rename_i hfill
    · cases hround
    · cases hround
    · obtain ⟨t, hnext, hreads, hinner⟩ := h.body_done hcrypto hphase hfill
      rw [hfill] at hspec
      rw [hnext] at hround
      cases hround
      rw [hinner]
      exact ⟨hreads, hspec.stalls_le⟩

theorem Reads.deliver {opened : Bytes}
    (hphase : s.readPhase = .plaintext opened) (hne : opened ≠ []) (cap : ℕ) :
    AnswerYields (ε := ReadFault) (Reads crypto) (fun s => stalls s.inner) cap s bs
      (.ready (opened.take cap), { s with readPhase := .plaintext (opened.drop cap) }) := by
  obtain ⟨todo, tail, hlen, hkey, hcut, hunread, rfl⟩ := h.wire
  refine ⟨opened.drop cap ++ todo.flatten, ?_, ⟨trivial, todo, tail, hlen, hkey, hcut, ?_, rfl⟩,
    le_rfl, fun hcap hnil => ?_⟩
  · simp only [plain, hphase]
    rw [← append_assoc, take_append_drop]
  · refine Eq.trans ?_ hunread
    simp [unread, hphase]
  · rw [take_eq_nil_iff] at hnil
    exact hnil.elim (by omega) hne

end

section

variable (hcrypto : crypto.OpensSealed) (h : Reads crypto s bs)
include hcrypto h

theorem Reads.header_short
    (hphase : s.readPhase = .header got) (hshort : (got ++ rest s.inner).length < 5) :
    bs = [] := by
  rw [h.eq_plain hcrypto fun record tail hrecord => ?_]
  · simp [plain, hphase]
  · have hlen := congrArg List.length hrecord
    simp only [unread, hphase] at hlen
    simp only [length_append, record.length_bytes] at hlen hshort
    omega

theorem Reads.body_short {header : Octets 5} (hphase : s.readPhase = .body header got)
    (hshort : (got ++ rest s.inner).length < bodyLen header) : bs = [] := by
  rw [h.eq_plain hcrypto fun record tail hrecord => ?_]
  · simp [plain, hphase]
  · -- the header is that of the record, whose body is not there
    simp only [unread, hphase, bytes, append_assoc] at hrecord
    obtain ⟨hheader, hbehind⟩ := append_inj hrecord
      (header.property.trans record.header.property.symm)
    have hlen := congrArg List.length hbehind
    have hbody := record.length_body
    rw [← hheader] at hbody
    simp only [length_append, bodyLen] at hlen hshort
    omega

theorem Reads.round_done {cap : ℕ} {result : Answer ReadFault × Tls13Stream σ}
    (hround : s.round crypto cap = .done result) :
    AnswerYields (Reads crypto) (fun s => stalls s.inner) cap s bs result := by
  have hfits := h.fits
  unfold round at hround
  split at hround <;> rename_i hphase <;> simp only [Fits, hphase] at hfits
  · split_ifs at hround with hplain
    cases hround
    exact h.deliver hphase hplain cap
  · rename_i got
    have hmoved := fill_moved 5 got s.inner
    have hspec := fill_spec hfits s.inner
    split at hround <;> rename_i hfill <;> rw [hfill] at hmoved hspec <;> cases hround
    · refine ⟨h.of_eq hspec.le rfl rfl ?_ ?_, hspec.pending _ rfl⟩
      · simp only [unread, hphase]
        exact hmoved
      · simp [plain, hphase]
    · exact h.header_short hcrypto hphase (hspec.eof _ rfl)
  · rename_i header got
    have hmoved := fill_moved (bodyLen header) got s.inner
    have hspec := fill_spec hfits s.inner
    split at hround <;> rename_i hfill
    · rw [hfill] at hmoved hspec
      cases hround
      refine ⟨h.of_eq hspec.le rfl rfl ?_ ?_, hspec.pending _ rfl⟩
      · simp only [unread, hphase, append_cancel_left_eq]
        exact hmoved
      · simp [plain, hphase]
    · rw [hfill] at hspec
      cases hround
      exact h.body_short hcrypto hphase (hspec.eof _ rfl)
    · obtain ⟨t, hnext, -⟩ := h.body_done hcrypto hphase hfill
      rw [hnext] at hround
      cases hround

end

/-- **The reader.**  It hands out the data of the records on the wire, and fails when the wire has
ended. -/
theorem yields_pollRead (hcrypto : crypto.OpensSealed) :
    Yields (pollRead crypto) (Reads crypto (σ := σ)) fun s => stalls s.inner := by
  intro cap s bs h
  obtain ⟨t, hvisits, hdone⟩ := pollRead_eq_round crypto cap s
  have hkeep : Reads crypto t bs ∧ stalls t.inner ≤ stalls s.inner := by
    clear hdone
    induction hvisits with
    | start => exact ⟨h, le_rfl⟩
    | next _ hnext ih =>
      obtain ⟨hreads, hle⟩ := ih.1.round_next hcrypto hnext
      exact ⟨hreads, hle.trans ih.2⟩
  exact (hkeep.1.round_done hcrypto hdone).of_stalls_le hkeep.2

end Tls13Stream

/-! ### The writer -/

/-- A caller of a writer: the stream, the buffer that is to be submitted again, and the bytes that
were reported as accepted. -/
structure Writing where
  stream : Tls13Stream Sink
  waiting : Option Bytes
  accepted : Bytes

namespace Writing

variable {κ : Type} (crypto : TlsCrypto κ)

def start (keys : AppKeys) (isServer : Bool) (schedule : List WriteEvent) : Writing :=
  ⟨.withRole ⟨[], schedule⟩ keys isServer, none, []⟩

def after (accepted buf : Bytes) : PollWrite × Tls13Stream Sink → Writing
  | (.ready n, stream) => ⟨stream, none, accepted ++ buf.take n⟩
  | (.pending, stream) => ⟨stream, some buf, accepted⟩
  | (.failed _, stream) => ⟨stream, none, accepted⟩

def step (w : Writing) (buf : Bytes) : Writing :=
  after w.accepted buf (w.stream.pollWrite crypto buf)

def lastSeq : UInt64 := 0xFFFFFFFFFFFFFFFF

/-- A write that was pending is polled with the same buffer, and numbers are left. -/
def Allowed (w : Writing) (buf : Bytes) : Prop :=
  (∀ waiting ∈ w.waiting, buf = waiting) ∧ w.stream.writeTraffic.seq ≠ lastSeq

instance Allowed.decidable (w : Writing) (buf : Bytes) : Decidable (w.Allowed buf) :=
  inferInstanceAs (Decidable ((∀ waiting ∈ w.waiting, buf = waiting) ∧ _))

variable {crypto} {keys : AppKeys} {t₀ : Traffic} {cs : CipherSuite}

/-- The wire and the rest of the record that is being written are the records of some chunks. -/
structure Sealed (crypto : TlsCrypto κ) (cs : CipherSuite) (t₀ : Traffic) (s : Tls13Stream Sink)
    (chunks : List Bytes) : Prop where
  cs_eq : s.cs = cs
  lengths : ∀ chunk ∈ chunks, chunk.length ≤ 16384
  key : chunks ≠ [] → t₀.key.length = cs.keyLen
  traffic : s.writeTraffic = endState (frame crypto cs) t₀ chunks
  count : s.writeTraffic.seq.toNat = chunks.length
  wire : s.inner.taken ++ s.writeBuf = encodeAll (frame crypto cs) t₀ chunks

/-- What holds of a caller: all records are written and their chunks are what was accepted. -/
inductive Books (crypto : TlsCrypto κ) (cs : CipherSuite) (t₀ : Traffic) (w : Writing) : Prop
  | idle (chunks : List Bytes) (sealed : Sealed crypto cs t₀ w.stream chunks)
      (empty : w.stream.writeBuf = []) (accepted : w.accepted = chunks.flatten)
      (waiting : w.waiting = none)
  | busy (chunks : List Bytes) (buf sent : Bytes)
      (sealed : Sealed crypto cs t₀ w.stream (chunks ++ [buf.take 16384]))
      (left : w.stream.writeBuf ≠ [])
      (taken : w.stream.inner.taken = encodeAll (frame crypto cs) t₀ chunks ++ sent)
      (chunkLen : w.stream.writeChunkLen = min buf.length 16384)
      (accepted : w.accepted = chunks.flatten) (waiting : w.waiting = some buf)

end Writing

section

variable {σ : Type} (s : Tls13Stream σ)
include s

theorem Tls13Stream.cs_bumpWrite : s.bumpWrite.cs = s.cs := by
  rw [bumpWrite]
  split_ifs <;> rfl

theorem Tls13Stream.inner_bumpWrite : s.bumpWrite.inner = s.inner := by
  rw [bumpWrite]
  split_ifs <;> rfl

theorem Tls13Stream.writeChunkLen_bumpWrite : s.bumpWrite.writeChunkLen = s.writeChunkLen := by
  rw [bumpWrite]
  split_ifs <;> rfl

theorem Tls13Stream.writeTraffic_bumpWrite : s.bumpWrite.writeTraffic = s.writeTraffic.bump := by
  unfold bumpWrite writeTraffic
  split_ifs <;> simp_all

end

theorem Tls13Stream.drainWriteBuf_sink (s : Tls13Stream Sink) (consumed : ℕ) :
    (∃ inner : Sink, inner.taken = s.inner.taken ++ s.writeBuf ∧ s.drainWriteBuf consumed =
      (.ready consumed, { s with inner, writeBuf := [], writeChunkLen := 0 })) ∨
    ∃ (n : ℕ) (inner : Sink), n < s.writeBuf.length ∧
      inner.taken = s.inner.taken ++ s.writeBuf.take n ∧ s.drainWriteBuf consumed =
        (.pending, { s with inner, writeBuf := s.writeBuf.drop n }) := by
  have hspec := drain_spec s.writeBuf s.inner
  have hpending : (drain s.writeBuf s.inner).1 = .pending →
      (drain s.writeBuf s.inner).2.1 < s.writeBuf.length := drain_pending
  have hend := Sink.drain_end s.writeBuf s.inner
  unfold drainWriteBuf
  rcases hdrain : drain s.writeBuf s.inner with ⟨ending, n, inner⟩
  rw [hdrain] at hspec hpending hend
  obtain hdone | hstop := hend
  · obtain rfl : ending = .done := hdone
    refine .inl ⟨inner, ?_, rfl⟩
    have hall : n = s.writeBuf.length := hspec.done rfl
    have hwritten : inner.taken = s.inner.taken ++ s.writeBuf.take n := hspec.written
    rw [hwritten, hall, take_length]
  · obtain rfl : ending = .pending := hstop
    exact .inr ⟨n, inner, hpending rfl, hspec.written, rfl⟩

open Tls13Stream

namespace Writing

variable {κ : Type} {crypto : TlsCrypto κ} {t₀ : Traffic} {cs : CipherSuite} {s : Tls13Stream Sink}
  {buf : Bytes} {w : Writing}

theorem Sealed.of_eq {s' : Tls13Stream Sink} (h : Sealed crypto cs t₀ s chunks) (hcs : s'.cs = s.cs)
    (htraffic : s'.writeTraffic = s.writeTraffic)
    (hwire : s'.inner.taken ++ s'.writeBuf = s.inner.taken ++ s.writeBuf) :
    Sealed crypto cs t₀ s' chunks where
  cs_eq := hcs.trans h.cs_eq
  lengths := h.lengths
  key := h.key
  traffic := htraffic.trans h.traffic
  count := by rw [htraffic, h.count]
  wire := hwire.trans h.wire

theorem take_chunkLen (buf : Bytes) : buf.take (min buf.length 16384) = buf.take 16384 := by
  rw [Nat.min_comm]
  exact take_eq_take_min.symm

theorem Books.of_drain {sent accepted : Bytes}
    (hsealed : Sealed crypto cs t₀ s (chunks ++ [buf.take 16384]))
    (htaken : s.inner.taken = encodeAll (frame crypto cs) t₀ chunks ++ sent)
    (hlen : s.writeChunkLen = min buf.length 16384) (haccepted : accepted = chunks.flatten) :
    Books crypto cs t₀ (after accepted buf (s.drainWriteBuf (min buf.length 16384))) := by
  obtain ⟨inner, hwritten, hdrain⟩ | ⟨n, inner, hn, hwritten, hdrain⟩ :=
    s.drainWriteBuf_sink (min buf.length 16384)
  · rw [hdrain]
    refine .idle (chunks ++ [buf.take 16384]) (hsealed.of_eq rfl rfl ?_) rfl ?_ rfl
    · exact (append_nil _).trans hwritten
    · show accepted ++ buf.take (min buf.length 16384) = _
      rw [haccepted, flatten_concat, take_chunkLen]
  · rw [hdrain]
    refine .busy chunks buf (sent ++ s.writeBuf.take n) (hsealed.of_eq rfl rfl ?_) ?_ ?_ hlen
      haccepted rfl
    · show inner.taken ++ s.writeBuf.drop n = _
      rw [hwritten, append_assoc, take_append_drop]
    · show s.writeBuf.drop n ≠ []
      rwa [ne_eq, drop_eq_nil_iff, not_le]
    · show inner.taken = _
      rw [hwritten, htaken, append_assoc]

theorem key_endState (crypto : TlsCrypto κ) (cs : CipherSuite) (t : Traffic) (chunks : List Bytes) :
    (endState (frame crypto cs) t chunks).key = t.key := by
  induction chunks generalizing t with
  | nil => rfl
  | cons chunk chunks ih => exact ih _

theorem toNat_succ {seq : UInt64} (h : seq ≠ lastSeq) : (seq + 1).toNat = seq.toNat + 1 := by
  have hlt : seq.toNat ≠ lastSeq.toNat := fun heq => h (UInt64.toNat_inj.1 heq)
  have hmax := seq.toNat_lt
  simp only [lastSeq] at hlt
  simp at hlt ⊢
  omega

theorem Sealed.bumpWrite (h : Sealed crypto cs t₀ s chunks)
    (hempty : s.writeBuf = []) (hchunk : chunk.length ≤ 16384)
    (hkey : s.writeTraffic.key.length = cs.keyLen) (hseq : s.writeTraffic.seq ≠ lastSeq) :
    Sealed crypto cs t₀ { s.bumpWrite with writeBuf := (s.writeTraffic.frame crypto cs chunk).1 }
      (chunks ++ [chunk]) where
  cs_eq := s.cs_bumpWrite.trans h.cs_eq
  lengths c hc := by
    rw [mem_append, mem_singleton] at hc
    obtain hc | rfl := hc
    · exact h.lengths c hc
    · exact hchunk
  key _ := by rw [← hkey, h.traffic, key_endState]
  traffic := by
    rw [endState_append, ← h.traffic]
    exact s.writeTraffic_bumpWrite
  count := by
    rw [length_append, ← h.count]
    exact (congrArg (fun t : Traffic => t.seq.toNat) s.writeTraffic_bumpWrite).trans
      (toNat_succ hseq)
  wire := by
    have hwire := h.wire
    rw [hempty, append_nil] at hwire
    rw [encodeAll_append, ← h.traffic, ← hwire, encodeAll, encodeAll, append_nil]
    exact congrArg (fun inner : Sink => inner.taken ++ _) s.inner_bumpWrite

theorem Books.writeChunk {accepted : Bytes} (hsealed : Sealed crypto cs t₀ s chunks)
    (hempty : s.writeBuf = []) (haccepted : accepted = chunks.flatten)
    (hlen : s.writeChunkLen = min buf.length 16384) (hseq : s.writeTraffic.seq ≠ lastSeq) :
    Books crypto cs t₀ (after accepted buf (s.writeChunk crypto (buf.take 16384))) := by
  have hframe := encryptAppRecord_eq crypto s.cs s.writeTraffic (buf.take 16384)
  rw [Tls13Stream.writeChunk, hframe]
  by_cases hkey : s.writeTraffic.key.length = s.cs.keyLen
  · rw [if_neg (not_not.2 hkey)]
    rw [hsealed.cs_eq] at hkey
    rw [hlen, hsealed.cs_eq]
    have hrecord := hsealed.bumpWrite hempty (length_take_le 16384 buf) hkey hseq
    have htaken : s.bumpWrite.inner.taken =
        encodeAll (Traffic.frame crypto cs) t₀ chunks ++ [] := by
      rw [s.inner_bumpWrite, ← hsealed.wire, hempty, append_nil, append_nil]
    exact .of_drain hrecord htaken (s.writeChunkLen_bumpWrite.trans hlen) haccepted
  · rw [if_pos hkey]
    exact .idle chunks hsealed hempty haccepted rfl

theorem Books.step (h : Books crypto cs t₀ w) (hallowed : w.Allowed buf) :
    Books crypto cs t₀ (w.step crypto buf) := by
  cases h with
  | busy chunks waiting sent hsealed hleft htaken hlen haccepted hwaiting =>
    obtain rfl : buf = waiting := hallowed.1 waiting hwaiting
    rw [Writing.step, Tls13Stream.pollWrite, if_pos hleft, hlen]
    exact .of_drain hsealed htaken hlen haccepted
  | idle chunks hsealed hempty haccepted hwaiting =>
    rw [Writing.step, Tls13Stream.pollWrite, if_neg (not_not.2 hempty)]
    by_cases hbuf : buf = []
    · rw [if_pos hbuf]
      refine .idle chunks hsealed hempty ?_ rfl
      show w.accepted ++ buf.take 0 = _
      rw [haccepted, take_zero, append_nil]
    · rw [if_neg hbuf]
      dsimp only
      rw [take_chunkLen]
      exact .writeChunk (hsealed.of_eq rfl rfl rfl) hempty haccepted rfl hallowed.2

def startTraffic (keys : AppKeys) (isServer : Bool) : Traffic :=
  if isServer then ⟨keys.serverKey, keys.serverIv, 0⟩ else ⟨keys.clientKey, keys.clientIv, 0⟩

theorem Books.start (keys : AppKeys) (isServer : Bool) (schedule : List WriteEvent) :
    Books crypto keys.cs (startTraffic keys isServer) (start keys isServer schedule) := by
  refine .idle []
    ⟨rfl, fun _ h => absurd h not_mem_nil, fun h => absurd rfl h, ?_, ?_, rfl⟩ rfl
    rfl rfl
  · cases isServer <;> rfl
  · cases isServer <;> rfl

theorem Books.wire (hcrypto : crypto.OpensSealed) (h : Books crypto cs t₀ w) :
    ∃ chunks tail, (∀ chunk ∈ chunks, chunk.length ≤ 16384) ∧
      (chunks ≠ [] → t₀.key.length = cs.keyLen) ∧ Cut tail ∧
      w.stream.inner.taken = encodeAll (frame crypto cs) t₀ chunks ++ tail ∧
      w.accepted = chunks.flatten := by
  cases h with
  | idle chunks hsealed hempty haccepted hwaiting =>
    have hwire := hsealed.wire
    rw [hempty] at hwire
    have hcut : Cut [] := ⟨⟨⟨[0, 0, 0, 0, 0], rfl⟩, [], rfl⟩, nil_prefix,
      (cons_ne_nil _ _).symm⟩
    exact ⟨chunks, [], hsealed.lengths, hsealed.key, hcut, by simpa using hwire, haccepted⟩
  | busy chunks buf sent hsealed hleft htaken hlen haccepted hwaiting =>
    refine ⟨chunks, sent, fun c hc => hsealed.lengths c (mem_append_left _ hc),
      fun _ => hsealed.key (by simp), ?_, htaken, haccepted⟩
    have hwire := hsealed.wire
    rw [htaken, encodeAll_append, append_assoc] at hwire
    have hframe := append_cancel_left hwire
    rw [encodeAll, encodeAll, append_nil] at hframe
    have hkey : (endState (frame crypto cs) t₀ chunks).key.length = cs.keyLen := by
      rw [key_endState]
      exact hsealed.key (by simp)
    obtain ⟨record, hrecord, -⟩ := frame_record hcrypto hkey (length_take_le 16384 buf)
    rw [hrecord] at hframe
    refine ⟨record, ⟨_, hframe⟩, fun hsent => hleft ?_⟩
    rw [← hsent] at hframe
    exact append_right_eq_self.1 hframe

theorem Books.reads (hcrypto : crypto.OpensSealed) {keys : AppKeys} {isServer : Bool}
    (h : Books crypto keys.cs (startTraffic keys isServer) w) {σ : Type} [AsyncRead σ] {source : σ}
    (hsource : rest source = w.stream.inner.taken) :
    Reads crypto (.withRole source keys !isServer) w.accepted := by
  obtain ⟨chunks, tail, hlen, hkey, hcut, htaken, haccepted⟩ := h.wire hcrypto
  have htraffic : (withRole source keys !isServer).readTraffic =
      startTraffic keys isServer := by cases isServer <;> rfl
  refine ⟨Nat.zero_le 5, chunks, tail, hlen, ?_, hcut, ?_, haccepted⟩
  · rw [htraffic]
    exact hkey
  · rw [htraffic]
    exact hsource.trans htaken

def numbered (crypto : TlsCrypto κ) (cs : CipherSuite) (t : Traffic) (chunks : List Bytes) :
    Bytes :=
  (chunks.zipIdx.map fun c => (frame crypto cs { t with seq := .ofNat c.2 } c.1).1).flatten

theorem encodeAll_eq_zipIdx (t : Traffic) (k : ℕ) (chunks : List Bytes) :
    encodeAll (frame crypto cs) { t with seq := .ofNat k } chunks =
      ((chunks.zipIdx k).map fun c =>
        (frame crypto cs { t with seq := .ofNat c.2 } c.1).1).flatten := by
  induction chunks generalizing k with
  | nil => rfl
  | cons chunk chunks ih =>
    rw [zipIdx_cons, map_cons, flatten_cons, ← ih]
    have hseq : UInt64.ofNat (k + 1) = UInt64.ofNat k + 1 := UInt64.ofNat_add k 1
    rw [hseq]
    rfl

end Writing

/-! ### Clean ends -/

def wireRecords : ℕ → Bytes → List (Bytes × Bytes)
  | 0, _ => []
  | fuel + 1, wire =>
    let len := ofBe ((wire.take 5).drop 3)
    if wire.length < 5 + len then []
    else (wire.take 5, (wire.drop 5).take len) :: wireRecords fuel (wire.drop (5 + len))

/-- A close notification is among the records of the wire, not encrypted. -/
def ClosesInClear (wire : Bytes) : Prop :=
  ∃ r ∈ wireRecords wire.length wire, r.1.headD 0 = rtAlert ∧ isCloseNotify r.2

theorem wireRecords_cons (fuel : ℕ) (record : Record) (tail : Bytes) :
    wireRecords (fuel + 1) (record.bytes ++ tail) =
      (record.header.val, record.body) :: wireRecords fuel tail := by
  have hheader : (record.bytes ++ tail).take 5 = record.header.val := by
    rw [bytes, append_assoc, take_left' record.header.property]
  have hbehind : (record.bytes ++ tail).drop 5 = record.body ++ tail := by
    rw [bytes, append_assoc, drop_left' record.header.property]
  have hlen := record.length_bytes
  rw [wireRecords, hheader, hbehind, ← record.length_body, take_left, ← drop_drop,
    hbehind, drop_left, if_neg (by rw [length_append]; omega)]

theorem mem_wireRecords_succ {fuel : ℕ} {wire : Bytes} {r : Bytes × Bytes}
    (h : r ∈ wireRecords fuel wire) : r ∈ wireRecords (fuel + 1) wire := by
  induction fuel generalizing wire with
  | zero => exact absurd h not_mem_nil
  | succ fuel ih =>
    rw [wireRecords] at h ⊢
    split_ifs at h ⊢ with hlen
    · exact h
    · rw [mem_cons] at h ⊢
      exact h.imp_right ih

theorem mem_wireRecords_of_le {fuel fuel' : ℕ} (hle : fuel ≤ fuel') {wire : Bytes}
    {r : Bytes × Bytes} (h : r ∈ wireRecords fuel wire) : r ∈ wireRecords fuel' wire := by
  induction hle with
  | refl => exact h
  | step _ ih => exact mem_wireRecords_succ ih

theorem closesInClear_of_record
    (h : ClosesInClear tail ∨ record.header.val.headD 0 = rtAlert ∧ isCloseNotify record.body) :
    ClosesInClear (record.bytes ++ tail) := by
  have hlen : (record.bytes ++ tail).length = 4 + record.body.length + tail.length + 1 := by
    rw [length_append, record.length_bytes]
    omega
  unfold ClosesInClear
  rw [hlen, wireRecords_cons]
  obtain ⟨r, hr, hclose⟩ | hclose := h
  · exact ⟨r, mem_cons_of_mem _ (mem_wireRecords_of_le (by omega) hr), hclose⟩
  · exact ⟨_, mem_cons_self, hclose⟩

namespace Tls13Stream

variable {σ κ : Type} {crypto : TlsCrypto κ}

def HoldsSealed (crypto : TlsCrypto κ) (s : Tls13Stream σ) : Prop :=
  ∃ header seq msg, s.readPhase = .body header (crypto.aeadSeal s.cs s.readTraffic.key
      (computeNonce s.readTraffic.iv seq) header.val msg) ∧
    header.val.headD 0 = rtApplicationData

theorem decryptAppRecord_sealed (hcrypto : crypto.OpensSealed) {cs : CipherSuite} {key : Bytes}
    {iv : Octets 12} {seq : UInt64} {result : Bytes × UInt8}
    (h : decryptAppRecord crypto cs key iv seq record = .ok result) :
    ∃ msg, record.body = crypto.aeadSeal cs key (computeNonce iv seq) record.header.val msg := by
  unfold decryptAppRecord at h
  dsimp only at h
  split_ifs at h
  split at h
  · cases h
  · rename_i plaintext hopen
    exact ⟨plaintext, hcrypto.sealed _ _ _ _ _ _ hopen⟩

theorem processRecord_eof (hcrypto : crypto.OpensSealed) {s s' : Tls13Stream σ}
    (hphase : s.readPhase = .body record.header record.body)
    (h : s.processRecord crypto record = .done (.ready [], s')) :
    s'.HoldsSealed crypto ∨ record.header.val.headD 0 = rtAlert ∧ isCloseNotify record.body := by
  unfold processRecord at h
  dsimp only at h
  split_ifs at h with htype hccs halert hclose
  · split at h
    · cases h
    · rename_i inner innerType hopen
      obtain ⟨msg, hbody⟩ := decryptAppRecord_sealed hcrypto hopen
      unfold processInner at h
      split_ifs at h <;> cases h
      refine .inl ⟨record.header, s.readTraffic.seq, msg, ?_, htype⟩
      rw [readPhase_bumpRead, cs_bumpRead, readTraffic_bumpRead, hphase, hbody]
      rfl
  · exact .inr ⟨halert, hclose⟩
  · cases h
  · cases h

variable [AsyncRead σ] {cap : ℕ} {s s' : Tls13Stream σ}

theorem clear_round_next (h : ¬ClosesInClear s.unread) (hround : s.round crypto cap = .next s') :
    ¬ClosesInClear s'.unread := by
  intro hclose
  obtain ⟨hsame, -⟩ | ⟨record, htaken⟩ := round_next hround
  · exact h (hsame ▸ hclose)
  · rw [htaken, ← append_assoc] at h
    exact h (closesInClear_of_record (.inl hclose))

section

variable (hcrypto : crypto.OpensSealed)
include hcrypto

theorem holdsSealed_of_round (hclear : ¬ClosesInClear s.unread)
    (hcap : 0 < cap) (h : s.round crypto cap = .done (.ready [], s')) : s'.HoldsSealed crypto := by
  unfold round at h
  split at h <;> rename_i hphase
  · split_ifs at h with hplain
    simp only [Loop.Step.done.injEq, Prod.mk.injEq, Answer.ready.injEq, take_eq_nil_iff] at h
    exact absurd h.1 (not_or.2 ⟨by omega, hplain⟩)
  · split at h <;> cases h
  · rename_i header got
    split at h <;> rename_i hfill
    · cases h
    · cases h
    · rename_i body inner
      refine (processRecord_eof hcrypto rfl h).resolve_right fun hclose => hclear ?_
      have hunread : s.unread =
          bytes ⟨header, body.val, body.property⟩ ++ rest inner := by
        rw [unread_body_done hphase hfill, bytes, append_assoc]
      rw [hunread]
      exact closesInClear_of_record (.inr hclose)

/-- **Clean ends.**  When no record of the wire is an unencrypted `close_notify`, a poll leaves such
a wire, and reports a clean end only with a sealed record at hand. -/
theorem pollRead_clear (cap : ℕ) {s : Tls13Stream σ} (hclear : ¬ClosesInClear s.unread) :
    ¬ClosesInClear (s.pollRead crypto cap).2.unread ∧
      (0 < cap → (s.pollRead crypto cap).1 = .ready [] →
        (s.pollRead crypto cap).2.HoldsSealed crypto) := by
  obtain ⟨t, hvisits, hdone⟩ := pollRead_eq_round crypto cap s
  have hclear' : ¬ClosesInClear t.unread := by
    clear hdone
    induction hvisits with
    | start => exact hclear
    | next _ hnext ih => exact clear_round_next ih hnext
  rcases hpoll : s.pollRead crypto cap with ⟨answer, s'⟩
  rw [hpoll] at hdone
  refine ⟨?_, fun hcap heof => ?_⟩
  · rwa [round_done hdone]
  · obtain rfl : answer = .ready [] := heof
    exact holdsSealed_of_round hcrypto hclear' hcap hdone

theorem clear_foldl (caps : List ℕ) {s : Tls13Stream σ} (hclear : ¬ClosesInClear s.unread) :
    ¬ClosesInClear (caps.foldl (fun s cap => (s.pollRead crypto cap).2) s).unread := by
  induction caps generalizing s with
  | nil => exact hclear
  | cons cap caps ih => exact ih (pollRead_clear hcrypto cap hclear).1

end

end Tls13Stream

/-! ### Two ends -/

theorem Writing.Books.numbered {κ : Type} {crypto : TlsCrypto κ} {keys : AppKeys} {isServer : Bool}
    {w : Writing} (h : Books crypto keys.cs (startTraffic keys isServer) w) :
    ∃ chunks : List Bytes, w.stream.inner.taken ++ w.stream.writeBuf =
        Writing.numbered crypto keys.cs (startTraffic keys isServer) chunks ∧
      ∀ i j, i < chunks.length → j < chunks.length → UInt64.ofNat i = UInt64.ofNat j → i = j := by
  obtain ⟨chunks, hsealed⟩ : ∃ chunks,
      Sealed crypto keys.cs (startTraffic keys isServer) w.stream chunks := by
    cases h with
    | idle chunks hsealed => exact ⟨chunks, hsealed⟩
    | busy chunks buf sent hsealed => exact ⟨_, hsealed⟩
  refine ⟨chunks, ?_, fun i j hi hj hij => ?_⟩
  · rw [hsealed.wire, Writing.numbered, ← encodeAll_eq_zipIdx]
    cases isServer <;> rfl
  · have hlt := w.stream.writeTraffic.seq.toNat_lt
    rw [hsealed.count] at hlt
    have hnat := congrArg UInt64.toNat hij
    rwa [UInt64.toNat_ofNat_of_lt' (hi.trans hlt), UInt64.toNat_ofNat_of_lt' (hj.trans hlt)] at hnat

open Writing

/-- **TLS 1.3 streams.**  For every sequence of writes, in which a buffer is submitted again after
`Pending`, and every schedule of the stream below: a stream of the other role with the same keys
gets, from the bytes on the wire in any segments and with buffers of any size, what was reported as
accepted, at any time a beginning of it and all of it when it is polled often enough; and no two
records have the same number.  On any wire without an unencrypted `close_notify`, a reader reports a
clean end only with a record at hand that was sealed with the key of the other side. -/
theorem tls13Stream_delivers {σ κ : Type} [AsyncRead σ] (crypto : TlsCrypto κ)
    (hcrypto : crypto.OpensSealed) (keys : AppKeys) (isServer : Bool) (schedule : List WriteEvent)
    (bufs : List Bytes) (hallowed : Run.Meets Allowed (step crypto)
      (.start keys isServer schedule) bufs) :
    (∀ (source : σ) (caps : List ℕ),
      rest source =
        (bufs.foldl (step crypto) (.start keys isServer schedule)).stream.inner.taken →
      gather (pollRead crypto) caps (.withRole source keys !isServer) <+:
          (bufs.foldl (step crypto) (.start keys isServer schedule)).accepted ∧
        ((∀ cap ∈ caps, 0 < cap) →
          (bufs.foldl (step crypto) (.start keys isServer schedule)).accepted.length +
            stalls source ≤ caps.length →
          gather (pollRead crypto) caps (.withRole source keys !isServer) =
            (bufs.foldl (step crypto) (.start keys isServer schedule)).accepted)) ∧
    (∃ chunks : List Bytes,
      (bufs.foldl (step crypto) (.start keys isServer schedule)).stream.inner.taken ++
          (bufs.foldl (step crypto) (.start keys isServer schedule)).stream.writeBuf =
        numbered crypto keys.cs (startTraffic keys isServer) chunks ∧
      ∀ i j, i < chunks.length → j < chunks.length → UInt64.ofNat i = UInt64.ofNat j → i = j) ∧
    ∀ (source : σ) (caps : List ℕ) (cap : ℕ) (reader : Tls13Stream σ),
      reader = caps.foldl (fun s cap => (s.pollRead crypto cap).2)
        (.withRole source keys !isServer) →
      ¬ClosesInClear (rest source) → 0 < cap →
      (reader.pollRead crypto cap).1 = .ready [] →
        (reader.pollRead crypto cap).2.HoldsSealed crypto := by
  have hstart : Books crypto keys.cs (startTraffic keys isServer)
      (.start keys isServer schedule) := .start keys isServer schedule
  have hbooks := Run.invariant_of_meets (fun _ _ hw hok => hw.step hok) hstart hallowed
  refine ⟨fun source caps hsource => ?_, hbooks.numbered, ?_⟩
  · have hreads := hbooks.reads hcrypto hsource
    refine ⟨(yields_pollRead hcrypto).gather_begins caps hreads, fun hcaps hcount => ?_⟩
    exact (yields_pollRead hcrypto).gather_eq hcaps hreads hcount
  · rintro source caps cap reader rfl hclear hcap heof
    refine (pollRead_clear hcrypto cap ?_).2 hcap heof
    exact clear_foldl hcrypto caps hclear

def sampleKeys : AppKeys :=
  ⟨.aes128GcmSha256, List.replicate 16 1, .replicate 12 2, List.replicate 16 3,
    .replicate 12 4⟩

theorem checksumCrypto_opensSealed : checksumCrypto.OpensSealed where
  length_seal cs key nonce aad msg _ := by simp [checksumCrypto]
  opens cs key nonce aad msg _ := by simp [checksumCrypto]
  sealed cs key nonce aad ct msg h := by
    simp only [checksumCrypto] at h ⊢
    split_ifs at h with htag
    cases h
    rw [length_take, Nat.min_eq_left (Nat.sub_le _ _)] at htag
    rw [← htag, take_append_drop]

def sampleWriting : Writing :=
  [[1, 2, 3], [1, 2, 3], [4]].foldl (step checksumCrypto)
    (.start sampleKeys false [.accept 0, .pending])

def sampleWire : Source :=
  [.data ⟨sampleWriting.stream.inner.taken.take 7, by decide +kernel⟩, .pending false,
    .data ⟨sampleWriting.stream.inner.taken.drop 7, by decide +kernel⟩]

theorem tls13Stream_delivers_sample :
    gather (pollRead checksumCrypto) [2, 2, 2, 2, 2]
      (.withRole sampleWire sampleKeys true) = [1, 2, 3, 4] := by
  have haccepted : sampleWriting.accepted = [1, 2, 3, 4] := by decide +kernel
  rw [← haccepted]
  refine ((tls13Stream_delivers checksumCrypto checksumCrypto_opensSealed sampleKeys false
    [.accept 0, .pending] [[1, 2, 3], [1, 2, 3], [4]] (by decide +kernel)).1 sampleWire
    [2, 2, 2, 2, 2] (by decide +kernel)).2 (by decide) ?_
  decide +kernel

def alertWire : Source :=
  [.data ⟨[0x15, 0x03, 0x03, 0x00, 0x02, 0x01, 0x00], cons_ne_nil _ _⟩]

/-- The alert ends the stream of a client cleanly, although nothing was sealed. -/
theorem tls13Stream_cut :
    ((withRole alertWire sampleKeys false).pollRead checksumCrypto 1).1 = .ready [] ∧
      ¬((withRole alertWire sampleKeys false).pollRead checksumCrypto 1).2.HoldsSealed
        checksumCrypto := by
  refine ⟨by decide +kernel, ?_⟩
  rintro ⟨header, seq, msg, hphase, htype⟩
  rw [← (ReadPhase.body.inj hphase).1] at htype
  exact absurd htype (by decide)

end Blackwire.Reality
