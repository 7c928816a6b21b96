import Blackwire.Lib.AsyncWrite
import Blackwire.Lib.Fill
import Blackwire.Lib.Loop
import Blackwire.Reality.Tls13

/-!
# The application-data stream of TLS 1.3

`Tls13Stream` of `reality/tls13.rs`.  The reader collects the header and the body of a record, in as
many polls as it takes, opens it, and hands out what is inside.

The buffers and positions of the source are kept as what is between them: `plain_buf` from
`plain_pos` on, `header_buf` and `body_buf` up to `header_pos` and `body_pos`, and `write_buf` from
`write_pos` on.
-/

namespace Blackwire.Reality

open AsyncIO AsyncRead

structure Traffic where
  key : Bytes
  iv : Octets 12
  seq : UInt64

def Traffic.bump (t : Traffic) : Traffic := { t with seq := t.seq + 1 }

/-- `RPHASE_PLAINTEXT`, `RPHASE_HEADER` and `RPHASE_BODY`, each with what has been collected. -/
inductive ReadPhase
  | plaintext (plain : Bytes)
  | header (got : Bytes)
  | body (header : Octets 5) (got : Bytes)

structure Tls13Stream (σ : Type) where
  inner : σ
  cs : CipherSuite
  client : Traffic
  server : Traffic
  isServer : Bool
  readPhase : ReadPhase
  writeBuf : Bytes
  writeChunkLen : ℕ

inductive ReadFault
  | unexpectedEof (msg : String)
  | connectionReset (msg : String)
  | invalidData (msg : String)
  deriving DecidableEq

def errorText : ProxyError → String
  | .authFailed => "authentication failed"
  | .protocol msg => "protocol error: " ++ msg
  | .transport msg => "transport error: " ++ msg
  | .tls msg => "TLS error: " ++ msg
  | .timeout => "timeout"
  | .unsupportedNetwork => "unsupported network type"
  | .dnsResolutionFailed name => "DNS resolution failed for '" ++ name ++ "'"
  | .routingFailed => "no routing rule matched"
  | .fallbackRequired => "fallback required"
  | .io .unexpectedEof => "unexpected end of file"
  | .io .writeZero => "write zero"
  | .io .invalidData => "invalid data"

def bodyLen (header : Octets 5) : ℕ := Bytes.ofBe (header.val.drop 3)

def isCloseNotify : Bytes → Bool
  | level :: description :: _ => level == 1 && description == 0
  | _ => false

namespace Tls13Stream

variable {σ : Type} (s : Tls13Stream σ)

def withRole (inner : σ) (keys : AppKeys) (isServer : Bool) : Tls13Stream σ where
  inner := inner
  cs := keys.cs
  client := ⟨keys.clientKey, keys.clientIv, 0⟩
  server := ⟨keys.serverKey, keys.serverIv, 0⟩
  isServer := isServer
  readPhase := .header []
  writeBuf := []
  writeChunkLen := 0

def readTraffic : Traffic := if s.isServer then s.client else s.server

def writeTraffic : Traffic := if s.isServer then s.server else s.client

def bumpRead : Tls13Stream σ :=
  if s.isServer then { s with client := s.client.bump } else { s with server := s.server.bump }

def bumpWrite : Tls13Stream σ :=
  if s.isServer then { s with server := s.server.bump } else { s with client := s.client.bump }

section Read

variable {κ : Type} (crypto : TlsCrypto κ) (s : Tls13Stream σ)

def processInner (inner : Bytes) (innerType : UInt8) :
    Loop.Step (Tls13Stream σ) (Answer ReadFault × Tls13Stream σ) :=
  if innerType = rtApplicationData then .next { s with readPhase := .plaintext inner }
  else if innerType = rtAlert then
    if isCloseNotify inner then .done (.ready [], s)
    else .done (.failed (.connectionReset "TLS alert from server"), s)
  else .next { s with readPhase := .header [] }

def processRecord (record : Record) :
    Loop.Step (Tls13Stream σ) (Answer ReadFault × Tls13Stream σ) :=
  let recType := record.header.val.headD 0
  if recType = rtApplicationData then
    match decryptAppRecord crypto s.cs s.readTraffic.key s.readTraffic.iv s.readTraffic.seq
        record with
    | .error e => .done (.failed (.invalidData (errorText e)), s)
    | .ok (inner, innerType) => s.bumpRead.processInner inner innerType
  else if recType = rtChangeCipherSpec then .next { s with readPhase := .header [] }
  else if recType = rtAlert then
    if isCloseNotify record.body then .done (.ready [], s)
    else .done (.failed (.connectionReset "TLS alert (unencrypted)"), s)
  else
    .done (.failed (.invalidData ("unexpected TLS record type 0x" ++ hexPad 2 recType.toNat)), s)

variable [AsyncRead σ]

def round (cap : ℕ) (s : Tls13Stream σ) :
    Loop.Step (Tls13Stream σ) (Answer ReadFault × Tls13Stream σ) :=
  match s.readPhase with
  | .plaintext plain =>
    if plain ≠ [] then
      .done (.ready (plain.take cap), { s with readPhase := .plaintext (plain.drop cap) })
    else .next { s with readPhase := .header [] }
  | .header got =>
    match fill 5 got s.inner with
    | (.pending got, inner) => .done (.pending, { s with inner, readPhase := .header got })
    | (.eof got, inner) =>
      .done (.failed (.unexpectedEof "TLS peer closed mid-record-header"),
        { s with inner, readPhase := .header got })
    | (.done header, inner) => .next { s with inner, readPhase := .body header [] }
  | .body header got =>
    match fill (bodyLen header) got s.inner with
    | (.pending got, inner) => .done (.pending, { s with inner, readPhase := .body header got })
    | (.eof got, inner) =>
      .done (.failed (.unexpectedEof "TLS peer closed mid-record-body"),
        { s with inner, readPhase := .body header got })
    | (.done body, inner) =>
      processRecord crypto { s with inner, readPhase := .body header body.val }
        ⟨header, body.val, body.property⟩

def unread (s : Tls13Stream σ) : Bytes :=
  match s.readPhase with
  | .plaintext _ => rest s.inner
  | .header got => got ++ rest s.inner
  | .body header got => header.val ++ (got ++ rest s.inner)

def pollRead (cap : ℕ) (s : Tls13Stream σ) : Answer ReadFault × Tls13Stream σ :=
  match Loop.run (round crypto cap) (s.unread.length + 3) s with
  | .done result => result
  | .next s => (.pending, s)

end Read

section Write

variable {κ : Type} (crypto : TlsCrypto κ) [AsyncWrite σ]

/-- Offer the rest of the record to the stream below; `consumed` is what is reported when all of it
was taken. -/
def drainWriteBuf (s : Tls13Stream σ) (consumed : ℕ) : PollWrite × Tls13Stream σ :=
  match drain s.writeBuf s.inner with
  | (.done, _, inner) => (.ready consumed, { s with inner, writeBuf := [], writeChunkLen := 0 })
  | (.pending, n, inner) => (.pending, { s with inner, writeBuf := s.writeBuf.drop n })
  | (.failed e, n, inner) => (.failed e, { s with inner, writeBuf := s.writeBuf.drop n })
  | (.writeZero, n, inner) =>
    (.failed (.writeZero "write zero"), { s with inner, writeBuf := s.writeBuf.drop n })

def writeChunk (chunk : Bytes) (s : Tls13Stream σ) : PollWrite × Tls13Stream σ :=
  match encryptAppRecord crypto s.cs s.writeTraffic.key s.writeTraffic.iv s.writeTraffic.seq chunk
      rtApplicationData with
  | .error e => (.failed (.invalidData (errorText e)), s)
  | .ok record => drainWriteBuf { s.bumpWrite with writeBuf := record } s.writeChunkLen

def pollWrite (buf : Bytes) (s : Tls13Stream σ) : PollWrite × Tls13Stream σ :=
  if s.writeBuf ≠ [] then s.drainWriteBuf s.writeChunkLen
  else if buf = [] then (.ready 0, s)
  else
    let chunkLen := min buf.length 16384
    writeChunk crypto (buf.take chunkLen) { s with writeChunkLen := chunkLen }

end Write

/-! ### Rounds -/

section Rounds

variable {κ : Type} {crypto : TlsCrypto κ} {s s' : Tls13Stream σ} {answer : Answer ReadFault}

section

variable (s : Tls13Stream σ)

@[simp] theorem inner_bumpRead : s.bumpRead.inner = s.inner := by
  rw [bumpRead]
  split_ifs <;> rfl

@[simp] theorem readPhase_bumpRead : s.bumpRead.readPhase = s.readPhase := by
  rw [bumpRead]
  split_ifs <;> rfl

@[simp] theorem cs_bumpRead : s.bumpRead.cs = s.cs := by
  rw [bumpRead]
  split_ifs <;> rfl

theorem readTraffic_bumpRead : s.bumpRead.readTraffic = s.readTraffic.bump := by
  unfold bumpRead readTraffic
  split_ifs <;> simp_all

end

theorem processRecord_next {record : Record} (h : s.processRecord crypto record = .next s') :
    s'.inner = s.inner ∧
      (s'.readPhase = .header [] ∨ ∃ plain, s'.readPhase = .plaintext plain) := by
  unfold processRecord processInner at h
  dsimp only at h
  split_ifs at h with htype
  · split at h
    · cases h
    · split_ifs at h
      · cases h
        exact ⟨inner_bumpRead s, .inr ⟨_, rfl⟩⟩
      · cases h
        exact ⟨inner_bumpRead s, .inl rfl⟩
  · cases h
    exact ⟨rfl, .inl rfl⟩

theorem processRecord_done {record : Record}
    (h : s.processRecord crypto record = .done (answer, s')) :
    s'.inner = s.inner ∧ s'.readPhase = s.readPhase := by
  unfold processRecord processInner at h
  dsimp only at h
  split_ifs at h with htype
  · split at h
    · cases h
      exact ⟨rfl, rfl⟩
    · split_ifs at h
      all_goals
        cases h
        exact ⟨inner_bumpRead s, readPhase_bumpRead s⟩
  all_goals
    cases h
    exact ⟨rfl, rfl⟩

variable [AsyncRead σ] {cap : ℕ}

def rank (s : Tls13Stream σ) : ℕ :=
  match s.readPhase with
  | .plaintext _ => 2
  | .header _ => 1
  | .body _ _ => 0

theorem unread_body_done {header : Octets 5} {got : Bytes} (hphase : s.readPhase = .body header got)
    {body : Octets (bodyLen header)} {inner : σ}
    (hfill : fill (bodyLen header) got s.inner = (.done body, inner)) :
    s.unread = header.val ++ (body.val ++ rest inner) := by
  have hmoved := fill_moved (bodyLen header) got s.inner
  rw [hfill] at hmoved
  simp only [unread, hphase, ← hmoved]
  rfl

theorem round_next (h : s.round crypto cap = .next s') :
    (s'.unread = s.unread ∧ s'.rank < s.rank) ∨
      ∃ record : Record, s.unread = record.header.val ++ (record.body ++ s'.unread) := by
  unfold round at h
  split at h
  · rename_i plain hphase
    split_ifs at h
    cases h
    refine .inl ⟨?_, ?_⟩
    · simp [unread, hphase]
    · simp [rank, hphase]
  · rename_i got hphase
    have hmoved := fill_moved 5 got s.inner
    split at h <;> rename_i hfill <;> rw [hfill] at hmoved
    · cases h
    · cases h
    · cases h
      refine .inl ⟨?_, ?_⟩
      · simp only [unread, hphase]
        exact hmoved
      · simp [rank, hphase]
  · rename_i header got hphase
    split at h <;> rename_i hfill
    · cases h
    · cases h
    · rename_i body inner
      obtain ⟨hinner, hnext⟩ := processRecord_next h
      refine .inr ⟨⟨header, body.val, body.property⟩, ?_⟩
      have hunread : s'.unread = rest inner := by
        obtain hnext | ⟨plain, hnext⟩ := hnext
        · simp [unread, hnext, hinner]
        · simp [unread, hnext, hinner]
      rw [hunread]
      exact unread_body_done hphase hfill

theorem round_done (h : s.round crypto cap = .done (answer, s')) : s'.unread = s.unread := by
  unfold round at h
  split at h
  · rename_i plain hphase
    split_ifs at h
    cases h
    simp [unread, hphase]
  · rename_i got hphase
    have hmoved := fill_moved 5 got s.inner
    split at h <;> rename_i hfill <;> rw [hfill] at hmoved <;> cases h
    all_goals
      simp only [unread, hphase]
      exact hmoved
  · rename_i header got hphase
    have hmoved := fill_moved (bodyLen header) got s.inner
    split at h <;> rename_i hfill
    case h_3 =>
      obtain ⟨hinner, hsame⟩ := processRecord_done h
      rw [unread_body_done hphase hfill]
      simp only [unread, hsame, hinner]
    all_goals
      rw [hfill] at hmoved
      cases h
      simp only [unread, hphase, List.append_cancel_left_eq]
      exact hmoved

/-- **The loop ends.**  The answer to a poll is that of one round, from a state that is reached by
rounds that go on. -/
theorem pollRead_eq_round (crypto : TlsCrypto κ) (cap : ℕ) (s : Tls13Stream σ) :
    ∃ t, Loop.Visits (round crypto cap) s t ∧
      t.round crypto cap = .done (s.pollRead crypto cap) := by
  have hrank : ∀ t : Tls13Stream σ, t.rank ≤ 2 := by
    intro t
    unfold rank
    split <;> omega
  have hless : ∀ t t', Loop.Visits (round crypto cap) s t → t.round crypto cap = .next t' →
      t'.unread.length + t'.rank < t.unread.length + t.rank := by
    intro t t' _ hnext
    obtain ⟨hsame, hlt⟩ | ⟨record, htaken⟩ := round_next hnext
    · rw [hsame]
      omega
    · have hlen := congrArg List.length htaken
      have hle := hrank t'
      rw [List.length_append, record.header.property, List.length_append] at hlen
      omega
  obtain ⟨result, hrun⟩ := Loop.exists_run_eq_done_of_le
    (fun t : Tls13Stream σ => t.unread.length + t.rank) (Nat.add_le_add_left (hrank s) _) hless
  obtain ⟨t, hvisits, hdone⟩ := Loop.exists_visits_of_run_eq_done hrun
  refine ⟨t, hvisits, ?_⟩
  rw [hdone, pollRead, hrun]

end Rounds

end Tls13Stream

end Blackwire.Reality
