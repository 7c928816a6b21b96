import Blackwire.ShadowTls.V3
import Blackwire.Lib.Frames
import Blackwire.Lib.Run
import Blackwire.Lib.Select

/-!
# The ShadowTLS handshake relay

`do_relay` and `do_v3_relay` of `shadowtls/handshake.rs` pass TLS records between the client and the
handshake backend.  Both are a loop over `tokio::select!` of two `read_tls_record` futures; what a
loop does with a record is in its `Branches`.
-/

namespace Blackwire.ShadowTls

open Select List Bytes Function Frames

/-! ### Reading and writing records -/

def maxRecordLen : ℕ := 16384 + 2048

structure TlsRecord where
  recordType : UInt8
  version : Octets 2
  payload : Bytes
  fits : payload.length ≤ maxRecordLen

def TlsRecord.wire (r : TlsRecord) : Bytes := encodeTlsRecord r.recordType r.version r.payload

structure RecordHeader where
  bytes : Octets 5
  fits : ofBe (bytes.val.drop 3) ≤ maxRecordLen

def RecordHeader.length (header : RecordHeader) : ℕ := ofBe (header.bytes.val.drop 3)

theorem RecordHeader.version_le (header : RecordHeader) : 1 + 2 ≤ header.bytes.val.length := by
  rw [header.bytes.property]
  decide

variable {got : Bytes}

theorem RecordHeader.taken_le (header : RecordHeader) (hgot : got.length ≤ header.length)
    (bytes : Bytes) : (got ++ bytes.take (header.length - got.length)).length ≤ maxRecordLen := by
  have hfits : header.length ≤ maxRecordLen := header.fits
  rw [length_append, length_take]
  omega

open TlsRecord

/-- The states of a `read_tls_record` future: it waits for the header, or for the payload. -/
inductive ReadTlsRecord
  | inHeader (got : Bytes) (h : got.length < 5)
  | inPayload (header : RecordHeader) (got : Bytes) (h : got.length < header.length)

namespace ReadTlsRecord

def readPayload (header : RecordHeader) (got : Bytes) (hgot : got.length ≤ header.length)
    (inbox : Inbox) : PollItem ReadTlsRecord ProxyError TlsRecord :=
  if h : got.length + inbox.bytes.length < header.length then
    match inbox.ended with
    | some e => .ready (.error (.transport ("ShadowTLS: read record payload: " ++ e))) []
    | none => .pending (.inPayload header (got ++ inbox.bytes) (length_append ▸ h))
  else
    .ready (.ok
      { recordType := header.bytes.val.getD 0 0
        version := slice header.bytes.val 1 2 header.version_le
        payload := got ++ inbox.bytes.take (header.length - got.length)
        fits := header.taken_le hgot inbox.bytes })
      (inbox.bytes.drop (header.length - got.length))

def readHeader (got : Bytes) (hgot : got.length < 5) (inbox : Inbox) :
    PollItem ReadTlsRecord ProxyError TlsRecord :=
  if h : got.length + inbox.bytes.length < 5 then
    match inbox.ended with
    | some e => .ready (.error (.transport ("ShadowTLS: read record header: " ++ e))) []
    | none => .pending (.inHeader (got ++ inbox.bytes) (by simpa using h))
  else
    let header : Octets 5 := ⟨got ++ inbox.bytes.take (5 - got.length), by
      rw [length_append, length_take]
      omega⟩
    let rest := inbox.bytes.drop (5 - got.length)
    if hfits : ofBe (header.val.drop 3) ≤ maxRecordLen then
      readPayload ⟨header, hfits⟩ [] (Nat.zero_le _) { inbox with bytes := rest }
    else
      .ready (.error (.protocol
        ("ShadowTLS: TLS record too large: " ++ toString (ofBe (header.val.drop 3))))) rest

def poll : ReadTlsRecord → Inbox → PollItem ReadTlsRecord ProxyError TlsRecord
  | .inHeader got h, inbox => readHeader got h inbox
  | .inPayload header got h, inbox => readPayload header got h.le inbox

def taken : ReadTlsRecord → Bytes
  | .inHeader got _ => got
  | .inPayload header got _ => header.bytes.val ++ got

variable {r : TlsRecord} {state : ReadTlsRecord} {inbox : Inbox}

theorem wire_of_header (header : RecordHeader) (htype : r.recordType = header.bytes.val.getD 0 0)
    (hversion : r.version.val = (header.bytes.val.drop 1).take 2)
    (hlength : r.payload.length = header.length) : r.wire = header.bytes.val ++ r.payload := by
  have hlen := header.bytes.property
  have hbe := toBe_ofBe (header.bytes.val.drop 3)
  rw [length_drop, hlen] at hbe
  rw [RecordHeader.length] at hlength
  rw [wire, encodeTlsRecord, htype, hversion, hlength, hbe]
  cases hbytes : header.bytes.val with
  | nil => simp [hbytes] at hlen
  | cons b tail =>
    rw [getD_cons_zero, drop_one, tail_cons, drop_succ_cons, cons_append, take_append_drop]

theorem readPayload_pending {header : RecordHeader} (hgot : got.length ≤ header.length)
    (h : readPayload header got hgot inbox = .pending state) :
    state.taken = header.bytes.val ++ got ++ inbox.bytes := by
  unfold readPayload at h
  split_ifs at h
  split at h
  · cases h
  · cases h
    rw [taken, append_assoc]

theorem readPayload_ready {header : RecordHeader} (hgot : got.length ≤ header.length) {rest : Bytes}
    (h : readPayload header got hgot inbox = .ready (.ok r) rest) :
    header.bytes.val ++ got ++ inbox.bytes = r.wire ++ rest := by
  unfold readPayload at h
  split_ifs at h with hshort
  · split at h <;> cases h
  · cases h
    rw [wire_of_header header rfl rfl, append_assoc, append_assoc, append_assoc, take_append_drop]
    rw [length_append, length_take]
    omega

theorem taken_pending {state' : ReadTlsRecord} (h : state.poll inbox = .pending state') :
    state'.taken = state.taken ++ inbox.bytes := by
  cases state with
  | inPayload header got hgot => exact readPayload_pending hgot.le h
  | inHeader got hgot =>
    rw [poll, readHeader] at h
    dsimp only at h
    split_ifs at h
    · split at h
      · cases h
      · cases h
        rfl
    · rw [readPayload_pending (Nat.zero_le _) h, taken, append_nil, append_assoc, take_append_drop]

theorem wire_ready {rest : Bytes} (h : state.poll inbox = .ready (.ok r) rest) :
    state.taken ++ inbox.bytes = r.wire ++ rest := by
  cases state with
  | inPayload header got hgot => exact readPayload_ready hgot.le h
  | inHeader got hgot =>
    rw [poll, readHeader] at h
    dsimp only at h
    split_ifs at h
    · split at h <;> cases h
    · rw [← readPayload_ready (Nat.zero_le _) h, taken, append_nil, append_assoc, take_append_drop]
    · cases h

end ReadTlsRecord

open ReadTlsRecord

def recordReader : Reader ReadTlsRecord ProxyError TlsRecord where
  start := .inHeader [] (by decide)
  poll := poll
  taken := taken
  wire := wire
  taken_start := rfl
  taken_pending := taken_pending
  wire_ready := wire_ready

abbrev WriteFault := Option (ℕ × String)

variable (fault : WriteFault) (r : TlsRecord)

def writeTlsRecord : Bytes × Except ProxyError Unit :=
  match fault with
  | none => (r.wire, .ok ())
  | some (n, e) =>
    (r.wire.take n, .error (.transport
      (if n < 5 then "ShadowTLS: write record header: " ++ e
      else if n < r.wire.length then "ShadowTLS: write record payload: " ++ e
      else "ShadowTLS: flush: " ++ e)))

def writeClientRecord (record : Bytes) : Bytes × Except ProxyError Unit :=
  match fault with
  | none => (record, .ok ())
  | some (n, e) =>
    (record.take n, .error (.transport
      (if n < record.length then "ShadowTLS: write client record: " ++ e
      else "ShadowTLS: flush client record: " ++ e)))

def Writes (whole : Bytes) (write : Bytes × Except ProxyError Unit) : Prop :=
  write.1 <+: whole ∧ (write.2 = .ok () → write.1 = whole)

theorem writeTlsRecord_writes : Writes r.wire (writeTlsRecord fault r) := by
  cases fault with
  | none => exact ⟨prefix_rfl, fun _ => rfl⟩
  | some fault => exact ⟨List.take_prefix _ _, nofun⟩

theorem writeClientRecord_writes (record : Bytes) :
    Writes record (writeClientRecord fault record) := by
  cases fault with
  | none => exact ⟨prefix_rfl, fun _ => rfl⟩
  | some fault => exact ⟨List.take_prefix _ _, nofun⟩

/-! ### The branches -/

def tlsRecordHandshake : UInt8 := 22
def tlsHandshakeServerHello : UInt8 := 0x02

def extractServerRandom (payload : Bytes) : Option (Octets 32) :=
  if h : payload.length < 38 then none
  else if payload.getD 0 0 ≠ tlsHandshakeServerHello then none
  else some (slice payload 6 32 (by omega))

def helloRandom : Option (Octets 32) :=
  if r.recordType = tlsRecordHandshake ∧ r.payload.head? = some tlsHandshakeServerHello then
    extractServerRandom r.payload
  else none

structure Handled (σ ρ : Type) where
  state : σ
  written : Bytes
  result : Option (Except ProxyError ρ)

structure Branches (σ ρ : Type) where
  start : σ
  branch : Dir → σ → TlsRecord → WriteFault → Handled σ ρ

def Handled.ofWrite {σ ρ : Type} (state : σ) : Bytes × Except ProxyError Unit → Handled σ ρ
  | (out, .ok ()) => ⟨state, out, none⟩
  | (out, .error e) => ⟨state, out, some (.error e)⟩

open Handled

@[simp] theorem Handled.state_ofWrite {σ ρ : Type} (state : σ)
    (write : Bytes × Except ProxyError Unit) :
    (ofWrite state write : Handled σ ρ).state = state := by
  rcases write with ⟨written, e | _⟩ <;> rfl

structure RelayVars where
  serverRandom : Octets 32
  foundServerRandom : Bool
  serverCcsSeen : Bool

def relayClient (s : RelayVars) (r : TlsRecord) (fault : WriteFault) :
    Handled RelayVars (Octets 32) :=
  match writeTlsRecord fault r with
  | (out, .error e) => ⟨s, out, some (.error e)⟩
  | (out, .ok ()) =>
    if r.recordType = tlsApplicationData then
      if !s.foundServerRandom then
        ⟨s, out, some (.error (.protocol "ShadowTLS: Application Data before ServerHello"))⟩
      else ⟨s, out, some (.ok s.serverRandom)⟩
    else ⟨s, out, none⟩

def relayBackend (s : RelayVars) (r : TlsRecord) (fault : WriteFault) :
    Handled RelayVars (Octets 32) :=
  let s := match if s.foundServerRandom then none else helloRandom r with
    | some sr => { s with serverRandom := sr, foundServerRandom := true }
    | none => s
  let s := if r.recordType = 20 then { s with serverCcsSeen := true } else s
  .ofWrite s (writeTlsRecord fault r)

def doRelay : Branches RelayVars (Octets 32) where
  start := ⟨.replicate 32 0, false, false⟩
  branch
    | .up => relayClient
    | .down => relayBackend

structure V3RelayVars where
  serverRandom : Octets 32
  foundServerRandom : Bool
  residualMac : Option ShadowHmac
  clientSwitchDecoder : Option V3FrameDecoder

section V3

variable (crypto : ShadowCrypto) (psk : Bytes)

def v3RelayClient (s : V3RelayVars) (r : TlsRecord) (fault : WriteFault) :
    Handled V3RelayVars (Octets 32 × Bytes) :=
  if r.recordType = tlsApplicationData then
    if !s.foundServerRandom then
      ⟨s, [], some (.error
        (.protocol "ShadowTLS v3 client ApplicationData before ServerHello"))⟩
    else
      let decoder := s.clientSwitchDecoder.getD (.clientToServer psk s.serverRandom)
      match decoder.decodeApplicationData crypto r.wire with
      | (.ok _, decoder) =>
        ⟨{ s with clientSwitchDecoder := some decoder }, [], some (.ok (s.serverRandom, r.wire))⟩
      | (.error _, decoder) =>
        .ofWrite { s with clientSwitchDecoder := some decoder } (writeTlsRecord fault r)
  else .ofWrite s (writeTlsRecord fault r)

def v3RelayBackend (s : V3RelayVars) (r : TlsRecord) (fault : WriteFault) :
    Handled V3RelayVars (Octets 32 × Bytes) :=
  let s := match if s.foundServerRandom then none else helloRandom r with
    | some sr => { s with
        serverRandom := sr
        residualMac := some (residualHandshakeMac psk sr)
        foundServerRandom := true }
    | none => s
  if s.foundServerRandom && r.recordType == tlsApplicationData then
    match s.residualMac with
    | none => ⟨s, [], some (.error (.protocol "ShadowTLS v3 residual HMAC not initialized"))⟩
    | some mac =>
      match taintBackendApplicationData crypto mac psk s.serverRandom r.wire with
      | (.error e, mac) => ⟨{ s with residualMac := some mac }, [], some (.error e)⟩
      | (.ok record, mac) =>
        .ofWrite { s with residualMac := some mac } (writeClientRecord fault record)
  else .ofWrite s (writeClientRecord fault r.wire)

def doV3Relay : Branches V3RelayVars (Octets 32 × Bytes) where
  start := ⟨.replicate 32 0, false, none, none⟩
  branch
    | .up => v3RelayClient crypto psk
    | .down => v3RelayBackend crypto psk

end V3

/-! ### The loop -/

/-- A relay.  For each direction, `ports` has the socket that its records come from and the future
that reads it, `arrived` everything that has come from there, and `written` what the other side was
given. -/
structure Relay (σ ρ : Type) where
  ports : Dir → Port ReadTlsRecord
  vars : σ
  arrived : Dir → Bytes
  written : Dir → Bytes
  outcome : Option (Except ProxyError ρ)

/-- What happens around a relay: bytes arrive, a stream ends, the task is polled (with the side that
`select!` happens to poll first, and the fault of the write if a record is complete), or the timer
of the handshake runs out. -/
inductive RelayEvent
  | arrive (d : Dir) (bs : Bytes)
  | close (d : Dir) (e : String)
  | poll (first : Dir) (fault : WriteFault)
  | timeout

section Loop

variable {σ ρ : Type} (branches : Branches σ ρ) (s : Relay σ ρ)

def Relay.start : Relay σ ρ where
  ports _ := ⟨recordReader.start, ⟨[], none⟩⟩
  vars := branches.start
  arrived _ := []
  written _ := []
  outcome := none

def Relay.handle (ports : Dir → Port ReadTlsRecord) (d : Dir) (handled : Handled σ ρ) : Relay σ ρ :=
  { s with
    ports := ports
    vars := handled.state
    written := update s.written d (s.written d ++ handled.written)
    outcome := handled.result }

def Relay.poll (first : Dir) (fault : WriteFault) : Relay σ ρ :=
  match select recordReader first s.ports with
  | (none, ports) => { s with ports := ports }
  | (some (_, .error e), ports) => { s with ports := ports, outcome := some (.error e) }
  | (some (d, .ok r), ports) => s.handle ports d (branches.branch d s.vars r fault)

def Relay.step : RelayEvent → Relay σ ρ
  | .arrive d bs =>
    { s with
      ports := update s.ports d ((s.ports d).arrive bs)
      arrived := update s.arrived d (s.arrived d ++ bs) }
  | .close d e =>
    { s with ports := update s.ports d { s.ports d with inbox.ended := some e } }
  | .poll first fault => if s.outcome = none then s.poll branches first fault else s
  | .timeout => if s.outcome = none then { s with outcome := some (.error .timeout) } else s

/-- The poll drops a read that has taken bytes. -/
def Relay.Interrupts : RelayEvent → Prop
  | .poll first _ => s.outcome = none ∧ Select.Interrupts recordReader first s.ports
  | _ => False

instance Relay.Interrupts.decidable (e : RelayEvent) : Decidable (s.Interrupts e) := by
  unfold Interrupts
  split <;> infer_instance

end Loop

/-! ### What a relay is for -/

def wires (rs : List TlsRecord) : Bytes := rs.flatMap wire

/-- What the client is to get for a record of the backend: the record itself, but for the
ApplicationData behind the ServerHello.  That is masked, and gets the tag of all such data so far;
`some (sr, fed)` is the server random and what its MAC has been fed. -/
def taintedRecord (crypto : ShadowCrypto) (psk : Bytes) :
    Option (Octets 32 × Bytes) → TlsRecord → Bytes × Option (Octets 32 × Bytes)
  | none, r => (r.wire, (helloRandom r).map fun sr => (sr, sr.val))
  | some (sr, fed), r =>
    if r.recordType = tlsApplicationData then
      let residue := xorWithHandshakeMask crypto r.payload psk sr
      let tag := firstTag crypto ⟨psk, fed ++ residue⟩
      (encodeTlsRecord tlsApplicationData tls12 (tag.val ++ residue), some (sr, fed ++ residue))
    else (r.wire, some (sr, fed))

def tainted (crypto : ShadowCrypto) (psk : Bytes) (rs : List TlsRecord) : Bytes :=
  encodeAll (taintedRecord crypto psk) none rs

section Faithful

variable {σ ρ : Type} (out : List TlsRecord → Bytes) (switch : ρ → Bytes)

/-- What is to be written for the records of a direction, if `out` is it for those of the
backend. -/
def due : Dir → List TlsRecord → Bytes
  | .up, rs => wires rs
  | .down, rs => out rs

def handedOver : Option (Except ProxyError ρ) → Dir → Bytes
  | some (.ok result), .up => switch result
  | _, _ => []

def Healthy : Option (Except ProxyError ρ) → Prop
  | some (.error _) => False
  | _ => True

structure Relay.Accounts (s : Relay σ ρ) (d : Dir) (rs : List TlsRecord) : Prop where
  written : s.written d <+: due out d rs
  arrived : wires rs <+: s.arrived d
  whole : Healthy s.outcome → s.written d = due out d rs ∧
    s.arrived d = wires rs ++ (handedOver switch s.outcome d ++ (s.ports d).bytes recordReader)

/-- What is written is due for the records read, and no byte that arrived is missing. -/
def Relay.Faithful (s : Relay σ ρ) : Prop := ∃ rs : Dir → List TlsRecord, ∀ d,
  s.Accounts out switch d (rs d)

inductive Handled.Forwards (d : Dir) (rs : List TlsRecord) (r : TlsRecord) : Handled σ ρ → Prop
  | goesOn (state written) : due out d (rs ++ [r]) = due out d rs ++ written →
      Forwards d rs r ⟨state, written, none⟩
  | returns (state written result) : due out d (rs ++ [r]) = due out d rs ++ written →
      switch result = [] → Forwards d rs r ⟨state, written, some (.ok result)⟩
  | switches (state result) : d = .up → switch result = r.wire →
      Forwards d rs r ⟨state, [], some (.ok result)⟩
  | fails (state written e) : due out d rs ++ written <+: due out d (rs ++ [r]) →
      Forwards d rs r ⟨state, written, some (.error e)⟩

/-- A loop that forwards records, if `Knows vars rs` relates its variables to those it has seen. -/
structure Branches.Forwards (branches : Branches σ ρ)
    (Knows : σ → (Dir → List TlsRecord) → Prop) : Prop where
  start : Knows branches.start fun _ => []
  out_nil : out [] = []
  handles {vars rs} (h : Knows vars rs) (d : Dir) (r : TlsRecord) (fault : WriteFault) :
    (branches.branch d vars r fault).Forwards out switch d (rs d) r
  knows {vars rs} (h : Knows vars rs) (d : Dir) (r : TlsRecord) (fault : WriteFault) :
    (branches.branch d vars r fault).result = none →
      Knows (branches.branch d vars r fault).state (update rs d (rs d ++ [r]))

end Faithful

/-! ### One step -/

open Relay

variable {r : TlsRecord}

section Step

variable {σ ρ : Type} {out : List TlsRecord → Bytes} {switch : ρ → Bytes} {s : Relay σ ρ}
  {rs : Dir → List TlsRecord} {d : Dir} {handled : Handled σ ρ} {ports : Dir → Port ReadTlsRecord}
  {branches : Branches σ ρ} {Knows : σ → (Dir → List TlsRecord) → Prop}

theorem wires_concat (rs : List TlsRecord) (r : TlsRecord) :
    wires (rs ++ [r]) = wires rs ++ r.wire := by
  simp [wires]

theorem Relay.Accounts.congr {s' : Relay σ ρ} {rs : List TlsRecord} (h : s.Accounts out switch d rs)
    (houtcome : s'.outcome = s.outcome) (hwritten : s'.written d = s.written d)
    (harrived : s'.arrived d = s.arrived d)
    (hports : (s'.ports d).bytes recordReader = (s.ports d).bytes recordReader) :
    s'.Accounts out switch d rs where
  written := hwritten ▸ h.written
  arrived := harrived ▸ h.arrived
  whole := by
    rw [houtcome, hwritten, harrived, hports]
    exact h.whole

theorem Relay.Accounts.arrive (h : ∀ d, s.Accounts out switch d (rs d)) (d : Dir) (more : Bytes)
    (branches : Branches σ ρ) (d' : Dir) :
    (s.step branches (.arrive d more)).Accounts out switch d' (rs d') := by
  by_cases hd : d' = d
  · subst hd
    have harrived : (s.step branches (.arrive d' more)).arrived d' = s.arrived d' ++ more :=
      update_self ..
    refine ⟨(h d').written, ?_, fun hhealthy => ?_⟩
    · rw [harrived]
      exact (h d').arrived.trans (prefix_append _ _)
    · obtain ⟨hwritten, hwhole⟩ := (h d').whole hhealthy
      refine ⟨hwritten, ?_⟩
      rw [harrived, hwhole]
      simp [step]
  · refine (h d').congr rfl rfl ?_ ?_
    · simp only [step, update_of_ne hd]
    · simp only [step, update_of_ne hd]

theorem Relay.Accounts.close (h : ∀ d, s.Accounts out switch d (rs d)) (d : Dir) (e : String)
    (branches : Branches σ ρ) (d' : Dir) :
    (s.step branches (.close d e)).Accounts out switch d' (rs d') := by
  refine (h d').congr rfl rfl rfl ?_
  by_cases hd : d' = d
  · subst hd
    simp [step, Port.bytes]
  · simp only [step, update_of_ne hd]

theorem Relay.Accounts.fail {s' : Relay σ ρ} {rs : List TlsRecord} (h : s.Accounts out switch d rs)
    {e : ProxyError} (houtcome : s'.outcome = some (.error e))
    (hwritten : s'.written d = s.written d) (harrived : s'.arrived d = s.arrived d) :
    s'.Accounts out switch d rs where
  written := hwritten ▸ h.written
  arrived := harrived ▸ h.arrived
  whole hhealthy := by
    rw [houtcome] at hhealthy
    exact hhealthy.elim

theorem Handled.Forwards.handedOver_eq_nil {d' : Dir} {rs : List TlsRecord}
    (h : handled.Forwards out switch d rs r) (hd : d' ≠ d) :
    handedOver switch handled.result d' = [] := by
  cases h with
  | goesOn state written hdue => rfl
  | returns state written result hdue hswitch => cases d' <;> simp [handedOver, hswitch]
  | switches state result hup hswitch =>
    subst hup
    cases d' with
    | up => exact absurd rfl hd
    | down => rfl
  | fails state written e hdue => rfl

theorem Relay.Accounts.record {rs : List TlsRecord} (h : s.Accounts out switch d rs)
    (hrunning : s.outcome = none) (hhandled : handled.Forwards out switch d rs r)
    (hitem : (s.ports d).bytes recordReader = r.wire ++ (ports d).bytes recordReader) :
    (s.handle ports d handled).Accounts out switch d (rs ++ [r]) ∨
      handled.result ≠ none ∧ (s.handle ports d handled).Accounts out switch d rs := by
  obtain ⟨hdone, hwhole⟩ := h.whole (by rw [hrunning]; trivial)
  rw [hrunning, hitem] at hwhole
  have hrecord : s.arrived d = wires (rs ++ [r]) ++ (ports d).bytes recordReader := by
    rw [hwhole, wires_concat, append_assoc]
    rfl
  have hbegins : wires (rs ++ [r]) <+: s.arrived d := hrecord ▸ prefix_append _ _
  have hwritten : (s.handle ports d handled).written d = due out d rs ++ handled.written := by
    rw [← hdone]
    exact update_self ..
  cases hhandled with
  | goesOn state written hdue =>
    rw [← hdue] at hwritten
    exact .inl ⟨hwritten ▸ prefix_rfl, hbegins, fun _ => ⟨hwritten, hrecord⟩⟩
  | returns state written result hdue hswitch =>
    rw [← hdue] at hwritten
    refine .inl ⟨hwritten ▸ prefix_rfl, hbegins, fun _ => ⟨hwritten, ?_⟩⟩
    have hnil : handedOver switch (some (.ok result)) d = [] := by
      cases d <;> simp [handedOver, hswitch]
    rw [handle, hnil]
    exact hrecord
  | switches state result hup hswitch =>
    subst hup
    rw [append_nil] at hwritten
    refine .inr ⟨by simp, hwritten ▸ prefix_rfl, h.arrived, fun _ => ⟨hwritten, ?_⟩⟩
    rw [handle, handedOver, hswitch]
    exact hwhole
  | fails state written e hdue =>
    exact .inl ⟨hwritten ▸ hdue, hbegins, fun hhealthy => hhealthy.elim⟩

theorem Relay.Accounts.other {d' : Dir} {rs rs' : List TlsRecord} (h : s.Accounts out switch d' rs)
    (hd : d' ≠ d) (hrunning : s.outcome = none) (hhandled : handled.Forwards out switch d rs' r)
    (hports : (ports d').bytes recordReader = (s.ports d').bytes recordReader) :
    (s.handle ports d handled).Accounts out switch d' rs := by
  have hwhole := h.whole (by rw [hrunning]; trivial)
  have hwritten : (s.handle ports d handled).written d' = s.written d' := update_of_ne hd ..
  rw [hrunning, ← hports] at hwhole
  refine ⟨hwritten ▸ h.written, h.arrived, fun _ => ?_⟩
  rw [hwritten, handle, hhandled.handedOver_eq_nil hd]
  exact hwhole

variable (out switch) in
def Relay.Tracks (Knows : σ → (Dir → List TlsRecord) → Prop) (s : Relay σ ρ) : Prop :=
  ∃ rs : Dir → List TlsRecord, (∀ d, s.Accounts out switch d (rs d)) ∧
    (s.outcome = none → Knows s.vars rs)

section

variable (hforwards : branches.Forwards out switch Knows)
include hforwards

theorem Relay.start_tracks : (start branches).Tracks out switch Knows := by
  refine ⟨fun _ => [], fun d => ?_, fun _ => hforwards.start⟩
  have hdue : due out d [] = [] := by
    cases d with
    | up => rfl
    | down => exact hforwards.out_nil
  refine ⟨List.nil_prefix, nil_prefix, fun _ => ⟨hdue.symm, ?_⟩⟩
  cases d <;> rfl

theorem Relay.Tracks.poll
    (h : s.Tracks out switch Knows) (hrunning : s.outcome = none) {first : Dir} {fault : WriteFault}
    (hkeeps : ¬ Select.Interrupts recordReader first s.ports) :
    (s.poll branches first fault).Tracks out switch Knows := by
  obtain ⟨rs, haccounts, hknows⟩ := h
  unfold Relay.poll
  rcases hselect : select recordReader first s.ports with ⟨_ | ⟨d, e | r⟩, ports⟩
  · refine ⟨rs, fun d => ?_, hknows⟩
    exact (haccounts d).congr rfl rfl rfl (select_pending hselect d)
  · exact ⟨rs, fun d => (haccounts d).fail rfl rfl rfl, by simp⟩
  · obtain ⟨hitem, hother⟩ := select_ready hselect hkeeps
    have hhandled := hforwards.handles (hknows hrunning) d r fault
    have hothers : ∀ d', d' ≠ d →
        (s.handle ports d (branches.branch d s.vars r fault)).Accounts out switch d' (rs d') := by
      intro d' hd
      refine (haccounts d').other hd hrunning hhandled ?_
      rw [Dir.eq_other_of_ne hd]
      exact hother
    rcases (haccounts d).record hrunning hhandled hitem with hdone | ⟨hended, hdone⟩
    · refine ⟨update rs d (rs d ++ [r]), fun d' => ?_, fun hnone => ?_⟩
      · by_cases hd : d' = d
        · subst hd
          rw [update_self]
          exact hdone
        · rw [update_of_ne hd]
          exact hothers d' hd
      · exact hforwards.knows (hknows hrunning) d r fault hnone
    · refine ⟨rs, fun d' => ?_, fun hnone => absurd hnone hended⟩
      by_cases hd : d' = d
      · subst hd
        exact hdone
      · exact hothers d' hd

theorem Relay.Tracks.step
    (h : s.Tracks out switch Knows) {e : RelayEvent} (hkeeps : ¬ s.Interrupts e) :
    (s.step branches e).Tracks out switch Knows := by
  cases e with
  | arrive d more =>
    obtain ⟨rs, haccounts, hknows⟩ := h
    exact ⟨rs, Relay.Accounts.arrive haccounts d more branches, hknows⟩
  | close d e =>
    obtain ⟨rs, haccounts, hknows⟩ := h
    exact ⟨rs, Relay.Accounts.close haccounts d e branches, hknows⟩
  | poll first fault =>
    rw [Relay.step]
    by_cases hrunning : s.outcome = none
    · rw [if_pos hrunning]
      exact h.poll hforwards hrunning fun hinterrupts => hkeeps ⟨hrunning, hinterrupts⟩
    · rw [if_neg hrunning]
      exact h
  | timeout =>
    rw [Relay.step]
    by_cases hrunning : s.outcome = none
    · rw [if_pos hrunning]
      obtain ⟨rs, haccounts, -⟩ := h
      exact ⟨rs, fun d => (haccounts d).fail rfl rfl rfl, by simp⟩
    · rw [if_neg hrunning]
      exact h

/-- **A loop that forwards records is faithful**, as long as no reader that holds bytes is
dropped. -/
theorem Branches.Forwards.faithful {events : List RelayEvent}
    (h : Run.Meets (fun s e => ¬ Interrupts s e) (step branches) (.start branches)
      events) :
    (events.foldl (step branches) (.start branches)).Faithful out switch := by
  obtain ⟨rs, haccounts, -⟩ := Run.invariant_of_meets (fun s e hs he => hs.step hforwards he)
    (start_tracks hforwards) h
  exact ⟨rs, haccounts⟩

end

end Step

/-! ### The two relays -/

section Relays

variable {σ ρ : Type} {out : List TlsRecord → Bytes} {switch : ρ → Bytes} {d : Dir}
  {rs : List TlsRecord} {r : TlsRecord} {crypto : ShadowCrypto} {psk : Bytes}

theorem Handled.ofWrite_forwards {whole : Bytes}
    (hdue : due out d (rs ++ [r]) = due out d rs ++ whole)
    {write : Bytes × Except ProxyError Unit} (hwrite : Writes whole write) (state : σ) :
    (ofWrite state write : Handled σ ρ).Forwards out switch d rs r := by
  rcases write with ⟨written, e | _⟩
  · refine .fails _ _ _ ?_
    rw [hdue, prefix_append_right_inj]
    exact hwrite.1
  · obtain rfl : written = whole := hwrite.2 rfl
    exact .goesOn _ _ hdue

theorem doRelay_forwards : doRelay.Forwards wires (fun _ => []) fun _ _ => True where
  start := trivial
  out_nil := rfl
  knows _ _ _ _ _ := trivial
  handles {vars rs} _ d r fault := by
    have hdue : due wires d (rs d ++ [r]) = due wires d (rs d) ++ r.wire := by
      cases d <;> exact wires_concat _ _
    have hwrite := writeTlsRecord_writes fault r
    cases d with
    | down => exact ofWrite_forwards hdue hwrite _
    | up =>
      simp only [doRelay, relayClient]
      generalize writeTlsRecord fault r = write at hwrite ⊢
      rcases write with ⟨written, e | _⟩
      · exact ofWrite_forwards hdue hwrite _
      · obtain rfl : written = r.wire := hwrite.2 rfl
        split_ifs
        · exact .fails _ _ _ (hdue ▸ prefix_rfl)
        · exact .returns _ _ _ hdue rfl
        · exact .goesOn _ _ hdue

variable (crypto psk) in
/-- The variables of `do_v3_relay` tell whether the backend has sent a ServerHello, its random, and
what the residual MAC has been fed. -/
def V3RelayVars.Knows (vars : V3RelayVars) (rs : Dir → List TlsRecord) : Prop :=
  match endState (taintedRecord crypto psk) none (rs .down) with
  | none => vars.foundServerRandom = false
  | some (sr, fed) => vars.foundServerRandom = true ∧ vars.serverRandom = sr ∧
      vars.residualMac = some ⟨psk, fed⟩

variable (crypto psk) in
theorem tainted_concat (rs : List TlsRecord) (r : TlsRecord) :
    tainted crypto psk (rs ++ [r]) = tainted crypto psk rs ++
      (taintedRecord crypto psk (endState (taintedRecord crypto psk) none rs) r).1 := by
  rw [tainted, encodeAll_append, encodeAll, encodeAll, append_nil]
  rfl

variable (crypto psk) in
theorem endState_concat (rs : List TlsRecord) (r : TlsRecord) :
    endState (taintedRecord crypto psk) none (rs ++ [r]) =
      (taintedRecord crypto psk (endState (taintedRecord crypto psk) none rs) r).2 := by
  rw [endState_append]
  rfl

theorem v3RelayClient_forwards (vars : V3RelayVars) (rs : List TlsRecord) (r : TlsRecord)
    (fault : WriteFault) :
    (v3RelayClient crypto psk vars r fault).Forwards (tainted crypto psk) Prod.snd .up rs r := by
  have hdue : due (tainted crypto psk) .up (rs ++ [r]) =
      due (tainted crypto psk) .up rs ++ r.wire :=
    wires_concat _ _
  have hwrite := writeTlsRecord_writes fault r
  unfold v3RelayClient
  split_ifs
  · refine .fails _ _ _ ?_
    rw [append_nil, hdue]
    exact prefix_append _ _
  · dsimp only
    rcases V3FrameDecoder.decodeApplicationData crypto _ r.wire with ⟨e | _, decoder⟩
    · exact ofWrite_forwards hdue hwrite _
    · exact .switches _ _ rfl rfl
  · exact ofWrite_forwards hdue hwrite _

variable {vars : V3RelayVars} {rs : Dir → List TlsRecord}

theorem v3RelayClient_knows (h : vars.Knows crypto psk rs)
    (r : TlsRecord) (fault : WriteFault) (cs : List TlsRecord) :
    (v3RelayClient crypto psk vars r fault).state.Knows crypto psk
      (update rs .up cs) := by
  have hsame : ∃ decoder, (v3RelayClient crypto psk vars r fault).state =
      { vars with clientSwitchDecoder := decoder } := by
    unfold v3RelayClient
    split_ifs
    · exact ⟨_, rfl⟩
    · dsimp only
      rcases V3FrameDecoder.decodeApplicationData crypto _ r.wire with ⟨e | _, decoder⟩
      · exact ⟨some decoder, state_ofWrite _ _⟩
      · exact ⟨_, rfl⟩
    · exact ⟨_, state_ofWrite _ _⟩
  obtain ⟨decoder, hstate⟩ := hsame
  rw [hstate]
  exact h

theorem recordType_of_helloRandom {sr : Octets 32} (h : helloRandom r = some sr) :
    r.recordType = tlsRecordHandshake := by
  unfold helloRandom at h
  split_ifs at h with hhello
  exact hhello.1

theorem v3RelayBackend_plain (hfound : vars.foundServerRandom = true)
    (htype : r.recordType ≠ tlsApplicationData) (fault : WriteFault) :
    v3RelayBackend crypto psk vars r fault = .ofWrite vars (writeClientRecord fault r.wire) := by
  simp [v3RelayBackend, hfound, htype]

theorem v3RelayBackend_tainted (hfound : vars.foundServerRandom = true) {fed : Bytes}
    (hmac : vars.residualMac = some ⟨psk, fed⟩)
    (htype : r.recordType = tlsApplicationData) (fault : WriteFault) :
    v3RelayBackend crypto psk vars r fault =
      .ofWrite
        { vars with
          residualMac :=
            some ⟨psk, fed ++ xorWithHandshakeMask crypto r.payload psk vars.serverRandom⟩ }
        (writeClientRecord fault
          (taintedRecord crypto psk (some (vars.serverRandom, fed)) r).1) := by
  have hpayload : applicationPayload r.wire = .ok r.payload := by
    have hfits := r.fits
    rw [maxRecordLen] at hfits
    rw [wire, htype]
    exact applicationPayload_encode _ (by omega)
  simp only [v3RelayBackend, hfound, hmac, htype, taintBackendApplicationData, hpayload,
    taintedRecord, if_true]
  rfl

variable (crypto psk) in
theorem v3RelayBackend_before (hfound : vars.foundServerRandom = false) (r : TlsRecord)
    (fault : WriteFault) :
    ∃ vars' : V3RelayVars,
      v3RelayBackend crypto psk vars r fault = .ofWrite vars' (writeClientRecord fault r.wire) ∧
      match (helloRandom r).map fun sr => (sr, sr.val) with
      | none => vars'.foundServerRandom = false
      | some (sr, fed) => vars'.foundServerRandom = true ∧ vars'.serverRandom = sr ∧
          vars'.residualMac = some ⟨psk, fed⟩ := by
  cases hhello : helloRandom r with
  | none =>
    refine ⟨vars, ?_, hfound⟩
    simp [v3RelayBackend, hfound, hhello]
  | some sr =>
    have htype : r.recordType ≠ tlsApplicationData := by
      rw [recordType_of_helloRandom hhello]
      decide
    refine ⟨{ vars with
      serverRandom := sr
      residualMac := some (residualHandshakeMac psk sr)
      foundServerRandom := true }, ?_, rfl, rfl, rfl⟩
    simp [v3RelayBackend, hfound, hhello, htype]

theorem v3RelayBackend_spec (h : vars.Knows crypto psk rs) (r : TlsRecord) (fault : WriteFault) :
    (v3RelayBackend crypto psk vars r fault).Forwards (tainted crypto psk) Prod.snd .down
        (rs .down) r ∧
      (v3RelayBackend crypto psk vars r fault).state.Knows crypto psk
        (update rs .down (rs .down ++ [r])) := by
  have hdue : due (tainted crypto psk) .down (rs .down ++ [r]) = _ :=
    tainted_concat crypto psk (rs .down) r
  have hend := endState_concat crypto psk (rs .down) r
  unfold V3RelayVars.Knows at h ⊢
  rw [update_self, hend]
  generalize endState (taintedRecord crypto psk) none (rs .down) = state at h hdue ⊢
  rcases state with _ | ⟨sr, fed⟩
  · obtain ⟨vars', hbranch, hvars'⟩ := v3RelayBackend_before crypto psk h r fault
    rw [hbranch, state_ofWrite]
    exact ⟨ofWrite_forwards hdue (writeClientRecord_writes fault _) _, hvars'⟩
  · obtain ⟨hfound, rfl, hmac⟩ := h
    by_cases htype : r.recordType = tlsApplicationData
    · rw [v3RelayBackend_tainted hfound hmac htype, state_ofWrite]
      refine ⟨ofWrite_forwards hdue (writeClientRecord_writes fault _) _, ?_⟩
      rw [taintedRecord, if_pos htype]
      exact ⟨hfound, rfl, rfl⟩
    · rw [v3RelayBackend_plain hfound htype, state_ofWrite]
      rw [taintedRecord, if_neg htype] at hdue ⊢
      exact ⟨ofWrite_forwards hdue (writeClientRecord_writes fault _) _, hfound, rfl, hmac⟩

variable (crypto psk) in
theorem doV3Relay_forwards : (doV3Relay crypto psk).Forwards (tainted crypto psk) Prod.snd
    (V3RelayVars.Knows crypto psk) where
  start := rfl
  out_nil := rfl
  handles {vars rs} h d r fault := by
    cases d with
    | up => exact v3RelayClient_forwards vars (rs .up) r fault
    | down => exact (v3RelayBackend_spec h r fault).1
  knows {vars rs} h d r fault _ := by
    cases d with
    | up => exact v3RelayClient_knows h r fault _
    | down => exact (v3RelayBackend_spec h r fault).2

end Relays

/-- **The relays of a ShadowTLS handshake.**  For every run of `do_relay` and of `do_v3_relay`, with
any arrival of bytes and any order of polls, in which no record of one side becomes complete while
the reader of the other side holds bytes: the records that were written are the records that have
arrived, in order.  `do_relay` writes them as they are; `do_v3_relay` taints those of the backend
and hands over the record of the client that it stops at. -/
theorem shadowTls_relay_faithful (crypto : ShadowCrypto) (psk : Bytes) :
    (∀ events : List RelayEvent,
      Run.Meets (fun s e => ¬ Interrupts s e) (step doRelay) (.start doRelay) events →
        (events.foldl (step doRelay) (.start doRelay)).Faithful wires fun _ => []) ∧
    (∀ events : List RelayEvent,
      Run.Meets (fun s e => ¬ Interrupts s e) (step (doV3Relay crypto psk))
          (.start (doV3Relay crypto psk)) events →
        (events.foldl (step (doV3Relay crypto psk)) (.start (doV3Relay crypto psk))).Faithful
          (tainted crypto psk) Prod.snd) :=
  ⟨fun _ h => doRelay_forwards.faithful h, fun _ h => (doV3Relay_forwards crypto psk).faithful h⟩

def sampleRelayEvents : List RelayEvent :=
  [.arrive .up [22, 3, 1, 0, 2, 7], .poll .down none, .arrive .up [8], .poll .up none,
    .arrive .down ([22, 3, 3, 0, 38, 2, 0, 0, 34, 3, 3] ++ List.replicate 32 5), .poll .up none,
    .arrive .down [23, 3, 3, 0, 1, 6], .poll .down none,
    .arrive .up [23, 3, 3, 0, 5, 1, 0x43, 5, 5, 1], .poll .down none]

theorem shadowTls_relay_faithful_sample :
    ((sampleRelayEvents.foldl (step doRelay) (.start doRelay)).written .up =
        [22, 3, 1, 0, 2, 7, 8, 23, 3, 3, 0, 5, 1, 0x43, 5, 5, 1] ∧
      (sampleRelayEvents.foldl (step doRelay) (.start doRelay)).Faithful wires fun _ => []) ∧
    ((sampleRelayEvents.foldl (step (doV3Relay sampleCrypto [9]))
        (.start (doV3Relay sampleCrypto [9]))).written .up = [22, 3, 1, 0, 2, 7, 8] ∧
      (sampleRelayEvents.foldl (step (doV3Relay sampleCrypto [9]))
        (.start (doV3Relay sampleCrypto [9]))).Faithful (tainted sampleCrypto [9]) Prod.snd) :=
  ⟨⟨by decide +kernel,
      (shadowTls_relay_faithful sampleCrypto [9]).1 sampleRelayEvents (by decide +kernel)⟩,
    ⟨by decide +kernel,
      (shadowTls_relay_faithful sampleCrypto [9]).2 sampleRelayEvents (by decide +kernel)⟩⟩

theorem Relay.not_faithful {σ ρ : Type} {out : List TlsRecord → Bytes} {switch : ρ → Bytes}
    {s : Relay σ ρ} (hout : ∀ rs, out rs = [] → rs = []) (hrunning : s.outcome = none)
    (hwritten : s.written .down = [])
    (hlost : s.arrived .down ≠ (s.ports .down).bytes recordReader) : ¬ s.Faithful out switch := by
  rintro ⟨rs, h⟩
  obtain ⟨hnone, harrived⟩ := (h .down).whole (by rw [hrunning]; trivial)
  have hnil : rs .down = [] := hout _ (hnone.symm.trans hwritten)
  rw [hnil, hrunning] at harrived
  exact hlost harrived

def droppedEvents : List RelayEvent :=
  [.arrive .down [22, 3, 3], .poll .up none, .arrive .up [22, 3, 1, 0, 1, 7], .poll .up none,
    .arrive .down [0, 1, 9], .poll .up none]

/-- **Half a header is lost**, by both relays: what comes next is read as another record. -/
theorem shadowTls_relay_drops :
    ¬ (droppedEvents.foldl (step doRelay) (.start doRelay)).Faithful wires (fun _ => []) ∧
      ¬ (droppedEvents.foldl (step (doV3Relay sampleCrypto [9]))
        (.start (doV3Relay sampleCrypto [9]))).Faithful (tainted sampleCrypto [9]) Prod.snd := by
  constructor
  · refine not_faithful ?_ (by decide +kernel) (by decide +kernel) (by decide +kernel)
    rintro (_ | ⟨r, rs⟩) h
    · rfl
    · simp [wires, wire, encodeTlsRecord] at h
  · refine not_faithful ?_ (by decide +kernel) (by decide +kernel) (by decide +kernel)
    rintro (_ | ⟨r, rs⟩) h
    · rfl
    · simp [tainted, encodeAll, taintedRecord, wire, encodeTlsRecord] at h

end Blackwire.ShadowTls
