import Blackwire.Common.Relay
import Blackwire.Vless.Codec

/-!
# The VLESS inbound handler

`VlessInbound::handle` and `do_fallback` of `vless/inbound.rs` with the `RecordingReader` through
which the header is read when a fallback is configured, and the user registry of `registry.rs`.
-/

namespace Blackwire.Vless

open AsyncIO AsyncIO.AsyncRead AsyncIO.ReadM PrependedStream

/-! ### Users -/

structure VlessUser where
  email : String
  uuid : Octets 16
  flow : String
  deriving DecidableEq

def normaliseUuid (uuid : Octets 16) : Octets 16 :=
  ⟨(uuid.val.modify 6 fun b => (b &&& 0x0f) ||| 0x40).modify 8 fun b => (b &&& 0x3f) ||| 0x80, by
    simp [uuid.property]⟩

structure VlessUserRegistry where
  users : List (Octets 16 × VlessUser)

def VlessUserRegistry.addUser (user : VlessUser) (registry : VlessUserRegistry) :
    VlessUserRegistry :=
  let key := normaliseUuid user.uuid
  ⟨(key, user) :: registry.users.filter fun entry => entry.1 ≠ key⟩

def VlessUserRegistry.removeUserByEmail (email : String) (registry : VlessUserRegistry) :
    VlessUserRegistry :=
  ⟨registry.users.filter fun entry => entry.2.email ≠ email⟩

def VlessUserRegistry.validate (uuid : Octets 16) (registry : VlessUserRegistry) :
    Option VlessUser :=
  registry.users.lookup (normaliseUuid uuid)

/-! ### The recording reader -/

structure RecordingReader (σ : Type) where
  inner : σ
  record : Bytes

namespace RecordingReader

variable {σ : Type} [AsyncRead σ] {r' r : RecordingReader σ}

def pollRead (n : ℕ) (r : RecordingReader σ) : PollRead × RecordingReader σ :=
  match AsyncRead.pollRead n r.inner with
  | (.pending e, inner) => (.pending e, { r with inner })
  | (.ready bs, inner) => (.ready bs, ⟨inner, r.record ++ bs⟩)

theorem pollRead_pending {n : ℕ} {e : Bool} (h : pollRead n r = (.pending e, r')) :
    AsyncRead.pollRead n r.inner = (.pending e, r'.inner) ∧ r'.record = r.record := by
  unfold pollRead at h
  split at h <;> rename_i hp <;> cases h
  exact ⟨hp, rfl⟩

theorem pollRead_ready {n : ℕ} {bs : Bytes} (h : pollRead n r = (.ready bs, r')) :
    AsyncRead.pollRead n r.inner = (.ready bs, r'.inner) ∧ r'.record = r.record ++ bs := by
  unfold pollRead at h
  split at h <;> rename_i hp <;> cases h
  exact ⟨hp, rfl⟩

instance : AsyncRead (RecordingReader σ) where
  pollRead := pollRead
  rest r := rest r.inner
  stalls r := stalls r.inner
  length_ready h := length_ready (pollRead_ready h).1
  rest_ready h := rest_ready (pollRead_ready h).1
  rest_eof h := rest_eof (pollRead_ready h).1
  rest_pending h := rest_pending (pollRead_pending h).1
  stalls_ready h := stalls_ready (pollRead_ready h).1
  stalls_pending h := stalls_pending (pollRead_pending h).1

theorem record_append_rest (n : ℕ) (r : RecordingReader σ) :
    (pollRead n r).2.record ++ rest (pollRead n r).2.inner = r.record ++ rest r.inner := by
  cases hp : pollRead n r with
  | mk answer r' =>
    cases answer with
    | pending e =>
      obtain ⟨hinner, hrecord⟩ := pollRead_pending hp
      rw [hrecord, rest_pending hinner]
    | ready bs =>
      obtain ⟨hinner, hrecord⟩ := pollRead_ready hp
      rw [hrecord, rest_ready hinner, List.append_assoc]

end RecordingReader

/-! ### What the header parser preserves -/

section Preserves

variable {σ : Type} [AsyncRead σ] {P : σ → Prop}

section

variable (hpoll : ∀ n s, P s → P (pollRead n s).2)
include hpoll

theorem preserves_readAddress (atyp : UInt8)
    (port : UInt16) : Preserves P (readAddress atyp port) := by
  unfold readAddress
  split_ifs
  · exact (preserves_readArray hpoll 4).bind fun _ => .pure _
  · exact (preserves_readArray hpoll 16).bind fun _ => .pure _
  · refine (preserves_readU8 hpoll).bind fun len => (preserves_readVec hpoll _).bind fun name => ?_
    cases Bytes.fromUtf8 name with
    | none => exact .fail _
    | some domain => exact .pure _
  · exact .fail _

theorem preserves_readDest (command : Command) : Preserves P (readDest command) := by
  unfold readDest
  split_ifs
  · exact .pure _
  · exact (preserves_readU16 hpoll).bind fun port => (preserves_readU8 hpoll).bind fun atyp =>
      preserves_readAddress hpoll atyp port

theorem preserves_readAddons : Preserves P readAddons := by
  refine (preserves_readU8 hpoll).bind fun len => ?_
  split_ifs
  · exact (preserves_readVec hpoll _).bind fun addons => .ofExcept _
  · exact .pure _

theorem preserves_decodeRequest : Preserves P decodeRequest := by
  refine (preserves_readU8 hpoll).bind fun ver => ?_
  split_ifs
  · exact .fail _
  · refine (preserves_readArray hpoll 16).bind fun uuid => ?_
    refine (preserves_readAddons hpoll).bind fun flow => ?_
    refine (preserves_readU8 hpoll).bind fun cmdByte => ?_
    refine (Preserves.ofExcept _).bind fun command => ?_
    exact (preserves_readDest hpoll command).bind fun dest => .pure _

end

end Preserves

/-! ### The handler -/

structure VlessInbound where
  registry : VlessUserRegistry
  fallback : Option Address
  handshakeTimeout : Option ℕ

/-- How a call of `handle` goes on or ends.  A header that is accepted is handed to the relays
together with the rest of the stream. -/
inductive Outcome
  | accepted (user : VlessUser) (request : VlessRequest) (stream : Source)
  | flowMismatch
  | discarded
  | failed (e : ProxyError)
  | relayed (result : RelayEnd × Peer)
  | stopped (stop : Stop)

namespace VlessInbound

variable (inbound : VlessInbound) (dial : Address → Except String Peer)

def readHeader (stream : Source) : Except Stop VlessRequest × Source × Bytes :=
  let decode {σ : Type} [AsyncRead σ] (s : σ) :=
    withDeadline inbound.handshakeTimeout.isSome decodeRequest false s
  if inbound.fallback.isSome then
    let (request, recorder) := decode (RecordingReader.mk stream [])
    (request, recorder.inner, recorder.record)
  else
    let (request, stream) := decode stream
    (request, stream, [])

def doFallback (stream : Source) (headerBytes : Bytes) : Outcome :=
  match inbound.fallback with
  | none => .discarded
  | some addr =>
    match dial addr with
    | .error e => .failed (.transport ("fallback connect failed: " ++ e))
    | .ok peer => .relayed (copyOneWayWithIdle (new stream headerBytes) peer)

def handle (stream : Source) : Outcome :=
  match inbound.readHeader stream with
  | (.ok req, stream, headerBuf) =>
    match inbound.registry.validate req.uuid with
    | some user =>
      if req.flow ≠ "" ∧ req.flow ≠ user.flow then .flowMismatch else .accepted user req stream
    | none =>
      if inbound.fallback.isSome then inbound.doFallback dial stream headerBuf else .discarded
  | (.error (.error _), stream, headerBuf) => inbound.doFallback dial stream headerBuf
  | (.error stop, _, _) => .stopped stop

/-- The header is wrong, or its user is unknown. -/
def Rejects (client : Source) : Prop :=
  match (inbound.readHeader client).1 with
  | .ok req => inbound.registry.validate req.uuid = none
  | .error (.error _) => True
  | .error _ => False

variable {inbound : VlessInbound}

theorem record_append_stream (hf : inbound.fallback.isSome) (client : Source) :
    (inbound.readHeader client).2.2 ++ (inbound.readHeader client).2.1.contents =
      client.contents := by
  have hpoll : ∀ n (r : RecordingReader Source), r.record ++ rest r.inner = client.contents →
      (pollRead n r).2.record ++ rest (pollRead n r).2.inner = client.contents :=
    fun n r h => (RecordingReader.record_append_rest n r).trans h
  have hkeep := (preserves_decodeRequest hpoll).withDeadline inbound.handshakeTimeout.isSome false
    (RecordingReader.mk client []) rfl
  simp only [readHeader, if_pos hf]
  exact hkeep

theorem handle_of_rejects {client : Source} (hf : inbound.fallback.isSome)
    (h : inbound.Rejects client) (dial : Address → Except String Peer) :
    inbound.handle dial client =
      inbound.doFallback dial (inbound.readHeader client).2.1 (inbound.readHeader client).2.2 := by
  unfold Rejects at h
  unfold handle
  split <;> rename_i heq <;> rw [heq] at h
  · rw [heq, h]
    exact if_pos hf
  · rw [heq]
  · rename_i stop _ _ hne
    cases stop with
    | error e => exact absurd rfl (hne e)
    | panic => exact h.elim
    | hang => exact h.elim

/-- **Fallback.**  When the header cannot be parsed or the UUID is not registered, the fallback
receives the client's stream from its first byte: a prefix of it at any time, all of it once the
client's stream has ended.  The relay only ends earlier when the backend breaks its connection or
the connection is idle for too long behind the header. -/
theorem handle_rejected {inbound : VlessInbound} {client : Source} {addr : Address}
    {dial : Address → Except String Peer} {backend : Peer}
    (hfallback : inbound.fallback = some addr)
    (hdial : dial addr = .ok backend) (hnew : backend.received = [])
    (hrejects : inbound.Rejects client) :
    ∃ result, inbound.handle dial client = .relayed result ∧
      result.2.received <+: client.contents ∧
      (result.1 = .eof → result.2.received = client.contents) ∧
      (backend.limit = none → (inbound.readHeader client).2.1.Patient → result.1 = .eof) := by
  have hf : inbound.fallback.isSome := by rw [hfallback]; rfl
  have hjoin := record_append_stream hf client
  rw [handle_of_rejects hf hrejects, doFallback, hfallback]
  simp only [hdial]
  set stream := (inbound.readHeader client).2.1
  set header := (inbound.readHeader client).2.2
  have hrest : rest (new stream header) = client.contents := hjoin
  have hrelayed := copyOneWay_relayed (new stream header) backend
  obtain ⟨moved, hprefix, hreceived, heof⟩ := hrelayed.delivered
  rw [hnew, List.nil_append] at hreceived
  rw [hrest] at hprefix heof
  refine ⟨_, rfl, ?_, ?_, ?_⟩
  · rwa [hreceived]
  · intro he
    rw [hreceived, heof he]
  · intro hlimit hpatient
    have hidle : (copyOneWayWithIdle (new stream header) backend).1 ≠ .idle := by
      refine copyOneWay_ne_idle (P := fun s => s.inner.Patient) ?_ ?_ hpatient backend
      · exact fun n s hs => pollRead_preserves (fun n _ h => h.pollRead n) n hs
      · exact fun n s hs => pollRead_ne_pending (hs.pollRead_ne n)
    cases hend : (copyOneWayWithIdle (new stream header) backend).1 with
    | eof => rfl
    | idle => exact absurd hend hidle
    | writeError => exact absurd hlimit (hrelayed.writeError hend)

def emptyInbound : VlessInbound :=
  ⟨⟨[]⟩, some (.ipv4 ⟨[127, 0, 0, 1], rfl⟩ 80), some 5⟩

def dialOpen : Address → Except String Peer := fun _ => .ok ⟨[], none⟩

theorem dialOpen_eq {addr : Address} : dialOpen addr = .ok ⟨[], none⟩ := rfl

def probe : Source := [.data ⟨[71, 69], by simp⟩, .pending false, .data ⟨[84], by simp⟩]

theorem handle_rejected_probe :
    emptyInbound.Rejects probe ∧
      ∃ result, emptyInbound.handle dialOpen probe = .relayed result ∧
        result.2.received = [71, 69, 84] := by
  have hrejects : emptyInbound.Rejects probe := by trivial
  have hpatient : (emptyInbound.readHeader probe).2.1.Patient := by
    unfold Source.Patient
    decide
  have hnew : (Peer.mk [] none).received = [] := rfl
  obtain ⟨result, hhandle, -, hall, heof⟩ := handle_rejected rfl dialOpen_eq hnew hrejects
  exact ⟨hrejects, result, hhandle, hall (heof rfl hpatient)⟩

end VlessInbound

end Blackwire.Vless
