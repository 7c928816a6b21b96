import Blackwire.Reality.Auth

/-!
# The REALITY server

`RealityServer::accept_inner` and `do_fallback`: the server reads one record, each of its parts
under a timeout, and authenticates the ClientHello in it; every other client is to be forwarded to
the fallback site.
-/

namespace Blackwire.Reality

open AsyncIO List Bytes Source IdleRelay

/-! ### The model -/

/-- The connection of a client: what comes in, and what the client has been sent. -/
structure Conn where
  incoming : Source
  outgoing : Peer

/-- The connection to the fallback site: what the site sends, what it has been sent, and when which
side has something for the relay once the site is connected. -/
structure Site where
  incoming : Bytes
  outgoing : Peer
  wakes : List Wake

inductive ReplayMode
  | prependClientHello
  | consumeClientHello

inductive AcceptedStream
  | prepended (stream : PrependedStream Source)
  | direct (stream : Source)

/-- How a call of `accept_inner` ends.  With `relayed` the site was connected and both directions
are copied; with `unwritten` it broke the connection before it had what was read; with `failed` the
call returned an error and the connections were closed. -/
inductive Outcome
  | accepted (stream : AcceptedStream) (authKey : Octets 32)
  | failed (e : ProxyError)
  | unwritten (site : Peer)
  | relayed (relay : State)

/-- `do_fallback`: connect, write what was read, and run `copy_bidirectional_with_idle`. -/
def doFallback (dial : Except String Site) (client : Conn) (alreadyRead : Bytes) : Outcome :=
  match dial with
  | .error e => .failed (.transport ("fallback connect: " ++ e))
  | .ok site =>
    match site.outgoing.writeAll alreadyRead with
    | (false, peer) => .unwritten peer
    | (true, peer) =>
      .relayed (site.wakes.foldl (State.step connectionIdleTimeout)
        (.start site.incoming client.outgoing client.incoming.contents peer))

def joinRecord (recordHeader handshakeBody : Bytes) : Bytes := recordHeader ++ handshakeBody

variable (recordHeader bytes shortId : Bytes) {client : Conn} {server : RealityServerConfig}

def recordLen : ℕ := Tlv.word (recordHeader.drop 3)

def ReplayMode.replay (mode : ReplayMode) (stream : Source) (record : Bytes) : AcceptedStream :=
  match mode with
  | .prependClientHello => .prepended (.new stream record)
  | .consumeClientHello => .direct stream

section Accept

variable (crypto : RealityCrypto) (server : RealityServerConfig) (now : ℤ)
  (dial : Except String Site) (mode : ReplayMode) (client : Conn)

/-- Authenticates the ClientHello, or falls back. -/
def acceptHello (recordHeader handshakeBody : Bytes) : Outcome :=
  let record := joinRecord recordHeader handshakeBody
  match parseClientHello handshakeBody with
  | .error _ => doFallback dial client record
  | .ok fields =>
    match deriveAuthKey crypto server now fields handshakeBody with
    | .error _ => doFallback dial client record
    | .ok authKey => .accepted (mode.replay client.incoming record) authKey

/-- `accept_inner` behind the header of the record. -/
def acceptRecord (recordHeader : Bytes) : Outcome :=
  if recordHeader.getD 0 0 ≠ 0x16 then doFallback dial client recordHeader
  else if 16384 < recordLen recordHeader then doFallback dial client recordHeader
  else
    match readExact true (recordLen recordHeader) client.incoming with
    | (.error e, _) => .failed (FromIo.ofIo e)
    | (.ok handshakeBody, stream) =>
      acceptHello crypto server now dial mode { client with incoming := stream } recordHeader
        handshakeBody

/-- `accept_inner`. -/
def acceptInner : Outcome :=
  match readExact true 5 client.incoming with
  | (.error e, _) => .failed (FromIo.ofIo e)
  | (.ok recordHeader, stream) =>
    acceptRecord crypto server now dial mode { client with incoming := stream } recordHeader

end Accept

/-! ### Handing over -/

/-- The server reads the body of the record before it decides. -/
def ReadsBody : Prop :=
  recordHeader.getD 0 0 = 0x16 ∧ recordLen recordHeader ≤ 16384

instance ReadsBody.decidable : Decidable (ReadsBody recordHeader) :=
  inferInstanceAs (Decidable (_ ∧ _))

/-- The header arrives before its timeout, and the body before its own if the server reads it. -/
def Arrives (stream : Source) : Prop :=
  stream.Prompt 5 ∧
    (ReadsBody (stream.contents.take 5) →
      (stream.behind 5).Prompt (recordLen (stream.contents.take 5)))

instance Arrives.decidable (stream : Source) : Decidable (Arrives stream) :=
  inferInstanceAs (Decidable (_ ∧ (_ → _)))

/-- No poll of the relay comes when both directions have been idle for too long. -/
def Lively (bytes : Bytes) (read : ℕ) (client : Peer) (site : Site) : Prop :=
  Run.Meets (State.Lively connectionIdleTimeout) (State.step connectionIdleTimeout)
    (.start site.incoming client (bytes.drop read) ⟨bytes.take read, none⟩) site.wakes

instance Lively.decidable (bytes : Bytes) (read : ℕ) (client : Peer) (site : Site) :
    Decidable (Lively bytes read client site) :=
  inferInstanceAs (Decidable (Run.Meets _ _ _ _))

section Accept

variable (crypto : RealityCrypto) (server : RealityServerConfig) (now : ℤ) (mode : ReplayMode)

end Accept

def sampleServer : RealityServerConfig :=
  ⟨.replicate 32 1, [shortId], 120⟩

def sampleClient (bytes : Bytes) : Conn :=
  ⟨if h : bytes ≠ [] then [.data ⟨bytes, h⟩] else [], ⟨[], none⟩⟩

def sampleSite : Site := ⟨[7], ⟨[], none⟩, []⟩

theorem acceptInner_hello (crypto : RealityCrypto) (server : RealityServerConfig) (now : ℤ)
    (dial : Except String Site) (mode : ReplayMode) {handshake tail : Bytes}
    (hstream : client.incoming.contents =
      0x16 :: 0x03 :: 0x01 :: (toBe 2 handshake.length ++ handshake) ++ tail)
    (hfits : handshake.length < 65536) (hpatient : client.incoming.Patient) :
    acceptInner crypto server now dial mode client =
      if handshake.length ≤ 16384 then
        acceptHello crypto server now dial mode
          { client with incoming := (client.incoming.behind 5).behind handshake.length }
          (0x16 :: 0x03 :: 0x01 :: toBe 2 handshake.length) handshake
      else doFallback dial { client with incoming := client.incoming.behind 5 }
        (0x16 :: 0x03 :: 0x01 :: toBe 2 handshake.length) := by
  set header : Bytes := 0x16 :: 0x03 :: 0x01 :: toBe 2 handshake.length with hheader
  have hsplit : client.incoming.contents = header ++ (handshake ++ tail) := by
    rw [hstream, hheader]
    simp
  have hlen : header.length = 5 := by simp [hheader]
  have hrecord : recordLen header = handshake.length := by
    have hword := Tlv.word_toBe hfits []
    rwa [append_nil] at hword
  have hprompt : client.incoming.Prompt 5 := hpatient.prompt (by simp [hsplit, hlen])
  have hbehind : (client.incoming.behind 5).contents = handshake ++ tail := by
    rw [contents_behind, hsplit, drop_left' hlen]
  rw [acceptInner, readExact_prompt hprompt, hsplit, take_left' hlen]
  dsimp only
  rw [acceptRecord, if_neg (by simp [hheader]), hrecord]
  by_cases hmax : handshake.length ≤ 16384
  · have hprompt' : (client.incoming.behind 5).Prompt handshake.length :=
      (hpatient.behind 5).prompt (by simp [hbehind])
    rw [if_neg (not_lt.2 hmax), if_pos hmax, readExact_prompt hprompt', hbehind, take_left]
  · rw [if_pos (not_le.1 hmax), if_neg hmax]

theorem doFallback_ne_accepted (dial : Except String Site) (client : Conn) (alreadyRead : Bytes)
    (stream : AcceptedStream) (authKey : Octets 32) :
    doFallback dial client alreadyRead ≠ .accepted stream authKey := by
  intro h
  unfold doFallback at h
  cases dial with
  | error e => cases h
  | ok site =>
    dsimp only at h
    split at h <;> cases h

theorem acceptHello_eq_accepted {crypto : RealityCrypto} {now : ℤ}
    {dial : Except String Site} {mode : ReplayMode}
    {recordHeader handshakeBody : Bytes} {fields : ClientHelloFields} {authKey : Octets 32}
    (hparse : parseClientHello handshakeBody = .ok fields) :
    (∃ stream, acceptHello crypto server now dial mode client recordHeader handshakeBody =
        .accepted stream authKey) ↔
      deriveAuthKey crypto server now fields handshakeBody = .ok authKey := by
  rw [acceptHello, hparse]
  dsimp only
  cases deriveAuthKey crypto server now fields handshakeBody with
  | error e =>
    refine ⟨fun ⟨stream, h⟩ => absurd h (doFallback_ne_accepted _ _ _ _ _), fun h => ?_⟩
    cases h
  | ok key =>
    constructor
    · rintro ⟨stream, h⟩
      cases h
      rfl
    · intro h
      cases h
      exact ⟨_, rfl⟩

theorem acceptInner_dialHello {crypto : RealityCrypto} (hlawful : crypto.Lawful)
    {config : RealityClientConfig} {draws : DialDraws} {clientNow : ℕ} {serverNow : ℤ}
    {hello tail : Bytes} {authKey : Octets 32}
    (hkey : config.serverPublicKey = crypto.x25519Public server.privateKey)
    (hshort : config.shortId.length ≤ 8)
    (hdial : dialHello crypto config draws clientNow = .ok (hello, authKey))
    (hfits : hello.length < 5 + 65536) (hstream : client.incoming.contents = hello ++ tail)
    (hpatient : client.incoming.Patient) (dial : Except String Site) (mode : ReplayMode) :
    (∃ stream, acceptInner crypto server serverNow dial mode client = .accepted stream authKey) ↔
      hello.length ≤ 5 + 16384 ∧ stripZeroPadding config.shortId ∈ server.shortIds ∧
        |serverNow - ((clientNow % 2 ^ 32 : ℕ) : ℤ)| ≤ server.maxTimeDiff := by
  obtain ⟨handshake, fields, rfl, hhello⟩ := deriveAuthKey_dialHello hlawful serverNow hkey hshort
    hdial
  have hlen : (0x16 :: 0x03 :: 0x01 :: (toBe 2 handshake.length ++ handshake)).length =
      5 + handshake.length := by
    simp only [length_cons, length_append, length_toBe]
    omega
  obtain ⟨hparse, hderive⟩ := hhello (by omega)
  rw [acceptInner_hello crypto server serverNow dial mode hstream (by omega) hpatient, ← hderive,
    ← acceptHello_eq_accepted hparse]
  by_cases hmax : handshake.length ≤ 16384
  · rw [if_pos hmax, and_iff_right (by omega)]
  · rw [if_neg hmax]
    exact iff_of_false (fun ⟨_, h⟩ => doFallback_ne_accepted _ _ _ _ _ h) fun h => hmax (by omega)

/-- **Authentication of the REALITY client.**  For every key pair of the server, every short id of
at most eight bytes, every server name that fits the record, all draws, all clocks and every way in
which the ClientHello arrives in time: the server accepts the client with the key that the client
holds if and only if the record is not longer than the server reads, the server allows the short id
without its trailing zeros, and the time of the client, cut to 32 bits, is close enough. -/
theorem reality_authenticates_iff (crypto : RealityCrypto) (hlawful : crypto.Lawful)
    (server : RealityServerConfig) (config : RealityClientConfig) (draws : DialDraws)
    (clientNow serverNow : ℕ) (hello tail : Bytes) (authKey : Octets 32) (client : Conn)
    (dial : Except String Site) (mode : ReplayMode)
    (hkey : config.serverPublicKey = crypto.x25519Public server.privateKey)
    (hshort : config.shortId.length ≤ 8)
    (hdial : dialHello crypto config draws clientNow = .ok (hello, authKey))
    (hfits : hello.length < 5 + 65536) (hstream : client.incoming.contents = hello ++ tail)
    (hpatient : client.incoming.Patient) :
    (∃ stream, acceptInner crypto server.new serverNow dial mode client =
        .accepted stream authKey) ↔
      hello.length ≤ 5 + 16384 ∧ stripZeroPadding config.shortId ∈ server.shortIds ∧
        |(serverNow : ℤ) - ((clientNow % 2 ^ 32 : ℕ) : ℤ)| ≤ server.new.maxTimeDiff := by
  rw [← server.shortIds_new]
  refine acceptInner_dialHello hlawful ?_ hshort hdial hfits hstream hpatient dial mode
  rw [hkey, server.privateKey_new]

def sampleConfig : RealityClientConfig :=
  ⟨.replicate 32 1, shortId, "a.b"⟩

def sampleDraws : DialDraws :=
  ⟨.replicate 32 2, [4], .replicate 32 5, 0, 1⟩

def sampleHello : Bytes :=
  match dialHello sampleCrypto (sampleConfig shortId) sampleDraws 0 with
  | .ok (hello, _) => hello
  | .error _ => []

def sampleKey : Octets 32 := .replicate 32 3

theorem dialHello_sample :
    dialHello sampleCrypto (sampleConfig [1]) sampleDraws 0 = .ok (sampleHello [1], sampleKey) ∧
    dialHello sampleCrypto (sampleConfig [1, 0]) sampleDraws 0 =
      .ok (sampleHello [1, 0], sampleKey) := by
  decide +kernel

theorem length_sampleHello : (sampleHello [1]).length ≤ 5 + 16384 ∧
    (sampleHello [1, 0]).length ≤ 5 + 16384 := by
  decide +kernel

theorem contents_sampleClient : (sampleClient bytes).incoming.contents = bytes ++ [] := by
  rw [sampleClient]
  split_ifs with h
  · rfl
  · rw [not_not.1 h]
    rfl

theorem sampleClient_patient : (sampleClient bytes).incoming.Patient := by
  rw [sampleClient, Source.Patient]
  split_ifs <;> simp

theorem reality_authenticates_sample :
    ∃ stream, acceptInner sampleCrypto (sampleServer [1]).new (0 : ℕ) (.ok sampleSite)
      .prependClientHello (sampleClient (sampleHello [1])) = .accepted stream sampleKey :=
  (reality_authenticates_iff sampleCrypto sampleCrypto_lawful (sampleServer [1]) (sampleConfig [1])
    sampleDraws 0 0 (sampleHello [1]) [] sampleKey (sampleClient (sampleHello [1]))
    (.ok sampleSite) .prependClientHello rfl (by decide) dialHello_sample.1
    (lt_of_le_of_lt length_sampleHello.1 (by decide)) (contents_sampleClient _)
    (sampleClient_patient _)).2 ⟨length_sampleHello.1, by decide +kernel, by decide +kernel⟩

/-- The server lists the short id `01 00`, the client has it, and the clocks are equal; but the
server looks for `01` in the list. -/
theorem reality_refuses_zero :
    (sampleConfig [1, 0]).shortId ∈ (sampleServer [1, 0]).shortIds ∧
      dialHello sampleCrypto (sampleConfig [1, 0]) sampleDraws 0 =
        .ok (sampleHello [1, 0], sampleKey) ∧
      ∀ stream, acceptInner sampleCrypto (sampleServer [1, 0]).new (0 : ℕ) (.ok sampleSite)
        .prependClientHello (sampleClient (sampleHello [1, 0])) ≠ .accepted stream sampleKey := by
  refine ⟨by decide, dialHello_sample.2, fun stream h => ?_⟩
  have hallowed := ((acceptInner_dialHello sampleCrypto_lawful rfl (by decide) dialHello_sample.2
    (lt_of_le_of_lt length_sampleHello.2 (by decide)) (contents_sampleClient _)
    (sampleClient_patient _) _ _).1 ⟨stream, h⟩).2.1
  revert hallowed
  decide +kernel

end Blackwire.Reality
