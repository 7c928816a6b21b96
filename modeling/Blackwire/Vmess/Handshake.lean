import Blackwire.Common.Context
import Blackwire.Vmess.Codec
import Blackwire.Vmess.Stream

/-!
# The VMess handshake

`connect_vmess_on_stream` of `vmess/outbound.rs` and `VmessInbound::handle` of `vmess/inbound.rs`.
The client sends its auth id and its request header and waits for the response header; the server
looks the user up, reads the request, and answers.
-/

namespace Blackwire.Vmess

open AsyncIO AsyncIO.AsyncRead AsyncIO.ReadM AsyncIO.Duplex List VmessStream

variable (crypto : VmessCrypto) {σ : Type} [AsyncRead σ]

/-! ### The client -/

/-- What `connect_vmess_on_stream` takes from outside: the clock, and what is drawn at random. -/
structure ConnectDraws where
  now : UInt64
  authRandom : Octets 4
  header : HeaderDraws

def ConnectDraws.authId (draws : ConnectDraws) (cmdKey : Octets 16) : Octets 16 :=
  generateAuthIdAt crypto cmdKey draws.now draws.authRandom

def connectVmessOnStream (draws : ConnectDraws) (cmdKey : Octets 16) (dest : Address) :
    ReadM (Duplex σ) Stop (VmessStream (Duplex σ)) := do
  let authId := draws.authId crypto cmdKey
  let header ← ofProxy (encodeHeader crypto draws.header cmdKey authId dest .aes128Gcm)
  writeAll authId.val
  writeAll header.encLen
  writeAll header.connectionNonce.val
  writeAll header.encHeader
  let respKey := responseBodyKey crypto header.key
  let respIv := responseBodyIv crypto header.iv
  reading (readResponseHeader crypto header.v respKey respIv)
  let stream ← stream
  pure (newBidir crypto stream respKey respIv header.key header.iv .aes128Gcm 0)

/-! ### The server -/

structure VmessInbound where
  tag : String
  registry : VmessUserRegistry crypto

structure Dispatch (σ : Type) where
  ctx : Context
  dest : Address
  stream : VmessStream (Duplex σ)

variable {crypto}

/-- `VmessInbound::handle`, up to the call of the dispatcher.  `order` is the order in which the map
of the users is walked, and `now key` the time when the entry of `key` is tried. -/
def VmessInbound.handle (inbound : VmessInbound crypto) (order : inbound.registry.Order)
    (now : Octets 16 → UInt64) (source : SocketAddr) : ReadM (Duplex σ) Stop (Dispatch σ) := do
  let authId ← reading (readArray 16)
  match inbound.registry.findByAuth order now authId with
  | none => fail (.error .authFailed)
  | some user => do
    let encLen ← reading (readArray 18)
    let connectionNonce ← reading (readArray 8)
    let headerLen ← ofProxy (decryptLengthField crypto user.cmdKey authId connectionNonce encLen)
    let request ← reading (decodeHeader crypto user.cmdKey authId connectionNonce headerLen)
    let respKey := responseBodyKey crypto request.key
    let respIv := responseBodyIv crypto request.iv
    sendResponseHeader crypto request.v respKey respIv
    let stream ← stream
    pure {
      ctx := (Context.new inbound.tag source).withUser user.email
      dest := request.dest
      stream := newBidir crypto stream request.key request.iv respKey respIv
        request.security request.options }

/-! ### The conversation -/

def requestBytes (authId : Octets 16) (header : EncodedHeader) : Bytes :=
  authId.val ++ (header.encLen ++ (header.connectionNonce.val ++ header.encHeader))

section Parties

variable {draws : ConnectDraws} {key : Octets 16} {dest : Address} {header : EncodedHeader}
  (hheader : encodeHeader crypto draws.header key (draws.authId crypto key) dest .aes128Gcm =
    .ok header)

include hheader

theorem sends_connect : Sends (connectVmessOnStream (σ := σ) crypto draws key dest)
    (requestBytes (draws.authId crypto key) header) := by
  suffices h : Sends (connectVmessOnStream crypto draws key dest)
      ((draws.authId crypto key).val ++ (header.encLen ++ (header.connectionNonce.val ++
        (header.encHeader ++ [])))) by
    rwa [append_nil] at h
  simp only [connectVmessOnStream, hheader, ofProxy_ok_bind]
  refine Sends.writeAll_bind _ ?_
  refine Sends.writeAll_bind _ ?_
  refine Sends.writeAll_bind _ ?_
  refine Sends.writeAll_bind _ ?_
  refine (Sends.reading _).bind fun _ => ?_
  exact Sends.stream.bind fun _ => .pure _

theorem talks_connect {response : Bytes}
    (hread : Decodes (σ := σ) (readResponseHeader crypto header.v
      (responseBodyKey crypto header.key) (responseBodyIv crypto header.iv)) response ()) :
    Talks (connectVmessOnStream (σ := σ) crypto draws key dest) response
      (requestBytes (draws.authId crypto key) header) fun s =>
        newBidir crypto s (responseBodyKey crypto header.key)
          (responseBodyIv crypto header.iv) header.key header.iv .aes128Gcm 0 := by
  suffices h : Talks (connectVmessOnStream crypto draws key dest) response
      ((draws.authId crypto key).val ++ (header.encLen ++ (header.connectionNonce.val ++
        (header.encHeader ++ [])))) fun s =>
        newBidir crypto s (responseBodyKey crypto header.key)
          (responseBodyIv crypto header.iv) header.key header.iv .aes128Gcm 0 by
    rwa [append_nil] at h
  refine (talks_ofProxy hheader).bind_send ?_
  refine (Talks.writeAll _).bind_send ?_
  refine (Talks.writeAll _).bind_send ?_
  refine (Talks.writeAll _).bind_send ?_
  refine (Talks.writeAll _).bind_send ?_
  refine (Talks.reading hread).bind_nil ?_
  exact Talks.stream _

theorem talks_handle (hcrypto : crypto.Lawful) {inbound : VmessInbound crypto}
    {order : inbound.registry.Order} {now : Octets 16 → UInt64} {user : VmessUser}
    (hfind : inbound.registry.findByAuth order now (draws.authId crypto key) = some user)
    (hkey : user.cmdKey = key) {response : Bytes}
    (hsend : Talks (σ := σ) (sendResponseHeader crypto header.v
      (responseBodyKey crypto header.key) (responseBodyIv crypto header.iv)) [] response
      fun _ => ()) (source : SocketAddr) :
    Talks (inbound.handle (σ := σ) order now source)
      (requestBytes (draws.authId crypto key) header) response fun s =>
        { ctx := (Context.new inbound.tag source).withUser user.email
          dest := dest
          stream := newBidir crypto s header.key header.iv
            (responseBodyKey crypto header.key) (responseBodyIv crypto header.iv) .aes128Gcm
            0x01 } := by
  subst hkey
  obtain ⟨encLen, headerLen, hencLen, hlen, hdecode⟩ := decodes_header hcrypto hheader
  rw [requestBytes, hencLen, ← append_nil header.encHeader]
  refine (Talks.reading (decodes_readArray _)).bind_read ?_
  simp only [hfind]
  refine (Talks.reading (decodes_readArray _)).bind_read ?_
  refine (Talks.reading (decodes_readArray _)).bind_read ?_
  refine (talks_ofProxy hlen).bind_send ?_
  refine (Talks.reading hdecode).bind_read ?_
  refine hsend.bind_nil ?_
  exact Talks.stream _

end Parties

/-- **Handshake.**  A registered user connects to the server, with clocks that differ by at most two
minutes, and the key of no other user validates the auth id.  There are a request and a response
such that

* whatever the client reads, it has sent the request;
* the server finds the user by the auth id;
* a server that gets the request, and anything behind it, answers with the response, and hands the
  user, the destination and the data stream to the dispatcher;
* a client that gets the response, and anything behind it, accepts it;
* neither has read anything behind the headers, and each direction has the same key, IV, cipher,
  mask and padding at both ends. -/
theorem vmess_handshake {τ : Type} [AsyncRead τ] (hcrypto : crypto.Lawful)
    {inbound : VmessInbound crypto} (order : inbound.registry.Order) {user : VmessUser}
    (huser : (cmdKey crypto user.uuid, user) ∈ inbound.registry.users) (draws : ConnectDraws)
    {now : Octets 16 → UInt64}
    (hclock : absDiff (now (cmdKey crypto user.uuid)).toNat draws.now.toNat ≤ maxTimeDiffSecs)
    (honly : ∀ entry ∈ inbound.registry.users,
      validateAuthId crypto entry.1 (draws.authId crypto (cmdKey crypto user.uuid)) maxTimeDiffSecs
        (now entry.1) = true → entry.1 = cmdKey crypto user.uuid)
    {dest : Address} {header : EncodedHeader}
    (hheader : encodeHeader crypto draws.header (cmdKey crypto user.uuid)
      (draws.authId crypto (cmdKey crypto user.uuid)) dest .aes128Gcm = .ok header)
    (source : SocketAddr) :
    ∃ request response : Bytes,
      (∀ client : Duplex σ,
        (connectVmessOnStream crypto draws (cmdKey crypto user.uuid) dest false client).2.sent =
          client.sent ++ request) ∧
      inbound.registry.findByAuth order now (draws.authId crypto (cmdKey crypto user.uuid)) =
        some user ∧
      ∀ (client : Duplex σ) (server : Duplex τ) (p q : Bytes),
        rest server.input = request ++ q → rest client.input = response ++ p →
        ∃ (dispatch : Dispatch τ) (connected : VmessStream (Duplex σ)),
          inbound.handle order now source false server = (.ok dispatch, dispatch.stream.inner) ∧
          connectVmessOnStream crypto draws (cmdKey crypto user.uuid) dest false client =
            (.ok connected, connected.inner) ∧
          dispatch.ctx = (Context.new inbound.tag source).withUser user.email ∧
          dispatch.dest = dest ∧
          dispatch.stream.inner.sent = server.sent ++ response ∧
          connected.inner.sent = client.sent ++ request ∧
          rest dispatch.stream.inner.input = q ∧ dispatch.stream.readRawBuf = [] ∧
          rest connected.inner.input = p ∧ connected.readRawBuf = [] ∧
          connected.write = dispatch.stream.read ∧ connected.read = dispatch.stream.write := by
  have hfind := inbound.registry.findByAuth_eq order huser
    (validateAuthId_generate hcrypto _ draws.authRandom hclock) honly
  have hkey : user.cmdKey = cmdKey crypto user.uuid := (inbound.registry.keyed _ huser).1.symm
  obtain ⟨response, hsend, hread⟩ := decodes_response hcrypto header.v
    (responseBodyKey crypto header.key) (responseBodyIv crypto header.iv)
  refine ⟨_, response, fun client => sends_connect hheader false client, hfind, ?_⟩
  intro client server p q hserver hclient
  obtain ⟨serverInput, hhandle, hq⟩ :=
    talks_handle hheader hcrypto hfind hkey hsend source server q hserver
  obtain ⟨clientInput, hconnect, hp⟩ := talks_connect hheader hread client p hclient
  refine ⟨_, _, hhandle, hconnect, rfl, rfl, rfl, rfl, hq, rfl, hp, rfl, ?_, ?_⟩
  · exact (Half.new_chunkStream crypto header.key header.iv .aes128Gcm).symm
  · exact (Half.new_chunkStream crypto _ _ .aes128Gcm).symm

def sampleInbound : VmessInbound sampleCrypto where
  tag := "vmess"
  registry := (VmessUserRegistry.new.addUser (digest 16 [1]) "one").addUser (digest 16 [2]) "two"

def sampleDraws : ConnectDraws where
  now := 1700000000
  authRandom := digest 4 [3]
  header := ⟨digest 16 [4], digest 16 [5], 6, digest 8 [7], 21, fun n => UInt8.ofNat n⟩

def sampleUser : VmessUser := ⟨digest 16 [1], cmdKey sampleCrypto (digest 16 [1]), "one"⟩

def sampleNow : Octets 16 → UInt64 := fun _ => 1700000100

/-- The first of two users connects, and the server's clock is 100 seconds ahead. -/
theorem sample_handshake :
    ∃ request response : Bytes, ∀ client server : Duplex Source,
      rest server.input = request → rest client.input = response →
      ∃ (dispatch : Dispatch Source) (connected : VmessStream (Duplex Source)),
        sampleInbound.handle ⟨sampleInbound.registry.users, .refl _⟩ sampleNow
          (.v4 ⟨[127, 0, 0, 1], rfl⟩ 50000) false server = (.ok dispatch, dispatch.stream.inner) ∧
        connectVmessOnStream sampleCrypto sampleDraws (cmdKey sampleCrypto sampleUser.uuid)
          (.domain "example.org" 443) false client = (.ok connected, connected.inner) ∧
        dispatch.ctx.user = some "one" ∧ dispatch.dest = .domain "example.org" 443 ∧
        connected.write = dispatch.stream.read := by
  have huser :
      (cmdKey sampleCrypto sampleUser.uuid, sampleUser) ∈ sampleInbound.registry.users := by
    decide +kernel
  have hclock : absDiff (sampleNow (cmdKey sampleCrypto sampleUser.uuid)).toNat
      sampleDraws.now.toNat ≤ maxTimeDiffSecs := by
    decide +kernel
  have honly : ∀ entry ∈ sampleInbound.registry.users,
      validateAuthId sampleCrypto entry.1
        (sampleDraws.authId sampleCrypto (cmdKey sampleCrypto sampleUser.uuid)) maxTimeDiffSecs
        (sampleNow entry.1) = true → entry.1 = cmdKey sampleCrypto sampleUser.uuid := by
    decide +kernel
  obtain ⟨header, hheader⟩ := exists_encodeHeader sampleCrypto_lawful sampleDraws.header
    (cmdKey sampleCrypto sampleUser.uuid)
    (sampleDraws.authId sampleCrypto (cmdKey sampleCrypto sampleUser.uuid))
    (rfl : putDest (.domain "example.org" 443) = .ok _) .aes128Gcm
  obtain ⟨request, response, -, -, hall⟩ := vmess_handshake (σ := Source) (τ := Source)
    sampleCrypto_lawful ⟨sampleInbound.registry.users, .refl _⟩ huser sampleDraws hclock honly
    hheader (.v4 ⟨[127, 0, 0, 1], rfl⟩ 50000)
  refine ⟨request, response, fun client server hserver hclient => ?_⟩
  obtain ⟨dispatch, connected, hhandle, hconnect, hctx, hdest, -, -, -, -, -, -, hwrite, -⟩ :=
    hall client server [] [] (by rw [hserver, append_nil]) (by rw [hclient, append_nil])
  refine ⟨dispatch, connected, hhandle, hconnect, ?_, hdest, hwrite⟩
  rw [hctx]
  rfl

end Blackwire.Vmess
