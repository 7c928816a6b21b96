import Blackwire.Common.Context
import Blackwire.Lib.Duplex
import Blackwire.Ss2022.Replay
import Blackwire.Ss2022.Stream

/-!
# The SS-2022 handshake

`open_ss2022_stream` of `ss2022/outbound.rs` and `Ss2022Inbound::handle` of `ss2022/inbound.rs`.
The client sends its salt and its two headers and waits for the response; the server checks the salt
and the timestamp, reads the destination, and answers at once with a header that repeats the salt of
the request and with an empty first payload.
-/

namespace Blackwire.Ss2022

open AsyncIO AsyncIO.AsyncRead AsyncIO.ReadM AsyncIO.Duplex Socks5Address List Vmess

variable (crypto : Ss2022Crypto) {σ : Type} [AsyncRead σ] {buf : Bytes} {dest : Address}

/-! ### The client -/

/-- What `open_ss2022_stream` takes from outside: the salt that it draws, and the seconds on the
clock when it builds the request and when it has read the response. -/
structure OpenDraws where
  reqSalt : Octets 32
  sentAt : UInt64
  readAt : UInt64

/-- The part of `open_ss2022_stream` that reads the response: the subkey of the response, and the
first payload. -/
def readResponse (psk : Octets 32) (now : ℕ) : ReadM σ ProxyError (Octets 32 × Bytes) := do
  let respSalt ← readArray 32
  let respSubkey := deriveSubkey crypto psk respSalt
  let respHdrCt ← readArray 59
  let initialLen ← ofExcept (openResponseHeader crypto respSubkey now respHdrCt)
  let initialCt ← readVec (initialLen + 16)
  let initialPt ← ofExcept
    (openWith crypto respSubkey 1 initialCt "SS-2022: initial payload decrypt failed")
  pure (respSubkey, initialPt)

def openSs2022Stream (draws : OpenDraws) (psk : Octets 32) (dest : Address) :
    ReadM (Duplex σ) ProxyError (Ss2022Stream (Duplex σ)) := do
  writeAll draws.reqSalt.val
  let reqSubkey := deriveSubkey crypto psk draws.reqSalt
  let header ← ofExcept (buildRequestVariableHeader dest)
  let fixedCt ← ofExcept (sealWith crypto reqSubkey 0
    (requestFixedHeader draws.sentAt header.length) "SS-2022: fixed header encrypt failed")
  let variableCt ← ofExcept (sealWith crypto reqSubkey 1 header
    "SS-2022: variable header encrypt failed")
  writeAll fixedCt
  writeAll variableCt
  let (respSubkey, initialPt) ← reading (readResponse crypto psk draws.readAt.toNat)
  let stream ← stream
  pure (Ss2022Stream.newBidir stream respSubkey 2 reqSubkey 2 initialPt none)

/-! ### The server -/

structure Ss2022Inbound where
  tag : String
  psk : Octets 32

structure HandleDraws where
  replay : SaltReplay
  saltAt : ℕ
  checkedAt : ℕ
  sentAt : UInt64
  respSalt : Octets 32

structure Dispatch (σ : Type) where
  ctx : Context
  dest : Address
  stream : Ss2022Stream (Duplex σ)
  replay : SaltReplay

def Ss2022Inbound.handle (inbound : Ss2022Inbound) (draws : HandleDraws) (source : SocketAddr) :
    ReadM (Duplex σ) ProxyError (Dispatch σ) := do
  let reqSalt ← reading (readArray 32)
  match draws.replay.checkAndInsert draws.saltAt reqSalt with
  | (false, _) => fail .authFailed
  | (true, replay) => do
    let reqSubkey := deriveSubkey crypto inbound.psk reqSalt
    let fixedCt ← reading (readArray 27)
    let (_, variableLen) ← ofExcept (openFixedHeader crypto reqSubkey draws.checkedAt fixedCt)
    let varCt ← reading (readVec (variableLen + 16))
    let (dest, initialPayload) ← ofExcept (openVariableHeader crypto reqSubkey varCt)
    writeAll draws.respSalt.val
    let respSubkey := deriveSubkey crypto inbound.psk draws.respSalt
    let hdrCt ← ofExcept (sealWith crypto respSubkey 0
      (buildResponseFixedHeader draws.sentAt reqSalt) "SS-2022: resp header encrypt failed")
    let emptyCt ← ofExcept (sealWith crypto respSubkey 1 []
      "SS-2022: empty initial payload encrypt failed")
    writeAll hdrCt
    writeAll emptyCt
    let stream ← stream
    pure {
      ctx := Context.new inbound.tag source
      dest := dest
      stream := Ss2022Stream.newBidir stream reqSubkey 2 respSubkey 2 initialPayload none
      replay := replay }

/-! ### The messages -/

def sealedRequest (psk reqSalt : Octets 32) (ts : UInt64) (header : Bytes) :
    Except ProxyError Bytes := do
  let reqSubkey := deriveSubkey crypto psk reqSalt
  let fixedCt ← sealWith crypto reqSubkey 0 (requestFixedHeader ts header.length)
    "SS-2022: fixed header encrypt failed"
  let variableCt ← sealWith crypto reqSubkey 1 header "SS-2022: variable header encrypt failed"
  pure (reqSalt.val ++ (fixedCt ++ variableCt))

def variableHeader (buf padding payload : Bytes) : Bytes :=
  buf ++ (Bytes.toBe 2 padding.length ++ (padding ++ payload))

theorem buildRequestVariableHeader_eq_ok (hbuf : writeSocks5Address dest = .ok buf) :
    buildRequestVariableHeader dest = .ok (variableHeader buf [] []) :=
  bind_eq_ok.2 ⟨buf, hbuf, rfl⟩

variable {crypto} {inbound : Ss2022Inbound}

theorem exists_sealedHeaders (hcrypto : crypto.Lawful) (subkey : Octets 32) (ts : UInt64)
    {header : Bytes} (hlen : header.length < 65536) :
    ∃ (fixedCt : Octets 27) (varCt : Bytes),
      sealWith crypto subkey 0 (requestFixedHeader ts header.length)
        "SS-2022: fixed header encrypt failed" = .ok fixedCt.val ∧
      sealWith crypto subkey 1 header "SS-2022: variable header encrypt failed" = .ok varCt ∧
      varCt.length = header.length + 16 ∧
      (∀ now, Nat.dist ts.toNat now ≤ maxTimeDiff →
        openFixedHeader crypto subkey now fixedCt = .ok (ts, header.length)) ∧
      openVariableHeader crypto subkey varCt = parseVariableHeader header := by
  have hfixed : (requestFixedHeader ts header.length).length ≤ 65536 := by
    rw [length_requestFixedHeader]
    decide
  obtain ⟨fixedCt, hfixedSeal, hfixedLen, hfixedOpen⟩ := sealWith_openWith hcrypto subkey 0 hfixed
    "SS-2022: fixed header encrypt failed"
  obtain ⟨varCt, hvarSeal, hvarLen, hvarOpen⟩ := sealWith_openWith hcrypto subkey 1 hlen.le
    "SS-2022: variable header encrypt failed"
  rw [length_requestFixedHeader] at hfixedLen
  refine ⟨⟨fixedCt, hfixedLen⟩, varCt, hfixedSeal, hvarSeal, hvarLen, fun now hclock => ?_, ?_⟩
  · exact openFixedHeader_seal hlen hfixedOpen hclock
  · rw [openVariableHeader, hvarOpen]
    rfl

theorem exists_sealedResponse (hcrypto : crypto.Lawful) (psk respSalt reqSalt : Octets 32)
    (ts : UInt64) :
    ∃ (hdrCt : Octets 59) (emptyCt : Bytes),
      sealWith crypto (deriveSubkey crypto psk respSalt) 0 (buildResponseFixedHeader ts reqSalt)
        "SS-2022: resp header encrypt failed" = .ok hdrCt.val ∧
      sealWith crypto (deriveSubkey crypto psk respSalt) 1 []
        "SS-2022: empty initial payload encrypt failed" = .ok emptyCt ∧
      (∀ error, openWith crypto (deriveSubkey crypto psk respSalt) 0 hdrCt.val error =
        .ok (buildResponseFixedHeader ts reqSalt)) ∧
      ∀ now, Nat.dist ts.toNat now ≤ maxTimeDiff →
        Decodes (σ := σ) (readResponse crypto psk now) (respSalt.val ++ (hdrCt.val ++ emptyCt))
          (deriveSubkey crypto psk respSalt, []) := by
  have hhdr : (buildResponseFixedHeader ts reqSalt).length ≤ 65536 := by
    rw [length_buildResponseFixedHeader]
    decide
  obtain ⟨hdrCt, hhdrSeal, hhdrLen, hhdrOpen⟩ := sealWith_openWith hcrypto
    (deriveSubkey crypto psk respSalt) 0 hhdr "SS-2022: resp header encrypt failed"
  have hnil : ([] : Bytes).length ≤ 65536 := Nat.zero_le _
  obtain ⟨emptyCt, hemptySeal, hemptyLen, hemptyOpen⟩ := sealWith_openWith hcrypto
    (deriveSubkey crypto psk respSalt) 1 hnil "SS-2022: empty initial payload encrypt failed"
  rw [length_buildResponseFixedHeader] at hhdrLen
  refine ⟨⟨hdrCt, hhdrLen⟩, emptyCt, hhdrSeal, hemptySeal, hhdrOpen, fun now hclock => ?_⟩
  refine (decodes_readArray respSalt).bind ?_
  refine (decodes_readArray ⟨hdrCt, hhdrLen⟩).bind ?_
  refine (Decodes.ofExcept (openResponseHeader_seal hhdrOpen hclock)).nil_bind ?_
  refine (decodes_readVec (by rw [hemptyLen]; rfl)).bind_nil ?_
  exact (Decodes.ofExcept (hemptyOpen _)).bind_nil (.pure _)

/-! ### The conversation -/

section Parties

variable {draws : OpenDraws} {psk : Octets 32} {dest : Address} {header fixedCt variableCt : Bytes}
  (hheader : buildRequestVariableHeader dest = .ok header)
  (hfixed : sealWith crypto (deriveSubkey crypto psk draws.reqSalt) 0
    (requestFixedHeader draws.sentAt header.length) "SS-2022: fixed header encrypt failed" =
      .ok fixedCt)
  (hvariable : sealWith crypto (deriveSubkey crypto psk draws.reqSalt) 1 header
    "SS-2022: variable header encrypt failed" = .ok variableCt)

include hheader hfixed hvariable

theorem sends_open : Sends (openSs2022Stream (σ := σ) crypto draws psk dest)
    (draws.reqSalt.val ++ (fixedCt ++ variableCt)) := by
  suffices h : Sends (openSs2022Stream crypto draws psk dest)
      (draws.reqSalt.val ++ (fixedCt ++ (variableCt ++ []))) by
    rwa [append_nil] at h
  refine Sends.writeAll_bind _ ?_
  simp only [hheader, ofExcept_ok_bind, hfixed, hvariable]
  refine Sends.writeAll_bind _ ?_
  refine Sends.writeAll_bind _ ?_
  refine (Sends.reading _).bind fun _ => ?_
  exact Sends.stream.bind fun _ => .pure _

theorem talks_open {response : Bytes} {respSubkey : Octets 32} {initialPt : Bytes}
    (hread : Decodes (σ := σ) (readResponse crypto psk draws.readAt.toNat) response
      (respSubkey, initialPt)) :
    Talks (openSs2022Stream (σ := σ) crypto draws psk dest) response
      (draws.reqSalt.val ++ (fixedCt ++ variableCt)) fun s =>
        Ss2022Stream.newBidir s respSubkey 2 (deriveSubkey crypto psk draws.reqSalt) 2 initialPt
          none := by
  suffices h : Talks (openSs2022Stream crypto draws psk dest) response
      (draws.reqSalt.val ++ (fixedCt ++ (variableCt ++ []))) fun s =>
        Ss2022Stream.newBidir s respSubkey 2 (deriveSubkey crypto psk draws.reqSalt) 2 initialPt
          none by
    rwa [append_nil] at h
  refine (Talks.writeAll _).bind_send ?_
  refine (Talks.ofExcept hheader).bind_send ?_
  refine (Talks.ofExcept hfixed).bind_send ?_
  refine (Talks.ofExcept hvariable).bind_send ?_
  refine (Talks.writeAll _).bind_send ?_
  refine (Talks.writeAll _).bind_send ?_
  refine (Talks.reading hread).bind_nil ?_
  exact Talks.stream _

end Parties

theorem length_variableHeader_nil (hbuf : writeSocks5Address dest = .ok buf) :
    (variableHeader buf [] []).length < 65536 := by
  have hbound := length_writeSocks5Address hbuf
  have hlen : (variableHeader buf [] []).length = buf.length + 2 := by simp [variableHeader]
  omega

theorem talks_handle_padded (hcrypto : crypto.Lawful) {draws : HandleDraws} {reqSalt : Octets 32}
    {ts : UInt64} (hbuf : writeSocks5Address dest = .ok buf)
    (hfresh : draws.replay.lookup reqSalt = none)
    (hclock : Nat.dist ts.toNat draws.checkedAt ≤ maxTimeDiff) {padding payload : Bytes}
    (hlen : (variableHeader buf padding payload).length < 65536) {hdrCt emptyCt : Bytes}
    (hhdr : sealWith crypto (deriveSubkey crypto inbound.psk draws.respSalt) 0
      (buildResponseFixedHeader draws.sentAt reqSalt) "SS-2022: resp header encrypt failed" =
        .ok hdrCt) (hempty : sealWith crypto (deriveSubkey crypto inbound.psk draws.respSalt) 1 []
      "SS-2022: empty initial payload encrypt failed" = .ok emptyCt) (source : SocketAddr) :
    ∃ request, sealedRequest crypto inbound.psk reqSalt ts (variableHeader buf padding payload) =
        .ok request ∧
      Talks (inbound.handle (σ := σ) crypto draws source) request
        (draws.respSalt.val ++ (hdrCt ++ emptyCt)) fun s =>
          { ctx := Context.new inbound.tag source
            dest := dest
            stream := Ss2022Stream.newBidir s (deriveSubkey crypto inbound.psk reqSalt) 2
              (deriveSubkey crypto inbound.psk draws.respSalt) 2 payload none
            replay := (reqSalt, draws.saltAt) :: draws.replay } := by
  obtain ⟨fixedCt, varCt, hfixed, hvariable, hvarLen, hopenFixed, hopenVariable⟩ :=
    exists_sealedHeaders hcrypto (deriveSubkey crypto inbound.psk reqSalt) ts hlen
  have hpad : padding.length < 65536 := by
    simp only [variableHeader, length_append] at hlen
    omega
  rw [variableHeader, parseVariableHeader_append hbuf hpad] at hopenVariable
  have hcheck : draws.replay.checkAndInsert draws.saltAt reqSalt =
      (true, (reqSalt, draws.saltAt) :: draws.replay) := by
    simp only [SaltReplay.checkAndInsert, hfresh]
  refine ⟨reqSalt.val ++ (fixedCt.val ++ varCt),
    bind_eq_ok.2 ⟨_, hfixed, bind_eq_ok.2 ⟨_, hvariable, rfl⟩⟩, ?_⟩
  rw [← append_nil varCt, ← append_nil emptyCt]
  refine (Talks.reading (decodes_readArray _)).bind_read ?_
  simp only [hcheck]
  refine (Talks.reading (decodes_readArray _)).bind_read ?_
  refine (Talks.ofExcept (hopenFixed _ hclock)).bind_send ?_
  refine (Talks.reading (decodes_readVec hvarLen)).bind_read ?_
  refine (Talks.ofExcept hopenVariable).bind_send ?_
  refine (Talks.writeAll _).bind_send ?_
  refine (Talks.ofExcept hhdr).bind_send ?_
  refine (Talks.ofExcept hempty).bind_send ?_
  refine (Talks.writeAll _).bind_send ?_
  refine (Talks.writeAll _).bind_send ?_
  exact Talks.stream _

/-- **Handshake.**  A client opens a stream to a server with the same pre-shared key, with clocks
that differ by at most 30 seconds when each header is checked, and with a salt that the server has
not recorded.  There is a response such that

* a server that gets a request for the destination, with any padding and any first payload, and
  anything behind it, answers with the response, and hands the destination and a stream that starts
  with the first payload to the dispatcher;
* the client sends such a request, with no padding and no payload, whatever it reads;
* a client that gets the response, and anything behind it, accepts it;
* neither has read anything behind the headers, and each direction has the same subkey and the same
  nonce counter at both ends. -/
theorem ss2022_handshake {τ : Type} [AsyncRead τ] (hcrypto : crypto.Lawful)
    (inbound : Ss2022Inbound) (client : OpenDraws) (server : HandleDraws) {dest : Address}
    {buf : Bytes} (hbuf : writeSocks5Address dest = .ok buf)
    (hfresh : server.replay.lookup client.reqSalt = none)
    (hrequest : Nat.dist client.sentAt.toNat server.checkedAt ≤ maxTimeDiff)
    (hresponse : Nat.dist server.sentAt.toNat client.readAt.toNat ≤ maxTimeDiff)
    (source : SocketAddr) :
    ∃ response : Bytes, ∀ padding payload, (variableHeader buf padding payload).length < 65536 →
      ∃ request own : Bytes,
        sealedRequest crypto inbound.psk client.reqSalt client.sentAt
          (variableHeader buf padding payload) = .ok request ∧
        sealedRequest crypto inbound.psk client.reqSalt client.sentAt (variableHeader buf [] []) =
          .ok own ∧
        (∀ c : Duplex σ, (openSs2022Stream crypto client inbound.psk dest false c).2.sent =
          c.sent ++ own) ∧
        ∀ (c : Duplex σ) (s : Duplex τ) (p q : Bytes),
          rest s.input = request ++ q → rest c.input = response ++ p →
          ∃ (dispatch : Dispatch τ) (connected : Ss2022Stream (Duplex σ)),
            inbound.handle crypto server source false s = (.ok dispatch, dispatch.stream.inner) ∧
            openSs2022Stream crypto client inbound.psk dest false c =
              (.ok connected, connected.inner) ∧
            dispatch.ctx = Context.new inbound.tag source ∧ dispatch.dest = dest ∧
            dispatch.stream.readBuf = payload ∧ connected.readBuf = [] ∧
            dispatch.stream.inner.sent = s.sent ++ response ∧
            connected.inner.sent = c.sent ++ own ∧
            rest dispatch.stream.inner.input = q ∧ dispatch.stream.readRaw = [] ∧
            rest connected.inner.input = p ∧ connected.readRaw = [] ∧
            connected.write.subkey = dispatch.stream.read.subkey ∧
            connected.write.counter = dispatch.stream.read.counter ∧
            connected.read.subkey = dispatch.stream.write.subkey ∧
            connected.read.counter = dispatch.stream.write.counter := by
  obtain ⟨hdrCt, emptyCt, hhdr, hempty, -, hread⟩ := exists_sealedResponse (σ := σ) hcrypto
    inbound.psk server.respSalt client.reqSalt server.sentAt
  -- the response does not depend on the padding and the payload of the request
  refine ⟨server.respSalt.val ++ (hdrCt.val ++ emptyCt), fun padding payload hlen => ?_⟩
  obtain ⟨request, hrequest', hhandle⟩ :=
    talks_handle_padded (σ := τ) hcrypto hbuf hfresh hrequest hlen hhdr hempty source
  obtain ⟨fixedCt, varCt, hfixed, hvariable, -⟩ := exists_sealedHeaders hcrypto
    (deriveSubkey crypto inbound.psk client.reqSalt) client.sentAt (length_variableHeader_nil hbuf)
  have hheader := buildRequestVariableHeader_eq_ok hbuf
  refine ⟨request, client.reqSalt.val ++ (fixedCt.val ++ varCt), hrequest', ?_,
    fun c => sends_open hheader hfixed hvariable false c, fun c s p q hs hc => ?_⟩
  · exact bind_eq_ok.2 ⟨_, hfixed, bind_eq_ok.2 ⟨_, hvariable, rfl⟩⟩
  · obtain ⟨serverInput, hserver, hq⟩ := hhandle s q hs
    obtain ⟨clientInput, hclient, hp⟩ :=
      talks_open hheader hfixed hvariable (hread _ hresponse) c p hc
    exact ⟨_, _, hserver, hclient, rfl, rfl, rfl, rfl, rfl, rfl, hq, rfl, hp, rfl, rfl, rfl, rfl,
      rfl⟩

/-- A client and a server whose clock is 30 seconds ahead. -/
theorem sample_ss2022_handshake :
    ∃ response : Bytes, ∃ request own : Bytes,
      sealedRequest sampleCrypto (digest 32 [1]) (digest 32 [2]) 1700000000
        (variableHeader [1, 192, 0, 2, 1, 1, 187] [0, 0, 0] [5]) = .ok request ∧
      ∀ c s : Duplex Source, rest s.input = request → rest c.input = response →
        ∃ (dispatch : Dispatch Source) (connected : Ss2022Stream (Duplex Source)),
          Ss2022Inbound.handle sampleCrypto ⟨"ss", digest 32 [1]⟩
            ⟨[], 0, 1700000030, 1700000030, digest 32 [3]⟩ (.v4 ⟨[127, 0, 0, 1], rfl⟩ 50000)
            false s = (.ok dispatch, dispatch.stream.inner) ∧
          openSs2022Stream sampleCrypto ⟨digest 32 [2], 1700000000, 1700000001⟩
            (digest 32 [1]) (.ipv4 ⟨[192, 0, 2, 1], rfl⟩ 443) false c =
              (.ok connected, connected.inner) ∧
          dispatch.dest = .ipv4 ⟨[192, 0, 2, 1], rfl⟩ 443 ∧ dispatch.stream.readBuf = [5] ∧
          connected.inner.sent = c.sent ++ own := by
  obtain ⟨response, h⟩ := ss2022_handshake (σ := Source) (τ := Source) sampleCrypto_lawful
    ⟨"ss", digest 32 [1]⟩ ⟨digest 32 [2], 1700000000, 1700000001⟩
    ⟨[], 0, 1700000030, 1700000030, digest 32 [3]⟩
    (rfl : writeSocks5Address (.ipv4 ⟨[192, 0, 2, 1], rfl⟩ 443) = .ok [1, 192, 0, 2, 1, 1, 187])
    rfl (by decide) (by decide) (.v4 ⟨[127, 0, 0, 1], rfl⟩ 50000)
  obtain ⟨request, own, hrequest, -, -, hall⟩ := h [0, 0, 0] [5] (by decide)
  refine ⟨response, request, own, hrequest, fun c s hs hc => ?_⟩
  obtain ⟨dispatch, connected, hhandle, hopen, -, hdest, hpayload, -, -, hsent, -⟩ :=
    hall c s [] [] (by rw [hs, append_nil]) (by rw [hc, append_nil])
  exact ⟨dispatch, connected, hhandle, hopen, hdest, hpayload, hsent⟩

/-! ### Responses to other requests -/

def requestSaltField (respHdr : Bytes) : Bytes := (respHdr.drop 9).take 32

theorem requestSaltField_build (ts : UInt64) (reqSalt : Octets 32) :
    requestSaltField (buildResponseFixedHeader ts reqSalt) = reqSalt.val := by
  rw [requestSaltField, buildResponseFixedHeader, drop_succ_cons,
    drop_left' (Bytes.length_toBe ..), take_left' reqSalt.property]

variable (crypto) in
/-- A response that is accepted carries the salt of the request. -/
def BindsRequest (draws : OpenDraws) (psk : Octets 32) (dest : Address) : Prop :=
  ∀ (c : Duplex Source) (connected : Ss2022Stream (Duplex Source)) (after : Duplex Source),
    openSs2022Stream crypto draws psk dest false c = (.ok connected, after) →
    ∀ (respSalt : Octets 32) (respHdrCt : Octets 59) (tail respHdr : Bytes),
      rest c.input = respSalt.val ++ (respHdrCt.val ++ tail) →
      openWith crypto (deriveSubkey crypto psk respSalt) 0 respHdrCt.val
        "SS-2022: response header decrypt failed" = .ok respHdr →
      requestSaltField respHdr = draws.reqSalt.val

theorem accepts_other_response (hcrypto : crypto.Lawful) (inbound : Ss2022Inbound)
    (client : OpenDraws) (server : HandleDraws)
    (hbuf : writeSocks5Address dest = .ok buf) (other : Octets 32)
    (hresponse : Nat.dist server.sentAt.toNat client.readAt.toNat ≤ maxTimeDiff) :
    ∃ (hdrCt : Octets 59) (emptyCt : Bytes),
      openWith crypto (deriveSubkey crypto inbound.psk server.respSalt) 0 hdrCt.val
        "SS-2022: response header decrypt failed" =
          .ok (buildResponseFixedHeader server.sentAt other) ∧
      (∀ (c : Duplex σ) (p : Bytes),
        rest c.input = server.respSalt.val ++ (hdrCt.val ++ emptyCt) ++ p →
        ∃ connected, openSs2022Stream crypto client inbound.psk dest false c =
          (.ok connected, connected.inner)) ∧
      ∀ (otherDest : Address) (otherBuf : Bytes) (ts : UInt64) (source : SocketAddr),
        writeSocks5Address otherDest = .ok otherBuf → server.replay.lookup other = none →
        Nat.dist ts.toNat server.checkedAt ≤ maxTimeDiff →
        ∃ request, sealedRequest crypto inbound.psk other ts (variableHeader otherBuf [] []) =
            .ok request ∧
          ∀ (s : Duplex σ) (q : Bytes), rest s.input = request ++ q →
            ∃ dispatch : Dispatch σ,
              inbound.handle crypto server source false s = (.ok dispatch, dispatch.stream.inner) ∧
              dispatch.dest = otherDest ∧
              dispatch.stream.inner.sent =
                s.sent ++ (server.respSalt.val ++ (hdrCt.val ++ emptyCt)) := by
  obtain ⟨hdrCt, emptyCt, hhdr, hempty, hopen, hread⟩ := exists_sealedResponse (σ := σ) hcrypto
    inbound.psk server.respSalt other server.sentAt
  obtain ⟨fixedCt, varCt, hfixed, hvariable, -⟩ := exists_sealedHeaders hcrypto
    (deriveSubkey crypto inbound.psk client.reqSalt) client.sentAt (length_variableHeader_nil hbuf)
  refine ⟨hdrCt, emptyCt, hopen _, fun c p hc => ?_, ?_⟩
  · obtain ⟨input, hrun, -⟩ := talks_open (buildRequestVariableHeader_eq_ok hbuf) hfixed hvariable
      (hread _ hresponse) c p hc
    exact ⟨_, hrun⟩
  · intro otherDest otherBuf ts source hotherBuf hfresh hclock
    obtain ⟨request, hrequest, hhandle⟩ := talks_handle_padded (σ := σ) hcrypto hotherBuf hfresh
      hclock (length_variableHeader_nil hotherBuf) hhdr hempty source
    refine ⟨request, hrequest, fun s q hs => ?_⟩
    obtain ⟨input, hrun, -⟩ := hhandle s q hs
    exact ⟨_, hrun, rfl, rfl⟩

theorem exists_salt_ne (salt : Octets 32) : ∃ other : Octets 32, other ≠ salt := by
  by_cases h : salt = ⟨List.replicate 32 0, rfl⟩
  · refine ⟨⟨List.replicate 32 1, rfl⟩, ?_⟩
    rw [h]
    decide
  · exact ⟨⟨List.replicate 32 0, rfl⟩, fun heq => h heq.symm⟩

/-- **Responses are not bound to requests.**  No client binds the responses that it accepts to its
request: whatever its salt is, it accepts what a server with its pre-shared key has sent in answer
to a request with another salt, for any destination. -/
theorem ss2022_response_unbound (hcrypto : crypto.Lawful) (psk : Octets 32) (client : OpenDraws)
    {dest : Address} {buf : Bytes} (hbuf : writeSocks5Address dest = .ok buf) :
    ¬ BindsRequest crypto client psk dest ∧
    ∀ (other : Octets 32) (tag : String) (server : HandleDraws) (otherDest : Address)
      (otherBuf : Bytes) (ts : UInt64) (source : SocketAddr),
      Nat.dist server.sentAt.toNat client.readAt.toNat ≤ maxTimeDiff →
      writeSocks5Address otherDest = .ok otherBuf → server.replay.lookup other = none →
      Nat.dist ts.toNat server.checkedAt ≤ maxTimeDiff →
      ∃ request response,
        sealedRequest crypto psk other ts (variableHeader otherBuf [] []) = .ok request ∧
        (∀ (s : Duplex σ) (q : Bytes), rest s.input = request ++ q →
          ∃ dispatch : Dispatch σ, Ss2022Inbound.handle crypto ⟨tag, psk⟩ server source false s =
              (.ok dispatch, dispatch.stream.inner) ∧
            dispatch.dest = otherDest ∧ dispatch.stream.inner.sent = s.sent ++ response) ∧
        ∀ (c : Duplex σ) (p : Bytes), rest c.input = response ++ p →
          ∃ connected, openSs2022Stream crypto client psk dest false c =
            (.ok connected, connected.inner) := by
  constructor
  · intro hbinds
    obtain ⟨other, hother⟩ := exists_salt_ne client.reqSalt
    obtain ⟨hdrCt, emptyCt, hopen, haccept, -⟩ := accepts_other_response (σ := Source) hcrypto
      ⟨"", psk⟩ client ⟨[], 0, 0, client.readAt, client.reqSalt⟩ hbuf other (by simp)
    obtain ⟨source, hsource⟩ := Source.exists_rest (client.reqSalt.val ++ (hdrCt.val ++ emptyCt))
    obtain ⟨connected, hrun⟩ := haccept ⟨source, []⟩ [] (by rw [hsource, append_nil])
    have hfield := hbinds ⟨source, []⟩ connected _ hrun client.reqSalt hdrCt emptyCt _ hsource hopen
    rw [requestSaltField_build] at hfield
    exact hother (Subtype.ext hfield)
  · intro other tag server otherDest otherBuf ts source hresponse hotherBuf hfresh hclock
    obtain ⟨hdrCt, emptyCt, -, haccept, hanswer⟩ := accepts_other_response (σ := σ) hcrypto
      ⟨tag, psk⟩ client server hbuf other hresponse
    obtain ⟨request, hrequest, hhandle⟩ :=
      hanswer otherDest otherBuf ts source hotherBuf hfresh hclock
    exact ⟨request, _, hrequest, hhandle, haccept⟩

def sampleResponse : Bytes :=
  let respSubkey := deriveSubkey sampleCrypto (digest 32 [1]) (digest 32 [3])
  (digest 32 [3]).val ++
    (((sampleCrypto.aes256Gcm.encrypt respSubkey (makeNonce 0) []
        (buildResponseFixedHeader 1700000000 (digest 32 [9]))).getD []) ++
      ((sampleCrypto.aes256Gcm.encrypt respSubkey (makeNonce 1) [] []).getD []))

/-- A client whose salt starts with the checksum of 2 accepts it. -/
theorem crossed_response_accepted :
    (openSs2022Stream sampleCrypto ⟨digest 32 [2], 1700000000, 1700000001⟩
      (digest 32 [1]) (.ipv4 ⟨[192, 0, 2, 1], rfl⟩ 443) false
      ⟨Source.ofSegments [⟨sampleResponse, by decide +kernel⟩], []⟩).1.toBool = true ∧
    requestSaltField (buildResponseFixedHeader 1700000000 (digest 32 [9])) ≠
      (digest 32 [2]).val := by
  decide +kernel

/-- No response is bound for one client. -/
theorem sample_response_unbound :
    ¬ BindsRequest sampleCrypto ⟨digest 32 [2], 1700000000, 1700000001⟩ (digest 32 [1])
      (.ipv4 ⟨[192, 0, 2, 1], rfl⟩ 443) :=
  (ss2022_response_unbound (σ := Source) sampleCrypto_lawful (digest 32 [1])
    ⟨digest 32 [2], 1700000000, 1700000001⟩
    rfl).1

end Blackwire.Ss2022
