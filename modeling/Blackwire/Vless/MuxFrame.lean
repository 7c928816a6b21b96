import Blackwire.Vless.AddressPort

/-!
# Mux.Cool frames

`encode_frame`, the five metadata encoders, `parse_metadata` and `parse_frame` of `vless/mux.rs`.  A
frame is a 16-bit metadata length, the metadata, and, when the option byte says so, a 16-bit payload
length and the payload.

* `Frame.roundTrips_iff_fits`: a frame is parsed back, for every suffix, exactly when the option
  byte announces the payload and the payload length fits 16 bits.
-/

namespace Blackwire.Vless

open List Bytes Except

/-! ### Metadata -/

def xudpSessionId : UInt16 := 0
def optData : UInt8 := 0x01
def maxMetaLen : ℕ := 512
def maxDataLen : ℕ := 512 * 1024

inductive SessionStatus
  | new
  | keep
  | end_
  | keepAlive
  deriving DecidableEq

def SessionStatus.toByte : SessionStatus → UInt8
  | .new => 0x01
  | .keep => 0x02
  | .end_ => 0x03
  | .keepAlive => 0x04

def SessionStatus.fromByte (b : UInt8) : Except ProxyError SessionStatus :=
  if b = 0x01 then .ok .new
  else if b = 0x02 then .ok .keep
  else if b = 0x03 then .ok .end_
  else if b = 0x04 then .ok .keepAlive
  else .error (.protocol ("mux: unknown session status " ++ hex b.toNat))

inductive TargetNetwork
  | tcp
  | udp
  deriving DecidableEq

def TargetNetwork.toByte : TargetNetwork → UInt8
  | .tcp => 0x01
  | .udp => 0x02

def TargetNetwork.fromByte (b : UInt8) : Except ProxyError TargetNetwork :=
  if b = 0x01 then .ok .tcp
  else if b = 0x02 then .ok .udp
  else .error (.protocol ("mux: unknown target network " ++ hex b.toNat))

structure FrameMetadata where
  sessionId : UInt16
  status : SessionStatus
  option : UInt8
  target : Option (TargetNetwork × Address)
  globalId : Option (Octets 8)

variable (sessionId : UInt16) (status : SessionStatus) (dest : Address) (opt : UInt8)
  {e : Bytes}

def metadataHead (opt : UInt8) : Bytes :=
  toBe 2 sessionId.toNat ++ [status.toByte, opt]

open TargetNetwork

def encodeNewMetadata (opt : UInt8) : Except ProxyError Bytes := do
  let addr ← encodeAddressPort dest
  pure (metadataHead sessionId .new opt ++ tcp.toByte :: addr)

def encodeEndMetadata : Bytes :=
  metadataHead sessionId .end_ opt

def encodeNewMetadataXudp (globalId : Octets 8) (opt : UInt8) : Except ProxyError Bytes := do
  let addr ← encodeAddressPort dest
  pure (metadataHead xudpSessionId .new opt ++ udp.toByte :: addr ++ globalId.val)

def encodeKeepMetadataUdp (opt : UInt8) : Except ProxyError Bytes := do
  let addr ← encodeAddressPort dest
  pure (metadataHead sessionId .keep opt ++ udp.toByte :: addr)

def encodeKeepMetadata : Bytes :=
  metadataHead sessionId .keep opt

def skipMuxInboundExtensions : ℕ → Bytes → Except ProxyError Bytes
  | 0, rest => .ok rest
  | _ + 1, [] => .ok []
  | n + 1, b :: rest =>
    if b = 0 then skipMuxInboundExtensions n rest
    else do
      let _network ← fromByte b
      let (_, consumed) ← decodeAddressPortWithLen rest
      skipMuxInboundExtensions n (rest.drop consumed)

def skipExtensions (network : TargetNetwork) (rest : Bytes) : Except ProxyError Bytes :=
  if network = .tcp then skipMuxInboundExtensions 2 rest else .ok rest

def parseGlobalId (network : TargetNetwork) (option : UInt8) (rest : Bytes) : Option (Octets 8) :=
  if h : network = .udp ∧ option &&& optData ≠ 0 ∧ 8 ≤ rest.length then
    some ⟨rest.take 8, by simp [h.2.2]⟩
  else none

def parseNewTarget (option : UInt8) :
    Bytes → Except ProxyError ((TargetNetwork × Address) × Option (Octets 8))
  | [] => .error (.protocol "mux: New missing target")
  | b :: rest => do
    let network ← fromByte b
    let (addr, consumed) ← decodeAddressPortWithLen rest
    let rest ← skipExtensions network (rest.drop consumed)
    pure ((network, addr), parseGlobalId network option rest)

def parseKeepTarget : Bytes → Except ProxyError (Option (TargetNetwork × Address))
  | [] => .ok none
  | b :: rest =>
    match fromByte b with
    | .ok .udp => do
      let (addr, _) ← decodeAddressPortWithLen rest
      pure (some (.udp, addr))
    | _ => .ok none

def parseMetadata : Bytes → Except ProxyError FrameMetadata
  | s₀ :: s₁ :: st :: option :: rest => do
    let sessionId := UInt16.ofNat (ofBe [s₀, s₁])
    let status ← SessionStatus.fromByte st
    match status with
    | .new => do
      let (target, globalId) ← parseNewTarget option rest
      pure { sessionId, status, option, target := some target, globalId }
    | .keep => do
      let target ← parseKeepTarget rest
      pure { sessionId, status, option, target, globalId := none }
    | _ => pure { sessionId, status, option, target := none, globalId := none }
  | _ => .error (.protocol "mux: metadata too short")

/-! ### Frames -/

def encodePayload : Option Bytes → Except ProxyError Bytes
  | none => .ok []
  | some data =>
    if data.length > maxDataLen then .error (.protocol "mux: payload too long")
    else .ok (toBe 2 data.length ++ data)

/-- `encode_frame`.  `Bytes.toBe 2` writes the length modulo `2 ^ 16`, as `as u16` does. -/
def encodeFrame (metadata : Bytes) (payload : Option Bytes) : Except ProxyError Bytes :=
  if metadata.length > maxMetaLen then .error (.protocol "mux: metadata too long")
  else do
    let data ← encodePayload payload
    pure (toBe 2 metadata.length ++ metadata ++ data)

/-- The payload part of `parse_frame`, from the end `need` of the metadata: the payload and the
bytes consumed. -/
def parsePayload (option : UInt8) (buf : Bytes) (need : ℕ) : Except ProxyError (Option Bytes × ℕ) :=
  if option &&& optData ≠ 0 then
    if buf.length < need + 2 then .error (.protocol "mux: truncated payload length")
    else
      let dataLen := ofBe ((buf.drop need).take 2)
      if dataLen > maxDataLen then
        .error (.protocol ("mux: invalid payload length " ++ toString dataLen))
      else
        let consumed := need + (2 + dataLen)
        if buf.length < consumed then .error (.protocol "mux: truncated payload")
        else .ok (some ((buf.drop (need + 2)).take dataLen), consumed)
  else .ok (none, need)

def parseFrame (buf : Bytes) : Except ProxyError (FrameMetadata × Option Bytes × ℕ) :=
  if buf.length < 2 then .error (.protocol "mux: frame too short")
  else
    let metaLen := ofBe (buf.take 2)
    if metaLen > maxMetaLen then
      .error (.protocol ("mux: invalid metadata length " ++ toString metaLen))
    else
      let need := 2 + metaLen
      if buf.length < need then .error (.protocol "mux: truncated metadata")
      else do
        let metadata ← parseMetadata ((buf.drop 2).take metaLen)
        let (payload, consumed) ← parsePayload metadata.option buf need
        pure (metadata, payload, consumed)

/-! ### The frames that the code can encode -/

inductive FrameKind
  | newTcp (sessionId : UInt16) (dest : Address)
  | newXudp (dest : Address) (globalId : Octets 8)
  | keep (sessionId : UInt16)
  | keepUdp (sessionId : UInt16) (dest : Address)
  | end_ (sessionId : UInt16)

def FrameKind.encode : FrameKind → Except ProxyError Bytes
  | .newTcp sessionId dest => encodeNewMetadata sessionId dest opt
  | .newXudp dest globalId => encodeNewMetadataXudp dest globalId opt
  | .keep sessionId => .ok (encodeKeepMetadata sessionId opt)
  | .keepUdp sessionId dest => encodeKeepMetadataUdp sessionId dest opt
  | .end_ sessionId => .ok (encodeEndMetadata sessionId opt)

def FrameKind.metadata : FrameKind → FrameMetadata
  | .newTcp sessionId dest => ⟨sessionId, .new, opt, some (.tcp, dest), none⟩
  | .newXudp dest globalId =>
    ⟨xudpSessionId, .new, opt, some (.udp, dest),
      if opt &&& optData ≠ 0 then some globalId else none⟩
  | .keep sessionId => ⟨sessionId, .keep, opt, none, none⟩
  | .keepUdp sessionId dest => ⟨sessionId, .keep, opt, some (.udp, dest), none⟩
  | .end_ sessionId => ⟨sessionId, .end_, opt, none, none⟩

structure Frame where
  kind : FrameKind
  opt : UInt8
  payload : Option Bytes

variable {frame : Frame}

def Frame.encode (frame : Frame) : Except ProxyError Bytes := do
  let metadata ← frame.kind.encode frame.opt
  encodeFrame metadata frame.payload

/-! ### Parsing back the metadata -/

theorem fromByte_toByte : SessionStatus.fromByte status.toByte = .ok status := by
  cases status <;> rfl

theorem parseMetadata_head (opt : UInt8) (rest : Bytes) :
    parseMetadata (metadataHead sessionId status opt ++ rest) =
      match status with
      | .new => (parseNewTarget opt rest).map fun (target, globalId) =>
          ⟨sessionId, .new, opt, some target, globalId⟩
      | .keep => (parseKeepTarget rest).map fun target => ⟨sessionId, .keep, opt, target, none⟩
      | status => .ok ⟨sessionId, status, opt, none, none⟩ := by
  have hid : UInt16.ofNat (ofBe (toBe 2 sessionId.toNat)) = sessionId := by rw [ofNat_ofBe_toBe_two]
  rw [toBe_two] at hid
  simp only [metadataHead, toBe_two, cons_append, nil_append, parseMetadata, fromByte_toByte, hid]
  cases status with
  | new => cases parseNewTarget opt rest <;> rfl
  | keep => cases parseKeepTarget rest <;> rfl
  | end_ => rfl
  | keepAlive => rfl

theorem parseNewTarget_append {dest : Address} {addr tail rest : Bytes} {network : TargetNetwork}
    (hskip : skipExtensions network tail = .ok rest) (h : encodeAddressPort dest = .ok addr)
    (opt : UInt8) :
    parseNewTarget opt (network.toByte :: addr ++ tail) =
      .ok ((network, dest), parseGlobalId network opt rest) := by
  have hnet : fromByte network.toByte = .ok network := by cases network <;> rfl
  rw [cons_append, parseNewTarget, hnet]
  rw [decodeAddressPortWithLen_append h]
  show (skipExtensions network ((addr ++ tail).drop addr.length) >>= _) = _
  rw [drop_left, hskip]
  rfl

theorem parseGlobalId_udp (globalId : Octets 8) :
    parseGlobalId .udp opt globalId.val = if opt &&& optData ≠ 0 then some globalId else none := by
  obtain ⟨globalId, hlen⟩ := globalId
  by_cases hopt : opt &&& optData = 0
  · simp [parseGlobalId, hopt]
  · have htake : globalId.take 8 = globalId := take_of_length_le (by omega)
    simp [parseGlobalId, hopt, hlen, htake]

theorem parseMetadata_encode {kind : FrameKind} {opt : UInt8} {metadata : Bytes}
    (h : kind.encode opt = .ok metadata) : parseMetadata metadata = .ok (kind.metadata opt) := by
  cases kind with
  | newTcp sessionId dest =>
    obtain ⟨addr, haddr, h⟩ := bind_eq_ok.1 h
    obtain rfl := ok.inj h
    have hskip : skipExtensions .tcp [] = .ok [] := rfl
    have htarget := parseNewTarget_append hskip haddr opt
    rw [append_nil] at htarget
    rw [parseMetadata_head, htarget]
    rfl
  | newXudp dest globalId =>
    obtain ⟨addr, haddr, h⟩ := bind_eq_ok.1 h
    obtain rfl := ok.inj h
    have hskip : skipExtensions .udp globalId.val = .ok globalId.val := rfl
    rw [append_assoc, parseMetadata_head, parseNewTarget_append hskip haddr, parseGlobalId_udp]
    rfl
  | keep sessionId =>
    obtain rfl := ok.inj h
    exact parseMetadata_head sessionId .keep opt []
  | keepUdp sessionId dest =>
    obtain ⟨addr, haddr, h⟩ := bind_eq_ok.1 h
    obtain rfl := ok.inj h
    have hdecode := decodeAddressPortWithLen_append haddr []
    rw [append_nil] at hdecode
    have htarget :
        parseKeepTarget (udp.toByte :: addr) = .ok (some (.udp, dest)) := by
      show (decodeAddressPortWithLen addr >>= _) = _
      rw [hdecode]
      rfl
    rw [parseMetadata_head, htarget]
    rfl
  | end_ sessionId =>
    obtain rfl := ok.inj h
    exact parseMetadata_head sessionId .end_ opt []

/-! ### Parsing back a frame -/

theorem parseFrame_append {metadata tail : Bytes} {m : FrameMetadata}
    (hm : parseMetadata metadata = .ok m) (hlen : metadata.length ≤ maxMetaLen) :
    parseFrame (toBe 2 metadata.length ++ metadata ++ tail) =
      (parsePayload m.option (toBe 2 metadata.length ++ metadata ++ tail)
        (2 + metadata.length)).map fun (payload, consumed) => (m, payload, consumed) := by
  set buf := toBe 2 metadata.length ++ metadata ++ tail with hbuf
  have hlength : buf.length = 2 + metadata.length + tail.length := by
    simp only [hbuf, length_append, length_toBe]
  have hmeta : ofBe (buf.take 2) = metadata.length := by
    rw [hbuf, append_assoc, take_left' (length_toBe 2 _), ofBe_toBe]
    have : maxMetaLen < 256 ^ 2 := by decide
    omega
  have hbody : (buf.drop 2).take metadata.length = metadata := by
    rw [hbuf, append_assoc, drop_left' (length_toBe 2 _), take_left]
  rw [parseFrame, if_neg (by omega)]
  simp only [hmeta, hbody, hm]
  rw [if_neg (by omega), if_neg (by omega)]
  show (parsePayload m.option buf (2 + metadata.length) >>= _) = _
  cases parsePayload m.option buf (2 + metadata.length) <;> rfl

theorem parsePayload_append {option : UInt8} (h : option &&& optData ≠ 0) (front data tail : Bytes)
    {need : ℕ} (hneed : front.length = need) :
    parsePayload option (front ++ (toBe 2 data.length ++ data) ++ tail) need =
      .ok (some (data.take (data.length % 65536)), need + (2 + data.length % 65536)) := by
  subst hneed
  set buf := front ++ (toBe 2 data.length ++ data) ++ tail with hbuf
  have hlength : buf.length = front.length + (2 + data.length) + tail.length := by
    simp only [hbuf, length_append, length_toBe]
  have hdrop : buf.drop front.length = toBe 2 data.length ++ (data ++ tail) := by
    rw [hbuf, append_assoc, drop_left, append_assoc]
  have hlen : ofBe ((buf.drop front.length).take 2) = data.length % 65536 := by
    rw [hdrop, take_left' (length_toBe 2 _), ofBe_toBe_mod]
    norm_num
  have hmod : data.length % 65536 ≤ data.length := Nat.mod_le _ _
  have hmax : data.length % 65536 ≤ maxDataLen := by
    have : 65536 ≤ maxDataLen := by decide
    omega
  have hdata : (buf.drop (front.length + 2)).take (data.length % 65536) =
      data.take (data.length % 65536) := by
    rw [← drop_drop, hdrop, drop_left' (length_toBe 2 _), take_append_of_le_length hmod]
  rw [parsePayload, if_pos h, if_neg (by omega)]
  simp only [hlen, hdata]
  rw [if_neg (by omega), if_neg (by omega)]

theorem Frame.encode_eq_ok (h : frame.encode = .ok e) :
    ∃ metadata data, parseMetadata metadata = .ok (frame.kind.metadata frame.opt) ∧
      metadata.length ≤ maxMetaLen ∧ encodePayload frame.payload = .ok data ∧
      e = toBe 2 metadata.length ++ metadata ++ data := by
  obtain ⟨metadata, hmeta, h⟩ := bind_eq_ok.1 h
  unfold encodeFrame at h
  split_ifs at h with hlen
  obtain ⟨data, hdata, h⟩ := bind_eq_ok.1 h
  exact ⟨metadata, data, parseMetadata_encode hmeta, by omega, hdata, (ok.inj h).symm⟩

open Frame hiding payload

theorem FrameKind.metadata_option (kind : FrameKind) (opt : UInt8) :
    (kind.metadata opt).option = opt := by
  cases kind <;> rfl

section

variable (h : frame.encode = .ok e)
include h

theorem parseFrame_encode_of_unset (hopt : frame.opt &&& optData = 0) (suffix : Bytes) :
    ∃ n, parseFrame (e ++ suffix) = .ok (frame.kind.metadata frame.opt, none, n) ∧
      (frame.payload = none → n = e.length) := by
  obtain ⟨metadata, data, hm, hlen, hdata, rfl⟩ := encode_eq_ok h
  refine ⟨2 + metadata.length, ?_, ?_⟩
  · rw [append_assoc, parseFrame_append hm hlen, FrameKind.metadata_option, parsePayload,
      if_neg (by simpa using hopt)]
    rfl
  · intro hnone
    rw [hnone] at hdata
    obtain rfl := ok.inj hdata
    simp [length_toBe]

theorem parseFrame_encode_of_set {data : Bytes}
    (hopt : frame.opt &&& optData ≠ 0) (hdata : frame.payload = some data) :
    ∃ n, e.length = n + data.length ∧ ∀ suffix, parseFrame (e ++ suffix) =
      .ok (frame.kind.metadata frame.opt, some (data.take (data.length % 65536)),
        n + data.length % 65536) := by
  obtain ⟨metadata, wire, hm, hlen, hwire, rfl⟩ := encode_eq_ok h
  rw [hdata, encodePayload] at hwire
  split_ifs at hwire
  obtain rfl := ok.inj hwire
  have hfront : (toBe 2 metadata.length ++ metadata).length = 2 + metadata.length := by
    rw [length_append, length_toBe]
  refine ⟨2 + metadata.length + 2, ?_, ?_⟩
  · simp only [length_append, length_toBe]
    omega
  · intro suffix
    have hpayload := parsePayload_append hopt (toBe 2 metadata.length ++ metadata) data suffix
      hfront
    rw [append_assoc] at hpayload
    rw [append_assoc, parseFrame_append hm hlen, FrameKind.metadata_option, hpayload,
      ← Nat.add_assoc]
    rfl

theorem parseFrame_encode_of_missing (hopt : frame.opt &&& optData ≠ 0)
    (hnone : frame.payload = none) :
    parseFrame e = .error (.protocol "mux: truncated payload length") := by
  obtain ⟨metadata, wire, hm, hlen, hwire, rfl⟩ := encode_eq_ok h
  rw [hnone] at hwire
  obtain rfl := ok.inj hwire
  rw [parseFrame_append hm hlen, FrameKind.metadata_option, parsePayload, if_pos hopt, if_pos]
  · rfl
  · simp only [append_nil, length_append, length_toBe]
    omega

end

/-! ### Round trip -/

/-- Whatever follows, the frame is parsed back. -/
def Frame.RoundTrips (frame : Frame) (e : Bytes) : Prop :=
  ∀ suffix, parseFrame (e ++ suffix) =
    .ok (frame.kind.metadata frame.opt, frame.payload, e.length)

/-- The option byte announces the payload, and the length of the payload fits its field. -/
structure Frame.Fits (frame : Frame) : Prop where
  announced : frame.opt &&& optData ≠ 0 ↔ frame.payload.isSome
  short : ∀ data, frame.payload = some data → data.length ≤ 65535

theorem Frame.roundTrips_iff_fits (h : frame.encode = .ok e) : frame.RoundTrips e ↔ frame.Fits := by
  constructor
  · intro hrt
    have hnil := hrt []
    rw [append_nil] at hnil
    by_cases hopt : frame.opt &&& optData = 0
    · obtain ⟨n, hparse, -⟩ := parseFrame_encode_of_unset h hopt []
      rw [append_nil, hnil] at hparse
      have hnone : frame.payload = none := by
        simp only [ok.injEq, Prod.mk.injEq] at hparse
        exact hparse.2.1
      exact ⟨by simp [hopt, hnone], by simp [hnone]⟩
    · cases hdata : frame.payload with
      | none =>
        rw [parseFrame_encode_of_missing h hopt hdata] at hnil
        cases hnil
      | some data =>
        obtain ⟨n, -, hparse⟩ := parseFrame_encode_of_set h hopt hdata
        replace hparse := hparse []
        rw [append_nil, hnil, hdata] at hparse
        have htake : data = data.take (data.length % 65536) := by
          simp only [ok.injEq, Prod.mk.injEq, Option.some.injEq] at hparse
          exact hparse.2.1
        refine ⟨by simp [hopt, hdata], ?_⟩
        rintro data' hdata'
        obtain rfl : data = data' := Option.some.inj (hdata.symm.trans hdata')
        have hlen := congrArg List.length htake
        rw [length_take] at hlen
        omega
  · rintro ⟨hann, hshort⟩ suffix
    by_cases hopt : frame.opt &&& optData = 0
    · have hnone : frame.payload = none := by simpa [hopt] using hann
      obtain ⟨n, hparse, hn⟩ := parseFrame_encode_of_unset h hopt suffix
      rw [hparse, hn hnone, hnone]
    · obtain ⟨data, hdata⟩ := Option.isSome_iff_exists.1 (hann.1 hopt)
      have hle := hshort data hdata
      have hmod : data.length % 65536 = data.length := Nat.mod_eq_of_lt (by omega)
      obtain ⟨n, hn, hparse⟩ := parseFrame_encode_of_set h hopt hdata
      rw [hparse, hmod, take_length, hdata, hn]

def parseFramesAux : ℕ → Bytes → Except ProxyError (List (FrameMetadata × Option Bytes))
  | 0, _ => .ok []
  | _ + 1, [] => .ok []
  | fuel + 1, buf => do
    let (metadata, payload, consumed) ← parseFrame buf
    let frames ← parseFramesAux fuel (buf.drop consumed)
    pure ((metadata, payload) :: frames)

def parseFrames (buf : Bytes) : Except ProxyError (List (FrameMetadata × Option Bytes)) :=
  parseFramesAux buf.length buf

theorem Frame.encode_pos (h : frame.encode = .ok e) : 0 < e.length := by
  obtain ⟨metadata, data, -, -, -, rfl⟩ := encode_eq_ok h
  simp only [length_append, length_toBe]
  omega

theorem parseFramesAux_flatten {frames : List Frame} {es : List Bytes}
    (h : List.Forall₂ (fun frame e => frame.encode = .ok e ∧ frame.RoundTrips e) frames es)
    {fuel : ℕ} (hf : es.flatten.length ≤ fuel) :
    parseFramesAux fuel es.flatten =
      .ok (frames.map fun frame => (frame.kind.metadata frame.opt, frame.payload)) := by
  induction h generalizing fuel with
  | nil => cases fuel <;> rfl
  | @cons frame e frames es hframe _ ih =>
    obtain ⟨henc, hrt⟩ := hframe
    have hpos := encode_pos henc
    rw [flatten_cons] at hf ⊢
    rw [length_append] at hf
    obtain ⟨fuel, rfl⟩ : ∃ k, fuel = k + 1 := ⟨fuel - 1, by omega⟩
    rw [parseFramesAux, hrt]
    · show (parseFramesAux fuel ((e ++ es.flatten).drop e.length) >>= _) = _
      rw [drop_left, ih (by omega)]
      rfl
    · intro hnil
      rw [append_eq_nil_iff] at hnil
      simp [hnil.1] at hpos

theorem parseFrames_flatten {frames : List Frame} {es : List Bytes}
    (h : List.Forall₂ (fun frame e => frame.encode = .ok e) frames es)
    (hfits : ∀ frame ∈ frames, frame.Fits) :
    parseFrames es.flatten =
      .ok (frames.map fun frame => (frame.kind.metadata frame.opt, frame.payload)) := by
  refine parseFramesAux_flatten ?_ le_rfl
  induction h with
  | nil => exact .nil
  | cons henc _ ih =>
    refine .cons ⟨henc, (roundTrips_iff_fits henc).2 (hfits _ mem_cons_self)⟩ ?_
    exact ih fun frame hmem => hfits frame (mem_cons_of_mem _ hmem)

/-- **Round trip of mux frames.**  A frame that `encode_frame` builds is parsed back, whatever
follows it, exactly when its option byte announces its payload and the payload has at most 65535
bytes; and a buffer that holds it and more such frames is parsed back to the list of them. -/
theorem parse_encode_frames {frame : Frame} {e : Bytes} (h : frame.encode = .ok e) :
    (frame.RoundTrips e ↔ frame.Fits) ∧
    ∀ (frames : List Frame) (es : List Bytes),
      List.Forall₂ (fun frame e => frame.encode = .ok e) frames es →
      (∀ f ∈ frame :: frames, f.Fits) →
      parseFrames (e ++ es.flatten) =
        .ok ((frame :: frames).map fun f => (f.kind.metadata f.opt, f.payload)) :=
  ⟨roundTrips_iff_fits h, fun _ _ hes hfits => parseFrames_flatten (.cons h hes) hfits⟩

/-- A data frame of session 7 and the end of the session. -/
theorem parse_encode_shortFrames :
    (mk (.keep 7) optData (some [1, 2, 3])).encode =
      .ok [0, 4, 0, 7, 2, 1, 0, 3, 1, 2, 3] ∧
    parseFrames [0, 4, 0, 7, 2, 1, 0, 3, 1, 2, 3, 0, 4, 0, 7, 3, 0] =
      .ok [(⟨7, .keep, optData, none, none⟩, some [1, 2, 3]),
        (⟨7, .end_, 0, none, none⟩, none)] := by
  have hkeep : (mk (.keep 7) optData (some [1, 2, 3])).encode =
      .ok [0, 4, 0, 7, 2, 1, 0, 3, 1, 2, 3] := by decide
  refine ⟨hkeep, (parse_encode_frames hkeep).2 [⟨.end_ 7, 0, none⟩] [[0, 4, 0, 7, 3, 0]]
    (.cons (by decide) .nil) ?_⟩
  intro frame hmem
  simp only [mem_cons, not_mem_nil, or_false] at hmem
  rcases hmem with rfl | rfl
  · exact ⟨by decide, by simp⟩
  · exact ⟨by decide, by simp⟩

def dataFrame (data : Bytes) : Frame := ⟨.keep 7, optData, some data⟩

theorem dataFrame_cut {data : Bytes} (hdata : data.length = 65536) :
    ∃ e, (dataFrame data).encode = .ok e ∧ e.length = 65544 ∧ ¬ (dataFrame data).RoundTrips e ∧
      parseFrame e = .ok (⟨7, .keep, optData, none, none⟩, some [], 8) := by
  have henc : (dataFrame data).encode = .ok ([0, 4, 0, 7, 2, 1] ++ ([0, 0] ++ data)) := by
    have hfront : toBe 2 (encodeKeepMetadata 7 optData).length ++
        encodeKeepMetadata 7 optData = [0, 4, 0, 7, 2, 1] := by decide
    show (encodePayload (some data) >>= _) = _
    rw [encodePayload, hdata, ← hfront]
    rfl
  have hlen : ([0, 4, 0, 7, 2, 1] ++ ([0, 0] ++ data)).length = 65544 := by simp [hdata]
  refine ⟨_, henc, hlen, ?_, ?_⟩
  · rw [roundTrips_iff_fits henc]
    intro hfits
    have hshort := hfits.short data rfl
    omega
  · have hopt : (dataFrame data).opt &&& optData ≠ 0 := by
      show optData &&& optData ≠ 0
      decide
    obtain ⟨n, hn, hparse⟩ := parseFrame_encode_of_set henc hopt rfl
    obtain rfl : n = 8 := by omega
    have hnil := hparse []
    rw [append_nil, hdata] at hnil
    exact hnil

/-- `encode_frame` accepts a payload of 64 KiB and writes it behind a length field of zero: the
parser returns an empty payload and takes the next 65536 bytes for frames. -/
theorem parse_encode_longFrame :
    ∃ e, (dataFrame (List.replicate 65536 0)).encode = .ok e ∧ e.length = 65544 ∧
      ¬ (dataFrame (List.replicate 65536 0)).RoundTrips e ∧
      parseFrame e = .ok (⟨7, .keep, optData, none, none⟩, some [], 8) :=
  dataFrame_cut length_replicate

end Blackwire.Vless
