import Blackwire.Lib.Segments
import Blackwire.Udp.Exchange
import Blackwire.Vless.AddressPort

/-!
# VLESS UDP packets

`vless/udp.rs`.  A packet on the stream is the length of an address section, the section, and the
payload.

* `recvUdpPackets_eq_iff`: the loop recovers the packets exactly when the reads are aligned.
-/

namespace Blackwire.Vless

open AsyncIO ReadM Udp List Bytes Source

def decodeAddressPort (data : Bytes) : Except ProxyError Address := do
  let (addr, _) ← decodeAddressPortWithLen data
  pure addr

section
variable {σ : Type} [AsyncRead σ]

def readUdpHeader : ReadM σ ProxyError Address := do
  let addrLen ← readU16
  if addrLen.toNat = 0 ∨ addrLen.toNat > 512 then
    fail (.protocol ("invalid VLESS UDP address length " ++ toString addrLen.toNat))
  else do
    let addrBuf ← readVec addrLen.toNat
    ofExcept (decodeAddressPort addrBuf)

def payloadBufferLen : ℕ := 65507

def readUdpPayload : ReadM σ ProxyError Bytes := fun _ s =>
  match readSome true payloadBufferLen s with
  | (.ok payload, s) => (.ok payload, s)
  | (.error .elapsed, s) => (.error (.protocol "VLESS UDP payload read timeout"), s)
  | (.error e, s) => (.error (.transport (ioErrorText e)), s)

end

def writeUdpPacket (dest : Address) (payload : Bytes) : Except ProxyError Bytes := do
  let addrBytes ← encodeAddressPort dest
  if addrBytes.length > 65535 then .error (.protocol "VLESS UDP address too long")
  else pure (toBe 2 addrBytes.length ++ addrBytes ++ payload)

/-! ### The receiving loop -/

variable {σ : Type} [AsyncRead σ] {segs : List Segment}

def recvUdpPackets : ℕ → σ → List Request
  | 0, _ => []
  | fuel + 1, client =>
    match readUdpHeader false client with
    | (.error _, _) => []
    | (.ok dest, client) =>
      match readUdpPayload false client with
      | (.error _, _) => []
      | (.ok payload, client) => (dest, payload) :: recvUdpPackets fuel client

/-! ### Packets and reads -/

structure UdpPacket where
  dest : Address
  payload : Bytes
  bytes : Bytes
  written : writeUdpPacket dest payload = .ok bytes
  bounded : payload.length ≤ payloadBufferLen

variable (p : UdpPacket) {ps : List UdpPacket}

namespace UdpPacket

def request (p : UdpPacket) : Request := (p.dest, p.payload)

def headerLen (p : UdpPacket) : ℕ := p.bytes.length - p.payload.length

def stream (packets : List UdpPacket) : Bytes := packets.flatMap bytes

theorem stream_cons (ps : List UdpPacket) : stream (p :: ps) = p.bytes ++ stream ps :=
  flatMap_cons

end UdpPacket

/-- The reads, which end at the `boundaries`, keep the payload that begins at `start` whole: none
ends inside it, and one ends with it, or it fills the buffer.  Behind an empty payload nothing may
follow, since only the end of the stream reads as an empty payload. -/
structure Intact (boundaries : List ℕ) (start : ℕ) (payload : Bytes) (rest : List UdpPacket) :
    Prop where
  whole : ∀ b ∈ boundaries, start < b → start + payload.length ≤ b
  ended : payload ≠ [] → start + payload.length ∈ boundaries ∨ payload.length = payloadBufferLen
  last : payload = [] → rest = []

/-- The reads keep every payload whole. -/
def Aligned (boundaries : List ℕ) : ℕ → List UdpPacket → Prop
  | _, [] => True
  | offset, p :: ps =>
    Intact boundaries (offset + p.headerLen) p.payload ps ∧
      Aligned boundaries (offset + p.bytes.length) ps

/-! ### The header -/

theorem length_encodeAddressPort {dest : Address} {addr : Bytes}
    (h : encodeAddressPort dest = .ok addr) : 0 < addr.length ∧ addr.length ≤ 512 := by
  cases dest with
  | ipv4 ip port | ipv6 ip port =>
    obtain rfl := Except.ok.inj h
    simp [length_toBe, ip.property]
  | domain name port =>
    obtain ⟨len, hlen, h⟩ := bind_eq_ok.1 h
    obtain rfl := Except.ok.inj h
    have hname := (domainWireLen_eq_ok hlen).2
    simp only [length_append, length_cons, length_toBe]
    omega

theorem UdpPacket.exists_header :
    ∃ addr, encodeAddressPort p.dest = .ok addr ∧
      p.bytes = toBe 2 addr.length ++ addr ++ p.payload := by
  obtain ⟨addr, haddr, h⟩ := bind_eq_ok.1 p.written
  split_ifs at h
  exact ⟨addr, haddr, (Except.ok.inj h).symm⟩

theorem decodes_readUdpHeader {dest : Address} {addr : Bytes}
    (h : encodeAddressPort dest = .ok addr) :
    Decodes (readUdpHeader (σ := σ)) (toBe 2 addr.length ++ addr) dest := by
  obtain ⟨hpos, hle⟩ := length_encodeAddressPort h
  have hlen : (UInt16.ofNat addr.length).toNat = addr.length := by
    rw [UInt16.toNat_ofNat']
    omega
  have hfirst := decodes_readU16 (σ := σ) (ε := ProxyError) (UInt16.ofNat addr.length)
  rw [hlen] at hfirst
  refine hfirst.bind ?_
  rw [hlen, if_neg (by omega)]
  refine (decodes_readVec rfl).bind_nil (Decodes.ofExcept ?_)
  have hdecode := decodeAddressPortWithLen_append h []
  rw [append_nil] at hdecode
  rw [decodeAddressPort, hdecode]
  rfl

theorem preserves_readUdpHeader {P : σ → Prop}
    (hpoll : ∀ n s, P s → P (AsyncRead.pollRead n s).2) : Preserves P (readUdpHeader (σ := σ)) := by
  refine (preserves_readU16 hpoll).bind fun addrLen => ?_
  split_ifs
  · exact .fail _
  · exact (preserves_readVec hpoll _).bind fun _ => .ofExcept _

theorem fails_readUdpHeader : Fails (readUdpHeader (σ := σ)) [] := (fails_readU16 (by simp)).bind _

/-! ### The payload -/

theorem readUdpPayload_eq {s : Source} (hpatient : s.Patient) :
    ∃ s', readUdpPayload false s = (.ok (firstRead payloadBufferLen s.segments), s') ∧
      s'.Patient ∧
      s'.segments =
        skip (firstRead payloadBufferLen s.segments).length s.segments := by
  obtain ⟨s', hread, hpatient', hsegments⟩ := readSome_eq true payloadBufferLen fun _ => hpatient
  refine ⟨s', ?_, hpatient' hpatient, hsegments⟩
  rw [readUdpPayload, hread]

theorem UdpPacket.bytes_ne_nil : p.bytes ≠ [] := by
  obtain ⟨addr, haddr, hbytes⟩ := p.exists_header
  have hpos := (length_encodeAddressPort haddr).1
  refine ne_nil_of_length_pos ?_
  rw [hbytes, length_append, length_append]
  omega

theorem UdpPacket.stream_eq_nil_iff : stream ps = [] ↔ ps = [] := by
  cases ps with
  | nil => exact iff_of_true rfl rfl
  | cons p ps =>
    refine iff_of_false ?_ (cons_ne_nil p ps)
    exact append_ne_nil_of_left_ne_nil p.bytes_ne_nil _

theorem firstRead_eq_nil_iff : firstRead payloadBufferLen segs = [] ↔ bytesOf segs = [] := by
  rw [bytesOf_eq_nil_iff]
  cases segs with
  | nil => exact iff_of_true rfl rfl
  | cons seg segs =>
    refine iff_of_false ?_ (cons_ne_nil seg segs)
    show seg.val.take payloadBufferLen ≠ []
    simp [payloadBufferLen, seg.property]

open UdpPacket

theorem firstRead_eq_payload_iff (h : bytesOf segs = p.payload ++ stream ps) :
    firstRead payloadBufferLen segs = p.payload ↔
      Intact (boundaries segs) 0 p.payload ps := by
  by_cases hnil : p.payload = []
  · rw [hnil] at h ⊢
    rw [firstRead_eq_nil_iff, h, nil_append, stream_eq_nil_iff]
    constructor
    · rintro rfl
      exact ⟨fun _ _ _ => Nat.zero_le _, fun hne => absurd rfl hne, fun _ => rfl⟩
    · intro hintact
      exact hintact.last rfl
  · rw [firstRead_eq_iff h hnil p.bounded]
    constructor
    · rintro ⟨hwhole, hended⟩
      refine ⟨?_, fun _ => ?_, fun hpayload => absurd hpayload hnil⟩
      · rwa [Nat.zero_add]
      · rwa [Nat.zero_add]
    · rintro ⟨hwhole, hended, -⟩
      rw [Nat.zero_add] at hwhole hended
      exact ⟨hwhole, hended hnil⟩

/-! ### Offsets -/

theorem intact_skip_iff {k start : ℕ} {payload : Bytes} :
    Intact (boundaries (skip k segs)) start payload ps ↔
      Intact (boundaries segs) (k + start) payload ps := by
  have hended : payload ≠ [] → (start + payload.length ∈ boundaries (skip k segs) ↔
      k + start + payload.length ∈ boundaries segs) := by
    intro hne
    have hpos := length_pos_iff.2 hne
    rw [mem_boundaries_skip (by omega), Nat.add_assoc]
  constructor
  · intro h
    refine ⟨fun b hb hlt => ?_, fun hne => ?_, h.last⟩
    · obtain ⟨m, rfl⟩ : ∃ m, b = k + m := ⟨b - k, by omega⟩
      have hm := h.whole m ((mem_boundaries_skip (by omega)).2 hb) (by omega)
      omega
    · rw [← hended hne]
      exact h.ended hne
  · intro h
    refine ⟨fun b hb hlt => ?_, fun hne => ?_, h.last⟩
    · have hm := h.whole (k + b) ((mem_boundaries_skip (by omega)).1 hb) (by omega)
      omega
    · rw [hended hne]
      exact h.ended hne

theorem aligned_skip_iff {k offset : ℕ} :
    Aligned (boundaries (skip k segs)) offset ps ↔
      Aligned (boundaries segs) (k + offset) ps := by
  induction ps generalizing offset with
  | nil => exact Iff.rfl
  | cons p ps ih => rw [Aligned, Aligned, intact_skip_iff, ih, Nat.add_assoc, Nat.add_assoc]

/-! ### The receiver -/

theorem UdpPacket.length_le_stream (ps : List UdpPacket) : ps.length ≤ (stream ps).length :=
  length_le_flatMap bytes_ne_nil ps

theorem recvUdpPackets_eq_iff {packets : List UdpPacket} {s : Source} (hpatient : s.Patient)
    (hs : s.contents = UdpPacket.stream packets) {fuel : ℕ} (hfuel : packets.length < fuel) :
    recvUdpPackets fuel s = packets.map UdpPacket.request ↔
      Aligned (boundaries s.segments) 0 packets := by
  induction packets generalizing s fuel with
  | nil =>
    obtain ⟨fuel, rfl⟩ : ∃ n, fuel = n + 1 := ⟨fuel - 1, by omega⟩
    obtain ⟨e, s', hrun⟩ := fails_readUdpHeader s hs
    refine iff_of_true ?_ trivial
    rw [recvUdpPackets, hrun]
    rfl
  | cons p ps ih =>
    obtain ⟨fuel, rfl⟩ : ∃ n, fuel = n + 1 := ⟨fuel - 1, by omega⟩
    obtain ⟨addr, haddr, hbytes⟩ := p.exists_header
    have hheader : p.headerLen = (toBe 2 addr.length ++ addr).length := by
      rw [UdpPacket.headerLen, hbytes, length_append, Nat.add_sub_cancel]
    have hlen : p.bytes.length = p.headerLen + p.payload.length := by
      rw [hheader, hbytes, length_append]
    rw [UdpPacket.stream_cons, hbytes, append_assoc] at hs
    -- the header is read in full however it is segmented, the payload with a single read
    obtain ⟨s₁, hread, hpatient₁, hcontents₁, hsegments₁⟩ :=
      segments_of_decodes (decodes_readUdpHeader haddr)
        (fun segs => preserves_readUdpHeader fun n _ h => Source.Within.pollRead n h) hpatient hs
    rw [← hheader] at hsegments₁
    obtain ⟨s₂, hpayload, hpatient₂, hsegments₂⟩ := readUdpPayload_eq hpatient₁
    have hfirst : firstRead payloadBufferLen s₁.segments = p.payload ↔
        Intact (boundaries s.segments) (0 + p.headerLen) p.payload ps := by
      rw [firstRead_eq_payload_iff p (by rw [← contents_eq_bytesOf, hcontents₁]),
        hsegments₁, intact_skip_iff, Nat.add_comm]
    rw [recvUdpPackets, hread]
    dsimp only
    rw [hpayload, map_cons, List.cons.injEq, Aligned, ← hfirst]
    rw [UdpPacket.request, Prod.mk.injEq, and_iff_right rfl, and_congr_right_iff]
    intro hwhole
    -- the payload was delivered whole, so the receiver is at the beginning of the next packet
    rw [hwhole, hsegments₁, skip_skip, ← hlen] at hsegments₂
    have hcontents₂ : s₂.contents = UdpPacket.stream ps := by
      rw [contents_eq_bytesOf, hsegments₂, bytesOf_skip, ← contents_eq_bytesOf,
        hs, ← append_assoc, ← hbytes, drop_left]
    rw [ih hpatient₂ hcontents₂ (by simpa using hfuel), hsegments₂, aligned_skip_iff, Nat.add_comm]

/-- **Packets on a stream.**  Of a stream that consists of the bytes of packets, and that never
keeps the receiver waiting for too long, the receiver recovers the packets exactly when the reads
are aligned with them. -/
theorem vlessUdp_recovered_iff (packets : List UdpPacket) (source : Source)
    (hpatient : source.Patient) (hsource : source.contents = stream packets) :
    recvUdpPackets (source.contents.length + 1) source = packets.map request ↔
      Aligned (boundaries source.segments) 0 packets := by
  refine recvUdpPackets_eq_iff hpatient hsource ?_
  rw [hsource]
  exact Nat.lt_succ_of_le (length_le_stream packets)

def samplePacket : UdpPacket :=
  ⟨.ipv4 firstServer 53, [1, 2], [0, 7, 0, 53, 1, 8, 8, 8, 8, 1, 2], by decide, by decide⟩

def otherPacket : UdpPacket :=
  ⟨.ipv4 secondServer 53, [3], [0, 7, 0, 53, 1, 1, 1, 1, 1, 3], by decide, by decide⟩

def alignedSource : Source :=
  [.data ⟨[0, 7, 0, 53, 1, 8, 8, 8, 8, 1, 2], by decide⟩, .pending false,
    .data ⟨[0, 7, 0, 53, 1, 1, 1, 1, 1], by decide⟩, .data ⟨[3], by decide⟩]

theorem alignedSource_recovered :
    recvUdpPackets (alignedSource.contents.length + 1) alignedSource =
      [(.ipv4 ⟨[8, 8, 8, 8], rfl⟩ 53, [1, 2]), (.ipv4 ⟨[1, 1, 1, 1], rfl⟩ 53, [3])] :=
  (vlessUdp_recovered_iff [samplePacket, otherPacket] alignedSource
    (by unfold Source.Patient; decide) (by decide)).2
    ⟨⟨by decide, fun _ => .inl (by decide), fun h => by cases h⟩,
      ⟨by decide, fun _ => .inl (by decide), fun h => by cases h⟩, trivial⟩

def coalescedSource : Source :=
  [.data ⟨[0, 7, 0, 53, 1, 8, 8, 8, 8, 1, 2, 0, 7, 0, 53, 1, 1, 1, 1, 1, 3], by decide⟩]

def fragmentedSource : Source :=
  [.data ⟨[0, 7, 0, 53, 1, 8, 8, 8, 8, 1], by decide⟩, .data ⟨[2], by decide⟩]

/-- Two packets that arrive together are taken for one, with the second packet at the end of its
payload; of one that arrives in two reads the end is lost. -/
theorem packets_not_recovered :
    coalescedSource.contents = stream [samplePacket, otherPacket] ∧
    recvUdpPackets (coalescedSource.contents.length + 1) coalescedSource =
      [(.ipv4 ⟨[8, 8, 8, 8], rfl⟩ 53, [1, 2, 0, 7, 0, 53, 1, 1, 1, 1, 1, 3])] ∧
    fragmentedSource.contents = stream [samplePacket] ∧
    recvUdpPackets (fragmentedSource.contents.length + 1) fragmentedSource =
      [(.ipv4 ⟨[8, 8, 8, 8], rfl⟩ 53, [1])] := by
  decide

end Blackwire.Vless
