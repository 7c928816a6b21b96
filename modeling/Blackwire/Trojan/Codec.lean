import Blackwire.Common.Socks5Address

/-!
# Trojan UDP datagrams

A UDP datagram on a Trojan stream is a SOCKS5 address, a big-endian length, CR LF, and the payload:
`parse_udp_datagram` and `encode_udp_datagram` of `trojan/codec.rs`.

* `parseUdpDatagram_append`: whatever follows, the parser returns the datagram that was encoded and
  the number of its bytes.
-/

namespace Blackwire.Trojan

open Socks5Address List Bytes

def maxUdpPayloadLen : ℕ := 8192

def payloadTooLong (len : ℕ) : ProxyError :=
  .protocol ("Trojan UDP payload length " ++ toString len ++ " exceeds Xray max " ++
    toString maxUdpPayloadLen)

/-- `parse_udp_datagram`: the destination, the payload, and the number of bytes consumed. -/
def parseUdpDatagram (buf : Bytes) : Except ProxyError (Address × Bytes × ℕ) :=
  if buf.length < 4 then .error (.protocol "Trojan UDP datagram too short")
  else do
    let (dest, consumed) ← decodeSocks5Address (buf.drop 1) (buf.headD 0) "Trojan UDP"
    let pos := 1 + consumed
    if pos + 4 > buf.length then .error (.protocol "Trojan UDP truncated length")
    else
      let payloadLen := ofBe ((buf.drop pos).take 2)
      if payloadLen > maxUdpPayloadLen then .error (payloadTooLong payloadLen)
      else if (buf.drop (pos + 2)).take 2 ≠ [13, 10] then
        .error (.protocol "Trojan UDP missing CRLF after length")
      else
        let dataOff := pos + 4
        if dataOff + payloadLen > buf.length then
          .error (.protocol "Trojan UDP truncated payload")
        else .ok (dest, (buf.drop dataOff).take payloadLen, dataOff + payloadLen)

def encodeUdpDatagram (dest : Address) (payload : Bytes) : Except ProxyError Bytes :=
  if payload.length > maxUdpPayloadLen then .error (payloadTooLong payload.length)
  else do
    let buf ← writeSocks5Address dest
    pure (buf ++ (toBe 2 payload.length ++ ([13, 10] ++ payload)))

/-! ### What the parser does -/

variable {dest : Address} {buf payload : Bytes}

theorem parseUdpDatagram_of_decode {consumed : ℕ} (hlen : 4 ≤ buf.length)
    (h : decodeSocks5Address (buf.drop 1) (buf.headD 0) "Trojan UDP" = .ok (dest, consumed)) :
    parseUdpDatagram buf =
      if 1 + consumed + 4 > buf.length then .error (.protocol "Trojan UDP truncated length")
      else if ofBe ((buf.drop (1 + consumed)).take 2) > maxUdpPayloadLen then
        .error (payloadTooLong (ofBe ((buf.drop (1 + consumed)).take 2)))
      else if (buf.drop (1 + consumed + 2)).take 2 ≠ [13, 10] then
        .error (.protocol "Trojan UDP missing CRLF after length")
      else if 1 + consumed + 4 + ofBe ((buf.drop (1 + consumed)).take 2) > buf.length then
        .error (.protocol "Trojan UDP truncated payload")
      else .ok (dest, (buf.drop (1 + consumed + 4)).take
          (ofBe ((buf.drop (1 + consumed)).take 2)),
        1 + consumed + 4 + ofBe ((buf.drop (1 + consumed)).take 2)) := by
  rw [parseUdpDatagram, if_neg (by omega), h]
  rfl

theorem parseUdpDatagram_error {e : ProxyError} (h : parseUdpDatagram buf = .error e) :
    ∃ msg, e = .protocol msg := by
  by_cases hlen : buf.length < 4
  · rw [parseUdpDatagram, if_pos hlen] at h
    exact ⟨_, (Except.error.inj h).symm⟩
  rcases hdecode : decodeSocks5Address (buf.drop 1) (buf.headD 0) "Trojan UDP" with
    err | ⟨dest, consumed⟩
  · rw [parseUdpDatagram, if_neg hlen, hdecode] at h
    obtain rfl : err = e := Except.error.inj h
    exact decodeSocks5Address_error_eq hdecode
  · rw [parseUdpDatagram_of_decode (by omega) hdecode] at h
    split_ifs at h <;> exact ⟨_, (Except.error.inj h).symm⟩

theorem parseUdpDatagram_append_of_ok {n : ℕ} (h : parseUdpDatagram buf = .ok (dest, payload, n))
    (more : Bytes) :
    0 < n ∧ n ≤ buf.length ∧ parseUdpDatagram (buf ++ more) = .ok (dest, payload, n) := by
  by_cases hlen : buf.length < 4
  · rw [parseUdpDatagram, if_pos hlen] at h
    cases h
  rcases hdecode : decodeSocks5Address (buf.drop 1) (buf.headD 0) "Trojan UDP" with
    err | ⟨dest', consumed⟩
  · rw [parseUdpDatagram, if_neg hlen, hdecode] at h
    cases h
  have hdecode' : decodeSocks5Address ((buf ++ more).drop 1) ((buf ++ more).headD 0) "Trojan UDP" =
      .ok (dest', consumed) := by
    obtain ⟨atyp, tail, rfl⟩ : ∃ atyp tail, buf = atyp :: tail :=
      exists_cons_of_length_pos (by omega)
    exact (decodeSocks5Address_append_of_ok hdecode more).2
  rw [parseUdpDatagram_of_decode (by omega) hdecode] at h
  split_ifs at h with hpos hmax hcrlf hdata
  obtain ⟨rfl, rfl, rfl⟩ : dest' = dest ∧ _ = payload ∧ _ = n := by
    simpa only [Except.ok.injEq, Prod.mk.injEq] using h
  rw [not_lt] at hpos hdata
  refine ⟨by omega, hdata, ?_⟩
  have hfield : ∀ pos k, pos + k ≤ buf.length →
      ((buf ++ more).drop pos).take k = (buf.drop pos).take k := by
    intro pos k hk
    rw [drop_append_of_le_length (by omega), take_append_of_le_length (by rw [length_drop]; omega)]
  rw [parseUdpDatagram_of_decode (by rw [length_append]; omega) hdecode',
    hfield (1 + consumed) 2 (by omega), hfield (1 + consumed + 2) 2 (by omega),
    hfield (1 + consumed + 4) _ hdata, length_append]
  rw [if_neg (by omega), if_neg hmax, if_neg hcrlf, if_neg (by omega)]

theorem parseUdpDatagram_of_long {addr : Bytes} (haddr : writeSocks5Address dest = .ok addr)
    (hlong : maxUdpPayloadLen < payload.length) (hlen : payload.length < 2 ^ 16) :
    parseUdpDatagram (addr ++ (toBe 2 payload.length ++ ([13, 10] ++ payload))) =
      .error (payloadTooLong payload.length) := by
  obtain ⟨atyp, body, rfl, hdecode⟩ := decodeSocks5Address_append haddr
  have hvalue : ofBe (toBe 2 payload.length) = payload.length := ofBe_toBe hlen
  have hpos : (atyp :: body).length = 1 + body.length := by rw [length_cons, Nat.add_comm]
  have hbehind : ((atyp :: body) ++ (toBe 2 payload.length ++ ([13, 10] ++ payload))).drop
      (1 + body.length) = toBe 2 payload.length ++ ([13, 10] ++ payload) :=
    drop_left' hpos
  have hfull : ((atyp :: body) ++ (toBe 2 payload.length ++ ([13, 10] ++ payload))).length =
      1 + body.length + 4 + payload.length := by
    simp only [length_append, hpos, length_toBe, length_cons, length_nil]
    omega
  rw [parseUdpDatagram_of_decode (by omega) (hdecode "Trojan UDP" _), hbehind,
    take_left' (length_toBe ..), hvalue, if_neg (by omega), if_pos hlong]

/-! ### Round trip -/

theorem parseUdpDatagram_of_parts {tail : Bytes} {consumed : ℕ}
    (hdecode : decodeSocks5Address (buf.drop 1) (buf.headD 0) "Trojan UDP" = .ok (dest, consumed))
    (hmax : payload.length ≤ maxUdpPayloadLen) (hbuf : buf.drop (1 + consumed) =
      toBe 2 payload.length ++ ([13, 10] ++ (payload ++ tail))) :
    parseUdpDatagram buf = .ok (dest, payload, 1 + consumed + 4 + payload.length) := by
  have hvalue : ofBe (toBe 2 payload.length) = payload.length :=
    ofBe_toBe (hmax.trans_lt (by decide))
  have hlen : buf.length = 1 + consumed + 4 + payload.length + tail.length := by
    have hrest := congrArg List.length hbuf
    simp only [length_drop, length_append, length_toBe, length_cons, length_nil] at hrest
    omega
  have hcrlf : buf.drop (1 + consumed + 2) = [13, 10] ++ (payload ++ tail) := by
    rw [← drop_drop, hbuf, drop_left' (length_toBe ..)]
  have hdata : buf.drop (1 + consumed + 4) = payload ++ tail := by
    rw [show 1 + consumed + 4 = 1 + consumed + 2 + 2 from rfl, ← drop_drop, hcrlf]
    rfl
  rw [parseUdpDatagram_of_decode (by omega) hdecode, hbuf, hcrlf, hdata,
    take_left' (length_toBe ..), hvalue, take_left, if_neg (by omega),
    if_neg (by omega), if_neg (by simp), if_neg (by omega)]

theorem parseUdpDatagram_append {e : Bytes} (h : encodeUdpDatagram dest payload = .ok e)
    (tail : Bytes) : parseUdpDatagram (e ++ tail) = .ok (dest, payload, e.length) := by
  rw [encodeUdpDatagram] at h
  split_ifs at h with hmax
  obtain ⟨buf, hbuf, h⟩ := bind_eq_ok.1 h
  obtain rfl := Except.ok.inj h
  obtain ⟨atyp, body, rfl, hdecode⟩ := decodeSocks5Address_append hbuf
  have hpos : (atyp :: body).length = 1 + body.length := by rw [length_cons, Nat.add_comm]
  have hbehind : ((atyp :: body) ++ (toBe 2 payload.length ++ ([13, 10] ++ payload)) ++
      tail).drop (1 + body.length) =
        toBe 2 payload.length ++ ([13, 10] ++ (payload ++ tail)) := by
    simp only [append_assoc]
    exact drop_left' hpos
  have haddress : decodeSocks5Address (((atyp :: body) ++ (toBe 2 payload.length ++
      ([13, 10] ++ payload)) ++ tail).drop 1) atyp "Trojan UDP" = .ok (dest, body.length) := by
    simp only [append_assoc, cons_append, drop_succ_cons, drop_zero]
    exact hdecode "Trojan UDP" _
  rw [parseUdpDatagram_of_parts haddress (not_lt.1 hmax) hbehind]
  simp only [length_append, hpos, length_toBe, length_cons, length_nil]
  congr 3
  omega

theorem parseUdpDatagram_short {e raw : Bytes} (h : encodeUdpDatagram dest payload = .ok e)
    (hraw : raw <+: e) (hlen : raw.length < e.length) :
    ∃ msg, parseUdpDatagram raw = .error (.protocol msg) := by
  rcases hparse : parseUdpDatagram raw with err | ⟨dest', payload', n⟩
  · obtain ⟨msg, rfl⟩ := parseUdpDatagram_error hparse
    exact ⟨msg, rfl⟩
  · -- otherwise the whole encoding would parse to something shorter
    obtain ⟨more, rfl⟩ := hraw
    obtain ⟨-, hle, hparse'⟩ := parseUdpDatagram_append_of_ok hparse more
    have hwhole := parseUdpDatagram_append h []
    rw [append_nil, hparse'] at hwhole
    obtain ⟨-, -, rfl⟩ : _ ∧ _ ∧ n = (raw ++ more).length := by
      simpa only [Except.ok.injEq, Prod.mk.injEq] using hwhole
    omega

end Blackwire.Trojan
