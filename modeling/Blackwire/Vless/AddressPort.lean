import Blackwire.Common.Address

/-!
# Port and address on the wire

The address section that VLESS requests, UDP packets and mux frames share: a big-endian port, an
address type, and an address.  `encode_address_port`, `address_port_wire_len`,
`decode_address_port_with_len` and `decode_address_sync` of `vless/codec.rs`.

* `decodeAddressPortWithLen_append`: whatever follows, the decoder returns the address that was
  encoded and the number of bytes that the encoder wrote.
-/

namespace Blackwire.Vless

open List Bytes

def atypIpv4 : UInt8 := 0x01
def atypDomain : UInt8 := 0x02
def atypIpv6 : UInt8 := 0x03

def encodeAddressPort (dest : Address) : Except ProxyError Bytes := do
  let port := toBe 2 dest.port.toNat
  match dest with
  | .ipv4 ip _ => pure (port ++ atypIpv4 :: ip.val)
  | .ipv6 ip _ => pure (port ++ atypIpv6 :: ip.val)
  | .domain name _ =>
    let len ← domainWireLen name
    pure (port ++ atypDomain :: len :: utf8 name)

/-- The address part of `address_port_wire_len`; `tail` is what follows the first four bytes. -/
def addressWireLen (atyp len : UInt8) (tail : Bytes) : Except ProxyError ℕ :=
  if atyp = atypIpv4 then .ok 4
  else if atyp = atypIpv6 then .ok 16
  else if atyp = atypDomain then
    let nameLen := len.toNat
    if tail.length < nameLen then .error (.protocol "VLESS UDP address truncated")
    else
      match fromUtf8 (tail.take nameLen) with
      | none => .error (.protocol "domain name is not valid UTF-8")
      | some name => do
        let _ ← domainWireLen name
        pure (1 + nameLen)
  else .error (.protocol ("VLESS UDP: unsupported address type " ++ hex atyp.toNat))

def addressPortWireLen : Bytes → Except ProxyError ℕ
  | _ :: _ :: atyp :: len :: tail => do
    let addrLen ← addressWireLen atyp len tail
    pure (2 + 1 + addrLen)
  | _ => .error (.protocol "VLESS UDP address too short")

/-- `Read::read_exact` on a cursor over a slice, with the error that `decode_address_sync` makes of
a short read. -/
def readSync (n : ℕ) (cursor : Bytes) : Except ProxyError (Octets n × Bytes) :=
  if h : n ≤ cursor.length then .ok (⟨cursor.take n, by simp [h]⟩, cursor.drop n)
  else .error (.protocol "failed to fill whole buffer")

def decodeAddressSync (cursor : Bytes) (atyp : UInt8) (port : UInt16) :
    Except ProxyError Address :=
  if atyp = atypIpv4 then do
    let (buf, _) ← readSync 4 cursor
    pure (.ipv4 buf port)
  else if atyp = atypIpv6 then do
    let (buf, _) ← readSync 16 cursor
    pure (.ipv6 buf port)
  else if atyp = atypDomain then do
    let (len, cursor) ← readSync 1 cursor
    let (name, _) ← readSync (len.val.headD 0).toNat cursor
    match fromUtf8 name.val with
    | some domain => pure (.domain domain port)
    | none => .error (.protocol "domain name is not valid UTF-8")
  else .error (.protocol ("unknown VLESS ATYP " ++ hex atyp.toNat))

def decodeAddressPortWithLen : Bytes → Except ProxyError (Address × ℕ)
  | data@(p₀ :: p₁ :: atyp :: rest) =>
    if data.length < 4 then .error (.protocol "VLESS UDP address too short")
    else do
      let port := UInt16.ofNat (ofBe [p₀, p₁])
      let consumed ← addressPortWireLen data
      if data.length < consumed then .error (.protocol "VLESS UDP address truncated")
      else do
        let addr ← decodeAddressSync rest atyp port
        pure (addr, consumed)
  | _ => .error (.protocol "VLESS UDP address too short")

/-! ### Round trip -/

theorem readSync_append {n : ℕ} (bs : Octets n) (tail : Bytes) :
    readSync n (bs.val ++ tail) = .ok (bs, tail) := by
  obtain ⟨bs, rfl⟩ := bs
  simp [readSync]

theorem decodeAddressPortWithLen_eq_ok {port : UInt16} {atyp b : UInt8} {body tail : Bytes}
    {dest : Address} (hlen : addressWireLen atyp b (body ++ tail) = .ok (body.length + 1))
    (haddr : decodeAddressSync (b :: (body ++ tail)) atyp port = .ok dest) :
    decodeAddressPortWithLen (toBe 2 port.toNat ++ atyp :: b :: body ++ tail) =
      .ok (dest, (toBe 2 port.toNat ++ atyp :: b :: body).length) := by
  have hport : UInt16.ofNat (ofBe (toBe 2 port.toNat)) = port := by rw [ofNat_ofBe_toBe_two]
  rw [toBe_two] at hport ⊢
  simp only [cons_append, nil_append, decodeAddressPortWithLen, addressPortWireLen,
    length_cons, length_append, hport, hlen, haddr]
  show (if body.length + tail.length + 1 + 1 + 1 + 1 < 2 + 1 + (body.length + 1) then _ else _) = _
  rw [if_neg (by omega)]
  show Except.ok (dest, 2 + 1 + (body.length + 1)) = _
  congr 2
  omega

theorem decodeAddressPortWithLen_append {dest : Address} {e : Bytes}
    (h : encodeAddressPort dest = .ok e) (tail : Bytes) :
    decodeAddressPortWithLen (e ++ tail) = .ok (dest, e.length) := by
  cases dest with
  | ipv4 ip port | ipv6 ip port =>
    obtain rfl := Except.ok.inj h
    obtain ⟨_ | ⟨b, ip⟩, hip⟩ := ip
    · cases hip
    refine decodeAddressPortWithLen_eq_ok (congrArg Except.ok hip.symm) ?_
    rw [← cons_append, decodeAddressSync, readSync_append ⟨b :: ip, hip⟩]
    rfl
  | domain name port =>
    obtain ⟨len, hlen, h⟩ := bind_eq_ok.1 h
    obtain rfl := Except.ok.inj h
    obtain ⟨hname, -⟩ := domainWireLen_eq_ok hlen
    refine decodeAddressPortWithLen_eq_ok ?_ ?_
    · have htake : (utf8 name ++ tail).take (utf8 name).length = utf8 name := take_left
      rw [addressWireLen, if_neg (by decide), if_neg (by decide), if_pos rfl]
      simp only [hname, htake, fromUtf8_utf8, hlen]
      rw [if_neg (by rw [length_append]; omega), Nat.add_comm]
      rfl
    · have hmany := readSync_append ⟨utf8 name, hname.symm⟩ tail
      show (readSync len.toNat (utf8 name ++ tail) >>= _) = _
      rw [hmany]
      show (match fromUtf8 (utf8 name) with | some _ => _ | none => _) = _
      rw [fromUtf8_utf8]
      rfl

end Blackwire.Vless
