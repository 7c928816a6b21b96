import Blackwire.Common.Address

/-!
# SOCKS5 addresses on the wire

An address type, an address and a big-endian port, as SOCKS5, Trojan and Shadowsocks 2022 write it:
`write_socks5_address`, `decode_socks5_address` and `read_socks5_address` of `socks5_address.rs`.
There are two decoders, one of a slice that checks bounds, and one that awaits the bytes of a
stream; both start behind the address type.
-/

namespace Blackwire

open AsyncIO AsyncRead ReadM List Bytes Except

variable {data : Bytes} {protocol : String}

namespace Socks5Address

def atypIpv4 : UInt8 := 0x01
def atypDomain : UInt8 := 0x03
def atypIpv6 : UInt8 := 0x04

def readSocks5Address {σ : Type} [AsyncRead σ] (atyp : UInt8) (protocol : String) :
    ReadM σ ProxyError Address :=
  if atyp = atypIpv4 then do
    let buf ← readArray 4
    let port ← readU16
    pure (.ipv4 buf port)
  else if atyp = atypIpv6 then do
    let buf ← readArray 16
    let port ← readU16
    pure (.ipv6 buf port)
  else if atyp = atypDomain then do
    let len ← readU8
    let name ← readVec len.toNat
    let port ← readU16
    match fromUtf8 name with
    | none => fail (.protocol (protocol ++ ": domain name is not valid UTF-8"))
    | some domain => pure (.domain domain port)
  else fail (.protocol (protocol ++ ": unknown ATYP " ++ hex atyp.toNat))

def portAt (data : Bytes) (pos : ℕ) (h : pos + 2 ≤ data.length) : UInt16 :=
  UInt16.ofNat (ofBe (slice data pos 2 h).val)

/-- `decode_socks5_address`: the address, and the number of bytes that it takes behind the address
type. -/
def decodeSocks5Address (data : Bytes) (atyp : UInt8) (protocol : String) :
    Except ProxyError (Address × ℕ) :=
  if atyp = atypIpv4 then
    if h : data.length < 6 then .error (.protocol (protocol ++ ": truncated IPv4 address"))
    else .ok (.ipv4 (slice data 0 4 (by omega)) (portAt data 4 (by omega)), 6)
  else if atyp = atypIpv6 then
    if h : data.length < 18 then .error (.protocol (protocol ++ ": truncated IPv6 address"))
    else .ok (.ipv6 (slice data 0 16 (by omega)) (portAt data 16 (by omega)), 18)
  else if atyp = atypDomain then
    match data with
    | [] => .error (.protocol (protocol ++ ": truncated domain length"))
    | len :: _ =>
      let n := len.toNat
      if h : data.length < 1 + n + 2 then
        .error (.protocol (protocol ++ ": truncated domain address"))
      else
        match fromUtf8 (slice data 1 n (by omega)).val with
        | none => .error (.protocol (protocol ++ ": invalid domain UTF-8"))
        | some name => .ok (.domain name (portAt data (1 + n) (by omega)), 1 + n + 2)
  else .error (.protocol (protocol ++ ": unknown ATYP " ++ hex atyp.toNat))

def writeSocks5Address (dest : Address) : Except ProxyError Bytes :=
  match dest with
  | .ipv4 ip port => pure (atypIpv4 :: (ip.val ++ toBe 2 port.toNat))
  | .ipv6 ip port => pure (atypIpv6 :: (ip.val ++ toBe 2 port.toNat))
  | .domain name port => do
    let len ← domainWireLen name
    pure (atypDomain :: len :: (utf8 name ++ toBe 2 port.toNat))

/-! ### Round trip -/

theorem portAt_append {front tail : Bytes} (port : UInt16)
    (hdata : data = front ++ (toBe 2 port.toNat ++ tail)) {pos : ℕ}
    (hpos : front.length = pos) (h : pos + 2 ≤ data.length) : portAt data pos h = port := by
  rw [portAt, slice_append ⟨toBe 2 port.toNat, length_toBe ..⟩ hdata hpos]
  exact ofNat_ofBe_toBe_two port

variable {k : ℕ} {dest : Address} {atyp : UInt8}

theorem slice_portAt_append (ip : Octets k) (port : UInt16) (suffix : Bytes) :
    ∃ h : k + 2 ≤ (ip.val ++ toBe 2 port.toNat ++ suffix).length,
      slice (ip.val ++ toBe 2 port.toNat ++ suffix) 0 k (by omega) = ip ∧
        portAt (ip.val ++ toBe 2 port.toNat ++ suffix) k h = port :=
  have hsplit : ip.val ++ toBe 2 port.toNat ++ suffix =
      [] ++ (ip.val ++ (toBe 2 port.toNat ++ suffix)) := append_assoc ..
  ⟨by simp [ip.property], slice_append ip hsplit rfl _, portAt_append port hsplit ip.property _⟩

theorem decodeSocks5Address_append {e : Bytes} (h : writeSocks5Address dest = .ok e) :
    ∃ atyp body, e = atyp :: body ∧ ∀ (protocol : String) (suffix : Bytes),
      decodeSocks5Address (body ++ suffix) atyp protocol = .ok (dest, body.length) := by
  cases dest with
  | ipv4 ip port =>
    obtain rfl := ok.inj h
    refine ⟨_, _, rfl, fun protocol suffix => ?_⟩
    have hlen : (ip.val ++ toBe 2 port.toNat).length = 6 := by simp [ip.property]
    obtain ⟨hbound, hip, hport⟩ := slice_portAt_append ip port suffix
    unfold decodeSocks5Address
    rw [if_pos rfl, dif_neg (by omega), hlen, hip, hport]
  | ipv6 ip port =>
    obtain rfl := ok.inj h
    refine ⟨_, _, rfl, fun protocol suffix => ?_⟩
    have hlen : (ip.val ++ toBe 2 port.toNat).length = 18 := by simp [ip.property]
    obtain ⟨hbound, hip, hport⟩ := slice_portAt_append ip port suffix
    unfold decodeSocks5Address
    rw [if_neg (by decide), if_pos rfl, dif_neg (by omega), hlen, hip, hport]
  | domain name port =>
    obtain ⟨len, hlen, h⟩ := bind_eq_ok.1 h
    obtain rfl := ok.inj h
    obtain ⟨hname, -⟩ := domainWireLen_eq_ok hlen
    refine ⟨_, _, rfl, fun protocol suffix => ?_⟩
    have htotal : (len :: (utf8 name ++ toBe 2 port.toNat)).length =
        1 + len.toNat + 2 := by simp [hname]; omega
    have hbound : 1 + len.toNat + 2 ≤
        (len :: (utf8 name ++ toBe 2 port.toNat ++ suffix)).length := by
      rw [← htotal]
      simp
    -- the name stands behind one byte, the port behind that byte and the name
    have hfront : len :: (utf8 name ++ toBe 2 port.toNat ++ suffix) =
        [len] ++ (utf8 name ++ (toBe 2 port.toNat ++ suffix)) := by
      rw [append_assoc]
      rfl
    have hback : len :: (utf8 name ++ toBe 2 port.toNat ++ suffix) =
        (len :: utf8 name) ++ (toBe 2 port.toNat ++ suffix) := hfront
    have hslice : slice (len :: (utf8 name ++ toBe 2 port.toNat ++ suffix)) 1
        len.toNat (by omega) = ⟨utf8 name, hname.symm⟩ :=
      slice_append ⟨utf8 name, hname.symm⟩ hfront rfl _
    have hport : portAt (len :: (utf8 name ++ toBe 2 port.toNat ++ suffix))
        (1 + len.toNat) hbound = port :=
      portAt_append port hback (by rw [length_cons, hname, Nat.add_comm]) _
    unfold decodeSocks5Address
    rw [if_neg (by decide), if_neg (by decide), if_pos rfl, htotal]
    simp only [cons_append]
    rw [dif_neg (by omega), hslice, hport]
    simp only [fromUtf8_utf8]

/-! ### The two decoders -/

section Agreement

variable {σ : Type} [AsyncRead σ] (f : Octets k → UInt16 → Address)

theorem decodes_fixed (data : Bytes) (h : k + 2 ≤ data.length) :
    Decodes (σ := σ) (ε := ProxyError) (do
      let buf ← readArray k
      let port ← readU16
      pure (f buf port))
      ((slice data 0 k (by omega)).val ++ (slice data k 2 h).val)
      (f (slice data 0 k (by omega)) (portAt data k h)) :=
  (decodes_readArray _).bind ((decodes_readU16_octets _).map _ rfl)

theorem slice_append_slice (data : Bytes) (h : k + 2 ≤ data.length) :
    ((slice data 0 k (by omega)).val ++ (slice data k 2 h).val) ++ data.drop (k + 2) =
      data := by
  rw [append_assoc, slice_append_drop, slice_zero_append_drop]

theorem fails_fixed (h : data.length < k + 2) :
    Fails (σ := σ) (ε := ProxyError) (do
      let buf ← readArray k
      let port ← readU16
      pure (f buf port)) data := by
  by_cases hk : k ≤ data.length
  · rw [← slice_zero_append_drop data k (by omega)]
    have hport : (data.drop k).length < 2 := by
      rw [length_drop]
      omega
    exact (decodes_readArray _).bind_fails ((fails_readU16 hport).bind _)
  · exact (fails_readArray (by omega)).bind _

theorem decodeSocks5Address_ok {n : ℕ}
    (h : decodeSocks5Address data atyp protocol = .ok (dest, n)) :
    ∃ e, e ++ data.drop n = data ∧ e.length = n ∧
      Decodes (σ := σ) (readSocks5Address atyp protocol) e dest := by
  unfold decodeSocks5Address at h
  unfold readSocks5Address
  split_ifs at h ⊢ with h4 hlen h6 hlen hd
  · obtain ⟨rfl, rfl⟩ := Prod.mk.inj (ok.inj h)
    exact ⟨_, slice_append_slice data (by omega), by simp, decodes_fixed .ipv4 data _⟩
  · obtain ⟨rfl, rfl⟩ := Prod.mk.inj (ok.inj h)
    exact ⟨_, slice_append_slice data (by omega), by simp, decodes_fixed .ipv6 data _⟩
  · rcases data with _ | ⟨len, tail⟩
    · cases h
    simp only at h
    split_ifs at h with hlen
    cases hname : fromUtf8 (slice (len :: tail) 1 len.toNat (by omega)).val with
    | none => simp [hname] at h
    | some name =>
      simp only [hname] at h
      obtain ⟨rfl, rfl⟩ := Prod.mk.inj (ok.inj h)
      refine ⟨[len] ++ ((slice (len :: tail) 1 len.toNat (by omega)).val ++
        (slice (len :: tail) (1 + len.toNat) 2 (by omega)).val), ?_, by simp; omega, ?_⟩
      · rw [append_assoc, append_assoc, slice_append_drop, slice_append_drop]
        rfl
      · refine (decodes_readU8 len).bind ((decodes_readVec (length_slice ..)).bind
          ((decodes_readU16_octets _).bind_nil ?_))
        simp only [hname]
        exact .pure _

theorem decodeSocks5Address_error {e : ProxyError}
    (h : decodeSocks5Address data atyp protocol = .error e) :
    Fails (σ := σ) (readSocks5Address atyp protocol) data := by
  unfold decodeSocks5Address at h
  unfold readSocks5Address
  split_ifs at h ⊢ with h4 hlen h6 hlen hd
  · exact fails_fixed .ipv4 hlen
  · exact fails_fixed .ipv6 hlen
  · rcases data with _ | ⟨len, tail⟩
    · exact fails_readU8.bind _
    refine (decodes_readU8 len).bind_fails ?_
    simp only [length_cons] at h
    by_cases hname : tail.length < len.toNat
    · exact (fails_readVec hname).bind _
    rw [← slice_zero_append_drop tail len.toNat (by omega)]
    refine (decodes_readVec (length_slice ..)).bind_fails ?_
    by_cases hport : tail.length < len.toNat + 2
    · have hshort : (tail.drop len.toNat).length < 2 := by
        rw [length_drop]
        omega
      exact (fails_readU16 hshort).bind _
    · -- all the bytes are there, so the name is not UTF-8
      rw [dif_neg (by omega)] at h
      have hraw : (slice (len :: tail) 1 len.toNat (by simp; omega)).val =
          (slice tail 0 len.toNat (by omega)).val := rfl
      rw [hraw] at h
      cases hname : fromUtf8 (slice tail 0 len.toNat (by omega)).val with
      | some name => simp [hname] at h
      | none =>
        rw [← slice_append_drop tail len.toNat 2 (by omega)]
        exact (decodes_readU16_octets _).bind_fails (.fail _ _)
  · exact .fail _ _

end Agreement

/-! ### Further facts about the slice decoder -/

theorem decodeSocks5Address_error_eq {e : ProxyError}
    (h : decodeSocks5Address data atyp protocol = .error e) : ∃ msg, e = .protocol msg := by
  unfold decodeSocks5Address at h
  split_ifs at h
  · exact ⟨_, (error.inj h).symm⟩
  · exact ⟨_, (error.inj h).symm⟩
  · split at h
    · exact ⟨_, (error.inj h).symm⟩
    · simp only at h
      split_ifs at h
      · exact ⟨_, (error.inj h).symm⟩
      · split at h
        · exact ⟨_, (error.inj h).symm⟩
        · cases h
  · exact ⟨_, (error.inj h).symm⟩

theorem decodeSocks5Address_append_of_ok {n : ℕ}
    (h : decodeSocks5Address data atyp protocol = .ok (dest, n)) (more : Bytes) :
    n ≤ data.length ∧ decodeSocks5Address (data ++ more) atyp protocol = .ok (dest, n) := by
  obtain ⟨e, hdata, hlen, hread⟩ := decodeSocks5Address_ok (σ := Source) h
  have hle : n ≤ data.length := by
    rw [← hlen, ← hdata]
    simp
  obtain ⟨s, hs⟩ := Source.exists_rest (data ++ more)
  obtain ⟨s', hrun, hrest⟩ := hread s (data.drop n ++ more) (by rw [hs, ← append_assoc, hdata])
  refine ⟨hle, ?_⟩
  rcases hdec : decodeSocks5Address (data ++ more) atyp protocol with err | ⟨dest', n'⟩
  · obtain ⟨err', s'', hrun'⟩ := decodeSocks5Address_error hdec s hs
    rw [hrun] at hrun'
    cases hrun'
  · obtain ⟨e', hdata', hlen', hread'⟩ := decodeSocks5Address_ok (σ := Source) hdec
    obtain ⟨s'', hrun', hrest'⟩ := hread' s _ (hs.trans hdata'.symm)
    rw [hrun] at hrun'
    obtain ⟨hdest, rfl⟩ := Prod.mk.inj hrun'
    obtain rfl := ok.inj hdest
    -- both readings leave the same stream
    have hcount := congrArg List.length (hrest.symm.trans hrest')
    have hcount' := congrArg List.length hdata'
    simp only [length_append, length_drop] at hcount hcount'
    obtain rfl : n = n' := by omega
    rfl

/-- **The encoder and the two decoders.**  Behind every encoding, the slice decoder returns the
address with the number of bytes that the encoding has behind its address type, and the stream
decoder returns the address and leaves exactly the suffix.  On every byte string the two decoders
agree: they accept the same ones, with the same address and the same number of bytes. -/
theorem socks5Address_decoders_agree (protocol : String) {σ : Type} [AsyncRead σ] :
    (∀ dest e, writeSocks5Address dest = .ok e → ∃ atyp body, e = atyp :: body ∧
      ∀ suffix,
        decodeSocks5Address (body ++ suffix) atyp protocol = .ok (dest, body.length) ∧
        ∀ s : σ, rest s = body ++ suffix →
          ∃ s', readSocks5Address atyp protocol false s = (.ok dest, s') ∧ rest s' = suffix) ∧
    (∀ (data : Bytes) (atyp : UInt8) (s : σ), rest s = data →
      (∃ dest n s', decodeSocks5Address data atyp protocol = .ok (dest, n) ∧
        readSocks5Address atyp protocol false s = (.ok dest, s') ∧
        n + (rest s').length = data.length ∧ rest s' = data.drop n) ∨
      (∃ e e' s', decodeSocks5Address data atyp protocol = .error e ∧
        readSocks5Address atyp protocol false s = (.error e', s'))) := by
  -- the first part follows from the agreement of the decoders
  refine (and_iff_right_of_imp fun hagree dest e h => ?_).2 fun data atyp s hs => ?_
  · obtain ⟨atyp, body, he, hdec⟩ := decodeSocks5Address_append h
    refine ⟨atyp, body, he, fun suffix => ⟨hdec protocol suffix, fun s hs => ?_⟩⟩
    rcases hagree _ atyp s hs with ⟨dest', n, s', hdec', hrun, -, hrest⟩ | ⟨e', -, -, hdec', -⟩
    · rw [hdec] at hdec'
      obtain ⟨rfl, rfl⟩ := Prod.mk.inj (ok.inj hdec')
      exact ⟨s', hrun, by rw [hrest, drop_left]⟩
    · rw [hdec] at hdec'
      cases hdec'
  · rcases hdec : decodeSocks5Address data atyp protocol with e | ⟨dest, n⟩
    · obtain ⟨e', s', hrun⟩ := decodeSocks5Address_error hdec s hs
      exact .inr ⟨e, e', s', rfl, hrun⟩
    · obtain ⟨body, hdata, hbody, hread⟩ := decodeSocks5Address_ok (σ := σ) hdec
      obtain ⟨s', hrun, hrest⟩ := hread s (data.drop n) (hs.trans hdata.symm)
      refine .inl ⟨dest, n, s', rfl, hrun, ?_, hrest⟩
      rw [hrest, ← hbody, ← length_append, hbody, hdata]

/-- A domain of no bytes, on a stream that delivers one byte at a time. -/
theorem socks5Address_decoders_agree_empty_domain :
    ∃ s', readSocks5Address atypDomain "SOCKS5" false
        (Source.ofSegments [⟨[0], by decide⟩, ⟨[1], by decide⟩, ⟨[187], by decide⟩,
          ⟨[7], by decide⟩]) = (.ok (.domain "" 443), s') ∧ Source.contents s' = [7] := by
  obtain ⟨atyp, body, he, h⟩ := (socks5Address_decoders_agree "SOCKS5" (σ := Source)).1
    (.domain "" 443) [3, 0, 1, 187] (by decide +kernel)
  obtain ⟨rfl, rfl⟩ := List.cons.inj he
  exact (h [7]).2 _ rfl

end Socks5Address
end Blackwire
