import Blackwire.Lib.Leb128
import Blackwire.Vless.Addons
import Blackwire.Vless.AddressPort

/-!
# The VLESS request header

`encode_request` and `decode_request` of `vless/codec.rs`.

* `decodes_request`: whatever `encode_request` accepts, `decode_request` reads back, byte for byte,
  from any stream that delivers the header in any pieces, and it leaves the payload unread.
-/

namespace Blackwire.Vless

open AsyncIO AsyncIO.ReadM List Bytes UInt64

/-! ### Constants and data -/

def cmdTcp : UInt8 := 0x01
def cmdUdp : UInt8 := 0x02
def cmdMux : UInt8 := 0x03
def muxCoolDomain : String := "v1.mux.cool"
def vlessVersion : UInt8 := 0x00

inductive Command
  | tcp
  | udp
  | mux
  deriving DecidableEq

structure VlessRequest where
  uuid : Octets 16
  command : Command
  dest : Address
  flow : String

/-! ### The encoder -/

def putVarintLoop : ℕ → ℕ → Bytes
  | 0, value => [UInt8.ofNat value]
  | k + 1, value =>
    if value ≥ 0x80 then (UInt8.ofNat value ||| 0x80) :: putVarintLoop k (value / 2 ^ 7)
    else [UInt8.ofNat value]

def putVarint (value : UInt64) : Bytes := putVarintLoop 9 value.toNat

def flowAddons (flow : String) : Bytes :=
  0x0A :: putVarint (ofNat (utf8 flow).length) ++ utf8 flow

def encodeFlow (flow : String) : Except ProxyError Bytes :=
  if flow = "" then .ok [0]
  else
    let addons := flowAddons flow
    if addons.length > 255 then .error (.protocol "VLESS addons too long")
    else .ok (UInt8.ofNat addons.length :: addons)

def Command.toByte : Command → UInt8
  | .tcp => cmdTcp
  | .udp => cmdUdp
  | .mux => cmdMux

/-- The address section of a request, written by the statements of `encode_address_port`; a mux
request has none. -/
def encodeDest (command : Command) (dest : Address) : Except ProxyError Bytes :=
  if command ≠ .mux then encodeAddressPort dest else .ok []

def encodeRequest (uuid : Octets 16) (flow : String) (command : Command) (dest : Address) :
    Except ProxyError Bytes := do
  let addons ← encodeFlow flow
  let address ← encodeDest command dest
  pure (vlessVersion :: uuid.val ++ addons ++ command.toByte :: address)

/-! ### The decoder -/

section Decoder

variable {σ : Type} [AsyncRead σ]

def readAddress (atyp : UInt8) (port : UInt16) : ReadM σ Stop Address :=
  if atyp = atypIpv4 then do
    let buf ← readArray 4
    pure (.ipv4 buf port)
  else if atyp = atypIpv6 then do
    let buf ← readArray 16
    pure (.ipv6 buf port)
  else if atyp = atypDomain then do
    let len ← readU8
    let name ← readVec len.toNat
    match fromUtf8 name with
    | some domain => pure (.domain domain port)
    | none => fail (.error (.protocol "domain name is not valid UTF-8"))
  else fail (.error (.protocol ("unknown VLESS ATYP " ++ hex atyp.toNat)))

def commandOfByte (b : UInt8) : Except Stop Command :=
  if b = cmdTcp then .ok .tcp
  else if b = cmdUdp then .ok .udp
  else if b = cmdMux then .ok .mux
  else .error (.error (.protocol ("unknown VLESS CMD " ++ hex b.toNat)))

def readDest (command : Command) : ReadM σ Stop Address :=
  if command = .mux then pure (.domain muxCoolDomain 0)
  else do
    let port ← readU16
    let atyp ← readU8
    readAddress atyp port

def readAddons : ReadM σ Stop String := do
  let len ← readU8
  if len.toNat > 0 then do
    let addons ← readVec len.toNat
    ofExcept (parseFlowFromAddons addons)
  else pure ""

def decodeRequest : ReadM σ Stop VlessRequest := do
  let ver ← readU8
  if ver ≠ vlessVersion then
    fail (.error (.protocol ("VLESS version " ++ hex ver.toNat ++ " not supported")))
  else do
    let uuid ← readArray 16
    let flow ← readAddons
    let cmdByte ← readU8
    let command ← ofExcept (commandOfByte cmdByte)
    let dest ← readDest command
    pure { uuid, command, dest, flow }

end Decoder

/-! ### Varints -/

open Leb128

variable {tail data : Bytes} {flow : String}

section

variable (hd : data.length < 2 ^ 64)
include hd

theorem readVarintLoop_succ {b : UInt8} {fuel cursor result n shift : ℕ}
    (hdrop : data.drop cursor = b :: tail) (hb : b &&& 0x7f = UInt8.ofNat n &&& 0x7f)
    (hr : result < 2 ^ shift) (hs : shift < 64) :
    readVarintLoop data (fuel + 1) cursor (ofNat result) shift =
      if b &&& 0x80 = 0 then .some (ofNat (result + n % 128 * 2 ^ shift)) (cursor + 1)
      else if shift + 7 ≥ 64 then .none (cursor + 1)
      else readVarintLoop data fuel (cursor + 1) (ofNat (result + n % 128 * 2 ^ shift))
        (shift + 7) := by
  have hget : data[cursor]? = some b := by
    rw [← List.head?_drop, hdrop]
    rfl
  have hc : cursor < data.length := (List.getElem?_eq_some_iff.1 hget).1
  rw [readVarintLoop, if_pos hc, hget]
  simp only [hb, or_shifted hr hs _ (low_bits n),
    usizeAdd_of_lt (show cursor + 1 < 2 ^ 64 by omega)]

theorem readVarintLoop_putVarintLoop (k : ℕ) :
    ∀ cursor value shift result : ℕ, data.drop cursor = putVarintLoop k value ++ tail →
      shift + 7 * k = 63 → result < 2 ^ shift → result + value * 2 ^ shift < 2 ^ 64 →
      readVarintLoop data (k + 1) cursor (ofNat result) shift =
        .some (ofNat (result + value * 2 ^ shift))
          (cursor + (putVarintLoop k value).length) := by
  -- the last group: its high bit is clear
  have last : ∀ fuel cursor value shift result : ℕ, data.drop cursor = UInt8.ofNat value :: tail →
      shift < 64 → result < 2 ^ shift → result + value * 2 ^ shift < 2 ^ 64 → value < 128 →
      readVarintLoop data (fuel + 1) cursor (ofNat result) shift =
        .some (ofNat (result + value * 2 ^ shift)) (cursor + 1) := by
    intro fuel cursor value shift result hdrop hs hr hv hlt
    have hhigh : UInt8.ofNat value &&& 0x80 = 0 := by
      rw [high_bit_eq_zero, UInt8.toNat_ofNat']
      omega
    have hmod : value % 128 = value := Nat.mod_eq_of_lt hlt
    rw [readVarintLoop_succ hd hdrop rfl hr hs, if_pos hhigh, hmod]
  induction k with
  | zero =>
    intro cursor value shift result hdrop hk hr hv
    obtain rfl : shift = 63 := by omega
    exact last 0 cursor value 63 result hdrop (by omega) hr hv (by omega)
  | succ k ih =>
    intro cursor value shift result hdrop hk hr hv
    unfold putVarintLoop at hdrop ⊢
    split_ifs at hdrop ⊢ with hlt
    · have hsplit : value % 128 * 2 ^ shift + value / 2 ^ 7 * 2 ^ (shift + 7) =
          value * 2 ^ shift := by
        rw [pow_add, mul_comm (2 ^ shift), ← mul_assoc, ← add_mul]
        congr 1
        omega
      have hgroup : value % 128 * 2 ^ shift ≤ 127 * 2 ^ shift := Nat.mul_le_mul_right _ (by omega)
      have hpow : 2 ^ (shift + 7) = 128 * 2 ^ shift := by rw [pow_add]; omega
      have hdrop' : data.drop (cursor + 1) = putVarintLoop k (value / 2 ^ 7) ++ tail := by
        rw [← drop_drop, hdrop]
        rfl
      rw [readVarintLoop_succ hd hdrop (or_low_bits _) hr (by omega),
        if_neg (or_high_bit _), if_neg (by omega),
        ih (cursor + 1) (value / 2 ^ 7) (shift + 7) _ hdrop' (by omega) (by omega) (by omega),
        Nat.add_assoc, hsplit, length_cons, Nat.add_right_comm, Nat.add_assoc]
    · exact last (k + 1) cursor value shift result hdrop (by omega) hr hv (by omega)

theorem readVarint_putVarint {cursor : ℕ} {value : UInt64}
    (hdrop : data.drop cursor = putVarint value ++ tail) :
    readVarint data cursor = .some value (cursor + (putVarint value).length) := by
  have h := readVarintLoop_putVarintLoop hd 9 cursor value.toNat 0 0 hdrop rfl (by simp)
    (by simpa using value.toNat_lt)
  simpa [readVarint, putVarint] using h

end

/-! ### The parts of a header -/

theorem flowAddons_eq (flow : String) :
    flowAddons flow = putVarint 10 ++
      (putVarint (ofNat (utf8 flow).length) ++ utf8 flow) := rfl

theorem parseFlow_flowAddons (h : (flowAddons flow).length ≤ 255) :
    parseFlowFromAddons (flowAddons flow) = .ok flow := by
  set bytes := utf8 flow with hbytes
  set lenBytes := putVarint (ofNat bytes.length) with hlenBytes
  have hlength : (flowAddons flow).length = 1 + lenBytes.length + bytes.length := by
    simp only [flowAddons, ← hbytes, ← hlenBytes, length_cons, length_append]
    omega
  have htag : readVarint (flowAddons flow) 0 = .some 10 1 :=
    readVarint_putVarint (by omega) (flowAddons_eq flow)
  have hlen : readVarint (flowAddons flow) 1 =
      .some (ofNat bytes.length) (1 + lenBytes.length) :=
    readVarint_putVarint (by omega) rfl
  have hend : usizeAdd (1 + lenBytes.length) (ofNat bytes.length).toNat =
      (flowAddons flow).length := by
    rw [toNat_ofNat', Nat.mod_eq_of_lt (by omega), usizeAdd_of_lt (by omega), hlength]
  have hslice : slice (flowAddons flow) (1 + lenBytes.length) (flowAddons flow).length =
      some bytes := by
    have hdrop : (flowAddons flow).drop (1 + lenBytes.length) = bytes := by
      rw [Nat.add_comm, flowAddons, cons_append, drop_succ_cons, drop_left]
    rw [slice, if_pos ⟨by omega, le_rfl⟩, hdrop, take_of_length_le (by omega)]
  have hstep : parseFlowStep (flowAddons flow) 0 = .done (.ok flow) := by
    have hwire : ((10 : UInt64) &&& 0x07).toUInt8 = 2 := rfl
    have hfield : ((10 : UInt64) >>> 3).toUInt32 = 1 := rfl
    have hutf8 : fromUtf8 bytes = some flow := fromUtf8_utf8 flow
    rw [parseFlowStep, if_pos (by omega), htag]
    simp only [hwire, hfield, hlen, hend, hslice, hutf8, gt_iff_lt, lt_irrefl, if_false, if_true]
  simp only [parseFlowFromAddons, Loop.run, hstep]

variable {σ : Type} [AsyncRead σ] {command : Command} {dest : Address}

theorem decodes_addons {e : Bytes} (h : encodeFlow flow = .ok e) :
    Decodes (σ := σ) readAddons e flow := by
  simp only [encodeFlow] at h
  split_ifs at h with hempty hlong
  · obtain rfl : [0] = e := by simpa using h
    subst hempty
    exact (decodes_readU8 0).bind (Decodes.pure "")
  · obtain rfl : _ = e := by simpa using h
    have hlen : (UInt8.ofNat (flowAddons flow).length).toNat = (flowAddons flow).length := by
      rw [UInt8.toNat_ofNat']
      omega
    refine (decodes_readU8 _).bind ?_
    rw [hlen]
    have hshort : (flowAddons flow).length ≤ 255 := by omega
    exact (decodes_readVec rfl).bind_nil (Decodes.ofExcept (parseFlow_flowAddons hshort))

theorem decodes_address {e : Bytes} (h : encodeAddressPort dest = .ok e) (hc : command ≠ .mux) :
    Decodes (σ := σ) (readDest command) e dest := by
  rw [readDest, if_neg hc]
  cases dest with
  | ipv4 ip port =>
    obtain rfl := Except.ok.inj h
    refine (decodes_readU16 port).bind ((decodes_readU8 atypIpv4).bind ?_)
    exact (decodes_readArray ip).map (fun buf => Address.ipv4 buf port) rfl
  | ipv6 ip port =>
    obtain rfl := Except.ok.inj h
    refine (decodes_readU16 port).bind ((decodes_readU8 atypIpv6).bind ?_)
    exact (decodes_readArray ip).map (fun buf => Address.ipv6 buf port) rfl
  | domain name port =>
    obtain ⟨len, hlen, h⟩ := bind_eq_ok.1 h
    obtain rfl := Except.ok.inj h
    refine (decodes_readU16 port).bind
      ((decodes_readU8 atypDomain).bind ?_)
    refine (decodes_readU8 len).bind ?_
    refine (decodes_readVec (domainWireLen_eq_ok hlen).1.symm).bind_nil ?_
    rw [fromUtf8_utf8]
    exact Decodes.pure _

/-! ### The whole header -/

def wireDest : Command → Address → Address
  | .mux, _ => .domain muxCoolDomain 0
  | _, dest => dest

theorem decodes_command (command : Command) :
    Decodes (σ := σ) (ofExcept (commandOfByte command.toByte)) [] command := by
  cases command <;> exact Decodes.ofExcept rfl

theorem decodes_dest {address : Bytes} (h : encodeDest command dest = .ok address) :
    Decodes (σ := σ) (readDest command) address (wireDest command dest) := by
  cases command with
  | tcp | udp => exact decodes_address h (by decide)
  | mux =>
    obtain rfl := Except.ok.inj h
    exact Decodes.pure _

theorem decodes_request {uuid : Octets 16} {e : Bytes}
    (h : encodeRequest uuid flow command dest = .ok e) :
    Decodes (σ := σ) decodeRequest e ⟨uuid, command, wireDest command dest, flow⟩ := by
  obtain ⟨addons, hflow, h⟩ := bind_eq_ok.1 h
  obtain ⟨address, haddr, h⟩ := bind_eq_ok.1 h
  obtain rfl := Except.ok.inj h
  rw [append_assoc]
  refine (decodes_readU8 vlessVersion).bind ?_
  refine (decodes_readArray uuid).bind ((decodes_addons hflow).bind ?_)
  refine (decodes_readU8 (σ := σ) (ε := Stop) command.toByte).bind ?_
  refine (decodes_command command).bind ?_
  exact (decodes_dest haddr).map (fun dest => VlessRequest.mk uuid command dest flow) rfl

/-- **Round trip of the request header.**  Whatever `encode_request` returns, `decode_request`
reads back from a stream that starts with it, in whatever pieces the stream arrives, and it leaves
exactly the payload unread. -/
theorem decodeRequest_encodeRequest {uuid : Octets 16} {flow : String} {command : Command}
    {dest : Address} {e : Bytes} (h : encodeRequest uuid flow command dest = .ok e) (p : Bytes)
    (s : Source) (hs : s.contents = e ++ p) :
    ∃ s', decodeRequest false s = (.ok ⟨uuid, command, wireDest command dest, flow⟩, s') ∧
      s'.contents = p :=
  decodes_request h s p hs

/-- A request for `x:80` and one byte of payload in three reads, the second of which is delayed. -/
def splitRequest : Source :=
  [.data ⟨0 :: List.replicate 16 7, by simp⟩, .pending true, .data ⟨[0, 1, 0], by simp⟩,
    .data ⟨[80, 2, 1, 120, 9], by simp⟩]

theorem decodeRequest_splitRequest :
    encodeRequest ⟨List.replicate 16 7, rfl⟩ "" .tcp (.domain "x" 80) =
        .ok (0 :: List.replicate 16 7 ++ [0, 1, 0, 80, 2, 1, 120]) ∧
      ∃ s', decodeRequest false splitRequest =
          (.ok ⟨⟨List.replicate 16 7, rfl⟩, .tcp, .domain "x" 80, ""⟩, s') ∧
        Source.contents s' = [9] := by
  have h : encodeRequest ⟨List.replicate 16 7, rfl⟩ "" .tcp (.domain "x" 80) =
      .ok (0 :: List.replicate 16 7 ++ [0, 1, 0, 80, 2, 1, 120]) := by decide
  exact ⟨h, decodeRequest_encodeRequest h [9] splitRequest (by decide)⟩

end Blackwire.Vless
