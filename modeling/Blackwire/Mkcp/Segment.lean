import Blackwire.Lib.Bytes

/-!
# mKCP segments

`mkcp/segment.rs`: a segment, its header of 24 bytes and its payload, on the wire.

* `decode_encode_append`: whatever follows, a segment is read back from its encoding, with the
  bookkeeping of a new one.
-/

namespace Blackwire.Mkcp

open List Bytes

def overhead : ℕ := 24
def cmdPush : UInt8 := 81
def cmdAck : UInt8 := 82
def cmdWask : UInt8 := 83
def cmdWins : UInt8 := 84

structure Segment where
  conv : UInt32
  cmd : UInt8
  frg : UInt8
  wnd : UInt16
  ts : UInt32
  sn : UInt32
  una : UInt32
  data : Bytes
  resendts : UInt32
  rto : UInt32
  fastack : UInt32
  xmit : UInt32

namespace Segment

def new (conv : UInt32) (cmd : UInt8) : Segment where
  conv := conv
  cmd := cmd
  frg := 0
  wnd := 0
  ts := 0
  sn := 0
  una := 0
  data := []
  resendts := 0
  rto := 200
  fastack := 0
  xmit := 0

variable (seg : Segment) (src : Bytes)

def encode : Bytes :=
  toLe 4 seg.conv.toNat ++ ([seg.cmd] ++ ([seg.frg] ++ (toLe 2 seg.wnd.toNat ++
    (toLe 4 seg.ts.toNat ++ (toLe 4 seg.sn.toNat ++ (toLe 4 seg.una.toNat ++
      (toLe 4 seg.data.length ++ seg.data)))))))

def getU32 : UInt32 × Bytes := (UInt32.ofNat (ofLe (src.take 4)), src.drop 4)

def getU16 : UInt16 × Bytes := (UInt16.ofNat (ofLe (src.take 2)), src.drop 2)

def getU8 : UInt8 × Bytes := (src.headD 0, src.drop 1)

def decode : Option (Segment × Bytes) :=
  if src.length < overhead then none
  else
    let (conv, src) := getU32 src
    let (cmd, src) := getU8 src
    let (frg, src) := getU8 src
    let (wnd, src) := getU16 src
    let (ts, src) := getU32 src
    let (sn, src) := getU32 src
    let (una, src) := getU32 src
    let (len, src) := getU32 src
    if src.length < len.toNat then none
    else
      some ({ new conv cmd with frg, wnd, ts, sn, una, data := src.take len.toNat },
        src.drop len.toNat)

/-! ### Round trip -/

theorem getU32_append (n : UInt32) (tail : Bytes) :
    getU32 (toLe 4 n.toNat ++ tail) = (n, tail) := by
  rw [getU32, take_left' (length_toLe ..), drop_left' (length_toLe ..),
    ofLe_toLe n.toNat_lt, UInt32.ofNat_toNat]

theorem getU16_append (n : UInt16) (tail : Bytes) :
    getU16 (toLe 2 n.toNat ++ tail) = (n, tail) := by
  rw [getU16, take_left' (length_toLe ..), drop_left' (length_toLe ..),
    ofLe_toLe n.toNat_lt, UInt16.ofNat_toNat]

theorem getU8_append (n : UInt8) (tail : Bytes) : getU8 ([n] ++ tail) = (n, tail) := rfl

def arrived : Segment :=
  { new seg.conv seg.cmd with
    frg := seg.frg, wnd := seg.wnd, ts := seg.ts, sn := seg.sn, una := seg.una, data := seg.data }

theorem length_encode : seg.encode.length = overhead + seg.data.length := by
  simp only [encode, length_append, length_toLe, length_cons, length_nil, overhead]
  omega

theorem decode_encode_append {seg : Segment} (h : seg.data.length < 2 ^ 32) (tail : Bytes) :
    decode (seg.encode ++ tail) = some (seg.arrived, tail) := by
  have hlen : (UInt32.ofNat seg.data.length).toNat = seg.data.length := by
    rw [UInt32.toNat_ofNat']
    omega
  have hlong : ¬(seg.encode ++ tail).length < overhead := by
    rw [length_append, length_encode]
    omega
  rw [decode, if_neg hlong]
  simp only [encode, append_assoc]
  rw [getU32_append]
  rw [getU8_append]
  rw [getU8_append]
  rw [getU16_append]
  rw [getU32_append]
  rw [getU32_append]
  rw [getU32_append]
  rw [← hlen, getU32_append]
  rw [hlen, if_neg (by rw [length_append]; omega), take_left, drop_left]
  rfl

end Segment

end Blackwire.Mkcp
