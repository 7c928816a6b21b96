import Blackwire.Lib.AsyncRead

/-!
# Addresses and errors

`ProxyError` and `Address` of `blackwire-common`, with `domain_wire_len`.  A call of the source can
also end without returning at all: it panics, or it loops for ever.
-/

namespace Blackwire

open AsyncIO

inductive ErrorKind
  | unexpectedEof
  | writeZero
  | invalidData
  deriving DecidableEq

inductive ProxyError
  | authFailed
  | protocol (msg : String)
  | transport (msg : String)
  | tls (msg : String)
  | timeout
  | unsupportedNetwork
  | dnsResolutionFailed (name : String)
  | routingFailed
  | fallbackRequired
  | io (kind : ErrorKind)
  deriving DecidableEq

inductive Stop
  | error (e : ProxyError)
  | panic
  | hang
  deriving DecidableEq

/-- `From<io::Error>`, and the conversion of `Elapsed` in `with_handshake_timeout`. -/
instance : FromIo ProxyError where
  ofIo
    | .unexpectedEof => .io .unexpectedEof
    | .elapsed => .timeout

def ioErrorText : IoError → String
  | .unexpectedEof => "early eof"
  | .elapsed => "deadline has elapsed"

instance : FromIo Stop where
  ofIo e := .error (FromIo.ofIo e)

def ofProxy {σ α : Type} (result : Except ProxyError α) : ReadM σ Stop α :=
  ReadM.ofExcept (result.mapError .error)

theorem ofProxy_ok_bind {σ α β : Type} (a : α) (k : α → ReadM σ Stop β) :
    (ofProxy (.ok a) >>= k) = k a := rfl

theorem decodes_ofProxy {σ α : Type} [AsyncRead σ] {result : Except ProxyError α} {a : α}
    (h : result = .ok a) : ReadM.Decodes (σ := σ) (ofProxy result) [] a := by
  subst h
  exact .pure a

theorem bind_eq_ok {ε α β : Type} {x : Except ε α} {f : α → Except ε β} {b : β} :
    x >>= f = .ok b ↔ ∃ a, x = .ok a ∧ f a = .ok b := by
  cases x with
  | error e =>
    constructor
    · intro h
      cases h
    · rintro ⟨a, h, -⟩
      cases h
  | ok a =>
    constructor
    · intro h
      exact ⟨a, rfl, h⟩
    · rintro ⟨a', h, hf⟩
      cases h
      exact hf

def hex (n : ℕ) : String := "0x" ++ String.ofList (Nat.toDigits 16 n)

inductive Address
  | ipv4 (ip : Octets 4) (port : UInt16)
  | ipv6 (ip : Octets 16) (port : UInt16)
  | domain (name : String) (port : UInt16)
  deriving DecidableEq

def Address.port : Address → UInt16
  | .ipv4 _ p => p
  | .ipv6 _ p => p
  | .domain _ p => p

def domainWireLen (name : String) : Except ProxyError UInt8 :=
  let len := (Bytes.utf8 name).length
  if len > 255 then .error (.protocol ("domain too long: " ++ toString len ++ " bytes"))
  else .ok (UInt8.ofNat len)

theorem domainWireLen_eq_ok {name : String} {n : UInt8} (h : domainWireLen name = .ok n) :
    n.toNat = (Bytes.utf8 name).length ∧ (Bytes.utf8 name).length ≤ 255 := by
  simp only [domainWireLen] at h
  split_ifs at h with hlen
  simp only [Except.ok.injEq] at h
  subst h
  simp only [UInt8.toNat_ofNat']
  omega

end Blackwire
