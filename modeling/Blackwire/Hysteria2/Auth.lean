import Blackwire.Lib.Bytes

/-!
# Hysteria2 authentication

The HTTP/3 request that opens a Hysteria2 connection: `is_auth_request`,
`auth_request_from_headers` and `auth_response_to_headers` of `hysteria2/proto.rs`, and
`verify_auth_request` of `auth.rs`.
-/

namespace Blackwire.Hysteria2

open Bytes

def authPath : String := "/auth"
def headerAuth : String := "hysteria-auth"
def headerUdp : String := "hysteria-udp"
def headerCcRx : String := "hysteria-cc-rx"
def headerPadding : String := "hysteria-padding"
def statusAuthOk : ℕ := 233
def statusNotFound : ℕ := 404

abbrev HeaderMap := List (String × Bytes)

structure HttpRequest where
  method : String
  path : String
  host : Option String
  headers : HeaderMap
  deriving DecidableEq

def headerToStr (value : Bytes) : Option String :=
  if value.all fun b => (32 ≤ b && b < 127) || b == 9 then fromUtf8 value else none

def headerString (headers : HeaderMap) (name : String) : Option String :=
  (headers.lookup name).bind headerToStr

def parseU64 (s : String) : Option UInt64 :=
  let digits := match s.toList with
    | '+' :: cs => cs
    | cs => cs
  if digits ≠ [] ∧ digits.all Char.isDigit then
    let n := digits.foldl (fun n c => n * 10 + (c.toNat - 48)) 0
    if n < 2 ^ 64 then some (UInt64.ofNat n) else none
  else none

structure AuthRequest where
  auth : String
  rxBps : UInt64

inductive AuthError
  | wrongPassword
  | protocol (msg : String)

def authRequestFromHeaders (headers : HeaderMap) : Except String AuthRequest :=
  match headerString headers headerAuth with
  | none => .error ("missing " ++ headerAuth ++ " header")
  | some auth => .ok ⟨auth, ((headerString headers headerCcRx).bind parseU64).getD 0⟩

def verifyAuthRequest (headers : HeaderMap) (expectedPassword : String) :
    Except AuthError AuthRequest :=
  match authRequestFromHeaders headers with
  | .error msg => .error (.protocol msg)
  | .ok req =>
    if utf8 req.auth ≠ utf8 expectedPassword then .error .wrongPassword else .ok req

def eqIgnoreAsciiCase (a b : String) : Bool :=
  a.toList.map Char.toLower == b.toList.map Char.toLower

def isAuthRequest (method path : String) (_authority : Option String) : Bool :=
  eqIgnoreAsciiCase method "POST" && path == authPath

structure AuthResponse where
  ok : Bool
  udpEnabled : Bool
  rxBps : UInt64
  rxAuto : Bool

def authResponseToHeaders (resp : AuthResponse) : HeaderMap :=
  [(headerUdp, utf8 (toString resp.udpEnabled)),
    (headerCcRx, utf8 (if resp.rxAuto then "auto" else toString resp.rxBps)),
    (headerPadding, [])]

theorem verifyAuthRequest_cases (headers : HeaderMap) (password : String) :
    (headerString headers headerAuth = some password ∧
      ∃ req, verifyAuthRequest headers password = .ok req) ∨
    (∃ auth, headerString headers headerAuth = some auth ∧ auth ≠ password ∧
      verifyAuthRequest headers password = .error .wrongPassword) ∨
    (headerString headers headerAuth = none ∧
      ∃ msg, verifyAuthRequest headers password = .error (.protocol msg)) := by
  unfold verifyAuthRequest authRequestFromHeaders
  cases headerString headers headerAuth with
  | none => exact .inr (.inr ⟨rfl, _, rfl⟩)
  | some auth =>
    by_cases heq : auth = password
    · subst heq
      exact .inl ⟨rfl, _, if_neg (not_not.2 rfl)⟩
    · -- the comparison is one of bytes, and different strings have different bytes
      have hne : utf8 auth ≠ utf8 password := fun h => heq (utf8_injective h)
      exact .inr (.inl ⟨auth, rfl, heq, if_pos hne⟩)

end Blackwire.Hysteria2
