import Blackwire.Common.Address

/-!
# Connection contexts

`Context` of `blackwire-app/src/context.rs`: what an inbound handler tells the dispatcher about a
connection.
-/

namespace Blackwire

inductive IpAddr
  | v4 (ip : Octets 4)
  | v6 (ip : Octets 16)
  deriving DecidableEq

inductive SocketAddr
  | v4 (ip : Octets 4) (port : UInt16)
  | v6 (ip : Octets 16) (port : UInt16)
  deriving DecidableEq

def SocketAddr.ip : SocketAddr → IpAddr
  | .v4 ip _ => .v4 ip
  | .v6 ip _ => .v6 ip

structure Context where
  source : Option SocketAddr
  inboundTag : String
  user : Option String
  sniffedProtocol : Option String
  sniffedDomain : Option String
  visionFlow : Bool

namespace Context

def new (inboundTag : String) (source : SocketAddr) : Context where
  source := some source
  inboundTag := inboundTag
  user := none
  sniffedProtocol := none
  sniffedDomain := none
  visionFlow := false

def withUser (user : String) (ctx : Context) : Context := { ctx with user := some user }

end Context

end Blackwire
