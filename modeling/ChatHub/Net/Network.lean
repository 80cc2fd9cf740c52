import ChatHub.Net.Address
/-!
Whether addresses can be reached from this host, and what is said when a listener cannot be bound
or a connection cannot be made.
-/

set_option autoImplicit false

namespace ChatHub

inductive Network where
  | reachable
  /-- No interface is up, so that the host has no addresses and no routes. -/
  | isolated
  deriving DecidableEq, Repr

inductive Listener where
  | webSocket
  | tcp
  deriving DecidableEq, Repr

/-! ### Kinds of addresses -/

def Ipv6.leading (address : Ipv6) : UInt16 :=
  address.groups.headD 0

def Ipv6.isMulticast (address : Ipv6) : Bool :=
  address.leading >>> 8 == 0xff

def Ipv6.isLinkLocal (address : Ipv6) : Bool :=
  address.leading &&& 0xffc0 == 0xfe80

def Ipv6.isUnspecified (address : Ipv6) : Bool :=
  address.groups.all (· == 0)

inductive Endpoint where
  | everyone
  | v4 (address : Ipv4)
  | v6 (address : Ipv6)
  deriving DecidableEq, Repr

/-- Who connections to an address reach. A version six address may stand for one of version
four. -/
def SocketAddress.endpoint (address : SocketAddress) : Endpoint :=
  let ofIpv4 (address : Ipv4) : Endpoint :=
    if address = ⟨0, 0, 0, 0⟩ then .everyone else .v4 address
  match address with
  | .v4 address _ => ofIpv4 address
  | .v6 address _ _ =>
    match address.mapped? with
    | some address => ofIpv4 address
    | none => if address.isUnspecified then .everyone else .v6 address

def SocketAddress.port : SocketAddress → UInt16
  | .v4 _ port | .v6 _ _ port => port

/-- Whether one listener at each of two addresses would be one too many. Port zero is a new port
every time. -/
def SocketAddress.collides (left right : SocketAddress) : Bool :=
  left.port != 0 && left.port == right.port
    && (left.endpoint = .everyone || right.endpoint = .everyone || left.endpoint = right.endpoint)

/-! ### Listening -/

inductive BindFault where
  /-- The host does not have the address. -/
  | notAvailable
  | inUse
  | denied
  /-- The address names no place to listen at. -/
  | invalid
  /-- The address has the scope of an interface that there is not. -/
  | noInterface
  deriving DecidableEq, Repr

def BindFault.message : BindFault → String
  | .notAvailable => "Cannot assign requested address (os error 99)"
  | .inUse => "Address already in use (os error 98)"
  | .denied => "Permission denied (os error 13)"
  | .invalid => "Invalid argument (os error 22)"
  | .noInterface => "No such device (os error 19)"

/-- What is wrong with listening at an address. A host without interfaces does not look whether it
has a version four address. Its loopback interface is there, as the first, but is not up. -/
def Network.bindFault? (network : Network) (address : SocketAddress) : Option BindFault :=
  match address with
  | .v4 .. => none
  | .v6 address scope _ =>
    if address.isUnspecified || address.mapped?.isSome then none
    else if address.isMulticast then some .invalid
    else if address.isLinkLocal && scope = 0 then some .invalid
    else
      match network with
      | .reachable => none
      | .isolated =>
        if address.isLinkLocal && scope != 1 then some .noInterface else some .notAvailable

/-- The address that a listener gets beside others. -/
def Network.bind (network : Network) (others : List SocketAddress) (address : SocketAddress) :
    Except BindFault SocketAddress :=
  match network.bindFault? address with
  | some fault => .error fault
  | none => if others.any address.collides then .error .inUse else .ok address

/-! ### Connecting -/

inductive ConnectFault where
  | refused
  | unreachable
  /-- The host has no address to connect from. -/
  | notAvailable
  /-- The address names no place to connect to. -/
  | invalid
  /-- Nobody could be asked for the address of the name. -/
  | unresolved
  deriving DecidableEq, Repr

def ConnectFault.message : ConnectFault → String
  | .refused => "Connection refused (os error 111)"
  | .unreachable => "Network is unreachable (os error 101)"
  | .notAvailable => "Cannot assign requested address (os error 99)"
  | .invalid => "Invalid argument (os error 22)"
  | .unresolved => "failed to lookup address information: Temporary failure in name resolution"

inductive Destination where
  | v4 (address : Ipv4)
  | v6 (address : Ipv6)
  | named (name : String)
  deriving DecidableEq, Repr

/-- The host that connections are made to: an address of either version, or a name. -/
def Destination.ofString (host : String) : Destination :=
  match Address.ipv6? host.toList with
  | some (address, []) => .v6 address
  | _ =>
    match Address.looseIpv4? host.toList with
    | some address => .v4 address
    | none => .named host

/-- The host itself, as version four has it. -/
def Destination.loopback : Destination :=
  .v4 ⟨127, 0, 0, 1⟩

/-- The fault of a connection to a place at which somebody listens or not, if there is one. A host
without interfaces has no route to anywhere in version four, and no address of its own in version
six. Such a host knows one name, its own. -/
def Network.connectFault? (network : Network) (destination : Destination) (listening : Bool) :
    Option ConnectFault :=
  match network with
  | .reachable => if listening then none else some .refused
  | .isolated =>
    match destination with
    | .v4 _ => some .unreachable
    | .named name => some (if name = "localhost" then .unreachable else .unresolved)
    | .v6 address =>
      if address.mapped?.isSome || address.isMulticast then some .unreachable
      else if address.isLinkLocal then some .invalid
      else some .notAvailable

structure ConnectFailure where
  host : String
  port : Nat
  fault : ConnectFault
  deriving DecidableEq, Repr

def ConnectFailure.chain (failure : ConnectFailure) : List String :=
  ["failed to connect to " ++ failure.host ++ ":" ++ toString failure.port,
    failure.fault.message]

end ChatHub
