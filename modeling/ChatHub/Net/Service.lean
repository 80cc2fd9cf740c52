import ChatHub.Net.Handshake
import ChatHub.Net.Network
import ChatHub.Net.SocketFrame
import ChatHub.Net.Tcp
import ChatHub.Roster
/-!
The hub behind both of its listeners. Whoever accepts sockets numbers them; `take` is told what
happens at one of them, and `flush` gives what waits to be sent into any of them.
-/

set_option autoImplicit false

namespace ChatHub

inductive Served where
  | tcp (peer : TcpPeer)
  /-- A request to the WebSocket listener, as far as it has come. -/
  | request (held : List UInt8)
  | webSocket (peer : SocketPeer) (reader : FrameReader)
  deriving DecidableEq, Repr

inductive Arrival where
  | accepted (listener : Listener)
  | bytes (bytes : List UInt8)
  /-- The far side sends no more. -/
  | ended
  /-- The socket was torn down. -/
  | broken
  deriving DecidableEq, Repr

inductive Parcel where
  | line (bytes : List UInt8)
  | text (text : String)
  | reply (frame : SocketFrame)
  | answer (answer : HandshakeAnswer)
  deriving DecidableEq, Repr

def Parcel.bytes : Parcel → List UInt8
  | .line encoded => encoded
  | .text body => (SocketFrame.ofText body).encode
  | .reply frame => frame.encode
  | .answer handshake => Utf8.encode handshake.text.toList

/-- What is sent into one socket, and whether the socket is closed behind it. -/
structure Dispatch where
  socket : Nat
  parcels : List Parcel
  isLast : Bool
  deriving DecidableEq, Repr

namespace Served

def isOpen : Served → Bool
  | .tcp peer => peer.isOpen
  | .request _ => true
  | .webSocket peer _ => peer.isOpen

/-- A socket that was just accepted. A TCP connection is a peer from then on. -/
def accept (listener : Listener) (hub : Hub) : Served × Hub :=
  match listener with
  | .webSocket => (.request [], hub)
  | .tcp =>
    let (peer, hub) := TcpPeer.accept hub
    (.tcp peer, hub)

def splitHead? : List UInt8 → Option (List UInt8 × List UInt8)
  | 10 :: 13 :: 10 :: rest => some ([10], rest)
  | 10 :: 10 :: rest => some ([10], rest)
  | byte :: rest => (splitHead? rest).map fun (head, behind) => (byte :: head, behind)
  | [] => none

def takeFrames (timestamp : String) (peer : SocketPeer) (reader : FrameReader)
    (bytes : List UInt8) (hub : Hub) : List Parcel × Served × Hub :=
  let (reader, events) := reader.receive bytes
  let (peer, hub) := peer.takeAll timestamp events hub
  ((events.filterMap SocketFrame.reply?).map .reply, .webSocket peer reader, hub)

/-- Takes bytes that have arrived. A request is answered once its head is there, and the socket is
given up if it is not accepted. -/
def receive (timestamp : String) (served : Served) (bytes : List UInt8) (hub : Hub) :
    List Parcel × Option Served × Hub :=
  match served with
  | .tcp peer =>
    let (peer, hub) := peer.receive timestamp bytes hub
    ([], some (.tcp peer), hub)
  | .request held =>
    match splitHead? (held ++ bytes) with
    | none => ([], some (.request (held ++ bytes)), hub)
    | some (head, behind) =>
      let answer := Handshake.answer (head.map fun byte => Char.ofNat byte.toNat)
      if answer.isAccepted then
        let (peer, hub) := SocketPeer.accept hub
        let (parcels, served, hub) := takeFrames timestamp peer {} behind hub
        (.answer answer :: parcels, some served, hub)
      else ([.answer answer], none, hub)
  | .webSocket peer reader =>
    let (parcels, served, hub) := takeFrames timestamp peer reader bytes hub
    (parcels, some served, hub)

def finish (timestamp : String) (served : Served) (hub : Hub) : Option Served × Hub :=
  match served with
  | .tcp peer =>
    let (peer, hub) := peer.finish timestamp hub
    (some (.tcp peer), hub)
  | .request _ => (none, hub)
  | .webSocket peer reader =>
    let (peer, hub) := SocketPeer.take timestamp (peer, hub) .failed
    (some (.webSocket peer reader), hub)

def tearDown (timestamp : String) (served : Served) (hub : Hub) : Option Served × Hub :=
  match served with
  | .tcp peer =>
    let (peer, hub) := peer.reset hub
    (some (.tcp peer), hub)
  | .request _ => (none, hub)
  | .webSocket peer reader =>
    let (peer, hub) := SocketPeer.take timestamp (peer, hub) .failed
    (some (.webSocket peer reader), hub)

def outgoing (served : Served) (hub : Hub) : List Parcel × Hub :=
  match served with
  | .tcp peer =>
    let (lines, hub) := peer.outgoing hub
    (lines.map .line, hub)
  | .request _ => ([], hub)
  | .webSocket peer _ =>
    let (texts, hub) := peer.outgoing hub
    (texts.map .text, hub)

end Served

/-- The hub and its sides of all sockets, by their numbers. -/
structure Service where
  hub : Hub := {}
  sockets : Roster Nat Served := {}

namespace Service

def serves (service : Service) (socket : Nat) : Bool :=
  service.sockets.contains socket

/-- Puts back a socket's side, unless it was given up or closed. -/
def settle (service : Service) (socket : Nat) (served? : Option Served) (hub : Hub) : Service :=
  { hub
    sockets :=
      match served?.filter Served.isOpen with
      | some served => service.sockets.put socket served
      | none => service.sockets.erase socket }

/-- Takes what happens at a socket, and gives what is sent back at once. Nothing happens at a
socket that is not served. -/
def take (service : Service) (timestamp : String) (socket : Nat) (arrival : Arrival) :
    List Parcel × Service :=
  match arrival, service.sockets.get? socket with
  | .accepted listener, none =>
    let (served, hub) := Served.accept listener service.hub
    ([], service.settle socket (some served) hub)
  | .bytes bytes, some served =>
    let (parcels, served?, hub) := served.receive timestamp bytes service.hub
    (parcels, service.settle socket served? hub)
  | .ended, some served =>
    let (served?, hub) := served.finish timestamp service.hub
    ([], service.settle socket served? hub)
  | .broken, some served =>
    let (served?, hub) := served.tearDown timestamp service.hub
    ([], service.settle socket served? hub)
  | .accepted _, some _ | .bytes _, none | .ended, none | .broken, none => ([], service)

def flushFrom (hub : Hub) : List (Nat × Served) → List Dispatch × Hub
  | [] => ([], hub)
  | (socket, served) :: rest =>
    let (parcels, hub) := served.outgoing hub
    let (dispatches, hub) := flushFrom hub rest
    (if parcels.isEmpty then dispatches else ⟨socket, parcels, false⟩ :: dispatches, hub)

def flush (service : Service) : List Dispatch × Service :=
  let (dispatches, hub) := flushFrom service.hub service.sockets.entries
  (dispatches, { service with hub })

def step (service : Service) (timestamp : String) (socket : Nat) (arrival : Arrival) :
    List Dispatch × Service :=
  let (parcels, taken) := service.take timestamp socket arrival
  let (dispatches, flushed) := taken.flush
  (⟨socket, parcels, !taken.serves socket⟩ :: dispatches, flushed)

end Service

end ChatHub
