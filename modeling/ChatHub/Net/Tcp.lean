import ChatHub.Hub.Basic
import ChatHub.Wire.Reading
import ChatHub.Wire.Writing
/-!
The hub's side of a TCP connection. A connection is a peer from the moment it is accepted until
its input ends, and what its lines hold is published as soon as they are complete. A line without
a message ends the connection.
-/

set_option autoImplicit false

namespace ChatHub

/-- A connection, with the bytes of a line that is not complete. -/
structure TcpPeer where
  connection : ConnectionId
  buffer : Wire.LineBuffer := {}
  isOpen : Bool := true
  deriving DecidableEq, Repr, Inhabited

namespace TcpPeer

def accept (hub : Hub) : TcpPeer × Hub :=
  let (connection, hub) := hub.attach
  ({ connection }, hub)

def close (peer : TcpPeer) (hub : Hub) : TcpPeer × Hub :=
  ({ peer with buffer := {}, isOpen := false },
    (hub.detach peer.connection).dropMailbox peer.connection)

/-- Publishes what a piece of the input holds. Nothing behind a bad piece is looked at. -/
def takePiece (timestamp : String) (state : TcpPeer × Hub) (piece : List UInt8) :
    TcpPeer × Hub :=
  let (peer, hub) := state
  if peer.isOpen then
    match Wire.readPiece Wire.inboundFormat piece with
    | none => (peer, hub)
    | some (.ok message) => (peer, (hub.publish peer.connection message timestamp).2)
    | some (.error _) => peer.close hub
  else (peer, hub)

def receive (peer : TcpPeer) (timestamp : String) (bytes : List UInt8) (hub : Hub) :
    TcpPeer × Hub :=
  if peer.isOpen then
    let (buffer, pieces) := peer.buffer.feed bytes
    pieces.foldl (takePiece timestamp) ({ peer with buffer }, hub)
  else (peer, hub)

/-- Takes the end of the input; a last line may lack its line feed. -/
def finish (peer : TcpPeer) (timestamp : String) (hub : Hub) : TcpPeer × Hub :=
  if peer.isOpen then
    let last := peer.buffer.finish.toList
    let (peer, hub) := last.foldl (takePiece timestamp) (peer, hub)
    if peer.isOpen then peer.close hub else (peer, hub)
  else (peer, hub)

/-- Takes a connection that was torn down; an incomplete line is lost. -/
def reset (peer : TcpPeer) (hub : Hub) : TcpPeer × Hub :=
  if peer.isOpen then peer.close hub else (peer, hub)

def encode (message : Stamped) : List UInt8 :=
  Wire.encodeLine Wire.stampedFormat message

def outgoing (peer : TcpPeer) (hub : Hub) : List (List UInt8) × Hub :=
  if peer.isOpen then
    let (messages, hub) := hub.drain peer.connection
    (messages.map encode, hub)
  else ([], hub)

end TcpPeer

end ChatHub
