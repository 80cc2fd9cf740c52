import ChatHub.Hub.Basic
/-!
The hub's side of a WebSocket connection. The text of a frame is published as it is, under a name
made of the connection's id; frames of other kinds publish nothing. A peer receives only the text
of each broadcast.
-/

set_option autoImplicit false

namespace ChatHub

def chatPath : String :=
  "/ws/chat"

inductive SocketEvent where
  | text (text : String)
  | binary (bytes : List UInt8)
  | ping (bytes : List UInt8)
  | pong (bytes : List UInt8)
  | close
  /-- The stream broke or ended without a close frame. -/
  | failed
  deriving DecidableEq, Repr

structure SocketPeer where
  connection : ConnectionId
  isOpen : Bool := true
  deriving DecidableEq, Repr, Inhabited

namespace SocketPeer

def accept (hub : Hub) : SocketPeer × Hub :=
  let (connection, hub) := hub.attach
  ({ connection }, hub)

def sender (connection : ConnectionId) : String :=
  "ws-" ++ toString connection

def close (peer : SocketPeer) (hub : Hub) : SocketPeer × Hub :=
  ({ peer with isOpen := false },
    (hub.detach peer.connection).dropMailbox peer.connection)

/-- Takes what came out of the stream. Nothing behind its end is looked at. -/
def take (timestamp : String) (state : SocketPeer × Hub) (event : SocketEvent) :
    SocketPeer × Hub :=
  let (peer, hub) := state
  if peer.isOpen then
    match event with
    | .text text =>
      (peer, (hub.publish peer.connection ⟨sender peer.connection, text⟩ timestamp).2)
    | .binary _ | .ping _ | .pong _ => (peer, hub)
    | .close | .failed => peer.close hub
  else (peer, hub)

def takeAll (peer : SocketPeer) (timestamp : String) (events : List SocketEvent) (hub : Hub) :
    SocketPeer × Hub :=
  events.foldl (take timestamp) (peer, hub)

def outgoing (peer : SocketPeer) (hub : Hub) : List String × Hub :=
  if peer.isOpen then
    let (messages, hub) := hub.drain peer.connection
    (messages.map Stamped.text, hub)
  else ([], hub)

end SocketPeer

end ChatHub
