import ChatHub.Hub.Link
import ChatHub.Wire.Reading
import ChatHub.Wire.Writing
/-!
The client's side of a TCP connection to a hub, as a link: messages go out as lines, and stamped
lines that come in fill the mailbox. The mailbox is closed by the end of the input or by a line
that is no message.
-/

set_option autoImplicit false

namespace ChatHub

/-- A link over a connection, with the bytes of a line that is not complete. `isReading` says
whether input is still looked at. -/
structure TcpLink where
  buffer : Wire.LineBuffer := {}
  line : Line := {}
  isReading : Bool := true
  deriving Repr, Inhabited

namespace TcpLink

def stopReading (link : TcpLink) : TcpLink :=
  { buffer := {}, line := link.line.hangUp, isReading := false }

/-- Puts what a piece of the input holds into the mailbox. -/
def takePiece (link : TcpLink) (piece : List UInt8) : TcpLink :=
  if link.isReading then
    match Wire.readPiece Wire.stampedFormat piece with
    | none => link
    | some (.ok message) => { link with line := link.line.deliver message }
    | some (.error _) => link.stopReading
  else link

def receive (link : TcpLink) (bytes : List UInt8) : TcpLink :=
  if link.isReading then
    let (buffer, pieces) := link.buffer.feed bytes
    pieces.foldl takePiece { link with buffer }
  else link

def finish (link : TcpLink) : TcpLink :=
  if link.isReading then (link.buffer.finish.toList.foldl takePiece link).stopReading else link

def encode (message : Inbound) : List UInt8 :=
  Wire.encodeLine Wire.inboundFormat message

def drain (link : TcpLink) : List Stamped × TcpLink :=
  let (messages, mailbox) := link.line.mailbox.drain
  (messages, { link with line := { link.line with mailbox } })

def isClosed (link : TcpLink) : Bool :=
  link.line.senderGone

end TcpLink

structure ScriptedServer where
  link : TcpLink := {}
  /-- Whether the server still has its connection. -/
  connected : Bool := true
  deriving Inhabited

namespace ScriptedServer

inductive Step where
  | feed (bytes : List UInt8)
  | eof
  | reset
  | send (message : Inbound)
  deriving DecidableEq, Repr

inductive Answer where
  | done
  | noServer
  | sent
  | linkClosed
  deriving DecidableEq, Repr

/-- What a step shows besides its answer: the messages in the link's mailbox, and the bytes that
the server received. -/
structure Shown where
  answer : Answer
  messages : List Stamped
  isClosed : Bool
  received : List UInt8
  deriving DecidableEq, Repr

/-- Does one step. The first message into a connection that is gone is lost, and then the link
takes no more. -/
def act (server : ScriptedServer) : Step → Answer × List UInt8 × ScriptedServer
  | .feed bytes =>
    if server.connected then (.done, [], { server with link := server.link.receive bytes })
    else (.noServer, [], server)
  | .eof =>
    if server.connected then (.done, [], { server with link := server.link.finish })
    else (.noServer, [], server)
  | .reset =>
    (.done, [], { link := server.link.stopReading, connected := false })
  | .send message =>
    if !server.link.line.accepts then (.linkClosed, [], server)
    else if server.connected then (.sent, TcpLink.encode message, server)
    else (.sent, [],
      { server with link := { server.link with line := server.link.line.refuse } })

def step (server : ScriptedServer) (step : Step) : Shown × ScriptedServer :=
  let (answer, received, server) := server.act step
  let (messages, link) := server.link.drain
  ({ answer, messages, isClosed := link.isClosed, received }, { server with link })

def run (server : ScriptedServer) : List Step → List Shown
  | [] => []
  | first :: rest =>
    let (shown, next) := server.step first
    shown :: next.run rest

end ScriptedServer

end ChatHub
