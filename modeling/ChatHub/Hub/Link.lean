import ChatHub.Hub.Basic
/-!
How a client in the same process reaches a hub. A link looks the same whatever is behind it:
messages go into an outbox, broadcasts come out of a mailbox. Behind an attached link a pump owns
a peer and moves the outbox to the hub; dropping the link stops the pump, which detaches the peer.
-/

set_option autoImplicit false

namespace ChatHub

/-- The far side of a link without a hub: whether it takes what is sent, and whether it has
stopped sending. -/
structure Line where
  accepts : Bool := true
  senderGone : Bool := false
  mailbox : Mailbox := {}
  deriving Repr, Inhabited

namespace Line

def dead : Line :=
  { accepts := false, senderGone := true }

def isOpen (line : Line) : Bool :=
  !line.senderGone && line.mailbox.held

def deliver (line : Line) (message : Stamped) : Line :=
  if line.isOpen then { line with mailbox := line.mailbox.deliver message } else line

/-- Ends the sending side; what is queued can still be taken. -/
def hangUp (line : Line) : Line :=
  { line with senderGone := true }

def refuse (line : Line) : Line :=
  { line with accepts := false }

def drop (line : Line) : Line :=
  { line with mailbox := line.mailbox.drop }

end Line

inductive LineEvent where
  | deliver (message : Stamped)
  | hangUp
  | refuse
  deriving DecidableEq, Repr

def Line.take (line : Line) : LineEvent → Line
  | .deliver message => line.deliver message
  | .hangUp => line.hangUp
  | .refuse => line.refuse

/-- A link and, for an attached one, the messages in its outbox that the pump has not taken. -/
inductive Link where
  | attached (connection : ConnectionId) (outbox : Fifo Inbound)
  | detached (line : Line)
  deriving Repr

namespace Link

def dead : Link :=
  .detached Line.dead

def connect (hub : Hub) : Link × Hub :=
  let (connection, hub) := hub.attach
  (.attached connection {}, hub)

def send? (link : Link) (message : Inbound) : Option Link :=
  match link with
  | .attached connection outbox => some (.attached connection (outbox.push message))
  | .detached line => if line.accepts then some (.detached line) else none

def pumpOnce? (link : Link) (timestamp : String) (hub : Hub) : Option (Link × Hub) :=
  match link with
  | .attached connection outbox =>
    match outbox.pop? with
    | some (message, rest) =>
      some (.attached connection rest, (hub.publish connection message timestamp).2)
    | none => none
  | .detached _ => none

def pump (link : Link) (timestamp : String) (hub : Hub) : Link × Hub :=
  match link with
  | .attached connection outbox =>
    (.attached connection {},
      outbox.toList.foldl (fun hub message => (hub.publish connection message timestamp).2) hub)
  | .detached line => (.detached line, hub)

def poll (link : Link) (hub : Hub) : Option Received × Link × Hub :=
  match link with
  | .attached connection outbox =>
    let (outcome, hub) := hub.poll connection
    (outcome, .attached connection outbox, hub)
  | .detached line =>
    let (outcome, mailbox) := line.mailbox.poll line.senderGone
    (outcome, .detached { line with mailbox }, hub)

/-- Drops the link: the mailbox goes, the pump stops and its peer is detached. What the pump had
not taken is never published. -/
def drop (link : Link) (hub : Hub) : Link × Hub :=
  match link with
  | .attached connection _ =>
    (.detached Line.dead.drop, (hub.dropMailbox connection).detach connection)
  | .detached line => (.detached line.drop, hub)

def isGone : Link → Bool
  | .attached .. => false
  | .detached line => !line.mailbox.held

/-- Has the far side do something, absent if that is a hub. -/
def take? (link : Link) (event : LineEvent) : Option Link :=
  match link with
  | .attached .. => none
  | .detached line => some (.detached (line.take event))

end Link

end ChatHub
