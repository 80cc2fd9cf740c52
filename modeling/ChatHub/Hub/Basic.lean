import ChatHub.Mailbox
import ChatHub.Registry
/-!
The broadcast hub. Every attached connection has a mailbox; what one connection publishes is
stamped and queued in the mailboxes of all others and never in its own. The operations are built
from the atomic steps `allocate`, `enroll`, `snapshot`, `deliver` and `detach`, which is how far
concurrent callers can interleave.
-/

set_option autoImplicit false

namespace ChatHub

/-- The state of a hub. The channel that an attached connection registers is the address of its
mailbox, which is its own id. -/
structure Hub where
  nextId : ConnectionId := 1
  registry : Registry ConnectionId := ∅
  mailboxes : Registry Mailbox := ∅
  failures : Nat := 0
  deriving Inhabited

namespace Hub

def allocate (hub : Hub) : ConnectionId × Hub :=
  (hub.nextId,
    { hub with
      nextId := hub.nextId + 1
      mailboxes := hub.mailboxes.register hub.nextId {} })

def enroll (hub : Hub) (id : ConnectionId) : Hub :=
  { hub with registry := hub.registry.register id id }

def snapshot (hub : Hub) (origin : ConnectionId) : List (ConnectionId × ConnectionId) :=
  hub.registry.snapshotExcept origin

def isOpen (hub : Hub) (mailbox : ConnectionId) : Bool :=
  (hub.mailboxes.get? mailbox).any Mailbox.held

def deliver (hub : Hub) (mailbox : ConnectionId) (message : Stamped) : Bool × Hub :=
  (hub.isOpen mailbox,
    { hub with mailboxes := hub.mailboxes.modify mailbox (·.deliver message) })

def detach (hub : Hub) (id : ConnectionId) : Hub :=
  { hub with registry := hub.registry.deregister id }

def attach (hub : Hub) : ConnectionId × Hub :=
  let (id, hub) := hub.allocate
  (id, hub.enroll id)

/-- Stamps a message and queues it in every mailbox but the origin's. The origin need not be
attached. Mailboxes without an owner count as failures. -/
def publish (hub : Hub) (origin : ConnectionId) (message : Inbound) (timestamp : String) :
    DeliveryReport × Hub :=
  let stamped := message.stamp timestamp
  let broadcast := hub.registry.broadcastExcept origin
    (fun (state : Hub) mailbox =>
      let (accepted, state) := state.deliver mailbox stamped
      (⟨accepted, []⟩, state))
    hub
  (broadcast.report,
    { broadcast.state with failures := broadcast.state.failures + broadcast.report.failed })

def peerCount (hub : Hub) : Nat :=
  hub.registry.size

def isAttached (hub : Hub) (id : ConnectionId) : Bool :=
  hub.registry.contains id

def dropMailbox (hub : Hub) (id : ConnectionId) : Hub :=
  { hub with mailboxes := hub.mailboxes.modify id Mailbox.drop }

def queued (hub : Hub) (id : ConnectionId) : List Stamped :=
  ((hub.mailboxes.get? id).map Mailbox.messages).getD []

/-- What a receive on a mailbox finds at this moment. The sending side is gone once the connection
is detached. -/
def poll (hub : Hub) (id : ConnectionId) : Option Received × Hub :=
  match hub.mailboxes.get? id with
  | none => (some .closed, hub)
  | some mailbox =>
    match mailbox.poll (!hub.isAttached id) with
    | (some outcome, mailbox) =>
      (some outcome, { hub with mailboxes := hub.mailboxes.modify id fun _ => mailbox })
    | (none, _) => (none, hub)

def drain (hub : Hub) (id : ConnectionId) : List Stamped × Hub :=
  (hub.queued id, { hub with mailboxes := hub.mailboxes.modify id fun mailbox => mailbox.drain.2 })

end Hub

end ChatHub
