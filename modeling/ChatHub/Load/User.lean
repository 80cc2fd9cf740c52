import ChatHub.Hub.Link
import ChatHub.Latency.Recorder
/-!
One simulated client. It connects, waits for the common start, and then sends a probe and waits
for a broadcast from anyone else, again and again. What completes its waits are the probes of the
other users, as the hub never returns its own.
-/

set_option autoImplicit false

namespace ChatHub

inductive UserState where
  | connecting
  | waitingForStart
  | probing
  | awaitingEcho
  | stopping
  | stopped
  deriving DecidableEq, Repr

inductive UserExit where
  | cancelled
  | connectFailed
  | linkLost
  deriving DecidableEq, Repr

/-- Where a user stands between two atomic steps. A user whose task was dropped has no exit. -/
inductive Phase where
  /-- The connector answers at a time, or never. -/
  | connecting (due : Option Nat)
  | waitingForStart
  | probing
  /-- The probe is in the outbox since a reading of the stopwatch and has not been counted. -/
  | sent (sentAt : Nat)
  | awaiting (sentAt deadline : Nat)
  /-- A message has come and has not been recorded. -/
  | answered (sentAt : Nat)
  /-- The bound has run out and has not been counted. -/
  | unanswered
  | pacing (until_ : Nat)
  /-- The link was found closed in a state. -/
  | lost (state : UserState)
  /-- On the way out with the link still in hand. -/
  | stopping (exit : Option UserExit)
  /-- The link is gone, the handle is not. -/
  | stopped (exit : Option UserExit)
  /-- The handle is gone, the guard is not. -/
  | flushed (exit : Option UserExit)
  | ended (exit : Option UserExit)
  deriving DecidableEq, Repr

namespace Phase

/-- The state that a phase belongs to. Recording an answer and pacing are part of the wait. -/
def state : Phase → UserState
  | .connecting _ => .connecting
  | .waitingForStart => .waitingForStart
  | .probing | .sent _ => .probing
  | .awaiting .. | .answered _ | .unanswered | .pacing _ => .awaitingEcho
  | .lost state => state
  | .stopping _ => .stopping
  | .stopped _ | .flushed _ | .ended _ => .stopped

def holdsLink : Phase → Bool
  | .connecting _ | .stopped _ | .flushed _ | .ended _ => false
  | _ => true

def isEnded : Phase → Bool
  | .ended _ => true
  | _ => false

/-- How the user left its loop, absent as long as it is in there. -/
def exit : Phase → Option UserExit
  | .stopping exit | .stopped exit | .flushed exit | .ended exit => exit
  | _ => none

/-- Whether the user waits for something, so that cancellation is seen and its task can be
dropped. -/
def isSuspended : Phase → Bool
  | .connecting _ | .waitingForStart | .awaiting .. | .pacing _ => true
  | _ => false

def timer : Phase → Option Nat
  | .connecting due => due
  | .awaiting _ deadline => some deadline
  | .pacing until_ => some until_
  | _ => none

end Phase

inductive ConnectResult where
  /-- Attaches to the hub. -/
  | attach
  /-- Hands out a link that exists already. -/
  | give
  | refuse
  deriving DecidableEq, Repr

/-- A user. Its link is there from the beginning if the connector only hands it out, and its handle
is absent once it was dropped. -/
structure User where
  id : Nat
  connector : ConnectResult
  link : Option Link
  phase : Phase
  handle : Option LatencyHandle

namespace User

def sender (user : User) : String :=
  "client-" ++ toString user.id

def probe (user : User) : Inbound :=
  { sender := user.sender, text := "ping" }

def linkGone (user : User) : Bool :=
  user.link.any Link.isGone

end User

end ChatHub
