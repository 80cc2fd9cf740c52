import ChatHub.Gate.Basic
import ChatHub.Roster
/-!
One start gate and one completion gate, used step by step on a virtual clock. After each step
everyone who can go on does so before time moves again.
-/

set_option autoImplicit false

namespace ChatHub

/-- What a waiter waits for. A bounded one gives up at its deadline. -/
inductive GateWait where
  | start
  | completion
  | bounded (deadline : Nat)
  deriving DecidableEq, Repr

inductive Release where
  | opened
  | zero
  | within (complete : Bool)
  deriving DecidableEq, Repr

structure GateSession where
  start : StartGate := {}
  completion : CompletionGate
  guards : List Nat := []
  waiters : Roster Nat GateWait := {}
  now : Nat := 0
  deriving Repr

namespace GateSession

inductive Step where
  | open
  | countDown
  | guard (name : Nat)
  | dropGuard (name : Nat)
  /-- The task that owns the guard panics. -/
  | panicGuard (name : Nat)
  | waitStart (name : Nat)
  | waitCompletion (name : Nat)
  | waitBounded (name : Nat) (bound : Nat)
  | abort (name : Nat)
  | advance (duration : Nat)
  deriving DecidableEq, Repr

/-- What a step shows: an answer if it has one, and the waiters that were released. -/
structure Outcome where
  answer : Option Bool := none
  released : List (Nat × Release) := []
  deriving DecidableEq, Repr

/-- How a wait ends at this moment, absent if it goes on. A gate that is complete when the
deadline is reached counts as reached in time. -/
def release? (session : GateSession) : GateWait → Option Release
  | .start => if session.start.isOpen then some .opened else none
  | .completion => if session.completion.isComplete then some .zero else none
  | .bounded deadline =>
    if session.completion.isComplete then some (.within true)
    else if deadline ≤ session.now then some (.within false)
    else none

def settle (session : GateSession) : List (Nat × Release) × GateSession :=
  (session.waiters.entries.filterMap fun entry =>
      (session.release? entry.2).map fun release => (entry.1, release),
    { session with
      waiters := ⟨session.waiters.entries.filter fun entry =>
        (session.release? entry.2).isNone⟩ })

/-- Ends a guard, which counts down if there was one. -/
def endGuard (session : GateSession) (name : Nat) : GateSession :=
  if name ∈ session.guards then
    { session with
      completion := session.completion.countDown
      guards := session.guards.erase name }
  else session

/-- Does what a step asks for, before anyone else goes on. A new waiter takes the place of one
that has the same name, and a new guard ends one that has the same name. -/
def act (session : GateSession) : Step → Option Bool × GateSession
  | .open => (none, { session with start := session.start.open })
  | .countDown => (none, { session with completion := session.completion.countDown })
  | .guard name =>
    let ended := session.endGuard name
    (none, { ended with guards := ended.guards ++ [name] })
  | .dropGuard name => (some (name ∈ session.guards), session.endGuard name)
  | .panicGuard name => (some true, session.endGuard name)
  | .waitStart name => (none, { session with waiters := session.waiters.put name .start })
  | .waitCompletion name =>
    (none, { session with waiters := session.waiters.put name .completion })
  | .waitBounded name bound =>
    (none, { session with waiters := session.waiters.put name (.bounded (session.now + bound)) })
  | .abort name => (none, { session with waiters := session.waiters.erase name })
  | .advance duration => (none, { session with now := session.now + duration })

def step (session : GateSession) (step : Step) : Outcome × GateSession :=
  let (answer, acted) := session.act step
  let (released, settled) := acted.settle
  ({ answer, released }, settled)

def run (session : GateSession) : List Step → List (Outcome × GateSession)
  | [] => []
  | first :: rest =>
    let (outcome, next) := session.step first
    (outcome, next) :: next.run rest

end GateSession

end ChatHub
