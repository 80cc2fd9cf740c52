import ChatHub.Gate.Basic
/-!
How a completion gate is used by several threads at once, in atomic steps. Counting down is a
decrement and then, by whoever brought the count to zero, a notification of all waiters that are
registered at that moment. Waiting is a registration, then a look at the count, and then either
the return or a sleep until notified.
-/

set_option autoImplicit false

namespace ChatHub.Wakeup

/-- One call that counts down. -/
inductive Counter where
  | ready
  /-- The count went from one to zero, and nobody has been told yet. -/
  | notifying
  | done
  deriving DecidableEq, Repr

/-- One call that waits. A notification reaches a registered waiter whether or not it sleeps. -/
inductive Waiter where
  /-- About to register. -/
  | idle
  | registered (notified : Bool)
  | parked (notified : Bool)
  | returned
  deriving DecidableEq, Repr

def Waiter.notify : Waiter → Waiter
  | .registered _ => .registered true
  | .parked _ => .parked true
  | waiter => waiter

structure State where
  gate : CompletionGate
  counters : List Counter
  waiters : List Waiter
  deriving DecidableEq, Repr

inductive Move where
  | decrement (counter : Nat)
  | notifyAll (counter : Nat)
  | register (waiter : Nat)
  | look (waiter : Nat)
  | wake (waiter : Nat)
  deriving DecidableEq, Repr

namespace State

def initial (count counters waiters : Nat) : State :=
  { gate := ⟨count⟩
    counters := List.replicate counters .ready
    waiters := List.replicate waiters .idle }

def step? (state : State) : Move → Option State
  | .decrement counter =>
    match state.counters[counter]? with
    | some .ready =>
      let next := if state.gate.remaining = 1 then .notifying else .done
      some { state with
        gate := state.gate.countDown
        counters := state.counters.set counter next }
    | _ => none
  | .notifyAll counter =>
    match state.counters[counter]? with
    | some .notifying =>
      some { state with
        counters := state.counters.set counter .done
        waiters := state.waiters.map Waiter.notify }
    | _ => none
  | .register waiter =>
    match state.waiters[waiter]? with
    | some .idle => some { state with waiters := state.waiters.set waiter (.registered false) }
    | _ => none
  | .look waiter =>
    match state.waiters[waiter]? with
    | some (.registered notified) =>
      let next := if state.gate.isComplete then .returned else .parked notified
      some { state with waiters := state.waiters.set waiter next }
    | _ => none
  | .wake waiter =>
    match state.waiters[waiter]? with
    | some (.parked true) => some { state with waiters := state.waiters.set waiter .idle }
    | _ => none

end State

inductive Reaches (first : State) : State → Prop where
  | refl : Reaches first first
  | step {state next : State} (move : Move) :
      Reaches first state → state.step? move = some next → Reaches first next

end ChatHub.Wakeup
