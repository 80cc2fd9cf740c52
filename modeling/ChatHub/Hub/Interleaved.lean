import ChatHub.Hub.Basic
import ChatHub.Roster
/-!
A hub used by several threads at once, in atomic steps. A publish takes a snapshot of the registry
and then makes one delivery for each target, in any order; attaching takes an id and then registers
it; dropping a peer removes it from the registry. Between any two of these others may come, but one
connection has at most one publish under way.
-/

set_option autoImplicit false

namespace ChatHub.Interleaved

/-- A publish that has begun, with the registry that its snapshot saw. -/
structure Publication where
  origin : ConnectionId
  message : Stamped
  registry : Registry ConnectionId

/-- A publish under way: the number of its publication, the targets still without a delivery, and
the count of those made. -/
structure Flight where
  number : Nat
  message : Stamped
  targets : List (ConnectionId × ConnectionId)
  report : DeliveryReport := {}
  deriving Repr

/-- The hub and the calls on it. The last three parts are records, on which no step depends. -/
structure State where
  hub : Hub := {}
  /-- Ids that were taken and are not registered yet. -/
  attaching : List ConnectionId := []
  /-- The publish under way of each connection. -/
  flights : Roster ConnectionId Flight := {}
  /-- All publishes that have begun, in the order of their snapshots. -/
  publications : List Publication := []
  /-- The numbers of the publications that were put into each mailbox, in that order. -/
  arrivals : ConnectionId → List Nat := fun _ => []
  /-- The messages taken out of each mailbox, oldest first. -/
  taken : ConnectionId → List Stamped := fun _ => []

inductive Move where
  | allocate
  | enroll (id : ConnectionId)
  | snapshot (origin : ConnectionId) (message : Inbound) (timestamp : String)
  | deliver (origin : ConnectionId) (target : ConnectionId × ConnectionId)
  | finish (origin : ConnectionId)
  | detach (id : ConnectionId)
  | dropMailbox (id : ConnectionId)
  | take (id : ConnectionId)
  deriving DecidableEq, Repr

def extend {α : Type} (lists : ConnectionId → List α) (id : ConnectionId) (item : α) :
    ConnectionId → List α :=
  fun other => if other = id then lists other ++ [item] else lists other

namespace State

def sent? (state : State) (number : Nat) : Option Stamped :=
  state.publications[number]?.map Publication.message

def isFrom (state : State) (origin : ConnectionId) (number : Nat) : Bool :=
  state.publications[number]?.any fun publication => publication.origin = origin

def IsFinished (state : State) (number : Nat) : Prop :=
  ∀ origin flight, state.flights.get? origin = some flight → flight.number ≠ number

/-- Takes one step, absent if no call is about to take it. -/
def step? (state : State) : Move → Option State
  | .allocate =>
    let (id, hub) := state.hub.allocate
    some { state with hub, attaching := state.attaching ++ [id] }
  | .enroll id =>
    if id ∈ state.attaching then
      some { state with hub := state.hub.enroll id, attaching := state.attaching.erase id }
    else none
  | .snapshot origin message timestamp =>
    match state.flights.get? origin with
    | some _ => none
    | none =>
      let stamped := message.stamp timestamp
      some { state with
        flights := state.flights.put origin
          { number := state.publications.length
            message := stamped
            targets := state.hub.snapshot origin }
        publications := state.publications ++ [⟨origin, stamped, state.hub.registry⟩] }
  | .deliver origin target =>
    match state.flights.get? origin with
    | none => none
    | some flight =>
      if target ∈ flight.targets then
        let (accepted, hub) := state.hub.deliver target.2 flight.message
        some { state with
          hub
          flights := state.flights.put origin
            { flight with
              targets := flight.targets.erase target
              report := flight.report.count accepted }
          arrivals :=
            if accepted then extend state.arrivals target.2 flight.number else state.arrivals }
      else none
  | .finish origin =>
    match state.flights.get? origin with
    | none => none
    | some flight =>
      if flight.targets.isEmpty then
        some { state with
          hub := { state.hub with failures := state.hub.failures + flight.report.failed }
          flights := state.flights.erase origin }
      else none
  | .detach id => some { state with hub := state.hub.detach id }
  | .dropMailbox id => some { state with hub := state.hub.dropMailbox id }
  | .take id =>
    match state.hub.poll id with
    | (some (.message message), hub) =>
      some { state with hub, taken := extend state.taken id message }
    | _ => none

def run? (state : State) (moves : List Move) : Option State :=
  moves.foldlM step? state

end State

inductive Reaches (first : State) : State → Prop where
  | refl : Reaches first first
  | step {state next : State} (move : Move) :
      Reaches first state → state.step? move = some next → Reaches first next

theorem Reaches.of_run? {state next : State} {moves : List Move}
    (ran : state.run? moves = some next) : Reaches state next := by
  suffices ∀ middle, Reaches state middle → middle.run? moves = some next → Reaches state next from
    this state .refl ran
  clear ran
  induction moves with
  | nil =>
    intro middle reached ran
    cases ran
    exact reached
  | cons move rest ih =>
    intro middle reached ran
    obtain ⟨moved, first, later⟩ := Option.bind_eq_some_iff.mp ran
    exact ih moved (reached.step move first) later

end ChatHub.Interleaved
