import ChatHub.Gate.Basic
import ChatHub.Load.Counters
import ChatHub.Load.Settings
import ChatHub.Load.User
/-!
Users that run side by side, with everything they share. The state changes in atomic steps; which
of the possible steps comes next is up to a scheduler, so a sequence of steps is one way in which
the users can interleave.
-/

set_option autoImplicit false

namespace ChatHub

/-- Users and what they share. Waits are timed by a clock in milliseconds, latencies are measured
with a stopwatch in nanoseconds. `probes` lists when which user put a probe into its outbox, the
latest first. -/
structure Population where
  settings : ProbeSettings
  hub : Hub := {}
  users : List User
  start : StartGate := {}
  completion : CompletionGate
  cancelled : Bool := false
  counters : Counters := {}
  recorder : LatencyRecorder := {}
  probes : List (Nat × Nat) := []
  now : Nat := 0
  stopwatch : Nat := 0

/-- One atomic step. A user that waits either looks for cancellation or for what it waits for. -/
inductive Move where
  | cancel (user : Nat)
  | proceed (user : Nat)
  | pump (user : Nat)
  /-- The far side of a link without a hub does something. -/
  | line (user : Nat) (event : LineEvent)
  /-- The user's task is dropped. -/
  | abort (user : Nat)
  | publish (origin : ConnectionId) (message : Inbound)
  | advance (time : Nat)
  | measure (reading : Nat)
  deriving DecidableEq, Repr

namespace Population

/-- What one user's step leads to: the user, and the population without the change to it. -/
abbrev UserStep := Option (User × Population)

def cancelUser? (population : Population) (user : User) : Option User :=
  if population.cancelled then
    match user.phase with
    | .connecting _ => some { user with phase := .stopped (some .cancelled) }
    | .waitingForStart | .awaiting .. | .pacing _ =>
      some { user with phase := .stopping (some .cancelled) }
    | _ => none
  else none

def abortUser? (user : User) : Option User :=
  if user.phase.isSuspended then
    some { user with phase := if user.phase.holdsLink then .stopping none else .stopped none }
  else none

def connected (population : Population) (user : User) : User × Population :=
  match user.connector with
  | .refuse =>
    ({ user with phase := .stopped (some .connectFailed) },
      { population with counters := population.counters.count .connectFailure })
  | .give => ({ user with phase := .waitingForStart }, population)
  | .attach =>
    let (link, hub) := Link.connect population.hub
    ({ user with link := some link, phase := .waitingForStart }, { population with hub })

def send (population : Population) (user : User) : User × Population :=
  match user.link.bind (·.send? user.probe) with
  | some link =>
    ({ user with link := some link, phase := .sent population.stopwatch },
      { population with probes := (population.now, user.id) :: population.probes })
  | none => ({ user with phase := .lost .probing }, population)

/-- A look into the mailbox: a message first, then the end of the link, then the bound. -/
def listen? (population : Population) (user : User) (sentAt deadline : Nat) : UserStep :=
  let timedOut : UserStep :=
    if deadline ≤ population.now then some ({ user with phase := .unanswered }, population)
    else none
  match user.link with
  | none => timedOut
  | some link =>
    match link.poll population.hub with
    | (some (.message _), link, hub) =>
      some ({ user with link := some link, phase := .answered sentAt }, { population with hub })
    | (some _, _, _) => some ({ user with phase := .lost .awaitingEcho }, population)
    | (none, _, _) => timedOut

/-- Whether a closed link counts as lost depends on whether the run was cancelled. -/
def lose (population : Population) (user : User) : User × Population :=
  if population.cancelled then
    ({ user with phase := .stopping (some .cancelled) }, population)
  else
    ({ user with phase := .stopping (some .linkLost) },
      { population with counters := population.counters.count .linkFailure })

def dropLink (population : Population) (user : User) : User × Population :=
  match user.link with
  | none => (user, population)
  | some link =>
    let (link, hub) := link.drop population.hub
    ({ user with link := some link }, { population with hub })

def proceedUser? (population : Population) (user : User) : UserStep :=
  let pause (user : User) : User :=
    { user with phase := .pacing (population.now + population.settings.pacing) }
  match user.phase with
  | .connecting due =>
    if due.any (· ≤ population.now) then some (population.connected user) else none
  | .waitingForStart =>
    if population.start.isOpen then some ({ user with phase := .probing }, population) else none
  | .probing => some (population.send user)
  | .sent sentAt =>
    some ({ user with phase := .awaiting sentAt (population.now + population.settings.waitBound) },
      { population with counters := population.counters.count .probe })
  | .awaiting sentAt deadline => population.listen? user sentAt deadline
  | .answered sentAt => do
    let (handle, recorder) :=
      (← user.handle).record (population.stopwatch - sentAt) population.recorder
    some (pause { user with handle := some handle }, { population with recorder })
  | .unanswered =>
    some (pause user, { population with counters := population.counters.count .timeout })
  | .pacing until_ =>
    if until_ ≤ population.now then some ({ user with phase := .probing }, population) else none
  | .lost _ => some (population.lose user)
  | .stopping exit =>
    let (user, population) := population.dropLink user
    some ({ user with phase := .stopped exit }, population)
  | .stopped exit =>
    -- A link that was never handed out goes with the connector.
    let (user, population) := population.dropLink user
    let recorder := user.handle.elim population.recorder population.recorder.dropHandle
    some ({ user with phase := .flushed exit, handle := none }, { population with recorder })
  | .flushed exit =>
    some ({ user with phase := .ended exit },
      { population with completion := population.completion.countDown })
  | .ended _ => none

def setUser (population : Population) (index : Nat) (user : User) : Population :=
  { population with users := population.users.set index user }

/-- Takes one step, absent if it is not possible. Neither clock goes back. -/
def step? (calendar : Nat → String) (population : Population) : Move → Option Population
  | .cancel index => do
    let user ← population.users[index]?
    let user ← population.cancelUser? user
    some (population.setUser index user)
  | .abort index => do
    let user ← population.users[index]?
    let user ← abortUser? user
    some (population.setUser index user)
  | .proceed index => do
    let user ← population.users[index]?
    let (user, population) ← population.proceedUser? user
    some (population.setUser index user)
  | .pump index => do
    let user ← population.users[index]?
    let link ← user.link
    let (link, hub) ← link.pumpOnce? (calendar population.now) population.hub
    some ({ population with hub }.setUser index { user with link := some link })
  | .line index event => do
    let user ← population.users[index]?
    let link ← user.link
    let link ← link.take? event
    some (population.setUser index { user with link := some link })
  | .publish origin message =>
    some { population with
      hub := (population.hub.publish origin message (calendar population.now)).2 }
  | .advance time =>
    if population.now < time then some { population with now := time } else none
  | .measure reading =>
    if population.stopwatch < reading then some { population with stopwatch := reading } else none

def openStart (population : Population) : Population :=
  { population with start := population.start.open }

def cancelAll (population : Population) : Population :=
  { population with cancelled := true }

end Population

end ChatHub
