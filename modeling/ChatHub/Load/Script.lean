import ChatHub.Load.Schedule
/-!
A single user on a link whose far side follows a script, on a virtual clock.
-/

set_option autoImplicit false

namespace ChatHub

inductive ScriptedConnect where
  | link
  | refuse
  | never
  deriving DecidableEq, Repr

inductive ScriptStep where
  | open
  | cancel
  | deliver (count : Nat)
  | closeMailbox
  | closeOutbox
  | nothing
  deriving DecidableEq, Repr

/-- What a step of the script reports: how many messages were taken, or whether there was
anything to close. -/
inductive ScriptAnswer where
  | none
  | accepted (count : Nat)
  | wasOpen (value : Bool)
  deriving DecidableEq, Repr

structure Snapshot where
  time : Nat
  answer : ScriptAnswer
  counters : Counters
  remaining : Nat
  finished : Bool
  linkGone : Bool
  deriving DecidableEq, Repr

/-- The end of a script: the user's exit, absent if it had to be aborted, what it measured, and
when it sent its probes, the earliest first. -/
structure ScriptResult where
  exit : Option UserExit
  samples : Nat
  sent : List (Nat × Inbound)
  remaining : Nat
  deriving DecidableEq, Repr

namespace UserScript

def user? (population : Population) : Option User :=
  population.users.head?

def initial (settings : ProbeSettings) (id : Nat) (connect : ScriptedConnect) (delay : Nat)
    (opened : Bool) : Population :=
  { settings
    users :=
      [{ id
         connector := if connect = .refuse then .refuse else .give
         link := some (.detached {})
         phase := .connecting (if connect = .never then none else some delay)
         handle := some ({} : LatencyRecorder).handle }]
    start := { isOpen := opened }
    completion := { remaining := 1 } }

def withLine (population : Population) (change : Line → Line) : Population :=
  { population with
    users := population.users.map fun user =>
      match user.link with
      | some (.detached line) => { user with link := some (.detached (change line)) }
      | _ => user }

def line (population : Population) : Line :=
  match (user? population).bind User.link with
  | some (.detached line) => line
  | _ => Line.dead

def broadcast : Stamped :=
  { sender := "peer", text := "pong", timestamp := "" }

def act (population : Population) : ScriptStep → ScriptAnswer × Population
  | .open => (.none, population.openStart)
  | .cancel => (.none, population.cancelAll)
  | .deliver count =>
    (.accepted (if (line population).isOpen then count else 0),
      withLine population fun line => count.repeat (·.deliver broadcast) line)
  | .closeMailbox => (.wasOpen !(line population).senderGone, withLine population Line.hangUp)
  | .closeOutbox => (.none, withLine population Line.refuse)
  | .nothing => (.none, population)

def snapshot (population : Population) (answer : ScriptAnswer) : Snapshot :=
  { time := population.now
    answer
    counters := population.counters
    remaining := population.completion.remaining
    finished := (user? population).any (·.phase.isEnded)
    linkGone := (user? population).any User.linkGone }

/-- Follows the script; each step is done at its time, and then everything settles. -/
def follow (calendar : Nat → String) (population : Population) :
    List (Nat × ScriptStep) → Option (List Snapshot × Population)
  | [] => some ([], population)
  | (time, step) :: rest => do
    let due ← population.runUntil calendar time
    let (answer, acted) := act due step
    let settled ← acted.settle calendar
    let (snapshots, final) ← follow calendar settled rest
    some (snapshot settled answer :: snapshots, final)

def finish (calendar : Nat → String) (population : Population) : Option ScriptResult := do
  let user ← user? population
  let final ← (population.abortAll calendar).settle calendar
  let (summary, _) := final.recorder.summarize
  some
    { exit := if user.phase.isEnded then user.phase.exit else none
      samples := (summary.map LatencySummary.count).getD 0
      sent := (final.probes.map fun probe => (probe.1, user.probe)).reverse
      remaining := final.completion.remaining }

/-- Runs a whole script, with a last snapshot at its end. Absent if the user never comes to rest
at some moment. -/
def run (calendar : Nat → String) (population : Population) (steps : List (Nat × ScriptStep))
    (until_ : Nat) : Option (List Snapshot × ScriptResult) := do
  let (snapshots, final) ← follow calendar population (steps ++ [(until_, .nothing)])
  let result ← finish calendar final
  some (snapshots, result)

end UserScript

end ChatHub
