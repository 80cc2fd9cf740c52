import ChatHub.Load.Generator
import ChatHub.Net.TcpLink
/-!
A load test whose users reach a hub over sockets. Whoever owns the sockets tells the test what
happens at them and what the clocks say; the test says what to write and which sockets to give up.
-/

set_option autoImplicit false

namespace ChatHub

/-- The readings of both clocks since the beginning of a test, in milliseconds and nanoseconds. -/
structure Reading where
  time : Nat
  stopwatch : Nat
  deriving DecidableEq, Repr

inductive RemoteEvent where
  | connected
  | refused
  | bytes (bytes : List UInt8)
  /-- The hub sends no more. -/
  | ended
  /-- Nothing more can be written. -/
  | unwritable
  deriving DecidableEq, Repr

/-- A test under way. `readers` holds what each user's input has come to, in the order of the
users; a reader's line is the one in the user's link while the user is looked at. `written` counts
the probes that have been given out. -/
structure RemoteRun where
  run : LoadRun
  readers : List TcpLink
  written : Nat := 0

namespace RemoteRun

def plan : ConnectPlan :=
  { connector := .give, link := some (.detached {}), answers := false }

def start (config : BenchConfig) (duration concurrency : Nat) : Except LoadRefusal RemoteRun := do
  let run ← LoadRun.start config duration {} (List.replicate concurrency plan)
  .ok { run, readers := List.replicate concurrency {} }

def modifyUser (remote : RemoteRun) (index : Nat) (change : User → User) : RemoteRun :=
  let population := remote.run.population
  { remote with
    run := { remote.run with
      population := { population with users := population.users.modify index change } } }

/-- The connector of a user answers now, unless the user has left. -/
def answer (remote : RemoteRun) (index : Nat) (result : ConnectResult) : RemoteRun :=
  remote.modifyUser index fun user =>
    match user.phase with
    | .connecting none =>
      { user with connector := result, phase := .connecting (some remote.run.population.now) }
    | _ => user

def modifyLink (remote : RemoteRun) (index : Nat) (change : TcpLink → TcpLink) : RemoteRun :=
  match remote.readers[index]?, remote.run.population.users[index]?.bind User.link with
  | some reader, some (.detached line) =>
    let reader := change { reader with line }
    { remote.modifyUser index fun user => { user with link := some (.detached reader.line) } with
      readers := remote.readers.set index reader }
  | _, _ => remote

def take (remote : RemoteRun) (index : Nat) : RemoteEvent → RemoteRun
  | .connected => remote.answer index .give
  | .refused => remote.answer index .refuse
  | .bytes bytes => remote.modifyLink index (·.receive bytes)
  | .ended => remote.modifyLink index TcpLink.finish
  | .unwritable => remote.modifyLink index fun link => { link with line := link.line.refuse }

def moveTo (remote : RemoteRun) (reading : Reading) : RemoteRun :=
  let population := remote.run.population
  { remote with
    run := { remote.run with
      population := { population with
        now := max population.now reading.time
        stopwatch := max population.stopwatch reading.stopwatch } } }

def turnLimit : Nat := 1000

def catchUp (calendar : Nat → String) : Nat → LoadRun → LoadRun
  | 0, run => run
  | turns + 1, run =>
    match run.turn calendar with
    | (true, next) => catchUp calendar turns next
    | (false, _) => run

/-- Lets everything happen that can happen at a reading of the clocks. Broadcasts that come from a
hub bring their own time, so the test needs no calendar. -/
def advance (remote : RemoteRun) (reading : Reading) : RemoteRun :=
  let moved := remote.moveTo reading
  { moved with run := catchUp (fun _ => "") turnLimit moved.run }

/-- The lines that have not been given out, each with its user, the earliest first. -/
def outgoing (remote : RemoteRun) : List (Nat × List UInt8) × RemoteRun :=
  let population := remote.run.population
  let fresh := (population.probes.take (population.probes.length - remote.written)).reverse
  let lines := fresh.filterMap fun probe =>
    population.users[probe.2]?.map fun user => (probe.2, TcpLink.encode user.probe)
  (lines, { remote with written := population.probes.length })

def hasLeft (remote : RemoteRun) (index : Nat) : Bool :=
  remote.run.population.users[index]?.any fun user => user.linkGone || user.phase.isEnded

def report? (remote : RemoteRun) : Option Report :=
  remote.run.stage.report?

end RemoteRun

end ChatHub
