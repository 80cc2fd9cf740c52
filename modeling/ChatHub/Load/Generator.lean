import ChatHub.Load.Report
import ChatHub.Load.Schedule
/-!
A load test: a coordinator lets a population of users warm up, opens the start gate, cancels them
when time is up, waits for them within bounds, and reports what was counted.
-/

set_option autoImplicit false

namespace ChatHub

inductive LoadRefusal where
  | noUsers
  | noTime
  deriving DecidableEq, Repr

def LoadRefusal.message : LoadRefusal → String
  | .noUsers => "concurrency must be positive"
  | .noTime => "duration must be positive"

/-- Where the coordinator stands. At the end it reads the samples, then the timeouts, and then the
other counters, while users may still be running. -/
inductive Stage where
  | warming (until_ : Nat)
  | measuring (until_ : Nat)
  | closing (deadline : Nat)
  /-- The bound has run out, and nobody has looked yet how many users are left. -/
  | overdue
  | summarizing (stragglers : Nat)
  /-- Users that are left may hand over what they have measured. -/
  | flushing (stragglers : Nat)
  | summarized (stragglers : Nat) (latency : Option LatencySummary)
  | timeoutsRead (stragglers : Nat) (latency : Option LatencySummary) (timeouts : Nat)
  | finished (report : Report)

namespace Stage

def timer : Stage → Option Nat
  | .warming time | .measuring time | .closing time => some time
  | _ => none

def isCollecting : Stage → Bool
  | .summarizing _ | .flushing _ | .summarized .. | .timeoutsRead .. => true
  | _ => false

def report? : Stage → Option Report
  | .finished report => some report
  | _ => none

end Stage

/-- A load test under way. `duration` is in seconds, `grace` in milliseconds. -/
structure LoadRun where
  duration : Nat
  grace : Nat
  population : Population
  stage : Stage

inductive LoadMove where
  | coordinator
  | other (move : Move)
  deriving DecidableEq, Repr

structure ConnectPlan where
  connector : ConnectResult := .attach
  /-- The link that is handed out. -/
  link : Option Link := none
  /-- Whether the connector ever answers. -/
  answers : Bool := true

namespace LoadRun

def usersOf (plans : List ConnectPlan) : List User :=
  plans.mapIdx fun id plan =>
    { id
      connector := plan.connector
      link := plan.link
      phase := .connecting (if plan.answers then some 0 else none)
      handle := some ({} : LatencyRecorder).handle }

def start (config : BenchConfig) (duration : Nat) (hub : Hub) (plans : List ConnectPlan) :
    Except LoadRefusal LoadRun :=
  if plans.isEmpty then .error .noUsers
  else if duration = 0 then .error .noTime
  else
    .ok
      { duration
        grace := config.grace
        population :=
          { settings := config.probe
            hub
            users := usersOf plans
            completion := { remaining := plans.length } }
        stage := .warming config.warmup }

def throughput (samples duration : Nat) : Float :=
  samples.toUInt64.toFloat / duration.toUInt64.toFloat

/-- The report made of what was read before and of the counters that are read last. -/
def report (run : LoadRun) (stragglers timeouts : Nat) (latency : Option LatencySummary) :
    Report :=
  let counters := run.population.counters
  { concurrency := run.population.users.length
    duration := run.duration
    samples := (latency.map LatencySummary.count).getD 0
    timeouts
    probes := counters.probes
    connectFailures := counters.connectFailures
    linkFailures := counters.linkFailures
    stragglers
    throughput := (latency.map fun summary => throughput summary.count run.duration).getD 0.0
    latency }

def coordinate? (run : LoadRun) : Option LoadRun :=
  let now := run.population.now
  match run.stage with
  | .warming time =>
    if time ≤ now then
      some { run with
        population := run.population.openStart
        stage := .measuring (now + 1000 * run.duration) }
    else none
  | .measuring time =>
    if time ≤ now then
      some { run with population := run.population.cancelAll, stage := .closing (now + run.grace) }
    else none
  | .closing deadline =>
    if run.population.completion.isComplete then some { run with stage := .summarizing 0 }
    else if deadline ≤ now then some { run with stage := .overdue }
    else none
  | .overdue => some { run with stage := .summarizing run.population.completion.remaining }
  | .summarizing stragglers =>
    some { run with
      population := { run.population with recorder := run.population.recorder.beginPhase }
      stage := .flushing stragglers }
  | .flushing stragglers =>
    let recorder := run.population.recorder.gather
    some { run with
      population := { run.population with recorder }
      stage := .summarized stragglers recorder.summary }
  | .summarized stragglers latency =>
    some { run with
      stage := .timeoutsRead stragglers latency run.population.counters.timeouts }
  | .timeoutsRead stragglers latency timeouts =>
    some { run with stage := .finished (run.report stragglers timeouts latency) }
  | .finished _ => none

def step? (calendar : Nat → String) (run : LoadRun) : LoadMove → Option LoadRun
  | .coordinator => run.coordinate?
  | .other move =>
    (run.population.step? calendar move).map fun population => { run with population }

/-! ### On a virtual clock -/

/-- The coordinator goes on until it has to wait or only collects, at most for a number of steps,
and it is said whether there was any. -/
def lead : Nat → LoadRun → Bool × LoadRun
  | 0, run => (false, run)
  | steps + 1, run =>
    match if run.stage.isCollecting then none else run.coordinate? with
    | some next => (true, (lead steps next).2)
    | none => (false, run)

/-- One turn of everyone, the coordinator first: from the end of the measured time to where it
collects there are three steps. It leaves collecting until nobody else can do anything. -/
def turn (calendar : Nat → String) (run : LoadRun) : Bool × LoadRun :=
  let (led, run) := run.lead 3
  let (moved, population) := run.population.turn calendar
  if moved then (true, { run with population })
  else if led then (true, run)
  else
    match run.coordinate? with
    | some next => (true, next)
    | none => (false, run)

def settle (calendar : Nat → String) (run : LoadRun) : Option LoadRun :=
  settleWithin (turn calendar) Population.turnLimit run

def nextTimer? (run : LoadRun) : Option Nat :=
  (run.stage.timer.toList ++ run.population.nextTimer?.toList).min?

def moveTo (run : LoadRun) (time : Nat) : LoadRun :=
  { run with population := run.population.moveTo time }

/-- Lets time pass until a moment or until there is a report. Each timer on the way takes one unit
of fuel. -/
def runUntilWithin (calendar : Nat → String) (moment : Nat) : Nat → LoadRun → Option LoadRun
  | 0, _ => none
  | fuel + 1, run => do
    let settled ← run.settle calendar
    if settled.stage.report?.isSome then some settled
    else
      match settled.nextTimer?.filter (· ≤ moment) with
      | some time => runUntilWithin calendar moment fuel (settled.moveTo time)
      | none => (settled.moveTo moment).settle calendar

/-- Timers lie ahead once everything has settled, so there are at most as many of them as there
are moments. -/
def runUntil (calendar : Nat → String) (moment : Nat) (run : LoadRun) : Option LoadRun :=
  run.runUntilWithin calendar moment (moment - run.population.now + 2)

def horizon (config : BenchConfig) (duration : Nat) : Nat :=
  config.warmup + 1000 * duration + config.grace

def publishAt (calendar : Nat → String) (origin : ConnectionId) (message : Inbound)
    (run : LoadRun) : List Nat → Option LoadRun
  | [] => some run
  | time :: rest => do
    let due ← run.runUntil calendar time
    if due.stage.report?.isSome then some due
    else
      let published ← due.step? calendar (.other (.publish origin message))
      publishAt calendar origin message published rest

/-- Runs a load test to its report, while someone else publishes a message at given times. -/
def run (calendar : Nat → String) (config : BenchConfig) (origin : ConnectionId)
    (message : Inbound) (times : List Nat) (run : LoadRun) : Option LoadRun := do
  let published ← run.publishAt calendar origin message (times.mergeSort (· ≤ ·))
  published.runUntil calendar (horizon config run.duration)

/-- What is left after the report: users that still run are aborted. -/
def close (calendar : Nat → String) (run : LoadRun) : Option Population :=
  (run.population.abortAll calendar).settle calendar

end LoadRun

end ChatHub
