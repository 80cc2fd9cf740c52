import ChatHub.Proofs.Load.Exits
import ChatHub.Proofs.Load.Lockstep
/-!
How a load test begins, and whom its coordinator takes for stragglers when it is done waiting. Main
statement: `Reached.looked`.
-/

set_option autoImplicit false

namespace ChatHub

/-- The stragglers that the coordinator has read. -/
def Stage.stragglers? : Stage → Option Nat
  | .summarizing stragglers | .flushing stragglers | .summarized stragglers _
  | .timeoutsRead stragglers _ _ => some stragglers
  | .finished report => some report.stragglers
  | _ => none

theorem Stage.stragglers?_of_report? {stage : Stage} {report : Report}
    (reported : stage.report? = some report) : stage.stragglers? = some report.stragglers := by
  cases stage with
  | finished given =>
    cases reported
    rfl
  | _ => cases reported

/-- The coordinator does not go on before its time. -/
def Stage.NotBefore (config : BenchConfig) (duration now : Nat) : Stage → Prop
  | .warming time => config.warmup ≤ time
  | .measuring time => config.closeAt duration ≤ time
  | .closing deadline => config.closeAt duration + config.grace ≤ deadline
  | .overdue => config.closeAt duration + config.grace ≤ now
  | _ => True

theorem Stage.NotBefore.later {config : BenchConfig} {duration now later : Nat} {stage : Stage}
    (notBefore : stage.NotBefore config duration now) (ahead : now ≤ later) :
    stage.NotBefore config duration later := by
  cases stage with
  | overdue => exact Nat.le_trans notBefore ahead
  | _ => exact notBefore

namespace LoadRun

variable {calendar : Nat → String} {config : BenchConfig} {duration : Nat}
  {first run next last : LoadRun}

/-- A load test at its beginning: whoever its users connect to, and whenever they are answered. -/
structure Begins (config : BenchConfig) (duration : Nat) (run : LoadRun) : Prop where
  fresh : run.population.Fresh
  distinct : (run.population.users.map User.id).Nodup
  lasts : run.duration = duration
  grace : run.grace = config.grace
  settings : run.population.settings = config.probe
  stage : run.stage = .warming config.warmup
  now : run.population.now = 0
  kept : run.population.cancelled = false

theorem begins_start {hub : Hub} {plans : List ConnectPlan}
    (started : start config duration hub plans = .ok first) : first.Begins config duration := by
  have fresh := fresh_start started
  unfold start at started
  split at started
  · cases started
  · split at started
    · cases started
    · cases started
      have ids : (usersOf plans).map User.id = List.range plans.length := by
        apply List.ext_getElem <;> simp [usersOf]
      exact
        { fresh
          distinct := ids ▸ List.nodup_range
          lasts := rfl, grace := rfl, settings := rfl, stage := rfl, now := rfl, kept := rfl }

/-! ## Stragglers -/

/-- A coordinator that waits for as long as it was told to. -/
structure Waits (config : BenchConfig) (duration : Nat) (run : LoadRun) : Prop where
  lasts : run.duration = duration
  grace : run.grace = config.grace
  stage : run.stage.NotBefore config duration run.population.now

theorem Begins.waits (begins : first.Begins config duration) : first.Waits config duration where
  lasts := begins.lasts
  grace := begins.grace
  stage := by
    rw [begins.stage]
    exact Nat.le_refl _

theorem Waits.step {move : LoadMove} (waits : run.Waits config duration)
    (possible : run.step? calendar move = some next) : next.Waits config duration := by
  obtain ⟨lasts, grace, notBefore⟩ := waits
  cases move with
  | coordinator =>
    obtain ⟨stage, population, led, rfl⟩ := coordinate?_led possible
    refine ⟨lasts, grace, ?_⟩
    generalize run.stage = was at led notBefore
    cases led with
    | start due =>
      have since : config.warmup ≤ run.population.now := Nat.le_trans notBefore due
      rw [lasts]
      exact Nat.add_le_add_right since _
    | stop due =>
      have since : config.closeAt duration ≤ run.population.now := Nat.le_trans notBefore due
      rw [grace]
      exact Nat.add_le_add_right since _
    | expire due => exact Nat.le_trans notBefore due
    | _ => exact True.intro
  | other move =>
    obtain ⟨after, moved, rfl⟩ := Option.map_eq_some_iff.mp possible
    exact ⟨lasts, grace, notBefore.later (Population.Happens.move moved).now_le⟩

theorem Reached.waits {history : List (Nat × UserEvent)} (begins : first.Begins config duration)
    (reached : Reached calendar first history run) : run.Waits config duration := by
  induction reached with
  | start => exact begins.waits
  | step _ possible ih => exact ih.step possible

/-- The coordinator of a run has looked how many users had not ended, and found so many. It did so
at once when all had ended, and otherwise once the bound had run out. -/
def Looked (calendar : Nat → String) (config : BenchConfig) (duration : Nat) (first run : LoadRun)
    (stragglers : Nat) : Prop :=
  ∃ past looked, Reached calendar first past looked ∧ Leads calendar looked run ∧
    stragglers = looked.population.running ∧
    (stragglers = 0 ∨ (looked.stage = .overdue ∧
      config.closeAt duration + config.grace ≤ looked.population.now))

theorem Looked.trans {stragglers : Nat}
    (earlier : Looked calendar config duration first run stragglers)
    (leads : Leads calendar run next) :
    Looked calendar config duration first next stragglers := by
  obtain ⟨past, looked, reached, before, running, reason⟩ := earlier
  exact ⟨past, looked, reached, before.trans leads, running, reason⟩

theorem Reached.looked {history : List (Nat × UserEvent)} {stragglers : Nat}
    (begins : first.Begins config duration) (reached : Reached calendar first history run)
    (read : run.stage.stragglers? = some stragglers) :
    Looked calendar config duration first run stragglers := by
  induction reached with
  | start =>
    rw [begins.stage] at read
    cases read
  | @step history run next move reached possible ih =>
    have onward := Leads.of_step move possible
    cases move with
    | coordinator =>
      obtain ⟨moments, lives⟩ := reached.lives
      have tallied := lives.tallied begins.fresh
      have notBefore := (reached.waits begins).stage
      obtain ⟨stage, population, led, rfl⟩ := coordinate?_led possible
      cases was : run.stage with
      | closing deadline =>
        rw [was] at led
        cases led with
        | complete complete =>
          cases read
          exact ⟨history, run, reached, onward, by rw [← tallied.running, complete], .inl rfl⟩
        | expire => cases read
      | overdue =>
        rw [was] at led notBefore
        cases led
        cases read
        exact ⟨history, run, reached, onward, tallied.running, .inr ⟨was, notBefore⟩⟩
      | warming _ | measuring _ =>
        rw [was] at led
        cases led
        cases read
      | finished _ =>
        rw [was] at led
        cases led
      | _ =>
        rw [was] at led ih
        cases led
        exact (ih read).trans onward
    | other move =>
      obtain ⟨after, moved, rfl⟩ := Option.map_eq_some_iff.mp possible
      exact (ih read).trans onward

end LoadRun

end ChatHub
