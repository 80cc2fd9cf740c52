import ChatHub.Proofs.Load.Schedule
import ChatHub.Proofs.Load.Stages
import ChatHub.Proofs.Load.Way
/-!
A load test on a virtual clock, in whatever order the tasks that are ready at one moment run. Main
statement: `acc_tick`; no run goes on for ever if its timers lie ahead and within a bound.
-/

set_option autoImplicit false

namespace ChatHub

def Stage.rank : Stage → Nat
  | .warming _ => 8
  | .measuring _ => 7
  | .closing _ => 6
  | .overdue => 5
  | .summarizing _ => 4
  | .flushing _ => 3
  | .summarized .. => 2
  | .timeoutsRead .. => 1
  | .finished _ => 0

namespace LoadRun

variable {calendar : Nat → String}

/-! ## The coordinator -/

/-- The ways of the coordinator from one stage to the next. -/
inductive Led (run : LoadRun) : Stage → Stage → Population → Prop where
  | start {time : Nat} (due : time ≤ run.population.now) :
      Led run (.warming time) (.measuring (run.population.now + 1000 * run.duration))
        run.population.openStart
  | stop {time : Nat} (due : time ≤ run.population.now) :
      Led run (.measuring time) (.closing (run.population.now + run.grace))
        run.population.cancelAll
  | complete {deadline : Nat} (complete : run.population.completion.remaining = 0) :
      Led run (.closing deadline) (.summarizing 0) run.population
  | expire {deadline : Nat} (due : deadline ≤ run.population.now) :
      Led run (.closing deadline) .overdue run.population
  | lookAround :
      Led run .overdue (.summarizing run.population.completion.remaining) run.population
  | beginPhase (stragglers : Nat) :
      Led run (.summarizing stragglers) (.flushing stragglers)
        { run.population with recorder := run.population.recorder.beginPhase }
  | gather (stragglers : Nat) :
      Led run (.flushing stragglers)
        (.summarized stragglers run.population.recorder.gather.summary)
        { run.population with recorder := run.population.recorder.gather }
  | readTimeouts (stragglers : Nat) (latency : Option LatencySummary) :
      Led run (.summarized stragglers latency)
        (.timeoutsRead stragglers latency run.population.counters.timeouts) run.population
  | report (stragglers : Nat) (latency : Option LatencySummary) (timeouts : Nat) :
      Led run (.timeoutsRead stragglers latency timeouts)
        (.finished (run.report stragglers timeouts latency)) run.population

theorem coordinate?_led {run next : LoadRun} (possible : run.coordinate? = some next) :
    ∃ stage population, Led run run.stage stage population ∧
      next = { run with stage, population } := by
  unfold coordinate? at possible
  cases stage : run.stage with
  | warming time =>
    simp only [stage] at possible
    split at possible
    · rename_i due
      cases possible
      exact ⟨_, _, .start due, rfl⟩
    · cases possible
  | measuring time =>
    simp only [stage] at possible
    split at possible
    · rename_i due
      cases possible
      exact ⟨_, _, .stop due, rfl⟩
    · cases possible
  | closing deadline =>
    simp only [stage] at possible
    split at possible
    · rename_i complete
      cases possible
      exact ⟨_, _, .complete (of_decide_eq_true complete), rfl⟩
    · split at possible
      · rename_i due
        cases possible
        exact ⟨_, _, .expire due, rfl⟩
      · cases possible
  | overdue =>
    simp only [stage] at possible
    cases possible
    exact ⟨_, _, .lookAround, rfl⟩
  | summarizing stragglers =>
    simp only [stage] at possible
    cases possible
    exact ⟨_, _, .beginPhase stragglers, rfl⟩
  | flushing stragglers =>
    simp only [stage] at possible
    cases possible
    exact ⟨_, _, .gather stragglers, rfl⟩
  | summarized stragglers latency =>
    simp only [stage] at possible
    cases possible
    exact ⟨_, _, .readTimeouts stragglers latency, rfl⟩
  | timeoutsRead stragglers latency timeouts =>
    simp only [stage] at possible
    cases possible
    exact ⟨_, _, .report stragglers latency timeouts, rfl⟩
  | finished report =>
    simp only [stage] at possible
    cases possible

/-! ## Steps on the clock -/

/-- The stopwatch goes on to a reading, never back. -/
def measured (run : LoadRun) (reading : Nat) : LoadRun :=
  { run with
    population := { run.population with stopwatch := max run.population.stopwatch reading } }

/-- One step on the virtual clock, with what the users do in it. Any task that can go on may do so,
at any later reading of the stopwatch; time only moves if none can, and then to the next timer. -/
inductive Tick (calendar : Nat → String) (run : LoadRun) :
    List (Nat × UserEvent) → LoadRun → Prop where
  | task (reading : Nat) {move : LoadMove} {next : LoadRun} (isTask : move.isTask = true)
      (possible : (run.measured reading).step? calendar move = some next) :
      Tick calendar run ((run.measured reading).event? move next).toList next
  | time {time : Nat} (idle : Idle calendar run) (timer : run.nextTimer? = some time) :
      Tick calendar run [] (run.moveTo time)

/-- What can come of a run on the virtual clock, and what its users have done until then. -/
inductive OnClock (calendar : Nat → String) (first : LoadRun) :
    List (Nat × UserEvent) → LoadRun → Prop where
  | start : OnClock calendar first [] first
  | tick {history new : List (Nat × UserEvent)} {run next : LoadRun}
      (reached : OnClock calendar first history run) (tick : Tick calendar run new next) :
      OnClock calendar first (history ++ new) next

private theorem reached_measured (run : LoadRun) (reading : Nat) :
    Reached calendar run [] (run.measured reading) := by
  by_cases ahead : run.population.stopwatch < reading
  · have moved : run.step? calendar (.other (.measure reading)) = some (run.measured reading) := by
      simp only [step?, Population.step?, if_pos ahead, Option.map_some, measured,
        Nat.max_eq_right (Nat.le_of_lt ahead)]
    exact Reached.start.step moved
  · have same : run.measured reading = run := by
      simp only [measured, Nat.max_eq_left (Nat.not_lt.mp ahead)]
    rw [same]
    exact .start

/-- The virtual clock takes the steps of a run in one of the orders that are possible. -/
theorem OnClock.reached {first run : LoadRun} {history : List (Nat × UserEvent)}
    (onClock : OnClock calendar first history run) : Reached calendar first history run := by
  induction onClock with
  | start => exact .start
  | @tick history new run next _ tick ih =>
    cases tick with
    | task reading isTask possible =>
      have before := ih.trans (reached_measured run reading)
      rw [List.append_nil] at before
      exact before.step possible
    | time idle timer => exact ih.trans (reached_moveTo run _)

theorem measured_zero (run : LoadRun) : run.measured 0 = run := by
  simp only [measured, Nat.max_zero]

theorem OnClock.works {first run next : LoadRun} {history : List (Nat × UserEvent)}
    (onClock : OnClock calendar first history run) (works : Works calendar run next) :
    ∃ history, OnClock calendar first history next := by
  induction works with
  | refl => exact ⟨history, onClock⟩
  | tail _ step ih =>
    obtain ⟨past, onClock⟩ := ih
    obtain ⟨move, isTask, possible⟩ := step
    exact ⟨_, onClock.tick (.task 0 isTask (by rw [measured_zero]; exact possible))⟩

/-! ## Time goes on -/

/-- How much can still be done before time has to move on. -/
def effort (run : LoadRun) : Nat :=
  run.stage.rank + (run.population.users.map (Population.effort run.population.now)).sum

theorem Led.rank_lt {run : LoadRun} {stage later : Stage} {population : Population}
    (led : Led run stage later population) : later.rank < stage.rank := by
  cases led <;> simp [Stage.rank]

theorem Led.now {run : LoadRun} {stage later : Stage} {population : Population}
    (led : Led run stage later population) : population.now = run.population.now := by
  cases led <;> rfl

theorem Led.settings {run : LoadRun} {stage later : Stage} {population : Population}
    (led : Led run stage later population) : population.settings = run.population.settings := by
  cases led <;> rfl

/-- Replacing a user changes a sum over all users by what it changes at this one. -/
theorem sum_set {users : List User} {index : Nat} {user : User}
    (found : users[index]? = some user) (moved : User) (measure : User → Nat) :
    ((users.set index moved).map measure).sum + measure user =
      (users.map measure).sum + measure moved := by
  obtain ⟨others, before, after⟩ := perm_set found moved
  rw [(before.map measure).sum_eq, (after.map measure).sum_eq, List.map_cons, List.map_cons,
    List.sum_cons, List.sum_cons]
  omega

theorem effort_lt {run next : LoadRun} {move : LoadMove} (isTask : move.isTask = true)
    (possible : run.step? calendar move = some next)
    (paced : 1 ≤ run.population.settings.pacing) :
    next.effort < run.effort ∧ next.population.now = run.population.now := by
  cases move with
  | coordinator =>
    obtain ⟨stage, population, led, rfl⟩ := coordinate?_led possible
    obtain ⟨users, -⟩ := coordinate?_frame possible
    rw [effort, effort, users, led.now]
    exact ⟨Nat.add_lt_add_right led.rank_lt _, rfl⟩
  | other move =>
    obtain ⟨after, moved, rfl⟩ := Option.map_eq_some_iff.mp possible
    obtain ⟨index, about⟩ := Move.user?_of_isTask isTask
    obtain ⟨user, moved, turn⟩ := Population.turn_of_step? about moved
    have less := turn.effort_lt isTask paced
    have sum := sum_set turn.found moved (Population.effort run.population.now)
    rw [effort, effort, turn.users, turn.signals.now]
    exact ⟨Nat.add_lt_add_left (by omega) _, rfl⟩

/-- What is needed for a run to come to an end: its users pause, and its timers lie ahead and within
a bound. -/
structure Bounded (calendar : Nat → String) (limit : Nat) (run : LoadRun) : Prop where
  paced : 1 ≤ run.population.settings.pacing
  timer : ∀ {time : Nat}, Idle calendar run → run.nextTimer? = some time →
    run.population.now < time ∧ time ≤ limit

/-- If this is so all along, no run goes on for ever: between two movements of time there is only
so much to do. -/
theorem acc_tick {first : LoadRun} {limit : Nat}
    (bounded : ∀ history run, OnClock calendar first history run → run.Bounded calendar limit)
    {run : LoadRun} {history : List (Nat × UserEvent)}
    (reached : OnClock calendar first history run) :
    Acc (fun next run => ∃ new, Tick calendar run new next) run := by
  have lowers : ∀ run next, (∃ history, OnClock calendar first history run) →
      (∃ new, Tick calendar run new next) →
      (∃ history, OnClock calendar first history next) ∧
        Lowers (fun run => run.population.now) effort limit run next := by
    rintro run next ⟨history, reached⟩ ⟨new, tick⟩
    refine ⟨⟨_, reached.tick tick⟩, ?_⟩
    have steady := bounded history run reached
    cases tick with
    | task reading isTask possible =>
      obtain ⟨less, now⟩ := effort_lt isTask possible steady.paced
      exact .inl ⟨now, less⟩
    | @time time idle timer =>
      obtain ⟨ahead, within⟩ := steady.timer idle timer
      rw [Lowers, now_moveTo_of_lt ahead]
      exact .inr ⟨ahead, within⟩
  exact acc_of_lowers lowers ⟨history, reached⟩

end LoadRun

end ChatHub
