import ChatHub.Proofs.Load.Stragglers
import ChatHub.Proofs.Load.WindDown
/-!
A load test on a virtual clock: time moves only if no task can go on, whatever others do. Main
statements: `Clocked.punctual`, by which it is over as soon as time is up, `acc_beat`, by which it
does not go on for ever, and `clocked_run`, by which the schedule that is computed is one of these.
-/

set_option autoImplicit false

namespace ChatHub

/-- Whether something is done by others, or by the stopwatch: it takes no step of a task and no
time on the clock. -/
def Occurrence.isOutside : Occurrence → Bool
  | .move (.publish ..) | .move (.line ..) | .move (.measure _) | .peer _ => true
  | _ => false

/-- The stages of a load test that is over as soon as time is up. -/
def Stage.InTime (config : BenchConfig) (duration : Nat) (population : Population) :
    Stage → Prop
  | .warming time => time = config.warmup ∧ population.now ≤ time ∧ population.cancelled = false
  | .measuring time =>
    time = config.closeAt duration ∧ population.now ≤ time ∧ population.cancelled = false
  | .closing deadline =>
    deadline = config.closeAt duration + config.grace ∧ population.now = config.closeAt duration ∧
      population.cancelled = true
  | .overdue => False
  | .summarizing stragglers | .flushing stragglers | .summarized stragglers _
  | .timeoutsRead stragglers _ _ =>
    stragglers = 0 ∧ population.now = config.closeAt duration ∧ population.cancelled = true
  | .finished report =>
    report.stragglers = 0 ∧ population.now = config.closeAt duration ∧
      population.cancelled = true

theorem Stage.InTime.congr {config : BenchConfig} {duration : Nat} {before after : Population}
    {stage : Stage} (inTime : stage.InTime config duration before) (now : after.now = before.now)
    (cancelled : after.cancelled = before.cancelled) : stage.InTime config duration after := by
  cases stage with
  | overdue => exact inTime
  | _ => simpa only [InTime, now, cancelled] using inTime

/-- The timer of a user that cannot go on lies ahead. -/
theorem Population.timer_ahead {population : Population} {user : User} {time : Nat}
    (stuck : population.proceedUser? user = none) (timer : user.phase.timer = some time) :
    population.now < time := by
  refine Nat.lt_of_not_le ?_
  intro due
  cases phase : user.phase with
  | connecting since =>
    rw [phase] at timer
    cases timer
    simp [proceedUser?, phase, due] at stuck
  | awaiting sentAt deadline =>
    rw [phase] at timer
    cases timer
    simp only [proceedUser?, phase, listen?, if_pos due] at stuck
    split at stuck
    · cases stuck
    · split at stuck <;> cases stuck
  | pacing until_ =>
    rw [phase] at timer
    cases timer
    simp [proceedUser?, phase, due] at stuck
  | _ =>
    rw [phase] at timer
    cases timer

namespace LoadRun

variable {calendar : Nat → String} {config : BenchConfig} {duration : Nat}
  {first run next last : LoadRun}

/-! ## On a virtual clock -/

/-- One step on the virtual clock. Any task that can go on may do so; time only moves if none can,
by any span that passes no timer. -/
inductive Beat (calendar : Nat → String) (run : LoadRun) : LoadRun → Prop where
  | task {move : LoadMove} {next : LoadRun} (isTask : move.isTask = true)
      (possible : run.step? calendar move = some next) : Beat calendar run next
  | time {time : Nat} (idle : Idle calendar run) (unreported : run.stage.report? = none)
      (ahead : run.population.now < time)
      (early : ∀ timer, run.nextTimer? = some timer → time ≤ timer) :
      Beat calendar run (run.moveTo time)

/-- Others do something, or the stopwatch goes on. -/
inductive Outside (calendar : Nat → String) (run : LoadRun) : LoadRun → Prop where
  | happens {occurrence : Occurrence} {after : Population}
      (outside : occurrence.isOutside = true)
      (happens : run.population.Happens calendar occurrence after) :
      Outside calendar run { run with population := after }

theorem Outside.still (outside : Outside calendar run next) :
    next.population.now = run.population.now ∧
      next.population.cancelled = run.population.cancelled ∧ next.effort ≤ run.effort := by
  obtain ⟨isOutside, happens⟩ := outside
  cases happens with
  | peer => exact ⟨rfl, rfl, Nat.le_refl _⟩
  | opened | cancelled | beginPhase | gather => cases isOutside
  | @move move after possible =>
    cases move with
    | publish origin message =>
      cases possible
      exact ⟨rfl, rfl, Nat.le_refl _⟩
    | measure reading =>
      simp only [Population.step?] at possible
      split at possible
      · cases possible
        exact ⟨rfl, rfl, Nat.le_refl _⟩
      · cases possible
    | line index event =>
      obtain ⟨user, moved, turn⟩ := Population.turn_of_step? rfl possible
      refine ⟨turn.signals.now, turn.signals.cancelled, ?_⟩
      have sum := sum_set turn.found moved (Population.effort run.population.now)
      have less := turn.effort_le
      rw [effort, effort, turn.users, turn.signals.now]
      exact Nat.add_le_add_left (by omega) _
    | _ => cases isOutside

/-- What can come of a run on the virtual clock, whatever others do in the meantime. -/
inductive Clocked (calendar : Nat → String) (first : LoadRun) : LoadRun → Prop where
  | start : Clocked calendar first first
  | beat {run next : LoadRun} (clocked : Clocked calendar first run)
      (beat : Beat calendar run next) : Clocked calendar first next
  | outside {run next : LoadRun} (clocked : Clocked calendar first run)
      (outside : Outside calendar run next) : Clocked calendar first next

theorem Clocked.trans (clocked : Clocked calendar first run)
    (later : Clocked calendar run next) : Clocked calendar first next := by
  induction later with
  | start => exact clocked
  | beat _ beat ih => exact ih.beat beat
  | outside _ outside ih => exact ih.outside outside

theorem le_timer {time timer : Nat} (early : ∀ timer, run.nextTimer? = some timer → time ≤ timer)
    (isTimer : run.stage.timer = some timer) : time ≤ timer := by
  obtain ⟨first, isFirst⟩ := nextTimer?_isSome (by rw [isTimer]; rfl)
  exact Nat.le_trans (early first isFirst) ((nextTimer?_spec isFirst).2.1 timer isTimer)

/-- A load test that is over as soon as time is up, with all that this rests on. -/
structure Punctual (config : BenchConfig) (duration : Nat) (run : LoadRun) : Prop where
  lasts : run.duration = duration
  grace : run.grace = config.grace
  settings : run.population.settings = config.probe
  distinct : (run.population.users.map User.id).Nodup
  equipped : ∀ user ∈ run.population.users, user.Equipped
  tallied : run.population.Tallied
  stage : run.stage.InTime config duration run.population

namespace Punctual

theorem begins (begins : first.Begins config duration) : first.Punctual config duration where
  lasts := begins.lasts
  grace := begins.grace
  settings := begins.settings
  distinct := begins.distinct
  equipped := begins.fresh.equipped
  tallied := begins.fresh.tallied
  stage := by
    rw [begins.stage]
    exact ⟨rfl, begins.now ▸ Nat.zero_le _, begins.kept⟩

theorem happens {occurrence : Occurrence} {after : Population}
    (punctual : run.Punctual config duration)
    (happens : run.population.Happens calendar occurrence after)
    (inTime : run.stage.InTime config duration after) :
    Punctual config duration { run with population := after } where
  lasts := punctual.lasts
  grace := punctual.grace
  settings := happens.settings.trans punctual.settings
  distinct := happens.ids ▸ punctual.distinct
  equipped := happens.equipped punctual.equipped
  tallied := happens.tallied punctual.tallied
  stage := inTime

theorem coordinate (punctual : run.Punctual config duration) (graced : 1 ≤ config.grace)
    (possible : run.coordinate? = some next) : next.Punctual config duration := by
  have inTime := punctual.stage
  obtain ⟨users, counters, -, completion⟩ := coordinate?_frame possible
  obtain ⟨stage, population, led, rfl⟩ := coordinate?_led possible
  refine
    { lasts := punctual.lasts
      grace := punctual.grace
      settings := led.settings.trans punctual.settings
      distinct := users ▸ punctual.distinct
      equipped := users ▸ punctual.equipped
      tallied := punctual.tallied.congr users counters completion
      stage := ?_ }
  generalize run.stage = was at led inTime
  cases led with
  | start due =>
    obtain ⟨rfl, early, kept⟩ := inTime
    have now : run.population.now = config.warmup := Nat.le_antisymm early due
    refine ⟨?_, Nat.le_add_right _ _, kept⟩
    rw [punctual.lasts, now, BenchConfig.closeAt]
  | stop due =>
    obtain ⟨rfl, early, kept⟩ := inTime
    have now : run.population.now = config.closeAt duration := Nat.le_antisymm early due
    refine ⟨?_, now, rfl⟩
    rw [punctual.grace, now]
  | complete => exact ⟨rfl, inTime.2⟩
  | expire due =>
    obtain ⟨rfl, now, _⟩ := inTime
    omega
  | lookAround => exact inTime.elim
  | beginPhase | gather | readTimeouts | report => exact inTime

theorem task {move : LoadMove} (punctual : run.Punctual config duration)
    (graced : 1 ≤ config.grace) (isTask : move.isTask = true)
    (possible : run.step? calendar move = some next) : next.Punctual config duration := by
  cases move with
  | coordinator => exact punctual.coordinate graced possible
  | other move =>
    obtain ⟨after, moved, rfl⟩ := Option.map_eq_some_iff.mp possible
    obtain ⟨index, about⟩ := Move.user?_of_isTask isTask
    obtain ⟨user, next, turn⟩ := Population.turn_of_step? about moved
    exact punctual.happens (.move moved)
      (punctual.stage.congr turn.signals.now turn.signals.cancelled)

theorem outside (punctual : run.Punctual config duration) (outside : Outside calendar run next) :
    next.Punctual config duration := by
  obtain ⟨now, cancelled, -⟩ := outside.still
  obtain ⟨_, happens⟩ := outside
  exact punctual.happens happens (punctual.stage.congr now cancelled)

theorem isEnded (punctual : run.Punctual config duration) (idle : Idle calendar run)
    (cancelled : run.population.cancelled = true) :
    ∀ user ∈ run.population.users, user.phase.isEnded = true := by
  intro user member
  obtain ⟨index, found⟩ := List.mem_iff_getElem?.mp member
  refine (Bool.eq_false_or_eq_true _).resolve_right ?_
  intro running
  rcases Population.exists_step_of_cancelled calendar cancelled found
    (punctual.equipped user member) running with ⟨next, possible⟩ | ⟨next, possible⟩
  · rw [idle.step? (.cancel index) rfl] at possible
    cases possible
  · rw [idle.step? (.proceed index) rfl] at possible
    cases possible

/-- As long as there is no report, nothing has to wait for the clock but for the beginning or the
end of the measured time. -/
theorem idle (punctual : run.Punctual config duration) (idle : Idle calendar run)
    (unreported : run.stage.report? = none) :
    ∃ time, run.stage.timer = some time ∧ run.population.now < time ∧
      time ≤ config.closeAt duration ∧ run.population.cancelled = false ∧
      ∀ now ≤ time, run.stage.InTime config duration { run.population with now } := by
  have inTime := punctual.stage
  have stuck : run.coordinate? = none := idle .coordinator rfl
  cases stage : run.stage with
  | warming time | measuring time =>
    rw [stage] at inTime
    obtain ⟨rfl, _, kept⟩ := inTime
    refine ⟨_, rfl, ?_, ?_, kept, fun now within => ⟨rfl, within, kept⟩⟩
    · simpa [coordinate?, stage] using stuck
    · simp [BenchConfig.closeAt]
  | closing deadline =>
    rw [stage] at inTime
    -- everyone has ended by then, so the coordinator could go on
    have nobody : run.population.running = 0 := by
      refine List.countP_eq_zero.mpr ?_
      intro user member
      simp [punctual.isEnded idle inTime.2.2 user member]
    simp [coordinate?, stage, CompletionGate.isComplete, punctual.tallied.running, nobody] at stuck
  | finished report =>
    rw [stage] at unreported
    cases unreported
  | overdue | summarizing _ | flushing _ | summarized _ _ | timeoutsRead _ _ _ =>
    simp [coordinate?, stage] at stuck

theorem beat (punctual : run.Punctual config duration) (graced : 1 ≤ config.grace)
    (beat : Beat calendar run next) : next.Punctual config duration := by
  cases beat with
  | task isTask possible => exact punctual.task graced isTask possible
  | @time time idle unreported ahead early =>
    obtain ⟨timer, isTimer, _, _, _, inTime⟩ := punctual.idle idle unreported
    have within := le_timer early isTimer
    have possible : run.population.step? calendar (.advance time) =
        some { run.population with now := time } := if_pos ahead
    rw [moveTo_of_lt ahead]
    exact punctual.happens (.move possible) (inTime time within)

end Punctual

theorem Clocked.punctual (begins : first.Begins config duration) (graced : 1 ≤ config.grace)
    (clocked : Clocked calendar first run) : run.Punctual config duration := by
  induction clocked with
  | start => exact .begins begins
  | beat _ beat ih => exact ih.beat graced beat
  | outside _ outside ih => exact ih.outside outside

/-! ### It goes on, and not for ever -/

theorem Idle.timer_ahead {index time : Nat} {user : User} (idle : Idle calendar run)
    (found : run.population.users[index]? = some user) (timer : user.phase.timer = some time) :
    run.population.now < time :=
  Population.timer_ahead (idle.proceed found) timer

/-- When nothing can happen at the moment, time can move to the next timer. -/
theorem Idle.nextTimer? {timer : Nat} (idle : Idle calendar run)
    (isTimer : run.stage.timer = some timer) (ahead : run.population.now < timer) :
    ∃ time, run.nextTimer? = some time ∧ run.population.now < time ∧ time ≤ timer := by
  obtain ⟨time, isFirst⟩ := nextTimer?_isSome (by rw [isTimer]; rfl)
  obtain ⟨whose, least, -⟩ := nextTimer?_spec isFirst
  refine ⟨time, isFirst, ?_, least timer isTimer⟩
  rcases whose with first | ⟨user, member, first⟩
  · rw [isTimer] at first
    cases first
    exact ahead
  · obtain ⟨index, found⟩ := List.mem_iff_getElem?.mp member
    exact idle.timer_ahead found first

theorem Beat.nextTimer {time : Nat} (idle : Idle calendar run)
    (unreported : run.stage.report? = none) (isFirst : run.nextTimer? = some time)
    (ahead : run.population.now < time) : Beat calendar run (run.moveTo time) :=
  .time idle unreported ahead fun _ isOther =>
    Nat.le_of_eq (Option.some.inj (isFirst.symm.trans isOther))

theorem exists_beat (unreported : run.stage.report? = none)
    (timed : Idle calendar run → ∃ time, run.nextTimer? = some time ∧ run.population.now < time) :
    ∃ next, Beat calendar run next := by
  by_cases idle : Idle calendar run
  · obtain ⟨time, isFirst, ahead⟩ := timed idle
    exact ⟨_, .nextTimer idle unreported isFirst ahead⟩
  · simp only [Idle, not_forall] at idle
    obtain ⟨move, isTask, possible⟩ := idle
    obtain ⟨next, possible⟩ := Option.ne_none_iff_exists'.mp possible
    exact ⟨next, .task isTask possible⟩

theorem Punctual.nextTimer? (punctual : run.Punctual config duration) (idle : Idle calendar run)
    (unreported : run.stage.report? = none) :
    ∃ time, run.nextTimer? = some time ∧ run.population.now < time ∧
      time ≤ config.closeAt duration := by
  obtain ⟨timer, isTimer, ahead, within, -⟩ := punctual.idle idle unreported
  obtain ⟨time, isFirst, later, least⟩ := idle.nextTimer? isTimer ahead
  exact ⟨time, isFirst, later, Nat.le_trans least within⟩

theorem Clocked.exists_beat (begins : first.Begins config duration) (graced : 1 ≤ config.grace)
    (clocked : Clocked calendar first run) (unreported : run.stage.report? = none) :
    ∃ next, Beat calendar run next := by
  refine LoadRun.exists_beat unreported fun idle => ?_
  obtain ⟨time, isFirst, ahead, -⟩ :=
    (clocked.punctual begins graced).nextTimer? idle unreported
  exact ⟨time, isFirst, ahead⟩

/-- However often others do something in between, the tasks come to an end. -/
theorem acc_beat (begins : first.Begins config duration) (graced : 1 ≤ config.grace)
    (paced : 1 ≤ config.probe.pacing) {run : LoadRun} (clocked : Clocked calendar first run) :
    Acc (fun next run => ∃ middle, Relation.ReflTransGen (Outside calendar) run middle ∧
      Beat calendar middle next) run := by
  have others : ∀ run next, Clocked calendar first run → Outside calendar run next →
      Clocked calendar first next ∧ next.population.now = run.population.now ∧
        next.effort ≤ run.effort := by
    intro run next clocked outside
    obtain ⟨now, -, effort⟩ := outside.still
    exact ⟨clocked.outside outside, now, effort⟩
  have lowers : ∀ run next, Clocked calendar first run → Beat calendar run next →
      Clocked calendar first next ∧
        Lowers (fun run => run.population.now) effort (config.closeAt duration) run next := by
    intro run next clocked beat
    have punctual := clocked.punctual begins graced
    refine ⟨clocked.beat beat, ?_⟩
    cases beat with
    | task isTask possible =>
      obtain ⟨less, now⟩ := effort_lt isTask possible (punctual.settings ▸ paced)
      exact .inl ⟨now, less⟩
    | time idle unreported ahead early =>
      obtain ⟨timer, isTimer, -, within, -⟩ := punctual.idle idle unreported
      rw [Lowers, now_moveTo_of_lt ahead]
      exact .inr ⟨ahead, Nat.le_trans (le_timer early isTimer) within⟩
  exact acc_between others lowers clocked

/-! ### The schedule that is computed -/

theorem Clocked.works (clocked : Clocked calendar first run) (works : Works calendar run next) :
    Clocked calendar first next := by
  induction works with
  | refl => exact clocked
  | tail _ step ih =>
    obtain ⟨move, isTask, possible⟩ := step
    exact ih.beat (.task isTask possible)

/-- Up to a moment the computed schedule is one of those on the clock; once the measured time is
over by then, there is a report. -/
theorem Clocked.runUntil {moment : Nat} (begins : first.Begins config duration)
    (graced : 1 ≤ config.grace) (clocked : Clocked calendar first run)
    (result : run.runUntil calendar moment = some last) :
    Clocked calendar first last ∧
      (config.closeAt duration ≤ moment → last.stage.report?.isSome = true) := by
  have timed : ∀ settled, Clocked calendar first settled → Idle calendar settled →
      settled.stage.report? = none →
      ∃ time, settled.nextTimer? = some time ∧ settled.population.now < time ∧
        time ≤ config.closeAt duration := fun settled clocked idle unreported =>
    (clocked.punctual begins graced).nextTimer? idle unreported
  obtain ⟨clocked, reported⟩ := runUntil_spec
    (fun _ _ clocked works => Clocked.works clocked works)
    (fun settled time clocked idle unreported isTimer => by
      obtain ⟨first, isFirst, ahead, -⟩ := timed settled clocked idle unreported
      cases isFirst.symm.trans isTimer
      exact clocked.beat (.nextTimer idle unreported isTimer ahead))
    (fun settled clocked idle unreported late => by
      rcases Nat.lt_or_ge settled.population.now moment with ahead | passed
      · exact clocked.beat
          (.time idle unreported ahead fun timer isTimer => Nat.le_of_lt (late timer isTimer))
      · rw [moveTo_of_le passed]
        exact clocked)
    clocked result
  refine ⟨clocked, fun timeUp => ?_⟩
  rcases reported with reported | ⟨settled, there, idle, unreported, late⟩
  · exact reported
  · obtain ⟨time, isFirst, -, inTime⟩ := timed settled there idle unreported
    exact absurd (Nat.le_trans inTime timeUp) (Nat.not_le_of_lt (late time isFirst))

theorem Clocked.publishAt {origin : ConnectionId} {message : Inbound} {times : List Nat}
    (begins : first.Begins config duration) (graced : 1 ≤ config.grace)
    (clocked : Clocked calendar first run)
    (result : run.publishAt calendar origin message times = some last) :
    Clocked calendar first last := by
  induction times generalizing run with
  | nil =>
    cases result
    exact clocked
  | cons time rest ih =>
    simp only [LoadRun.publishAt, Option.bind_eq_bind, Option.bind_eq_some_iff] at result
    obtain ⟨due, waited, result⟩ := result
    have there := (clocked.runUntil begins graced waited).1
    split at result
    · cases result
      exact there
    · obtain ⟨published, possible, result⟩ := Option.bind_eq_some_iff.mp result
      cases possible
      have publishes : due.population.step? calendar (.publish origin message) = some _ := rfl
      exact ih (there.outside (.happens rfl (.move publishes))) result

theorem clocked_run {origin : ConnectionId} {message : Inbound} {times : List Nat}
    (begins : first.Begins config duration) (graced : 1 ≤ config.grace)
    (result : LoadRun.run calendar config origin message times first = some last) :
    Clocked calendar first last ∧ last.stage.report?.isSome = true := by
  simp only [LoadRun.run, Option.bind_eq_bind, Option.bind_eq_some_iff] at result
  obtain ⟨published, publishes, result⟩ := result
  have there := Clocked.start.publishAt begins graced publishes
  obtain ⟨clocked, reported⟩ := there.runUntil begins graced result
  refine ⟨clocked, reported ?_⟩
  rw [horizon, begins.lasts]
  exact Nat.le_add_right _ _

/-! ### After the signal -/

theorem Clocked.lives (clocked : Clocked calendar first run) :
    ∃ moments, first.population.Lives calendar moments run.population := by
  induction clocked with
  | start => exact ⟨[], .start⟩
  | beat _ beat ih =>
    obtain ⟨earlier, lives⟩ := ih
    cases beat with
    | task _ possible =>
      obtain ⟨later, more⟩ := step?_lives possible
      exact ⟨earlier ++ later, lives.trans more⟩
    | @time time _ _ ahead _ =>
      obtain ⟨later, more⟩ := (reached_moveTo _ time).lives
      exact ⟨earlier ++ later, lives.trans more⟩
  | outside _ outside ih =>
    obtain ⟨earlier, lives⟩ := ih
    obtain ⟨_, happens⟩ := outside
    exact ⟨_, lives.step happens⟩

theorem Punctual.now_of_cancelled (punctual : run.Punctual config duration)
    (cancelled : run.population.cancelled = true) :
    run.population.now = config.closeAt duration := by
  have inTime := punctual.stage
  cases stage : run.stage with
  | warming _ | measuring _ =>
    rw [stage] at inTime
    exact absurd cancelled (Bool.eq_false_iff.mp inTime.2.2)
  | overdue =>
    rw [stage] at inTime
    exact inTime.elim
  | _ =>
    rw [stage] at inTime
    exact inTime.2.1

end LoadRun

end ChatHub
