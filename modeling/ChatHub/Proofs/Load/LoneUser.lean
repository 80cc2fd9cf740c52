import ChatHub.Proofs.Load.Solitary
import ChatHub.Proofs.Load.Undisturbed
/-!
A load test with one user on a hub where nobody else publishes. Main statement: `unheard_user`, the
exact number of probes and timeouts of such a user, with and without a coordinator.
-/

set_option autoImplicit false

namespace ChatHub

/-- What others do without a message, and readings of the stopwatch. -/
def Occurrence.isUnrelated : Occurrence → Bool
  | .move (.measure _) => true
  | .peer (.published ..) => false
  | .peer _ => true
  | _ => false

/-- The numbers of a user that hears nothing for a span after its first probe. -/
structure Report.Unanswered (settings : ProbeSettings) (span : Nat) (report : Report) : Prop where
  probes : report.probes = span / settings.round + 1
  timeouts : report.timeouts = (span + settings.pacing) / settings.round
  samples : report.samples = 0
  latency : report.latency = none

/-- What a coordinator has told its user and read of it, if the user hears nothing. -/
def Stage.Told (config : BenchConfig) (duration : Nat) (population : Population) : Stage → Prop
  | .warming time =>
    time = config.warmup ∧ population.start.isOpen = false ∧ population.cancelled = false
  | .measuring time =>
    time = config.closeAt duration ∧ population.start.isOpen = true ∧ population.cancelled = false
  | .closing _ | .overdue | .summarizing _ | .flushing _ => population.cancelled = true
  | .summarized _ latency => population.cancelled = true ∧ latency = none
  | .timeoutsRead _ latency timeouts =>
    population.cancelled = true ∧ latency = none ∧
      timeouts = (1000 * duration + config.probe.pacing) / config.probe.round
  | .finished report =>
    population.cancelled = true ∧ report.Unanswered config.probe (1000 * duration)

theorem Stage.Told.congr {config : BenchConfig} {duration : Nat} {before after : Population}
    {stage : Stage} (told : stage.Told config duration before)
    (start : after.start = before.start) (cancelled : after.cancelled = before.cancelled) :
    stage.Told config duration after := by
  cases stage <;> simpa only [Told, start, cancelled] using told

namespace LoadRun

variable {calendar : Nat → String} {config : BenchConfig} {duration : Nat} {hub : Hub}
  {first run next : LoadRun}

/-- Others do something that is no message, or the stopwatch goes on. -/
inductive Apart (calendar : Nat → String) (run : LoadRun) : LoadRun → Prop where
  | happens {occurrence : Occurrence} {after : Population}
      (unrelated : occurrence.isUnrelated = true)
      (happens : run.population.Happens calendar occurrence after) :
      Apart calendar run { run with population := after }

/-- What can come of a load test on a virtual clock, if nobody else publishes. -/
inductive Secluded (calendar : Nat → String) (first : LoadRun) : LoadRun → Prop where
  | start : Secluded calendar first first
  | beat {run next : LoadRun} (secluded : Secluded calendar first run)
      (beat : Beat calendar run next) : Secluded calendar first next
  | apart {run next : LoadRun} (secluded : Secluded calendar first run)
      (apart : Apart calendar run next) : Secluded calendar first next

/-- A load test of a single user that hears nothing. -/
structure Lonely (calendar : Nat → String) (config : BenchConfig) (duration : Nat) (hub : Hub)
    (run : LoadRun) : Prop where
  lasts : run.duration = duration
  solitary : Population.Solitary calendar (undisturbed config duration 1 hub).population
    config.warmup (1000 * duration) run.population
  stage : run.stage.Told config duration run.population

/-- How much coordinator and user can still do before time has to move on. -/
def errands (run : LoadRun) : Nat :=
  run.stage.rank + run.population.errands

theorem expects_undisturbed (sound : hub.Sound)
    (clear : config.probe.Clear (1000 * duration)) :
    (undisturbed config duration 1 hub).population.Expects config.warmup (1000 * duration) := by
  have positive := clear.positive
  have fresh := fresh_start (start_undisturbed config 1 hub Nat.one_pos (by omega : 0 < duration))
  refine
    { fresh, clear
      seated := fresh.seated sound ?_
      early := Nat.zero_le _
      closed := rfl
      kept := rfl }
  intro user member
  obtain ⟨index, inside, rfl⟩ := List.mem_mapIdx.mp member
  simp only [List.getElem_replicate]
  exact ⟨rfl, rfl⟩

private theorem books_undisturbed (config : BenchConfig) (duration : Nat) (hub : Hub) :
    Books [] (undisturbed config duration 1 hub).population :=
  books_start (fun _ => of_mem_usersOf) rfl rfl (by simp [undisturbed, usersOf])

namespace Lonely

theorem start (sound : hub.Sound) (clear : config.probe.Clear (1000 * duration)) :
    Lonely calendar config duration hub (undisturbed config duration 1 hub) where
  lasts := rfl
  solitary := .start rfl (expects_undisturbed sound clear)
  stage := ⟨rfl, rfl, rfl⟩

/-! ## Steps -/

theorem coordinate (lonely : Lonely calendar config duration hub run) (sound : hub.Sound)
    (clear : config.probe.Clear (1000 * duration)) (warm : 1 ≤ config.warmup)
    (possible : run.coordinate? = some next) :
    Lonely calendar config duration hub next ∧ next.errands < run.errands := by
  have told := lonely.stage
  have solitary := lonely.solitary
  obtain ⟨counts, silent, _⟩ :=
    solitary.counters rfl (expects_undisturbed sound clear) (books_undisturbed config duration hub)
  obtain ⟨user, _, found⟩ := solitary.exists_user rfl
  obtain ⟨_, _, unheard⟩ := solitary.unheard (expects_undisturbed sound clear) found
  obtain ⟨users, _⟩ := coordinate?_frame possible
  obtain ⟨stage, population, led, rfl⟩ := coordinate?_led possible
  have less : ({ run with stage, population } : LoadRun).errands < run.errands := by
    rw [errands, errands, Population.errands, Population.errands, users, led.now]
    exact Nat.add_lt_add_right led.rank_lt _
  refine ⟨?_, less⟩
  generalize run.stage = was at led told
  cases led with
  | start due =>
    obtain ⟨rfl, closed, kept⟩ := told
    have now : run.population.now = config.warmup := Nat.le_antisymm (unheard.closed closed).1 due
    refine ⟨lonely.lasts, solitary.openStart now ?_, ?_, rfl, kept⟩
    · intro other since there connecting
      obtain ⟨moments, lives, each⟩ := solitary.lives
      obtain ⟨⟨first, isFirst, phase⟩, early⟩ := lives.connecting each there connecting
      cases isFirst
      cases phase
      -- Connecting is due at zero, and time does not go on before it is done.
      have passed : run.population.now ≤ max 0 0 := early 0 rfl
      omega
    · rw [now, lonely.lasts, BenchConfig.closeAt]
  | stop due =>
    obtain ⟨rfl, _, kept⟩ := told
    have now : run.population.now = config.closeAt duration :=
      Nat.le_antisymm (unheard.runs kept) due
    exact ⟨lonely.lasts, solitary.cancelAll now, rfl⟩
  | complete | expire | lookAround => exact ⟨lonely.lasts, solitary, told⟩
  | beginPhase stragglers =>
    exact ⟨lonely.lasts, solitary.step .beginPhase ⟨True.intro, by simp [Moment.hubEvents]⟩
      solitary.few, told⟩
  | gather stragglers =>
    exact ⟨lonely.lasts, solitary.step .gather ⟨True.intro, by simp [Moment.hubEvents]⟩
      solitary.few, told, silent⟩
  | readTimeouts stragglers latency =>
    exact ⟨lonely.lasts, solitary, told.1, told.2, (counts told.1).2⟩
  | report stragglers latency timeouts =>
    obtain ⟨cancelled, rfl, rfl⟩ := told
    exact ⟨lonely.lasts, solitary, cancelled, (counts cancelled).1, rfl, rfl, rfl⟩

theorem task {move : LoadMove} (lonely : Lonely calendar config duration hub run)
    (sound : hub.Sound) (clear : config.probe.Clear (1000 * duration))
    (warm : 1 ≤ config.warmup) (isTask : move.isTask = true)
    (possible : run.step? calendar move = some next) :
    Lonely calendar config duration hub next ∧ next.errands < run.errands := by
  cases move with
  | coordinator => exact lonely.coordinate sound clear warm possible
  | other move =>
    obtain ⟨after, moved, rfl⟩ := Option.map_eq_some_iff.mp possible
    obtain ⟨index, about⟩ := Move.user?_of_isTask isTask
    obtain ⟨_, _, turn⟩ := Population.turn_of_step? about moved
    obtain ⟨solitary, less⟩ :=
      lonely.solitary.task rfl (expects_undisturbed sound clear) isTask moved
    exact ⟨⟨lonely.lasts, solitary,
      lonely.stage.congr turn.signals.start turn.signals.cancelled⟩, Nat.add_lt_add_left less _⟩

theorem apart (lonely : Lonely calendar config duration hub run)
    (apart : Apart calendar run next) :
    Lonely calendar config duration hub next ∧ next.errands = run.errands ∧
      next.population.now = run.population.now := by
  have solitary := lonely.solitary
  obtain ⟨unrelated, happens⟩ := apart
  cases happens with
  | opened | cancelled | beginPhase | gather => cases unrelated
  | @peer event hub step foreign =>
    refine ⟨⟨lonely.lasts, solitary.step (.peer step foreign) ⟨True.intro, ?_⟩ solitary.few,
      lonely.stage.congr rfl rfl⟩, rfl, rfl⟩
    intro own connected origin message published
    rw [Moment.hubEvents, List.mem_singleton] at published
    subst published
    cases unrelated
  | @move move after possible =>
    cases move with
    | measure reading =>
      have happens := Population.Happens.move possible
      simp only [Population.step?] at possible
      split at possible
      · cases possible
        exact ⟨⟨lonely.lasts, solitary.step happens
          ⟨True.intro, by simp [Moment.hubEvents, Move.user?]⟩ solitary.few,
          lonely.stage.congr rfl rfl⟩, rfl, rfl⟩
      · cases possible
    | _ => cases unrelated

/-- As long as there is no report, nothing has to wait for the clock but for the beginning or the
end of the measured time. -/
theorem idle (lonely : Lonely calendar config duration hub run) (sound : hub.Sound)
    (clear : config.probe.Clear (1000 * duration)) (idle : Idle calendar run)
    (unreported : run.stage.report? = none) :
    ∃ time, run.stage.timer = some time ∧ run.population.now < time ∧
      time ≤ config.closeAt duration ∧
      (run.population.start.isOpen = false → time ≤ config.warmup) := by
  have told := lonely.stage
  have stuck : run.coordinate? = none := idle .coordinator rfl
  cases stage : run.stage with
  | warming time =>
    rw [stage] at told
    obtain ⟨rfl, _, _⟩ := told
    refine ⟨_, rfl, ?_, Nat.le_add_right _ _, fun _ => Nat.le_refl _⟩
    simpa [coordinate?, stage] using stuck
  | measuring time =>
    rw [stage] at told
    obtain ⟨rfl, isOpen, _⟩ := told
    refine ⟨_, rfl, ?_, Nat.le_refl _, fun closed => ?_⟩
    · simpa [coordinate?, stage] using stuck
    · rw [isOpen] at closed
      cases closed
  | closing deadline =>
    rw [stage] at told
    -- the user has ended by then, so the coordinator could go on
    obtain ⟨user, single, found⟩ := lonely.solitary.exists_user rfl
    have ended := lonely.solitary.isEnded (expects_undisturbed sound clear) told idle.step? found
    have nobody : run.population.running = 0 := by
      simp [Population.running, single, ended]
    have complete := (lonely.solitary.counters rfl (expects_undisturbed sound clear)
      (books_undisturbed config duration hub)).2.2
    simp [coordinate?, stage, CompletionGate.isComplete, complete, nobody] at stuck
  | finished report =>
    rw [stage] at unreported
    cases unreported
  | overdue | summarizing _ | flushing _ | summarized _ _ | timeoutsRead _ _ _ =>
    simp [coordinate?, stage] at stuck

theorem advance {time : Nat} (lonely : Lonely calendar config duration hub run)
    (sound : hub.Sound) (clear : config.probe.Clear (1000 * duration))
    (idle : Idle calendar run) (unreported : run.stage.report? = none)
    (ahead : run.population.now < time)
    (early : ∀ timer, run.nextTimer? = some timer → time ≤ timer) :
    Lonely calendar config duration hub (run.moveTo time) ∧ time ≤ config.closeAt duration := by
  obtain ⟨timer, isTimer, _, within, opens⟩ := lonely.idle sound clear idle unreported
  have atMost := le_timer early isTimer
  obtain ⟨next, isNext⟩ := nextTimer?_isSome (by rw [isTimer]; rfl)
  refine ⟨⟨lonely.lasts, ?_, lonely.stage.congr rfl rfl⟩, Nat.le_trans atMost within⟩
  rw [moveTo_of_lt ahead]
  refine lonely.solitary.advance rfl idle.step? ahead ?_
    (fun closed => Nat.le_trans atMost (opens closed))
    (fun _ => Nat.le_trans atMost within)
  intro user other found waits
  exact Nat.le_trans (early next isNext)
    ((nextTimer?_spec isNext).2.2 user (List.mem_of_getElem? found) other waits)

theorem unanswered {report : Report} (lonely : Lonely calendar config duration hub run)
    (reported : run.stage.report? = some report) :
    report.Unanswered config.probe (1000 * duration) := by
  have told := lonely.stage
  cases stage : run.stage with
  | finished given =>
    rw [stage] at told reported
    cases reported
    exact told.2
  | _ =>
    rw [stage] at reported
    cases reported

end Lonely

/-! ## Whole runs -/

section Runs

variable (sound : hub.Sound) (clear : config.probe.Clear (1000 * duration))
  (warm : 1 ≤ config.warmup)

include sound clear warm

theorem Secluded.lonely
    (secluded : Secluded calendar (undisturbed config duration 1 hub) run) :
    Lonely calendar config duration hub run := by
  induction secluded with
  | start => exact .start sound clear
  | beat _ beat ih =>
    cases beat with
    | task isTask possible => exact (ih.task sound clear warm isTask possible).1
    | time idle unreported ahead early =>
      exact (ih.advance sound clear idle unreported ahead early).1
  | apart _ apart ih => exact (ih.apart apart).1

theorem Secluded.nextTimer?
    (secluded : Secluded calendar (undisturbed config duration 1 hub) run)
    (idle : Idle calendar run) (unreported : run.stage.report? = none) :
    ∃ time, run.nextTimer? = some time ∧ run.population.now < time ∧
      time ≤ config.closeAt duration ∧
      Secluded calendar (undisturbed config duration 1 hub) (run.moveTo time) := by
  obtain ⟨timer, isTimer, ahead, within, -⟩ :=
    (secluded.lonely sound clear warm).idle sound clear idle unreported
  obtain ⟨time, isFirst, later, least⟩ := idle.nextTimer? isTimer ahead
  exact ⟨time, isFirst, later, Nat.le_trans least within,
    secluded.beat (.nextTimer idle unreported isFirst later)⟩

theorem Secluded.exists_beat
    (secluded : Secluded calendar (undisturbed config duration 1 hub) run)
    (unreported : run.stage.report? = none) : ∃ next, Beat calendar run next := by
  refine LoadRun.exists_beat unreported fun idle => ?_
  obtain ⟨time, isFirst, later, -⟩ := secluded.nextTimer? sound clear warm idle unreported
  exact ⟨time, isFirst, later⟩

/-- However often others do something in between, the tasks come to an end. -/
theorem acc_beat_of_lonely {run : LoadRun}
    (secluded : Secluded calendar (undisturbed config duration 1 hub) run) :
    Acc (fun next run => ∃ middle, Relation.ReflTransGen (Apart calendar) run middle ∧
      Beat calendar middle next) run := by
  have others : ∀ run next, Secluded calendar (undisturbed config duration 1 hub) run →
      Apart calendar run next →
      Secluded calendar (undisturbed config duration 1 hub) next ∧
        next.population.now = run.population.now ∧ next.errands ≤ run.errands := by
    intro run next secluded apart
    obtain ⟨-, same, still⟩ := (secluded.lonely sound clear warm).apart apart
    exact ⟨secluded.apart apart, still, Nat.le_of_eq same⟩
  have lowers : ∀ run next, Secluded calendar (undisturbed config duration 1 hub) run →
      Beat calendar run next →
      Secluded calendar (undisturbed config duration 1 hub) next ∧
        Lowers (fun run => run.population.now) errands (config.closeAt duration) run next := by
    intro run next secluded beat
    have lonely := secluded.lonely sound clear warm
    refine ⟨secluded.beat beat, ?_⟩
    cases beat with
    | @task move next isTask possible =>
      have step : run.AnyTask calendar next := ⟨move, isTask, possible⟩
      exact .inl ⟨step.now, (lonely.task sound clear warm isTask possible).2⟩
    | time idle unreported ahead early =>
      rw [Lowers, now_moveTo_of_lt ahead]
      exact .inr ⟨ahead, (lonely.advance sound clear idle unreported ahead early).2⟩
  exact acc_between others lowers secluded

/-- The schedule is computed, and is one of those on the clock. -/
theorem exists_run_of_lonely (calendar : Nat → String) (origin : ConnectionId)
    (message : Inbound) :
    ∃ last, LoadRun.run calendar config origin message []
        (undisturbed config duration 1 hub) = some last ∧
      Secluded calendar (undisturbed config duration 1 hub) last ∧
      last.stage.report?.isSome = true := by
  have winds : Winds calendar (Secluded calendar (undisturbed config duration 1 hub)) errands :=
    { task := by
        rintro run next secluded ⟨move, isTask, possible⟩
        have step : run.AnyTask calendar next := ⟨move, isTask, possible⟩
        exact ⟨secluded.beat (.task isTask possible), step.now,
          ((secluded.lonely sound clear warm).task sound clear warm isTask possible).2⟩
      few := fun {run} secluded => by
        have few := (secluded.lonely sound clear warm).solitary.few
        have rank : run.stage.rank ≤ 8 := by cases run.stage <;> simp [Stage.rank]
        rw [errands, Population.turnLimit]
        omega }
  have timed : ∀ {run : LoadRun},
      Secluded calendar (undisturbed config duration 1 hub) run → Idle calendar run →
      run.stage.report? = none →
      ∃ time, run.nextTimer? = some time ∧ run.population.now < time ∧
        time ≤ horizon config duration ∧
        Secluded calendar (undisturbed config duration 1 hub) (run.moveTo time) := by
    intro run secluded idle unreported
    obtain ⟨time, isFirst, ahead, within, later⟩ :=
      secluded.nextTimer? sound clear warm idle unreported
    exact ⟨time, isFirst, ahead, Nat.le_trans within (Nat.le_add_right _ _), later⟩
  obtain ⟨last, result, secluded, reported⟩ :=
    exists_runUntil winds timed .start (Nat.zero_le _)
  refine ⟨last, ?_, secluded, reported⟩
  simp only [LoadRun.run, List.mergeSort_nil, publishAt, Option.bind_eq_bind, Option.bind_some]
  exact result

end Runs

end LoadRun

/-! ## The result -/

/-- A user attached to a hub where nobody else publishes, cancelled a span after the gate has opened
and at no moment at which one of its waits or pauses ends. In whatever order things happen on a
virtual clock, it makes no sample and counts as many probes and timeouts as fit into the span; no
time passes between cancellation and its end, its exit is `cancelled`, and its connection has left
the hub. If it is on its own, the schedule of these two signals exists and takes it to its end. A
load test of one such user never gets stuck, does not go on for ever, and reports these numbers; its
schedule exists, too. -/
theorem unheard_user (calendar : Nat → String) {past : List Hub.Event} :
    (∀ {first last : Population} {moments : List Moment} {index opening span : Nat} {user : User},
      Hub.Run {} past first.hub → first.Fresh → (∀ user ∈ first.users, user.OnHub) →
      first.now ≤ opening → first.start.isOpen = false → first.cancelled = false →
      first.settings.Clear span → first.Lives calendar moments last →
      (∀ moment ∈ moments, moment.Lone calendar index opening span) →
      last.users[index]? = some user →
      let history := moments.filterMap Moment.event?
      let round := first.settings.waitBound + first.settings.pacing
      History.tallyOf UserEvent.isMeasured index history = 0 ∧
      (last.cancelled = true →
        (last.now = opening + span ∨ user.phase.isEnded = true) ∧
        History.tallyOf (UserEvent.counts .probe) index history = span / round + 1 ∧
        History.tallyOf (UserEvent.counts .timeout) index history =
          (span + first.settings.pacing) / round) ∧
      (user.phase.isEnded = true →
        last.cancelled = true ∧ user.phase = .ended (some .cancelled) ∧
        ∀ moment ∈ moments, ∀ own, moment.before.connectionAt index = some own →
          last.hub.isAttached own = false)) ∧
    (∀ {first : Population} {opening span : Nat} {id due : Nat},
      Hub.Run {} past first.hub → first.Fresh → first.recorder = {} →
      first.users =
        [{ id, connector := .attach, link := none, phase := .connecting (some due),
           handle := some ({} : LatencyRecorder).handle }] →
      due ≤ opening → first.now ≤ opening → first.start.isOpen = false →
      first.cancelled = false → first.settings.Clear span →
      ∃ snapshots last moments user,
        UserScript.follow calendar first [(opening, .open), (opening + span, .cancel)] =
          some (snapshots, last) ∧
        first.Lives calendar moments last ∧
        (∀ moment ∈ moments, moment.Lone calendar 0 opening span) ∧
        last.users = [user] ∧ user.phase.isEnded = true ∧ last.cancelled = true ∧
        last.now = opening + span ∧
        let round := first.settings.waitBound + first.settings.pacing
        last.counters.probes = span / round + 1 ∧
        last.counters.timeouts = (span + first.settings.pacing) / round ∧
        last.recorder.gather.summary = none) ∧
    ∀ {config : BenchConfig} {duration : Nat} {hub : Hub},
      Hub.Run {} past hub → 1 ≤ config.warmup → config.probe.Clear (1000 * duration) →
      ∃ first, LoadRun.start config duration hub [{}] = .ok first ∧
        Acc (fun next run => ∃ middle,
          Relation.ReflTransGen (LoadRun.Apart calendar) run middle ∧
          LoadRun.Beat calendar middle next) first ∧
        (∀ {run : LoadRun}, LoadRun.Secluded calendar first run →
          (run.stage.report? = none → ∃ next, LoadRun.Beat calendar run next) ∧
          ∀ report, run.stage.report? = some report →
            let round := config.probe.waitBound + config.probe.pacing
            report.probes = 1000 * duration / round + 1 ∧
            report.timeouts = (1000 * duration + config.probe.pacing) / round ∧
            report.samples = 0 ∧ report.latency = none) ∧
        ∀ origin message, ∃ last,
          LoadRun.run calendar config origin message [] first = some last ∧
          LoadRun.Secluded calendar first last ∧ last.stage.report?.isSome = true := by
  refine ⟨?_, ?_, ?_⟩
  · intro first last moments index opening span user reached fresh onHub early closed kept clear
      lives lone found history round
    have seated := fresh.seated (reached.sound Hub.sound_empty) onHub
    have expects : first.Expects opening span := ⟨fresh, seated, clear, early, closed, kept⟩
    have unheard := lives.unheard expects lone found
    have phase := unheard.phase
    refine ⟨(lives.unsampled fresh seated lone found).1, fun cancelled => ⟨?_, ?_⟩,
      fun ended => ?_⟩
    · cases ended : user.phase.isEnded with
      | true => exact .inr rfl
      | false => exact .inl (unheard.stops cancelled ended)
    · have counts := unheard.counts (lives.settings ▸ clear) cancelled
      rw [lives.settings] at counts
      exact counts
    · obtain ⟨exit, isEnded⟩ := Phase.of_isEnded ended
      rw [isEnded] at phase
      obtain ⟨cancelled, rfl, _⟩ := phase
      exact ⟨cancelled, isEnded, fun moment member own connected =>
        lives.isAttached_of_ended seated found isEnded member connected⟩
  · intro first opening span id due reached fresh empty single inTime early closed kept clear
    have onHub : ∀ user ∈ first.users, user.OnHub := by
      rw [single]
      intro user member
      rw [List.mem_singleton.mp member]
      exact ⟨rfl, rfl⟩
    have seated := fresh.seated (reached.sound Hub.sound_empty) onHub
    have expects : first.Expects opening span := ⟨fresh, seated, clear, early, closed, kept⟩
    have one : first.users.length = 1 := by rw [single]; rfl
    have books : Books [] first := LoadRun.books_start (by rw [single]; simp) fresh.counters empty
      fresh.completion
    obtain ⟨snapshots, last, ran, solitary, cancelled, now, user, alone, ended⟩ :=
      expects.follow calendar one (by
        rw [single]
        intro user member
        rw [List.mem_singleton.mp member]
        exact ⟨due, inTime, rfl⟩)
    obtain ⟨counts, silent, _⟩ := solitary.counters one expects books
    obtain ⟨probes, timeouts⟩ := counts cancelled
    obtain ⟨moments, lives, lone⟩ := solitary.lives
    exact ⟨snapshots, last, moments, user, ran, lives, lone, alone, ended, cancelled, now, probes,
      timeouts, silent⟩
  · intro config duration hub reached warm clear
    have sound := reached.sound Hub.sound_empty
    have positive := clear.positive
    have started := LoadRun.start_undisturbed config 1 hub Nat.one_pos (by omega : 0 < duration)
    refine ⟨_, started, LoadRun.acc_beat_of_lonely sound clear warm .start,
      fun secluded => ⟨secluded.exists_beat sound clear warm, fun report reported => ?_⟩,
      fun origin message => LoadRun.exists_run_of_lonely sound clear warm calendar origin message⟩
    have numbers := (secluded.lonely sound clear warm).unanswered reported
    exact ⟨numbers.probes, numbers.timeouts, numbers.samples, numbers.latency⟩

/-- A user that is cancelled in its second wait, and a load test of one second. -/
theorem unheard_user_second_wait :
    let settings : ProbeSettings := { waitBound := 5, pacing := 2 }
    let first : Population :=
      { settings
        users :=
          [{ id := 0, connector := .attach, link := none, phase := .connecting (some 1)
             handle := some ({} : LatencyRecorder).handle }]
        completion := { remaining := 1 } }
    (∃ snapshots last moments user,
      UserScript.follow (fun _ => "noon") first [(3, .open), (12, .cancel)] =
        some (snapshots, last) ∧
      first.Lives (fun _ => "noon") moments last ∧ last.users = [user] ∧
      user.phase = .ended (some .cancelled) ∧ last.counters.probes = 2 ∧
      last.counters.timeouts = 1 ∧
      History.tallyOf UserEvent.isMeasured 0 (moments.filterMap Moment.event?) = 0 ∧
      ∀ moment ∈ moments, ∀ own, moment.before.connectionAt 0 = some own →
        last.hub.isAttached own = false) ∧
    ∃ begin last report,
      LoadRun.start { probe := settings, warmup := 3 } 1 {} [{}] = .ok begin ∧
      LoadRun.run (fun _ => "noon") { probe := settings, warmup := 3 } 1 ⟨"peer", "hello"⟩ []
        begin = some last ∧
      last.stage.report? = some report ∧ report.probes = 143 ∧ report.timeouts = 143 ∧
      report.samples = 0 ∧ report.latency = none := by
  intro settings first
  have fresh : first.Fresh :=
    { connecting := by simp [first]
      handle := by simp [first]
      completion := rfl
      counters := rfl }
  have onHub : ∀ user ∈ first.users, user.OnHub := by
    intro user member
    rw [List.mem_singleton.mp member]
    exact ⟨rfl, rfl⟩
  have clear {span : Nat} (positive : 0 < span) (wait : span % 7 ≠ 5) (pause : span % 7 ≠ 0) :
      settings.Clear span :=
    { bound := by decide
      positive
      wait := fun count => by simp only [settings, ProbeSettings.round]; omega
      pause := fun count => by simp only [settings, ProbeSettings.round]; omega }
  obtain ⟨counts, script, test⟩ := @unheard_user (fun _ => "noon") []
  constructor
  · obtain ⟨snapshots, last, moments, user, ran, lives, lone, single, ended, cancelled, _,
        probes, timeouts, _⟩ :=
      @script first 3 9 _ _ .nil fresh rfl rfl (by decide) (Nat.zero_le _) rfl rfl
        (clear (by decide) (by decide) (by decide))
    obtain ⟨unsampled, _, gone⟩ := @counts first last moments 0 3 9 user .nil fresh onHub
      (Nat.zero_le _) rfl rfl (clear (by decide) (by decide) (by decide)) lives lone
      (by rw [single]; rfl)
    exact ⟨snapshots, last, moments, user, ran, lives, single, (gone ended).2.1,
      probes.trans (by decide), timeouts.trans (by decide), unsampled, (gone ended).2.2⟩
  · obtain ⟨begin, started, _, numbers, ran⟩ :=
      @test { probe := settings, warmup := 3 } 1 {} .nil (by decide)
        (clear (by decide) (by decide) (by decide))
    obtain ⟨last, result, secluded, reported⟩ := ran 1 ⟨"peer", "hello"⟩
    obtain ⟨report, isReport⟩ := Option.isSome_iff_exists.mp reported
    obtain ⟨probes, timeouts, silent⟩ := (numbers secluded).2 report isReport
    exact ⟨begin, last, report, started, result, isReport, probes.trans (by decide),
      timeouts.trans (by decide), silent⟩

end ChatHub
