import ChatHub.Proofs.Load.Clock
import ChatHub.Proofs.Load.Wiring
/-!
The timetable of an undisturbed load test: everyone connects at the beginning, the first round
starts after the warm-up, a round follows every pause, and all users stop at one moment between two
rounds. Main statement: `Population.Task.onTime`; with each of its steps a user stays in time.
-/

set_option autoImplicit false

namespace ChatHub

/-! ## Times -/

/-- The time of a round, counted from zero. -/
def BenchConfig.roundAt (config : BenchConfig) (round : Nat) : Nat :=
  config.warmup + round * config.probe.pacing

/-- The time at which the users are stopped. -/
def BenchConfig.closeAt (config : BenchConfig) (duration : Nat) : Nat :=
  config.warmup + 1000 * duration

/-- How many rounds fit in: the duration over the pause, rounded up. -/
def BenchConfig.rounds (config : BenchConfig) (duration : Nat) : Nat :=
  (1000 * duration + config.probe.pacing - 1) / config.probe.pacing

/-- Times that leave no doubt about the order of events: nothing takes no time, and no round falls
on the moment at which the users are stopped. -/
structure BenchConfig.Regular (config : BenchConfig) (duration : Nat) : Prop where
  lasts : 1 ≤ duration
  warmup : 1 ≤ config.warmup
  waitBound : 1 ≤ config.probe.waitBound
  pacing : 1 ≤ config.probe.pacing
  uneven : ¬ config.probe.pacing ∣ 1000 * duration
  grace : 1 ≤ config.grace

section Times

variable {config : BenchConfig} {duration : Nat}

private theorem BenchConfig.Regular.roundAt_ne (regular : config.Regular duration) (round : Nat) :
    config.roundAt round ≠ config.closeAt duration := by
  intro same
  apply regular.uneven
  have product : 1000 * duration = round * config.probe.pacing := by
    simp only [roundAt, closeAt] at same
    omega
  exact product ▸ Nat.dvd_mul_left config.probe.pacing round

theorem BenchConfig.Regular.roundAt_lt (regular : config.Regular duration) {first second : Nat} :
    config.roundAt first < config.roundAt second ↔ first < second := by
  simp only [roundAt, Nat.add_lt_add_iff_left]
  exact Nat.mul_lt_mul_right regular.pacing

theorem BenchConfig.Regular.roundAt_inj (regular : config.Regular duration) {first second : Nat}
    (same : config.roundAt first = config.roundAt second) : first = second :=
  Nat.eq_of_mul_eq_mul_right regular.pacing (Nat.add_left_cancel same)

private theorem BenchConfig.roundAt_succ (config : BenchConfig) (round : Nat) :
    config.roundAt (round + 1) = config.roundAt round + config.probe.pacing := by
  simp only [roundAt, Nat.succ_mul, Nat.add_assoc]

/-- The users are stopped behind their last round and before another. -/
theorem BenchConfig.Regular.eq_rounds (regular : config.Regular duration) {round : Nat}
    (last : config.roundAt round ≤ config.closeAt duration)
    (next : config.closeAt duration ≤ config.roundAt (round + 1)) :
    round + 1 = config.rounds duration := by
  have before := regular.roundAt_ne round
  have behind := regular.roundAt_ne (round + 1)
  have paced := regular.pacing
  have upTo := Nat.succ_mul round config.probe.pacing
  have beyond := Nat.succ_mul (round + 1) config.probe.pacing
  simp only [roundAt, closeAt, Nat.succ_eq_add_one] at last next before behind upTo beyond
  rw [rounds, eq_comm]
  apply Nat.div_eq_of_lt_le <;> omega

end Times

/-! ## In step with the timetable -/

/-- Where a user stands at a time that has sent and heard so much. -/
def Phase.OnTime (config : BenchConfig) (duration : Nat) (population : Population)
    (sent heard : Nat) : Phase → Prop
  | .connecting due =>
    due = some 0 ∧ population.now = 0 ∧ population.start.isOpen = false ∧ sent = 0 ∧ heard = 0
  | .waitingForStart =>
    (population.start.isOpen = true → population.now = config.warmup) ∧ sent = 0 ∧ heard = 0
  | .probing | .sent _ =>
    population.start.isOpen = true ∧ population.now = config.roundAt sent ∧ heard = sent
  | .awaiting _ deadline =>
    population.start.isOpen = true ∧ population.now = config.roundAt heard ∧ sent = heard + 1 ∧
      deadline = population.now + config.probe.waitBound
  | .answered _ =>
    population.start.isOpen = true ∧ population.now = config.roundAt heard ∧ sent = heard + 1
  | .pacing until_ =>
    population.start.isOpen = true ∧ heard = sent ∧ until_ = config.roundAt sent ∧
      (∃ round, sent = round + 1 ∧ config.roundAt round ≤ population.now) ∧
      population.now ≤ until_
  | .unanswered | .lost _ => False
  | .stopping exit | .stopped exit | .flushed exit | .ended exit =>
    population.cancelled = true ∧ exit = some .cancelled ∧ sent = config.rounds duration ∧
      heard = config.rounds duration

/-- Where the coordinator stands at a time. -/
def Stage.OnTime (config : BenchConfig) (duration : Nat) (population : Population) :
    Stage → Prop
  | .warming time =>
    time = config.warmup ∧ population.start.isOpen = false ∧ population.cancelled = false ∧
      population.now ≤ config.warmup
  | .measuring time =>
    time = config.closeAt duration ∧ population.start.isOpen = true ∧
      population.cancelled = false ∧ population.now ≤ config.closeAt duration
  | .closing deadline =>
    deadline = config.closeAt duration + config.grace ∧ population.start.isOpen = true ∧
      population.cancelled = true ∧ population.now = config.closeAt duration
  | .overdue => False
  | .summarizing stragglers | .flushing stragglers | .summarized stragglers _
  | .timeoutsRead stragglers _ _ =>
    stragglers = 0 ∧ population.completion.remaining = 0 ∧ population.start.isOpen = true ∧
      population.cancelled = true ∧ population.now = config.closeAt duration
  | .finished report =>
    (report.stragglers = 0 ∧ report.connectFailures = 0 ∧ report.linkFailures = 0) ∧
      population.completion.remaining = 0 ∧ population.start.isOpen = true ∧
      population.cancelled = true ∧ population.now = config.closeAt duration

section OnTime

variable {config : BenchConfig} {duration sent heard : Nat} {population : Population}
  {phase next : Phase}

theorem Stage.OnTime.of_cancelled {stage : Stage}
    (onTime : stage.OnTime config duration population) (cancelled : population.cancelled = true) :
    population.start.isOpen = true ∧ population.now = config.closeAt duration := by
  cases stage with
  | warming _ | measuring _ => simp_all [OnTime]
  | closing _ => exact ⟨onTime.2.1, onTime.2.2.2⟩
  | overdue => exact onTime.elim
  | summarizing _ | flushing _ | summarized _ _ | timeoutsRead _ _ _ | finished _ =>
    exact ⟨onTime.2.2.1, onTime.2.2.2.2⟩

theorem Stage.OnTime.congr {after : Population} {stage : Stage}
    (onTime : stage.OnTime config duration population)
    (signals : Population.SameSignals population after)
    (complete : population.completion.remaining = 0 → after.completion.remaining = 0) :
    stage.OnTime config duration after := by
  cases stage <;> simp only [OnTime, signals.start, signals.cancelled, signals.now] at onTime ⊢ <;>
    first
    | exact onTime
    | exact ⟨onTime.1, complete onTime.2.1, onTime.2.2⟩

theorem Phase.OnTime.congr {after : Population}
    (onTime : phase.OnTime config duration population sent heard)
    (signals : Population.SameSignals population after) :
    phase.OnTime config duration after sent heard := by
  cases phase <;> simp only [OnTime, signals.start, signals.cancelled, signals.now] at onTime ⊢ <;>
    exact onTime

theorem Population.Alone.onTime (regular : config.Regular duration)
    (settings : population.settings = config.probe)
    (cancels : population.cancelled = true →
      population.start.isOpen = true ∧ population.now = config.closeAt duration)
    (course : population.Alone phase next)
    (onTime : phase.OnTime config duration population sent heard) (stopwatch : Nat) :
    next.OnTime config duration population
      (sent + Phase.gain (UserEvent.counts .probe) stopwatch phase next)
      (heard + Phase.gain UserEvent.isMeasured stopwatch phase next) := by
  cases course with
  | begin isOpen =>
    obtain ⟨opened, rfl, rfl⟩ := onTime
    refine ⟨isOpen, (opened isOpen).trans ?_, rfl⟩
    simp [BenchConfig.roundAt, Phase.gain, Phase.event?]
  | count sentAt =>
    obtain ⟨isOpen, now, rfl⟩ := onTime
    exact ⟨isOpen, now, rfl, by rw [settings]⟩
  | expire sentAt deadline due =>
    obtain ⟨_, _, _, rfl⟩ := onTime
    have bound := regular.waitBound
    omega
  | measure sentAt =>
    obtain ⟨isOpen, now, rfl⟩ := onTime
    refine ⟨isOpen, rfl, ?_, ⟨heard, rfl, Nat.le_of_eq now.symm⟩, Nat.le_add_right _ _⟩
    rw [now, settings]
    exact (BenchConfig.roundAt_succ config heard).symm
  | pass => exact onTime.elim
  | again until_ due =>
    obtain ⟨isOpen, rfl, rfl, _, now⟩ := onTime
    exact ⟨isOpen, Nat.le_antisymm now due, rfl⟩
  | lose state exit exits => exact onTime.elim
  | giveUp due cancelled =>
    obtain ⟨_, _, closed, _⟩ := onTime
    rw [(cancels cancelled).1] at closed
    cases closed
  | leave suspended linked cancelled =>
    obtain ⟨isOpen, now⟩ := cancels cancelled
    -- At this moment nobody waits for the start any more, and no round falls on it.
    cases phase with
    | waitingForStart =>
      have early := onTime.1 isOpen
      have positive := regular.lasts
      rw [now, BenchConfig.closeAt] at early
      omega
    | awaiting sentAt deadline =>
      exact absurd (onTime.2.1.symm.trans now) (regular.roundAt_ne heard)
    | pacing until_ =>
      obtain ⟨_, rfl, rfl, ⟨round, rfl, last⟩, next⟩ := onTime
      rw [now] at last next
      have count := regular.eq_rounds last next
      exact ⟨cancelled, rfl, count, count⟩
    | connecting due => cases linked
    | _ => cases suspended
  | flush exit | finish exit => exact onTime

/-- Users go on as the timetable says, also where the hub takes part: on a hub that keeps them
attached none finds its link closed. -/
theorem Population.Task.onTime {user moved : User} {hub : Hub} (regular : config.Regular duration)
    (settings : population.settings = config.probe)
    (cancels : population.cancelled = true →
      population.start.isOpen = true ∧ population.now = config.closeAt duration)
    (sound : population.hub.Sound)
    (attached : ∀ own, user.connection? = some own → population.hub.isAttached own = true)
    (task : population.Task user moved hub)
    (onTime : user.phase.OnTime config duration population sent heard) (stopwatch : Nat) :
    moved.phase.OnTime config duration population
      (sent + Phase.gain (UserEvent.counts .probe) stopwatch user.phase moved.phase)
      (heard + Phase.gain UserEvent.isMeasured stopwatch user.phase moved.phase) := by
  cases task with
  | alone course _ _ => exact course.onTime regular settings cancels onTime stopwatch
  | connect connecting _ waits _ _ =>
    rw [connecting] at onTime ⊢
    obtain ⟨_, _, closed, rfl, rfl⟩ := onTime
    rw [waits]
    exact ⟨fun opened => absurd opened (closed ▸ Bool.false_ne_true), rfl, rfl⟩
  | send probing sent _ _ =>
    rw [probing] at onTime ⊢
    rw [sent]
    exact onTime
  | hear awaiting answered _ _ _ _ =>
    rw [awaiting] at onTime ⊢
    rw [answered]
    exact ⟨onTime.1, onTime.2.1, onTime.2.2.1⟩
  | close _ _ connected _ _ polled nothing =>
    obtain ⟨message, found⟩ := sound.poll_attached (attached _ connected) polled
    exact absurd found (nothing message)
  | unlink stopping stopped _ _ _ =>
    rw [stopping] at onTime ⊢
    rw [stopped]
    exact onTime
  | pump phase _ _ _ =>
    rw [phase, Phase.gain_self, Phase.gain_self]
    exact onTime

theorem Population.Task.clean {user moved : User} {hub : Hub} (sound : population.hub.Sound)
    (attached : ∀ own, user.connection? = some own → population.hub.isAttached own = true)
    (task : population.Task user moved hub)
    (onTime : user.phase.OnTime config duration population sent heard) (stopwatch : Nat)
    {counted : Counted} (other : counted ≠ .probe) :
    Phase.gain (UserEvent.counts counted) stopwatch user.phase moved.phase = 0 := by
  cases task with
  | alone course _ _ =>
    generalize user.phase = phase at course onTime ⊢
    generalize moved.phase = next at course ⊢
    cases course with
    | count sentAt =>
      simp [Phase.gain, Phase.event?, UserEvent.counts, UserEvent.counted?, other.symm]
    | pass => exact onTime.elim
    | lose state exit exits => exact onTime.elim
    | leave suspended linked _ => cases phase <;> rfl
    | _ => rfl
  | connect connecting _ waits _ _ => rw [connecting, waits]; rfl
  | send probing sent _ _ => rw [probing, sent]; rfl
  | hear awaiting answered _ _ _ _ => rw [awaiting, answered]; rfl
  | close _ _ connected _ _ polled nothing =>
    obtain ⟨message, found⟩ := sound.poll_attached (attached _ connected) polled
    exact absurd found (nothing message)
  | unlink stopping stopped _ _ _ => rw [stopping, stopped]; rfl
  | pump phase _ _ _ => rw [phase, Phase.gain_self]

end OnTime

end ChatHub
