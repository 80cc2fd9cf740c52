import ChatHub.Proofs.Load.Samples
import ChatHub.Proofs.Load.WindDown
/-!
A user that hears nothing, on a clock that moves only when the user has to wait: every round takes
one wait and one pause, so the time between the two signals says how often it probes. Main
statements: `Happens.unheard`, what one moment preserves, and `Lives.unheard`.
-/

set_option autoImplicit false

namespace ChatHub

/-! ## Times -/

namespace ProbeSettings

/-- How long a round takes in which no answer comes. -/
def round (settings : ProbeSettings) : Nat :=
  settings.waitBound + settings.pacing

/-- A time after the beginning of the first round at which no wait and no pause ends. -/
structure Clear (settings : ProbeSettings) (span : Nat) : Prop where
  bound : 1 ≤ settings.waitBound
  positive : 0 < span
  wait : ∀ count, span ≠ count * settings.round + settings.waitBound
  pause : ∀ count, span ≠ (count + 1) * settings.round

variable {settings : ProbeSettings} {span count : Nat}

theorem Clear.of_wait (clear : settings.Clear span) (since : count * settings.round ≤ span)
    (upTo : span ≤ count * settings.round + settings.waitBound) :
    count + 1 = span / settings.round + 1 ∧
      count = (span + settings.pacing) / settings.round := by
  have inside := clear.wait count
  have next : (count + 1) * settings.round =
      count * settings.round + (settings.waitBound + settings.pacing) :=
    Nat.succ_mul count settings.round
  have probes : span / settings.round = count :=
    Nat.div_eq_of_lt_le since (by omega)
  have timeouts : (span + settings.pacing) / settings.round = count :=
    Nat.div_eq_of_lt_le (by omega) (by omega)
  rw [probes, timeouts]
  exact ⟨rfl, rfl⟩

theorem Clear.of_pause (clear : settings.Clear span)
    (since : count * settings.round + settings.waitBound ≤ span)
    (upTo : span ≤ (count + 1) * settings.round) :
    count + 1 = span / settings.round + 1 ∧
      count + 1 = (span + settings.pacing) / settings.round := by
  have inside := clear.pause count
  have bound := clear.bound
  have next : (count + 1) * settings.round =
      count * settings.round + (settings.waitBound + settings.pacing) :=
    Nat.succ_mul count settings.round
  have second : (count + 1 + 1) * settings.round =
      (count + 1) * settings.round + (settings.waitBound + settings.pacing) :=
    Nat.succ_mul (count + 1) settings.round
  have probes : span / settings.round = count :=
    Nat.div_eq_of_lt_le (by omega) (by omega)
  have timeouts : (span + settings.pacing) / settings.round = count + 1 :=
    Nat.div_eq_of_lt_le (by omega) (by omega)
  rw [probes, timeouts]
  exact ⟨rfl, rfl⟩

end ProbeSettings

/-! ## Where the user stands -/

/-- Where a user stands that has heard nothing and has counted so many probes and timeouts, if the
gate opens at one time and cancellation follows after a span. -/
def Phase.Unheard (opening span : Nat) (population : Population) (sent timeouts : Nat) :
    Phase → Prop
  | .connecting _ => population.start.isOpen = false ∧ sent = 0 ∧ timeouts = 0
  | .waitingForStart =>
    (population.start.isOpen = true → population.now = opening) ∧ sent = 0 ∧ timeouts = 0
  | .probing | .sent _ =>
    population.start.isOpen = true ∧ timeouts = sent ∧
      population.now = opening + sent * population.settings.round
  | .awaiting _ deadline =>
    population.start.isOpen = true ∧ sent = timeouts + 1 ∧
      opening + timeouts * population.settings.round ≤ population.now ∧
      population.now ≤ deadline ∧
      deadline = opening + timeouts * population.settings.round + population.settings.waitBound
  | .unanswered =>
    population.start.isOpen = true ∧ sent = timeouts + 1 ∧
      population.now =
        opening + timeouts * population.settings.round + population.settings.waitBound
  | .pacing until_ =>
    population.start.isOpen = true ∧ sent = timeouts ∧ ∃ count, timeouts = count + 1 ∧
      opening + count * population.settings.round + population.settings.waitBound ≤
        population.now ∧
      population.now ≤ until_ ∧ until_ = opening + (count + 1) * population.settings.round
  | .answered _ | .lost _ => False
  | .stopping exit | .stopped exit | .flushed exit | .ended exit =>
    population.cancelled = true ∧ exit = some .cancelled ∧
      sent = span / population.settings.round + 1 ∧
      timeouts = (span + population.settings.pacing) / population.settings.round

section Phase

variable {opening span sent timeouts : Nat} {population after : Population} {phase next : Phase}

theorem Phase.Unheard.congr (unheard : phase.Unheard opening span population sent timeouts)
    (signals : Population.SameSignals population after) :
    phase.Unheard opening span after sent timeouts := by
  cases phase <;>
    simp only [Unheard, signals.settings, signals.start, signals.cancelled, signals.now]
      at unheard ⊢ <;>
    exact unheard

/-- Once the time is up, the numbers are what they will be at the end, wherever the user stands. -/
theorem Phase.Unheard.counts (unheard : phase.Unheard opening span population sent timeouts)
    (clear : population.settings.Clear span) (isOpen : population.start.isOpen = true)
    (now : phase.isEnded = false → population.now = opening + span) :
    sent = span / population.settings.round + 1 ∧
      timeouts = (span + population.settings.pacing) / population.settings.round := by
  have positive := clear.positive
  cases phase with
  | connecting _ =>
    have closed := unheard.1
    rw [isOpen] at closed
    cases closed
  | waitingForStart =>
    have early := unheard.1 isOpen
    have late := now rfl
    omega
  | probing | sent _ =>
    obtain ⟨_, rfl, early⟩ := unheard
    have late := now rfl
    cases timeouts with
    | zero =>
      rw [Nat.zero_mul] at early
      omega
    | succ count =>
      have inside := clear.pause count
      omega
  | awaiting _ deadline =>
    obtain ⟨_, rfl, since, upTo, rfl⟩ := unheard
    have late := now rfl
    exact clear.of_wait (by omega) (by omega)
  | unanswered =>
    obtain ⟨_, _, early⟩ := unheard
    have late := now rfl
    have inside := clear.wait timeouts
    omega
  | pacing until_ =>
    obtain ⟨_, rfl, count, rfl, since, upTo, rfl⟩ := unheard
    have late := now rfl
    exact clear.of_pause (by omega) (by omega)
  | answered _ | lost _ => exact unheard.elim
  | stopping _ | stopped _ | flushed _ | ended _ => exact unheard.2.2

theorem Population.Alone.unheard (course : population.Alone phase next)
    (clear : population.settings.Clear span)
    (cancels : population.cancelled = true →
      population.start.isOpen = true ∧ population.now = opening + span)
    (unheard : phase.Unheard opening span population sent timeouts) (stopwatch : Nat) :
    next.Unheard opening span population
      (sent + Phase.gain (UserEvent.counts .probe) stopwatch phase next)
      (timeouts + Phase.gain (UserEvent.counts .timeout) stopwatch phase next) := by
  cases course with
  | begin isOpen =>
    obtain ⟨opened, rfl, rfl⟩ := unheard
    refine ⟨isOpen, rfl, ?_⟩
    simpa [Phase.gain, Phase.event?] using opened isOpen
  | count sentAt =>
    obtain ⟨isOpen, rfl, now⟩ := unheard
    exact ⟨isOpen, rfl, Nat.le_of_eq now.symm, Nat.le_add_right _ _, by rw [now]; rfl⟩
  | expire sentAt deadline due =>
    obtain ⟨isOpen, counted, _, upTo, rfl⟩ := unheard
    exact ⟨isOpen, counted, Nat.le_antisymm upTo due⟩
  | measure sentAt => exact unheard.elim
  | pass =>
    obtain ⟨isOpen, rfl, now⟩ := unheard
    refine ⟨isOpen, rfl, timeouts, rfl, Nat.le_of_eq now.symm, Nat.le_add_right _ _, ?_⟩
    rw [now, Nat.succ_mul, ProbeSettings.round]
    omega
  | again until_ due =>
    obtain ⟨isOpen, rfl, count, rfl, _, upTo, rfl⟩ := unheard
    exact ⟨isOpen, rfl, Nat.le_antisymm upTo due⟩
  | lose state exit exits => exact unheard.elim
  | giveUp due cancelled =>
    have closed := unheard.1
    rw [(cancels cancelled).1] at closed
    cases closed
  | leave suspended linked cancelled =>
    obtain ⟨isOpen, now⟩ := cancels cancelled
    have counts := unheard.counts clear isOpen fun _ => now
    cases phase with
    | waitingForStart | awaiting _ _ | pacing _ => exact ⟨cancelled, rfl, counts⟩
    | connecting _ => cases linked
    | _ => cases suspended
  | flush exit | finish exit => exact unheard

/-- With every step of its task a user stays in time, as long as its mailbox is empty and nobody
ends its connection. -/
theorem Population.Task.unheard {user moved : User} {hub : Hub}
    (task : population.Task user moved hub) (clear : population.settings.Clear span)
    (cancels : population.cancelled = true →
      population.start.isOpen = true ∧ population.now = opening + span)
    (sound : population.hub.Sound)
    (attached : ∀ own, user.connection? = some own → population.hub.isAttached own = true)
    (heedless : moved.phase.isAnswered = false)
    (unheard : user.phase.Unheard opening span population sent timeouts) (stopwatch : Nat) :
    moved.phase.Unheard opening span population
      (sent + Phase.gain (UserEvent.counts .probe) stopwatch user.phase moved.phase)
      (timeouts + Phase.gain (UserEvent.counts .timeout) stopwatch user.phase moved.phase) := by
  cases task with
  | alone course _ _ => exact course.unheard clear cancels unheard stopwatch
  | connect connecting _ waits _ _ =>
    rw [connecting] at unheard ⊢
    obtain ⟨closed, rfl, rfl⟩ := unheard
    rw [waits]
    exact ⟨fun isOpen => absurd isOpen (closed ▸ Bool.false_ne_true), rfl, rfl⟩
  | send probing sent _ _ =>
    rw [probing] at unheard ⊢
    rw [sent]
    exact unheard
  | hear _ answered _ _ _ _ =>
    rw [answered] at heedless
    cases heedless
  | close _ _ connected _ _ polled nothing =>
    obtain ⟨message, found⟩ := sound.poll_attached (attached _ connected) polled
    exact absurd found (nothing message)
  | unlink stopping stopped _ _ _ =>
    rw [stopping] at unheard ⊢
    rw [stopped]
    exact unheard
  | pump phase _ _ _ =>
    rw [phase, Phase.gain_self, Phase.gain_self]
    exact unheard

end Phase

/-! ## Moments -/

namespace Moment

/-- Whether a virtual clock may move on as far as a user is concerned: only when the user cannot
take a step, and neither past its timer nor past a signal that is still to come. -/
structure MayWait (calendar : Nat → String) (index opening span : Nat) (population : Population)
    (time : Nat) : Prop where
  cancel : population.step? calendar (.cancel index) = none
  proceed : population.step? calendar (.proceed index) = none
  timer : ∀ user timer, population.users[index]? = some user → user.phase.timer = some timer →
    time ≤ timer
  start : population.start.isOpen = false → time ≤ opening
  stop : population.cancelled = false → time ≤ opening + span

/-- What can happen on a virtual clock to a user that is connected when the gate opens at its time,
is cancelled a span later, and is not aborted. -/
def Timely (calendar : Nat → String) (index opening span : Nat) (moment : Moment) : Prop :=
  match moment.occurrence with
  | .opened =>
    moment.before.now = opening ∧
      ∀ user due, moment.before.users[index]? = some user → user.phase ≠ .connecting due
  | .cancelled => moment.before.now = opening + span
  | .move (.advance time) => MayWait calendar index opening span moment.before time
  | .move (.abort user) => user ≠ index
  | _ => True

/-- A moment on such a clock at which nobody but a user itself publishes on its hub. -/
structure Lone (calendar : Nat → String) (index opening span : Nat) (moment : Moment) : Prop where
  timely : moment.Timely calendar index opening span
  quiet : ∀ own, moment.before.connectionAt index = some own → ∀ origin message,
    .published origin message ∈ moment.hubEvents calendar → origin = own

theorem Lone.hears {calendar : Nat → String} {index opening span : Nat} {moment : Moment}
    (lone : moment.Lone calendar index opening span) : moment.hears calendar index = 0 := by
  rw [Moment.hears]
  cases connected : moment.before.connectionAt index with
  | none => rfl
  | some own =>
    have silent : ∀ origin message, origin ≠ own →
        .published origin message ∉ moment.hubEvents calendar :=
      fun origin message other published =>
        other (lone.quiet own connected origin message published)
    rw [Option.elim_some, Hub.heard_eq_nil silent true, List.length_nil]

end Moment

namespace Population

variable {calendar : Nat → String} {first before after last : Population}
  {occurrence : Occurrence} {moments : List Moment} {index opening span sent timeouts : Nat}
  {user moved : User}

/-- The signals of a population whose clock has not passed them before they were given. -/
structure Signalled (opening span : Nat) (population : Population) : Prop where
  closed : population.start.isOpen = false →
    population.now ≤ opening ∧ population.cancelled = false
  since : population.start.isOpen = true → opening ≤ population.now
  runs : population.cancelled = false → population.now ≤ opening + span

/-- A user that hears nothing, among the signals that it waits for. Once it is cancelled, no time
passes until it has ended. -/
structure Unheard (opening span sent timeouts : Nat) (population : Population) (user : User) :
    Prop extends population.Signalled opening span where
  stops : population.cancelled = true → user.phase.isEnded = false →
    population.now = opening + span
  phase : user.phase.Unheard opening span population sent timeouts

theorem Unheard.cancels (unheard : Unheard opening span sent timeouts before user)
    (running : user.phase.isEnded = false) (cancelled : before.cancelled = true) :
    before.start.isOpen = true ∧ before.now = opening + span := by
  refine ⟨?_, unheard.stops cancelled running⟩
  cases isOpen : before.start.isOpen with
  | true => rfl
  | false =>
    have kept := (unheard.closed isOpen).2
    rw [cancelled] at kept
    cases kept

/-- When cancellation comes, the numbers are final. -/
theorem Unheard.counts (unheard : Unheard opening span sent timeouts before user)
    (clear : before.settings.Clear span) (cancelled : before.cancelled = true) :
    sent = span / before.settings.round + 1 ∧
      timeouts = (span + before.settings.pacing) / before.settings.round := by
  cases ended : user.phase.isEnded with
  | true =>
    obtain ⟨exit, phase⟩ := Phase.of_isEnded ended
    have law := unheard.phase
    rw [phase] at law
    exact law.2.2
  | false =>
    obtain ⟨isOpen, now⟩ := unheard.cancels ended cancelled
    exact unheard.phase.counts clear isOpen fun _ => now

theorem Unheard.congr (unheard : Unheard opening span sent timeouts before user)
    (signals : SameSignals before after) : Unheard opening span sent timeouts after user where
  closed isOpen := by
    rw [signals.now, signals.cancelled]
    exact unheard.closed (signals.start ▸ isOpen)
  since isOpen := by
    rw [signals.now]
    exact unheard.since (signals.start ▸ isOpen)
  runs kept := by
    rw [signals.now]
    exact unheard.runs (signals.cancelled ▸ kept)
  stops cancelled running := by
    rw [signals.now]
    exact unheard.stops (signals.cancelled ▸ cancelled) running
  phase := unheard.phase.congr signals

/-! ### Signals and time -/

theorem Unheard.openStart (unheard : Unheard opening span sent timeouts before user)
    (now : before.now = opening) (connected : ∀ due, user.phase ≠ .connecting due) :
    Unheard opening span sent timeouts before.openStart user where
  closed := nofun
  since _ := Nat.le_of_eq now.symm
  runs := unheard.runs
  stops := unheard.stops
  phase := by
    have law := unheard.phase
    cases phase : user.phase with
    | connecting due => exact absurd phase (connected due)
    | waitingForStart =>
      rw [phase] at law
      exact ⟨fun _ => now, law.2⟩
    | probing | sent _ | awaiting _ _ | unanswered | pacing _ =>
      rw [phase] at law
      exact ⟨rfl, law.2⟩
    | answered _ | lost _ | stopping _ | stopped _ | flushed _ | ended _ =>
      rw [phase] at law
      exact law

theorem Unheard.cancelAll (unheard : Unheard opening span sent timeouts before user)
    (positive : 0 < span) (now : before.now = opening + span) :
    Unheard opening span sent timeouts before.cancelAll user where
  closed isOpen := by
    have early := (unheard.closed isOpen).1
    omega
  since := unheard.since
  runs := nofun
  stops _ _ := now
  phase := by
    have law := unheard.phase
    cases phase : user.phase with
    | stopping _ | stopped _ | flushed _ | ended _ =>
      rw [phase] at law
      exact ⟨rfl, law.2⟩
    | _ =>
      rw [phase] at law
      exact law

theorem isEnded_of_stuck (found : before.users[index]? = some user)
    (equipped : user.Equipped) (cancelled : before.cancelled = true)
    (cancel : before.step? calendar (.cancel index) = none)
    (proceed : before.step? calendar (.proceed index) = none) :
    user.phase.isEnded = true := by
  refine (Bool.eq_false_or_eq_true _).resolve_right ?_
  intro running
  rcases exists_step_of_cancelled calendar cancelled found equipped running with
    ⟨next, possible⟩ | ⟨next, possible⟩
  · rw [cancel] at possible
    cases possible
  · rw [proceed] at possible
    cases possible

theorem Unheard.advance {time : Nat} (unheard : Unheard opening span sent timeouts before user)
    (found : before.users[index]? = some user) (equipped : user.Equipped)
    (ahead : before.now < time)
    (mayWait : Moment.MayWait calendar index opening span before time) :
    Unheard opening span sent timeouts { before with now := time } user where
  closed isOpen := ⟨mayWait.start isOpen, (unheard.closed isOpen).2⟩
  since isOpen := Nat.le_trans (unheard.since isOpen) (Nat.le_of_lt ahead)
  runs := mayWait.stop
  stops cancelled running := by
    rw [isEnded_of_stuck found equipped cancelled mayWait.cancel mayWait.proceed] at running
    cases running
  phase := by
    have law := unheard.phase
    -- Time does not move in the phases in which a user can go on at once.
    have stuck := proceedUser?_eq_none mayWait.proceed found
    cases phase : user.phase with
    | connecting due =>
      rw [phase] at law
      exact law
    | waitingForStart =>
      rw [phase] at law
      have closed : before.start.isOpen = false := by
        simpa [proceedUser?, phase] using stuck
      exact ⟨fun isOpen => absurd isOpen (closed ▸ Bool.false_ne_true), law.2⟩
    | awaiting sentAt deadline =>
      rw [phase] at law
      obtain ⟨isOpen, counted, since, _, isDeadline⟩ := law
      exact ⟨isOpen, counted, Nat.le_trans since (Nat.le_of_lt ahead),
        mayWait.timer user deadline found (by rw [phase]; rfl), isDeadline⟩
    | pacing until_ =>
      rw [phase] at law
      obtain ⟨isOpen, counted, count, counts, since, _, isEnd⟩ := law
      exact ⟨isOpen, counted, count, counts, Nat.le_trans since (Nat.le_of_lt ahead),
        mayWait.timer user until_ found (by rw [phase]; rfl), isEnd⟩
    | answered _ | lost _ =>
      rw [phase] at law
      exact law.elim
    | ended _ =>
      rw [phase] at law
      exact law
    | probing | sent _ | unanswered | stopping _ | stopped _ | flushed _ =>
      simp [proceedUser?, phase] at stuck

/-! ### One moment -/

/-- Nothing but the two signals and time itself changes what a user waits for. -/
theorem Happens.signals (happens : before.Happens calendar occurrence after) :
    SameSignals before after ∨ (occurrence = .opened ∧ after = before.openStart) ∨
      (occurrence = .cancelled ∧ after = before.cancelAll) ∨
      ∃ time, occurrence = .move (.advance time) ∧ before.now < time ∧
        after = { before with now := time } := by
  cases happens with
  | opened => exact .inr (.inl ⟨rfl, rfl⟩)
  | cancelled => exact .inr (.inr (.inl ⟨rfl, rfl⟩))
  | beginPhase | gather | peer => exact .inl ⟨rfl, rfl, rfl, rfl⟩
  | @move move _ possible =>
    cases about : move.user? with
    | some index =>
      obtain ⟨_, _, turn⟩ := turn_of_step? about possible
      exact .inl turn.signals
    | none =>
      cases move with
      | publish origin message =>
        cases possible
        exact .inl ⟨rfl, rfl, rfl, rfl⟩
      | advance time =>
        simp only [step?] at possible
        split at possible
        · rename_i ahead
          cases possible
          exact .inr (.inr (.inr ⟨time, rfl, ahead, rfl⟩))
        · cases possible
      | measure reading =>
        simp only [step?] at possible
        split at possible
        · cases possible
          exact .inl ⟨rfl, rfl, rfl, rfl⟩
        · cases possible
      | _ => cases about

/-- What is about a user that is not aborted is a step of its task, or leaves it where it is. -/
theorem Turn.task_or_same {move : Move} (turn : before.Turn move index user moved after)
    (seated : before.Seated) (possible : before.step? calendar move = some after)
    (kept : move ≠ .abort index) :
    TaskStep before after index user moved ∨ moved.phase = user.phase := by
  cases isTask : move.isTask with
  | true =>
    obtain ⟨other, was, next, same, step⟩ := task_of_step? seated.onHub isTask possible
    rw [turn.about] at same
    cases same
    cases turn.found.symm.trans step.found
    have there := turn.getElem? index
    rw [step.getElem?, if_pos rfl, if_pos rfl] at there
    cases there
    exact .inl step
  | false =>
    have shift := turn.shift
    have about := turn.about
    generalize user.phase = phase at shift
    generalize moved.phase = next at shift
    cases shift with
    | cancel | proceed | pump => cases isTask
    | abort =>
      cases about
      exact absurd rfl kept
    | line => exact .inr rfl

theorem Unheard.turn {move : Move} (unheard : Unheard opening span sent timeouts before user)
    (clear : before.settings.Clear span) (seated : before.Seated)
    (turn : before.Turn move index user moved after)
    (possible : before.step? calendar move = some after) (kept : move ≠ .abort index)
    (heedless : moved.phase.isAnswered = false) :
    Unheard opening span
      (sent + Phase.gain (UserEvent.counts .probe) before.stopwatch user.phase moved.phase)
      (timeouts + Phase.gain (UserEvent.counts .timeout) before.stopwatch user.phase moved.phase)
      after moved := by
  obtain ⟨_, effect, _⟩ := turn.effect
  apply Unheard.congr _ turn.signals
  -- What stays in its phase counts nothing, so only steps of the user's own task are left.
  by_cases same : moved.phase = user.phase
  · rw [same, Phase.gain_self, Phase.gain_self]
    exact { unheard.toSignalled with
      stops := same ▸ unheard.stops, phase := same ▸ unheard.phase }
  · have running := (effect.course.resolve_left same).not_isEnded
    have step := (turn.task_or_same seated possible kept).resolve_right same
    have attached : ∀ own, user.connection? = some own → before.hub.isAttached own = true :=
      fun own connected => (seated.attached_of_found turn.found own connected).1
    have phase := step.task.unheard clear (unheard.cancels running) seated.sound attached
      heedless unheard.phase before.stopwatch
    exact { unheard.toSignalled with
      stops := fun cancelled _ => unheard.stops cancelled running, phase }

/-- At every moment a user that hears nothing stays in time. -/
theorem Happens.unheard (happens : before.Happens calendar occurrence after)
    (seated : before.Seated) (clear : before.settings.Clear span) (equipped : user.Equipped)
    (lone : Moment.Lone calendar index opening span ⟨before, occurrence, after⟩)
    (found : before.users[index]? = some user) (there : after.users[index]? = some moved)
    (heedless : moved.phase.isAnswered = false)
    (unheard : Unheard opening span sent timeouts before user) :
    Unheard opening span
      (sent + Phase.gain (UserEvent.counts .probe) before.stopwatch user.phase moved.phase)
      (timeouts + Phase.gain (UserEvent.counts .timeout) before.stopwatch user.phase moved.phase)
      after moved := by
  have timely := lone.timely
  obtain ⟨_, isUser, ⟨move, rfl, turn⟩ | ⟨foreign, rfl⟩⟩ := happens.user there
  · cases found.symm.trans isUser
    cases happens with
    | move possible =>
      refine unheard.turn clear seated turn possible ?_ heedless
      rintro rfl
      exact timely rfl
  · cases found.symm.trans isUser
    rw [Phase.gain_self, Phase.gain_self]
    rcases happens.signals with same | ⟨rfl, rfl⟩ | ⟨rfl, rfl⟩ | ⟨time, rfl, ahead, rfl⟩
    · exact unheard.congr same
    · exact unheard.openStart timely.1 fun due => timely.2 _ due found
    · exact unheard.cancelAll clear.positive timely
    · exact unheard.advance found equipped ahead timely

/-! ### What is left on the hub -/

/-- Either a user still has a connection, or the hub has seen the end of it. -/
def Released (own : ConnectionId) (index : Nat) (population : Population) : Prop :=
  population.connectionAt index = some own ∨
    (own < population.hub.nextId ∧ population.hub.isAttached own = false)

theorem Happens.released {own : ConnectionId} (happens : before.Happens calendar occurrence after)
    (seated : before.Seated) (found : before.users[index]? = some user)
    (there : after.users[index]? = some moved) (released : Released own index before) :
    Released own index after := by
  have run := happens.hubRun seated.onHub
  rcases released with connected | ⟨old, gone⟩
  · rw [connectionAt_of_found found] at connected
    have old := seated.sound.lt_nextId (seated.attached_of_found found own connected).1
    have onward := Nat.lt_of_lt_of_le old (run.nextId_le seated.sound)
    by_cases kept : moved.connection? = some own
    · exact .inl ((connectionAt_of_found there).trans kept)
    · refine .inr ⟨onward, Bool.eq_false_iff.mpr fun attached => ?_⟩
      obtain ⟨_, _, _, step | rests⟩ | ⟨_, rfl⟩ := happens.view seated found there
      · have onHub := seated.onHub user (List.mem_of_getElem? found)
        rcases step.task.isAttached seated.sound onHub attached with mine | ⟨_, foreign⟩
        · exact kept mine
        · exact foreign connected
      · exact kept (rests.connection.trans connected)
      · exact kept connected
  · exact .inr ⟨Nat.lt_of_lt_of_le old (run.nextId_le seated.sound),
      run.isAttached_of_gone seated.sound old gone⟩

/-! ## Whole lives -/

/-- Users that have just begun, before a gate that opens at one time and a cancellation that comes
a span later. -/
structure Expects (opening span : Nat) (population : Population) : Prop where
  fresh : population.Fresh
  seated : population.Seated
  clear : population.settings.Clear span
  early : population.now ≤ opening
  closed : population.start.isOpen = false
  kept : population.cancelled = false

theorem Lives.released (lives : first.Lives calendar moments last) (seated : first.Seated)
    {moment : Moment} (member : moment ∈ moments) {own : ConnectionId}
    (connected : moment.before.connectionAt index = some own) : Released own index last := by
  induction lives with
  | start => cases member
  | @step earlier before after occurrence lives happens ih =>
    obtain ⟨user, found, _⟩ := Option.bind_eq_some_iff.mp connected
    have released : Released own index before := by
      rcases List.mem_append.mp member with old | new
      · exact ih old
      · rw [List.mem_singleton.mp new] at connected
        exact .inl connected
    have inside : index < before.users.length := by
      obtain ⟨past, onward, _⟩ := (lives.step happens).of_mem member
      rw [lives.length_users, ← onward.length_users]
      exact (List.getElem?_eq_some_iff.mp found).1
    have there := List.getElem?_eq_getElem (happens.length_users ▸ inside)
    exact happens.released (lives.seated seated) (List.getElem?_eq_getElem inside) there released

theorem Lives.isAttached_of_ended (lives : first.Lives calendar moments last)
    (seated : first.Seated) (found : last.users[index]? = some user) {exit : Option UserExit}
    (ended : user.phase = .ended exit) {moment : Moment} (member : moment ∈ moments)
    {own : ConnectionId} (connected : moment.before.connectionAt index = some own) :
    last.hub.isAttached own = false := by
  have released := lives.released seated member connected
  have onHub := (lives.seated seated).onHub user (List.mem_of_getElem? found)
  rw [Released, connectionAt_of_found found, onHub.connection?_eq_none (by rw [ended]; rfl)]
    at released
  exact (released.resolve_left nofun).2

/-- Who hears nobody records nothing, and has nothing to record. -/
theorem Lives.unsampled (lives : first.Lives calendar moments last) (fresh : first.Fresh)
    (seated : first.Seated) (lone : ∀ moment ∈ moments, moment.Lone calendar index opening span)
    (found : last.users[index]? = some user) :
    History.tallyOf UserEvent.isMeasured index (moments.filterMap Moment.event?) = 0 ∧
      last.unsampled index = 0 := by
  have nothing : (moments.map (Moment.hears calendar index)).sum = 0 := by
    refine List.sum_eq_zero ?_
    intro share member
    obtain ⟨moment, isMoment, rfl⟩ := List.mem_map.mp member
    exact (lone moment isMoment).hears
  have law := lives.sampled fresh seated found
  rw [nothing] at law
  omega

/-- A user that hears nothing, from its beginning on. -/
theorem Lives.unheard (lives : first.Lives calendar moments last)
    (expects : first.Expects opening span)
    (lone : ∀ moment ∈ moments, moment.Lone calendar index opening span)
    (found : last.users[index]? = some user) :
    Unheard opening span
      (History.tallyOf (UserEvent.counts .probe) index (moments.filterMap Moment.event?))
      (History.tallyOf (UserEvent.counts .timeout) index (moments.filterMap Moment.event?))
      last user := by
  induction lives generalizing user with
  | start =>
    obtain ⟨due, phase⟩ := expects.fresh.connecting user (List.mem_of_getElem? found)
    exact
      { closed := fun _ => ⟨expects.early, expects.kept⟩
        since := fun isOpen => absurd isOpen (expects.closed ▸ Bool.false_ne_true)
        runs := fun _ => Nat.le_trans expects.early (Nat.le_add_right _ _)
        stops := fun cancelled => absurd cancelled (expects.kept ▸ Bool.false_ne_true)
        phase := by
          rw [phase]
          exact ⟨expects.closed, rfl, rfl⟩ }
  | @step moments before after occurrence lives happens ih =>
    obtain ⟨was, there, _⟩ := happens.user found
    have earlier := fun moment member => lone moment (List.mem_append_left _ member)
    have now := lone _ (List.mem_append_right _ (List.mem_singleton_self _))
    have before := ih earlier there
    have equipped := lives.equipped expects.fresh.equipped was (List.mem_of_getElem? there)
    have heedless : user.phase.isAnswered = false := by
      have nothing := ((lives.step happens).unsampled expects.fresh expects.seated lone found).2
      rw [unsampled_of_found found] at nothing
      simpa using Nat.eq_zero_of_add_eq_zero_right nothing
    rw [filterMap_snoc, happens.tallyOf there found, happens.tallyOf there found]
    exact happens.unheard (lives.seated expects.seated) (lives.settings ▸ expects.clear) equipped
      now there found heedless before

/-- A user that connects has been connecting since its beginning, and time does not pass the answer
of its connector. -/
theorem Lives.connecting (lives : first.Lives calendar moments last)
    (lone : ∀ moment ∈ moments, moment.Lone calendar index opening span)
    (found : last.users[index]? = some user) {due : Option Nat}
    (connecting : user.phase = .connecting due) :
    (∃ was, first.users[index]? = some was ∧ was.phase = .connecting due) ∧
      ∀ time ∈ due, last.now ≤ max first.now time := by
  induction lives generalizing user with
  | start => exact ⟨⟨user, found, connecting⟩, fun time _ => Nat.le_max_left _ _⟩
  | @step moments before after occurrence lives happens ih =>
    obtain ⟨was, there, _⟩ := happens.user found
    have same : was.phase = .connecting due := by
      rcases happens.course there found with same | course
      · exact same.symm.trans connecting
      · exact absurd connecting (course.not_connecting due)
    obtain ⟨since, upTo⟩ :=
      ih (fun moment member => lone moment (List.mem_append_left _ member)) there same
    have timely := (lone _ (List.mem_append_right _ (List.mem_singleton_self _))).timely
    refine ⟨since, fun time isDue => ?_⟩
    rcases happens.signals with signals | ⟨_, rfl⟩ | ⟨_, rfl⟩ | ⟨now, rfl, _, rfl⟩
    · rw [signals.now]
      exact upTo time isDue
    · exact upTo time isDue
    · exact upTo time isDue
    · have waits : now ≤ time := timely.timer was time there (by rw [same]; exact isDue)
      exact Nat.le_trans waits (Nat.le_max_right _ _)

end Population

end ChatHub
