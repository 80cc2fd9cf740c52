import ChatHub.Proofs.Load.Timetable
/-!
Every step of an undisturbed load test keeps the timetable, whichever of the ready tasks takes it.
Main statements: `OnTrack.tick`, and `OnTrack.idle`, by which time only moves when all users wait
for the same moment.
-/

set_option autoImplicit false

namespace ChatHub

variable {calendar : Nat → String} {config : BenchConfig} {duration size : Nat}
  {history : List (Nat × UserEvent)} {run : LoadRun}

/-- A load test of so many users in step with its timetable. -/
structure OnTrack (config : BenchConfig) (duration size : Nat) (history : List (Nat × UserEvent))
    (run : LoadRun) : Prop where
  lasts : run.duration = duration
  grace : run.grace = config.grace
  settings : run.population.settings = config.probe
  size : run.population.users.length = size
  stage : run.stage.OnTime config duration run.population
  users : ∀ {index : Nat} {user : User}, run.population.users[index]? = some user →
    user.phase.OnTime config duration run.population
      (History.tallyOf (UserEvent.counts .probe) index history)
      (History.tallyOf UserEvent.isMeasured index history)
  wired : run.population.Wired
  relayed : Population.Relayed history run.population
  clean : ∀ {counted : Counted}, counted ≠ .probe →
    History.tally (UserEvent.counts counted) history = 0

namespace OnTrack

/-! ## Steps of tasks -/

theorem quiet (onTrack : OnTrack config duration size history run)
    (closed : run.population.start.isOpen = false) :
    Population.Quiet history run.population := by
  intro index user found
  have onTime := onTrack.users found
  have opened : run.population.cancelled = true → False := fun cancelled => by
    have isOpen := (onTrack.stage.of_cancelled cancelled).1
    rw [closed] at isOpen
    cases isOpen
  cases phase : user.phase with
  | connecting due =>
    rw [phase] at onTime
    rw [onTime.2.2.2.1]
    rfl
  | waitingForStart =>
    rw [phase] at onTime
    rw [onTime.2.1]
    rfl
  | unanswered | lost _ =>
    rw [phase] at onTime
    exact onTime.elim
  | stopping _ | stopped _ | flushed _ | ended _ =>
    rw [phase] at onTime
    exact (opened onTime.1).elim
  | _ =>
    rw [phase] at onTime
    exact absurd onTime.1 (closed ▸ Bool.false_ne_true)

theorem task {after : Population} {move : Move} (regular : config.Regular duration)
    (onTrack : OnTrack config duration size history run) (books : Books history run.population)
    (isTask : move.isTask = true) (possible : run.population.step? calendar move = some after) :
    OnTrack config duration size (history ++ (run.population.event? move after).toList)
      { run with population := after } := by
  obtain ⟨index, user, moved, about, step⟩ :=
    Population.task_of_step? onTrack.wired.onHub isTask possible
  have sound := onTrack.wired.sound
  have attached : ∀ own, user.connection? = some own → run.population.hub.isAttached own = true :=
    fun own connected => (onTrack.wired.attached_of_found step.found own connected).1
  have onTime := onTrack.users step.found
  refine
    { lasts := onTrack.lasts
      grace := onTrack.grace
      settings := step.signals.settings.trans onTrack.settings
      size := by rw [step.users, List.length_set, onTrack.size]
      stage := onTrack.stage.congr step.signals fun complete => ?_
      users := ?_
      wired := onTrack.wired.step step
      relayed := onTrack.relayed.step onTrack.wired step about fun none linked => ?_
      clean := ?_ }
  · rw [(books.idle complete possible).2.2]
    exact complete
  · intro other held there
    rw [step.getElem?] at there
    rw [step.tallyOf about, step.tallyOf about]
    by_cases same : other = index
    · subst same
      rw [if_pos rfl] at there
      cases there
      rw [if_pos rfl, if_pos rfl]
      exact (step.task.onTime regular onTrack.settings onTrack.stage.of_cancelled sound attached
        onTime _).congr step.signals
    · rw [if_neg same] at there ⊢
      rw [if_neg same]
      exact (onTrack.users there).congr step.signals
  · obtain ⟨due, connecting⟩ := step.task.connecting none linked
    rw [connecting] at onTime
    exact onTrack.quiet onTime.2.2.1
  · intro counted other
    rw [step.event? about, History.tally_append, onTrack.clean other, Nat.zero_add]
    exact step.task.clean sound attached onTime _ other

/-! ## Steps of the coordinator -/

/-- When the gate opens, every user waits for it. -/
theorem started (regular : config.Regular duration) {phase : Phase} {population : Population}
    {sent heard : Nat} (onTime : phase.OnTime config duration population sent heard)
    (closed : population.start.isOpen = false) (kept : population.cancelled = false)
    (now : population.now = config.warmup) :
    phase.OnTime config duration population.openStart sent heard := by
  have warmup := regular.warmup
  cases phase with
  | connecting due =>
    have early := onTime.2.1
    omega
  | waitingForStart => exact ⟨fun _ => now, onTime.2⟩
  | unanswered | lost _ => exact onTime
  | stopping _ | stopped _ | flushed _ | ended _ =>
    exact absurd onTime.1 (kept ▸ Bool.false_ne_true)
  | _ => exact absurd onTime.1 (closed ▸ Bool.false_ne_true)

theorem stopped {phase : Phase} {population : Population} {sent heard : Nat}
    (onTime : phase.OnTime config duration population sent heard) :
    phase.OnTime config duration population.cancelAll sent heard := by
  cases phase with
  | stopping _ | stopped _ | flushed _ | ended _ => exact ⟨rfl, onTime.2⟩
  | _ => exact onTime

/-- Nothing of a run but its stage and the signals to its users. -/
theorem transfer {stage : Stage} {population : Population}
    (onTrack : OnTrack config duration size history run)
    (users : population.users = run.population.users) (hub : population.hub = run.population.hub)
    (settings : population.settings = run.population.settings)
    (onTime : stage.OnTime config duration population)
    (each : ∀ user ∈ run.population.users, ∀ {sent heard : Nat},
      user.phase.OnTime config duration run.population sent heard →
        user.phase.OnTime config duration population sent heard) :
    OnTrack config duration size history { run with stage, population } where
  lasts := onTrack.lasts
  grace := onTrack.grace
  settings := settings.trans onTrack.settings
  size := users ▸ onTrack.size
  stage := onTime
  users found := by
    rw [users] at found
    exact each _ (List.mem_of_getElem? found) (onTrack.users found)
  wired := onTrack.wired.congr users hub
  relayed := onTrack.relayed.congr users hub
  clean := onTrack.clean

theorem coordinate {stage : Stage} {population : Population} (regular : config.Regular duration)
    (onTrack : OnTrack config duration size history run) (books : Books history run.population)
    (led : run.Led run.stage stage population) :
    OnTrack config duration size history { run with stage, population } := by
  have onTime := onTrack.stage
  generalize run.stage = before at led onTime
  have same : ∀ {recorder : LatencyRecorder}, ∀ user ∈ run.population.users, ∀ {sent heard : Nat},
      user.phase.OnTime config duration run.population sent heard →
        user.phase.OnTime config duration { run.population with recorder } sent heard :=
    fun _ _ => (·.congr ⟨rfl, rfl, rfl, rfl⟩)
  cases led with
  | start due =>
    obtain ⟨rfl, closed, kept, early⟩ := onTime
    have now := Nat.le_antisymm early due
    refine onTrack.transfer rfl rfl rfl ?_ fun _ _ _ _ onTime =>
      started regular onTime closed kept now
    refine ⟨?_, rfl, kept, Nat.le_trans early (Nat.le_add_right _ _)⟩
    rw [now, onTrack.lasts]
    rfl
  | stop due =>
    obtain ⟨rfl, isOpen, _, early⟩ := onTime
    have now := Nat.le_antisymm early due
    refine onTrack.transfer rfl rfl rfl ?_ fun _ _ _ _ => stopped
    exact ⟨by rw [now, onTrack.grace], isOpen, rfl, now⟩
  | complete complete =>
    obtain ⟨_, isOpen, cancelled, now⟩ := onTime
    exact onTrack.transfer rfl rfl rfl ⟨rfl, complete, isOpen, cancelled, now⟩ fun _ _ _ _ => id
  | expire due =>
    obtain ⟨rfl, _, _, now⟩ := onTime
    have grace := regular.grace
    omega
  | lookAround => exact onTime.elim
  | beginPhase stragglers => exact onTrack.transfer rfl rfl rfl onTime same
  | gather stragglers => exact onTrack.transfer rfl rfl rfl onTime same
  | readTimeouts stragglers latency =>
    exact onTrack.transfer rfl rfl rfl onTime fun _ _ _ _ => id
  | report stragglers latency timeouts =>
    have connectFailures := books.counters .connectFailure
    have linkFailures := books.counters .linkFailure
    rw [onTrack.clean (by decide)] at connectFailures linkFailures
    exact onTrack.transfer rfl rfl rfl
      ⟨⟨onTime.1, connectFailures, linkFailures⟩, onTime.2⟩ fun _ _ _ _ => id

end OnTrack

/-! ## Waiting -/

/-- A pump that cannot go on has nothing left. -/
theorem Population.backlog_eq_nil {population : Population} {index : Nat} {user : User}
    (stuck : population.step? calendar (.pump index) = none)
    (found : population.users[index]? = some user) : user.backlog = [] := by
  rw [step?, found] at stuck
  cases connected : user.connection? with
  | none => exact User.backlog_eq_nil connected
  | some own =>
    obtain ⟨outbox, linked⟩ := User.link_of_connection? connected
    cases popped : outbox.pop? with
    | none =>
      simpa [User.backlog, linked, Link.backlog] using (Fifo.pop?_eq_none_iff outbox).mp popped
    | some next => simp [linked, Link.pumpOnce?, popped] at stuck

namespace LoadRun.Idle

variable {index : Nat} {user : User}

theorem step? (idle : Idle calendar run) (move : Move) (isTask : move.isTask = true) :
    run.population.step? calendar move = none :=
  Option.map_eq_none_iff.mp (idle (.other move) isTask)

theorem proceed (idle : Idle calendar run) (found : run.population.users[index]? = some user) :
    run.population.proceedUser? user = none :=
  Population.proceedUser?_eq_none (idle.step? (.proceed index) rfl) found

theorem cancel (idle : Idle calendar run) (found : run.population.users[index]? = some user) :
    run.population.cancelUser? user = none := by
  have stuck := idle.step? (.cancel index) rfl
  rw [Population.step?, found] at stuck
  cases cancels : run.population.cancelUser? user with
  | none => rfl
  | some next => simp [cancels] at stuck

theorem backlog (idle : Idle calendar run) (found : run.population.users[index]? = some user) :
    user.backlog = [] :=
  Population.backlog_eq_nil (idle.step? (.pump index) rfl) found

theorem queued (idle : Idle calendar run) (found : run.population.users[index]? = some user)
    {sentAt deadline : Nat} (awaiting : user.phase = .awaiting sentAt deadline)
    {own : ConnectionId} (connected : user.connection? = some own) :
    run.population.hub.queued own = [] := by
  have stuck := idle.proceed found
  obtain ⟨outbox, linked⟩ := User.link_of_connection? connected
  rcases run.population.hub.poll_cases own with ⟨message, _, _, _, _, _, polled⟩ | ⟨empty, _⟩
  · simp [Population.proceedUser?, awaiting, Population.listen?, linked, Link.poll, polled] at stuck
  · exact empty

end LoadRun.Idle

namespace OnTrack

theorem waits {index : Nat} {user : User} (onTrack : OnTrack config duration size history run)
    (books : Books history run.population) (idle : run.Idle calendar)
    (found : run.population.users[index]? = some user) :
    (user.phase = .waitingForStart ∧ run.population.start.isOpen = false) ∨
      (∃ sentAt deadline, user.phase = .awaiting sentAt deadline ∧
        run.population.cancelled = false) ∨
      (∃ until_, user.phase = .pacing until_ ∧ run.population.now < until_ ∧
        run.population.cancelled = false) ∨
      user.phase.isEnded = true := by
  have onTime := onTrack.users found
  have stuck := idle.proceed found
  have kept := idle.cancel found
  cases phase : user.phase with
  | connecting due =>
    rw [phase] at onTime
    simp [Population.proceedUser?, phase, onTime.1] at stuck
  | waitingForStart =>
    exact .inl ⟨rfl, by simpa [Population.proceedUser?, phase] using stuck⟩
  | awaiting sentAt deadline =>
    have running : run.population.cancelled = false := by
      simpa [Population.cancelUser?, phase] using kept
    exact .inr (.inl ⟨sentAt, deadline, rfl, running⟩)
  | answered sentAt =>
    have equipped := (books.equipped user (List.mem_of_getElem? found)).handle
    rw [phase] at equipped
    obtain ⟨handle, held⟩ := Option.isSome_iff_exists.mp equipped
    simp [Population.proceedUser?, phase, held] at stuck
  | pacing until_ =>
    have running : run.population.cancelled = false := by
      simpa [Population.cancelUser?, phase] using kept
    have ahead : run.population.now < until_ := by
      simpa [Population.proceedUser?, phase] using stuck
    exact .inr (.inr (.inl ⟨until_, rfl, ahead, running⟩))
  | lost state =>
    rw [phase] at onTime
    exact onTime.elim
  | ended exit => exact .inr (.inr (.inr rfl))
  | _ => simp [Population.proceedUser?, phase] at stuck

/-- Of two users that wait after the start, none awaits an answer: what the other has sent in the
round has reached it. -/
theorem not_awaiting {first second : Nat} {user other : User} {sentAt deadline : Nat}
    (regular : config.Regular duration) (onTrack : OnTrack config duration size history run)
    (books : Books history run.population) (idle : run.Idle calendar)
    (found : run.population.users[first]? = some user)
    (awaiting : user.phase = .awaiting sentAt deadline)
    (different : first ≠ second) (there : run.population.users[second]? = some other) : False := by
  have onHub := onTrack.wired.onHub user (List.mem_of_getElem? found)
  have onHubToo := onTrack.wired.onHub other (List.mem_of_getElem? there)
  have onTime := onTrack.users found
  have otherOnTime := onTrack.users there
  rw [awaiting] at onTime
  obtain ⟨isOpen, now, sent, _⟩ := onTime
  obtain ⟨own, connected⟩ : ∃ own, user.connection? = some own :=
    Option.isSome_iff_exists.mp (onHub.connected.trans (by rw [awaiting]; rfl))
  have relayed : other.connection?.isSome = true → _ :=
    onTrack.relayed different found connected there
  rw [idle.queued found awaiting connected, idle.backlog there, awaiting] at relayed
  simp only [List.length_nil, Phase.isAnswered, Bool.toNat_false, Nat.zero_add,
    Nat.add_zero] at relayed
  rcases onTrack.waits books idle there with
    ⟨_, closed⟩ | ⟨_, _, otherAwaits, _⟩ | ⟨until_, paces, ahead, _⟩ | ended
  · rw [isOpen] at closed
    cases closed
  · have linked : other.connection?.isSome = true :=
      onHubToo.connected.trans (by rw [otherAwaits]; rfl)
    rw [otherAwaits] at otherOnTime
    have sameRound := regular.roundAt_inj (now.symm.trans otherOnTime.2.1)
    have behind := relayed linked
    have sentToo := otherOnTime.2.2.1
    omega
  · have linked : other.connection?.isSome = true :=
      onHubToo.connected.trans (by rw [paces]; rfl)
    rw [paces] at otherOnTime
    have behind := relayed linked
    rw [now, otherOnTime.2.2.1, regular.roundAt_lt] at ahead
    omega
  · have kept : run.population.cancelled = false := by
      simpa [Population.cancelUser?, awaiting] using idle.cancel found
    obtain ⟨exit, phase⟩ := Phase.of_isEnded ended
    rw [phase] at otherOnTime
    exact absurd otherOnTime.1 (kept ▸ Bool.false_ne_true)

theorem waitingForStart {index : Nat} {user : User}
    (onTrack : OnTrack config duration size history run) (books : Books history run.population)
    (idle : run.Idle calendar) (closed : run.population.start.isOpen = false)
    (kept : run.population.cancelled = false)
    (found : run.population.users[index]? = some user) : user.phase = .waitingForStart := by
  have onTime := onTrack.users found
  rcases onTrack.waits books idle found with
    ⟨waits, _⟩ | ⟨_, _, awaits, _⟩ | ⟨_, paces, _, _⟩ | ended
  · exact waits
  · rw [awaits] at onTime
    exact absurd onTime.1 (closed ▸ Bool.false_ne_true)
  · rw [paces] at onTime
    exact absurd onTime.1 (closed ▸ Bool.false_ne_true)
  · obtain ⟨exit, phase⟩ := Phase.of_isEnded ended
    rw [phase] at onTime
    exact absurd onTime.1 (kept ▸ Bool.false_ne_true)

theorem pacing {index : Nat} {user : User} (regular : config.Regular duration)
    (onTrack : OnTrack config duration size history run) (books : Books history run.population)
    (several : 2 ≤ size) (idle : run.Idle calendar)
    (isOpen : run.population.start.isOpen = true) (kept : run.population.cancelled = false)
    (found : run.population.users[index]? = some user) :
    ∃ until_, user.phase = .pacing until_ ∧ run.population.now < until_ := by
  rcases onTrack.waits books idle found with
    ⟨_, closed⟩ | ⟨_, _, awaits, _⟩ | ⟨until_, paces, ahead, _⟩ | ended
  · exact absurd isOpen (closed ▸ Bool.false_ne_true)
  · obtain ⟨second, different, inside⟩ :
        ∃ second, index ≠ second ∧ second < run.population.users.length := by
      rw [onTrack.size]
      by_cases first : index = 0
      · exact ⟨1, by omega, by omega⟩
      · exact ⟨0, first, by omega⟩
    exact (onTrack.not_awaiting regular books idle found awaits different
      (List.getElem?_eq_getElem inside)).elim
  · exact ⟨until_, paces, ahead⟩
  · obtain ⟨exit, phase⟩ := Phase.of_isEnded ended
    have onTime := onTrack.users found
    rw [phase] at onTime
    exact absurd onTime.1 (kept ▸ Bool.false_ne_true)

theorem ended {index : Nat} {user : User} (onTrack : OnTrack config duration size history run)
    (books : Books history run.population) (idle : run.Idle calendar)
    (cancelled : run.population.cancelled = true)
    (found : run.population.users[index]? = some user) : user.phase.isEnded = true := by
  rcases onTrack.waits books idle found with
    ⟨_, closed⟩ | ⟨_, _, _, kept⟩ | ⟨_, _, _, kept⟩ | ended
  · exact absurd (onTrack.stage.of_cancelled cancelled).1 (closed ▸ Bool.false_ne_true)
  · exact absurd cancelled (kept ▸ Bool.false_ne_true)
  · exact absurd cancelled (kept ▸ Bool.false_ne_true)
  · exact ended

/-- Time only has to move while all users wait for the start, or all for their next round; after
that the run is over. -/
theorem idle (regular : config.Regular duration)
    (onTrack : OnTrack config duration size history run) (books : Books history run.population)
    (several : 2 ≤ size) (idle : run.Idle calendar) :
    (run.stage = .warming config.warmup ∧ run.population.now < config.warmup ∧
        ∀ user ∈ run.population.users, user.phase = .waitingForStart) ∨
      (run.stage = .measuring (config.closeAt duration) ∧
        run.population.now < config.closeAt duration ∧
        ∀ user ∈ run.population.users,
          ∃ until_, user.phase = .pacing until_ ∧ run.population.now < until_) ∨
      (∃ report, run.stage = .finished report ∧
        ∀ user ∈ run.population.users, user.phase.isEnded = true) := by
  have onTime := onTrack.stage
  have stuck : run.coordinate? = none := idle .coordinator rfl
  cases stage : run.stage with
  | warming time =>
    rw [stage] at onTime
    obtain ⟨rfl, closed, kept, _⟩ := onTime
    have early : run.population.now < config.warmup := by
      simpa [LoadRun.coordinate?, stage] using stuck
    refine .inl ⟨rfl, early, ?_⟩
    intro user member
    obtain ⟨index, found⟩ := List.mem_iff_getElem?.mp member
    exact onTrack.waitingForStart books idle closed kept found
  | measuring time =>
    rw [stage] at onTime
    obtain ⟨rfl, isOpen, kept, _⟩ := onTime
    have early : run.population.now < config.closeAt duration := by
      simpa [LoadRun.coordinate?, stage] using stuck
    refine .inr (.inl ⟨rfl, early, ?_⟩)
    intro user member
    obtain ⟨index, found⟩ := List.mem_iff_getElem?.mp member
    exact onTrack.pacing regular books several idle isOpen kept found
  | closing deadline =>
    rw [stage] at onTime
    obtain ⟨_, _, cancelled, _⟩ := onTime
    -- all users are done, so the coordinator could go on
    have everyone : run.population.running = 0 := by
      refine List.countP_eq_zero.mpr ?_
      intro user member
      obtain ⟨index, found⟩ := List.mem_iff_getElem?.mp member
      simp [onTrack.ended books idle cancelled found]
    simp [LoadRun.coordinate?, stage, CompletionGate.isComplete, books.running, everyone] at stuck
  | overdue =>
    rw [stage] at onTime
    exact onTime.elim
  | finished report =>
    rw [stage] at onTime
    exact .inr (.inr ⟨report, rfl, books.isEnded_of_complete onTime.2.1⟩)
  | _ => simp [LoadRun.coordinate?, stage] at stuck

end OnTrack

/-! ## The next timer -/

theorem LoadRun.nextTimer?_spec {time : Nat} (timer : run.nextTimer? = some time) :
    (run.stage.timer = some time ∨ ∃ user ∈ run.population.users, user.phase.timer = some time) ∧
      (∀ other, run.stage.timer = some other → time ≤ other) ∧
      ∀ user ∈ run.population.users, ∀ other, user.phase.timer = some other → time ≤ other := by
  rw [nextTimer?, List.min?_eq_some_iff] at timer
  obtain ⟨member, least⟩ := timer
  have whose : ∀ {other : Nat}, run.population.nextTimer? = some other →
      ∃ user ∈ run.population.users, user.phase.timer = some other := by
    intro other next
    rw [Population.nextTimer?, List.min?_eq_some_iff] at next
    exact List.mem_filterMap.mp next.1
  refine ⟨?_, fun other isTimer => least other (by simp [isTimer]), ?_⟩
  · simp only [List.mem_append, Option.mem_toList] at member
    exact member.imp id whose
  · intro user isUser other isTimer
    have listed : other ∈ run.population.users.filterMap (·.phase.timer) :=
      List.mem_filterMap.mpr ⟨user, isUser, isTimer⟩
    cases next : run.population.nextTimer? with
    | none =>
      rw [Population.nextTimer?, List.min?_eq_none_iff] at next
      rw [next] at listed
      cases listed
    | some first =>
      have isFirst := next
      rw [Population.nextTimer?, List.min?_eq_some_iff] at isFirst
      exact Nat.le_trans (least first (by simp [next])) (isFirst.2 other listed)

theorem LoadRun.nextTimer?_isSome (waits : run.stage.timer.isSome = true) :
    ∃ time, run.nextTimer? = some time := by
  obtain ⟨time, timer⟩ := Option.isSome_iff_exists.mp waits
  rw [← Option.isSome_iff_exists, nextTimer?, List.isSome_min?_iff]
  simp [timer]

/-! ## Steps on the clock -/

namespace OnTrack

theorem advance {time : Nat} (regular : config.Regular duration)
    (onTrack : OnTrack config duration size history run) (books : Books history run.population)
    (several : 2 ≤ size) (idle : run.Idle calendar) (timer : run.nextTimer? = some time) :
    (run.population.now < time ∧ time ≤ config.closeAt duration) ∧
      OnTrack config duration size history (run.moveTo time) := by
  obtain ⟨whose, stageLater, usersLater⟩ := LoadRun.nextTimer?_spec timer
  have onTime := onTrack.stage
  rcases onTrack.idle regular books several idle with
    ⟨stage, early, waiting⟩ | ⟨stage, early, pacing⟩ | ⟨report, stage, ended⟩
  · rw [stage] at onTime stageLater whose
    have start : config.warmup = time := by
      rcases whose with first | ⟨user, member, first⟩
      · exact Option.some.inj first
      · rw [waiting user member] at first
        cases first
    subst start
    obtain ⟨_, closed, kept, _⟩ := onTime
    refine ⟨⟨early, Nat.le_add_right _ _⟩, onTrack.transfer rfl rfl rfl ?_ ?_⟩
    · rw [stage]
      exact ⟨rfl, closed, kept, Nat.max_le.mpr ⟨Nat.le_of_lt early, Nat.le_refl _⟩⟩
    · intro user member sent heard userOnTime
      rw [waiting user member] at userOnTime ⊢
      exact ⟨fun opened => absurd opened (closed ▸ Bool.false_ne_true), userOnTime.2⟩
  · rw [stage] at onTime stageLater whose
    have within := stageLater _ rfl
    have ahead : run.population.now < time := by
      rcases whose with last | ⟨user, member, next⟩
      · exact Option.some.inj last ▸ early
      · obtain ⟨until_, paces, ahead⟩ := pacing user member
        rw [paces] at next
        exact Option.some.inj next ▸ ahead
    obtain ⟨_, isOpen, kept, _⟩ := onTime
    refine ⟨⟨ahead, within⟩, onTrack.transfer rfl rfl rfl ?_ ?_⟩
    · rw [stage]
      exact ⟨rfl, isOpen, kept, Nat.max_le.mpr ⟨Nat.le_of_lt early, within⟩⟩
    · intro user member sent heard userOnTime
      obtain ⟨until_, paces, _⟩ := pacing user member
      have next := usersLater user member until_ (by rw [paces]; rfl)
      rw [paces] at userOnTime ⊢
      obtain ⟨_, equal, isRound, ⟨round, count, last⟩, upTo⟩ := userOnTime
      exact ⟨isOpen, equal, isRound, ⟨round, count, Nat.le_trans last (Nat.le_max_left _ _)⟩,
        Nat.max_le.mpr ⟨upTo, next⟩⟩
  · rw [stage] at whose
    rcases whose with none | ⟨user, member, some⟩
    · cases none
    · obtain ⟨exit, phase⟩ := Phase.of_isEnded (ended user member)
      rw [phase] at some
      cases some

theorem measured (onTrack : OnTrack config duration size history run) (reading : Nat) :
    OnTrack config duration size history (run.measured reading) :=
  onTrack.transfer rfl rfl rfl (onTrack.stage.congr ⟨rfl, rfl, rfl, rfl⟩ id)
    fun _ _ _ _ => (·.congr ⟨rfl, rfl, rfl, rfl⟩)

theorem tick {new : List (Nat × UserEvent)} {next : LoadRun} (regular : config.Regular duration)
    (onTrack : OnTrack config duration size history run) (books : Books history run.population)
    (several : 2 ≤ size) (tick : run.Tick calendar new next) :
    OnTrack config duration size (history ++ new) next := by
  cases tick with
  | @task reading move _ isTask possible =>
    have onTrack := onTrack.measured reading
    have books : Books history (run.measured reading).population :=
      books.transfer rfl rfl rfl rfl
    cases move with
    | coordinator =>
      obtain ⟨stage, population, led, rfl⟩ := LoadRun.coordinate?_led possible
      rw [LoadRun.event?, Option.toList_none, List.append_nil]
      exact onTrack.coordinate regular books led
    | other move =>
      obtain ⟨after, moved, rfl⟩ := Option.map_eq_some_iff.mp possible
      exact onTrack.task regular books isTask moved
  | time idle timer =>
    rw [List.append_nil]
    exact (onTrack.advance regular books several idle timer).2

end OnTrack

end ChatHub
