import ChatHub.Proofs.Load.Lockstep
import Mathlib.Algebra.BigOperators.Group.Finset.Basic
/-!
The exact result of a load test on a hub that it has for itself. Main statement: `exact_report`;
whichever of the ready tasks runs first, every user completes every round.
-/

set_option autoImplicit false

namespace ChatHub

variable {calendar : Nat → String} {config : BenchConfig} {duration size : Nat}
  {history : List (Nat × UserEvent)} {run : LoadRun}

private theorem History.tally_eq_mul {test : UserEvent → Bool} {each : Nat}
    (known : ∀ entry ∈ history, entry.1 < size)
    (same : ∀ index < size, History.tallyOf test index history = each) :
    History.tally test history = size * each := by
  have inside : ∀ index ∈ (History.usersWith test history : Multiset Nat),
      index ∈ Finset.range size := by
    intro index member
    obtain ⟨entry, isEntry, rfl⟩ := List.mem_map.mp member
    exact Finset.mem_range.mpr (known entry (List.mem_filter.mp isEntry).1)
  calc History.tally test history
      = (History.usersWith test history : Multiset Nat).card :=
        (History.length_usersWith test history).symm
    _ = ∑ index ∈ Finset.range size, (History.usersWith test history : Multiset Nat).count index :=
        (Multiset.sum_count_eq_card inside).symm
    _ = (Finset.range size).card * each := by
        refine Finset.sum_const_nat fun index isInside => ?_
        rw [Multiset.coe_count, History.count_usersWith]
        exact same index (Finset.mem_range.mp isInside)
    _ = size * each := by rw [Finset.card_range]

private theorem Hub.peerCount_eq_zero {hub : Hub} :
    hub.peerCount = 0 ↔ ∀ id, hub.isAttached id = false := by
  obtain ⟨nextId, ⟨entries, distinct⟩, mailboxes, failures⟩ := hub
  cases entries with
  | nil => simp [peerCount, Registry.size, isAttached, Registry.contains]
  | cons entry rest =>
    simp only [peerCount, Registry.size, List.length_cons, Nat.add_one_ne_zero, false_iff]
    intro nobody
    have absent := nobody entry.1
    simp [isAttached, Registry.contains] at absent

namespace LoadRun

/-- The beginning of a run of users that all attach. -/
def undisturbed (config : BenchConfig) (duration size : Nat) (hub : Hub) : LoadRun where
  duration := duration
  grace := config.grace
  population :=
    { settings := config.probe
      hub
      users := usersOf (List.replicate size {})
      completion := { remaining := size } }
  stage := .warming config.warmup

theorem start_undisturbed (config : BenchConfig) (size : Nat) (hub : Hub) (someone : 0 < size)
    (time : 0 < duration) :
    LoadRun.start config duration hub (List.replicate size {}) =
      .ok (undisturbed config duration size hub) := by
  rw [start_eq_ok (by simpa using Nat.ne_of_gt someone) time, undisturbed, List.length_replicate]

end LoadRun

namespace OnTrack

theorem start {hub : Hub} (sound : hub.Sound) (alone : hub.peerCount = 0) :
    OnTrack config duration size [] (LoadRun.undisturbed config duration size hub) := by
  have users : ∀ {user : User},
      user ∈ (LoadRun.undisturbed config duration size hub).population.users →
        user.connector = .attach ∧ user.link = none ∧ user.phase = .connecting (some 0) := by
    intro user member
    obtain ⟨index, inside, rfl⟩ := List.mem_mapIdx.mp member
    simp
  have nobody : ∀ {index : Nat} {id : ConnectionId},
      (LoadRun.undisturbed config duration size hub).population.connectionAt index ≠ some id := by
    intro index id connected
    obtain ⟨user, found, connected⟩ := Option.bind_eq_some_iff.mp connected
    rw [User.connection?, (users (List.mem_of_getElem? found)).2.1] at connected
    cases connected
  exact
    { lasts := rfl
      grace := rfl
      settings := rfl
      size := by simp [LoadRun.undisturbed, LoadRun.usersOf]
      stage := ⟨rfl, rfl, rfl, Nat.zero_le _⟩
      users := fun found => by
        rw [(users (List.mem_of_getElem? found)).2.2]
        exact ⟨rfl, rfl, rfl, rfl, rfl⟩
      wired :=
        { sound
          onHub := fun user member => by
            obtain ⟨connector, link, phase⟩ := users member
            exact ⟨connector, by rw [phase, User.connection?, link]; rfl⟩
          own := fun connected => absurd connected nobody
          attached := fun connected => absurd connected nobody
          everyone := fun {id} attached => by
            have absent : hub.isAttached id = false := Hub.peerCount_eq_zero.mp alone id
            exact absurd attached (absent ▸ Bool.false_ne_true) }
      relayed := fun listening _ listener _ own _ isListener connected => by
        rw [← Population.connectionAt_of_found isListener] at connected
        exact absurd connected nobody
      clean := fun _ => rfl }

/-- Once a run is over, every user has completed every round, and nobody is attached. -/
theorem finished {report : Report} (onTrack : OnTrack config duration size history run)
    (books : Books history run.population) (stage : run.stage = .finished report) :
    (∀ index < size,
      History.tallyOf (UserEvent.counts .probe) index history = config.rounds duration ∧
        History.tallyOf UserEvent.isMeasured index history = config.rounds duration) ∧
      run.population.hub.peerCount = 0 := by
  have onTime := onTrack.stage
  rw [stage] at onTime
  have ended := books.isEnded_of_complete onTime.2.1
  refine ⟨fun index inside => ?_, Hub.peerCount_eq_zero.mpr fun id => ?_⟩
  · rw [← onTrack.size] at inside
    have found := List.getElem?_eq_getElem inside
    have userOnTime := onTrack.users found
    obtain ⟨exit, phase⟩ := Phase.of_isEnded (ended _ (List.mem_of_getElem? found))
    rw [phase] at userOnTime
    exact userOnTime.2.2
  · refine Bool.eq_false_iff.mpr fun attached => ?_
    obtain ⟨index, connected⟩ := onTrack.wired.everyone attached
    obtain ⟨user, found, connected⟩ := Option.bind_eq_some_iff.mp connected
    have member := List.mem_of_getElem? found
    obtain ⟨exit, phase⟩ := Phase.of_isEnded (ended user member)
    rw [(onTrack.wired.onHub user member).connection?_eq_none (by rw [phase]; rfl)] at connected
    cases connected

end OnTrack

/-! ## Whole runs -/

namespace LoadRun

section Undisturbed

variable {hub : Hub}

theorem OnClock.onTrack (regular : config.Regular duration) (several : 2 ≤ size)
    (sound : hub.Sound) (alone : hub.peerCount = 0)
    (onClock : OnClock calendar (undisturbed config duration size hub) history run) :
    OnTrack config duration size history run := by
  induction onClock with
  | start => exact OnTrack.start sound alone
  | tick reached tick ih =>
    have started := start_undisturbed config size hub (by omega) regular.lasts
    exact ih.tick regular (reached.reached.books started).1 several tick

private theorem exists_timer (regular : config.Regular duration) (several : 2 ≤ size)
    (onTrack : OnTrack config duration size history run) (books : Books history run.population)
    (idle : Idle calendar run) (unreported : run.stage.report? = none) :
    ∃ time, run.nextTimer? = some time ∧ time ≤ config.closeAt duration := by
  have waits : run.stage.timer.isSome = true := by
    rcases onTrack.idle regular books several idle with
      ⟨stage, _⟩ | ⟨stage, _⟩ | ⟨report, stage, _⟩
    · rw [stage]
      rfl
    · rw [stage]
      rfl
    · rw [stage] at unreported
      cases unreported
  obtain ⟨time, timer⟩ := nextTimer?_isSome waits
  exact ⟨time, timer, (onTrack.advance regular books several idle timer).1.2⟩

private theorem exists_tick (regular : config.Regular duration) (several : 2 ≤ size)
    (onTrack : OnTrack config duration size history run) (books : Books history run.population)
    (unreported : run.stage.report? = none) :
    ∃ new next, Tick calendar run new next := by
  by_cases idle : Idle calendar run
  · obtain ⟨time, timer, _⟩ := exists_timer regular several onTrack books idle unreported
    exact ⟨_, _, .time idle timer⟩
  · simp only [Idle, not_forall] at idle
    obtain ⟨move, isTask, possible⟩ := idle
    obtain ⟨next, possible⟩ := Option.ne_none_iff_exists'.mp possible
    exact ⟨_, _, .task 0 isTask (by rw [measured_zero]; exact possible)⟩

theorem bounded (regular : config.Regular duration) (several : 2 ≤ size)
    (onTrack : OnTrack config duration size history run) (books : Books history run.population) :
    run.Bounded calendar (config.closeAt duration) where
  paced := onTrack.settings ▸ regular.pacing
  timer idle timer := (onTrack.advance regular books several idle timer).1

/-- A run that cannot go on for ever and never gets stuck comes to a report. -/
theorem exists_report {first : LoadRun}
    (acc : Acc (fun next run => ∃ new, Tick calendar run new next) first)
    (progress : ∀ history run, OnClock calendar first history run → run.stage.report? = none →
      ∃ new next, Tick calendar run new next) :
    ∃ history last report, OnClock calendar first history last ∧
      last.stage.report? = some report := by
  have onward : ∀ run, (∃ history, OnClock calendar first history run) →
      ¬ run.stage.report?.isSome = true →
      ∃ next, (∃ new, Tick calendar run new next) ∧
        ∃ history, OnClock calendar first history next := by
    intro run ⟨history, onClock⟩ unreported
    obtain ⟨new, next, tick⟩ := progress history run onClock (by simpa using unreported)
    exact ⟨next, ⟨new, tick⟩, _, onClock.tick tick⟩
  obtain ⟨last, ⟨history, onClock⟩, reported⟩ := exists_over _ _ acc ⟨[], .start⟩ onward
  obtain ⟨report, reported⟩ := Option.isSome_iff_exists.mp reported
  exact ⟨history, last, report, onClock, reported⟩

/-- The schedule that is computed is one of those on the clock, up to its report. -/
theorem onClock_runUntil {moment : Nat} {last : LoadRun} (regular : config.Regular duration)
    (several : 2 ≤ size) (sound : hub.Sound) (alone : hub.peerCount = 0)
    (late : config.closeAt duration ≤ moment)
    (result : (undisturbed config duration size hub).runUntil calendar moment = some last) :
    ∃ history report, OnClock calendar (undisturbed config duration size hub) history last ∧
      last.stage.report? = some report := by
  have started := start_undisturbed config size hub (by omega) regular.lasts
  -- No timer lies beyond the moment, so time only moves to the next one.
  have beyond : ∀ settled,
      (∃ history, OnClock calendar (undisturbed config duration size hub) history settled) →
      Idle calendar settled → settled.stage.report? = none →
      ¬ ∀ time, settled.nextTimer? = some time → moment < time := by
    rintro settled ⟨history, onClock⟩ idle unreported later
    obtain ⟨time, timer, early⟩ := exists_timer regular several
      (onClock.onTrack regular several sound alone) (onClock.reached.books started).1 idle
      unreported
    exact absurd (Nat.le_trans early late) (Nat.not_le_of_lt (later time timer))
  obtain ⟨⟨history, onClock⟩, reported⟩ := runUntil_spec
    (fun _ _ ⟨_, onClock⟩ works => onClock.works works)
    (fun _ _ ⟨_, onClock⟩ idle _ timer => ⟨_, onClock.tick (.time idle timer)⟩)
    (fun settled there idle unreported later =>
      absurd later (beyond settled there idle unreported))
    ⟨[], .start⟩ result
  rcases reported with reported | ⟨settled, there, idle, unreported, later⟩
  · obtain ⟨report, reported⟩ := Option.isSome_iff_exists.mp reported
    exact ⟨history, report, onClock, reported⟩
  · exact absurd later (beyond settled there idle unreported)

end Undisturbed

/-- Several users on a hub where nobody else is attached, with times that leave no doubt: in
whatever order the tasks that are ready at one moment run, the run comes to a report, and by it
every user has sent a probe and had an answer in each round, no time ran out and nothing went
wrong. Nobody is attached any more by then. Samples are counted in 64 bits. -/
theorem exact_report (calendar : Nat → String) {config : BenchConfig} {duration users : Nat}
    {events : List Hub.Event} {hub : Hub} (past : Hub.Run {} events hub)
    (alone : hub.peerCount = 0) (several : 2 ≤ users) (time : 1 ≤ duration)
    (paced : 1 ≤ config.probe.pacing) (uneven : ¬ config.probe.pacing ∣ 1000 * duration)
    (bound : 1 ≤ config.probe.waitBound) (warmup : 1 ≤ config.warmup)
    (grace : 1 ≤ config.grace) :
    ∃ first, LoadRun.start config duration hub (List.replicate users {}) = .ok first ∧
      Acc (fun next run => ∃ new, Tick calendar run new next) first ∧
      (∀ history run, OnClock calendar first history run →
        (run.stage.report? = none → ∃ new next, Tick calendar run new next) ∧
        ∀ report, run.stage.report? = some report →
          report.probes = users * config.rounds duration ∧
          report.samples = min report.probes Histogram.countLimit ∧
          report.timeouts = 0 ∧ report.connectFailures = 0 ∧ report.linkFailures = 0 ∧
          report.stragglers = 0 ∧ run.population.hub.peerCount = 0) ∧
      ∀ origin message last, LoadRun.run calendar config origin message [] first = some last →
        ∃ history report, OnClock calendar first history last ∧
          last.stage.report? = some report := by
  have regular : config.Regular duration := ⟨time, warmup, bound, paced, uneven, grace⟩
  have sound := past.sound Hub.sound_empty
  have started := start_undisturbed config users hub (by omega) time
  have onTrack : ∀ history run,
      OnClock calendar (undisturbed config duration users hub) history run →
        OnTrack config duration users history run :=
    fun _ _ onClock => onClock.onTrack regular several sound alone
  have ends : ∀ history run,
      OnClock calendar (undisturbed config duration users hub) history run →
        run.Bounded calendar (config.closeAt duration) :=
    fun history run onClock =>
      bounded regular several (onTrack history run onClock) (onClock.reached.books started).1
  refine ⟨_, started, acc_tick ends .start,
    fun history run onClock => ⟨fun unreported => ?_, fun report reported => ?_⟩,
    fun origin message last result => ?_⟩
  · exact exists_tick regular several (onTrack history run onClock)
      (onClock.reached.books started).1 unreported
  · obtain ⟨books, right⟩ := onClock.reached.books started
    have onTrack := onTrack history run onClock
    have stage : run.stage = .finished report := by
      cases stage : run.stage <;> rw [stage] at reported <;> cases reported
      rfl
    obtain ⟨sampled, samples, _, read⟩ := right.report reported
    obtain ⟨each, nobody⟩ := onTrack.finished books stage
    have onTime := onTrack.stage
    rw [stage] at onTime
    obtain ⟨⟨none, connectFailures, linkFailures⟩, _⟩ := onTime
    obtain ⟨timeouts, probes⟩ := read none
    have known : ∀ entry ∈ history, entry.1 < users := onTrack.size ▸ books.known
    have probed : report.probes = users * config.rounds duration :=
      (probes.trans (books.counters .probe)).trans
        (History.tally_eq_mul known fun index inside => (each index inside).1)
    have measured : (History.latencies history).length = users * config.rounds duration :=
      (History.length_latencies history).trans
        (History.tally_eq_mul known fun index inside => (each index inside).2)
    refine ⟨probed, ?_, ?_, connectFailures, linkFailures, none, nobody⟩
    · rw [samples, (sampled.complete none).2, measured, probed]
    · exact timeouts.trans ((books.counters .timeout).trans (onTrack.clean (by decide)))
  · simp only [LoadRun.run, List.mergeSort_nil, publishAt, Option.bind_eq_bind,
      Option.bind_some] at result
    exact onClock_runUntil regular several sound alone (Nat.le_add_right _ _) result

/-- A hub whose only peer has left, and pauses of which 142 and a part fit into a second. -/
theorem exact_report_two :
    let config : BenchConfig :=
      { probe := { waitBound := 5, pacing := 7 }, warmup := 3, grace := 2 }
    let hub : Hub := ({} : Hub).attach.2.detach 1
    Hub.Run {} [.attached 1, .detached 1] hub ∧ hub.peerCount = 0 ∧ ¬ 7 ∣ 1000 * 1 ∧
      ∃ first history last report, LoadRun.start config 1 hub [{}, {}] = .ok first ∧
        OnClock (fun _ => "noon") first history last ∧ last.stage.report? = some report ∧
        report.probes = 286 ∧ report.samples = 286 ∧ report.timeouts = 0 ∧
        report.stragglers = 0 ∧ last.population.hub.peerCount = 0 := by
  intro config hub
  have past : Hub.Run {} [.attached 1, .detached 1] hub :=
    .cons (.attach {}) (Hub.Step.detach ({} : Hub).attach.2 1).run
  have alone : hub.peerCount = 0 := rfl
  have paced : 1 ≤ config.probe.pacing := by decide
  have uneven : ¬ config.probe.pacing ∣ 1000 * 1 := by decide
  have bound : 1 ≤ config.probe.waitBound := by decide
  obtain ⟨first, started, acc, law, -⟩ :=
    exact_report (fun _ => "noon") past alone (Nat.le_refl 2) (Nat.le_refl 1) paced uneven bound
      (by decide) (by decide)
  obtain ⟨history, last, report, onClock, reported⟩ :=
    exists_report acc fun history run onClock => (law history run onClock).1
  obtain ⟨probes, samples, timeouts, _, _, stragglers, nobody⟩ :=
    (law history last onClock).2 report reported
  have count : report.probes = 286 := probes.trans (by decide)
  refine ⟨past, alone, uneven, first, history, last, report, started, onClock, reported, count, ?_,
    timeouts, stragglers, nobody⟩
  rw [samples, count]
  decide

end LoadRun

end ChatHub
