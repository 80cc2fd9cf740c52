import ChatHub.Proofs.Load.Stages
import Mathlib.Data.List.Nodup
/-!
What the numbers of a report say about a run, however its steps were interleaved and whichever way
each user came to its end. Main statements: `report_reconciles` for probes, and
`completion_implies_flushed` for samples.
-/

set_option autoImplicit false

namespace ChatHub

namespace Books

variable {history : List (Nat × UserEvent)} {population : Population}

private theorem tallyOf_le (books : Books history population) (index : Nat) :
    History.tallyOf UserEvent.hasLeft index history ≤
        History.tallyOf UserEvent.isConnected index history ∧
      History.tallyOf UserEvent.isConnected index history ≤ 1 := by
  cases found : population.users[index]? with
  | some user => exact (books.stands index user found).bounds
  | none =>
    have outside := List.getElem?_eq_none_iff.mp found
    have nothing : ∀ test, History.tallyOf test index history = 0 := by
      intro test
      refine List.countP_eq_zero.mpr fun entry member => ?_
      have inside := books.known entry member
      have other : entry.1 ≠ index := by omega
      simp [other]
    rw [nothing, nothing]
    exact ⟨Nat.le_refl 0, Nat.zero_le 1⟩

private theorem tallyOf_leftAwaiting_le (index : Nat) :
    History.tallyOf UserEvent.leftAwaiting index history ≤
      History.tallyOf UserEvent.hasLeft index history := by
  refine List.countP_mono_left fun entry _ counted => ?_
  obtain ⟨user, event⟩ := entry
  cases event with
  | left awaiting exit => simp_all [UserEvent.hasLeft]
  | _ => simp [UserEvent.leftAwaiting] at counted

/-- Nobody connects twice. -/
theorem nodup_connected (books : Books history population) :
    (History.usersWith UserEvent.isConnected history).Nodup := by
  rw [List.nodup_iff_count_le_one]
  intro index
  rw [History.count_usersWith]
  exact (books.tallyOf_le index).2

private theorem nodup_leavers (books : Books history population) :
    (History.usersWith UserEvent.leftAwaiting history).Nodup := by
  rw [List.nodup_iff_count_le_one]
  intro index
  rw [History.count_usersWith]
  obtain ⟨left, connected⟩ := books.tallyOf_le index
  exact Nat.le_trans (tallyOf_leftAwaiting_le index) (Nat.le_trans left connected)

/-- Whoever left its loop had connected. -/
theorem leavers_subset (books : Books history population) :
    History.usersWith UserEvent.leftAwaiting history ⊆
      History.usersWith UserEvent.isConnected history := by
  intro index member
  rw [← List.count_pos_iff, History.count_usersWith] at member ⊢
  obtain ⟨left, -⟩ := books.tallyOf_le index
  exact Nat.lt_of_lt_of_le member (Nat.le_trans (tallyOf_leftAwaiting_le index) left)

/-- Once every user is done, each probe was measured, timed out, or was left by its user. -/
theorem balance_of_complete (books : Books history population)
    (complete : population.completion.remaining = 0) :
    population.counters.probes =
      (History.latencies history).length + population.counters.timeouts +
        (History.usersWith UserEvent.leftAwaiting history).length := by
  have probes : population.counters.probes = _ := books.counters .probe
  have timeouts : population.counters.timeouts = _ := books.counters .timeout
  rw [History.length_latencies, History.length_usersWith, probes, timeouts, books.balance,
    books.openProbes_of_complete complete, Nat.add_zero]

/-- The gate is counted down for a user that has nothing left, as the last thing the user does. -/
theorem countDown_step {calendar : Nat → String} {move : Move} {next : Population}
    (books : Books history population) (possible : population.step? calendar move = some next)
    (counted : next.completion.remaining ≠ population.completion.remaining) :
    next.completion.remaining + 1 = population.completion.remaining ∧
      ∃ (index : Nat) (user moved : User) (exit : Option UserExit),
        population.users[index]? = some user ∧ next.users[index]? = some moved ∧
        user.phase = .flushed exit ∧ moved.phase = .ended exit ∧
        user.handle = none ∧ user.link.all Link.isGone := by
  rcases Population.step?_cases possible with
    ⟨index, user, moved, after, about, found, effect, rfl⟩ |
    ⟨about, users, counters, recorder, completion⟩
  · have ending : ¬ moved.phase.isEnded = user.phase.isEnded := by
      intro same
      apply counted
      rw [Population.setUser, effect.completion, if_pos same]
    have down : after.completion = population.completion.countDown := by
      rw [effect.completion, if_neg ending]
    have there : (after.setUser index moved).users[index]? = some moved := by
      rw [Population.setUser, effect.users, List.getElem?_set_self', found]
      rfl
    obtain ⟨exit, flushed, ended⟩ : ∃ exit, user.phase = .flushed exit ∧
        moved.phase = .ended exit := by
      rcases effect.course with same | course
      · exact absurd (congrArg Phase.isEnded same) ending
      · exact course.finished ending
    have equipped := books.equipped user (List.mem_of_getElem? found)
    refine ⟨?_, index, user, moved, exit, found, there, flushed, ended,
      equipped.dropped (by rw [flushed]; rfl)⟩
    rw [Population.setUser, down, CompletionGate.remaining_countDown] at counted ⊢
    omega
  · exact absurd (congrArg CompletionGate.remaining completion) counted

end Books

namespace LoadRun

variable (calendar : Nat → String) (config : BenchConfig) (hub : Hub) {duration : Nat}
  {plans : List ConnectPlan}

/-- Samples and timeouts never exceed the probes of a report. If there are no stragglers, what is
missing are the probes whose users left while they awaited an answer. Samples are counted in 64
bits, as all counters are. -/
theorem report_reconciles (someone : plans ≠ []) (time : 0 < duration) :
    ∃ first, LoadRun.start config duration hub plans = .ok first ∧
      ∀ history last report, Reached calendar first history last →
        last.stage.report? = some report →
        report.samples + report.timeouts ≤ report.probes ∧
        report.samples = (report.latency.map LatencySummary.count).getD 0 ∧
        (report.latency = none ↔ report.samples = 0) ∧
        (report.stragglers = 0 →
          let leavers := History.usersWith UserEvent.leftAwaiting history
          let connected := History.usersWith UserEvent.isConnected history
          (report.probes ≤ Histogram.countLimit →
            report.probes - report.samples - report.timeouts = leavers.length) ∧
          report.samples =
            min (report.probes - report.timeouts - leavers.length) Histogram.countLimit ∧
          leavers.Nodup ∧ connected.Nodup ∧ leavers ⊆ connected ∧
          leavers.length ≤ connected.length) := by
  refine ⟨_, start_eq_ok someone time, fun history last report reached reported => ?_⟩
  obtain ⟨books, right⟩ := reached.books (start_eq_ok someone time)
  obtain ⟨sampled, samples, atMost, read⟩ := right.report reported
  refine ⟨atMost, samples, samples ▸ sampled.absent, fun none => ?_⟩
  obtain ⟨complete, count⟩ := sampled.complete none
  obtain ⟨timeouts, probes⟩ := read none
  have balance := books.balance_of_complete complete
  refine ⟨?_, ?_, books.nodup_leavers, books.nodup_connected, books.leavers_subset,
    (List.subperm_of_subset books.nodup_leavers books.leavers_subset).length_le⟩
  · intro counted
    omega
  · omega

/-- A run of two users, of which only the second hears the other. -/
def oneEcho : List LoadMove :=
  let users (moves : List Move) : List LoadMove := moves.map .other
  List.flatten
    [users [.proceed 0, .proceed 1, .advance 3000],
      [.coordinator],
      users [.proceed 0, .proceed 1, .proceed 0, .proceed 0, .proceed 1, .proceed 1, .pump 0,
        .measure 1500, .proceed 1, .proceed 1, .advance 4000],
      [.coordinator],
      users [.cancel 0, .cancel 1, .proceed 0, .proceed 1, .proceed 0, .proceed 1, .proceed 0,
        .proceed 1],
      List.replicate 5 .coordinator]

private theorem reached_oneEcho {first : LoadRun}
    (started : LoadRun.start {} 1 {} [{}, {}] = .ok first) :
    ∃ history last report, Reached (fun _ => "") first history last ∧
      last.stage.report? = some report ∧ report.stragglers = 0 ∧ report.probes = 2 ∧
      History.usersWith UserEvent.leftAwaiting history = [0] ∧
      History.latencies history = [1500] := by
  rw [start_eq_ok (List.cons_ne_nil _ _) Nat.one_pos] at started
  cases started
  exact ⟨_, _, _, Reached.start.follow oneEcho rfl, rfl, rfl, rfl, rfl, rfl⟩

theorem report_reconciles_oneEcho :
    ∃ first history last report, LoadRun.start {} 1 {} [{}, {}] = .ok first ∧
      Reached (fun _ => "") first history last ∧ last.stage.report? = some report ∧
      report.stragglers = 0 ∧ report.probes - report.samples - report.timeouts = 1 := by
  obtain ⟨first, started, law⟩ :=
    report_reconciles (fun _ => "") {} {} (List.cons_ne_nil ({} : ConnectPlan) [{}]) Nat.one_pos
  obtain ⟨history, last, report, reached, reported, none, probes, leavers, -⟩ :=
    reached_oneEcho started
  refine ⟨first, history, last, report, started, reached, reported, none, ?_⟩
  obtain ⟨-, -, -, complete⟩ := law history last report reached reported
  rw [(complete none).1 (by rw [probes]; decide), leavers]
  rfl

/-- The completion gate counts users that have given up their link and dropped their handle, so
that no sample is missing once it is complete, nor in a report without stragglers. -/
theorem completion_implies_flushed (someone : plans ≠ []) (time : 0 < duration) :
    ∃ first, LoadRun.start config duration hub plans = .ok first ∧
      ∀ history run, Reached calendar first history run →
        (∀ move next, run.step? calendar move = some next →
          next.population.completion.remaining ≠ run.population.completion.remaining →
          next.population.completion.remaining + 1 = run.population.completion.remaining ∧
            ∃ (index : Nat) (user moved : User) (exit : Option UserExit),
              run.population.users[index]? = some user ∧
              next.population.users[index]? = some moved ∧
              user.phase = .flushed exit ∧ moved.phase = .ended exit ∧
              user.handle = none ∧ user.link.all Link.isGone) ∧
        run.population.completion.remaining =
          run.population.users.countP (fun user => !user.phase.isEnded) ∧
        (∀ user ∈ run.population.users, user.phase.isEnded →
          user.handle = none ∧ user.link.all Link.isGone) ∧
        run.population.recorder.merged + run.population.recorder.handedOver +
            (run.population.users.map User.held).sum =
          Histogram.ofLatencies (History.latencies history) ∧
        (run.population.completion.remaining = 0 →
          run.population.recorder.merged + run.population.recorder.handedOver =
            Histogram.ofLatencies (History.latencies history)) ∧
        (∀ report, run.stage.report? = some report → report.stragglers = 0 →
          report.samples = min (History.latencies history).length Histogram.countLimit) := by
  refine ⟨_, start_eq_ok someone time, fun history run reached => ?_⟩
  obtain ⟨books, right⟩ := reached.books (start_eq_ok someone time)
  refine ⟨?_, books.running, ?_, books.samples, books.received_of_complete, ?_⟩
  · intro move next possible counted
    cases move with
    | coordinator =>
      obtain ⟨-, -, -, same⟩ := coordinate?_frame possible
      exact absurd (congrArg CompletionGate.remaining same) counted
    | other move =>
      obtain ⟨population, moved, rfl⟩ := Option.map_eq_some_iff.mp possible
      exact books.countDown_step moved counted
  · intro user member ended
    obtain ⟨exit, phase⟩ := Phase.of_isEnded ended
    exact (books.equipped user member).dropped (by rw [phase]; rfl)
  · intro report reported none
    obtain ⟨sampled, samples, -, -⟩ := right.report reported
    exact samples.trans (sampled.complete none).2

theorem completion_implies_flushed_oneEcho :
    ∃ first history last report, LoadRun.start {} 1 {} [{}, {}] = .ok first ∧
      Reached (fun _ => "") first history last ∧ last.stage.report? = some report ∧
      report.stragglers = 0 ∧ History.latencies history = [1500] ∧ report.samples = 1 := by
  obtain ⟨first, started, law⟩ :=
    completion_implies_flushed (fun _ => "") {} {} (List.cons_ne_nil ({} : ConnectPlan) [{}])
      Nat.one_pos
  obtain ⟨history, last, report, reached, reported, none, -, -, latencies⟩ :=
    reached_oneEcho started
  refine ⟨first, history, last, report, started, reached, reported, none, latencies, ?_⟩
  obtain ⟨-, -, -, -, -, samples⟩ := law history last reached
  rw [samples report reported none, latencies]
  decide

end LoadRun

end ChatHub
