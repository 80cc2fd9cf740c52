import ChatHub.Proofs.Load.Punctual
/-!
How a load test ends: its users see that they are cancelled, wherever they stand, so on a virtual
clock it is over as soon as time is up. Main statement: `LoadRun.cancellation_is_seen`.
-/

set_option autoImplicit false

namespace ChatHub.LoadRun

/-- Cancellation is seen wherever a user stands, whatever it is connected to and whatever else is
ready. From the signal on no link failure is counted, and a user has ended or can go on at once;
at one moment it has no more than eleven steps left and sends one more probe at most. The
stragglers of a report are the users that had not ended when the coordinator looked, at once if
all had and else when the bound had run out. On a virtual clock, with time to look around, no run
gets stuck or goes on for ever, whatever others do in the meantime, and its report comes when
warm-up and duration are over and knows no stragglers. -/
theorem cancellation_is_seen (calendar : Nat → String) {config : BenchConfig} {duration : Nat}
    {first : LoadRun} (begins : first.Begins config duration) (paced : 1 ≤ config.probe.pacing) :
    (∀ {signalled last : Population} {later : List Moment},
      (∀ user ∈ signalled.users, user.Equipped) → (signalled.users.map User.id).Nodup →
      1 ≤ signalled.settings.pacing → signalled.cancelled = true →
      signalled.Lives calendar later last →
      last.counters.linkFailures = signalled.counters.linkFailures ∧
        ∀ (index : Nat) (user : User), last.users[index]? = some user →
          Population.WoundDown calendar signalled last later index user) ∧
    (∀ {history : List (Nat × UserEvent)} {run : LoadRun} {report : Report},
      Reached calendar first history run → run.stage.report? = some report →
      Looked calendar config duration first run report.stragglers) ∧
    (1 ≤ config.grace →
      Acc (fun next run => ∃ middle, Relation.ReflTransGen (Outside calendar) run middle ∧
        Beat calendar middle next) first ∧
      (∀ {run : LoadRun}, Clocked calendar first run →
        (run.stage.report? = none → ∃ next, Beat calendar run next) ∧
        (∀ report, run.stage.report? = some report → report.stragglers = 0 ∧
          run.population.now = config.closeAt duration) ∧
        ∀ {last : LoadRun}, run.population.cancelled = true → Clocked calendar run last →
          ∀ user ∈ last.population.users,
            last.population.sent user.id ≤ run.population.sent user.id + 1) ∧
      ∀ origin message times last,
        LoadRun.run calendar config origin message times first = some last →
        Clocked calendar first last ∧ last.stage.report?.isSome = true) := by
  refine ⟨?_, ?_, ?_⟩
  · intro signalled last later equipped distinct paced cancelled lives
    exact ⟨lives.linkFailures_of_cancelled cancelled, fun index user found =>
      lives.woundDown equipped distinct paced cancelled found⟩
  · intro history run report reached reported
    exact reached.looked begins (Stage.stragglers?_of_report? reported)
  · intro graced
    refine ⟨acc_beat begins graced paced .start, ?_, ?_⟩
    · intro run clocked
      have punctual := clocked.punctual begins graced
      refine ⟨clocked.exists_beat begins graced, ?_, ?_⟩
      · intro report reported
        have inTime := punctual.stage
        cases stage : run.stage with
        | finished given =>
          rw [stage] at inTime reported
          cases reported
          exact ⟨inTime.1, inTime.2.1⟩
        | _ =>
          rw [stage] at reported
          cases reported
      · intro last cancelled onward user member
        obtain ⟨moments, lives⟩ := onward.lives
        obtain ⟨index, found⟩ := List.mem_iff_getElem?.mp member
        have wound := lives.woundDown punctual.equipped punctual.distinct
          (punctual.settings ▸ paced) cancelled found
        have still : last.population.now = run.population.now :=
          (((clocked.trans onward).punctual begins graced).now_of_cancelled
            (lives.cancelled_of_cancelled cancelled)).trans
              (punctual.now_of_cancelled cancelled).symm
        have sent := wound.sent
        rwa [still, Nat.sub_self, Nat.zero_div, Nat.add_zero] at sent
    · intro origin message times last result
      exact clocked_run begins graced result

/-- Short times, and a grace that is longer than nothing. -/
def shortTimes : BenchConfig :=
  { probe := { waitBound := 5, pacing := 7 }, warmup := 3, grace := 2 }

/-- A schedule in which no user ever takes a step. -/
def nobodyMoves : List LoadMove :=
  [.other (.advance 3), .coordinator, .other (.advance 1003), .coordinator,
    .other (.advance 1005)] ++ List.replicate 6 .coordinator

private theorem reached_nobodyMoves {first : LoadRun}
    (started : LoadRun.start shortTimes 1 {} [{}, { answers := false }] = .ok first) :
    (∃ history run report, Reached (fun _ => "noon") first history run ∧
      run.stage.report? = some report ∧ report.stragglers = 2) ∧
    ∃ later last user, first.population.cancelAll.Lives (fun _ => "noon") later last ∧
      last.users[1]? = some user ∧ user.phase = .ended (some .cancelled) := by
  cases started
  exact ⟨⟨_, _, _, Reached.start.follow nobodyMoves rfl, rfl, rfl⟩, _, _, _,
    Population.Lives.start.follow [.cancel 1, .proceed 1, .proceed 1] rfl, rfl, rfl⟩

/-- One user attaches at once and one is never answered. On the clock both have ended when time is
up; if neither of them ever takes a step, both are stragglers. The second, cancelled while it
connects, has ended after three steps. -/
theorem cancellation_is_seen_two :
    ∃ first, LoadRun.start shortTimes 1 {} [{}, { answers := false }] = .ok first ∧
      (∃ last report, Clocked (fun _ => "noon") first last ∧
        last.stage.report? = some report ∧ report.stragglers = 0 ∧ last.population.now = 1003) ∧
      (∃ history run report, Reached (fun _ => "noon") first history run ∧
        run.stage.report? = some report ∧ report.stragglers = 2 ∧
        Looked (fun _ => "noon") shortTimes 1 first run report.stragglers) ∧
      ∃ later last user,
        first.population.cancelAll.Lives (fun _ => "noon") later last ∧
          last.users[1]? = some user ∧ user.phase = .ended (some .cancelled) ∧
          Population.WoundDown (fun _ => "noon") first.population.cancelAll last later 1 user := by
  obtain ⟨first, started⟩ : ∃ first,
      LoadRun.start shortTimes 1 {} [{}, { answers := false }] = .ok first := ⟨_, rfl⟩
  have begins := begins_start started
  obtain ⟨winds, looks, clock⟩ := cancellation_is_seen (fun _ => "noon") begins (by decide)
  obtain ⟨acc, law, -⟩ := clock (by decide)
  have onward : ∀ run, Clocked (fun _ => "noon") first run → ¬ run.stage.report?.isSome = true →
      ∃ next, (∃ middle, Relation.ReflTransGen (Outside fun _ => "noon") run middle ∧
        Beat (fun _ => "noon") middle next) ∧ Clocked (fun _ => "noon") first next := by
    intro run clocked unreported
    obtain ⟨next, beat⟩ := (law clocked).1 (by simpa using unreported)
    exact ⟨next, ⟨run, .refl, beat⟩, clocked.beat beat⟩
  obtain ⟨last, clocked, reported⟩ := exists_over _ _ acc .start onward
  obtain ⟨report, reported⟩ := Option.isSome_iff_exists.mp reported
  obtain ⟨⟨history, run, late, reached, lateReported, two⟩, later, cancelled, user, lives, found,
    ended⟩ := reached_nobodyMoves started
  have paced : 1 ≤ first.population.settings.pacing := by
    rw [begins.settings]
    decide
  have equipped : ∀ user ∈ first.population.cancelAll.users, user.Equipped :=
    begins.fresh.equipped
  have wound := (winds equipped begins.distinct paced rfl lives).2 1 user found
  exact ⟨first, started, ⟨last, report, clocked, reported, (law clocked).2.1 report reported⟩,
    ⟨history, run, late, reached, lateReported, two, looks reached lateReported⟩,
    later, cancelled, user, lives, found, ended, wound⟩

end ChatHub.LoadRun
