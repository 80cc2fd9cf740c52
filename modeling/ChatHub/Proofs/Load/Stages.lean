import ChatHub.Proofs.Load.Books
/-!
What the coordinator of a load test reads, stage by stage, while users may still be running. Main
statement: `LoadRun.Reached.books`, the books and the readings of every run.
-/

set_option autoImplicit false

namespace ChatHub

/-! ## The coordinator -/

/-- What a summary that was taken with a number of users left has to do with what was recorded. -/
structure Sampled (history : List (Nat × UserEvent)) (population : Population) (stragglers : Nat)
    (latency : Option LatencySummary) : Prop where
  absent : latency = none ↔ LatencySummary.countOf latency = 0
  atMost : LatencySummary.countOf latency ≤ (History.latencies history).length
  complete : stragglers = 0 → population.completion.remaining = 0 ∧
    LatencySummary.countOf latency =
      min (History.latencies history).length Histogram.countLimit

/-- What the coordinator has read is right for as long as it matters. -/
def StageRight (history : List (Nat × UserEvent)) (population : Population) : Stage → Prop
  | .warming _ | .measuring _ | .closing _ | .overdue => True
  | .summarizing stragglers | .flushing stragglers =>
    stragglers = 0 → population.completion.remaining = 0
  | .summarized stragglers latency => Sampled history population stragglers latency
  | .timeoutsRead stragglers latency timeouts =>
    Sampled history population stragglers latency ∧
      LatencySummary.countOf latency + timeouts ≤ population.counters.probes ∧
      (stragglers = 0 → timeouts = population.counters.timeouts)
  | .finished report =>
    Sampled history population report.stragglers report.latency ∧
      report.samples = LatencySummary.countOf report.latency ∧
      report.samples + report.timeouts ≤ report.probes ∧
      (report.stragglers = 0 → report.timeouts = population.counters.timeouts ∧
        report.probes = population.counters.probes)

/-- The coordinator changes nothing that is in the books. -/
theorem LoadRun.coordinate?_frame {run next : LoadRun} (possible : run.coordinate? = some next) :
    next.population.users = run.population.users ∧
      next.population.counters = run.population.counters ∧
      next.population.recorder.received = run.population.recorder.received ∧
      next.population.completion = run.population.completion := by
  unfold coordinate? at possible
  cases stage : run.stage with
  | warming time | measuring time =>
    simp only [stage] at possible
    split at possible
    · cases possible
      exact ⟨rfl, rfl, rfl, rfl⟩
    · cases possible
  | closing deadline =>
    simp only [stage] at possible
    split at possible
    · cases possible
      exact ⟨rfl, rfl, rfl, rfl⟩
    · split at possible
      · cases possible
        exact ⟨rfl, rfl, rfl, rfl⟩
      · cases possible
  | flushing stragglers =>
    simp only [stage] at possible
    cases possible
    exact ⟨rfl, rfl, LatencyRecorder.received_gather _, rfl⟩
  | finished report =>
    simp only [stage] at possible
    cases possible
  | _ =>
    simp only [stage] at possible
    cases possible
    exact ⟨rfl, rfl, rfl, rfl⟩

section Readings

variable {calendar : Nat → String} {history : List (Nat × UserEvent)}
  {population next : Population} {move : Move} {stragglers : Nat}

/-- A summary of what has reached the recorder. -/
theorem Books.sampled (books : Books history population)
    (settled : stragglers = 0 → population.completion.remaining = 0)
    (same : next.completion = population.completion) :
    Sampled history next stragglers
      (LatencySummary.ofHistogram? population.recorder.received) where
  absent := by
    rw [LatencySummary.countOf_ofHistogram?, LatencySummary.ofHistogram?]
    split
    · rename_i nothing
      exact ⟨fun _ => nothing, fun _ => rfl⟩
    · rename_i something
      exact ⟨nofun, fun nothing => absurd nothing something⟩
  atMost := by
    have whole := congrArg (·.tally.total) books.samples
    simp only [Histogram.tally_add, Tally.total_add, Histogram.total_ofLatencies] at whole
    rw [LatencySummary.countOf_ofHistogram?, Histogram.total]
    omega
  complete none := by
    rw [same]
    refine ⟨settled none, ?_⟩
    rw [LatencySummary.countOf_ofHistogram?, books.received_of_complete (settled none),
      Histogram.total, Histogram.total_ofLatencies]

private theorem Books.measured_add_timeouts_le (books : Books history population) :
    (History.latencies history).length + population.counters.timeouts ≤
      population.counters.probes := by
  have probes : population.counters.probes = _ := books.counters .probe
  have timeouts : population.counters.timeouts = _ := books.counters .timeout
  have balance := books.balance
  rw [History.length_latencies]
  omega

private theorem Books.probes_le (books : Books history population)
    (possible : population.step? calendar move = some next) :
    population.counters.probes ≤ next.counters.probes := by
  have before : population.counters.probes = _ := books.counters .probe
  have after : next.counters.probes = _ := (books.step possible).counters .probe
  rw [before, after, History.tally, History.tally, List.countP_append]
  exact Nat.le_add_right _ _

theorem Sampled.step {latency : Option LatencySummary}
    (sampled : Sampled history population stragglers latency) (books : Books history population)
    (possible : population.step? calendar move = some next) :
    Sampled (history ++ (population.event? move next).toList) next stragglers latency where
  absent := sampled.absent
  atMost := by
    refine Nat.le_trans sampled.atMost ?_
    rw [History.latencies, History.latencies, List.filterMap_append, List.length_append]
    exact Nat.le_add_right _ _
  complete none := by
    obtain ⟨complete, count⟩ := sampled.complete none
    obtain ⟨silent, -, same⟩ := books.idle complete possible
    rw [silent, Option.toList_none, List.append_nil]
    exact ⟨same ▸ complete, count⟩

theorem StageRight.step {stage : Stage} (right : StageRight history population stage)
    (books : Books history population) (possible : population.step? calendar move = some next) :
    StageRight (history ++ (population.event? move next).toList) next stage := by
  have grown := books.probes_le possible
  cases stage with
  | warming _ | measuring _ | closing _ | overdue => exact True.intro
  | summarizing stragglers | flushing stragglers =>
    intro none
    obtain ⟨-, -, same⟩ := books.idle (right none) possible
    exact same ▸ right none
  | summarized stragglers latency => exact Sampled.step right books possible
  | timeoutsRead stragglers latency timeouts =>
    obtain ⟨sampled, atMost, read⟩ := right
    refine ⟨sampled.step books possible, Nat.le_trans atMost grown, fun none => ?_⟩
    obtain ⟨-, same, -⟩ := books.idle (sampled.complete none).1 possible
    rw [same]
    exact read none
  | finished report =>
    obtain ⟨sampled, samples, atMost, read⟩ := right
    refine ⟨sampled.step books possible, samples, atMost, fun none => ?_⟩
    obtain ⟨-, same, -⟩ := books.idle (sampled.complete none).1 possible
    rw [same]
    exact read none

theorem StageRight.coordinate {run next : LoadRun}
    (right : StageRight history run.population run.stage) (books : Books history run.population)
    (possible : run.coordinate? = some next) :
    StageRight history next.population next.stage := by
  unfold LoadRun.coordinate? at possible
  cases stage : run.stage with
  | warming time | measuring time =>
    simp only [stage] at possible
    split at possible
    · cases possible
      exact True.intro
    · cases possible
  | closing deadline =>
    simp only [stage] at possible
    split at possible
    · rename_i complete
      cases possible
      exact fun _ => of_decide_eq_true complete
    · split at possible
      · cases possible
        exact True.intro
      · cases possible
  | overdue =>
    simp only [stage] at possible
    cases possible
    exact id
  | summarizing stragglers =>
    rw [stage] at right
    simp only [stage] at possible
    cases possible
    exact right
  | flushing stragglers =>
    rw [stage] at right
    simp only [stage] at possible
    cases possible
    exact books.sampled right rfl
  | summarized stragglers latency =>
    rw [stage] at right
    simp only [stage] at possible
    cases possible
    refine ⟨right, ?_, fun _ => rfl⟩
    exact Nat.le_trans (Nat.add_le_add_right right.atMost _) books.measured_add_timeouts_le
  | timeoutsRead stragglers latency timeouts =>
    rw [stage] at right
    simp only [stage] at possible
    cases possible
    exact ⟨right.1, rfl, right.2.1, fun none => ⟨right.2.2 none, rfl⟩⟩
  | finished report =>
    simp only [stage] at possible
    cases possible

end Readings

/-- What a report says, and what it has to do with the run. -/
theorem StageRight.report {history : List (Nat × UserEvent)} {population : Population}
    {stage : Stage} {report : Report} (right : StageRight history population stage)
    (reported : stage.report? = some report) :
    StageRight history population (.finished report) := by
  cases stage with
  | finished given =>
    cases reported
    exact right
  | _ => cases reported

/-! ## Whole runs -/

namespace LoadRun

/-- A run begins as soon as there are users and time. -/
theorem start_eq_ok {config : BenchConfig} {duration : Nat} {hub : Hub}
    {plans : List ConnectPlan} (someone : plans ≠ []) (time : 0 < duration) :
    start config duration hub plans = .ok
      { duration
        grace := config.grace
        population :=
          { settings := config.probe
            hub
            users := usersOf plans
            completion := { remaining := plans.length } }
        stage := .warming config.warmup } := by
  rw [start, if_neg (by simpa using someone), if_neg (Nat.ne_of_gt time)]

theorem of_mem_usersOf {plans : List ConnectPlan} {user : User}
    (member : user ∈ usersOf plans) :
    (∃ due, user.phase = .connecting due) ∧ user.handle = some ({} : LatencyRecorder).handle := by
  obtain ⟨index, inside, rfl⟩ := List.mem_mapIdx.mp member
  exact ⟨⟨_, rfl⟩, rfl⟩

theorem books_start {population : Population}
    (new : ∀ user ∈ population.users,
      (∃ due, user.phase = .connecting due) ∧ user.handle = some ({} : LatencyRecorder).handle)
    (counters : population.counters = {}) (recorder : population.recorder = {})
    (completion : population.completion.remaining = population.users.length) :
    Books [] population where
  equipped user member := by
    obtain ⟨⟨due, phase⟩, handle⟩ := new user member
    exact
      { handle := by rw [phase, handle]; rfl
        link := fun dropped => by rw [phase] at dropped; cases dropped }
  stands index user found := by
    obtain ⟨⟨due, phase⟩, -⟩ := new user (List.mem_of_getElem? found)
    rw [phase]
    exact ⟨rfl, rfl⟩
  known entry member := by cases member
  counters counted := by
    rw [counters]
    cases counted <;> rfl
  balance := by
    have nothing : population.openProbes = 0 := by
      refine List.countP_eq_zero.mpr fun user isUser => ?_
      obtain ⟨⟨due, phase⟩, -⟩ := new user isUser
      rw [phase]
      exact Bool.false_ne_true
    rw [nothing]
    rfl
  samples := by
    have nothing : population.held = 0 := by
      refine List.sum_eq_zero fun weight member => ?_
      obtain ⟨user, isUser, rfl⟩ := List.mem_map.mp member
      obtain ⟨-, handle⟩ := new user isUser
      rw [User.held, handle]
      rfl
    rw [nothing, recorder]
    rfl
  running := by
    have everyone : population.running = population.users.length := by
      refine List.countP_eq_length.mpr fun user isUser => ?_
      obtain ⟨⟨due, phase⟩, -⟩ := new user isUser
      rw [phase]
      rfl
    rw [everyone, completion]

/-- In every run the books are right, and so is what the coordinator has read. -/
theorem Reached.books {calendar : Nat → String} {config : BenchConfig} {duration : Nat}
    {hub : Hub} {plans : List ConnectPlan} {first run : LoadRun}
    {history : List (Nat × UserEvent)}
    (started : LoadRun.start config duration hub plans = .ok first)
    (reached : Reached calendar first history run) :
    Books history run.population ∧ StageRight history run.population run.stage := by
  induction reached with
  | start =>
    unfold LoadRun.start at started
    split at started
    · cases started
    · split at started
      · cases started
      · cases started
        exact ⟨books_start (fun _ => of_mem_usersOf) rfl rfl (by simp [usersOf]), True.intro⟩
  | @step history run next move reached possible ih =>
    obtain ⟨books, right⟩ := ih
    cases move with
    | coordinator =>
      simp only [event?, Option.toList_none, List.append_nil]
      obtain ⟨users, counters, received, completion⟩ := coordinate?_frame possible
      exact ⟨books.transfer users counters received completion, right.coordinate books possible⟩
    | other move =>
      obtain ⟨population, moved, rfl⟩ := Option.map_eq_some_iff.mp possible
      exact ⟨books.step moved, right.step books moved⟩

end LoadRun

end ChatHub
