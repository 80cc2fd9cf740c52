import ChatHub.Proofs.Load.Task
import ChatHub.Proofs.Load.TakingTurns
/-!
The virtual clock takes the steps of a load test in one of the orders that are possible. Main
statements: `settle_spec`, by which only tasks run while time stands still, and until none can do
anything, and `runUntil_spec`, by which whatever they preserve holds of the computed schedule.
-/

set_option autoImplicit false

namespace ChatHub

variable {calendar : Nat → String}

/-- Whether a move is a step of the coordinator, a user or a pump. -/
def LoadMove.isTask : LoadMove → Bool
  | .coordinator => true
  | .other move => move.isTask

namespace LoadRun

theorem Reached.trans {first run last : LoadRun} {past history : List (Nat × UserEvent)}
    (reached : Reached calendar first past run) (later : Reached calendar run history last) :
    Reached calendar first (past ++ history) last := by
  induction later with
  | start =>
    rw [List.append_nil]
    exact reached
  | step _ possible ih =>
    rw [← List.append_assoc]
    exact ih.step possible

/-- Whether a run can become another one. -/
def Leads (calendar : Nat → String) (run next : LoadRun) : Prop :=
  ∃ history, Reached calendar run history next

theorem Leads.trans {first run last : LoadRun} (leads : Leads calendar first run)
    (later : Leads calendar run last) : Leads calendar first last := by
  obtain ⟨past, reached⟩ := leads
  obtain ⟨history, further⟩ := later
  exact ⟨past ++ history, reached.trans further⟩

theorem Leads.of_step {run next : LoadRun} (move : LoadMove)
    (possible : run.step? calendar move = some next) : Leads calendar run next :=
  ⟨_, Reached.start.step possible⟩

/-- A step of the coordinator, a user or a pump. -/
def AnyTask (calendar : Nat → String) (run next : LoadRun) : Prop :=
  ∃ move : LoadMove, move.isTask = true ∧ run.step? calendar move = some next

/-- Whether a run can become another one by steps of its tasks alone. -/
abbrev Works (calendar : Nat → String) : LoadRun → LoadRun → Prop :=
  Relation.ReflTransGen (AnyTask calendar)

/-- Whether no task can do anything at the moment. -/
def Idle (calendar : Nat → String) (run : LoadRun) : Prop :=
  ∀ move : LoadMove, move.isTask = true → run.step? calendar move = none

end LoadRun

/-! ## Users and pumps -/

namespace Population

/-- A step of a user or a pump. -/
def AnyTask (calendar : Nat → String) (population next : Population) : Prop :=
  ∃ move : Move, move.isTask = true ∧ population.step? calendar move = some next

private theorem turned_takeAll (calendar : Nat → String) (population : Population)
    (moves : List Move) (tasks : ∀ move ∈ moves, move.isTask = true) :
    Turned (AnyTask calendar) population (population.takeAll calendar moves) := by
  induction moves generalizing population with
  | nil => exact .still
  | cons move rest ih =>
    have later := fun population =>
      ih population fun other member => tasks other (List.mem_cons_of_mem _ member)
    simp only [takeAll]
    cases possible : population.step? calendar move with
    | none => exact later population
    | some next =>
      have first : AnyTask calendar population next :=
        ⟨move, tasks move List.mem_cons_self, possible⟩
      exact .moved (.head' first (later next).works)

private theorem turned_runUser (calendar : Nat → String) (index steps : Nat)
    (population : Population) :
    Turned (AnyTask calendar) population (runUser calendar index steps population) := by
  induction steps generalizing population with
  | zero => exact .still
  | succ steps ih =>
    have taken := turned_takeAll calendar population [.cancel index, .proceed index]
      (by simp [Move.isTask])
    simp only [runUser]
    split
    · rename_i next moved
      rw [moved] at taken
      exact .moved ((taken.path rfl).trans_left (ih next).works)
    · exact .still

private theorem turned_runUsers (calendar : Nat → String) (indices : List Nat)
    (population : Population) :
    Turned (AnyTask calendar) population (population.runUsers calendar indices) := by
  induction indices generalizing population with
  | nil => exact .still
  | cons index rest ih => exact (turned_runUser calendar index stepLimit population).or (ih _)

theorem turned_turn (calendar : Nat → String) (population : Population) :
    Turned (AnyTask calendar) population (population.turn calendar) :=
  (turned_runUsers calendar population.indices population).or
    (turned_takeAll calendar _ _ (by simp [Move.isTask]))

/-! ### Turns in which nobody moved -/

private theorem step?_eq_none_of_takeAll {population : Population} {moves : List Move}
    (still : (population.takeAll calendar moves).1 = false) :
    ∀ move ∈ moves, population.step? calendar move = none := by
  induction moves with
  | nil => exact fun _ member => nomatch member
  | cons move rest ih =>
    simp only [takeAll] at still
    cases possible : population.step? calendar move with
    | none =>
      rw [possible] at still
      exact List.forall_mem_cons.mpr ⟨possible, ih still⟩
    | some next =>
      rw [possible] at still
      cases still

private theorem step?_eq_none_of_runUser {population : Population} {index steps : Nat}
    (still : (runUser calendar index (steps + 1) population).1 = false) :
    population.step? calendar (.cancel index) = none ∧
      population.step? calendar (.proceed index) = none := by
  simp only [runUser] at still
  split at still
  · cases still
  · rename_i next nothing
    have stuck := step?_eq_none_of_takeAll (congrArg Prod.fst nothing)
    exact ⟨stuck _ (by simp), stuck _ (by simp)⟩

private theorem step?_eq_none_of_runUsers {population : Population} {indices : List Nat}
    (still : (population.runUsers calendar indices).1 = false) :
    ∀ index ∈ indices, population.step? calendar (.cancel index) = none ∧
      population.step? calendar (.proceed index) = none := by
  induction indices with
  | nil => exact fun _ member => nomatch member
  | cons index rest ih =>
    simp only [runUsers, Bool.or_eq_false_iff] at still
    obtain ⟨first, later⟩ := still
    rw [(turned_runUser calendar index stepLimit population).same first] at later
    exact List.forall_mem_cons.mpr ⟨step?_eq_none_of_runUser first, ih later⟩

private theorem step?_eq_none_of_absent {population : Population} {move : Move} {index : Nat}
    (about : move.user? = some index) (absent : index ∉ population.indices) :
    population.step? calendar move = none := by
  have nobody : population.users[index]? = none := by
    rw [List.getElem?_eq_none_iff]
    simpa [indices] using absent
  cases move <;> cases about <;> simp [step?, nobody]

theorem proceedUser?_eq_none {population : Population} {index : Nat} {user : User}
    (stuck : population.step? calendar (.proceed index) = none)
    (found : population.users[index]? = some user) : population.proceedUser? user = none := by
  rw [step?, found] at stuck
  cases proceeds : population.proceedUser? user with
  | none => rfl
  | some next => simp [proceeds] at stuck

theorem step?_eq_none_of_turn {population : Population}
    (still : (population.turn calendar).1 = false) {move : Move} (isTask : move.isTask = true) :
    population.step? calendar move = none := by
  simp only [turn, Bool.or_eq_false_iff] at still
  obtain ⟨nobody, pumps⟩ := still
  have users := step?_eq_none_of_runUsers nobody
  rw [(turned_runUsers calendar population.indices population).same nobody] at pumps
  have each := step?_eq_none_of_takeAll pumps
  by_cases there : ∃ index ∈ population.indices, move.user? = some index
  · obtain ⟨index, inside, about⟩ := there
    cases move with
    | cancel other =>
      cases about
      exact (users index inside).1
    | proceed other =>
      cases about
      exact (users index inside).2
    | pump other =>
      cases about
      exact each _ (List.mem_map_of_mem inside)
    | _ => cases isTask
  · obtain ⟨index, about⟩ := Move.user?_of_isTask isTask
    exact step?_eq_none_of_absent about fun inside => there ⟨index, inside, about⟩

theorem moveTo_of_lt {population : Population} {time : Nat} (ahead : population.now < time) :
    population.moveTo time = { population with now := time } := by
  rw [moveTo, Nat.max_eq_right (Nat.le_of_lt ahead)]

theorem moveTo_of_le {population : Population} {time : Nat} (passed : time ≤ population.now) :
    population.moveTo time = population := by
  rw [moveTo, Nat.max_eq_left passed]

/-- The users and their pumps take turns. -/
def turns (calendar : Nat → String) : Turns Population where
  task := AnyTask calendar
  turn := turn calendar
  turned := turned_turn calendar

end Population

/-! ## The coordinator among them -/

namespace LoadRun

variable {run : LoadRun}

private theorem anyTask_of_coordinate? {next : LoadRun} (possible : run.coordinate? = some next) :
    AnyTask calendar run next :=
  ⟨.coordinator, rfl, possible⟩

/-- Users and pumps do not care what the coordinator is at. -/
theorem anyTask_of_users (run : LoadRun) {before after : Population}
    (step : before.AnyTask calendar after) :
    AnyTask calendar { run with population := before } { run with population := after } := by
  obtain ⟨move, isTask, possible⟩ := step
  refine ⟨.other move, isTask, ?_⟩
  simp only [step?, possible, Option.map_some]

private theorem turned_lead (calendar : Nat → String) (steps : Nat) (run : LoadRun) :
    Turned (AnyTask calendar) run (lead steps run) := by
  induction steps generalizing run with
  | zero => exact .still
  | succ steps ih =>
    simp only [lead]
    split
    · rename_i next possible
      split at possible
      · cases possible
      · exact .moved (.head' (anyTask_of_coordinate? possible) (ih next).works)
    · exact .still

theorem turned_turn (calendar : Nat → String) (run : LoadRun) :
    Turned (AnyTask calendar) run (run.turn calendar) := by
  have led := turned_lead calendar 3 run
  have users := (Population.turned_turn calendar (run.lead 3).2.population).lift
    (fun population => { (run.lead 3).2 with population }) fun _ _ => anyTask_of_users _
  simp only [turn]
  split
  · rename_i moved
    exact .moved ((users.path moved).trans_right led.works)
  · split
    · rename_i moved
      exact .moved (led.path moved)
    · rename_i still
      rw [led.same (Bool.eq_false_iff.mpr still)]
      split
      · rename_i next possible
        exact .moved (.single (anyTask_of_coordinate? possible))
      · exact .still

theorem idle_of_turn (still : (run.turn calendar).1 = false) :
    Idle calendar run := by
  simp only [turn] at still
  split at still
  · cases still
  · rename_i nobody
    split at still
    · cases still
    · rename_i unled
      have same := (turned_lead calendar 3 run).same (Bool.eq_false_iff.mpr unled)
      rw [same] at nobody still
      split at still
      · cases still
      · rename_i stuck
        intro move isTask
        cases move with
        | coordinator => exact stuck
        | other move =>
          have none := Population.step?_eq_none_of_turn (Bool.eq_false_iff.mpr nobody) isTask
          rw [step?, none, Option.map_none]

/-- The coordinator, the users and their pumps take turns. -/
def turns (calendar : Nat → String) : Turns LoadRun where
  task := AnyTask calendar
  turn := turn calendar
  turned := turned_turn calendar

theorem settle_spec {settled : LoadRun} (result : run.settle calendar = some settled) :
    Works calendar run settled ∧ Idle calendar settled := by
  have result : settleWithin (turns calendar).turn Population.turnLimit run = some settled := result
  obtain ⟨works, still⟩ := Turns.settle_spec result
  exact ⟨works, idle_of_turn still⟩

/-! ## Time -/

theorem moveTo_of_lt {time : Nat} (ahead : run.population.now < time) :
    run.moveTo time = { run with population := { run.population with now := time } } := by
  rw [moveTo, Population.moveTo_of_lt ahead]

theorem moveTo_of_le {time : Nat} (passed : time ≤ run.population.now) : run.moveTo time = run := by
  rw [moveTo, Population.moveTo_of_le passed]

theorem now_moveTo_of_lt {time : Nat} (ahead : run.population.now < time) :
    (run.moveTo time).population.now = time := by
  rw [moveTo_of_lt ahead]

theorem reached_moveTo (run : LoadRun) (time : Nat) :
    Reached calendar run [] (run.moveTo time) := by
  rcases Nat.lt_or_ge run.population.now time with ahead | passed
  · have moved : run.step? calendar (.other (.advance time)) = some (run.moveTo time) := by
      simp only [step?, Population.step?, if_pos ahead, Option.map_some, moveTo_of_lt ahead]
    exact Reached.start.step moved
  · rw [moveTo_of_le passed]
    exact .start

/-- What tasks and the movements of time on the way preserve holds of the computed schedule. Unless
there is a report by then, no timer was left. -/
theorem runUntil_spec {Holds : LoadRun → Prop} {last : LoadRun} {moment : Nat}
    (works : ∀ run next, Holds run → Works calendar run next → Holds next)
    (timer : ∀ settled time, Holds settled → Idle calendar settled →
      settled.stage.report? = none → settled.nextTimer? = some time → Holds (settled.moveTo time))
    (rest : ∀ settled, Holds settled → Idle calendar settled → settled.stage.report? = none →
      (∀ time, settled.nextTimer? = some time → moment < time) → Holds (settled.moveTo moment))
    (holds : Holds run) (result : run.runUntil calendar moment = some last) :
    Holds last ∧ (last.stage.report?.isSome = true ∨
      ∃ settled, Holds settled ∧ Idle calendar settled ∧ settled.stage.report? = none ∧
        ∀ time, settled.nextTimer? = some time → moment < time) := by
  rw [runUntil] at result
  generalize moment - run.population.now + 2 = fuel at result
  induction fuel generalizing run with
  | zero => cases result
  | succ fuel ih =>
    simp only [runUntilWithin, Option.bind_eq_bind, Option.bind_eq_some_iff] at result
    obtain ⟨settled, settles, result⟩ := result
    obtain ⟨worked, idle⟩ := settle_spec settles
    have there := works run settled holds worked
    split at result
    · rename_i reported
      cases result
      exact ⟨there, .inl reported⟩
    · rename_i unreported
      have unreported : settled.stage.report? = none := by simpa using unreported
      split at result
      · rename_i time due
        obtain ⟨isTimer, -⟩ := Option.filter_eq_some_iff.mp due
        exact ih (timer settled time there idle unreported isTimer) result
      · rename_i nothing
        have late : ∀ time, settled.nextTimer? = some time → moment < time := by
          intro time isTimer
          rw [isTimer] at nothing
          exact Nat.lt_of_not_le (by simpa using nothing)
        have later := rest settled there idle unreported late
        exact ⟨works _ _ later (settle_spec result).1,
          .inr ⟨settled, there, idle, unreported, late⟩⟩

end LoadRun

end ChatHub
