import ChatHub.Proofs.Load.Step
/-!
What the users of a load test do, as a history beside the run. The coordinator, the users and
everyone else take their steps in any order, so the runs that can come of a beginning are the
states that any sequence of moves reaches.
-/

set_option autoImplicit false

namespace ChatHub

namespace Population

variable {population : Population} {move : Move}

/-- What the user that a move is about did with it. -/
def event? (before : Population) (move : Move) (after : Population) :
    Option (Nat × UserEvent) := do
  let index ← move.user?
  let user ← before.users[index]?
  let moved ← after.users[index]?
  let event ← user.phase.event? before.stopwatch moved.phase
  some (index, event)

theorem event?_setUser {index : Nat} {user moved : User} {after : Population}
    (about : move.user? = some index) (found : population.users[index]? = some user)
    (effect : Effect population after user moved) :
    population.event? move (after.setUser index moved) =
      (user.phase.event? population.stopwatch moved.phase).map (index, ·) := by
  have there : (population.users.set index moved)[index]? = some moved := by
    rw [List.getElem?_set_self', found]
    rfl
  simp only [event?, about, found, setUser, effect.users, there, Option.bind_eq_bind,
    Option.bind_some]
  cases user.phase.event? population.stopwatch moved.phase <;> rfl

end Population

/-! ## Runs -/

namespace LoadRun

/-- What a user did with a move. -/
def event? (before : LoadRun) (move : LoadMove) (after : LoadRun) : Option (Nat × UserEvent) :=
  match move with
  | .coordinator => none
  | .other move => before.population.event? move after.population

/-- What can come of a run, and what its users have done until then. -/
inductive Reached (calendar : Nat → String) (first : LoadRun) :
    List (Nat × UserEvent) → LoadRun → Prop where
  | start : Reached calendar first [] first
  | step {history : List (Nat × UserEvent)} {run next : LoadRun} {move : LoadMove}
      (reached : Reached calendar first history run)
      (possible : run.step? calendar move = some next) :
      Reached calendar first (history ++ (run.event? move next).toList) next

/-- Takes moves in order and lists what the users do, absent if a move is not possible. -/
def follow? (calendar : Nat → String) (run : LoadRun) :
    List LoadMove → Option (List (Nat × UserEvent) × LoadRun)
  | [] => some ([], run)
  | move :: rest => do
    let next ← run.step? calendar move
    let (history, last) ← next.follow? calendar rest
    some ((run.event? move next).toList ++ history, last)

theorem Reached.follow {calendar : Nat → String} {first run last : LoadRun}
    {past history : List (Nat × UserEvent)} (reached : Reached calendar first past run)
    (moves : List LoadMove) (followed : run.follow? calendar moves = some (history, last)) :
    Reached calendar first (past ++ history) last := by
  induction moves generalizing past run history with
  | nil =>
    cases followed
    rw [List.append_nil]
    exact reached
  | cons move rest ih =>
    simp only [follow?, Option.bind_eq_bind, Option.bind_eq_some_iff] at followed
    obtain ⟨next, possible, ⟨later, end_⟩, followed, result⟩ := followed
    cases result
    rw [← List.append_assoc]
    exact ih (reached.step possible) followed

end LoadRun

/-! ## Counting events -/

namespace UserEvent

def counts (counted : Counted) (event : UserEvent) : Bool :=
  event.counted? = some counted

def isMeasured (event : UserEvent) : Bool :=
  event.latency?.isSome

def isConnected (event : UserEvent) : Bool :=
  event = .connected

/-- Whether a user left while the answer to its last probe was awaited. -/
def leftAwaiting : UserEvent → Bool
  | left awaiting _ => awaiting
  | _ => false

end UserEvent

namespace History

variable (test : UserEvent → Bool)

/-- How many events of a kind there are. -/
def tally (history : List (Nat × UserEvent)) : Nat :=
  history.countP fun entry => test entry.2

/-- How many events of a kind one user has. -/
def tallyOf (index : Nat) (history : List (Nat × UserEvent)) : Nat :=
  history.countP fun entry => entry.1 = index && test entry.2

/-- The users that have events of a kind, once for each. -/
def usersWith (history : List (Nat × UserEvent)) : List Nat :=
  (history.filter fun entry => test entry.2).map Prod.fst

/-- The latencies that were recorded. -/
def latencies (history : List (Nat × UserEvent)) : List Nat :=
  history.filterMap fun entry => entry.2.latency?

theorem tally_append (history : List (Nat × UserEvent)) (index : Nat) (event : Option UserEvent) :
    tally test (history ++ (event.map (index, ·)).toList) =
      tally test history + (event.any test).toNat := by
  cases event with
  | none => simp [tally]
  | some event => cases verdict : test event <;> simp [tally, List.countP_append, verdict]

theorem tallyOf_append (history : List (Nat × UserEvent)) (index other : Nat)
    (event : Option UserEvent) :
    tallyOf test other (history ++ (event.map (index, ·)).toList) =
      tallyOf test other history + if index = other then (event.any test).toNat else 0 := by
  cases event with
  | none => simp [tallyOf]
  | some event =>
    by_cases same : index = other <;> cases verdict : test event <;>
      simp [tallyOf, List.countP_append, verdict, same]

theorem latencies_append (history : List (Nat × UserEvent)) (index : Nat)
    (event : Option UserEvent) :
    latencies (history ++ (event.map (index, ·)).toList) =
      latencies history ++ (event.bind UserEvent.latency?).toList := by
  cases event with
  | none => simp [latencies]
  | some event => cases measured : event.latency? <;> simp [latencies, measured]

theorem length_latencies (history : List (Nat × UserEvent)) :
    (latencies history).length = tally UserEvent.isMeasured history := by
  simp only [latencies, List.length_filterMap_eq_countP, tally, UserEvent.isMeasured]

theorem length_usersWith (history : List (Nat × UserEvent)) :
    (usersWith test history).length = tally test history := by
  rw [usersWith, List.length_map, tally, List.countP_eq_length_filter]

theorem count_usersWith (history : List (Nat × UserEvent)) (index : Nat) :
    (usersWith test history).count index = tallyOf test index history := by
  simp only [usersWith, tallyOf, List.count_eq_countP, List.countP_map, List.countP_filter]
  congr 1

end History

end ChatHub
