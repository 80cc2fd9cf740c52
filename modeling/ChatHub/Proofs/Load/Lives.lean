import ChatHub.Proofs.Load.Clock
/-!
A population among everyone that has to do with it: its users, the coordinator of a load test and
the other peers of the hub, in any order. Main statements: `Happens.user`, what one occurrence
means for one user, and `LoadRun.Reached.lives`, by which load tests are a case of it.
-/

set_option autoImplicit false

namespace ChatHub

/-- Something that happens to a population, by itself, by its coordinator or by other peers. -/
inductive Occurrence where
  | move (move : Move)
  | opened
  | cancelled
  /-- The coordinator collects samples. -/
  | collected
  | peer (event : Hub.Event)
  deriving DecidableEq, Repr

/-- The user that an occurrence is about. -/
def Occurrence.user? : Occurrence → Option Nat
  | .move taken => taken.user?
  | _ => none

namespace Population

variable {calendar : Nat → String} {before after : Population} {occurrence : Occurrence}

/-- What can happen at a moment. Other peers do what they like with what is not a user's. -/
inductive Happens (calendar : Nat → String) (before : Population) :
    Occurrence → Population → Prop where
  | move {move : Move} {after : Population}
      (possible : before.step? calendar move = some after) :
      Happens calendar before (.move move) after
  | opened : Happens calendar before .opened before.openStart
  | cancelled : Happens calendar before .cancelled before.cancelAll
  | beginPhase :
      Happens calendar before .collected { before with recorder := before.recorder.beginPhase }
  | gather : Happens calendar before .collected { before with recorder := before.recorder.gather }
  | peer {event : Hub.Event} {hub : Hub} (step : Hub.Step before.hub event hub)
      (foreign : ∀ user ∈ before.users, user.connection? ≠ some event.subject) :
      Happens calendar before (.peer event) { before with hub }

/-- Something happens that is not about a user. -/
structure Aside (before : Population) (occurrence : Occurrence) (after : Population) : Prop where
  about : occurrence.user? = none
  users : after.users = before.users
  counters : after.counters = before.counters
  received : after.recorder.received = before.recorder.received
  completion : after.completion = before.completion
  probes : after.probes = before.probes
  settings : after.settings = before.settings
  now : before.now ≤ after.now
  cancelled : before.cancelled = true → after.cancelled = true

private theorem aside_of_step? {move : Move} (about : move.user? = none)
    (possible : before.step? calendar move = some after) : Aside before (.move move) after := by
  cases move with
  | publish origin message =>
    cases possible
    exact ⟨rfl, rfl, rfl, rfl, rfl, rfl, rfl, Nat.le_refl _, id⟩
  | advance time =>
    simp only [step?] at possible
    split at possible
    · rename_i ahead
      cases possible
      exact ⟨rfl, rfl, rfl, rfl, rfl, rfl, rfl, Nat.le_of_lt ahead, id⟩
    · cases possible
  | measure reading =>
    simp only [step?] at possible
    split at possible
    · cases possible
      exact ⟨rfl, rfl, rfl, rfl, rfl, rfl, rfl, Nat.le_refl _, id⟩
    · cases possible
  | _ => cases about

theorem Happens.cases (happens : before.Happens calendar occurrence after) :
    (∃ move index user moved, occurrence = .move move ∧
      before.Turn move index user moved after) ∨ before.Aside occurrence after := by
  cases happens with
  | @move move _ possible =>
    cases about : move.user? with
    | none => exact .inr (aside_of_step? about possible)
    | some index =>
      obtain ⟨user, moved, turn⟩ := turn_of_step? about possible
      exact .inl ⟨move, index, user, moved, rfl, turn⟩
  | cancelled => exact .inr ⟨rfl, rfl, rfl, rfl, rfl, rfl, rfl, Nat.le_refl _, fun _ => rfl⟩
  | gather =>
    have received := LatencyRecorder.received_gather before.recorder
    exact .inr ⟨rfl, rfl, rfl, received, rfl, rfl, rfl, Nat.le_refl _, id⟩
  | opened | beginPhase | peer =>
    exact .inr ⟨rfl, rfl, rfl, rfl, rfl, rfl, rfl, Nat.le_refl _, id⟩

/-! ## One occurrence -/

section Happens

variable (happens : before.Happens calendar occurrence after)

include happens

theorem Happens.settings : after.settings = before.settings := by
  rcases happens.cases with ⟨_, _, _, _, _, turn⟩ | aside
  · exact turn.signals.settings
  · exact aside.settings

theorem Happens.now_le : before.now ≤ after.now := by
  rcases happens.cases with ⟨_, _, _, _, _, turn⟩ | aside
  · exact Nat.le_of_eq turn.signals.now.symm
  · exact aside.now

theorem Happens.cancelled_of_cancelled (cancelled : before.cancelled = true) :
    after.cancelled = true := by
  rcases happens.cases with ⟨_, _, _, _, _, turn⟩ | aside
  · exact turn.signals.cancelled.trans cancelled
  · exact aside.cancelled cancelled

theorem Happens.length_users : after.users.length = before.users.length := by
  rcases happens.cases with ⟨_, _, _, _, _, turn⟩ | aside
  · rw [turn.users, List.length_set]
  · rw [aside.users]

/-- One user at one moment: either something is about it, or it stays as it is. -/
theorem Happens.user {index : Nat} {moved : User} (found : after.users[index]? = some moved) :
    ∃ user, before.users[index]? = some user ∧
      ((∃ move, occurrence = .move move ∧ before.Turn move index user moved after) ∨
        (occurrence.user? ≠ some index ∧ moved = user)) := by
  rcases happens.cases with ⟨move, other, user, next, rfl, turn⟩ | aside
  · rw [turn.getElem?] at found
    by_cases same : index = other
    · rw [if_pos same] at found
      cases found
      subst same
      exact ⟨user, turn.found, .inl ⟨move, rfl, turn⟩⟩
    · rw [if_neg same] at found
      refine ⟨moved, found, .inr ⟨?_, rfl⟩⟩
      rw [Occurrence.user?, turn.about]
      exact fun equal => same (Option.some.inj equal).symm
  · rw [aside.users] at found
    refine ⟨moved, found, .inr ⟨?_, rfl⟩⟩
    rw [aside.about]
    exact nofun

theorem Happens.equipped (equipped : ∀ user ∈ before.users, user.Equipped) :
    ∀ user ∈ after.users, user.Equipped := by
  intro moved member
  obtain ⟨index, found⟩ := List.mem_iff_getElem?.mp member
  obtain ⟨user, was, ⟨move, _, turn⟩ | ⟨_, rfl⟩⟩ := happens.user found
  · obtain ⟨rest, effect, _⟩ := turn.effect
    exact effect.equipped (equipped user (List.mem_of_getElem? was))
  · exact equipped moved (List.mem_of_getElem? was)

end Happens

end Population

/-! ## Lives -/

/-- An occurrence between the population before it and the one after it. -/
structure Moment where
  before : Population
  occurrence : Occurrence
  after : Population

namespace Population

variable {calendar : Nat → String} {first last : Population} {moments : List Moment}

/-- What can come of a population, moment by moment. -/
inductive Lives (calendar : Nat → String) (first : Population) :
    List Moment → Population → Prop where
  | start : Lives calendar first [] first
  | step {moments : List Moment} {before after : Population} {occurrence : Occurrence}
      (lives : Lives calendar first moments before)
      (happens : before.Happens calendar occurrence after) :
      Lives calendar first (moments ++ [⟨before, occurrence, after⟩]) after

/-- Users at their beginning, whatever they connect to and whatever has been signalled already. -/
structure Fresh (population : Population) : Prop where
  connecting : ∀ user ∈ population.users, ∃ due, user.phase = .connecting due
  handle : ∀ user ∈ population.users, user.handle.isSome = true
  completion : population.completion.remaining = population.users.length
  counters : population.counters = {}

theorem Fresh.equipped (fresh : first.Fresh) : ∀ user ∈ first.users, user.Equipped := by
  intro user member
  obtain ⟨due, phase⟩ := fresh.connecting user member
  exact
    { handle := by rw [fresh.handle user member, phase]; rfl
      link := fun dropped => by rw [phase] at dropped; cases dropped }

theorem Lives.trans {earlier later : List Moment} {middle : Population}
    (lives : first.Lives calendar earlier middle) (more : middle.Lives calendar later last) :
    first.Lives calendar (earlier ++ later) last := by
  induction more with
  | start =>
    rw [List.append_nil]
    exact lives
  | step _ happens ih =>
    rw [← List.append_assoc]
    exact ih.step happens

/-- Takes moves in order and lists the moments, absent if a move is not possible. -/
def follow? (calendar : Nat → String) (population : Population) :
    List Move → Option (List Moment × Population)
  | [] => some ([], population)
  | move :: rest => do
    let next ← population.step? calendar move
    let (moments, last) ← next.follow? calendar rest
    some (⟨population, .move move, next⟩ :: moments, last)

theorem Lives.follow {earlier later : List Moment} {middle : Population}
    (lives : first.Lives calendar earlier middle) (moves : List Move)
    (followed : middle.follow? calendar moves = some (later, last)) :
    first.Lives calendar (earlier ++ later) last := by
  induction moves generalizing earlier middle later with
  | nil =>
    cases followed
    rw [List.append_nil]
    exact lives
  | cons move rest ih =>
    simp only [follow?, Option.bind_eq_bind, Option.bind_eq_some_iff] at followed
    obtain ⟨next, possible, ⟨moments, end_⟩, followed, result⟩ := followed
    cases result
    have more := ih (lives.step (.move possible)) followed
    rwa [List.append_assoc] at more

section Lives

variable (lives : first.Lives calendar moments last)

include lives

theorem Lives.settings : last.settings = first.settings := by
  induction lives with
  | start => rfl
  | step _ happens ih => exact happens.settings.trans ih

theorem Lives.now_le : first.now ≤ last.now := by
  induction lives with
  | start => exact Nat.le_refl _
  | step _ happens ih => exact Nat.le_trans ih happens.now_le

theorem Lives.cancelled_of_cancelled (cancelled : first.cancelled = true) :
    last.cancelled = true := by
  induction lives with
  | start => exact cancelled
  | step _ happens ih => exact happens.cancelled_of_cancelled ih

theorem Lives.length_users : last.users.length = first.users.length := by
  induction lives with
  | start => rfl
  | step _ happens ih => exact happens.length_users.trans ih

theorem Lives.equipped (equipped : ∀ user ∈ first.users, user.Equipped) :
    ∀ user ∈ last.users, user.Equipped := by
  induction lives with
  | start => exact equipped
  | step _ happens ih => exact happens.equipped ih

end Lives

end Population

/-! ## Load tests -/

namespace LoadRun

variable {calendar : Nat → String}

theorem step?_lives {run next : LoadRun} {move : LoadMove}
    (possible : run.step? calendar move = some next) :
    ∃ moments, run.population.Lives calendar moments next.population := by
  cases move with
  | coordinator =>
    obtain ⟨stage, population, led, rfl⟩ := coordinate?_led possible
    generalize run.stage = was at led
    cases led with
    | start => exact ⟨_, .step .start .opened⟩
    | stop => exact ⟨_, .step .start .cancelled⟩
    | beginPhase => exact ⟨_, .step .start .beginPhase⟩
    | gather => exact ⟨_, .step .start .gather⟩
    | complete | expire | lookAround | readTimeouts | report => exact ⟨[], .start⟩
  | other move =>
    obtain ⟨after, moved, rfl⟩ := Option.map_eq_some_iff.mp possible
    exact ⟨_, .step .start (.move moved)⟩

theorem Reached.lives {first run : LoadRun} {history : List (Nat × UserEvent)}
    (reached : Reached calendar first history run) :
    ∃ moments, first.population.Lives calendar moments run.population := by
  induction reached with
  | start => exact ⟨[], .start⟩
  | step _ possible ih =>
    obtain ⟨earlier, lives⟩ := ih
    obtain ⟨later, more⟩ := step?_lives possible
    exact ⟨earlier ++ later, lives.trans more⟩

theorem fresh_start {config : BenchConfig} {duration : Nat} {hub : Hub}
    {plans : List ConnectPlan} {first : LoadRun}
    (started : start config duration hub plans = .ok first) : first.population.Fresh := by
  unfold start at started
  split at started
  · cases started
  · split at started
    · cases started
    · cases started
      exact
        { connecting := fun user member => (of_mem_usersOf member).1
          handle := fun user member => by rw [(of_mem_usersOf member).2]; rfl
          completion := by simp [usersOf]
          counters := rfl }

end LoadRun

end ChatHub
