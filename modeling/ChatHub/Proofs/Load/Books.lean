import ChatHub.Proofs.Load.History
import Mathlib.Algebra.BigOperators.Group.List.Basic
/-!
The books of a load test: what the counters, the recorder and the completion gate say is what the
users have done. Main statements: `Books.step` for a single move, and `Books.idle` once every user
is done.
-/

set_option autoImplicit false

namespace ChatHub

/-- How often a counter was counted up. -/
def Counters.get (counters : Counters) : Counted → Nat
  | .probe => counters.probes
  | .timeout => counters.timeouts
  | .connectFailure => counters.connectFailures
  | .linkFailure => counters.linkFailures

private theorem Counters.get_count (counters : Counters) (counted other : Counted) :
    (counters.count counted).get other = counters.get other + if counted = other then 1 else 0 := by
  cases counted <;> cases other <;> rfl

/-! ## One user -/

namespace Phase

/-- How often a user may have connected and left its loop when it is in a phase. -/
def Stands : Phase → Nat → Nat → Prop
  | .connecting _, connected, left => connected = 0 ∧ left = 0
  | .stopping _, connected, left | .stopped _, connected, left | .flushed _, connected, left
  | .ended _, connected, left => left ≤ connected ∧ connected ≤ 1
  | _, connected, left => connected = 1 ∧ left = 0

theorem Stands.bounds {phase : Phase} {connected left : Nat}
    (stands : phase.Stands connected left) : left ≤ connected ∧ connected ≤ 1 := by
  cases phase <;> simp only [Stands] at stands <;> omega

variable {phase next : Phase} (stopwatch : Nat)

theorem Next.stands (course : phase.Next next) {connected left : Nat}
    (stands : phase.Stands connected left) :
    next.Stands (connected + ((phase.event? stopwatch next).any UserEvent.isConnected).toNat)
      (left + ((phase.event? stopwatch next).any UserEvent.hasLeft).toNat) := by
  cases course with
  | leave exit suspended linked exits =>
    cases phase with
    | waitingForStart | awaiting _ _ | pacing _ =>
      obtain ⟨rfl, rfl⟩ := stands
      exact ⟨Nat.le_refl 1, Nat.le_refl 1⟩
    | connecting _ => cases linked
    | _ => cases suspended
  | lose state exit exits =>
    obtain ⟨rfl, rfl⟩ := stands
    exact ⟨Nat.le_refl 1, Nat.le_refl 1⟩
  | connect due =>
    obtain ⟨rfl, rfl⟩ := stands
    exact ⟨rfl, rfl⟩
  | fail due =>
    obtain ⟨rfl, rfl⟩ := stands
    exact ⟨Nat.le_refl 0, Nat.zero_le 1⟩
  | giveUpConnecting due exit exits =>
    obtain ⟨rfl, rfl⟩ := stands
    rcases exits with rfl | rfl <;> exact ⟨Nat.le_refl 0, Nat.zero_le 1⟩
  | _ => exact stands

theorem Next.not_isEnded (course : phase.Next next) : phase.isEnded = false := by
  cases course with
  | leave exit suspended linked exits => cases phase <;> first | rfl | cases suspended
  | _ => rfl

theorem of_isEnded (ended : phase.isEnded = true) : ∃ exit, phase = .ended exit := by
  cases phase with
  | ended exit => exact ⟨exit, rfl⟩
  | _ => cases ended

/-- Only the last step of all is an end. -/
theorem Next.finished (course : phase.Next next) (changed : ¬ next.isEnded = phase.isEnded) :
    ∃ exit, phase = .flushed exit ∧ next = .ended exit := by
  cases course with
  | finish exit => exact ⟨exit, rfl, rfl⟩
  | leave exit suspended linked exits =>
    cases phase <;> first | exact absurd rfl changed | cases suspended
  | _ => exact absurd rfl changed

/-- A probe stays open until it is measured, times out, or its user leaves. -/
theorem Next.balance (course : phase.Next next) :
    ((phase.event? stopwatch next).any (UserEvent.counts .probe)).toNat + phase.isOpen.toNat =
      ((phase.event? stopwatch next).any UserEvent.isMeasured).toNat +
        ((phase.event? stopwatch next).any (UserEvent.counts .timeout)).toNat +
        ((phase.event? stopwatch next).any UserEvent.leftAwaiting).toNat + next.isOpen.toNat := by
  cases course with
  | leave exit suspended linked exits =>
    rcases exits with rfl | rfl <;> cases phase <;> first | rfl | cases suspended
  | giveUpConnecting due exit exits => rcases exits with rfl | rfl <;> rfl
  | lose state exit exits => rcases exits with rfl | rfl <;> cases state <;> rfl
  | _ => rfl

end Phase

/-! ## All users -/

/-- Replacing one user leaves all the others. -/
theorem perm_set {users : List User} {index : Nat} {user : User}
    (found : users[index]? = some user) (moved : User) :
    ∃ others, users.Perm (user :: others) ∧ (users.set index moved).Perm (moved :: others) := by
  obtain ⟨inside, rfl⟩ := List.getElem?_eq_some_iff.mp found
  have insideSet : index < (users.set index moved).length := by rwa [List.length_set]
  have after := List.getElem_cons_eraseIdx_perm insideSet
  rw [List.getElem_set_self, List.eraseIdx_set_eq] at after
  exact ⟨_, (List.getElem_cons_eraseIdx_perm inside).symm, after.symm⟩

theorem countP_cons_toNat (test : User → Bool) (user : User) (others : List User) :
    (user :: others).countP test = (test user).toNat + others.countP test := by
  rw [List.countP_cons, Nat.add_comm]
  cases test user <;> rfl

/-- How many users are not done yet. -/
def Population.running (population : Population) : Nat :=
  population.users.countP fun user => !user.phase.isEnded

/-- What all users together hold of the samples. -/
def Population.held (population : Population) : Histogram :=
  (population.users.map User.held).sum

/-- How many probes have been counted and not come to anything yet. -/
def Population.openProbes (population : Population) : Nat :=
  population.users.countP fun user => user.phase.isOpen

/-- The books are right: what a population counts is what its users have done. -/
structure Books (history : List (Nat × UserEvent)) (population : Population) : Prop where
  equipped : ∀ user ∈ population.users, user.Equipped
  stands : ∀ (index : Nat) (user : User), population.users[index]? = some user →
    user.phase.Stands (History.tallyOf UserEvent.isConnected index history)
      (History.tallyOf UserEvent.hasLeft index history)
  known : ∀ entry ∈ history, entry.1 < population.users.length
  counters : ∀ counted,
    population.counters.get counted = History.tally (UserEvent.counts counted) history
  balance : History.tally (UserEvent.counts .probe) history =
    History.tally UserEvent.isMeasured history +
      History.tally (UserEvent.counts .timeout) history +
      History.tally UserEvent.leftAwaiting history + population.openProbes
  samples : population.recorder.received + population.held =
    Histogram.ofLatencies (History.latencies history)
  running : population.completion.remaining = population.running

namespace Population.Effect

variable {before after : Population} {user moved : User}

theorem stands (effect : Effect before after user moved) {connected left : Nat}
    (stands : user.phase.Stands connected left) :
    moved.phase.Stands
      (connected + ((user.phase.event? before.stopwatch moved.phase).any
        UserEvent.isConnected).toNat)
      (left + ((user.phase.event? before.stopwatch moved.phase).any UserEvent.hasLeft).toNat) := by
  rcases effect.course with same | course
  · rw [same, Phase.event?_self]
    exact stands
  · exact course.stands _ stands

theorem balance (effect : Effect before after user moved) :
    ((user.phase.event? before.stopwatch moved.phase).any (UserEvent.counts .probe)).toNat +
        user.phase.isOpen.toNat =
      ((user.phase.event? before.stopwatch moved.phase).any UserEvent.isMeasured).toNat +
        ((user.phase.event? before.stopwatch moved.phase).any
          (UserEvent.counts .timeout)).toNat +
        ((user.phase.event? before.stopwatch moved.phase).any UserEvent.leftAwaiting).toNat +
        moved.phase.isOpen.toNat := by
  rcases effect.course with same | course
  · rw [same, Phase.event?_self]
    rfl
  · exact course.balance _

theorem get_counters (effect : Effect before after user moved) (counted : Counted) :
    after.counters.get counted = before.counters.get counted +
      ((user.phase.event? before.stopwatch moved.phase).any (UserEvent.counts counted)).toNat := by
  rw [effect.counters]
  cases user.phase.event? before.stopwatch moved.phase with
  | none => rfl
  | some event =>
    simp only [Option.bind_some, Option.any_some, UserEvent.counts]
    cases event.counted? with
    | none => rfl
    | some other =>
      rw [Option.elim_some, Counters.get_count]
      by_cases same : other = counted <;> simp [same]

/-- What is recorded of one user is what all users together have recorded more than before. -/
theorem recorded (effect : Effect before after user moved) {index : Nat}
    (found : before.users[index]? = some user) :
    (after.setUser index moved).recorder.received + (after.setUser index moved).held =
      before.recorder.received + before.held + Histogram.ofLatencies
        ((user.phase.event? before.stopwatch moved.phase).bind UserEvent.latency?).toList := by
  have users : (after.setUser index moved).users = before.users.set index moved := by
    rw [Population.setUser, effect.users]
  obtain ⟨others, was, replaced⟩ := perm_set found moved
  have change : (after.setUser index moved).recorder.received + moved.held = _ := effect.samples
  rw [Population.held, users, (replaced.map User.held).sum_eq, List.map_cons, List.sum_cons,
    Population.held, (was.map User.held).sum_eq, List.map_cons, List.sum_cons, ← add_assoc, change]
  simp only [add_comm, add_left_comm]

/-- Whoever is done stays done. -/
theorem phase_of_isEnded (effect : Effect before after user moved)
    (ended : user.phase.isEnded = true) : moved.phase = user.phase := by
  rcases effect.course with same | course
  · exact same
  · rw [course.not_isEnded] at ended
    cases ended

theorem remaining (effect : Effect before after user moved) {rest : Nat}
    (running : before.completion.remaining = (!user.phase.isEnded).toNat + rest) :
    after.completion.remaining = (!moved.phase.isEnded).toNat + rest := by
  rw [effect.completion]
  cases was : user.phase.isEnded with
  | true => rw [effect.phase_of_isEnded was, was, if_pos rfl, running, was]
  | false =>
    cases is : moved.phase.isEnded with
    | true =>
      rw [if_neg (by decide), CompletionGate.remaining_countDown, running, was]
      exact (Nat.add_sub_cancel_left 1 rest).trans (Nat.zero_add rest).symm
    | false => rw [if_pos rfl, running, was]

end Population.Effect

namespace Books

variable {history : List (Nat × UserEvent)} {population : Population}

private theorem step_user {index : Nat} {user moved : User} {after : Population}
    (books : Books history population) (found : population.users[index]? = some user)
    (effect : population.Effect after user moved) :
    Books
      (history ++
        ((user.phase.event? population.stopwatch moved.phase).map (index, ·)).toList)
      (after.setUser index moved) := by
  have users : (after.setUser index moved).users = population.users.set index moved := by
    rw [Population.setUser, effect.users]
  obtain ⟨others, before, replaced⟩ := perm_set found moved
  refine
    { equipped := ?_, stands := ?_, known := ?_, counters := ?_, balance := ?_, samples := ?_
      running := ?_ }
  · rw [users]
    intro other member
    rcases List.mem_or_eq_of_mem_set member with old | rfl
    · exact books.equipped other old
    · exact effect.equipped (books.equipped user (List.mem_of_getElem? found))
  · rw [users]
    intro other held there
    rw [History.tallyOf_append, History.tallyOf_append]
    by_cases same : index = other
    · subst same
      rw [List.getElem?_set_self', found] at there
      cases there
      rw [if_pos rfl, if_pos rfl]
      exact effect.stands (books.stands index user found)
    · rw [List.getElem?_set_ne same] at there
      rw [if_neg same, if_neg same]
      exact books.stands other held there
  · rw [users, List.length_set]
    intro entry member
    rcases List.mem_append.mp member with old | new
    · exact books.known entry old
    · obtain ⟨event, -, rfl⟩ := Option.map_eq_some_iff.mp (Option.mem_toList.mp new)
      exact (List.getElem?_eq_some_iff.mp found).1
  · intro counted
    rw [History.tally_append, ← books.counters]
    exact effect.get_counters counted
  · have change := effect.balance
    have balance := books.balance
    rw [Population.openProbes, before.countP_eq, countP_cons_toNat] at balance
    rw [Population.openProbes, users, replaced.countP_eq, countP_cons_toNat]
    simp only [History.tally_append]
    omega
  · rw [effect.recorded found, books.samples, History.latencies_append,
      Histogram.ofLatencies_append]
  · have running := books.running
    rw [Population.running, before.countP_eq, countP_cons_toNat] at running
    rw [Population.running, users, replaced.countP_eq, countP_cons_toNat]
    exact effect.remaining running

/-- Nothing but users, counters, gate and samples is in the books. -/
theorem transfer {next : Population} (books : Books history population)
    (users : next.users = population.users) (counters : next.counters = population.counters)
    (received : next.recorder.received = population.recorder.received)
    (completion : next.completion = population.completion) : Books history next where
  equipped := by rw [users]; exact books.equipped
  stands := by rw [users]; exact books.stands
  known := by rw [users]; exact books.known
  counters := by rw [counters]; exact books.counters
  balance := by rw [Population.openProbes, users]; exact books.balance
  samples := by rw [received, Population.held, users]; exact books.samples
  running := by rw [completion, Population.running, users]; exact books.running

theorem step {calendar : Nat → String} {move : Move} {next : Population}
    (books : Books history population) (possible : population.step? calendar move = some next) :
    Books (history ++ (population.event? move next).toList) next := by
  rcases Population.step?_cases possible with
    ⟨index, user, moved, after, about, found, effect, rfl⟩ |
    ⟨about, users, counters, recorder, completion⟩
  · rw [Population.event?_setUser about found effect]
    exact books.step_user found effect
  · have nobody : population.event? move next = none := by
      simp [Population.event?, about]
    rw [nobody, Option.toList_none, List.append_nil]
    exact books.transfer users counters (congrArg _ recorder) completion

/-! ### Once every user is done -/

theorem isEnded_of_complete (books : Books history population)
    (complete : population.completion.remaining = 0) :
    ∀ user ∈ population.users, user.phase.isEnded = true := by
  intro user member
  rw [books.running, Population.running, List.countP_eq_zero] at complete
  simpa using complete user member

theorem openProbes_of_complete (books : Books history population)
    (complete : population.completion.remaining = 0) : population.openProbes = 0 := by
  refine List.countP_eq_zero.mpr fun user member => ?_
  obtain ⟨exit, ended⟩ := Phase.of_isEnded (books.isEnded_of_complete complete user member)
  rw [ended]
  exact Bool.false_ne_true

private theorem held_of_complete (books : Books history population)
    (complete : population.completion.remaining = 0) : population.held = 0 := by
  refine List.sum_eq_zero fun weight member => ?_
  obtain ⟨user, isUser, rfl⟩ := List.mem_map.mp member
  obtain ⟨exit, ended⟩ := Phase.of_isEnded (books.isEnded_of_complete complete user isUser)
  have dropped := (books.equipped user isUser).dropped (by rw [ended]; rfl)
  rw [User.held, dropped.1]
  rfl

theorem received_of_complete (books : Books history population)
    (complete : population.completion.remaining = 0) :
    population.recorder.received = Histogram.ofLatencies (History.latencies history) := by
  rw [← books.samples, books.held_of_complete complete, add_zero]

/-- Nobody counts anything any more. -/
theorem idle {calendar : Nat → String} {move : Move} {next : Population}
    (books : Books history population) (complete : population.completion.remaining = 0)
    (possible : population.step? calendar move = some next) :
    population.event? move next = none ∧ next.counters = population.counters ∧
      next.completion = population.completion := by
  rcases Population.step?_cases possible with
    ⟨index, user, moved, after, about, found, effect, rfl⟩ |
    ⟨about, users, counters, recorder, completion⟩
  · have ended := books.isEnded_of_complete complete user (List.mem_of_getElem? found)
    have same := effect.phase_of_isEnded ended
    refine ⟨?_, ?_, ?_⟩
    · rw [Population.event?_setUser about found effect, same, Phase.event?_self, Option.map_none]
    · rw [Population.setUser, effect.counters, same, Phase.event?_self]
      rfl
    · rw [Population.setUser, effect.completion, same, if_pos rfl]
  · exact ⟨by simp [Population.event?, about], counters, completion⟩

end Books

end ChatHub
