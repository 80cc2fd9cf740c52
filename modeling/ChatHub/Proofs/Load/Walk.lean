import ChatHub.Proofs.Load.Exits
import ChatHub.Proofs.Load.Samples
/-!
The states of a user as a walk through a graph, with what it counts on the way: a probe on each step
into the wait for an answer, and one sample or one timeout for each wait that comes to its end.
Main statement: `Population.states_walk`.
-/

set_option autoImplicit false

namespace ChatHub

/-- The states that can follow a state. -/
def UserState.successors : UserState → List UserState
  | .connecting => [.waitingForStart, .stopped]
  | .waitingForStart => [.probing, .stopping]
  | .probing => [.awaitingEcho, .stopping]
  | .awaitingEcho => [.probing, .stopping]
  | .stopping => [.stopped]
  | .stopped => []

/-! ## One step of one user -/

namespace Phase

/-- Whether the bound of a wait has run out and has not been counted. -/
def isUnanswered : Phase → Bool
  | .unanswered => true
  | _ => false

/-- Whether the bound of a wait runs out on the way from one phase to another. -/
def expires : Phase → Phase → Bool
  | .awaiting .., .unanswered => true
  | _, _ => false

/-- Whether a user is in its loop, for which the start gate had to be open. -/
def isInLoop : Phase → Bool
  | .connecting _ | .waitingForStart => false
  | phase => !phase.hasLeft

/-- Links are found closed while probing or while waiting for an answer. -/
def IsLostInLoop (phase : Phase) : Prop :=
  ∀ state, phase = .lost state → state = .probing ∨ state = .awaitingEcho

private theorem expires_self (phase : Phase) : phase.expires phase = false := by
  cases phase <;> rfl

section Next

variable {phase next : Phase}

private theorem eq_of_sends (sends : phase.sends next = true) :
    phase = .probing ∧ ∃ sentAt, next = .sent sentAt := by
  cases phase with
  | probing =>
    cases next with
    | sent sentAt => exact ⟨rfl, sentAt, rfl⟩
    | _ => cases sends
  | _ => cases sends

theorem Next.state (course : phase.Next next) (inLoop : phase.IsLostInLoop) :
    next.state = phase.state ∨ next.state ∈ phase.state.successors := by
  cases course with
  | leave exit suspended linked exits =>
    right
    cases phase with
    | connecting due => cases linked
    | waitingForStart | awaiting sentAt deadline | pacing until_ =>
      simp [Phase.state, UserState.successors]
    | _ => cases suspended
  | lose state exit exits =>
    right
    rcases inLoop state rfl with rfl | rfl <;> simp [Phase.state, UserState.successors]
  | _ => simp [Phase.state, UserState.successors]

private theorem Next.isLostInLoop (course : phase.Next next) : next.IsLostInLoop := by
  intro state lost
  cases course with
  | refused =>
    cases lost
    exact .inl rfl
  | close sentAt deadline =>
    cases lost
    exact .inr rfl
  | _ => cases lost

/-- A probe is counted with the step into a wait, and a timeout with the step out of one whose bound
has run out. -/
theorem Next.gains (course : phase.Next next) (stopwatch : Nat) :
    gain (UserEvent.counts .probe) stopwatch phase next =
        (decide (phase.state = .probing ∧ next.state = .awaitingEcho)).toNat ∧
      gain (UserEvent.counts .probe) stopwatch phase next + next.isSent.toNat =
        phase.isSent.toNat + (phase.sends next).toNat ∧
      gain (UserEvent.counts .timeout) stopwatch phase next + next.isUnanswered.toNat =
        phase.isUnanswered.toNat + (phase.expires next).toNat := by
  cases course with
  | leave exit suspended linked exits =>
    rcases exits with rfl | rfl <;> cases phase <;> first | exact ⟨rfl, rfl, rfl⟩ | cases suspended
  | giveUpConnecting due exit exits => rcases exits with rfl | rfl <;> exact ⟨rfl, rfl, rfl⟩
  | lose state exit exits =>
    rcases exits with rfl | rfl <;> cases state <;> exact ⟨rfl, rfl, rfl⟩
  | _ => exact ⟨rfl, rfl, rfl⟩

/-- As long as a user stays in its loop, a probe is open until it has an outcome. -/
theorem Next.outcome (course : phase.Next next) (stays : next.hasLeft = false) (stopwatch : Nat) :
    phase.isOpen.toNat + gain (UserEvent.counts .probe) stopwatch phase next =
      gain UserEvent.isMeasured stopwatch phase next +
        gain (UserEvent.counts .timeout) stopwatch phase next + next.isOpen.toNat := by
  cases course with
  | leave | giveUpConnecting | lose | fail | unlink | flush | finish => cases stays
  | _ => rfl

/-- A probe is counted on the way into a wait. -/
theorem Next.of_gain_probe (course : phase.Next next) {stopwatch : Nat}
    (gained : gain (UserEvent.counts .probe) stopwatch phase next ≠ 0) :
    phase.isOpen = false ∧ phase.hasLeft = false ∧ next.isOpen = true := by
  rw [(course.gains stopwatch).1] at gained
  cases course with
  | await sentAt deadline => exact ⟨rfl, rfl, rfl⟩
  | leave exit suspended linked exits => simp [Phase.state] at gained
  | lose state exit exits => simp [Phase.state] at gained
  | _ => exact absurd rfl gained

private theorem event?_of_hasLeft (left : phase.hasLeft = true) (stopwatch : Nat) :
    phase.event? stopwatch next = none := by
  cases phase with
  | stopping exit | stopped exit | flushed exit | ended exit => rfl
  | _ => cases left

private theorem sends_of_hasLeft (left : phase.hasLeft = true) : phase.sends next = false := by
  cases phase with
  | stopping exit | stopped exit | flushed exit | ended exit => rfl
  | _ => cases left

theorem IsLostInLoop.hasLeft (inLoop : phase.IsLostInLoop)
    (leaving : phase.state = .stopping ∨ phase.state = .stopped) : phase.hasLeft = true := by
  cases phase with
  | stopping exit | stopped exit | flushed exit | ended exit => rfl
  | lost state => rcases inLoop state rfl with rfl | rfl <;> simp [Phase.state] at leaving
  | _ => simp [Phase.state] at leaving

theorem Next.hasLeft (course : phase.Next next) (left : phase.hasLeft = true) :
    next.hasLeft = true := by
  cases course with
  | leave | giveUpConnecting | lose | fail | unlink | flush | finish => rfl
  | _ => cases left

end Next

end Phase

/-! ## One moment -/

/-- The samples that are with the recorder or with a user. -/
def Population.samplesWith (population : Population) (index : Nat) : Histogram :=
  population.recorder.received + population.users[index]?.elim 0 User.held

namespace Moment

/-- The state that a user is in after a moment, if it is another one than before. -/
def enters? (index : Nat) (moment : Moment) : Option UserState := do
  let user ← moment.before.users[index]?
  let moved ← moment.after.users[index]?
  if moved.phase.state = user.phase.state then none else some moved.phase.state

/-- How many probes are put into an outbox at a moment. -/
def sent (moment : Moment) : Nat :=
  moment.after.probes.length - moment.before.probes.length

/-- How many probes are counted at a moment. -/
def probed (moment : Moment) : Nat :=
  moment.after.counters.probes - moment.before.counters.probes

/-- How many timeouts are counted at a moment. -/
def timedOut (moment : Moment) : Nat :=
  moment.after.counters.timeouts - moment.before.counters.timeouts

/-- How many samples a user records at a moment, in its handle or with the recorder. -/
def sampled (index : Nat) (moment : Moment) : Nat :=
  (moment.after.samplesWith index).tally.total - (moment.before.samplesWith index).tally.total

/-- Whether a user goes a certain way at a moment. -/
def passes (way : Phase → Phase → Bool) (index : Nat) (moment : Moment) : Nat :=
  (moment.before.users[index]?.any fun user =>
    moment.after.users[index]?.any fun moved => way user.phase moved.phase).toNat

end Moment

namespace Population

section Turn

variable {before after : Population} {move : Move} {index : Nat} {user moved : User}

theorem Turn.there (turn : before.Turn move index user moved after) :
    after.users[index]? = some moved := by
  rw [turn.getElem?, if_pos rfl]

theorem Turn.course (turn : before.Turn move index user moved after) :
    moved.phase = user.phase ∨ user.phase.Next moved.phase := by
  obtain ⟨rest, effect, _⟩ := turn.effect
  exact effect.course

theorem Turn.enters? (turn : before.Turn move index user moved after) :
    Moment.enters? index ⟨before, .move move, after⟩ =
      if moved.phase.state = user.phase.state then none else some moved.phase.state := by
  simp [Moment.enters?, turn.found, turn.there]

theorem Turn.sent (turn : before.Turn move index user moved after) :
    Moment.sent ⟨before, .move move, after⟩ = (user.phase.sends moved.phase).toNat := by
  rw [Moment.sent, turn.probes]
  split <;> simp_all

theorem Turn.probed (turn : before.Turn move index user moved after) :
    Moment.probed ⟨before, .move move, after⟩ =
      Phase.gain (UserEvent.counts .probe) before.stopwatch user.phase moved.phase := by
  have counted : after.counters.probes = before.counters.probes + _ := turn.get_counters .probe
  rw [Moment.probed, counted, Nat.add_sub_cancel_left]
  rfl

theorem Turn.timedOut (turn : before.Turn move index user moved after) :
    Moment.timedOut ⟨before, .move move, after⟩ =
      Phase.gain (UserEvent.counts .timeout) before.stopwatch user.phase moved.phase := by
  have counted : after.counters.timeouts = before.counters.timeouts + _ :=
    turn.get_counters .timeout
  rw [Moment.timedOut, counted, Nat.add_sub_cancel_left]
  rfl

theorem Turn.sampled (turn : before.Turn move index user moved after) :
    Moment.sampled index ⟨before, .move move, after⟩ =
      Phase.gain UserEvent.isMeasured before.stopwatch user.phase moved.phase := by
  have there := turn.there
  have found := turn.found
  obtain ⟨rest, effect, rfl⟩ := turn.effect
  have samples := congrArg (fun histogram => histogram.tally.total) effect.samples
  simp only [Histogram.tally_add, Tally.total_add, Histogram.total_ofLatencies] at samples
  have grown : ((rest.setUser index moved).samplesWith index).tally.total =
      (rest.recorder.received).tally.total + moved.held.tally.total := by
    rw [samplesWith, there, Histogram.tally_add, Tally.total_add]
    rfl
  have was : (before.samplesWith index).tally.total =
      (before.recorder.received).tally.total + user.held.tally.total := by
    rw [samplesWith, found, Histogram.tally_add, Tally.total_add]
    rfl
  have latencies : (((user.phase.event? before.stopwatch moved.phase).bind
      UserEvent.latency?).toList).length =
        Phase.gain UserEvent.isMeasured before.stopwatch user.phase moved.phase := by
    rw [Phase.gain]
    cases user.phase.event? before.stopwatch moved.phase with
    | none => rfl
    | some event => cases measured : event.latency? <;> simp [UserEvent.isMeasured, measured]
  simp only [Moment.sampled]
  omega

theorem Turn.passes (turn : before.Turn move index user moved after)
    (way : Phase → Phase → Bool) :
    Moment.passes way index ⟨before, .move move, after⟩ = (way user.phase moved.phase).toNat := by
  simp [Moment.passes, turn.found, turn.there]

/-- What is counted at a moment is what was done, but for what the user has yet to count. -/
theorem Turn.books (turn : before.Turn move index user moved after) :
    let moment : Moment := ⟨before, .move move, after⟩
    moment.probed + moved.phase.isSent.toNat = user.phase.isSent.toNat + moment.sent ∧
      moment.sampled index + moved.phase.isAnswered.toNat =
        user.phase.isAnswered.toNat + moment.passes Phase.hears index ∧
      moment.timedOut + moved.phase.isUnanswered.toNat =
        user.phase.isUnanswered.toNat + moment.passes Phase.expires index := by
  intro moment
  simp only [moment, turn.probed, turn.sampled, turn.timedOut, turn.sent, turn.passes]
  rcases turn.course with same | course
  · simp only [same, Phase.gain_self, Phase.sends_self, Phase.hears_self, Phase.expires_self]
    simp
  · obtain ⟨-, sent, timedOut⟩ := course.gains before.stopwatch
    exact ⟨sent, course.measured _, timedOut⟩

/-- A probe that counts as sent is in the outbox, and the user was in its loop to send it. -/
theorem Turn.outbox {calendar : Nat → String} (possible : before.step? calendar move = some after)
    (turn : before.Turn move index user moved after)
    (sends : user.phase.sends moved.phase = true) :
    user.phase = .probing ∧
      ∃ link, user.link = some link ∧ link.send? user.probe = moved.link ∧ moved.link.isSome := by
  obtain ⟨probing, sentAt, sent⟩ := Phase.eq_of_sends sends
  refine ⟨probing, ?_⟩
  have there := turn.there
  cases move with
  | cancel other | abort other =>
    cases turn.about
    simp [step?, turn.found, cancelUser?, abortUser?, probing, Phase.isSuspended] at possible
  | pump other | line other event =>
    have same : moved.phase = user.phase := by
      have shift := turn.shift
      generalize moved.phase = next at shift
      cases shift
      rfl
    rw [same, Phase.sends_self] at sends
    cases sends
  | proceed other =>
    cases turn.about
    simp only [step?, turn.found, proceedUser?, probing, Option.bind_eq_bind, Option.bind_some,
      Option.some.injEq] at possible
    cases taken : user.link.bind (·.send? user.probe) with
    | none =>
      simp only [send, taken] at possible
      subst possible
      rw [setUser, List.getElem?_set_self', turn.found] at there
      cases there
      cases sent
    | some link =>
      simp only [send, taken] at possible
      subst possible
      rw [setUser, List.getElem?_set_self', turn.found] at there
      cases there
      obtain ⟨held, linked, accepted⟩ := Option.bind_eq_some_iff.mp taken
      exact ⟨held, linked, accepted, rfl⟩
  | publish | advance | measure => cases turn.about

end Turn

/-! ## One user -/

/-- The states that a user has been in, in order. -/
def walk (index : Nat) (moments : List Moment) : List UserState :=
  .connecting :: moments.filterMap (Moment.enters? index)

/-- What a user has done up to now. -/
structure Logged (moments : List Moment) (population : Population) (index : Nat) (user : User) :
    Prop where
  walks : (walk index moments).IsChain fun state next => next ∈ state.successors
  state : (walk index moments).getLast? = some user.phase.state
  inLoop : user.phase.IsLostInLoop
  gate : user.phase.isInLoop = true → population.start.isOpen = true
  sent : Moment.share Moment.sent index moments =
    Moment.share Moment.probed index moments + user.phase.isSent.toNat
  answered : Moment.share (Moment.passes Phase.hears index) index moments =
    Moment.share (Moment.sampled index) index moments + user.phase.isAnswered.toNat
  expired : Moment.share (Moment.passes Phase.expires index) index moments =
    Moment.share Moment.timedOut index moments + user.phase.isUnanswered.toNat

section Logged

variable {calendar : Nat → String} {before after : Population} {occurrence : Occurrence}
  {moments : List Moment} {index : Nat} {user moved : User}

private theorem walk_snoc (index : Nat) (moments : List Moment) (moment : Moment) :
    walk index (moments ++ [moment]) = walk index moments ++ (moment.enters? index).toList := by
  rw [walk, walk, List.filterMap_append, List.cons_append]
  cases entered : moment.enters? index with
  | none => rw [List.filterMap_cons_none entered, List.filterMap_nil, Option.toList_none]
  | some _ => rw [List.filterMap_cons_some entered, List.filterMap_nil, Option.toList_some]

private theorem Happens.isOpen_of_isOpen (happens : before.Happens calendar occurrence after)
    (isOpen : before.start.isOpen = true) : after.start.isOpen = true := by
  cases happens with
  | @move move _ possible =>
    cases about : move.user? with
    | some index =>
      obtain ⟨user, moved, turn⟩ := turn_of_step? about possible
      rw [turn.signals.start]
      exact isOpen
    | none =>
      cases move with
      | publish origin message =>
        cases possible
        exact isOpen
      | advance | measure =>
        simp only [step?] at possible
        split at possible <;> cases possible
        exact isOpen
      | _ => cases about
  | opened => rfl
  | cancelled | beginPhase | gather | peer => exact isOpen

/-- Nobody gets into the loop before the start gate is open. -/
theorem Turn.gate {move : Move} (turn : before.Turn move index user moved after)
    (inLoop : moved.phase.isInLoop = true) :
    user.phase.isInLoop = true ∨ before.start.isOpen = true := by
  have shift := turn.shift
  generalize user.phase = phase at shift ⊢
  generalize moved.phase = next at shift inLoop
  cases shift with
  | pump | line => exact .inl inLoop
  | abort suspended => cases phase <;> cases inLoop
  | cancel way | proceed way =>
    cases way with
    | begin isOpen => exact .inr isOpen
    | connect | fail | lose | stop | giveUp | leave | unlink | flush | finish => cases inLoop
    | _ => exact .inl rfl

theorem Logged.turn {move : Move} (logged : Logged moments before index user)
    (turn : before.Turn move index user moved after) :
    Logged (moments ++ [⟨before, .move move, after⟩]) after index moved := by
  have own : (Occurrence.move move).user? = some index := turn.about
  obtain ⟨probes, answers, timeouts⟩ := turn.books
  have state : moved.phase.state = user.phase.state ∨
      moved.phase.state ∈ user.phase.state.successors := by
    rcases turn.course with same | course
    · exact .inl (congrArg Phase.state same)
    · exact course.state logged.inLoop
  constructor
  · rw [walk_snoc, turn.enters?]
    split
    · rw [Option.toList_none, List.append_nil]
      exact logged.walks
    · rename_i other
      refine List.isChain_append.mpr ⟨logged.walks, List.isChain_singleton _, ?_⟩
      intro last isLast next isNext
      rw [logged.state] at isLast
      cases isLast
      cases isNext
      exact state.resolve_left other
  · rw [walk_snoc, turn.enters?]
    split
    · rename_i same
      rw [Option.toList_none, List.append_nil, same]
      exact logged.state
    · rw [Option.toList_some, List.getLast?_append]
      rfl
  · rcases turn.course with same | course
    · rw [same]
      exact logged.inLoop
    · exact course.isLostInLoop
  · intro inLoop
    rw [turn.signals.start]
    exact (turn.gate inLoop).elim logged.gate id
  · rw [Moment.share_snoc, Moment.share_snoc, if_pos own, if_pos own, logged.sent]
    omega
  · rw [Moment.share_snoc, Moment.share_snoc, if_pos own, if_pos own, logged.answered]
    omega
  · rw [Moment.share_snoc, Moment.share_snoc, if_pos own, if_pos own, logged.expired]
    omega

theorem Logged.bystander (logged : Logged moments before index user)
    (happens : before.Happens calendar occurrence after)
    (foreign : occurrence.user? ≠ some index) (found : before.users[index]? = some user)
    (there : after.users[index]? = some user) :
    Logged (moments ++ [⟨before, occurrence, after⟩]) after index user := by
  have entered : Moment.enters? index ⟨before, occurrence, after⟩ = none := by
    simp [Moment.enters?, found, there]
  have same : walk index (moments ++ [⟨before, occurrence, after⟩]) = walk index moments := by
    rw [walk_snoc, entered, Option.toList_none, List.append_nil]
  have share : ∀ measure : Moment → Nat,
      Moment.share measure index (moments ++ [⟨before, occurrence, after⟩]) =
        Moment.share measure index moments := by
    intro measure
    rw [Moment.share_snoc, if_neg foreign, Nat.add_zero]
  constructor
  · rw [same]
    exact logged.walks
  · rw [same]
    exact logged.state
  · exact logged.inLoop
  · intro inLoop
    exact happens.isOpen_of_isOpen (logged.gate inLoop)
  · rw [share, share]
    exact logged.sent
  · rw [share, share]
    exact logged.answered
  · rw [share, share]
    exact logged.expired

end Logged

/-! ## Whole lives -/

section Lives

variable {calendar : Nat → String} {first last : Population} {moments : List Moment}
  {index : Nat} {user : User}

theorem Lives.logged (lives : first.Lives calendar moments last)
    (begins : ∃ newcomer due, first.users[index]? = some newcomer ∧
      newcomer.phase = .connecting due) (found : last.users[index]? = some user) :
    Logged moments last index user := by
  induction lives generalizing user with
  | start =>
    obtain ⟨newcomer, due, joined, connecting⟩ := begins
    cases joined.symm.trans found
    constructor
    · exact List.isChain_singleton _
    · rw [connecting]
      rfl
    · intro state lost
      rw [connecting] at lost
      cases lost
    · intro inLoop
      rw [connecting] at inLoop
      cases inLoop
    all_goals
      rw [connecting]
      rfl
  | step lives happens ih =>
    obtain ⟨was, there, ⟨move, rfl, turn⟩ | ⟨foreign, rfl⟩⟩ := happens.user found
    · exact (ih there).turn turn
    · exact (ih there).bystander happens foreign there found

private theorem Lives.of_append {earlier later : List Moment}
    (lives : first.Lives calendar (earlier ++ later) last) :
    ∃ middle, first.Lives calendar earlier middle ∧ middle.Lives calendar later last := by
  generalize whole : earlier ++ later = moments at lives
  induction lives generalizing later with
  | start =>
    obtain ⟨rfl, rfl⟩ := List.append_eq_nil_iff.mp whole
    exact ⟨first, .start, .start⟩
  | @step moments before after occurrence lives happens ih =>
    rcases List.eq_nil_or_concat later with rfl | ⟨front, final, rfl⟩
    · rw [List.append_nil] at whole
      subst whole
      exact ⟨after, .step lives happens, .start⟩
    · rw [List.concat_eq_append, ← List.append_assoc] at whole
      obtain ⟨rfl, same⟩ := List.append_inj' whole rfl
      obtain ⟨middle, early, late⟩ := ih rfl
      cases same
      rw [List.concat_eq_append]
      exact ⟨middle, early, .step late happens⟩

private theorem Lives.of_nil (lives : first.Lives calendar [] last) : last = first := by
  generalize nothing : ([] : List Moment) = moments at lives
  cases lives with
  | start => rfl
  | step _ _ => simp at nothing

theorem Lives.of_cons {moment : Moment} (lives : first.Lives calendar (moment :: moments) last) :
    moment.before = first ∧ moment.before.Happens calendar moment.occurrence moment.after ∧
      moment.after.Lives calendar moments last := by
  obtain ⟨middle, early, late⟩ := @Lives.of_append _ _ _ [moment] moments lives
  generalize single : [moment] = earlier at early
  cases early with
  | start => simp at single
  | step nothing happens =>
    obtain ⟨rfl, same⟩ := @List.append_inj' _ [] _ _ _ single rfl
    cases same
    exact ⟨nothing.of_nil, happens, late⟩

theorem Happens.turn {before after : Population} {occurrence : Occurrence}
    (happens : before.Happens calendar occurrence after) (about : occurrence.user? = some index) :
    ∃ move user moved, occurrence = .move move ∧ before.step? calendar move = some after ∧
      before.Turn move index user moved after := by
  cases happens with
  | @move move _ possible =>
    obtain ⟨user, moved, turn⟩ := turn_of_step? about possible
    exact ⟨move, user, moved, rfl, possible, turn⟩
  | _ => cases about

/-- A user that counts a probe at a moment has it open from then on. -/
theorem Turn.of_probed {before after : Population} {move : Move} {moved : User}
    (turn : before.Turn move index user moved after)
    (probed : Moment.probed ⟨before, .move move, after⟩ ≠ 0) :
    user.phase.isOpen = false ∧ user.phase.hasLeft = false ∧ moved.phase.isOpen = true := by
  rw [turn.probed] at probed
  rcases turn.course with same | course
  · rw [same, Phase.gain_self] at probed
    contradiction
  · exact course.of_gain_probe probed

private theorem Turn.probed_eq {before after : Population} {move : Move} {moved : User}
    (turn : before.Turn move index user moved after) :
    Moment.probed ⟨before, .move move, after⟩ =
      (decide (user.phase.state = .probing ∧ moved.phase.state = .awaitingEcho)).toNat := by
  rw [turn.probed]
  rcases turn.course with same | course
  · rw [same, Phase.gain_self]
    cases user.phase.state <;> rfl
  · exact (course.gains _).1

theorem Turn.of_hasLeft {before after : Population} {move : Move} {moved : User}
    (turn : before.Turn move index user moved after) (left : user.phase.hasLeft = true) :
    Moment.sent ⟨before, .move move, after⟩ = 0 ∧ after.counters = before.counters ∧
      Moment.sampled index ⟨before, .move move, after⟩ = 0 := by
  have silent : user.phase.event? before.stopwatch moved.phase = none :=
    Phase.event?_of_hasLeft left _
  refine ⟨?_, ?_, ?_⟩
  · rw [turn.sent, Phase.sends_of_hasLeft left]
    rfl
  · obtain ⟨rest, effect, rfl⟩ := turn.effect
    have counters := effect.counters
    rw [silent] at counters
    exact counters
  · rw [turn.sampled, Phase.gain, silent]
    rfl

/-- As long as a user stays in its loop, each probe gets one outcome, but for one that is open. -/
theorem Lives.outcomes (lives : first.Lives calendar moments last) {earlier : User}
    (found : first.users[index]? = some earlier) (there : last.users[index]? = some user)
    (stays : user.phase.hasLeft = false) :
    earlier.phase.isOpen.toNat + Moment.share Moment.probed index moments =
      Moment.share (Moment.sampled index) index moments +
        Moment.share Moment.timedOut index moments + user.phase.isOpen.toNat := by
  induction lives generalizing user with
  | start =>
    cases found.symm.trans there
    simp [Moment.share]
  | @step moments before after occurrence lives happens ih =>
    rw [Moment.share_snoc, Moment.share_snoc, Moment.share_snoc]
    obtain ⟨was, been, ⟨move, rfl, turn⟩ | ⟨foreign, rfl⟩⟩ := happens.user there
    · have own : (Occurrence.move move).user? = some index := turn.about
      have stayed : was.phase.hasLeft = false := by
        rcases turn.course with same | course
        · rw [← same]
          exact stays
        · refine Bool.eq_false_iff.mpr ?_
          intro left
          rw [course.hasLeft left] at stays
          cases stays
      have law := ih been stayed
      rw [if_pos own, if_pos own, if_pos own, turn.probed, turn.sampled, turn.timedOut]
      rcases turn.course with same | course
      · rw [same, Phase.gain_self, Phase.gain_self, Phase.gain_self]
        exact law
      · have outcome := course.outcome stays before.stopwatch
        omega
    · rw [if_neg foreign, if_neg foreign, if_neg foreign]
      exact ih been stays

private theorem Lives.outcomes_between {earlier between later : List Moment} {one another : Moment}
    (lives : first.Lives calendar (earlier ++ one :: between ++ another :: later) last)
    (aboutOne : one.occurrence.user? = some index) (probedOne : one.probed ≠ 0)
    (aboutAnother : another.occurrence.user? = some index) (probedAnother : another.probed ≠ 0) :
    Moment.share (Moment.sampled index) index between +
        Moment.share Moment.timedOut index between =
      1 + Moment.share Moment.probed index between := by
  obtain ⟨middle, early, late⟩ := lives.of_append
  obtain ⟨start, _, during⟩ := early.of_append
  obtain ⟨_, happensOne, during⟩ := during.of_cons
  obtain ⟨same, happensAnother, _⟩ := late.of_cons
  obtain ⟨move, user, moved, occurs, _, turn⟩ := happensOne.turn aboutOne
  obtain ⟨was, occurrence, is⟩ := one
  cases occurs
  obtain ⟨other, waiting, counted, occurs, _, next⟩ := happensAnother.turn aboutAnother
  obtain ⟨was', occurrence', is'⟩ := another
  cases occurs
  cases same
  obtain ⟨_, _, opened⟩ := turn.of_probed probedOne
  obtain ⟨closed, stays, _⟩ := next.of_probed probedAnother
  -- From the first probe to the second the user is in its loop: it begins with a probe open.
  have law := during.outcomes turn.there next.found stays
  rw [opened, closed] at law
  exact law.symm

end Lives

/-- Whatever happens around it, the states of a user that begins by connecting are a walk through
their graph, from its first state to the one that it is in. The user counts a probe on each step
into the wait for an answer and nowhere else, and all probes but one that it is about to count had
entered its outbox before, after the start gate was opened. Each wait that a message ended is one
sample and each wait that ran out one timeout, but for one that the user is about to record, so
between two probes there is one outcome for each probe from the first on. From the state of stopping
on the user sends, counts and records nothing. -/
theorem states_walk (calendar : Nat → String) {first last : Population} {moments : List Moment}
    (lives : first.Lives calendar moments last) {index : Nat} {newcomer : User} {due : Option Nat}
    (joins : first.users[index]? = some newcomer) (connecting : newcomer.phase = .connecting due) :
    (walk index moments).IsChain (fun state next => next ∈ state.successors) ∧
    (∃ user, last.users[index]? = some user ∧
      (walk index moments).getLast? = some user.phase.state ∧
      Moment.share Moment.sent index moments =
        Moment.share Moment.probed index moments + user.phase.isSent.toNat ∧
      Moment.share (Moment.passes Phase.hears index) index moments =
        Moment.share (Moment.sampled index) index moments + user.phase.isAnswered.toNat ∧
      Moment.share (Moment.passes Phase.expires index) index moments =
        Moment.share Moment.timedOut index moments + user.phase.isUnanswered.toNat) ∧
    (∀ moment ∈ moments, moment.occurrence.user? = some index →
      ∃ user moved, moment.before.users[index]? = some user ∧
        moment.after.users[index]? = some moved ∧
        moment.probed = (decide
          (user.phase.state = .probing ∧ moved.phase.state = .awaitingEcho)).toNat ∧
        (moment.sent ≠ 0 → moment.before.start.isOpen = true ∧
          ∃ link, user.link = some link ∧ link.send? user.probe = moved.link ∧
            moved.link.isSome) ∧
        (user.phase.state = .stopping ∨ user.phase.state = .stopped →
          moment.sent = 0 ∧ moment.after.counters = moment.before.counters ∧
            moment.sampled index = 0)) ∧
    ∀ (earlier between later : List Moment) (one another : Moment),
      moments = earlier ++ one :: between ++ another :: later →
      one.occurrence.user? = some index → one.probed ≠ 0 →
      another.occurrence.user? = some index → another.probed ≠ 0 →
      Moment.share (Moment.sampled index) index between +
          Moment.share Moment.timedOut index between =
        1 + Moment.share Moment.probed index between := by
  have begins : ∃ newcomer due, first.users[index]? = some newcomer ∧
      newcomer.phase = .connecting due := ⟨newcomer, due, joins, connecting⟩
  obtain ⟨user, found⟩ : ∃ user, last.users[index]? = some user := by
    obtain ⟨inside, _⟩ := List.getElem?_eq_some_iff.mp joins
    rw [← lives.length_users] at inside
    exact ⟨_, List.getElem?_eq_getElem inside⟩
  have logged := lives.logged begins found
  refine ⟨logged.walks, ⟨user, found, logged.state, logged.sent, logged.answered, logged.expired⟩,
    ?_, ?_⟩
  · intro moment member about
    obtain ⟨earlier, early, happens⟩ := lives.of_mem member
    obtain ⟨move, user, moved, occurs, possible, turn⟩ := happens.turn about
    have before := early.logged begins turn.found
    obtain ⟨was, occurrence, is⟩ := moment
    cases occurs
    refine ⟨user, moved, turn.found, turn.there, turn.probed_eq, ?_, ?_⟩
    · intro sends
      rw [turn.sent] at sends
      obtain ⟨probing, outbox⟩ := turn.outbox possible (by simpa using sends)
      have isOpen := before.gate (by rw [probing]; rfl)
      exact ⟨isOpen, outbox⟩
    · exact fun leaving => turn.of_hasLeft (before.inLoop.hasLeft leaving)
  · intro earlier between later one another whole aboutOne probedOne aboutAnother probedAnother
    subst whole
    exact lives.outcomes_between aboutOne probedOne aboutAnother probedAnother

/-- A user alone, whose first wait runs out and whose second one is cut off. -/
theorem states_walk_alone :
    let newcomer : User :=
      { id := 0, connector := .attach, link := none, phase := .connecting (some 0)
        handle := some ({} : LatencyRecorder).handle }
    let first : Population :=
      { settings := { waitBound := 5, pacing := 2 }
        users := [newcomer]
        completion := { remaining := 1 } }
    first.users[0]? = some newcomer ∧ newcomer.phase = .connecting (some 0) ∧
      ∃ moments last, first.Lives (fun _ => "noon") moments last ∧
        walk 0 moments = [.connecting, .waitingForStart, .probing, .awaitingEcho, .probing,
          .awaitingEcho, .stopping, .stopped] ∧
        (walk 0 moments).IsChain (fun state next => next ∈ state.successors) ∧
        Moment.share Moment.probed 0 moments = 2 ∧ Moment.share Moment.sent 0 moments = 2 ∧
        Moment.share (Moment.passes Phase.expires 0) 0 moments = 1 ∧
        Moment.share Moment.timedOut 0 moments = 1 := by
  intro newcomer first
  have connected : first.Lives (fun _ => "noon") _ _ := Lives.start.follow [.proceed 0] rfl
  have waited : first.Lives (fun _ => "noon") _ _ :=
    (connected.step .opened).follow
      [.proceed 0, .proceed 0, .proceed 0, .advance 5, .proceed 0, .proceed 0, .advance 7,
        .proceed 0, .proceed 0, .proceed 0] rfl
  have lives : first.Lives (fun _ => "noon") _ _ :=
    (waited.step .cancelled).follow [.cancel 0, .proceed 0] rfl
  obtain ⟨walks, ⟨user, found, _, sent, _, expired⟩, _, _⟩ :=
    @states_walk (fun _ => "noon") _ _ _ lives 0 newcomer _ rfl rfl
  cases found
  refine ⟨rfl, rfl, _, _, lives, rfl, walks, ?_, ?_, ?_, ?_⟩
  · decide +kernel
  · rw [sent]
    decide +kernel
  · rw [expired]
    decide +kernel
  · decide +kernel

end Population

end ChatHub
