import ChatHub.Proofs.Load.Lives
/-!
How users end, and what is counted about it, in every order of what can happen to a population.
Main statement: `Population.exits_agree`.
-/

set_option autoImplicit false

namespace ChatHub

/-- The counter that goes with an exit. -/
def UserExit.counted? : UserExit → Option Counted
  | .connectFailed => some .connectFailure
  | .linkLost => some .linkFailure
  | .cancelled => none

private theorem UserExit.counted?_connectFailed :
    UserExit.connectFailed.counted? = some .connectFailure :=
  rfl

theorem UserExit.counted?_linkLost : UserExit.linkLost.counted? = some .linkFailure :=
  rfl

namespace Phase

def isLost : Phase → Bool
  | .lost _ => true
  | _ => false

/-- Whether a user is out of its loop, with an exit or dropped. -/
def hasLeft : Phase → Bool
  | .stopping _ | .stopped _ | .flushed _ | .ended _ => true
  | _ => false

/-- Whether a user left its loop with an exit that is counted as a failure. -/
def hasFailed (phase : Phase) : Bool :=
  phase.exit = some .connectFailed || phase.exit = some .linkLost

private theorem exit_eq_none_of_isLost {phase : Phase} (lost : phase.isLost = true) :
    phase.exit = none := by
  cases phase with
  | lost state => rfl
  | _ => cases lost

private theorem exit_eq_none_of_isSuspended {phase : Phase} (suspended : phase.isSuspended = true) :
    phase.exit = none := by
  cases phase with
  | connecting due | waitingForStart | awaiting sentAt deadline | pacing until_ => rfl
  | _ => cases suspended

private theorem exit_dropped (phase : Phase) : phase.dropped.exit = none := by
  rw [dropped]
  split <;> rfl

private theorem hasLeft_of_isEnded {phase : Phase} (ended : phase.isEnded = true) :
    phase.hasLeft = true := by
  obtain ⟨exit, rfl⟩ := of_isEnded ended
  rfl

end Phase

namespace Moment

/-- How many failures are counted at a moment, of both kinds. -/
def failures (moment : Moment) : Nat :=
  moment.after.counters.connectFailures + moment.after.counters.linkFailures -
    (moment.before.counters.connectFailures + moment.before.counters.linkFailures)

/-- How far the completion gate is counted down at a moment. -/
def countedDown (moment : Moment) : Nat :=
  moment.before.completion.remaining - moment.after.completion.remaining

/-- Whether a user finds its link closed at a moment. -/
def notices (index : Nat) (moment : Moment) : Bool :=
  moment.after.users[index]?.any (·.phase.isLost) &&
    !moment.before.users[index]?.any (·.phase.isLost)

/-- What the moments that are about one user sum up to. -/
def share (measure : Moment → Nat) (index : Nat) (moments : List Moment) : Nat :=
  ((moments.filter fun moment => moment.occurrence.user? = some index).map measure).sum

theorem share_snoc (measure : Moment → Nat) (index : Nat) (moments : List Moment)
    (moment : Moment) :
    share measure index (moments ++ [moment]) = share measure index moments +
      if moment.occurrence.user? = some index then measure moment else 0 := by
  by_cases about : moment.occurrence.user? = some index <;>
    simp [share, List.filter_append, about]

end Moment

namespace Population

/-! ## One step of one user -/

section Shift

variable {before after : Population} {move : Move} {phase next : Phase} {exit : UserExit}

theorem Shift.counted {counted : Counted} (shift : before.Shift move phase next)
    (counts : exit.counted? = some counted) :
    (decide (next.exit = some exit)).toNat = (decide (phase.exit = some exit)).toNat +
      ((phase.event? before.stopwatch next).any (UserEvent.counts counted)).toNat := by
  cases shift with
  | pump | line =>
    rw [Phase.event?_self]
    rfl
  | abort suspended =>
    cases exit <;> cases counts <;> cases phase <;> first | rfl | cases suspended
  | cancel way | proceed way =>
    cases exit <;> cases counts <;> cases way with
    | leave suspended linked _ => cases phase <;> first | rfl | cases suspended
    | _ => rfl

theorem Shift.exit_eq (shift : before.Shift move phase next) (left : phase.exit = some exit) :
    next.exit = some exit := by
  cases shift with
  | pump | line => exact left
  | abort suspended =>
    rw [Phase.exit_eq_none_of_isSuspended suspended] at left
    cases left
  | cancel way | proceed way =>
    cases way with
    | leave suspended _ _ =>
      rw [Phase.exit_eq_none_of_isSuspended suspended] at left
      cases left
    | unlink | flush | finish => exact left
    | _ => cases left

theorem Shift.of_cancelled (shift : before.Shift move phase next)
    (left : next.exit = some .cancelled) :
    phase.exit = some .cancelled ∨ before.cancelled = true := by
  cases shift with
  | pump | line => exact .inl left
  | abort _ =>
    rw [Phase.exit_dropped] at left
    cases left
  | cancel way | proceed way =>
    cases way with
    | leave _ _ cancelled | giveUp _ cancelled | stop _ cancelled => exact .inr cancelled
    | unlink | flush | finish => exact .inl left
    | _ => cases left

theorem Shift.of_linkLost (shift : before.Shift move phase next)
    (left : next.exit = some .linkLost) :
    phase.exit = some .linkLost ∨ (phase.isLost = true ∧ before.cancelled = false) := by
  cases shift with
  | pump | line => exact .inl left
  | abort _ =>
    rw [Phase.exit_dropped] at left
    cases left
  | cancel way | proceed way =>
    cases way with
    | lose _ kept => exact .inr ⟨rfl, kept⟩
    | unlink | flush | finish => exact .inl left
    | _ => cases left

theorem Shift.of_hasLeft (shift : before.Shift move phase next) (left : next.hasLeft = true)
    (nowhere : next.exit = none) :
    (phase.hasLeft = true ∧ phase.exit = none) ∨ ∃ index, move = .abort index := by
  cases shift with
  | pump | line => exact .inl ⟨left, nowhere⟩
  | abort suspended => exact .inr ⟨_, rfl⟩
  | cancel way | proceed way =>
    cases way with
    | unlink | flush | finish => exact .inl ⟨rfl, nowhere⟩
    | fail | lose | stop | giveUp | leave => cases nowhere
    | _ => cases left

end Shift

/-! ## All users together -/

/-- The counters of failures and the completion gate say what the users have come to. -/
structure Tallied (population : Population) : Prop where
  exits : ∀ {exit : UserExit} {counted : Counted}, exit.counted? = some counted →
    population.counters.get counted =
      population.users.countP fun user => user.phase.exit = some exit
  running : population.completion.remaining = population.running

section Tallied

variable {before after : Population} {calendar : Nat → String} {occurrence : Occurrence}

theorem Fresh.tallied (fresh : before.Fresh) : before.Tallied where
  exits := by
    intro exit counted counts
    have nobody : before.users.countP (fun user => user.phase.exit = some exit) = 0 := by
      refine List.countP_eq_zero.mpr ?_
      intro user member
      obtain ⟨due, phase⟩ := fresh.connecting user member
      simp [phase, Phase.exit]
    rw [nobody, fresh.counters]
    cases counted <;> rfl
  running := by
    rw [fresh.completion]
    symm
    refine List.countP_eq_length.mpr ?_
    intro user member
    obtain ⟨due, phase⟩ := fresh.connecting user member
    simp [phase, Phase.isEnded]

theorem Tallied.congr (tallied : before.Tallied) (users : after.users = before.users)
    (counters : after.counters = before.counters)
    (completion : after.completion = before.completion) : after.Tallied where
  exits counts := by
    rw [counters, users]
    exact tallied.exits counts
  running := by rw [completion, tallied.running, Population.running, Population.running, users]

theorem Turn.get_counters {move : Move} {index : Nat} {user moved : User}
    (turn : before.Turn move index user moved after) (counted : Counted) :
    after.counters.get counted = before.counters.get counted +
      ((user.phase.event? before.stopwatch moved.phase).any (UserEvent.counts counted)).toNat := by
  obtain ⟨rest, effect, rfl⟩ := turn.effect
  exact effect.get_counters counted

theorem Turn.remaining {move : Move} {index : Nat} {user moved : User}
    (turn : before.Turn move index user moved after) {others : Nat}
    (running : before.completion.remaining = (!user.phase.isEnded).toNat + others) :
    after.completion.remaining = (!moved.phase.isEnded).toNat + others := by
  obtain ⟨rest, effect, rfl⟩ := turn.effect
  exact effect.remaining running

theorem Turn.tallied {move : Move} {index : Nat} {user moved : User}
    (turn : before.Turn move index user moved after) (tallied : before.Tallied) :
    after.Tallied := by
  obtain ⟨others, was, is⟩ := perm_set turn.found moved
  constructor
  · intro exit counted counts
    have law := tallied.exits counts
    have change := turn.shift.counted counts
    rw [was.countP_eq, countP_cons_toNat] at law
    rw [turn.users, is.countP_eq, countP_cons_toNat, turn.get_counters counted, law]
    omega
  · have running := tallied.running
    rw [Population.running, was.countP_eq, countP_cons_toNat] at running
    rw [Population.running, turn.users, is.countP_eq, countP_cons_toNat]
    exact turn.remaining running

theorem Happens.tallied (happens : before.Happens calendar occurrence after)
    (tallied : before.Tallied) : after.Tallied := by
  rcases happens.cases with ⟨_, _, _, _, _, turn⟩ | aside
  · exact turn.tallied tallied
  · exact tallied.congr aside.users aside.counters aside.completion

end Tallied

theorem Lives.tallied {calendar : Nat → String} {first last : Population}
    {moments : List Moment} (lives : first.Lives calendar moments last) (fresh : first.Fresh) :
    last.Tallied := by
  induction lives with
  | start => exact fresh.tallied
  | step _ happens ih => exact happens.tallied ih

/-! ## Each user -/

/-- How a user has come to where it stands. -/
structure Ending (moments : List Moment) (population : Population) (index : Nat) (user : User) :
    Prop where
  failures : Moment.share Moment.failures index moments = user.phase.hasFailed.toNat
  countedDown : Moment.share Moment.countedDown index moments = user.phase.isEnded.toNat
  cancelled : user.phase.exit = some .cancelled → population.cancelled = true
  noticed : user.phase.isLost = true → ∃ moment ∈ moments, moment.notices index = true
  linkLost : user.phase.exit = some .linkLost →
    (∃ moment ∈ moments, moment.notices index = true) ∧
      ∀ moment ∈ moments, moment.notices index = true → moment.after.cancelled = false
  dropped : user.phase.hasLeft = true → user.phase.exit = none →
    ∃ moment ∈ moments, moment.occurrence = .move (.abort index)

section Ending

variable {before after : Population} {calendar : Nat → String} {occurrence : Occurrence}
  {moments : List Moment} {index : Nat} {user moved : User}

theorem Turn.failures {move : Move} (turn : before.Turn move index user moved after) :
    user.phase.hasFailed.toNat + Moment.failures ⟨before, .move move, after⟩ =
      moved.phase.hasFailed.toNat := by
  have both : ∀ phase : Phase, phase.hasFailed.toNat =
      (decide (phase.exit = some .connectFailed)).toNat +
        (decide (phase.exit = some .linkLost)).toNat := by
    intro phase
    cases left : phase.exit with
    | none => simp [Phase.hasFailed, left]
    | some exit => cases exit <;> simp [Phase.hasFailed, left]
  have connect : after.counters.connectFailures = before.counters.connectFailures + _ :=
    turn.get_counters .connectFailure
  have link : after.counters.linkFailures = before.counters.linkFailures + _ :=
    turn.get_counters .linkFailure
  have connectExit := turn.shift.counted UserExit.counted?_connectFailed
  have linkExit := turn.shift.counted UserExit.counted?_linkLost
  simp only [both, connectExit, linkExit, Moment.failures, connect, link]
  omega

theorem Turn.countedDown {move : Move} (turn : before.Turn move index user moved after)
    (tallied : before.Tallied) :
    user.phase.isEnded.toNat + Moment.countedDown ⟨before, .move move, after⟩ =
      moved.phase.isEnded.toNat := by
  obtain ⟨others, was, _⟩ := perm_set turn.found moved
  have running := tallied.running
  rw [Population.running, was.countP_eq, countP_cons_toNat] at running
  have remaining := turn.remaining running
  simp only [Moment.countedDown, running, remaining]
  cases ended : user.phase.isEnded with
  | true =>
    obtain ⟨rest, effect, _⟩ := turn.effect
    rw [effect.phase_of_isEnded ended, ended]
    simp
  | false => cases moved.phase.isEnded <;> simp

/-- A user that left over its link finds it closed at no other moment. -/
theorem linkLost_snoc {moment : Moment} (there : moment.after.users[index]? = some moved)
    (left : moved.phase.exit = some .linkLost)
    (earlier : (∃ moment ∈ moments, moment.notices index = true) ∧
      ∀ moment ∈ moments, moment.notices index = true → moment.after.cancelled = false) :
    (∃ other ∈ moments ++ [moment], other.notices index = true) ∧
      ∀ other ∈ moments ++ [moment], other.notices index = true →
        other.after.cancelled = false := by
  -- The user has its exit by now, so this is not the moment at which it finds the link closed.
  have found : moved.phase.isLost = false := by
    refine Bool.eq_false_iff.mpr ?_
    intro lost
    rw [Phase.exit_eq_none_of_isLost lost] at left
    cases left
  obtain ⟨⟨noticed, member, notices⟩, all⟩ := earlier
  refine ⟨⟨noticed, List.mem_append_left _ member, notices⟩, ?_⟩
  intro other isMember noticesOther
  rcases List.mem_append.mp isMember with old | new
  · exact all other old noticesOther
  · rw [List.mem_singleton.mp new, Moment.notices, there, Option.any_some, found] at noticesOther
    cases noticesOther

theorem Ending.turn {move : Move} (ending : Ending moments before index user)
    (kept : before.cancelled = false → ∀ moment ∈ moments, moment.after.cancelled = false)
    (tallied : before.Tallied) (turn : before.Turn move index user moved after) :
    Ending (moments ++ [⟨before, .move move, after⟩]) after index moved := by
  have own : (Occurrence.move move).user? = some index := turn.about
  have there : after.users[index]? = some moved := by
    rw [turn.getElem?, if_pos rfl]
  refine
    { failures := ?_, countedDown := ?_, cancelled := ?_, noticed := ?_, linkLost := ?_
      dropped := ?_ }
  · rw [Moment.share_snoc, if_pos own, ending.failures]
    exact turn.failures
  · rw [Moment.share_snoc, if_pos own, ending.countedDown]
    exact turn.countedDown tallied
  · intro left
    rw [turn.signals.cancelled]
    rcases turn.shift.of_cancelled left with already | cancelled
    · exact ending.cancelled already
    · exact cancelled
  · intro lost
    by_cases already : user.phase.isLost = true
    · obtain ⟨moment, member, notices⟩ := ending.noticed already
      exact ⟨moment, List.mem_append_left _ member, notices⟩
    · refine ⟨_, List.mem_append_right _ List.mem_cons_self, ?_⟩
      simp [Moment.notices, there, turn.found, lost, already]
  · intro left
    refine linkLost_snoc there left ?_
    rcases turn.shift.of_linkLost left with already | ⟨lost, notYet⟩
    · exact ending.linkLost already
    · exact ⟨ending.noticed lost, fun moment member _ => kept notYet moment member⟩
  · intro left nowhere
    rcases turn.shift.of_hasLeft left nowhere with ⟨already, without⟩ | ⟨other, rfl⟩
    · obtain ⟨moment, member, aborted⟩ := ending.dropped already without
      exact ⟨moment, List.mem_append_left _ member, aborted⟩
    · cases turn.about
      exact ⟨_, List.mem_append_right _ List.mem_cons_self, rfl⟩

theorem Ending.bystander (ending : Ending moments before index user)
    (happens : before.Happens calendar occurrence after)
    (foreign : occurrence.user? ≠ some index) (there : after.users[index]? = some user) :
    Ending (moments ++ [⟨before, occurrence, after⟩]) after index user where
  failures := by rw [Moment.share_snoc, if_neg foreign, ending.failures, Nat.add_zero]
  countedDown := by rw [Moment.share_snoc, if_neg foreign, ending.countedDown, Nat.add_zero]
  cancelled left := happens.cancelled_of_cancelled (ending.cancelled left)
  noticed lost := by
    obtain ⟨moment, member, notices⟩ := ending.noticed lost
    exact ⟨moment, List.mem_append_left _ member, notices⟩
  linkLost left := linkLost_snoc there left (ending.linkLost left)
  dropped left nowhere := by
    obtain ⟨moment, member, aborted⟩ := ending.dropped left nowhere
    exact ⟨moment, List.mem_append_left _ member, aborted⟩

theorem Lives.kept {first last : Population} (lives : first.Lives calendar moments last)
    (kept : last.cancelled = false) : ∀ moment ∈ moments, moment.after.cancelled = false := by
  induction lives with
  | start => exact fun _ none => nomatch none
  | @step moments before after occurrence _ happens ih =>
    have notYet : before.cancelled = false := by
      refine Bool.eq_false_iff.mpr ?_
      intro cancelled
      rw [happens.cancelled_of_cancelled cancelled] at kept
      cases kept
    intro moment member
    rcases List.mem_append.mp member with old | new
    · exact ih notYet moment old
    · rw [List.mem_singleton.mp new]
      exact kept

theorem Lives.ending {first last : Population} (lives : first.Lives calendar moments last)
    (fresh : first.Fresh) (found : last.users[index]? = some user) :
    Ending moments last index user := by
  induction lives generalizing user with
  | start =>
    obtain ⟨due, phase⟩ := fresh.connecting user (List.mem_of_getElem? found)
    constructor <;> simp [phase, Phase.hasFailed, Phase.exit, Phase.isEnded, Phase.isLost,
      Phase.hasLeft, Moment.share]
  | step lives happens ih =>
    obtain ⟨was, there, ⟨move, rfl, turn⟩ | ⟨foreign, rfl⟩⟩ := happens.user found
    · exact (ih there).turn lives.kept (lives.tallied fresh) turn
    · exact (ih there).bystander happens foreign found

end Ending

/-! ## Whole lives -/

variable {calendar : Nat → String} {first last : Population} {moments : List Moment}

private theorem Tallied.remaining_add_ended (tallied : last.Tallied) :
    last.completion.remaining + last.users.countP (·.phase.isEnded) = last.users.length := by
  rw [tallied.running, Population.running, Nat.add_comm,
    List.length_eq_countP_add_countP fun user : User => user.phase.isEnded]
  simp

private theorem countP_exit {users : List User}
    (done : ∀ user ∈ users, user.phase.hasLeft = true → user.phase.isEnded = true)
    (exit : UserExit) :
    users.countP (fun user => user.phase.exit = some exit) =
      users.countP (fun user => user.phase = .ended (some exit)) := by
  refine List.countP_congr ?_
  intro user member
  have ended := done user member
  simp only [decide_eq_true_eq]
  constructor
  · intro left
    cases phase : user.phase with
    | ended given => rw [phase] at left; exact congrArg Phase.ended left
    | stopping given | stopped given | flushed given =>
      rw [phase] at ended
      cases ended rfl
    | _ => rw [phase] at left; cases left
  · intro phase
    rw [phase]
    rfl

/-- However a population lives, exits and counters agree. As many connects have failed as users
have left with that, and as many links were lost; a user whose task nobody dropped ends with an
exit. A user that has left with a failure has counted exactly one, any other none, and a user has
counted the gate down once if it has ended, and never otherwise. Who has left as cancelled did so
after the signal, and who has left over its link had found it closed before. -/
theorem exits_agree (calendar : Nat → String) {first last : Population} {moments : List Moment}
    (fresh : first.Fresh) (lives : first.Lives calendar moments last) :
    last.counters.connectFailures =
        last.users.countP (fun user => user.phase.exit = some .connectFailed) ∧
      last.counters.linkFailures =
        last.users.countP (fun user => user.phase.exit = some .linkLost) ∧
      ((∀ user ∈ last.users, user.phase.hasLeft = true → user.phase.isEnded = true) →
        last.counters.connectFailures =
            last.users.countP (fun user => user.phase = .ended (some .connectFailed)) ∧
          last.counters.linkFailures =
            last.users.countP (fun user => user.phase = .ended (some .linkLost))) ∧
      last.completion.remaining + last.users.countP (·.phase.isEnded) = first.users.length ∧
      ∀ (index : Nat) (user : User), last.users[index]? = some user →
        (user.phase.isEnded = true →
          (∀ moment ∈ moments, moment.occurrence ≠ .move (.abort index)) →
          user.phase = .ended (some .connectFailed) ∨ user.phase = .ended (some .linkLost) ∨
            user.phase = .ended (some .cancelled)) ∧
        Moment.share Moment.failures index moments = user.phase.hasFailed.toNat ∧
        Moment.share Moment.countedDown index moments = user.phase.isEnded.toNat ∧
        (user.phase.exit = some .cancelled → last.cancelled = true) ∧
        (user.phase.exit = some .linkLost →
          (∃ moment ∈ moments, moment.notices index = true) ∧
            ∀ moment ∈ moments, moment.notices index = true → moment.after.cancelled = false) := by
  have tallied := lives.tallied fresh
  have connectFailures := tallied.exits UserExit.counted?_connectFailed
  have linkFailures := tallied.exits UserExit.counted?_linkLost
  refine ⟨connectFailures, linkFailures, ?_, ?_, ?_⟩
  · intro done
    exact ⟨connectFailures.trans (countP_exit done _), linkFailures.trans (countP_exit done _)⟩
  · rw [tallied.remaining_add_ended, lives.length_users]
  · intro index user found
    have ending := lives.ending fresh found
    refine ⟨?_, ending.failures, ending.countedDown, ending.cancelled, ending.linkLost⟩
    intro ended kept
    obtain ⟨exit, phase⟩ := Phase.of_isEnded ended
    cases exit with
    | none =>
      obtain ⟨moment, member, aborted⟩ :=
        ending.dropped (Phase.hasLeft_of_isEnded ended) (by rw [phase]; rfl)
      exact absurd aborted (kept moment member)
    | some exit =>
      rw [phase]
      cases exit <;> simp

/-- One user is refused, one is handed a link with nobody at the other end, and one still connects
when the others are cancelled. -/
theorem exits_agree_three :
    let user (id : Nat) (connector : ConnectResult) (due : Option Nat) : User :=
      { id, connector, link := some .dead, phase := .connecting due
        handle := some ({} : LatencyRecorder).handle }
    let first : Population :=
      { settings := {}
        users := [user 0 .refuse (some 0), user 1 .give (some 0), user 2 .give none]
        start := { isOpen := true }
        completion := { remaining := 3 } }
    first.Fresh ∧ ∃ moments last, first.Lives (fun _ => "noon") moments last ∧
      last.counters.connectFailures = 1 ∧ last.counters.linkFailures = 1 ∧
      last.completion.remaining = 2 ∧ Moment.share Moment.failures 1 moments = 1 ∧
      Moment.share Moment.countedDown 2 moments = 1 ∧ last.cancelled = true ∧
      ∃ moment ∈ moments, moment.notices 1 = true ∧ moment.after.cancelled = false := by
  intro user first
  have fresh : first.Fresh :=
    { connecting := by simp [first, user]
      handle := by simp [first, user]
      completion := rfl
      counters := rfl }
  have failing : first.Lives (fun _ => "noon") _ _ :=
    Lives.start.follow [.proceed 0, .proceed 1, .proceed 1, .proceed 1, .proceed 1] rfl
  have lives : first.Lives (fun _ => "noon") _ _ :=
    (failing.step .cancelled).follow [.cancel 2, .proceed 2, .proceed 2] rfl
  obtain ⟨connectFailures, linkFailures, -, remaining, each⟩ :=
    exits_agree (fun _ => "noon") fresh lives
  obtain ⟨-, failures, -, -, linkLost⟩ := each 1 _ rfl
  obtain ⟨-, -, countedDown, cancelled, -⟩ := each 2 _ rfl
  exact ⟨fresh, _, _, lives, connectFailures, linkFailures, Nat.add_right_cancel remaining,
    failures, countedDown, cancelled rfl, (linkLost rfl).1.imp fun moment noticed =>
      ⟨noticed.1, noticed.2, (linkLost rfl).2 moment noticed.1 noticed.2⟩⟩

end Population

end ChatHub
