import ChatHub.Proofs.Load.Task
/-!
What a single move does to one user, whatever its connector and its link are: the ways from phase
to phase with what has to be so for each of them. Main statement: `Population.turn_of_step?`, from
which everything else about such a move follows.
-/

set_option autoImplicit false

namespace ChatHub

namespace Phase

/-- Where a user stands once its task has been dropped. -/
def dropped (phase : Phase) : Phase :=
  if phase.holdsLink then .stopping none else .stopped none

/-- Whether a user puts a probe into its outbox on the way from one phase to another. -/
def sends : Phase → Phase → Bool
  | .probing, .sent _ => true
  | _, _ => false

theorem sends_self (phase : Phase) : phase.sends phase = false := by
  cases phase <;> rfl

theorem sends_dropped (phase : Phase) : phase.sends phase.dropped = false := by
  cases phase <;> rfl

end Phase

namespace Link

private theorem backlog_poll (link : Link) (hub : Hub) :
    (link.poll hub).2.1.backlog = link.backlog := by
  cases link <;> rfl

private theorem backlog_drop (link : Link) (hub : Hub) : (link.drop hub).1.backlog = [] := by
  cases link <;> rfl

private theorem backlog_send? {link sent : Link} {message : Inbound}
    (taken : link.send? message = some sent) :
    sent.backlog.length ≤ link.backlog.length + 1 := by
  cases link with
  | attached connection outbox =>
    cases taken
    simp [backlog]
  | detached line =>
    simp only [send?] at taken
    split at taken
    · cases taken
      exact Nat.zero_le _
    · cases taken

private theorem backlog_pumpOnce? {link pumped : Link} {timestamp : String} {hub later : Hub}
    (took : link.pumpOnce? timestamp hub = some (pumped, later)) :
    pumped.backlog.length + 1 = link.backlog.length := by
  cases link with
  | attached connection outbox =>
    simp only [pumpOnce?] at took
    split at took
    · rename_i message rest popped
      cases took
      simp only [backlog]
      rw [Fifo.pop?_eq_some popped, List.length_cons]
    · cases took
  | detached line => cases took

private theorem backlog_take? {link taken : Link} {event : LineEvent}
    (possible : link.take? event = some taken) : taken.backlog = link.backlog := by
  cases link with
  | attached connection outbox => cases possible
  | detached line =>
    cases possible
    rfl

end Link

namespace Population

/-! ## Ways -/

/-- The ways of a user from one phase to the next that it goes by itself. -/
inductive Way (population : Population) : Phase → Phase → Prop where
  | connect {due : Option Nat} (isDue : due.any (· ≤ population.now) = true) :
      Way population (.connecting due) .waitingForStart
  | fail {due : Option Nat} (isDue : due.any (· ≤ population.now) = true) :
      Way population (.connecting due) (.stopped (some .connectFailed))
  | begin (isOpen : population.start.isOpen = true) : Way population .waitingForStart .probing
  | send : Way population .probing (.sent population.stopwatch)
  | refused : Way population .probing (.lost .probing)
  | count (sentAt : Nat) :
      Way population (.sent sentAt)
        (.awaiting sentAt (population.now + population.settings.waitBound))
  | hear (sentAt deadline : Nat) : Way population (.awaiting sentAt deadline) (.answered sentAt)
  | expire (sentAt deadline : Nat) (due : deadline ≤ population.now) :
      Way population (.awaiting sentAt deadline) .unanswered
  | close (sentAt deadline : Nat) :
      Way population (.awaiting sentAt deadline) (.lost .awaitingEcho)
  | measure (sentAt : Nat) :
      Way population (.answered sentAt) (.pacing (population.now + population.settings.pacing))
  | pass : Way population .unanswered (.pacing (population.now + population.settings.pacing))
  | again (until_ : Nat) (due : until_ ≤ population.now) :
      Way population (.pacing until_) .probing
  | lose (state : UserState) (kept : population.cancelled = false) :
      Way population (.lost state) (.stopping (some .linkLost))
  | stop (state : UserState) (cancelled : population.cancelled = true) :
      Way population (.lost state) (.stopping (some .cancelled))
  | giveUp (due : Option Nat) (cancelled : population.cancelled = true) :
      Way population (.connecting due) (.stopped (some .cancelled))
  | leave {phase : Phase} (suspended : phase.isSuspended = true) (linked : phase.holdsLink = true)
      (cancelled : population.cancelled = true) : Way population phase (.stopping (some .cancelled))
  | unlink (exit : Option UserExit) : Way population (.stopping exit) (.stopped exit)
  | flush (exit : Option UserExit) : Way population (.stopped exit) (.flushed exit)
  | finish (exit : Option UserExit) : Way population (.flushed exit) (.ended exit)

/-- What a move does to the phase of the user it is about. -/
inductive Shift (before : Population) : Move → Phase → Phase → Prop where
  | cancel {index : Nat} {phase next : Phase} (way : Way before phase next) :
      Shift before (.cancel index) phase next
  | proceed {index : Nat} {phase next : Phase} (way : Way before phase next) :
      Shift before (.proceed index) phase next
  | abort {index : Nat} {phase : Phase} (suspended : phase.isSuspended = true) :
      Shift before (.abort index) phase phase.dropped
  | pump {index : Nat} {phase : Phase} : Shift before (.pump index) phase phase
  | line {index : Nat} {event : LineEvent} {phase : Phase} :
      Shift before (.line index event) phase phase

/-- A step that a user takes by itself, without its place in the population. -/
structure Course (before : Population) (user moved : User) (after : Population) : Prop where
  way : Way before user.phase moved.phase
  id : moved.id = user.id
  backlog : moved.backlog.length ≤ user.backlog.length + (user.phase.sends moved.phase).toNat
  probes : after.probes =
    if user.phase.sends moved.phase then (before.now, user.id) :: before.probes else before.probes
  signals : SameSignals before after

/-- A move about one user, as part of the population. -/
structure Turn (before : Population) (move : Move) (index : Nat) (user moved : User)
    (after : Population) : Prop where
  about : move.user? = some index
  found : before.users[index]? = some user
  effect : ∃ rest, before.Effect rest user moved ∧ after = rest.setUser index moved
  shift : Shift before move user.phase moved.phase
  id : moved.id = user.id
  backlog : moved.backlog.length + (move = .pump index : Bool).toNat ≤
    user.backlog.length + (user.phase.sends moved.phase).toNat
  probes : after.probes =
    if user.phase.sends moved.phase then (before.now, user.id) :: before.probes else before.probes
  signals : SameSignals before after

/-! ## Which way it is -/

section Inversion

variable {before after : Population} {user moved : User}

theorem SameSignals.refl (population : Population) : SameSignals population population :=
  ⟨rfl, rfl, rfl, rfl⟩

/-- A step with which the user sends nothing. -/
theorem Course.quiet (way : Way before user.phase moved.phase) (id : moved.id = user.id)
    (backlog : moved.backlog.length ≤ user.backlog.length)
    (silent : user.phase.sends moved.phase = false) (probes : after.probes = before.probes)
    (signals : SameSignals before after) : Course before user moved after where
  way := way
  id := id
  backlog := by rw [silent]; exact backlog
  probes := by rw [probes, silent]; rfl
  signals := signals

private theorem cancelUser?_course (possible : before.cancelUser? user = some moved) :
    Course before user moved before := by
  obtain ⟨id, connector, link, phase, handle⟩ := user
  simp only [cancelUser?] at possible
  split at possible
  · rename_i cancelled
    cases phase with
    | connecting due =>
      cases possible
      exact .quiet (.giveUp due cancelled) rfl (Nat.le_refl _) rfl rfl (.refl before)
    | waitingForStart | awaiting sentAt deadline | pacing until_ =>
      cases possible
      exact .quiet (.leave rfl rfl cancelled) rfl (Nat.le_refl _) rfl rfl (.refl before)
    | _ => cases possible
  · cases possible

private theorem connected_course {due : Option Nat} (connecting : user.phase = .connecting due)
    (isDue : due.any (· ≤ before.now) = true)
    (answer : before.connected user = (moved, after)) : Course before user moved after := by
  obtain ⟨id, connector, link, phase, handle⟩ := user
  subst connecting
  cases connector with
  | refuse =>
    cases answer
    exact .quiet (.fail isDue) rfl (Nat.le_refl _) rfl rfl ⟨rfl, rfl, rfl, rfl⟩
  | give =>
    cases answer
    exact .quiet (.connect isDue) rfl (Nat.le_refl _) rfl rfl ⟨rfl, rfl, rfl, rfl⟩
  | attach =>
    cases answer
    exact .quiet (.connect isDue) rfl (Nat.zero_le _) rfl rfl ⟨rfl, rfl, rfl, rfl⟩

private theorem send_course (probing : user.phase = .probing)
    (sent : before.send user = (moved, after)) : Course before user moved after := by
  obtain ⟨id, connector, link, phase, handle⟩ := user
  subst probing
  simp only [send] at sent
  split at sent
  · rename_i given taken
    cases sent
    obtain ⟨held, linked, accepted⟩ := Option.bind_eq_some_iff.mp taken
    subst linked
    exact
      { way := .send
        id := rfl
        backlog := Link.backlog_send? accepted
        probes := rfl
        signals := ⟨rfl, rfl, rfl, rfl⟩ }
  · cases sent
    exact .quiet .refused rfl (Nat.le_refl _) rfl rfl (.refl before)

private theorem listen?_course {sentAt deadline : Nat}
    (waiting : user.phase = .awaiting sentAt deadline)
    (heard : before.listen? user sentAt deadline = some (moved, after)) :
    Course before user moved after := by
  obtain ⟨id, connector, link, phase, handle⟩ := user
  subst waiting
  have timedOut : ∀ {outcome : UserStep},
      outcome = (if deadline ≤ before.now then
        some ({ id, connector, link, phase := .unanswered, handle }, before) else none) →
      outcome = some (moved, after) →
      Course before ⟨id, connector, link, .awaiting sentAt deadline, handle⟩ moved after := by
    rintro _ rfl ran
    split at ran
    · rename_i due
      cases ran
      exact .quiet (.expire sentAt deadline due) rfl (Nat.le_refl _) rfl rfl (.refl before)
    · cases ran
  simp only [listen?] at heard
  cases link with
  | none => exact timedOut rfl heard
  | some link =>
    have same := link.backlog_poll before.hub
    simp only at heard
    split at heard
    · rename_i message polled hub poll
      rw [poll] at same
      cases heard
      exact .quiet (.hear sentAt deadline) rfl (Nat.le_of_eq (congrArg _ same)) rfl rfl
        ⟨rfl, rfl, rfl, rfl⟩
    · cases heard
      exact .quiet (.close sentAt deadline) rfl (Nat.le_refl _) rfl rfl (.refl before)
    · exact timedOut rfl heard

private theorem lose_course {state : UserState} (lost : user.phase = .lost state)
    (left : before.lose user = (moved, after)) : Course before user moved after := by
  obtain ⟨id, connector, link, phase, handle⟩ := user
  subst lost
  simp only [lose] at left
  split at left
  · rename_i cancelled
    cases left
    exact .quiet (.stop state cancelled) rfl (Nat.le_refl _) rfl rfl (.refl before)
  · rename_i kept
    cases left
    exact .quiet (.lose state (Bool.eq_false_iff.mpr kept)) rfl (Nat.le_refl _) rfl rfl
      ⟨rfl, rfl, rfl, rfl⟩

private theorem dropLink_backlog (population : Population) (user : User) :
    (population.dropLink user).1.backlog.length ≤ user.backlog.length := by
  obtain ⟨id, connector, link, phase, handle⟩ := user
  cases link with
  | none => exact Nat.le_refl _
  | some link =>
    simp only [dropLink, User.backlog, Option.elim_some, Link.backlog_drop]
    exact Nat.zero_le _

private theorem proceedUser?_course (possible : before.proceedUser? user = some (moved, after)) :
    Course before user moved after := by
  obtain ⟨link', hub, dropped, -⟩ := dropLink_spec before user
  have dropped' := dropLink_backlog before user
  rw [dropped] at dropped'
  obtain ⟨id, connector, link, phase, handle⟩ := user
  cases phase with
  | connecting due =>
    simp only [proceedUser?] at possible
    split at possible
    · rename_i isDue
      exact connected_course rfl isDue (Option.some.inj possible)
    · cases possible
  | waitingForStart =>
    simp only [proceedUser?] at possible
    split at possible
    · rename_i isOpen
      cases possible
      exact .quiet (.begin isOpen) rfl (Nat.le_refl _) rfl rfl (.refl before)
    · cases possible
  | probing => exact send_course rfl (Option.some.inj possible)
  | sent sentAt =>
    cases possible
    exact .quiet (.count sentAt) rfl (Nat.le_refl _) rfl rfl ⟨rfl, rfl, rfl, rfl⟩
  | awaiting sentAt deadline => exact listen?_course rfl possible
  | answered sentAt =>
    cases handle with
    | none => cases possible
    | some handle =>
      cases possible
      exact .quiet (.measure sentAt) rfl (Nat.le_refl _) rfl rfl ⟨rfl, rfl, rfl, rfl⟩
  | unanswered =>
    cases possible
    exact .quiet .pass rfl (Nat.le_refl _) rfl rfl ⟨rfl, rfl, rfl, rfl⟩
  | pacing until_ =>
    simp only [proceedUser?] at possible
    split at possible
    · rename_i due
      cases possible
      exact .quiet (.again until_ due) rfl (Nat.le_refl _) rfl rfl (.refl before)
    · cases possible
  | lost state => exact lose_course rfl (Option.some.inj possible)
  | stopping exit =>
    simp only [proceedUser?, dropped] at possible
    cases possible
    exact .quiet (.unlink exit) rfl dropped' rfl rfl ⟨rfl, rfl, rfl, rfl⟩
  | stopped exit =>
    simp only [proceedUser?, dropped] at possible
    cases possible
    exact .quiet (.flush exit) rfl dropped' rfl rfl ⟨rfl, rfl, rfl, rfl⟩
  | flushed exit =>
    cases possible
    exact .quiet (.finish exit) rfl (Nat.le_refl _) rfl rfl ⟨rfl, rfl, rfl, rfl⟩
  | ended exit => cases possible

theorem abortUser?_eq_some (possible : abortUser? user = some moved) :
    user.phase.isSuspended = true ∧ moved = { user with phase := user.phase.dropped } := by
  simp only [abortUser?] at possible
  split at possible
  · rename_i suspended
    cases possible
    exact ⟨suspended, rfl⟩
  · cases possible

variable {calendar : Nat → String} {move : Move}

/-- A move about a user is a step of this user, or does something behind its link, or drops its
task; all other users stay as they are. -/
theorem turn_of_step? {index : Nat} (about : move.user? = some index)
    (possible : before.step? calendar move = some after) :
    ∃ user moved, Turn before move index user moved after := by
  cases move with
  | cancel _ =>
    cases about
    simp only [step?, Option.bind_eq_bind, Option.bind_eq_some_iff] at possible
    obtain ⟨user, found, moved, cancelled, result⟩ := possible
    cases result
    have course := cancelUser?_course cancelled
    exact ⟨user, moved,
      { about := rfl, found
        effect := ⟨before, cancelUser?_effect cancelled, rfl⟩
        shift := .cancel course.way
        id := course.id
        backlog := course.backlog
        probes := course.probes
        signals := ⟨rfl, rfl, rfl, rfl⟩ }⟩
  | proceed _ =>
    cases about
    simp only [step?, Option.bind_eq_bind, Option.bind_eq_some_iff] at possible
    obtain ⟨user, found, ⟨moved, rest⟩, proceeded, result⟩ := possible
    cases result
    have course := proceedUser?_course proceeded
    have signals := course.signals
    exact ⟨user, moved,
      { about := rfl, found
        effect := ⟨rest, proceedUser?_effect proceeded, rfl⟩
        shift := .proceed course.way
        id := course.id
        backlog := course.backlog
        probes := course.probes
        signals := ⟨signals.settings, signals.start, signals.cancelled, signals.now⟩ }⟩
  | abort _ =>
    cases about
    simp only [step?, Option.bind_eq_bind, Option.bind_eq_some_iff] at possible
    obtain ⟨user, found, moved, aborted, result⟩ := possible
    cases result
    have effect : before.Effect before user moved := abortUser?_effect aborted
    obtain ⟨suspended, rfl⟩ := abortUser?_eq_some aborted
    exact ⟨user, _,
      { about := rfl, found
        effect := ⟨before, effect, rfl⟩
        shift := .abort suspended
        id := rfl
        backlog := Nat.le_add_right _ _
        probes := by rw [Phase.sends_dropped]; rfl
        signals := ⟨rfl, rfl, rfl, rfl⟩ }⟩
  | pump _ =>
    cases about
    simp only [step?, Option.bind_eq_bind, Option.bind_eq_some_iff] at possible
    obtain ⟨user, found, link, linked, ⟨pumped, hub⟩, took, result⟩ := possible
    cases result
    have gone : user.link.map Link.isGone = some pumped.isGone := by
      rw [linked, Option.map_some, Link.isGone_pumpOnce? took]
    have fewer : pumped.backlog.length + 1 = user.backlog.length := by
      rw [Link.backlog_pumpOnce? took, User.backlog, linked, Option.elim_some]
    exact ⟨user, _,
      { about := rfl, found
        effect := ⟨{ before with hub }, .relinked gone rfl rfl rfl rfl, rfl⟩
        shift := .pump
        id := rfl
        backlog := by simpa [Phase.sends_self, User.backlog] using Nat.le_of_eq fewer
        probes := by rw [Phase.sends_self]; rfl
        signals := ⟨rfl, rfl, rfl, rfl⟩ }⟩
  | line _ event =>
    cases about
    simp only [step?, Option.bind_eq_bind, Option.bind_eq_some_iff] at possible
    obtain ⟨user, found, link, linked, taken, took, result⟩ := possible
    cases result
    have gone : user.link.map Link.isGone = some taken.isGone := by
      rw [linked, Option.map_some, Link.isGone_take? took]
    have same : taken.backlog = user.backlog := by
      rw [Link.backlog_take? took, User.backlog, linked, Option.elim_some]
    exact ⟨user, _,
      { about := rfl, found
        effect := ⟨before, .relinked gone rfl rfl rfl rfl, rfl⟩
        shift := .line
        id := rfl
        backlog := by
          simpa [Phase.sends_self, User.backlog] using Nat.le_of_eq (congrArg List.length same)
        probes := by rw [Phase.sends_self]; rfl
        signals := ⟨rfl, rfl, rfl, rfl⟩ }⟩
  | publish _ _ | advance _ | measure _ => cases about

end Inversion

/-! ## What follows at once -/

section Turn

variable {before after : Population} {move : Move} {index : Nat} {user moved : User}

theorem Turn.users (turn : Turn before move index user moved after) :
    after.users = before.users.set index moved := by
  obtain ⟨rest, effect, rfl⟩ := turn.effect
  rw [setUser, effect.users]

theorem Turn.getElem? (turn : Turn before move index user moved after) (other : Nat) :
    after.users[other]? = if other = index then some moved else before.users[other]? := by
  rw [turn.users]
  by_cases same : other = index
  · subst same
    rw [if_pos rfl, List.getElem?_set_self', turn.found]
    rfl
  · rw [if_neg same, List.getElem?_set_ne (Ne.symm same)]

end Turn

/-! ## Every step brings a user nearer to a wait -/

/-- How much a user can still do before it has to wait for a clock. What is due counts as not yet
done. -/
def rank (now : Nat) : Phase → Nat
  | .connecting _ => 11
  | .waitingForStart => 10
  | .probing => 9
  | .sent _ => 7
  | .awaiting .. => 6
  | .answered _ | .unanswered | .lost _ => 5
  | .pacing until_ => if until_ ≤ now then 10 else 4
  | .stopping _ => 3
  | .stopped _ => 2
  | .flushed _ => 1
  | .ended _ => 0

/-- The same for a user with its pump. -/
def effort (now : Nat) (user : User) : Nat :=
  rank now user.phase + user.backlog.length

section Rank

variable {population : Population} {phase next : Phase}

theorem Way.rank_lt (way : Way population phase next) (paced : 1 ≤ population.settings.pacing) :
    rank population.now next + (phase.sends next).toNat < rank population.now phase := by
  cases way with
  | leave suspended linked _ =>
    cases phase with
    | pacing until_ =>
      simp only [rank, Phase.sends]
      split <;> decide
    | waitingForStart | awaiting _ _ => simp [rank, Phase.sends]
    | connecting _ => cases linked
    | _ => cases suspended
  | again until_ due => simp [rank, Phase.sends, due]
  | measure sentAt | pass =>
    have ahead : ¬ population.now + population.settings.pacing ≤ population.now := by omega
    simp [rank, Phase.sends, ahead]
  | _ => simp [rank, Phase.sends]

theorem rank_dropped_lt (now : Nat) (suspended : phase.isSuspended = true) :
    rank now phase.dropped < rank now phase := by
  cases phase with
  | pacing until_ =>
    simp only [rank, Phase.dropped, Phase.holdsLink, if_true]
    split <;> decide
  | connecting _ | waitingForStart | awaiting _ _ => simp [rank, Phase.dropped, Phase.holdsLink]
  | _ => cases suspended

/-- At one moment, every step of a task brings its user nearer to a wait. -/
theorem Turn.effort_lt {before after : Population} {move : Move} {index : Nat}
    {user moved : User} (turn : Turn before move index user moved after)
    (isTask : move.isTask = true) (paced : 1 ≤ before.settings.pacing) :
    effort before.now moved < effort before.now user := by
  have backlog := turn.backlog
  have shift := turn.shift
  rw [effort, effort]
  generalize user.phase = phase at shift backlog ⊢
  generalize moved.phase = next at shift backlog ⊢
  cases shift with
  | cancel way | proceed way =>
    have less := way.rank_lt paced
    omega
  | pump =>
    cases turn.about
    simp only [decide_true, Bool.toNat_true, Phase.sends_self, Bool.toNat_false] at backlog
    omega
  | abort _ | line => cases isTask

theorem Turn.effort_le {before after : Population} {index : Nat} {event : LineEvent}
    {user moved : User} (turn : Turn before (.line index event) index user moved after) :
    effort before.now moved ≤ effort before.now user := by
  have backlog := turn.backlog
  have shift := turn.shift
  rw [effort, effort]
  generalize user.phase = phase at shift backlog ⊢
  generalize moved.phase = next at shift backlog ⊢
  cases shift
  simpa [Phase.sends_self] using backlog

end Rank

end Population

end ChatHub
