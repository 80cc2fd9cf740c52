import ChatHub.Load.Generator
import ChatHub.Proofs.Latency.Conservation
/-!
What a single move does in a population: the ways of a user from one phase to the next, the events
that show up in the numbers of a run, and their effect on counters, samples and the completion
gate. Main statement: `Population.step?_cases`.
-/

set_option autoImplicit false

namespace ChatHub

/-! ## Events -/

/-- What a user does that shows up in the numbers of a run. -/
inductive UserEvent where
  | connected
  | refused
  | probed
  | measured (latency : Nat)
  | timedOut
  /-- On the way out with a link, from the wait for an answer or from elsewhere. -/
  | left (awaiting : Bool) (exit : Option UserExit)
  deriving DecidableEq, Repr

namespace UserEvent

/-- The counter that a user counts an event in. -/
def counted? : UserEvent → Option Counted
  | refused => some .connectFailure
  | probed => some .probe
  | timedOut => some .timeout
  | left _ (some .linkLost) => some .linkFailure
  | _ => none

def latency? : UserEvent → Option Nat
  | measured latency => some latency
  | _ => none

/-- Whether a user left its loop. -/
def hasLeft : UserEvent → Bool
  | left .. => true
  | _ => false

end UserEvent

namespace Phase

/-- Whether a user has counted a probe and the probe has not come to anything yet. -/
def isOpen : Phase → Bool
  | .awaiting .. | .answered _ | .unanswered | .lost .awaitingEcho => true
  | _ => false

/-- Whether a user has not dropped its handle. -/
def holdsHandle : Phase → Bool
  | .flushed _ | .ended _ => false
  | _ => true

/-- The event by which a user comes from one phase to another. -/
def event? (stopwatch : Nat) : Phase → Phase → Option UserEvent
  | .connecting _, .waitingForStart => some .connected
  | .connecting _, .stopped (some .connectFailed) => some .refused
  | .sent _, .awaiting .. => some .probed
  | .answered sentAt, .pacing _ => some (.measured (stopwatch - sentAt))
  | .unanswered, .pacing _ => some .timedOut
  | .waitingForStart, .stopping exit | .pacing _, .stopping exit => some (.left false exit)
  | .awaiting .., .stopping exit => some (.left true exit)
  | .lost state, .stopping exit => some (.left (state = .awaitingEcho) exit)
  | _, _ => none

/-- The ways of a user from one phase to the next. -/
inductive Next : Phase → Phase → Prop where
  | connect (due : Option Nat) : Next (.connecting due) .waitingForStart
  | fail (due : Option Nat) : Next (.connecting due) (.stopped (some .connectFailed))
  | start : Next .waitingForStart .probing
  | send (sentAt : Nat) : Next .probing (.sent sentAt)
  | refused : Next .probing (.lost .probing)
  | await (sentAt deadline : Nat) : Next (.sent sentAt) (.awaiting sentAt deadline)
  | hear (sentAt deadline : Nat) : Next (.awaiting sentAt deadline) (.answered sentAt)
  | giveUp (sentAt deadline : Nat) : Next (.awaiting sentAt deadline) .unanswered
  | close (sentAt deadline : Nat) : Next (.awaiting sentAt deadline) (.lost .awaitingEcho)
  | measure (sentAt until_ : Nat) : Next (.answered sentAt) (.pacing until_)
  | timeOut (until_ : Nat) : Next .unanswered (.pacing until_)
  | again (until_ : Nat) : Next (.pacing until_) .probing
  | leave {phase : Phase} (exit : Option UserExit) (suspended : phase.isSuspended)
      (linked : phase.holdsLink) (exits : exit = none ∨ exit = some .cancelled) :
      Next phase (.stopping exit)
  | giveUpConnecting (due : Option Nat) (exit : Option UserExit)
      (exits : exit = none ∨ exit = some .cancelled) : Next (.connecting due) (.stopped exit)
  | lose (state : UserState) (exit : UserExit) (exits : exit = .cancelled ∨ exit = .linkLost) :
      Next (.lost state) (.stopping (some exit))
  | unlink (exit : Option UserExit) : Next (.stopping exit) (.stopped exit)
  | flush (exit : Option UserExit) : Next (.stopped exit) (.flushed exit)
  | finish (exit : Option UserExit) : Next (.flushed exit) (.ended exit)

end Phase

/-! ## One step -/

/-- What a user holds of the samples. -/
def User.held (user : User) : Histogram :=
  user.handle.elim 0 LatencyHandle.held

/-- A user drops its handle at one point of its way, and has dropped its link before that. -/
structure User.Equipped (user : User) : Prop where
  handle : user.handle.isSome = user.phase.holdsHandle
  link : user.phase.holdsHandle = false → user.link.all Link.isGone

theorem User.Equipped.dropped {user : User} (equipped : user.Equipped)
    (gone : user.phase.holdsHandle = false) : user.handle = none ∧ user.link.all Link.isGone := by
  have handle := equipped.handle
  rw [gone] at handle
  exact ⟨Option.isNone_iff_eq_none.mp (Option.isSome_eq_false_iff.mp handle), equipped.link gone⟩

theorem Phase.event?_self (stopwatch : Nat) (phase : Phase) :
    phase.event? stopwatch phase = none := by
  cases phase <;> rfl

private theorem Phase.not_isEnded_of_holdsHandle {phase : Phase}
    (holds : phase.holdsHandle = true) :
    phase.isEnded = false := by
  cases phase <;> first | rfl | cases holds

namespace Population

variable {before after : Population} {user moved : User}

/-- What a step does to the user it is about, and to what all users count together. -/
structure Effect (before after : Population) (user moved : User) : Prop where
  users : after.users = before.users
  course : moved.phase = user.phase ∨ user.phase.Next moved.phase
  equipped : user.Equipped → moved.Equipped
  counters : after.counters =
    ((user.phase.event? before.stopwatch moved.phase).bind UserEvent.counted?).elim
      before.counters before.counters.count
  samples : after.recorder.received + moved.held =
    before.recorder.received + user.held +
      Histogram.ofLatencies
        ((user.phase.event? before.stopwatch moved.phase).bind UserEvent.latency?).toList
  completion : after.completion =
    if moved.phase.isEnded = user.phase.isEnded then before.completion
    else before.completion.countDown

/-- A step that only changes what is behind the link. -/
theorem Effect.relinked {link : Link} (gone : user.link.map Link.isGone = some link.isGone)
    (users : after.users = before.users) (counters : after.counters = before.counters)
    (recorder : after.recorder = before.recorder)
    (completion : after.completion = before.completion) :
    Effect before after user { user with link := some link } where
  users := users
  course := .inl rfl
  equipped equipped :=
    { handle := equipped.handle
      link := fun dropped => by
        have all := equipped.link dropped
        cases held : user.link with
        | none => simp [held] at gone
        | some other => simp_all }
  counters := by rw [counters, Phase.event?_self]; rfl
  samples := by
    rw [recorder, Phase.event?_self]
    exact (add_zero _).symm
  completion := by rw [completion, if_pos rfl]

/-- A step with which the user keeps its handle and measures nothing. -/
theorem Effect.unmeasured (users : after.users = before.users)
    (course : user.phase.Next moved.phase)
    (holds : user.phase.holdsHandle = true ∧ moved.phase.holdsHandle = true)
    (handle : moved.handle = user.handle)
    (counters : after.counters =
      ((user.phase.event? before.stopwatch moved.phase).bind UserEvent.counted?).elim
        before.counters before.counters.count)
    (silent : (user.phase.event? before.stopwatch moved.phase).bind UserEvent.latency? = none)
    (recorder : after.recorder = before.recorder)
    (completion : after.completion = before.completion) :
    Effect before after user moved where
  users := users
  course := .inr course
  equipped equipped :=
    { handle := by rw [handle, equipped.handle, holds.1, holds.2]
      link := fun dropped => by simp [holds.2] at dropped }
  counters := counters
  samples := by
    rw [recorder, silent, User.held, handle]
    exact (add_zero _).symm
  completion := by
    rw [completion, Phase.not_isEnded_of_holdsHandle holds.1,
      Phase.not_isEnded_of_holdsHandle holds.2, if_pos rfl]

theorem cancelUser?_effect (possible : before.cancelUser? user = some moved) :
    Effect before before user moved := by
  obtain ⟨id, connector, link, phase, handle⟩ := user
  simp only [cancelUser?] at possible
  split at possible
  · cases phase with
    | connecting due =>
      cases possible
      exact .unmeasured rfl (.giveUpConnecting due _ (.inr rfl)) ⟨rfl, rfl⟩ rfl rfl rfl rfl rfl
    | waitingForStart | awaiting sentAt deadline | pacing until_ =>
      cases possible
      exact .unmeasured rfl (.leave _ rfl rfl (.inr rfl)) ⟨rfl, rfl⟩ rfl rfl rfl rfl rfl
    | _ => cases possible
  · cases possible

theorem abortUser?_effect (possible : abortUser? user = some moved) :
    Effect before before user moved := by
  obtain ⟨id, connector, link, phase, handle⟩ := user
  simp only [abortUser?] at possible
  cases phase with
  | connecting due =>
    cases possible
    exact .unmeasured rfl (.giveUpConnecting due _ (.inl rfl)) ⟨rfl, rfl⟩ rfl rfl rfl rfl rfl
  | waitingForStart | awaiting sentAt deadline | pacing until_ =>
    cases possible
    exact .unmeasured rfl (.leave _ rfl rfl (.inl rfl)) ⟨rfl, rfl⟩ rfl rfl rfl rfl rfl
  | _ => cases possible

private theorem connected_effect {due : Option Nat} (connecting : user.phase = .connecting due)
    (answer : before.connected user = (moved, after)) : Effect before after user moved := by
  obtain ⟨id, connector, link, phase, handle⟩ := user
  subst connecting
  cases connector with
  | refuse =>
    cases answer
    exact .unmeasured rfl (.fail due) ⟨rfl, rfl⟩ rfl rfl rfl rfl rfl
  | give | attach =>
    cases answer
    exact .unmeasured rfl (.connect due) ⟨rfl, rfl⟩ rfl rfl rfl rfl rfl

private theorem send_effect (probing : user.phase = .probing)
    (sent : before.send user = (moved, after)) :
    Effect before after user moved := by
  obtain ⟨id, connector, link, phase, handle⟩ := user
  subst probing
  simp only [send] at sent
  split at sent
  · cases sent
    exact .unmeasured rfl (.send _) ⟨rfl, rfl⟩ rfl rfl rfl rfl rfl
  · cases sent
    exact .unmeasured rfl .refused ⟨rfl, rfl⟩ rfl rfl rfl rfl rfl

private theorem listen?_effect {sentAt deadline : Nat}
    (waiting : user.phase = .awaiting sentAt deadline)
    (heard : before.listen? user sentAt deadline = some (moved, after)) :
    Effect before after user moved := by
  obtain ⟨id, connector, link, phase, handle⟩ := user
  subst waiting
  have timedOut : ∀ {outcome : UserStep},
      outcome = (if deadline ≤ before.now then
        some ({ id, connector, link, phase := .unanswered, handle }, before) else none) →
      outcome = some (moved, after) →
      Effect before after ⟨id, connector, link, .awaiting sentAt deadline, handle⟩ moved := by
    rintro _ rfl ran
    split at ran
    · cases ran
      exact .unmeasured rfl (.giveUp sentAt deadline) ⟨rfl, rfl⟩ rfl rfl rfl rfl rfl
    · cases ran
  simp only [listen?] at heard
  cases link with
  | none => exact timedOut rfl heard
  | some link =>
    simp only at heard
    split at heard
    · cases heard
      exact .unmeasured rfl (.hear sentAt deadline) ⟨rfl, rfl⟩ rfl rfl rfl rfl rfl
    · cases heard
      exact .unmeasured rfl (.close sentAt deadline) ⟨rfl, rfl⟩ rfl rfl rfl rfl rfl
    · exact timedOut rfl heard

private theorem lose_effect {state : UserState} (lost : user.phase = .lost state)
    (left : before.lose user = (moved, after)) : Effect before after user moved := by
  obtain ⟨id, connector, link, phase, handle⟩ := user
  subst lost
  simp only [lose] at left
  split at left
  · cases left
    exact .unmeasured rfl (.lose state _ (.inl rfl)) ⟨rfl, rfl⟩ rfl rfl rfl rfl rfl
  · cases left
    exact .unmeasured rfl (.lose state _ (.inr rfl)) ⟨rfl, rfl⟩ rfl rfl rfl rfl rfl

private theorem measured_effect {sentAt until_ : Nat} {handle : LatencyHandle}
    (answered : user.phase = .answered sentAt) (held : user.handle = some handle) :
    Effect before
      { before with recorder := (handle.record (before.stopwatch - sentAt) before.recorder).2 } user
      { user with
        phase := .pacing until_
        handle := some (handle.record (before.stopwatch - sentAt) before.recorder).1 } := by
  obtain ⟨id, connector, link, phase, handle⟩ := user
  subst answered held
  exact
    { users := rfl
      course := .inr (.measure sentAt until_)
      equipped := fun _ => { handle := rfl, link := fun dropped => by cases dropped }
      counters := rfl
      samples := LatencyHandle.received_record _ _ _
      completion := rfl }

/-- A link is given up for good. -/
theorem dropLink_spec (population : Population) (user : User) :
    ∃ link hub, population.dropLink user = ({ user with link }, { population with hub }) ∧
      link.all Link.isGone := by
  obtain ⟨id, connector, link, phase, handle⟩ := user
  cases link with
  | none => exact ⟨none, population.hub, rfl, rfl⟩
  | some link =>
    cases link with
    | attached connection outbox => exact ⟨_, _, rfl, rfl⟩
    | detached line => exact ⟨_, _, rfl, rfl⟩

private theorem flush_effect {exit : Option UserExit} (stopped : user.phase = .stopped exit)
    (possible : before.proceedUser? user = some (moved, after)) :
    Effect before after user moved := by
  obtain ⟨link, hub, dropped, gone⟩ := dropLink_spec before user
  obtain ⟨id, connector, given, phase, handle⟩ := user
  subst stopped
  simp only [proceedUser?, dropped] at possible
  cases possible
  refine
    { users := rfl
      course := .inr (.flush exit)
      equipped := fun _ => { handle := rfl, link := fun _ => gone }
      counters := rfl
      samples := ?_
      completion := rfl }
  cases handle with
  | none => exact (add_zero (before.recorder.received + 0)).symm
  | some handle => exact congrArg (· + 0) (LatencyRecorder.received_dropHandle _ _)

private theorem finished_effect {exit : Option UserExit} (flushed : user.phase = .flushed exit) :
    Effect before { before with completion := before.completion.countDown } user
      { user with phase := .ended exit } := by
  obtain ⟨id, connector, link, phase, handle⟩ := user
  subst flushed
  exact
    { users := rfl
      course := .inr (.finish exit)
      equipped := fun equipped => { handle := equipped.handle, link := equipped.link }
      counters := rfl
      samples := (add_zero _).symm
      completion := rfl }

theorem proceedUser?_effect (possible : before.proceedUser? user = some (moved, after)) :
    Effect before after user moved := by
  obtain ⟨id, connector, link, phase, handle⟩ := user
  cases phase with
  | connecting due =>
    simp only [proceedUser?] at possible
    split at possible
    · exact connected_effect rfl (Option.some.inj possible)
    · cases possible
  | waitingForStart =>
    simp only [proceedUser?] at possible
    split at possible
    · cases possible
      exact .unmeasured rfl .start ⟨rfl, rfl⟩ rfl rfl rfl rfl rfl
    · cases possible
  | probing => exact send_effect rfl (Option.some.inj possible)
  | sent sentAt =>
    cases possible
    exact .unmeasured rfl (.await sentAt _) ⟨rfl, rfl⟩ rfl rfl rfl rfl rfl
  | awaiting sentAt deadline => exact listen?_effect rfl possible
  | answered sentAt =>
    cases handle with
    | none => cases possible
    | some handle =>
      cases possible
      exact measured_effect rfl rfl
  | unanswered =>
    cases possible
    exact .unmeasured rfl (.timeOut _) ⟨rfl, rfl⟩ rfl rfl rfl rfl rfl
  | pacing until_ =>
    simp only [proceedUser?] at possible
    split at possible
    · cases possible
      exact .unmeasured rfl (.again until_) ⟨rfl, rfl⟩ rfl rfl rfl rfl rfl
    · cases possible
  | lost state => exact lose_effect rfl (Option.some.inj possible)
  | stopping exit =>
    obtain ⟨given, hub, dropped, -⟩ :=
      dropLink_spec before ⟨id, connector, link, .stopping exit, handle⟩
    simp only [proceedUser?, dropped] at possible
    cases possible
    exact .unmeasured rfl (.unlink exit) ⟨rfl, rfl⟩ rfl rfl rfl rfl rfl
  | stopped exit => exact flush_effect rfl possible
  | flushed exit =>
    cases possible
    exact finished_effect rfl
  | ended exit => cases possible

end Population

/-! ## One move -/

/-- The user that a move is about. -/
def Move.user? : Move → Option Nat
  | .cancel index | .proceed index | .pump index | .line index _ | .abort index => some index
  | .publish .. | .advance _ | .measure _ => none

theorem Link.isGone_pumpOnce? {link pumped : Link} {timestamp : String} {hub later : Hub}
    (possible : link.pumpOnce? timestamp hub = some (pumped, later)) :
    pumped.isGone = link.isGone := by
  cases link with
  | attached connection outbox =>
    simp only [pumpOnce?] at possible
    split at possible
    · cases possible
      rfl
    · cases possible
  | detached line => cases possible

theorem Link.isGone_take? {link taken : Link} {event : LineEvent}
    (possible : link.take? event = some taken) : taken.isGone = link.isGone := by
  cases link with
  | attached connection outbox => cases possible
  | detached line =>
    cases possible
    cases event with
    | deliver message =>
      simp only [isGone, Line.take, Line.deliver]
      split
      · exact congrArg not (Mailbox.held_deliver line.mailbox message)
      · rfl
    | hangUp | refuse => rfl

namespace Population

variable {calendar : Nat → String} {population next : Population} {move : Move}

/-- A move either is about one user or leaves all users and all that they count as it was. -/
theorem step?_cases (possible : population.step? calendar move = some next) :
    (∃ index user moved after, move.user? = some index ∧
      population.users[index]? = some user ∧ Effect population after user moved ∧
      next = after.setUser index moved) ∨
    (move.user? = none ∧ next.users = population.users ∧ next.counters = population.counters ∧
      next.recorder = population.recorder ∧ next.completion = population.completion) := by
  cases move with
  | cancel index =>
    simp only [step?, Option.bind_eq_bind, Option.bind_eq_some_iff] at possible
    obtain ⟨user, found, moved, cancelled, result⟩ := possible
    exact .inl ⟨index, user, moved, population, rfl, found, cancelUser?_effect cancelled,
      (Option.some.inj result).symm⟩
  | abort index =>
    simp only [step?, Option.bind_eq_bind, Option.bind_eq_some_iff] at possible
    obtain ⟨user, found, moved, aborted, result⟩ := possible
    exact .inl ⟨index, user, moved, population, rfl, found, abortUser?_effect aborted,
      (Option.some.inj result).symm⟩
  | proceed index =>
    simp only [step?, Option.bind_eq_bind, Option.bind_eq_some_iff] at possible
    obtain ⟨user, found, ⟨moved, after⟩, proceeded, result⟩ := possible
    exact .inl ⟨index, user, moved, after, rfl, found, proceedUser?_effect proceeded,
      (Option.some.inj result).symm⟩
  | pump index =>
    simp only [step?, Option.bind_eq_bind, Option.bind_eq_some_iff] at possible
    obtain ⟨user, found, link, linked, ⟨pumped, hub⟩, took, result⟩ := possible
    have gone : user.link.map Link.isGone = some pumped.isGone := by
      rw [linked, Option.map_some, Link.isGone_pumpOnce? took]
    exact .inl ⟨index, user, _, { population with hub }, rfl, found,
      .relinked gone rfl rfl rfl rfl, (Option.some.inj result).symm⟩
  | line index event =>
    simp only [step?, Option.bind_eq_bind, Option.bind_eq_some_iff] at possible
    obtain ⟨user, found, link, linked, taken, took, result⟩ := possible
    have gone : user.link.map Link.isGone = some taken.isGone := by
      rw [linked, Option.map_some, Link.isGone_take? took]
    exact .inl ⟨index, user, _, population, rfl, found,
      .relinked gone rfl rfl rfl rfl, (Option.some.inj result).symm⟩
  | publish origin message =>
    cases possible
    exact .inr ⟨rfl, rfl, rfl, rfl, rfl⟩
  | advance time =>
    simp only [step?] at possible
    split at possible
    · cases possible
      exact .inr ⟨rfl, rfl, rfl, rfl, rfl⟩
    · cases possible
  | measure reading =>
    simp only [step?] at possible
    split at possible
    · cases possible
      exact .inr ⟨rfl, rfl, rfl, rfl, rfl⟩
    · cases possible

end Population

end ChatHub
