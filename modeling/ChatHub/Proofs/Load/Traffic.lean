import ChatHub.Proofs.Load.Lives
import ChatHub.Proofs.Load.Wiring
/-!
What the occurrences of a population do to the hub that its users are attached to, as a history of
this hub. Main statements: `Happens.hubRun`, by which the history is one, and `Happens.seated`, by
which no user loses its connection through anyone else.
-/

set_option autoImplicit false

namespace ChatHub

namespace Phase

/-- Whether a user takes a message out of its mailbox on the way from one phase to another. -/
def hears : Phase → Phase → Bool
  | .awaiting .., .answered _ => true
  | _, _ => false

theorem hears_self (phase : Phase) : phase.hears phase = false := by
  cases phase <;> rfl

private theorem hears_dropped (phase : Phase) : phase.hears phase.dropped = false := by
  cases phase <;> rfl

theorem eq_of_hears {phase next : Phase} (hears : phase.hears next = true) :
    ∃ sentAt deadline sentAt', phase = .awaiting sentAt deadline ∧ next = .answered sentAt' := by
  cases phase with
  | awaiting sentAt deadline =>
    cases next with
    | answered sentAt' => exact ⟨sentAt, deadline, sentAt', rfl, rfl⟩
    | _ => cases hears
  | _ => cases hears

private theorem holdsLink_dropped {phase : Phase} (suspended : phase.isSuspended = true) :
    phase.dropped.holdsLink = phase.holdsLink := by
  cases phase with
  | connecting _ | waitingForStart | awaiting _ _ | pacing _ => rfl
  | _ => cases suspended

end Phase

namespace Hub

/-- A connection stays attached, and keeps its mailbox, until it is ended. -/
theorem Step.keeps {hub next : Hub} {event : Event} {id : ConnectionId}
    (step : Step hub event next) (sound : hub.Sound) (attached : hub.isAttached id = true)
    (isOpen : hub.isOpen id = true) (stays : event ≠ .detached id) (owned : event ≠ .abandoned id) :
    next.isAttached id = true ∧ next.isOpen id = true := by
  constructor
  · rw [step.isAttached sound, attached]
    cases event with
    | detached other =>
      have foreign : other ≠ id := fun same => stays (congrArg _ same)
      simp [Event.attaches, foreign]
    | _ => rfl
  · obtain ⟨mailbox, found⟩ := Option.isSome_iff_exists.mp (sound.mailbox attached)
    have held : mailbox.held = true := by rwa [Hub.isOpen, found, Option.any_some] at isOpen
    cases step with
    | attach =>
      rw [Hub.isOpen, attach_mailbox]
      split
      · rfl
      · rwa [found, Option.any_some]
    | publish origin message timestamp =>
      rw [Hub.isOpen, sound.publish_mailbox]
      split <;> simp [found, held]
    | detach => exact isOpen
    | dropMailbox other =>
      have foreign : id ≠ other := fun same => owned (congrArg _ same.symm)
      rwa [Hub.isOpen, dropMailbox_mailbox, if_neg foreign, found, Option.any_some]
    | @poll _ other _ polled =>
      obtain ⟨old, rest, there, _, kept, rfl⟩ := eq_of_poll_message polled
      rw [Hub.isOpen, Registry.get?_modify]
      split
      · rename_i same
        subst same
        rw [found] at there
        cases there
        simp [found, kept, held]
      · rwa [found, Option.any_some]
    | drain other =>
      rw [Hub.isOpen, drain_mailbox]
      split <;> simp [found, Mailbox.drain, held]

theorem Run.keeps {first last : Hub} {events : List Event} {id : ConnectionId}
    (run : Run first events last) (sound : first.Sound) (attached : first.isAttached id = true)
    (isOpen : first.isOpen id = true)
    (harmless : ∀ event ∈ events, event ≠ .detached id ∧ event ≠ .abandoned id) :
    last.isAttached id = true ∧ last.isOpen id = true := by
  induction run with
  | nil => exact ⟨attached, isOpen⟩
  | cons step later ih =>
    obtain ⟨stays, owned⟩ := harmless _ List.mem_cons_self
    have now := step.keeps sound attached isOpen stays owned
    exact ih (step.sound sound) now.1 now.2 fun event member =>
      harmless event (List.mem_cons_of_mem _ member)

/-- Nothing has ever been taken from a connection that is still to come. -/
theorem Run.taken_eq_nil {first last : Hub} {events : List Event} {id : ConnectionId}
    (run : Run first events last) (sound : first.Sound) (late : last.nextId ≤ id) :
    taken id events = [] := by
  induction run with
  | nil => rfl
  | cons step later ih =>
    have onward := Nat.le_trans (step.nextId_le sound) (Run.nextId_le later (step.sound sound))
    have absent := sound.fresh (Nat.le_trans onward late)
    have rest := ih (step.sound sound) late
    simp only [taken, List.flatMap_cons] at rest ⊢
    rw [rest, List.append_nil]
    cases step with
    | @poll _ other _ polled =>
      obtain ⟨_, _, found, _⟩ := eq_of_poll_message polled
      have foreign : other ≠ id := by
        rintro rfl
        rw [absent] at found
        cases found
      simp [Event.takenFrom, foreign]
    | drain other =>
      rw [Event.takenFrom]
      split
      · rename_i same
        subst same
        simp [Hub.drain, queued, absent]
      · rfl
    | _ => rfl

end Hub

/-! ## What a moment does to the hub -/

/-- What a step of a user does to the hub, seen from the user's link. Whatever was at the front of
its mailbox is what it hears. -/
def User.hubEvents (hub : Hub) (user moved : User) : List Hub.Event :=
  match user.connection?, moved.connection? with
  | none, some own => [.attached own]
  | some own, none => [.abandoned own, .detached own]
  | some own, some _ =>
    if user.phase.hears moved.phase then [.took own ((hub.queued own).take 1)] else []
  | none, none => []

/-- What a step of the pump behind a user's link does to the hub. -/
def User.pumpEvent? (timestamp : String) (user : User) : Option Hub.Event := do
  let own ← user.connection?
  let message ← user.backlog.head?
  some (.published own (message.stamp timestamp))

/-- What a moment does to the hub. -/
def Moment.hubEvents (calendar : Nat → String) (moment : Moment) : List Hub.Event :=
  let before := moment.before
  match moment.occurrence with
  | .peer event => [event]
  | .move (.publish origin message) =>
    [.published origin (message.stamp (calendar before.now))]
  | .move (.pump index) =>
    (before.users[index]?.bind (User.pumpEvent? (calendar before.now))).toList
  | .move move =>
    (do
      let index ← move.user?
      let user ← before.users[index]?
      let moved ← moment.after.users[index]?
      some (user.hubEvents before.hub moved)).getD []
  | _ => []

namespace Population

/-! ## One user -/

section Task

variable {population : Population} {user moved : User} {hub : Hub}

theorem Alone.hears {phase next : Phase} (course : Alone population phase next) :
    phase.hears next = false := by
  cases course with
  | leave suspended linked cancelled => cases phase <;> rfl
  | _ => rfl

private theorem taken_hubEvents_of_ne {own : ConnectionId} (foreign : user.connection? ≠ some own) :
    Hub.taken own (user.hubEvents hub moved) = [] := by
  rw [User.hubEvents]
  split
  · rfl
  · rfl
  · rename_i other _ connected _
    have another : other ≠ own := fun same => foreign (same ▸ connected)
    split
    · simp [Hub.taken, Hub.Event.takenFrom, another]
    · rfl
  · rfl

theorem hubEvents_eq_nil (connection : moved.connection? = user.connection?)
    (silent : user.phase.hears moved.phase = false) : user.hubEvents hub moved = [] := by
  rw [User.hubEvents, connection, silent]
  cases user.connection? <;> rfl

theorem Task.hubRun (task : Task population user moved hub) (onHub : user.OnHub)
    (changed : moved.phase ≠ user.phase) :
    Hub.Run population.hub (user.hubEvents population.hub moved) hub := by
  cases task with
  | alone course connection _ =>
    rw [hubEvents_eq_nil connection course.hears]
    exact .nil
  | connect connecting _ _ connection _ =>
    have alone := onHub.connection?_eq_none (by rw [connecting]; rfl)
    rw [User.hubEvents, alone, connection]
    exact (Hub.Step.attach population.hub).run
  | send probing sent connection _ =>
    rw [hubEvents_eq_nil connection (by rw [probing]; rfl)]
    exact .nil
  | @hear own message _ _ _ awaiting answered connected connection _ polled =>
    obtain ⟨mailbox, rest, found, front, _⟩ := Hub.eq_of_poll_message polled
    have queued : population.hub.queued own = message :: rest.messages := by
      rw [Hub.queued, found, Option.map_some, Option.getD_some, front]
    have hears : user.phase.hears moved.phase = true := by rw [awaiting, answered]; rfl
    rw [User.hubEvents, connection, connected]
    simp only [hears, if_true, queued, List.take_succ_cons, List.take_zero]
    exact (Hub.Step.poll polled).run
  | close awaiting lost _ connection _ _ _ =>
    rw [hubEvents_eq_nil connection (by rw [awaiting, lost]; rfl)]
    exact .nil
  | @unlink own _ _ _ connected connection _ =>
    rw [User.hubEvents, connected, connection]
    exact .cons (.dropMailbox _ own) (Hub.Step.detach _ own).run
  | pump phase _ _ _ => exact absurd phase changed

/-- A user that hears takes exactly one message out of its mailbox. -/
theorem Task.length_taken (task : Task population user moved hub) (onHub : user.OnHub)
    {own : ConnectionId} (connected : user.connection? = some own) :
    (Hub.taken own (user.hubEvents population.hub moved)).length =
      (user.phase.hears moved.phase).toNat := by
  have still : moved.connection? = user.connection? → user.phase.hears moved.phase = false →
      (Hub.taken own (user.hubEvents population.hub moved)).length =
        (user.phase.hears moved.phase).toNat := by
    intro connection silent
    rw [hubEvents_eq_nil connection silent, silent]
    rfl
  cases task with
  | alone course connection _ => exact still connection course.hears
  | connect connecting _ _ _ _ =>
    rw [onHub.connection?_eq_none (by rw [connecting]; rfl)] at connected
    cases connected
  | send probing _ connection _ => exact still connection (by rw [probing]; rfl)
  | hear awaiting answered linked connection _ polled =>
    rw [connected] at linked
    cases linked
    obtain ⟨mailbox, rest, found, front, _⟩ := Hub.eq_of_poll_message polled
    have hears : user.phase.hears moved.phase = true := by rw [awaiting, answered]; rfl
    rw [User.hubEvents, connection, connected]
    simp [hears, Hub.taken, Hub.Event.takenFrom, Hub.queued, found, front]
  | close awaiting lost _ connection _ _ _ =>
    exact still connection (by rw [awaiting, lost]; rfl)
  | unlink stopping _ linked connection _ =>
    rw [User.hubEvents, linked, connection, stopping]
    rfl
  | pump phase _ connection _ => exact still connection (by rw [phase, Phase.hears_self])

end Task

/-! ## One move -/

/-- Something is about a user, and neither the hub nor its connection takes part. -/
structure Rests (before : Population) (index : Nat) (user moved : User) (after : Population) :
    Prop where
  found : before.users[index]? = some user
  users : after.users = before.users.set index moved
  hub : after.hub = before.hub
  connection : moved.connection? = user.connection?
  onHub : user.OnHub → moved.OnHub
  silent : user.phase.hears moved.phase = false

section Move

variable {calendar : Nat → String} {before after : Population} {move : Move}

private theorem Way.ne {phase next : Phase} (way : Way before phase next) : next ≠ phase := by
  cases way with
  | leave suspended linked _ =>
    rintro rfl
    cases suspended
  | _ => exact nofun

private theorem phase_ne {index : Nat} {user moved : User} (isTask : move.isTask = true)
    (unpumped : move ≠ .pump index) (possible : before.step? calendar move = some after)
    (about : move.user? = some index) (found : before.users[index]? = some user)
    (there : after.users[index]? = some moved) : moved.phase ≠ user.phase := by
  obtain ⟨_, _, turn⟩ := turn_of_step? about possible
  rw [turn.getElem?, if_pos rfl] at there
  cases there
  cases turn.found.symm.trans found
  have shift := turn.shift
  generalize user.phase = phase at shift ⊢
  generalize moved.phase = next at shift ⊢
  cases shift with
  | cancel way | proceed way => exact way.ne
  | pump =>
    cases about
    exact absurd rfl unpumped
  | abort | line => cases isTask

private theorem connection?_take {link taken : Link} {event : LineEvent}
    (possible : link.take? event = some taken) : taken.connection? = link.connection? := by
  cases link with
  | attached connection outbox => cases possible
  | detached line =>
    cases possible
    rfl

/-- What is about a user is a step of a task, or leaves the hub alone. -/
theorem task_or_rests {index : Nat} (onHub : ∀ user ∈ before.users, user.OnHub)
    (about : move.user? = some index) (possible : before.step? calendar move = some after) :
    ∃ user moved, (move.isTask = true ∧ TaskStep before after index user moved) ∨
      Rests before index user moved after := by
  cases isTask : move.isTask with
  | true =>
    obtain ⟨other, user, moved, same, step⟩ := task_of_step? onHub isTask possible
    rw [about] at same
    cases same
    exact ⟨user, moved, .inl ⟨rfl, step⟩⟩
  | false =>
    cases move with
    | abort _ =>
      cases about
      simp only [step?, Option.bind_eq_bind, Option.bind_eq_some_iff] at possible
      obtain ⟨user, found, moved, aborted, result⟩ := possible
      cases result
      obtain ⟨suspended, rfl⟩ := abortUser?_eq_some aborted
      exact ⟨user, _, .inr
        { found := found, users := rfl, hub := rfl, connection := rfl
          onHub := fun onHub =>
            { connector := onHub.connector
              connected := onHub.connected.trans (Phase.holdsLink_dropped suspended).symm }
          silent := Phase.hears_dropped _ }⟩
    | line _ event =>
      cases about
      simp only [step?, Option.bind_eq_bind, Option.bind_eq_some_iff] at possible
      obtain ⟨user, found, link, linked, taken, took, result⟩ := possible
      cases result
      have same : taken.connection? = user.connection? := by
        rw [connection?_take took, User.connection?, linked, Option.bind_some]
      exact ⟨user, _, .inr
        { found := found, users := rfl, hub := rfl, connection := same
          onHub := fun onHub =>
            { connector := onHub.connector
              connected := (congrArg Option.isSome same).trans onHub.connected }
          silent := Phase.hears_self _ }⟩
    | cancel _ | proceed _ | pump _ => cases isTask
    | publish _ _ | advance _ | measure _ => cases about

theorem hubEvents_about {index : Nat} {user moved : User} (about : move.user? = some index)
    (found : before.users[index]? = some user) (there : after.users[index]? = some moved)
    (unpumped : move ≠ .pump index) :
    Moment.hubEvents calendar ⟨before, .move move, after⟩ = user.hubEvents before.hub moved := by
  cases move with
  | pump other =>
    cases about
    exact absurd rfl unpumped
  | publish _ _ | advance _ | measure _ => cases about
  | cancel _ | proceed _ | abort _ | line _ _ =>
    cases about
    simp [Moment.hubEvents, Move.user?, found, there]

private theorem hubRun_of_step? (onHub : ∀ user ∈ before.users, user.OnHub)
    (possible : before.step? calendar move = some after) :
    Hub.Run before.hub (Moment.hubEvents calendar ⟨before, .move move, after⟩) after.hub := by
  cases about : move.user? with
  | none =>
    cases move with
    | publish origin message =>
      cases possible
      exact (Hub.Step.publish _ origin message _).run
    | advance _ | measure _ =>
      simp only [step?] at possible
      split at possible
      · cases possible
        exact .nil
      · cases possible
    | _ => cases about
  | some index =>
    by_cases pumped : move = .pump index
    · subst pumped
      simp only [step?, Option.bind_eq_bind, Option.bind_eq_some_iff] at possible
      obtain ⟨user, found, link, linked, ⟨pumped, hub⟩, took, result⟩ := possible
      cases result
      cases link with
      | detached line => cases took
      | attached own outbox =>
        simp only [Link.pumpOnce?] at took
        split at took
        · rename_i message rest popped
          cases took
          have backlog : outbox.toList = message :: rest.toList := Fifo.pop?_eq_some popped
          simp only [Moment.hubEvents, found, Option.bind_some, User.pumpEvent?, User.connection?,
            User.backlog, linked, Link.connection?, Link.backlog, backlog, Option.elim_some,
            List.head?_cons, Option.bind_eq_bind, Option.toList_some]
          exact (Hub.Step.publish _ own message _).run
        · cases took
    · obtain ⟨user, moved, ⟨isTask, step⟩ | rests⟩ := task_or_rests onHub about possible
      · have there : after.users[index]? = some moved := by rw [step.getElem?, if_pos rfl]
        rw [hubEvents_about about step.found there pumped]
        exact step.task.hubRun (onHub user (List.mem_of_getElem? step.found))
          (phase_ne isTask pumped possible about step.found there)
      · have there : after.users[index]? = some moved := by
          rw [rests.users, List.getElem?_set_self', rests.found]
          rfl
        rw [hubEvents_about about rests.found there pumped, hubEvents_eq_nil rests.connection
          rests.silent, rests.hub]
        exact .nil

end Move

/-! ## One moment -/

section Happens

variable {calendar : Nat → String} {before after : Population} {occurrence : Occurrence}

theorem Happens.hubRun (happens : before.Happens calendar occurrence after)
    (onHub : ∀ user ∈ before.users, user.OnHub) :
    Hub.Run before.hub (Moment.hubEvents calendar ⟨before, occurrence, after⟩) after.hub := by
  cases happens with
  | move possible => exact hubRun_of_step? onHub possible
  | peer step _ => exact step.run
  | opened | cancelled | beginPhase | gather => exact .nil

theorem Happens.harmless (happens : before.Happens calendar occurrence after)
    (about : occurrence.user? = none) {index : Nat} {id : ConnectionId}
    (connected : before.connectionAt index = some id) :
    ∀ event ∈ Moment.hubEvents calendar ⟨before, occurrence, after⟩,
      event ≠ .detached id ∧ event ≠ .abandoned id := by
  intro event member
  cases happens with
  | @peer happened _ _ foreign =>
    rw [Moment.hubEvents, List.mem_singleton] at member
    subst member
    obtain ⟨user, found, connected⟩ := Option.bind_eq_some_iff.mp connected
    have another := foreign user (List.mem_of_getElem? found)
    constructor <;> rintro rfl <;> exact another connected
  | @move move _ possible =>
    cases move with
    | publish origin message =>
      rw [Moment.hubEvents, List.mem_singleton] at member
      subst member
      exact ⟨nofun, nofun⟩
    | advance _ | measure _ => cases member
    | _ => cases about
  | opened | cancelled | beginPhase | gather => cases member

theorem Rests.connectionAt {index : Nat} {user moved : User}
    (rests : Rests before index user moved after) (other : Nat) :
    after.connectionAt other = before.connectionAt other := by
  rw [Population.connectionAt, Population.connectionAt, rests.users]
  by_cases same : index = other
  · subst same
    rw [List.getElem?_set_self', rests.found]
    exact rests.connection
  · rw [List.getElem?_set_ne same]

theorem Happens.seated (happens : before.Happens calendar occurrence after)
    (seated : before.Seated) : after.Seated := by
  have run := happens.hubRun seated.onHub
  cases about : occurrence.user? with
  | none =>
    have users : after.users = before.users := by
      rcases happens.cases with ⟨move, index, _, _, rfl, turn⟩ | aside
      · rw [Occurrence.user?, turn.about] at about
        cases about
      · exact aside.users
    have connections : ∀ index, after.connectionAt index = before.connectionAt index := by
      intro index
      rw [Population.connectionAt, users, Population.connectionAt]
    refine
      { sound := run.sound seated.sound, onHub := users ▸ seated.onHub, own := ?_, attached := ?_ }
    · intro first second id isFirst isSecond
      rw [connections] at isFirst isSecond
      exact seated.own isFirst isSecond
    · intro index id connected
      rw [connections] at connected
      obtain ⟨attached, isOpen⟩ := seated.attached connected
      exact run.keeps seated.sound attached isOpen (happens.harmless about connected)
  | some index =>
    cases happens with
    | move possible =>
      -- Only a step of a task can attach or detach; all else leaves connections and hub alone.
      obtain ⟨user, moved, ⟨_, step⟩ | rests⟩ := task_or_rests seated.onHub about possible
      · exact seated.step step
      · refine
          { sound := rests.hub ▸ seated.sound, onHub := ?_, own := ?_, attached := ?_ }
        · intro other member
          rw [rests.users] at member
          rcases List.mem_or_eq_of_mem_set member with old | rfl
          · exact seated.onHub other old
          · exact rests.onHub (seated.onHub user (List.mem_of_getElem? rests.found))
        · intro first second id isFirst isSecond
          rw [rests.connectionAt] at isFirst isSecond
          exact seated.own isFirst isSecond
        · intro other id connected
          rw [rests.connectionAt] at connected
          rw [rests.hub]
          exact seated.attached connected
    | _ => cases about

variable {index : Nat} {user moved : User} {own : ConnectionId}

/-- One user at one moment: something is about it, which is a step of its task or leaves the hub
alone, or it stays as it is. -/
theorem Happens.view (happens : before.Happens calendar occurrence after) (seated : before.Seated)
    (found : before.users[index]? = some user) (there : after.users[index]? = some moved) :
    (∃ move, occurrence = .move move ∧ Turn before move index user moved after ∧
      (TaskStep before after index user moved ∨ Rests before index user moved after)) ∨
    (occurrence.user? ≠ some index ∧ moved = user) := by
  obtain ⟨_, isUser, ⟨move, rfl, turn⟩ | ⟨foreign, same⟩⟩ := happens.user there
  · cases found.symm.trans isUser
    left
    refine ⟨move, rfl, turn, ?_⟩
    cases happens with
    | move possible =>
      obtain ⟨_, next, ⟨_, step⟩ | rests⟩ := task_or_rests seated.onHub turn.about possible
      · cases found.symm.trans step.found
        have isMoved := step.getElem? index
        rw [there, if_pos rfl] at isMoved
        cases isMoved
        exact .inl step
      · cases found.symm.trans rests.found
        have isMoved := turn.users.symm.trans rests.users
        have inside := (List.getElem?_eq_some_iff.mp found).1
        have same := congrArg (·[index]?) isMoved
        simp only [List.getElem?_set_self inside, Option.some.injEq] at same
        subst same
        exact .inr rests
  · cases found.symm.trans isUser
    exact .inr ⟨foreign, same⟩

private theorem Turn.phase_of_pump {other : Nat}
    (turn : Turn before (.pump other) index user moved after) :
    moved.phase = user.phase := by
  have shift := turn.shift
  generalize user.phase = phase at shift ⊢
  generalize moved.phase = next at shift ⊢
  cases shift
  rfl

/-- A user connects once, with a number that nobody had before. -/
theorem Happens.connection (happens : before.Happens calendar occurrence after)
    (seated : before.Seated) (found : before.users[index]? = some user)
    (there : after.users[index]? = some moved) (connected : moved.connection? = some own) :
    user.connection? = some own ∨
      (user.connection? = none ∧ own = before.hub.nextId ∧
        (∃ due, user.phase = .connecting due) ∧
        Moment.hubEvents calendar ⟨before, occurrence, after⟩ = [.attached own]) := by
  have linked := ((happens.seated seated).onHub moved (List.mem_of_getElem? there)).connected
  obtain ⟨move, rfl, turn, step | rests⟩ | ⟨_, rfl⟩ := happens.view seated found there
  · have onHub := seated.onHub user (List.mem_of_getElem? found)
    rcases step.task.connection onHub connected with same | ⟨alone, isNew⟩
    · exact .inl same
    · obtain ⟨due, connecting⟩ := step.task.connecting alone (by rw [connected]; rfl)
      have unpumped : move ≠ .pump index := by
        rintro rfl
        rw [turn.phase_of_pump, connecting, connected] at linked
        cases linked
      refine .inr ⟨alone, isNew, ⟨due, connecting⟩, ?_⟩
      rw [hubEvents_about turn.about found there unpumped, User.hubEvents, alone, connected]
  · exact .inl (rests.connection.symm.trans connected)
  · exact .inl connected

theorem published_of_pump {other : Nat} {event : Hub.Event}
    (member : event ∈ Moment.hubEvents calendar ⟨before, .move (.pump other), after⟩) :
    ∃ origin message, event = .published origin message := by
  simp only [Moment.hubEvents, Option.mem_toList, Option.bind_eq_some_iff,
    User.pumpEvent?, Option.bind_eq_bind, Option.some.injEq] at member
  obtain ⟨_, _, origin, _, message, _, rfl⟩ := member
  exact ⟨origin, _, rfl⟩

private theorem taken_pump (other : Nat) :
    Hub.taken own (Moment.hubEvents calendar ⟨before, .move (.pump other), after⟩) = [] := by
  refine List.flatMap_eq_nil_iff.mpr ?_
  intro event member
  obtain ⟨origin, message, rfl⟩ := published_of_pump member
  rfl

/-- Nobody but its user takes messages from a mailbox. -/
theorem Happens.taken_eq_nil (happens : before.Happens calendar occurrence after)
    (seated : before.Seated) (foreign : occurrence.user? ≠ some index)
    (found : before.users[index]? = some user) (connected : user.connection? = some own) :
    Hub.taken own (Moment.hubEvents calendar ⟨before, occurrence, after⟩) = [] := by
  cases happens with
  | @peer event _ _ others =>
    have another := others user (List.mem_of_getElem? found)
    rw [connected] at another
    cases event with
    | took other _ =>
      have different : other ≠ own := fun same => another (congrArg some same.symm)
      simp [Moment.hubEvents, Hub.taken, Hub.Event.takenFrom, different]
    | _ => rfl
  | opened | cancelled | beginPhase | gather => rfl
  | @move move _ possible =>
    cases about : move.user? with
    | none =>
      cases move with
      | publish _ _ | advance _ | measure _ => rfl
      | _ => cases about
    | some other =>
      by_cases pumped : move = .pump other
      · rw [pumped]
        exact taken_pump other
      · obtain ⟨_, _, turn⟩ := turn_of_step? about possible
        have isMoved := turn.getElem? other
        rw [if_pos rfl] at isMoved
        rw [hubEvents_about about turn.found isMoved pumped]
        refine taken_hubEvents_of_ne (seated.foreign turn.found ?_
          ((connectionAt_of_found found).trans connected))
        rintro rfl
        exact foreign about

theorem Happens.length_taken (happens : before.Happens calendar occurrence after)
    (seated : before.Seated) (found : before.users[index]? = some user)
    (there : after.users[index]? = some moved) (connected : user.connection? = some own) :
    (Hub.taken own (Moment.hubEvents calendar ⟨before, occurrence, after⟩)).length =
      (user.phase.hears moved.phase).toNat := by
  obtain ⟨move, rfl, turn, kind⟩ | ⟨foreign, rfl⟩ := happens.view seated found there
  · by_cases pumped : move = .pump index
    · subst pumped
      rw [taken_pump, turn.phase_of_pump, Phase.hears_self]
      rfl
    · rw [hubEvents_about turn.about found there pumped]
      rcases kind with step | rests
      · exact step.task.length_taken (seated.onHub user (List.mem_of_getElem? found)) connected
      · rw [hubEvents_eq_nil rests.connection rests.silent, rests.silent]
        rfl
  · rw [happens.taken_eq_nil seated foreign found connected, Phase.hears_self]
    rfl

end Happens

end Population

end ChatHub
