import ChatHub.Proofs.Hub.Ledger
import ChatHub.Proofs.Load.History
/-!
What the tasks of a load test do when every connector attaches to the hub: the steps of users and
pumps, seen through phase, connection and backlog. Main statement: `Population.task_of_step?`, from
which everything else about such a step follows.
-/

set_option autoImplicit false

namespace ChatHub

/-- What was sent over a link and its pump has not taken yet, oldest first. -/
def Link.backlog : Link → List Inbound
  | .attached _ outbox => outbox.toList
  | .detached _ => []

namespace User

/-- The connection whose peer the pump of the user's link owns. -/
def connection? (user : User) : Option ConnectionId :=
  user.link.bind Link.connection?

/-- What the user has sent and its pump has not taken yet. -/
def backlog (user : User) : List Inbound :=
  user.link.elim [] Link.backlog

/-- A user that its connector attaches, and that stays attached while it has its link in hand. -/
structure OnHub (user : User) : Prop where
  connector : user.connector = .attach
  connected : user.connection?.isSome = user.phase.holdsLink

theorem link_of_connection? {user : User} {connection : ConnectionId}
    (connected : user.connection? = some connection) :
    ∃ outbox, user.link = some (.attached connection outbox) := by
  obtain ⟨link, held, behind⟩ := Option.bind_eq_some_iff.mp connected
  cases link with
  | attached _ outbox =>
    cases behind
    exact ⟨outbox, held⟩
  | detached line => cases behind

theorem backlog_eq_nil {user : User} (alone : user.connection? = none) : user.backlog = [] := by
  obtain ⟨id, connector, link, phase, handle⟩ := user
  cases link with
  | none => rfl
  | some link =>
    cases link with
    | attached connection outbox => cases alone
    | detached line => rfl

theorem OnHub.connection?_eq_none {user : User} (onHub : user.OnHub)
    (unlinked : user.phase.holdsLink = false) : user.connection? = none := by
  have connected := onHub.connected
  rwa [unlinked, Option.isSome_eq_false_iff, Option.isNone_iff_eq_none] at connected

theorem OnHub.attached {user : User} (onHub : user.OnHub) (holds : user.phase.holdsLink = true) :
    ∃ connection outbox, user.link = some (.attached connection outbox) := by
  have connected := onHub.connected
  rw [holds, Option.isSome_iff_exists] at connected
  obtain ⟨connection, connected⟩ := connected
  exact ⟨connection, link_of_connection? connected⟩

end User

/-- Whether a move is a step of a task: not of a clock, of another party, or of whoever drops
tasks. -/
def Move.isTask : Move → Bool
  | .cancel _ | .proceed _ | .pump _ => true
  | _ => false

theorem Move.user?_of_isTask {move : Move} (isTask : move.isTask = true) :
    ∃ index, move.user? = some index := by
  cases move with
  | cancel index | proceed index | pump index => exact ⟨index, rfl⟩
  | _ => cases isTask

namespace Population

/-! ## What a task does -/

/-- The ways of a user in which nothing else takes part but clock, gate and cancellation. -/
inductive Alone (population : Population) : Phase → Phase → Prop where
  | begin (isOpen : population.start.isOpen = true) : Alone population .waitingForStart .probing
  | count (sentAt : Nat) :
      Alone population (.sent sentAt)
        (.awaiting sentAt (population.now + population.settings.waitBound))
  | expire (sentAt deadline : Nat) (due : deadline ≤ population.now) :
      Alone population (.awaiting sentAt deadline) .unanswered
  | measure (sentAt : Nat) :
      Alone population (.answered sentAt) (.pacing (population.now + population.settings.pacing))
  | pass : Alone population .unanswered (.pacing (population.now + population.settings.pacing))
  | again (until_ : Nat) (due : until_ ≤ population.now) :
      Alone population (.pacing until_) .probing
  | lose (state : UserState) (exit : UserExit) (exits : exit = .cancelled ∨ exit = .linkLost) :
      Alone population (.lost state) (.stopping (some exit))
  | giveUp (due : Option Nat) (cancelled : population.cancelled = true) :
      Alone population (.connecting due) (.stopped (some .cancelled))
  | leave {phase : Phase} (suspended : phase.isSuspended = true) (linked : phase.holdsLink = true)
      (cancelled : population.cancelled = true) :
      Alone population phase (.stopping (some .cancelled))
  | flush (exit : Option UserExit) : Alone population (.stopped exit) (.flushed exit)
  | finish (exit : Option UserExit) : Alone population (.flushed exit) (.ended exit)

/-- What a step of a task makes of its user and of the hub. -/
inductive Task (population : Population) (user moved : User) : Hub → Prop where
  | alone (course : Alone population user.phase moved.phase)
      (connection : moved.connection? = user.connection?) (backlog : moved.backlog = user.backlog) :
      Task population user moved population.hub
  | connect {due : Nat} (connecting : user.phase = .connecting (some due))
      (isDue : due ≤ population.now) (waits : moved.phase = .waitingForStart)
      (connection : moved.connection? = some population.hub.nextId) (backlog : moved.backlog = []) :
      Task population user moved population.hub.attach.2
  | send (probing : user.phase = .probing) (sent : moved.phase = .sent population.stopwatch)
      (connection : moved.connection? = user.connection?)
      (backlog : moved.backlog = user.backlog ++ [user.probe]) :
      Task population user moved population.hub
  | hear {own : ConnectionId} {message : Stamped} {hub : Hub} {sentAt deadline : Nat}
      (awaiting : user.phase = .awaiting sentAt deadline)
      (answered : moved.phase = .answered sentAt) (connected : user.connection? = some own)
      (connection : moved.connection? = user.connection?) (backlog : moved.backlog = user.backlog)
      (polled : population.hub.poll own = (some (.message message), hub)) :
      Task population user moved hub
  | close {own : ConnectionId} {outcome : Received} {sentAt deadline : Nat}
      (awaiting : user.phase = .awaiting sentAt deadline) (lost : moved.phase = .lost .awaitingEcho)
      (connected : user.connection? = some own)
      (connection : moved.connection? = user.connection?) (backlog : moved.backlog = user.backlog)
      (polled : (population.hub.poll own).1 = some outcome)
      (nothing : ∀ message, outcome ≠ .message message) :
      Task population user moved population.hub
  | unlink {own : ConnectionId} {exit : Option UserExit} (stopping : user.phase = .stopping exit)
      (stopped : moved.phase = .stopped exit) (connected : user.connection? = some own)
      (connection : moved.connection? = none) (backlog : moved.backlog = []) :
      Task population user moved ((population.hub.dropMailbox own).detach own)
  | pump {own : ConnectionId} {message : Inbound} {timestamp : String}
      (phase : moved.phase = user.phase) (connected : user.connection? = some own)
      (connection : moved.connection? = user.connection?)
      (backlog : user.backlog = message :: moved.backlog) :
      Task population user moved (population.hub.publish own message timestamp).2

/-- What no step of a task changes: the time, the settings, the gate and the cancellation. -/
structure SameSignals (before after : Population) : Prop where
  settings : after.settings = before.settings
  start : after.start = before.start
  cancelled : after.cancelled = before.cancelled
  now : after.now = before.now

/-- A step of one user's task, as part of the population. -/
structure TaskStep (before after : Population) (index : Nat) (user moved : User) : Prop where
  found : before.users[index]? = some user
  task : Task before user moved after.hub
  connector : moved.connector = user.connector
  users : after.users = before.users.set index moved
  signals : SameSignals before after

section Inversion

variable {before after : Population} {user moved : User}

private theorem cancelUser?_task (possible : before.cancelUser? user = some moved) :
    Task before user moved before.hub ∧ moved.connector = user.connector := by
  obtain ⟨id, connector, link, phase, handle⟩ := user
  simp only [cancelUser?] at possible
  split at possible
  · rename_i cancelled
    cases phase with
    | connecting due =>
      cases possible
      exact ⟨.alone (.giveUp due cancelled) rfl rfl, rfl⟩
    | waitingForStart | awaiting sentAt deadline | pacing until_ =>
      cases possible
      exact ⟨.alone (.leave rfl rfl cancelled) rfl rfl, rfl⟩
    | _ => cases possible
  · cases possible

private theorem listen?_task {sentAt deadline : Nat} {own : ConnectionId} {outbox : Fifo Inbound}
    (awaiting : user.phase = .awaiting sentAt deadline)
    (linked : user.link = some (.attached own outbox))
    (heard : before.listen? user sentAt deadline = some (moved, after)) :
    Task before user moved after.hub ∧ moved.connector = user.connector ∧
      after.users = before.users ∧ SameSignals before after := by
  obtain ⟨id, connector, link, phase, handle⟩ := user
  subst awaiting linked
  simp only [listen?, Link.poll] at heard
  rcases polled : before.hub.poll own with ⟨outcome, hub⟩
  simp only [polled] at heard
  cases outcome with
  | none =>
    simp only at heard
    split at heard
    · rename_i due
      cases heard
      exact ⟨.alone (.expire sentAt deadline due) rfl rfl, rfl, rfl, rfl, rfl, rfl, rfl⟩
    · cases heard
  | some received =>
    cases received with
    | message message =>
      cases heard
      exact ⟨.hear rfl rfl rfl rfl rfl polled, rfl, rfl, rfl, rfl, rfl, rfl⟩
    | timedOut | closed =>
      cases heard
      refine ⟨.close rfl rfl rfl rfl rfl (congrArg Prod.fst polled) ?_,
        rfl, rfl, rfl, rfl, rfl, rfl⟩
      intro message same
      cases same

private theorem proceedUser?_task (onHub : user.OnHub)
    (possible : before.proceedUser? user = some (moved, after)) :
    Task before user moved after.hub ∧ moved.connector = user.connector ∧
      after.users = before.users ∧ SameSignals before after := by
  have attached := onHub.attached
  have detached := onHub.connection?_eq_none
  have connector := onHub.connector
  obtain ⟨id, connector, link, phase, handle⟩ := user
  simp only at attached detached connector
  cases phase with
  | connecting due =>
    subst connector
    simp only [proceedUser?, connected, Link.connect] at possible
    split at possible
    · rename_i isDue
      cases due with
      | none => cases isDue
      | some due =>
        cases possible
        exact ⟨.connect rfl (of_decide_eq_true isDue) rfl rfl rfl, rfl, rfl, rfl, rfl, rfl, rfl⟩
    · cases possible
  | waitingForStart =>
    simp only [proceedUser?] at possible
    split at possible
    · rename_i isOpen
      cases possible
      exact ⟨.alone (.begin isOpen) rfl rfl, rfl, rfl, rfl, rfl, rfl, rfl⟩
    · cases possible
  | probing =>
    obtain ⟨own, outbox, rfl⟩ := attached rfl
    cases possible
    exact ⟨.send rfl rfl rfl (Fifo.toList_push outbox _), rfl, rfl, rfl, rfl, rfl, rfl⟩
  | sent sentAt =>
    cases possible
    exact ⟨.alone (.count sentAt) rfl rfl, rfl, rfl, rfl, rfl, rfl, rfl⟩
  | awaiting sentAt deadline =>
    obtain ⟨own, outbox, rfl⟩ := attached rfl
    exact listen?_task rfl rfl possible
  | answered sentAt =>
    cases handle with
    | none => cases possible
    | some handle =>
      cases possible
      exact ⟨.alone (.measure sentAt) rfl rfl, rfl, rfl, rfl, rfl, rfl, rfl⟩
  | unanswered =>
    cases possible
    exact ⟨.alone .pass rfl rfl, rfl, rfl, rfl, rfl, rfl, rfl⟩
  | pacing until_ =>
    simp only [proceedUser?] at possible
    split at possible
    · rename_i due
      cases possible
      exact ⟨.alone (.again until_ due) rfl rfl, rfl, rfl, rfl, rfl, rfl, rfl⟩
    · cases possible
  | lost state =>
    simp only [proceedUser?, lose] at possible
    split at possible
    · cases possible
      exact ⟨.alone (.lose state _ (.inl rfl)) rfl rfl, rfl, rfl, rfl, rfl, rfl, rfl⟩
    · cases possible
      exact ⟨.alone (.lose state _ (.inr rfl)) rfl rfl, rfl, rfl, rfl, rfl, rfl, rfl⟩
  | stopping exit =>
    obtain ⟨own, outbox, rfl⟩ := attached rfl
    cases possible
    exact ⟨.unlink rfl rfl rfl rfl rfl, rfl, rfl, rfl, rfl, rfl, rfl⟩
  | stopped exit =>
    cases link with
    | none =>
      cases possible
      exact ⟨.alone (.flush exit) rfl rfl, rfl, rfl, rfl, rfl, rfl, rfl⟩
    | some link =>
      cases link with
      | attached own outbox => cases detached rfl
      | detached line =>
        cases possible
        exact ⟨.alone (.flush exit) rfl rfl, rfl, rfl, rfl, rfl, rfl, rfl⟩
  | flushed exit =>
    cases possible
    exact ⟨.alone (.finish exit) rfl rfl, rfl, rfl, rfl, rfl, rfl, rfl⟩
  | ended exit => cases possible

private theorem pumpOnce?_task {link pumped : Link} {timestamp : String} {hub : Hub}
    (linked : user.link = some link)
    (took : link.pumpOnce? timestamp before.hub = some (pumped, hub)) :
    Task before user { user with link := some pumped } hub := by
  obtain ⟨id, connector, link, phase, handle⟩ := user
  subst linked
  cases link with
  | attached own outbox =>
    simp only [Link.pumpOnce?] at took
    split at took
    · rename_i message rest popped
      cases took
      exact .pump rfl rfl rfl (Fifo.pop?_eq_some popped)
    · cases took
  | detached line => cases took

/-- A step of a task is a step of one user whose connector attaches, and leaves all others, the
time and the signals alone. -/
theorem task_of_step? {calendar : Nat → String} {move : Move}
    (onHub : ∀ user ∈ before.users, user.OnHub) (isTask : move.isTask = true)
    (possible : before.step? calendar move = some after) :
    ∃ index user moved, move.user? = some index ∧ TaskStep before after index user moved := by
  cases move with
  | cancel index =>
    simp only [step?, Option.bind_eq_bind, Option.bind_eq_some_iff] at possible
    obtain ⟨user, found, moved, cancelled, result⟩ := possible
    cases result
    obtain ⟨task, connector⟩ := cancelUser?_task cancelled
    exact ⟨index, user, moved, rfl, found, task, connector, rfl, rfl, rfl, rfl, rfl⟩
  | proceed index =>
    simp only [step?, Option.bind_eq_bind, Option.bind_eq_some_iff] at possible
    obtain ⟨user, found, ⟨moved, after⟩, proceeded, result⟩ := possible
    cases result
    obtain ⟨task, connector, users, signals⟩ :=
      proceedUser?_task (onHub user (List.mem_of_getElem? found)) proceeded
    refine ⟨index, user, moved, rfl, found, task, connector, ?_, ?_⟩
    · exact congrArg (·.set index moved) users
    · exact ⟨signals.settings, signals.start, signals.cancelled, signals.now⟩
  | pump index =>
    simp only [step?, Option.bind_eq_bind, Option.bind_eq_some_iff] at possible
    obtain ⟨user, found, link, linked, ⟨pumped, hub⟩, took, result⟩ := possible
    cases result
    exact ⟨index, user, _, rfl, found, pumpOnce?_task linked took, rfl, rfl, rfl, rfl, rfl, rfl⟩
  | _ => cases isTask

end Inversion

/-! ## What follows at once -/

section Task

variable {population : Population} {user moved : User} {hub : Hub}

theorem Task.onHub (task : Task population user moved hub)
    (connector : moved.connector = user.connector) (onHub : user.OnHub) : moved.OnHub := by
  refine ⟨connector.trans onHub.connector, ?_⟩
  have connected := onHub.connected
  cases task with
  | alone course connection backlog =>
    rw [connection, connected]
    generalize user.phase = phase at course ⊢
    generalize moved.phase = next at course ⊢
    cases course with
    | leave _ linked _ => exact linked
    | _ => rfl
  | connect _ _ waits connection _ => rw [waits, connection]; rfl
  | send probing sent connection _ => rw [connection, connected, probing, sent]; rfl
  | hear awaiting answered _ connection _ _ => rw [connection, connected, awaiting, answered]; rfl
  | close awaiting lost _ connection _ _ _ => rw [connection, connected, awaiting, lost]; rfl
  | unlink _ stopped _ connection _ => rw [stopped, connection]; rfl
  | pump phase _ connection _ => rw [connection, connected, phase]

end Task

end Population

end ChatHub
