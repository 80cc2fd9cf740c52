import ChatHub.Proofs.Load.Task
/-!
Users on one hub: each has a connection of its own, nobody else is attached, and whatever one of
them has sent, every other has heard, can still hear, or will hear from a pump. Main statements:
`Wired.step` and `Relayed.step`.
-/

set_option autoImplicit false

namespace ChatHub

namespace Phase

/-- Whether a user has sent a probe and not counted it. -/
def isSent : Phase → Bool
  | .sent _ => true
  | _ => false

/-- Whether a user has taken an answer and not recorded it. -/
def isAnswered : Phase → Bool
  | .answered _ => true
  | _ => false

/-- How many events of a kind there are on the way from one phase to another. -/
def gain (test : UserEvent → Bool) (stopwatch : Nat) (phase next : Phase) : Nat :=
  ((phase.event? stopwatch next).any test).toNat

theorem gain_self (test : UserEvent → Bool) (stopwatch : Nat) (phase : Phase) :
    gain test stopwatch phase phase = 0 := by
  rw [gain, event?_self]
  rfl

end Phase

namespace Hub

theorem Overhears.length_queued {hub next : Hub} {id : ConnectionId} {messages : List Stamped}
    (overhears : Overhears id messages hub next) (attached : hub.isAttached id = true)
    (isOpen : hub.isOpen id = true) :
    (next.queued id).length = (hub.queued id).length + messages.length := by
  rw [overhears.queued, attached, isOpen, Bool.and_self, if_pos rfl, List.length_append]

theorem Sound.lt_nextId {hub : Hub} (sound : hub.Sound) {id : ConnectionId}
    (attached : hub.isAttached id = true) : id < hub.nextId := by
  rcases Nat.lt_or_ge id hub.nextId with below | above
  · exact below
  · have present := sound.mailbox attached
    rw [sound.fresh above] at present
    cases present

theorem Sound.poll_attached {hub : Hub} (sound : hub.Sound) {id : ConnectionId}
    (attached : hub.isAttached id = true) {outcome : Received}
    (polled : (hub.poll id).1 = some outcome) : ∃ message, outcome = .message message := by
  rcases hub.poll_cases id with ⟨message, _, _, _, _, _, same⟩ | ⟨_, same⟩
  · rw [same] at polled
    exact ⟨message, (Option.some.inj polled).symm⟩
  · obtain ⟨mailbox, found⟩ := Option.isSome_iff_exists.mp (sound.mailbox attached)
    rw [same, found, attached] at polled
    cases polled

end Hub

namespace Population

/-! ## One task -/

section Task

variable {population : Population} {user moved : User} {hub : Hub}

theorem Task.sound (task : Task population user moved hub) (sound : population.hub.Sound) :
    hub.Sound := by
  cases task with
  | alone | send | close => exact sound
  | connect => exact sound.attach
  | hear _ _ _ _ _ polled => exact (Hub.Step.poll polled).sound sound
  | unlink => exact (sound.dropMailbox _).detach _
  | pump => exact sound.publish _ _ _

/-- What a task does to the hub, as a history. Only the user's own connection takes part. -/
theorem Task.run (task : Task population user moved hub) :
    ∃ events, Hub.Run population.hub events hub ∧
      ∀ event ∈ events, user.connection? = some event.subject ∨
        event.subject = population.hub.nextId := by
  cases task with
  | alone | send | close => exact ⟨[], .nil, nofun⟩
  | connect => exact ⟨_, (Hub.Step.attach population.hub).run, by simp [Hub.Event.subject]⟩
  | hear _ _ connected _ _ polled =>
    exact ⟨_, (Hub.Step.poll polled).run, by simp [Hub.Event.subject, connected]⟩
  | unlink _ _ connected =>
    exact ⟨_, .cons (.dropMailbox _ _) (Hub.Step.detach _ _).run,
      by simp [Hub.Event.subject, connected]⟩
  | pump _ connected =>
    exact ⟨_, (Hub.Step.publish _ _ _ _).run, by simp [Hub.Event.subject, connected]⟩

theorem Task.bystander (task : Task population user moved hub) (sound : population.hub.Sound)
    {other : ConnectionId} (attached : population.hub.isAttached other = true)
    (isOpen : population.hub.isOpen other = true) (foreign : user.connection? ≠ some other) :
    hub.isAttached other = true ∧ hub.isOpen other = true ∧
      (population.hub.queued other).length ≤ (hub.queued other).length := by
  obtain ⟨events, run, own⟩ := task.run
  have elsewhere : ∀ event ∈ events, event.subject ≠ other := by
    rintro event member rfl
    rcases own event member with mine | isNew
    · exact foreign mine
    · exact Nat.ne_of_lt (sound.lt_nextId attached) isNew
  have overhears := run.overhears sound elsewhere
  refine ⟨overhears.isAttached.trans attached, overhears.isOpen.trans isOpen, ?_⟩
  rw [overhears.length_queued attached isOpen]
  exact Nat.le_add_right _ _

theorem Alone.gain_probe {phase next : Phase} (course : Alone population phase next)
    (stopwatch : Nat) :
    Phase.gain (UserEvent.counts .probe) stopwatch phase next + next.isSent.toNat ≤
      phase.isSent.toNat := by
  cases course with
  | leave suspended linked _ =>
    cases phase <;> first | exact Nat.le_refl _ | cases suspended
  | lose state exit exits => rcases exits with rfl | rfl <;> exact Nat.le_refl _
  | _ => exact Nat.le_refl _

private theorem Alone.gain_measured {phase next : Phase} (course : Alone population phase next)
    (stopwatch : Nat) :
    phase.isAnswered.toNat ≤
      next.isAnswered.toNat + Phase.gain UserEvent.isMeasured stopwatch phase next := by
  cases course with
  | leave suspended linked _ =>
    cases phase <;> first | exact Nat.le_refl _ | cases suspended
  | _ => exact Nat.le_refl _

/-- What a user has sent is in its outbox until its pump hands it to everyone else. -/
theorem Task.relays (task : Task population user moved hub) (sound : population.hub.Sound)
    {other : ConnectionId} (attached : population.hub.isAttached other = true)
    (isOpen : population.hub.isOpen other = true) (foreign : user.connection? ≠ some other)
    (onHub : user.OnHub) (linked : moved.connection?.isSome = true) (stopwatch : Nat) :
    Phase.gain (UserEvent.counts .probe) stopwatch user.phase moved.phase +
        moved.phase.isSent.toNat + user.backlog.length + (population.hub.queued other).length ≤
      user.phase.isSent.toNat + moved.backlog.length + (hub.queued other).length := by
  have kept := (task.bystander sound attached isOpen foreign).2.2
  cases task with
  | alone course _ backlog =>
    have law := course.gain_probe stopwatch
    rw [backlog]
    omega
  | connect connecting _ waits _ backlog =>
    have nothing := User.backlog_eq_nil (onHub.connection?_eq_none (by rw [connecting]; rfl))
    rw [backlog, nothing, connecting, waits]
    simpa [Phase.gain, Phase.event?, Phase.isSent, UserEvent.counts, UserEvent.counted?] using kept
  | send probing sent _ backlog =>
    have silent : Phase.gain (UserEvent.counts .probe) stopwatch .probing
        (.sent population.stopwatch) = 0 := rfl
    rw [backlog, List.length_append, List.length_singleton, probing, sent, silent]
    simp only [Phase.isSent, Bool.toNat_true, Bool.toNat_false]
    omega
  | hear awaiting answered _ _ backlog _ =>
    rw [backlog, awaiting, answered]
    simpa [Phase.gain, Phase.event?, Phase.isSent] using kept
  | close awaiting lost _ _ backlog _ _ =>
    rw [backlog, awaiting, lost]
    simp [Phase.gain, Phase.event?, Phase.isSent]
  | unlink _ _ _ connection _ =>
    rw [connection] at linked
    cases linked
  | @pump own message timestamp phase connected _ backlog =>
    have published : Hub.Overhears other _ population.hub _ :=
      (Hub.Step.publish population.hub own message timestamp).overhears sound
        fun same => foreign (connected.trans (congrArg some same))
    have grown := published.length_queued attached isOpen
    rw [backlog, phase, Phase.gain_self, grown, List.length_cons]
    simp only [Hub.Event.message?, Option.toList_some, List.length_singleton]
    omega

/-- What leaves a user's mailbox is an answer, and every answer is recorded. -/
theorem Task.listens (task : Task population user moved hub) (sound : population.hub.Sound)
    (onHub : user.OnHub) {own : ConnectionId} (connected : user.connection? = some own)
    (linked : moved.connection?.isSome = true) (stopwatch : Nat) :
    (population.hub.queued own).length + user.phase.isAnswered.toNat ≤
      (hub.queued own).length + moved.phase.isAnswered.toNat +
        Phase.gain UserEvent.isMeasured stopwatch user.phase moved.phase := by
  cases task with
  | alone course _ _ =>
    have law := course.gain_measured stopwatch
    omega
  | connect connecting _ _ _ _ =>
    rw [onHub.connection?_eq_none (by rw [connecting]; rfl)] at connected
    cases connected
  | send probing sent _ _ =>
    rw [probing, sent]
    simp [Phase.gain, Phase.event?, Phase.isAnswered]
  | @hear own' message hub sentAt deadline awaiting answered connected' _ _ polled =>
    rw [connected] at connected'
    cases connected'
    obtain ⟨mailbox, rest, found, front, _, rfl⟩ := Hub.eq_of_poll_message polled
    rw [awaiting, answered]
    simp [Phase.gain, Phase.event?, Phase.isAnswered, Hub.queued, Registry.get?_modify, found,
      front]
  | close awaiting lost _ _ _ _ _ =>
    rw [awaiting, lost]
    simp [Phase.gain, Phase.event?, Phase.isAnswered]
  | unlink _ _ _ connection _ =>
    rw [connection] at linked
    cases linked
  | @pump own' message timestamp phase connected' _ _ =>
    rw [connected] at connected'
    cases connected'
    have kept : (population.hub.publish own message timestamp).2.queued own =
        population.hub.queued own := by
      rw [Hub.queued, sound.publish_mailbox, if_neg (fun both => both.2 rfl), Hub.queued]
    rw [phase, kept]
    exact Nat.le_add_right _ _

theorem Task.connection (task : Task population user moved hub) (onHub : user.OnHub)
    {own : ConnectionId} (connected : moved.connection? = some own) :
    user.connection? = some own ∨
      (user.connection? = none ∧ own = population.hub.nextId) := by
  cases task with
  | alone _ connection _ | send _ _ connection _ => exact .inl (connection ▸ connected)
  | hear _ _ _ connection _ _ => exact .inl (connection ▸ connected)
  | close _ _ _ connection _ _ _ => exact .inl (connection ▸ connected)
  | pump _ _ connection _ => exact .inl (connection ▸ connected)
  | connect connecting _ _ connection _ =>
    rw [connected] at connection
    exact .inr ⟨onHub.connection?_eq_none (by rw [connecting]; rfl), Option.some.inj connection⟩
  | unlink _ _ _ connection _ =>
    rw [connected] at connection
    cases connection

theorem Task.connecting (task : Task population user moved hub)
    (none : user.connection? = none) (linked : moved.connection?.isSome = true) :
    ∃ due, user.phase = .connecting due := by
  cases task with
  | connect connecting _ _ _ _ => exact ⟨_, connecting⟩
  | alone _ connection _ | send _ _ connection _ =>
    rw [connection, none] at linked
    cases linked
  | hear _ _ _ connection _ _ | close _ _ _ connection _ _ _ | pump _ _ connection _ =>
    rw [connection, none] at linked
    cases linked
  | unlink _ _ _ connection _ =>
    rw [connection] at linked
    cases linked

theorem Task.attached (task : Task population user moved hub) (sound : population.hub.Sound)
    (before : ∀ own, user.connection? = some own →
      population.hub.isAttached own = true ∧ population.hub.isOpen own = true)
    {own : ConnectionId} (connected : moved.connection? = some own) :
    hub.isAttached own = true ∧ hub.isOpen own = true := by
  cases task with
  | alone _ connection _ => exact before own (connection ▸ connected)
  | connect _ _ _ connection _ =>
    rw [connected] at connection
    cases connection
    simp [Hub.isAttached_attach, Hub.isOpen, Hub.attach_mailbox]
  | send _ _ connection _ => exact before own (connection ▸ connected)
  | hear _ _ connected' connection _ polled =>
    rw [connection, connected'] at connected
    cases connected
    obtain ⟨attached, isOpen⟩ := before own connected'
    obtain ⟨mailbox, rest, found, _, held, rfl⟩ := Hub.eq_of_poll_message polled
    rw [Hub.isOpen, found, Option.any_some] at isOpen
    refine ⟨attached, ?_⟩
    simp [Hub.isOpen, Registry.get?_modify, found, held, isOpen]
  | close _ _ _ connection _ _ _ => exact before own (connection ▸ connected)
  | unlink _ _ _ connection _ =>
    rw [connected] at connection
    cases connection
  | @pump _ message timestamp _ connected' connection _ =>
    rw [connection, connected'] at connected
    cases connected
    obtain ⟨attached, isOpen⟩ := before own connected'
    rw [sound.isAttached_publish, Hub.isOpen, sound.publish_mailbox,
      if_neg (fun both => both.2 rfl)]
    exact ⟨attached, isOpen⟩

theorem Task.isAttached (task : Task population user moved hub) (sound : population.hub.Sound)
    (onHub : user.OnHub) {id : ConnectionId} (attached : hub.isAttached id = true) :
    moved.connection? = some id ∨
      (population.hub.isAttached id = true ∧ user.connection? ≠ some id) := by
  have same : moved.connection? = user.connection? → population.hub.isAttached id = true → _ :=
    fun connection before =>
      if mine : user.connection? = some id then Or.inl (connection.trans mine)
      else Or.inr (And.intro before mine)
  cases task with
  | alone _ connection _ | send _ _ connection _ => exact same connection attached
  | close _ _ _ connection _ _ _ => exact same connection attached
  | connect connecting _ _ connection _ =>
    rw [Hub.isAttached_attach, Bool.or_eq_true, decide_eq_true_eq] at attached
    rcases attached with rfl | before
    · exact .inl connection
    · rw [onHub.connection?_eq_none (by rw [connecting]; rfl)]
      exact .inr ⟨before, nofun⟩
  | hear _ _ _ connection _ polled =>
    obtain ⟨_, _, _, _, _, rfl⟩ := Hub.eq_of_poll_message polled
    exact same connection attached
  | unlink _ _ connected _ _ =>
    rw [Hub.isAttached_detach, Bool.and_eq_true, Bool.not_eq_true', decide_eq_false_iff_not]
      at attached
    rw [connected]
    exact .inr ⟨attached.2, fun mine => attached.1 (Option.some.inj mine).symm⟩
  | pump _ _ connection _ =>
    rw [sound.isAttached_publish] at attached
    exact same connection attached

end Task

/-! ## All users -/

/-- The connection of the user at a position. -/
def connectionAt (population : Population) (index : Nat) : Option ConnectionId :=
  population.users[index]?.bind User.connection?

/-- Every user that holds its link has a connection of its own, attached and with a mailbox. -/
structure Seated (population : Population) : Prop where
  sound : population.hub.Sound
  onHub : ∀ user ∈ population.users, user.OnHub
  own : ∀ {first second : Nat} {id : ConnectionId}, population.connectionAt first = some id →
    population.connectionAt second = some id → first = second
  attached : ∀ {index : Nat} {id : ConnectionId}, population.connectionAt index = some id →
    population.hub.isAttached id = true ∧ population.hub.isOpen id = true

/-- The users are on their hub, and nobody else is attached. -/
structure Wired (population : Population) : Prop extends population.Seated where
  everyone : ∀ {id : ConnectionId}, population.hub.isAttached id = true →
    ∃ index, population.connectionAt index = some id

section Step

variable {before after : Population} {index : Nat} {user moved : User}

theorem connectionAt_of_found {population : Population}
    (found : population.users[index]? = some user) :
    population.connectionAt index = user.connection? := by
  rw [connectionAt, found, Option.bind_some]

theorem TaskStep.getElem? (step : TaskStep before after index user moved) (other : Nat) :
    after.users[other]? = if other = index then some moved else before.users[other]? := by
  rw [step.users]
  by_cases same : other = index
  · subst same
    rw [if_pos rfl, List.getElem?_set_self', step.found]
    rfl
  · rw [if_neg same, List.getElem?_set_ne (Ne.symm same)]

theorem TaskStep.connectionAt (step : TaskStep before after index user moved) (other : Nat) :
    after.connectionAt other =
      if other = index then moved.connection? else before.connectionAt other := by
  rw [Population.connectionAt, step.getElem?]
  split <;> rfl

theorem Seated.foreign (seated : Seated before) (found : before.users[index]? = some user)
    {other : Nat} (different : other ≠ index) {id : ConnectionId}
    (connected : before.connectionAt other = some id) : user.connection? ≠ some id := by
  intro same
  rw [← connectionAt_of_found found] at same
  exact different (seated.own connected same)

theorem Seated.attached_of_found (seated : Seated before) (found : before.users[index]? = some user)
    (own : ConnectionId) (connected : user.connection? = some own) :
    before.hub.isAttached own = true ∧ before.hub.isOpen own = true :=
  seated.attached ((connectionAt_of_found found).trans connected)

theorem Seated.step (seated : Seated before) (step : TaskStep before after index user moved) :
    Seated after := by
  have onHub := seated.onHub user (List.mem_of_getElem? step.found)
  -- the connection of the user that moved is attached, and no other user has it
  have mine : ∀ {other : Nat} {id : ConnectionId}, moved.connection? = some id → other ≠ index →
      before.connectionAt other ≠ some id := by
    intro other id connected different theirs
    rcases step.task.connection onHub connected with own | ⟨_, rfl⟩
    · exact seated.foreign step.found different theirs own
    · exact Nat.lt_irrefl _ (seated.sound.lt_nextId (seated.attached theirs).1)
  refine { sound := step.task.sound seated.sound, onHub := ?_, own := ?_, attached := ?_ }
  · intro other member
    rw [step.users] at member
    rcases List.mem_or_eq_of_mem_set member with old | rfl
    · exact seated.onHub other old
    · exact step.task.onHub step.connector onHub
  · intro first second id isFirst isSecond
    rw [step.connectionAt] at isFirst isSecond
    by_cases firstMoved : first = index <;> by_cases secondMoved : second = index
    · rw [firstMoved, secondMoved]
    · rw [if_pos firstMoved] at isFirst
      rw [if_neg secondMoved] at isSecond
      exact absurd isSecond (mine isFirst secondMoved)
    · rw [if_neg firstMoved] at isFirst
      rw [if_pos secondMoved] at isSecond
      exact absurd isFirst (mine isSecond firstMoved)
    · rw [if_neg firstMoved] at isFirst
      rw [if_neg secondMoved] at isSecond
      exact seated.own isFirst isSecond
  · intro other id connected
    rw [step.connectionAt] at connected
    by_cases same : other = index
    · rw [if_pos same] at connected
      exact step.task.attached seated.sound (seated.attached_of_found step.found) connected
    · rw [if_neg same] at connected
      obtain ⟨attached, isOpen⟩ := seated.attached connected
      have kept := step.task.bystander seated.sound attached isOpen
        (seated.foreign step.found same connected)
      exact ⟨kept.1, kept.2.1⟩

theorem Wired.step (wired : Wired before) (step : TaskStep before after index user moved) :
    Wired after where
  toSeated := wired.toSeated.step step
  everyone := by
    intro id attached
    have onHub := wired.onHub user (List.mem_of_getElem? step.found)
    rcases step.task.isAttached wired.sound onHub attached with connected | ⟨was, foreign⟩
    · exact ⟨index, by rw [step.connectionAt, if_pos rfl, connected]⟩
    · obtain ⟨other, connected⟩ := wired.everyone was
      refine ⟨other, ?_⟩
      rw [step.connectionAt, if_neg ?_, connected]
      rintro rfl
      exact foreign ((connectionAt_of_found step.found).symm.trans connected)

theorem Wired.congr (wired : Wired before) (users : after.users = before.users)
    (hub : after.hub = before.hub) : Wired after where
  sound := hub ▸ wired.sound
  onHub := users ▸ wired.onHub
  own first second := by
    rw [Population.connectionAt, users] at first second
    exact wired.own first second
  attached connected := by
    rw [Population.connectionAt, users] at connected
    rw [hub]
    exact wired.attached connected
  everyone attached := by
    rw [hub] at attached
    simp only [Population.connectionAt, users]
    exact wired.everyone attached

theorem TaskStep.event? {move : Move} (step : TaskStep before after index user moved)
    (about : move.user? = some index) :
    before.event? move after =
      (user.phase.event? before.stopwatch moved.phase).map (index, ·) := by
  simp only [Population.event?, about, step.found, step.getElem?, if_true, Option.bind_eq_bind,
    Option.bind_some]
  cases user.phase.event? before.stopwatch moved.phase <;> rfl

theorem TaskStep.tallyOf {move : Move} (step : TaskStep before after index user moved)
    (about : move.user? = some index) (test : UserEvent → Bool) (other : Nat)
    (history : List (Nat × UserEvent)) :
    History.tallyOf test other (history ++ (before.event? move after).toList) =
      History.tallyOf test other history +
        if other = index then Phase.gain test before.stopwatch user.phase moved.phase else 0 := by
  rw [step.event? about, History.tallyOf_append, Phase.gain]
  simp only [eq_comm]

/-! ## Everyone hears everyone else -/

/-- Whatever one user has sent, each of the others has heard, can hear from its mailbox, or will
hear once a pump has taken it. -/
def Relayed (history : List (Nat × UserEvent)) (population : Population) : Prop :=
  ∀ ⦃listening speaking : Nat⦄ ⦃listener speaker : User⦄ ⦃own : ConnectionId⦄,
    listening ≠ speaking → population.users[listening]? = some listener →
    listener.connection? = some own → population.users[speaking]? = some speaker →
    speaker.connection?.isSome = true →
    History.tallyOf (UserEvent.counts .probe) speaking history + speaker.phase.isSent.toNat ≤
      (population.hub.queued own).length + History.tallyOf UserEvent.isMeasured listening history +
        listener.phase.isAnswered.toNat + speaker.backlog.length

theorem Relayed.congr {history : List (Nat × UserEvent)} (relayed : Relayed history before)
    (users : after.users = before.users) (hub : after.hub = before.hub) :
    Relayed history after := by
  intro listening speaking listener speaker own different isListener connected isSpeaker linked
  rw [users] at isListener isSpeaker
  rw [hub]
  exact relayed different isListener connected isSpeaker linked

/-- Whether nobody has sent anything yet. -/
def Quiet (history : List (Nat × UserEvent)) (population : Population) : Prop :=
  ∀ ⦃index : Nat⦄ ⦃user : User⦄, population.users[index]? = some user →
    History.tallyOf (UserEvent.counts .probe) index history + user.phase.isSent.toNat = 0

/-- Who connects late has missed nothing, as long as nobody has sent anything by then. -/
theorem Relayed.step {history : List (Nat × UserEvent)} {move : Move}
    (relayed : Relayed history before) (wired : Wired before)
    (step : TaskStep before after index user moved) (about : move.user? = some index)
    (quiet : user.connection? = none → moved.connection?.isSome = true → Quiet history before) :
    Relayed (history ++ (before.event? move after).toList) after := by
  intro listening speaking listener speaker own different isListener connected isSpeaker linked
  have onHub := wired.onHub user (List.mem_of_getElem? step.found)
  rw [step.tallyOf about, step.tallyOf about]
  rw [step.getElem?] at isListener isSpeaker
  by_cases listens : listening = index
  · subst listens
    rw [if_pos rfl] at isListener
    cases isListener
    rw [if_neg different.symm] at isSpeaker ⊢
    rw [if_pos rfl]
    rcases step.task.connection onHub connected with was | ⟨was, _⟩
    · have law := relayed different step.found was isSpeaker linked
      have listens := step.task.listens wired.sound onHub was (by rw [connected]; rfl)
        before.stopwatch
      omega
    · have silent := quiet was (by rw [connected]; rfl) isSpeaker
      omega
  · rw [if_neg listens] at isListener ⊢
    have attached := wired.attached_of_found isListener own connected
    have foreign := wired.foreign step.found listens
      ((connectionAt_of_found isListener).trans connected)
    by_cases speaks : speaking = index
    · subst speaks
      rw [if_pos rfl] at isSpeaker ⊢
      cases isSpeaker
      have relays := step.task.relays wired.sound attached.1 attached.2 foreign onHub linked
        before.stopwatch
      cases was : user.connection? with
      | none =>
        have silent := quiet was linked step.found
        omega
      | some previous =>
        have law := relayed different isListener connected step.found (by rw [was]; rfl)
        omega
    · rw [if_neg speaks] at isSpeaker ⊢
      have law := relayed different isListener connected isSpeaker linked
      have kept := (step.task.bystander wired.sound attached.1 attached.2 foreign).2.2
      omega

end Step

end Population

end ChatHub
