import ChatHub.Hub.Basic
/-!
What each operation does to a hub, seen through its three look-ups: which mailbox an id has, which
ids are attached, and which id comes next. Later proofs use these equations and never look inside
an operation.
-/

set_option autoImplicit false

namespace ChatHub.Hub

variable {hub : Hub} {id other origin : ConnectionId}

/-- What all operations keep: an attached connection has a mailbox, its channel is the address of
that mailbox, and ids that are still to come have none. -/
structure Sound (hub : Hub) : Prop where
  address : ∀ {id channel : ConnectionId}, hub.registry.get? id = some channel → channel = id
  mailbox : ∀ {id : ConnectionId}, hub.isAttached id = true → (hub.mailboxes.get? id).isSome = true
  fresh : ∀ {id : ConnectionId}, hub.nextId ≤ id → hub.mailboxes.get? id = none

theorem isAttached_iff :
    hub.isAttached id = true ↔ ∃ channel, hub.registry.get? id = some channel := by
  rw [isAttached, Registry.contains_eq_isSome, Option.isSome_iff_exists]

theorem Sound.registered (sound : hub.Sound) (attached : hub.isAttached id = true) :
    hub.registry.get? id = some id := by
  obtain ⟨channel, found⟩ := isAttached_iff.mp attached
  rwa [sound.address found] at found

theorem sound_empty : ({} : Hub).Sound where
  address found := by simp at found
  mailbox attached := by
    obtain ⟨channel, found⟩ := isAttached_iff.mp attached
    simp at found
  fresh _ := rfl

/-! ## Attaching and detaching -/

theorem allocate_mailbox (hub : Hub) (id : ConnectionId) :
    hub.allocate.2.mailboxes.get? id =
      if id = hub.nextId then some {} else hub.mailboxes.get? id :=
  Registry.get?_register hub.mailboxes hub.nextId id {}

private theorem isAttached_enroll (hub : Hub) (id other : ConnectionId) :
    (hub.enroll id).isAttached other = (decide (other = id) || hub.isAttached other) := by
  simp only [enroll, isAttached, Registry.contains_eq_isSome, Registry.get?_register]
  by_cases same : other = id <;> simp [same]

theorem attach_mailbox (hub : Hub) (id : ConnectionId) :
    hub.attach.2.mailboxes.get? id =
      if id = hub.nextId then some {} else hub.mailboxes.get? id :=
  allocate_mailbox hub id

theorem isAttached_attach (hub : Hub) (id : ConnectionId) :
    hub.attach.2.isAttached id = (decide (id = hub.nextId) || hub.isAttached id) :=
  isAttached_enroll hub.allocate.2 hub.nextId id

theorem isAttached_detach (hub : Hub) (id other : ConnectionId) :
    (hub.detach id).isAttached other = (!decide (other = id) && hub.isAttached other) := by
  simp only [detach, isAttached, Registry.contains_eq_isSome, Registry.get?_deregister]
  by_cases same : other = id <;> simp [same]

theorem Sound.allocate (sound : hub.Sound) : hub.allocate.2.Sound where
  address := sound.address
  mailbox {id} attached := by
    have present := sound.mailbox (show hub.isAttached id = true from attached)
    rw [allocate_mailbox]
    split
    · rfl
    · exact present
  fresh {id} late := by
    have later : hub.nextId + 1 ≤ id := late
    rw [allocate_mailbox, if_neg (Nat.ne_of_gt later)]
    exact sound.fresh (Nat.le_of_lt later)

/-- A connection may be registered once it has a mailbox. -/
theorem Sound.enroll (sound : hub.Sound) (present : (hub.mailboxes.get? id).isSome = true) :
    (hub.enroll id).Sound where
  address {other channel} found := by
    simp only [Hub.enroll, Registry.get?_register] at found
    split at found
    · rename_i same
      rw [same, ← Option.some.inj found]
    · exact sound.address found
  mailbox {other} attached := by
    rw [isAttached_enroll] at attached
    by_cases same : other = id
    · exact same ▸ present
    · exact sound.mailbox (by simpa [same] using attached)
  fresh := sound.fresh

theorem Sound.attach (sound : hub.Sound) : hub.attach.2.Sound :=
  sound.allocate.enroll (by rw [allocate_mailbox, if_pos rfl]; rfl)

theorem Sound.detach (sound : hub.Sound) (id : ConnectionId) : (hub.detach id).Sound where
  address {other channel} found := by
    simp only [Hub.detach, Registry.get?_deregister] at found
    split at found
    · cases found
    · exact sound.address found
  mailbox {other} attached := by
    rw [isAttached_detach, Bool.and_eq_true] at attached
    exact sound.mailbox attached.2
  fresh := sound.fresh

/-! ## Changing one mailbox -/

/-- A change to one mailbox, if it exists, keeps everything else. -/
theorem Sound.modify (sound : hub.Sound) (id : ConnectionId) (change : Mailbox → Mailbox) :
    ({ hub with mailboxes := hub.mailboxes.modify id change } : Hub).Sound where
  address := sound.address
  mailbox {other} attached := by
    have present := sound.mailbox attached
    rw [Registry.get?_modify]
    split
    · simpa using present
    · exact present
  fresh {other} late := by
    have absent := sound.fresh late
    rw [Registry.get?_modify, absent]
    simp

private theorem deliver_mailbox (hub : Hub) (target : ConnectionId) (message : Stamped)
    (id : ConnectionId) :
    (hub.deliver target message).2.mailboxes.get? id =
      if id = target then (hub.mailboxes.get? id).map (·.deliver message)
      else hub.mailboxes.get? id :=
  Registry.get?_modify hub.mailboxes target id (·.deliver message)

/-- A delivery lengthens the queue of its target if that is still owned, and no other. -/
theorem queued_deliver (hub : Hub) (target : ConnectionId) (message : Stamped)
    (id : ConnectionId) :
    (hub.deliver target message).2.queued id =
      if id = target ∧ hub.isOpen target = true then hub.queued id ++ [message]
      else hub.queued id := by
  unfold queued isOpen
  rw [deliver_mailbox]
  by_cases same : id = target
  · subst same
    cases hub.mailboxes.get? id with
    | none => simp
    | some mailbox =>
      cases held : mailbox.held with
      | true => simp [held, Mailbox.messages_deliver held]
      | false => simp [held, Mailbox.deliver]
  · simp [same]

theorem isOpen_deliver (hub : Hub) (target : ConnectionId) (message : Stamped)
    (id : ConnectionId) : (hub.deliver target message).2.isOpen id = hub.isOpen id := by
  unfold isOpen
  rw [deliver_mailbox]
  split
  · cases hub.mailboxes.get? id <;> simp
  · rfl

theorem dropMailbox_mailbox (hub : Hub) (id other : ConnectionId) :
    (hub.dropMailbox id).mailboxes.get? other =
      if other = id then (hub.mailboxes.get? other).map Mailbox.drop
      else hub.mailboxes.get? other :=
  Registry.get?_modify hub.mailboxes id other Mailbox.drop

theorem Sound.dropMailbox (sound : hub.Sound) (id : ConnectionId) : (hub.dropMailbox id).Sound :=
  sound.modify id Mailbox.drop

/-- Nothing is queued in a mailbox without an owner. -/
theorem queued_dropMailbox (hub : Hub) (id other : ConnectionId) :
    (hub.dropMailbox id).queued other = if other = id then [] else hub.queued other := by
  unfold queued
  rw [dropMailbox_mailbox]
  by_cases same : other = id
  · rw [if_pos same, if_pos same]
    cases hub.mailboxes.get? other <;> rfl
  · rw [if_neg same, if_neg same]

theorem drain_mailbox (hub : Hub) (id other : ConnectionId) :
    (hub.drain id).2.mailboxes.get? other =
      if other = id then (hub.mailboxes.get? other).map fun mailbox => mailbox.drain.2
      else hub.mailboxes.get? other :=
  Registry.get?_modify hub.mailboxes id other fun mailbox => mailbox.drain.2

/-- A receive that finds a message takes it from the front of the queue; any other leaves the hub
as it is. -/
theorem poll_cases (hub : Hub) (id : ConnectionId) :
    (∃ message mailbox rest, hub.mailboxes.get? id = some mailbox ∧
      mailbox.messages = message :: rest.messages ∧ rest.held = mailbox.held ∧
      hub.poll id = (some (.message message),
        { hub with mailboxes := hub.mailboxes.modify id fun _ => rest })) ∨
    (hub.queued id = [] ∧
      hub.poll id =
        (if (hub.mailboxes.get? id).isNone || !hub.isAttached id then some .closed else none,
          hub)) := by
  unfold poll queued
  cases found : hub.mailboxes.get? id with
  | none => exact .inr ⟨rfl, rfl⟩
  | some mailbox =>
    rcases mailbox.poll_cases (!hub.isAttached id) with
      ⟨message, rest, polled, front, held⟩ | ⟨empty, polled⟩
    · exact .inl ⟨message, mailbox, rest, rfl, front, held, by simp only [polled]⟩
    · refine .inr ⟨by simpa using empty, ?_⟩
      simp only [polled, Option.isNone_some, Bool.false_or]
      cases hub.isAttached id with
      | true => rfl
      | false => simp [Registry.modify_eq_self found]

/-- What a receive that took a message did. -/
theorem eq_of_poll_message {hub next : Hub} {id : ConnectionId} {message : Stamped}
    (polled : hub.poll id = (some (.message message), next)) :
    ∃ mailbox rest, hub.mailboxes.get? id = some mailbox ∧
      mailbox.messages = message :: rest.messages ∧ rest.held = mailbox.held ∧
      next = { hub with mailboxes := hub.mailboxes.modify id fun _ => rest } := by
  rcases hub.poll_cases id with ⟨found, mailbox, rest, present, front, held, same⟩ | ⟨_, same⟩
  · rw [same, Prod.mk.injEq, Option.some.injEq, Received.message.injEq] at polled
    obtain ⟨rfl, rfl⟩ := polled
    exact ⟨mailbox, rest, present, front, held, rfl⟩
  · rw [same, Prod.mk.injEq] at polled
    split at polled <;> simp at polled

/-- A receive that took no message changed nothing. -/
theorem eq_of_poll_other {hub next : Hub} {id : ConnectionId} {outcome : Option Received}
    (polled : hub.poll id = (outcome, next))
    (nothing : ∀ message, outcome ≠ some (.message message)) : next = hub := by
  rcases hub.poll_cases id with ⟨message, _, _, _, _, _, same⟩ | ⟨_, same⟩
  · rw [same, Prod.mk.injEq] at polled
    exact absurd polled.1.symm (nothing message)
  · rw [same, Prod.mk.injEq] at polled
    exact polled.2.symm

/-! ## Ownership -/

/-- Whether a mailbox has lost its owner. -/
def isAbandoned (hub : Hub) (id : ConnectionId) : Bool :=
  (hub.mailboxes.get? id).any fun mailbox => !mailbox.held

theorem isAbandoned_eq_false_of_isOpen (isHeld : hub.isOpen id = true) :
    hub.isAbandoned id = false := by
  unfold isOpen at isHeld
  unfold isAbandoned
  cases found : hub.mailboxes.get? id with
  | none => rfl
  | some mailbox => simpa [found] using isHeld

theorem isOpen_of_not_isAbandoned (present : (hub.mailboxes.get? id).isSome = true)
    (kept : hub.isAbandoned id = false) : hub.isOpen id = true := by
  obtain ⟨mailbox, found⟩ := Option.isSome_iff_exists.mp present
  simpa [isOpen, isAbandoned, found] using kept

theorem held_of_not_isAbandoned {mailbox : Mailbox}
    (found : hub.mailboxes.get? id = some mailbox) (kept : hub.isAbandoned id = false) :
    mailbox.held = true := by
  simpa [isAbandoned, found] using kept

/-- What no operation undoes: a mailbox that exists goes on existing, and one that has lost its
owner never gets another. -/
structure Outlasts (later earlier : Hub) : Prop where
  present : ∀ {id : ConnectionId}, (earlier.mailboxes.get? id).isSome = true →
    (later.mailboxes.get? id).isSome = true
  abandoned : ∀ {id : ConnectionId}, earlier.isAbandoned id = true → later.isAbandoned id = true

theorem Outlasts.of_mailboxes_eq {later earlier : Hub}
    (same : later.mailboxes = earlier.mailboxes) : later.Outlasts earlier where
  present found := by rwa [same]
  abandoned lost := by rwa [isAbandoned, same]

theorem Outlasts.kept {later earlier : Hub} (outlasts : later.Outlasts earlier)
    (kept : later.isAbandoned id = false) : earlier.isAbandoned id = false :=
  Bool.eq_false_iff.mpr fun lost => Bool.eq_false_iff.mp kept (outlasts.abandoned lost)

theorem Outlasts.trans {last later earlier : Hub} (second : last.Outlasts later)
    (first : later.Outlasts earlier) : last.Outlasts earlier where
  present found := second.present (first.present found)
  abandoned lost := second.abandoned (first.abandoned lost)

theorem Sound.allocate_outlasts (sound : hub.Sound) : hub.allocate.2.Outlasts hub where
  present {id} found := by
    rw [allocate_mailbox]
    split
    · rfl
    · exact found
  abandoned {id} lost := by
    unfold isAbandoned at lost ⊢
    rw [allocate_mailbox]
    split
    · rename_i same
      rw [same, sound.fresh (Nat.le_refl _)] at lost
      cases lost
    · exact lost

theorem outlasts_modify (hub : Hub) (id : ConnectionId) {change : Mailbox → Mailbox}
    (noNewOwner : ∀ mailbox, hub.mailboxes.get? id = some mailbox → mailbox.held = false →
      (change mailbox).held = false) :
    ({ hub with mailboxes := hub.mailboxes.modify id change } : Hub).Outlasts hub where
  present {other} found := by
    rw [Registry.get?_modify]
    split
    · simpa using found
    · exact found
  abandoned {other} lost := by
    unfold isAbandoned at lost ⊢
    rw [Registry.get?_modify]
    split
    · rename_i same
      subst same
      cases found : hub.mailboxes.get? other with
      | none => simp [found] at lost
      | some mailbox =>
        have unowned : mailbox.held = false := by simpa [found] using lost
        simp [noNewOwner mailbox found unowned]
    · exact lost

theorem deliver_outlasts (hub : Hub) (target : ConnectionId) (message : Stamped) :
    (hub.deliver target message).2.Outlasts hub :=
  outlasts_modify hub target fun mailbox _ unowned => by rw [Mailbox.held_deliver]; exact unowned

theorem dropMailbox_outlasts (hub : Hub) (id : ConnectionId) :
    (hub.dropMailbox id).Outlasts hub :=
  outlasts_modify hub id fun _ _ _ => rfl

/-- Only a mailbox that never was escapes being abandoned. -/
theorem queued_eq_nil_of_dropped {id : ConnectionId}
    (kept : (hub.dropMailbox id).isAbandoned id = false) : hub.queued id = [] := by
  unfold isAbandoned at kept
  rw [dropMailbox_mailbox, if_pos rfl] at kept
  unfold queued
  cases found : hub.mailboxes.get? id with
  | none => rfl
  | some mailbox => simp [found] at kept

/-! ## Publishing -/

/-- One delivery of a broadcast, counted. -/
def deliverCounted (message : Stamped) (state : DeliveryReport × Hub)
    (target : ConnectionId × ConnectionId) : DeliveryReport × Hub :=
  let (accepted, hub) := state.2.deliver target.2 message
  (state.1.count accepted, hub)

/-- A publish is its snapshot, one delivery for each target, and the count of those that failed. -/
theorem publish_eq_foldl (hub : Hub) (origin : ConnectionId) (message : Inbound)
    (timestamp : String) :
    hub.publish origin message timestamp =
      let (report, delivered) :=
        (hub.snapshot origin).foldl (deliverCounted (message.stamp timestamp)) ({}, hub)
      (report, { delivered with failures := delivered.failures + report.failed }) := by
  have folded : ∀ (targets : List (ConnectionId × ConnectionId))
      (broadcast : Registry.Broadcast ConnectionId Hub),
      let finished := targets.foldl (fun broadcast target => broadcast.deliver
        (fun (state : Hub) mailbox =>
          let (accepted, state) := state.deliver mailbox (message.stamp timestamp)
          (⟨accepted, []⟩, state)) target.2) broadcast
      (finished.report, finished.state) =
        targets.foldl (deliverCounted (message.stamp timestamp))
          (broadcast.report, broadcast.state) := by
    intro targets
    induction targets with
    | nil => intro broadcast; rfl
    | cons target rest ih => intro broadcast; exact ih _
  have whole := folded (hub.snapshot origin) { registry := hub.registry, state := hub }
  simp only [← whole]
  rfl

/-- What deliveries to different mailboxes do to the hub: every target that is still owned gets
the message once, and nothing else changes. -/
theorem foldl_deliverCounted (message : Stamped) (targets : List (ConnectionId × ConnectionId))
    (distinct : (targets.map Prod.snd).Nodup) (report : DeliveryReport) (hub : Hub) :
    let delivered := (targets.foldl (deliverCounted message) (report, hub)).2
    delivered.nextId = hub.nextId ∧ delivered.registry = hub.registry ∧
      ∀ id, delivered.mailboxes.get? id =
        if id ∈ targets.map Prod.snd then (hub.mailboxes.get? id).map (·.deliver message)
        else hub.mailboxes.get? id := by
  induction targets generalizing report hub with
  | nil => simp
  | cons target rest ih =>
    simp only [List.map_cons, List.nodup_cons] at distinct
    obtain ⟨sameNext, sameRegistry, mailboxes⟩ :=
      ih distinct.2 (report.count (hub.deliver target.2 message).1) (hub.deliver target.2 message).2
    refine ⟨sameNext, sameRegistry, fun id => ?_⟩
    simp only [List.foldl_cons, deliverCounted, List.map_cons, List.mem_cons]
    rw [mailboxes id, deliver_mailbox]
    by_cases first : id = target.2
    · subst first
      rw [if_neg distinct.1, if_pos rfl, if_pos (.inl rfl)]
    · simp only [first, if_false, false_or]

private theorem Sound.snapshot_addresses (sound : hub.Sound) (origin : ConnectionId) :
    (hub.snapshot origin).map Prod.snd = (hub.snapshot origin).map Prod.fst := by
  apply List.map_congr_left
  intro target member
  exact sound.address (Registry.mem_snapshotExcept.mp member).2

theorem Sound.mem_snapshot (sound : hub.Sound) :
    id ∈ (hub.snapshot origin).map Prod.snd ↔ hub.isAttached id = true ∧ id ≠ origin := by
  rw [sound.snapshot_addresses, List.mem_map]
  constructor
  · rintro ⟨target, member, rfl⟩
    have entry := Registry.mem_snapshotExcept.mp member
    exact ⟨isAttached_iff.mpr ⟨_, entry.2⟩, entry.1⟩
  · rintro ⟨attached, foreign⟩
    exact ⟨(id, id), Registry.mem_snapshotExcept.mpr ⟨foreign, sound.registered attached⟩, rfl⟩

theorem Sound.snapshot_distinct (sound : hub.Sound) (origin : ConnectionId) :
    ((hub.snapshot origin).map Prod.snd).Nodup := by
  rw [sound.snapshot_addresses]
  exact Registry.snapshotExcept_distinct hub.registry origin

/-- A publish queues the stamped message in the mailbox of every attached connection but the
origin. -/
theorem Sound.publish_mailbox (sound : hub.Sound) (origin : ConnectionId) (message : Inbound)
    (timestamp : String) (id : ConnectionId) :
    (hub.publish origin message timestamp).2.mailboxes.get? id =
      if hub.isAttached id = true ∧ id ≠ origin then
        (hub.mailboxes.get? id).map (·.deliver (message.stamp timestamp))
      else hub.mailboxes.get? id := by
  have delivered := foldl_deliverCounted (message.stamp timestamp) (hub.snapshot origin)
    (sound.snapshot_distinct origin) {} hub
  rw [publish_eq_foldl]
  simp only [delivered.2.2 id, sound.mem_snapshot]

theorem Sound.publish_registry (sound : hub.Sound) (origin : ConnectionId) (message : Inbound)
    (timestamp : String) : (hub.publish origin message timestamp).2.registry = hub.registry := by
  rw [publish_eq_foldl]
  exact (foldl_deliverCounted (message.stamp timestamp) (hub.snapshot origin)
    (sound.snapshot_distinct origin) {} hub).2.1

theorem Sound.publish_nextId (sound : hub.Sound) (origin : ConnectionId) (message : Inbound)
    (timestamp : String) : (hub.publish origin message timestamp).2.nextId = hub.nextId := by
  rw [publish_eq_foldl]
  exact (foldl_deliverCounted (message.stamp timestamp) (hub.snapshot origin)
    (sound.snapshot_distinct origin) {} hub).1

theorem Sound.isAttached_publish (sound : hub.Sound) (origin : ConnectionId) (message : Inbound)
    (timestamp : String) (id : ConnectionId) :
    (hub.publish origin message timestamp).2.isAttached id = hub.isAttached id := by
  rw [isAttached, sound.publish_registry, isAttached]

theorem Sound.publish (sound : hub.Sound) (origin : ConnectionId) (message : Inbound)
    (timestamp : String) : (hub.publish origin message timestamp).2.Sound where
  address {id channel} found := by
    rw [sound.publish_registry] at found
    exact sound.address found
  mailbox {id} attached := by
    rw [sound.isAttached_publish] at attached
    have present := sound.mailbox attached
    rw [sound.publish_mailbox]
    split
    · simpa using present
    · exact present
  fresh {id} late := by
    rw [sound.publish_nextId] at late
    rw [sound.publish_mailbox, sound.fresh late]
    simp

theorem Sound.publish_outlasts (sound : hub.Sound) (origin : ConnectionId) (message : Inbound)
    (timestamp : String) : (hub.publish origin message timestamp).2.Outlasts hub where
  present {id} found := by
    rw [sound.publish_mailbox]
    split
    · simpa using found
    · exact found
  abandoned {id} lost := by
    unfold isAbandoned at lost ⊢
    rw [sound.publish_mailbox]
    split
    · cases found : hub.mailboxes.get? id <;> simp_all
    · exact lost

end ChatHub.Hub
