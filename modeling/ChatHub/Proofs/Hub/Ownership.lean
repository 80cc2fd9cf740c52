import ChatHub.Proofs.Hub.Direct
import ChatHub.Proofs.Hub.Members
/-!
Who receives what a hub delivers: the party itself, or one of its links. Main statement:
`owned_last`, by which in every run each of them has a mailbox of its own that was not given up.
-/

set_option autoImplicit false

namespace ChatHub.Session

/-- Whoever receives has a mailbox with an owner, and no two have the same. -/
structure Owned (session : Session) : Prop where
  sound : session.hub.Sound
  distinct : session.mailboxes.Nodup
  mailbox : ∀ id ∈ session.mailboxes, session.hub.isOpen id = true
  link : ∀ {key id}, session.linkedTo? key = some id →
    session.hub.isOpen id = true ∧ id ∉ session.mailboxes
  apart : ∀ {key other id}, session.linkedTo? key = some id →
    session.linkedTo? other = some id → key = other

private theorem owned_empty : Owned {} where
  sound := Hub.sound_empty
  distinct := .nil
  mailbox _ member := by cases member
  link linked := by cases linked
  apart linked := by cases linked

section Owned

variable {calendar : Calendar} {session next : Session}

theorem Owned.congr (owned : session.Owned) (sound : next.hub.Sound)
    (isOpen : ∀ id, session.hub.isOpen id = true → next.hub.isOpen id = true)
    (mailboxes : next.mailboxes = session.mailboxes)
    (links : ∀ key, next.linkedTo? key = session.linkedTo? key) : next.Owned where
  sound := sound
  distinct := mailboxes ▸ owned.distinct
  mailbox id member := isOpen id (owned.mailbox id (mailboxes ▸ member))
  link linked := by
    rw [links] at linked
    rw [mailboxes]
    exact ⟨isOpen _ (owned.link linked).1, (owned.link linked).2⟩
  apart linked same := owned.apart ((links _).symm.trans linked) ((links _).symm.trans same)

/-- Nothing but giving up a mailbox takes its owner away. -/
theorem Owned.onHub {event : Hub.Event} {hub : Hub} (owned : session.Owned)
    (step : Hub.Step session.hub event hub) (stays : ∀ id, event ≠ .abandoned id) :
    Owned { session with hub } :=
  owned.congr (step.sound owned.sound) (fun id => step.isOpen owned.sound (stays id)) rfl
    fun _ => rfl

/-! ## Waiting and giving way -/

theorem Owned.happen (owned : session.Owned) (event : LaterEvent) :
    (session.happen calendar event).Owned := by
  have step : Hub.Step session.hub _ (session.happen calendar event).hub := happen_run session event
  cases event with
  | publish _ _ | detach _ => exact owned.onHub step fun _ => nofun

theorem Owned.runUntil (owned : session.Owned) (moment : Nat) :
    (session.runUntil calendar moment).Owned := by
  fun_induction runUntilEvents calendar moment session with
  | case1 session idle => rwa [runUntil_of_none idle]
  | case2 session event agenda due _ ih =>
    rw [runUntil_of_some due]
    have moved : Owned { session with agenda } :=
      owned.congr owned.sound (fun _ => id) rfl fun _ => rfl
    exact ih (moved.happen event)

theorem Owned.startAll (owned : session.Owned) (tasks : List (Nat × LaterEvent)) :
    (tasks.foldl (start calendar) session).Owned := by
  induction tasks generalizing session with
  | nil => exact owned
  | cons task rest ih =>
    apply ih
    unfold start
    split
    · exact owned.happen task.2
    · exact owned.congr owned.sound (fun _ => id) rfl fun _ => rfl

theorem Owned.giveWay (owned : session.Owned) : (session.giveWay calendar).Owned := by
  have settled : (session.settle calendar).Owned := owned.runUntil _
  have idle : Owned { session.settle calendar with ready := [] } :=
    settled.congr settled.sound (fun _ => id) rfl fun _ => rfl
  exact idle.startAll _

theorem Owned.pollMailbox (owned : session.Owned) (id : ConnectionId) :
    (session.pollMailbox id).2.Owned := by
  unfold Session.pollMailbox
  rcases polled : session.hub.poll id with ⟨_ | _ | _, hub⟩
  case some.message => exact owned.onHub (.poll polled) fun _ => nofun
  all_goals
    obtain rfl : hub = session.hub := Hub.eq_of_poll_other polled (by simp)
    exact owned

/-! ## Links -/

theorem linkedTo?_eq_bind (key : Nat) (session : Session) :
    session.linkedTo? key = (session.links.get? key).bind Link.connection? := by
  unfold linkedTo?
  cases session.links.get? key with
  | none => rfl
  | some link => cases link <;> rfl

private theorem linkedTo?_put (session : Session) (key other : Nat) (link : Link) :
    linkedTo? other { session with links := session.links.put key link } =
      if other = key then link.connection? else session.linkedTo? other := by
  rw [linkedTo?_eq_bind, Roster.get?_put, linkedTo?_eq_bind]
  split <;> rfl

private theorem linkedTo?_erase (session : Session) (key other : Nat) :
    linkedTo? other { session with links := session.links.erase key } =
      if other = key then none else session.linkedTo? other := by
  rw [linkedTo?_eq_bind, Roster.get?_erase, linkedTo?_eq_bind]
  split <;> rfl

/-- A link takes the place of another one to the same connection. -/
theorem Owned.relink {key : Nat} {link relinked : Link} (owned : session.Owned)
    (found : session.links.get? key = some link)
    (same : relinked.connection? = link.connection?) :
    Owned { session with links := session.links.put key relinked } := by
  refine owned.congr owned.sound (fun _ => id) rfl fun other => ?_
  rw [linkedTo?_put]
  split
  · rename_i its
    rw [its, linkedTo?_eq_bind, found, same]
    rfl
  · rfl

theorem Owned.pollLink (owned : session.Owned) (key : Nat) : (session.pollLink key).2.Owned := by
  unfold Session.pollLink
  cases found : session.links.get? key with
  | none => exact owned
  | some link =>
    cases link with
    | detached line => exact owned.relink found rfl
    | attached connection outbox =>
      exact (owned.pollMailbox connection).relink found rfl

private theorem linkedTo?_dropLink (session : Session) (key other : Nat) :
    (session.dropLink key).linkedTo? other =
      if other = key then none else session.linkedTo? other := by
  rw [← linkedTo?_erase]
  unfold Session.dropLink
  split <;> rfl

theorem mailboxes_dropLink (session : Session) (key : Nat) :
    (session.dropLink key).mailboxes = session.mailboxes := by
  unfold Session.dropLink
  split <;> rfl

private theorem Owned.isOpen_dropLink (owned : session.Owned) {key : Nat} {id : ConnectionId}
    (isOpen : session.hub.isOpen id = true) (elsewhere : session.linkedTo? key ≠ some id) :
    (session.dropLink key).hub.isOpen id = true :=
  (dropLink_run session key).isOpen owned.sound (by simpa [dropLinkEvents] using elsewhere) isOpen

theorem Owned.dropLink (owned : session.Owned) (key : Nat) : (session.dropLink key).Owned := by
  have kept : ∀ {other id}, (session.dropLink key).linkedTo? other = some id →
      session.linkedTo? other = some id ∧ other ≠ key := by
    intro other id linked
    rw [linkedTo?_dropLink] at linked
    split at linked
    · cases linked
    · exact ⟨linked, ‹_›⟩
  constructor
  · exact (dropLink_run session key).sound owned.sound
  · rw [mailboxes_dropLink]
    exact owned.distinct
  · rw [mailboxes_dropLink]
    exact fun id member =>
      owned.isOpen_dropLink (owned.mailbox id member) fun here => (owned.link here).2 member
  · intro other id linked
    obtain ⟨was, elsewhere⟩ := kept linked
    rw [mailboxes_dropLink]
    exact ⟨owned.isOpen_dropLink (owned.link was).1 fun here => elsewhere (owned.apart was here),
      (owned.link was).2⟩
  · exact fun linked same => owned.apart (kept linked).1 (kept same).1

/-- A new link goes to a connection from which nobody else receives. -/
theorem Owned.putLink (owned : session.Owned) (key : Nat) {link : Link}
    (isNew : ∀ id, link.connection? = some id → session.hub.isOpen id = true ∧
      id ∉ session.mailboxes ∧ ∀ other, session.linkedTo? other ≠ some id) :
    (session.putLink key link).Owned := by
  have dropped := owned.dropLink key
  have free : ∀ {other id}, link.connection? = some id →
      (session.dropLink key).linkedTo? other ≠ some id := by
    intro other id its linked
    rw [linkedTo?_dropLink] at linked
    split at linked
    · cases linked
    · exact (isNew id its).2.2 other linked
  constructor
  · exact dropped.sound
  · exact dropped.distinct
  · exact dropped.mailbox
  · intro other id linked
    rw [Session.putLink, linkedTo?_put] at linked
    split at linked
    · obtain ⟨isOpen, unheld, unlinked⟩ := isNew id linked
      refine ⟨owned.isOpen_dropLink isOpen (unlinked key), ?_⟩
      rw [Session.putLink, mailboxes_dropLink]
      exact unheld
    · exact dropped.link linked
  · intro first second id linked same
    rw [Session.putLink, linkedTo?_put] at linked same
    split at linked
    · split at same
      · rename_i its theirs
        exact its.trans theirs.symm
      · exact absurd same (free linked)
    · split at same
      · exact absurd linked (free same)
      · exact dropped.apart linked same

theorem Owned.attach (owned : session.Owned) :
    Owned { session with hub := session.hub.attach.2 } ∧
      session.hub.attach.2.isOpen session.hub.nextId = true ∧
      session.hub.nextId ∉ session.mailboxes ∧
      ∀ key, session.linkedTo? key ≠ some session.hub.nextId := by
  have isNew : session.hub.isOpen session.hub.nextId ≠ true := fun isOpen =>
    Nat.lt_irrefl _ (Hub.lt_nextId_of_isOpen owned.sound isOpen)
  exact ⟨owned.onHub (.attach session.hub) fun _ => nofun, (Hub.isMember_attach session.hub).isOpen,
    fun member => isNew (owned.mailbox _ member), fun key linked => isNew (owned.link linked).1⟩

theorem Owned.publishAll (owned : session.Owned) (origin : ConnectionId) (timestamp : String)
    (messages : List Inbound) :
    Owned { session with
      hub := messages.foldl (fun hub message => (hub.publish origin message timestamp).2)
        session.hub } := by
  induction messages generalizing session with
  | nil => exact owned
  | cons message rest ih =>
    exact ih (owned.onHub (.publish session.hub origin message timestamp) fun _ => nofun)

/-! ## Steps -/

theorem Owned.schedule (owned : session.Owned) (later : Option Later) :
    ((later.map session.schedule).getD session).Owned := by
  cases later with
  | none => exact owned
  | some later =>
    cases later with
    | publish delay origin message => exact owned.congr owned.sound (fun _ => id) rfl fun _ => rfl
    | dropPeer delay id =>
      simp only [Option.map_some, Option.getD_some, Session.schedule]
      split
      · exact owned.congr owned.sound (fun _ isOpen => isOpen) rfl fun _ => rfl
      · exact owned

theorem Owned.await {poll : Session → Option Received × Session}
    (keeps : ∀ {session : Session}, session.Owned → (poll session).2.Owned)
    (owned : session.Owned) (deadline : Nat) :
    (session.await calendar poll deadline).2.Owned := by
  fun_induction awaitEvents calendar poll (fun _ => none) deadline session with
  | case1 session outcome polled found =>
    have kept := keeps owned
    rw [found] at kept
    rw [await_of_found found]
    exact kept.runUntil _
  | case2 session polled found idle =>
    rw [await_of_none (congrArg Prod.fst found) idle]
    exact owned.congr owned.sound (fun _ => id) rfl fun _ => rfl
  | case3 session polled found event agenda due _ ih =>
    rw [await_of_some (congrArg Prod.fst found) due]
    have moved : Owned { session with agenda } :=
      owned.congr owned.sound (fun _ => id) rfl fun _ => rfl
    exact ih (moved.happen event)

theorem Owned.awaitFor {poll : Session → Option Received × Session}
    (keeps : ∀ {session : Session}, session.Owned → (poll session).2.Owned)
    (owned : session.Owned) (bound : Nat) :
    (session.awaitFor calendar poll bound).2.Owned := by
  have kept := keeps owned
  unfold Session.awaitFor
  match found : poll session with
  | (some outcome, polled) =>
    rw [found] at kept
    exact kept
  | (none, _) =>
    by_cases noTime : bound = 0
    · simpa only [noTime, if_true] using owned
    · simp only [noTime, if_false]
      exact owned.giveWay.await keeps _

/-- The party takes the mailbox of a connection that it attaches. -/
theorem Owned.hold (owned : session.Owned) :
    Owned { session with
      hub := session.hub.attach.2
      peers := session.peers ++ [session.hub.nextId]
      mailboxes := session.mailboxes ++ [session.hub.nextId] } := by
  obtain ⟨attached, isOpen, unheld, unlinked⟩ := owned.attach
  constructor
  · exact attached.sound
  · exact List.nodup_append.mpr ⟨owned.distinct, List.nodup_singleton _, by
      rintro id member _ isLast rfl
      exact unheld (List.mem_singleton.mp isLast ▸ member)⟩
  · intro id member
    rcases List.mem_append.mp member with old | isNew
    · exact attached.mailbox id old
    · rw [List.mem_singleton.mp isNew]
      exact isOpen
  · intro key id linked
    refine ⟨(attached.link linked).1, fun member => ?_⟩
    rcases List.mem_append.mp member with old | isNew
    · exact (owned.link linked).2 old
    · exact unlinked key (List.mem_singleton.mp isNew ▸ linked)
  · exact owned.apart

private theorem Owned.dropHeld (owned : session.Owned) {id : ConnectionId}
    (held : id ∈ session.mailboxes) :
    Owned { session with
      hub := session.hub.dropMailbox id
      mailboxes := session.mailboxes.erase id } := by
  have dropped := Hub.Step.dropMailbox session.hub id
  have stays : ∀ {other}, other ≠ id → session.hub.isOpen other = true →
      (session.hub.dropMailbox id).isOpen other = true := fun different =>
    dropped.isOpen owned.sound (by simpa using different.symm)
  constructor
  · exact dropped.sound owned.sound
  · exact owned.distinct.erase id
  · intro other member
    obtain ⟨different, was⟩ := owned.distinct.mem_erase_iff.mp member
    exact stays different (owned.mailbox other was)
  · intro key other linked
    obtain ⟨isOpen, unheld⟩ := owned.link linked
    exact ⟨stays (fun same => unheld (same ▸ held)) isOpen,
      fun member => unheld (List.mem_of_mem_erase member)⟩
  · exact owned.apart

theorem Owned.step (owned : session.Owned) (calendar : Calendar) (step : Step) :
    (session.step calendar step).2.Owned := by
  cases step with
  | attach => exact owned.hold
  | publish id message =>
    simp only [Session.step]
    split
    · exact owned.onHub (.publish session.hub id message _) (by simp)
    · exact owned
  | publishAs origin message =>
    exact owned.onHub (.publish session.hub origin message _) (by simp)
  | dropPeer id =>
    simp only [Session.step]
    split
    · have detached := owned.onHub (.detach session.hub id) (by simp)
      exact detached.congr detached.sound (fun _ isOpen => isOpen) rfl fun _ => rfl
    · exact owned
  | dropMailbox id =>
    simp only [Session.step]
    split
    · rename_i held
      exact owned.dropHeld held
    · exact owned
  | isAttached id => exact owned
  | tryReceive id =>
    simp only [Session.step]
    split
    · have polled := owned.pollMailbox id
      unfold Session.pollMailbox at polled
      rcases found : session.hub.poll id with ⟨_ | _ | _, hub⟩ <;>
        simpa only [found] using polled
    · exact owned
  | drain id =>
    simp only [Session.step]
    split
    · exact owned.onHub (.drain session.hub id) (by simp)
    · exact owned
  | receive id bound later =>
    have scheduled := owned.schedule later
    simp only [Session.step]
    split
    · exact scheduled.awaitFor (fun kept => kept.pollMailbox id) bound
    · exact scheduled
  | link key =>
    obtain ⟨attached, isOpen, unheld, unlinked⟩ := owned.attach
    refine (attached.putLink key ?_).giveWay
    rintro id ⟨⟩
    exact ⟨isOpen, unheld, unlinked⟩
  | deadLink key => exact owned.putLink key (by rintro id ⟨⟩)
  | linkSend key message =>
    simp only [Session.step]
    cases found : session.links.get? key with
    | none => exact owned
    | some link =>
      have gaveWay : (session.giveWay calendar).Owned := owned.giveWay
      have still : (session.giveWay calendar).links.get? key = some link := by
        rw [giveWay_links, found]
      cases link with
      | detached line =>
        simp only [Link.send?]
        split
        · exact gaveWay
        · rename_i sent
          split at sent
          · cases sent
            exact gaveWay.relink still rfl
          · cases sent
      | attached connection outbox =>
        exact (gaveWay.publishAll connection _ _).relink still rfl
  | linkReceive key bound =>
    simp only [Session.step]
    split
    · exact owned.awaitFor (fun kept => kept.pollLink key) bound
    · exact owned
  | linkDrop key => exact (owned.dropLink key).giveWay

/-- In every run, whoever receives has a mailbox with an owner, and no two have the same. -/
theorem owned_last (calendar : Calendar) (steps : List Step) :
    Owned (last calendar {} steps) := by
  suffices whole : ∀ {session : Session}, session.Owned → (session.last calendar steps).Owned from
    whole owned_empty
  intro session owned
  induction steps generalizing session with
  | nil => exact owned
  | cons step rest ih =>
    rw [last_cons]
    exact ih (owned.step calendar step)

end Owned

end ChatHub.Session
