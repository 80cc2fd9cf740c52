import ChatHub.Proofs.Hub.Chronicle
import ChatHub.Proofs.Hub.Ledger
/-!
Who holds the peers of a session: the party itself, a link through its pump, or an event that will
drop one. Main statement: `lifecycle_law`; at any time the peers held are exactly the connections
attached, and numbers, reports and failures follow from the chronicle.
-/

set_option autoImplicit false

namespace ChatHub

theorem filterMap_cons_toList {α β : Type} (pick : α → Option β) (first : α) (rest : List α) :
    (first :: rest).filterMap pick = (pick first).toList ++ rest.filterMap pick := by
  cases picked : pick first with
  | none => rw [List.filterMap_cons_none picked, Option.toList_none, List.nil_append]
  | some found =>
    rw [List.filterMap_cons_some picked, Option.toList_some, List.singleton_append]

/-! ## Events to come -/

/-- The connection whose peer an event will drop. -/
def LaterEvent.detaches? : LaterEvent → Option ConnectionId
  | .publish .. => none
  | .detach id => some id

namespace Agenda

variable {α : Type}

theorem insert_perm (due : Nat) (event : α) (pending : List (Nat × α)) :
    (insert due event pending).Perm ((due, event) :: pending) := by
  induction pending with
  | nil => exact .refl _
  | cons other rest ih =>
    simp only [insert]
    split
    · exact (ih.cons other).trans (.swap _ _ _)
    · exact .refl _

private theorem pending_of_nextBefore? {agenda later : Agenda α} {moment : Nat} {event : α}
    (next : agenda.nextBefore? moment = some (event, later)) :
    ∃ due, agenda.pending = (due, event) :: later.pending := by
  unfold nextBefore? at next
  split at next
  · cases next
  · rename_i due first rest isFirst
    split at next
    · cases next
      exact ⟨due, isFirst⟩
    · cases next

end Agenda

namespace Session

/-- The connections whose peers the pumps of links own. -/
def linked (session : Session) : List ConnectionId :=
  session.links.entries.filterMap fun entry => entry.2.connection?

/-- The connections whose peers go with an event to come. -/
def scheduled (session : Session) : List ConnectionId :=
  (session.ready.map Prod.snd ++ session.agenda.pending.map Prod.snd).filterMap
    LaterEvent.detaches?

/-- The connections whose peers still have an owner. -/
def holders (session : Session) : List ConnectionId :=
  session.peers ++ session.linked ++ session.scheduled

/-- What every step keeps: the hub agrees with the books of its history, and the peers that have an
owner are those of the connections that are present. `loose` are peers in between two owners. -/
structure Account (loose : List ConnectionId) (past : List Hub.Event) (session : Session) :
    Prop where
  ledger : Hub.Ledger past session.hub
  distinct : session.links.Distinct
  held : (loose ++ session.holders).Perm (Hub.present past)
  mailboxes : ∀ id ∈ session.mailboxes, id ∈ Hub.issued past

private theorem account_empty : Account [] [] {} where
  ledger := Hub.ledger_empty
  distinct := Roster.distinct_empty
  held := .refl _
  mailboxes _ member := by cases member

section Account

variable {calendar : Calendar} {loose : List ConnectionId} {past : List Hub.Event}
  {session : Session}

theorem Account.issued (account : Account loose past session) {id : ConnectionId}
    (isHeld : id ∈ loose ++ session.holders) : id ∈ Hub.issued past :=
  Hub.mem_issued_of_mem_present (account.held.subset isHeld)

/-! ## Passing peers on -/

/-- Peers that pass from one owner to another. -/
theorem Account.passOn {loose' : List ConnectionId} {session' : Session}
    (account : Account loose past session) (hub : session'.hub = session.hub)
    (links : session'.links.Distinct)
    (mailboxes : session'.mailboxes = session.mailboxes)
    (moved : (loose' ++ session'.holders).Perm (loose ++ session.holders)) :
    Account loose' past session' where
  ledger := hub ▸ account.ledger
  distinct := links
  held := moved.trans account.held
  mailboxes := mailboxes ▸ account.mailboxes

theorem Account.next (account : Account loose past session) {moment : Nat} {event : LaterEvent}
    {agenda : Agenda LaterEvent}
    (due : session.agenda.nextBefore? moment = some (event, agenda)) :
    Account (event.detaches?.toList ++ loose) past { session with agenda } := by
  obtain ⟨_, isFirst⟩ := Agenda.pending_of_nextBefore? due
  refine account.passOn rfl account.distinct rfl (List.perm_iff_count.mpr fun id => ?_)
  simp only [holders, linked, scheduled, isFirst, List.map_cons, List.filterMap_append,
    filterMap_cons_toList, List.count_append]
  omega

theorem Account.advance (account : Account loose past session) (moment : Nat) :
    Account loose past { session with agenda := session.agenda.advanceTo moment } :=
  account.passOn rfl account.distinct rfl (.refl _)

private theorem Account.makeReady (event : LaterEvent)
    (account : Account (event.detaches?.toList ++ loose) past session) (delay : Nat) :
    Account loose past { session with ready := session.ready ++ [(delay, event)] } := by
  refine account.passOn rfl account.distinct rfl (List.perm_iff_count.mpr fun id => ?_)
  simp only [holders, linked, scheduled, List.map_append, List.map_cons, List.map_nil,
    List.filterMap_append, filterMap_cons_toList, List.filterMap_nil, List.count_append,
    List.count_nil]
  omega

private theorem Account.givePeer {id : ConnectionId} (account : Account loose past session)
    (owned : id ∈ session.peers) :
    Account (id :: loose) past { session with peers := session.peers.erase id } := by
  refine account.passOn rfl account.distinct rfl (List.perm_iff_count.mpr fun other => ?_)
  have taken := (List.perm_cons_erase owned).count_eq other
  simp only [holders, linked, scheduled, List.count_append, List.count_cons, List.append_assoc,
    List.cons_append] at taken ⊢
  omega

/-! ## One event -/

theorem Account.attach (account : Account loose past session) :
    Account (session.hub.nextId :: loose) (past ++ [.attached session.hub.nextId])
      { session with hub := session.hub.attach.2 } where
  ledger := account.ledger.step (.attach session.hub) trivial
  distinct := account.distinct
  held := by
    rw [Hub.present_attached account.ledger.next_not_mem.2.1]
    exact (account.held.cons _).trans (List.perm_append_singleton _ _).symm
  mailboxes id member := by
    rw [Hub.issued_append]
    exact List.mem_append_left _ (account.mailboxes id member)

theorem Account.detach {id : ConnectionId} (account : Account (id :: loose) past session) :
    Account loose (past ++ [.detached id]) { session with hub := session.hub.detach id } where
  ledger := account.ledger.step (.detach session.hub id) (account.issued List.mem_cons_self)
  distinct := account.distinct
  held := by
    have nodup := account.held.nodup_iff.mpr account.ledger.present_nodup
    have rest : (loose ++ session.holders).filter (fun other => decide (other ≠ id)) =
        loose ++ session.holders := by
      refine List.filter_eq_self.mpr fun other member => decide_eq_true fun same => ?_
      exact (List.nodup_cons.mp nodup).1 (same ▸ member)
    have kept := account.held.filter fun other => decide (other ≠ id)
    rw [List.cons_append, List.filter_cons_of_neg (by simp), rest] at kept
    rw [Hub.present_detached]
    exact kept
  mailboxes other member := by
    rw [Hub.issued_append]
    exact List.mem_append_left _ (account.mailboxes other member)

theorem Account.onHub {event : Hub.Event} {hub : Hub} (account : Account loose past session)
    (step : Hub.Step session.hub event hub) (allowed : event.Allowed past)
    (noNew : event.issued? = none) (noEnd : ∀ id, event ≠ .detached id) :
    Account loose (past ++ [event]) { session with hub } where
  ledger := account.ledger.step step allowed
  distinct := account.distinct
  held := by
    rw [Hub.present_other noNew noEnd]
    exact account.held
  mailboxes other member := by
    rw [Hub.issued_snoc_of_none noNew]
    exact account.mailboxes other member

theorem Account.publish (account : Account loose past session) (origin : ConnectionId)
    (message : Inbound) (timestamp : String) :
    Account loose (past ++ [.published origin (message.stamp timestamp)])
      { session with hub := (session.hub.publish origin message timestamp).2 } :=
  account.onHub (.publish session.hub origin message timestamp) trivial rfl (by simp)

theorem Account.dropMailbox (account : Account loose past session) {id : ConnectionId}
    (issued : id ∈ Hub.issued past) :
    Account loose (past ++ [.abandoned id])
      { session with hub := session.hub.dropMailbox id } :=
  account.onHub (.dropMailbox session.hub id) issued rfl (by simp)

theorem Account.poll (account : Account loose past session) {id : ConnectionId}
    {outcome : Received} {hub : Hub} (polled : session.hub.poll id = (some outcome, hub)) :
    Account loose (past ++ receiveEvents (some id) outcome) { session with hub } := by
  cases outcome with
  | message message => exact account.onHub (.poll polled) trivial rfl (by simp)
  | timedOut | closed =>
    rw [show hub = session.hub from Hub.eq_of_poll_other polled (by simp)]
    simpa only [receiveEvents, List.append_nil] using account

theorem Account.publishAll (account : Account loose past session) (origin : ConnectionId)
    (timestamp : String) (messages : List Inbound) :
    Account loose
      (past ++ messages.map fun message => .published origin (message.stamp timestamp))
      { session with
        hub := messages.foldl (fun hub message => (hub.publish origin message timestamp).2)
          session.hub } := by
  induction messages generalizing past session with
  | nil => simpa using account
  | cons message rest ih =>
    have whole := ih (account.publish origin message timestamp)
    rwa [List.append_assoc, List.singleton_append] at whole

/-! ## Waiting and giving way -/

theorem Account.happen {event : LaterEvent}
    (account : Account (event.detaches?.toList ++ loose) past session) :
    Account loose (past ++ [event.recorded (calendar session.agenda.now)])
      (session.happen calendar event) := by
  cases event with
  | publish origin message => exact account.publish origin message _
  | detach id => exact account.detach

theorem Account.runUntil (account : Account loose past session) (calendar : Calendar)
    (moment : Nat) :
    Account loose (past ++ session.runUntilEvents calendar moment)
      (session.runUntil calendar moment) := by
  fun_induction runUntilEvents calendar moment session generalizing past with
  | case1 session idle =>
    rw [runUntil_of_none idle, List.append_nil]
    exact account
  | case2 session event agenda due _ ih =>
    have whole := ih (account.next due).happen
    rwa [runUntil_of_some due, ← List.singleton_append, ← List.append_assoc]

theorem Account.start {task : Nat × LaterEvent}
    (account : Account (task.2.detaches?.toList ++ loose) past session) :
    Account loose
      (past ++ if task.1 = 0 then [task.2.recorded (calendar session.agenda.now)] else [])
      (session.start calendar task) := by
  unfold Session.start
  split
  · exact account.happen
  · rw [List.append_nil]
    refine account.passOn rfl account.distinct rfl (List.perm_iff_count.mpr fun id => ?_)
    have inserted := (((Agenda.insert_perm (session.agenda.now + task.1) task.2
      session.agenda.pending).map Prod.snd).filterMap LaterEvent.detaches?).count_eq id
    simp only [holders, linked, scheduled, Agenda.schedule, List.map_cons, List.filterMap_append,
      filterMap_cons_toList, List.count_append] at inserted ⊢
    omega

theorem Account.startAll {tasks : List (Nat × LaterEvent)}
    (account : Account (tasks.filterMap (fun task => task.2.detaches?) ++ loose) past session) :
    Account loose (past ++ startEvents calendar session tasks)
      (tasks.foldl (Session.start calendar) session) := by
  induction tasks generalizing past session with
  | nil => simpa [startEvents] using account
  | cons task rest ih =>
    rw [filterMap_cons_toList, List.append_assoc] at account
    rw [startEvents, ← List.append_assoc, List.foldl_cons]
    exact ih account.start

theorem Account.giveWay (account : Account loose past session) (calendar : Calendar) :
    Account loose (past ++ session.giveWayEvents calendar) (session.giveWay calendar) := by
  have settled := account.runUntil calendar (session.agenda.now + 1)
  simp only [giveWayEvents, ← List.append_assoc]
  refine Account.startAll (settled.passOn rfl settled.distinct rfl ?_)
  refine List.perm_iff_count.mpr fun id => ?_
  simp only [holders, linked, scheduled, settle, List.count_append, List.filterMap_append,
    List.filterMap_map, Function.comp_def, List.map_nil, List.nil_append]
  omega

/-- A poll that finds something keeps the books. -/
def PollKeeps (poll : Session → Option Received × Session)
    (source : Session → Option ConnectionId) : Prop :=
  ∀ {past : List Hub.Event} {session polled : Session} {outcome : Received},
    Account [] past session → poll session = (some outcome, polled) →
      Account [] (past ++ receiveEvents (source session) outcome) polled

theorem Account.await {poll : Session → Option Received × Session}
    {source : Session → Option ConnectionId} (keeps : PollKeeps poll source)
    (account : Account [] past session) (deadline : Nat) :
    Account [] (past ++ session.awaitEvents calendar poll source deadline)
      (session.await calendar poll deadline).2 := by
  fun_induction awaitEvents calendar poll source deadline session generalizing past with
  | case1 session outcome polled found =>
    rw [await_of_found found, ← List.append_assoc]
    exact (keeps account found).runUntil calendar _
  | case2 session polled found idle =>
    rw [await_of_none (congrArg Prod.fst found) idle, List.append_nil]
    exact account.advance deadline
  | case3 session polled found event agenda due _ ih =>
    have whole := ih (account.next due).happen
    rwa [await_of_some (congrArg Prod.fst found) due, ← List.singleton_append,
      ← List.append_assoc]

theorem Account.awaitFor {poll : Session → Option Received × Session}
    {source : Session → Option ConnectionId} (keeps : PollKeeps poll source)
    (account : Account [] past session) (bound : Nat) :
    Account [] (past ++ session.awaitForEvents calendar poll source bound)
      (session.awaitFor calendar poll bound).2 := by
  unfold awaitForEvents Session.awaitFor
  match found : poll session with
  | (some outcome, polled) => exact keeps account found
  | (none, _) =>
    by_cases noTime : bound = 0
    · simpa only [noTime, if_true, List.append_nil] using account
    · simp only [noTime, if_false, ← List.append_assoc]
      exact (account.giveWay calendar).await keeps _

/-! ## Links -/

private theorem linked_erase_of_get? {key : Nat} {link : Link} (distinct : session.links.Distinct)
    (found : session.links.get? key = some link) :
    session.linked.Perm
      (link.connection?.toList ++
        (session.links.erase key).entries.filterMap fun entry => entry.2.connection?) := by
  have perm := (distinct.perm_of_get? found).filterMap fun entry => entry.2.connection?
  rwa [filterMap_cons_toList] at perm

private theorem filterMap_put (links : Roster Nat Link) (key : Nat) (link : Link) :
    ((links.put key link).entries.filterMap fun entry => entry.2.connection?) =
      ((links.erase key).entries.filterMap fun entry => entry.2.connection?) ++
        link.connection?.toList := by
  rw [Roster.put, List.filterMap_append, filterMap_cons_toList, List.filterMap_nil,
    List.append_nil]

theorem Account.relink {key : Nat} {link relinked : Link} (account : Account loose past session)
    (found : session.links.get? key = some link)
    (same : relinked.connection? = link.connection?) :
    Account loose past { session with links := session.links.put key relinked } := by
  refine account.passOn rfl (account.distinct.put key relinked) rfl
    (List.perm_iff_count.mpr fun id => ?_)
  have perm := (linked_erase_of_get? account.distinct found).count_eq id
  have put := congrArg (List.count id) (filterMap_put session.links key relinked)
  simp only [holders, linked, scheduled, List.count_append, same] at perm put ⊢
  omega

/-- Dropping a link passes its peer on to an event that is ready to run. -/
theorem Account.dropLink (account : Account loose past session) (key : Nat) :
    Account loose (past ++ session.dropLinkEvents key) (session.dropLink key) := by
  unfold dropLinkEvents Session.dropLink linkedTo?
  cases held : session.links.get? key with
  | none =>
    simpa [Roster.erase_of_get?_eq_none held] using account
  | some link =>
    have perm := linked_erase_of_get? account.distinct held
    cases link with
    | attached connection outbox =>
      have isLinked : connection ∈ session.linked := perm.mem_iff.mpr List.mem_cons_self
      have isHeld : connection ∈ loose ++ session.holders := by simp [holders, isLinked]
      have dropped := account.dropMailbox (account.issued isHeld)
      refine dropped.passOn rfl (account.distinct.erase key) rfl
        (List.perm_iff_count.mpr fun id => ?_)
      have count := perm.count_eq id
      simp only [holders, linked, scheduled, Link.connection?, LaterEvent.detaches?,
        List.map_append, List.map_cons, List.map_nil, List.filterMap_append, filterMap_cons_toList,
        List.filterMap_nil, List.count_append, List.count_nil] at count ⊢
      omega
    | detached line =>
      simp only [Option.map_none, Option.toList_none, List.append_nil]
      refine account.passOn rfl (account.distinct.erase key) rfl
        (List.perm_iff_count.mpr fun id => ?_)
      have count := perm.count_eq id
      simp only [holders, linked, scheduled, Link.connection?, Option.toList_none,
        List.nil_append, List.count_append] at count ⊢
      omega

private theorem get?_dropLink (session : Session) (key : Nat) :
    (session.dropLink key).links.get? key = none := by
  unfold Session.dropLink
  split <;> exact Roster.get?_erase_self session.links key

theorem Account.putLink (link : Link)
    (account : Account (link.connection?.toList ++ loose) past session) (key : Nat) :
    Account loose (past ++ session.dropLinkEvents key) (session.putLink key link) := by
  have dropped := account.dropLink key
  refine dropped.passOn rfl (dropped.distinct.put key link) rfl
    (List.perm_iff_count.mpr fun id => ?_)
  have put := congrArg (List.count id) (filterMap_put (session.dropLink key).links key link)
  rw [Roster.erase_of_get?_eq_none (get?_dropLink session key)] at put
  simp only [Session.putLink, holders, linked, scheduled, List.count_append] at put ⊢
  omega

private theorem pollMailbox_keeps (id : ConnectionId) :
    PollKeeps (pollMailbox id) fun _ => some id := by
  intro past session polled outcome account found
  unfold pollMailbox at found
  rcases polledHub : session.hub.poll id with ⟨outcome', hub⟩
  simp only [polledHub, Prod.mk.injEq] at found
  obtain ⟨rfl, rfl⟩ := found
  exact account.poll polledHub

private theorem pollLink_keeps (key : Nat) : PollKeeps (pollLink key) (linkedTo? key) := by
  intro past session polled outcome account found
  unfold pollLink at found
  unfold linkedTo?
  cases held : session.links.get? key with
  | none =>
    simp only [held, Prod.mk.injEq, Option.some.injEq] at found
    obtain ⟨rfl, rfl⟩ := found
    simpa [receiveEvents] using account
  | some link =>
    cases link with
    | detached line =>
      simp only [held, Link.poll, Prod.mk.injEq] at found
      rw [← found.2, receiveEvents, List.append_nil]
      · exact account.relink held rfl
      · simp
    | attached connection outbox =>
      rcases polledHub : session.hub.poll connection with ⟨outcome', hub⟩
      simp only [held, Link.poll, polledHub, Prod.mk.injEq] at found
      obtain ⟨rfl, rfl⟩ := found
      exact (account.poll polledHub).relink held rfl

/-! ## Steps -/

theorem Account.schedule (account : Account loose past session) (later : Option Later) :
    Account loose past ((later.map session.schedule).getD session) := by
  cases later with
  | none => exact account
  | some later =>
    simp only [Option.map_some, Option.getD_some]
    cases later with
    | publish delay origin message =>
      exact Account.makeReady (.publish origin message) account delay
    | dropPeer delay id =>
      simp only [Session.schedule]
      split
      · rename_i owned
        exact Account.makeReady (.detach id) (account.givePeer owned) delay
      · exact account

theorem Account.step (account : Account [] past session) (step : Step) :
    Account [] (past ++ session.stepEvents calendar step) (session.step calendar step).2 := by
  cases step with
  | attach =>
    have attached := account.attach
    refine
      { ledger := attached.ledger, distinct := attached.distinct, held := ?_, mailboxes := ?_ }
    · refine .trans (List.perm_iff_count.mpr fun id => ?_) attached.held
      simp only [Session.step, Hub.attach, Hub.allocate, Hub.enroll, holders, linked, scheduled,
        List.count_append, List.count_cons, List.count_nil]
      omega
    · intro id member
      rcases List.mem_append.mp member with old | isNew
      · exact attached.mailboxes id old
      · rw [List.mem_singleton] at isNew
        exact isNew ▸ Hub.mem_issued.mpr (List.mem_append_right _ List.mem_cons_self)
  | publish id message =>
    simp only [stepEvents, Session.step]
    split
    · exact account.publish id message _
    · simpa using account
  | publishAs origin message => exact account.publish origin message _
  | dropPeer id =>
    simp only [stepEvents, Session.step]
    split
    · rename_i owned
      exact (account.givePeer owned).detach
    · simpa using account
  | dropMailbox id =>
    simp only [stepEvents, Session.step]
    split
    · rename_i owned
      have dropped := account.dropMailbox (account.mailboxes id owned)
      exact { dropped with
        mailboxes := fun other member => dropped.mailboxes other (List.mem_of_mem_erase member) }
    · simpa using account
  | isAttached id => simpa [stepEvents, Session.step] using account
  | tryReceive id =>
    simp only [stepEvents, Session.step]
    split
    · rcases polled : session.hub.poll id with ⟨_ | outcome, hub⟩
      · rw [show hub = session.hub from Hub.eq_of_poll_other polled (by simp)]
        simpa using account
      · cases outcome <;> exact account.poll polled
    · simpa using account
  | drain id =>
    simp only [stepEvents, Session.step]
    split
    · exact account.onHub (.drain session.hub id) trivial rfl (by simp)
    · simpa using account
  | receive id bound later =>
    simp only [stepEvents, Session.step]
    split
    · exact (account.schedule later).awaitFor (pollMailbox_keeps id) bound
    · simpa using account.schedule later
  | link key =>
    have attached : Account ((Link.connect session.hub).1.connection?.toList ++ [])
        (past ++ [.attached session.hub.nextId])
        { session with hub := (Link.connect session.hub).2 } := account.attach
    simp only [stepEvents, Session.step]
    rw [← List.singleton_append, ← List.append_assoc, ← List.append_assoc]
    exact (Account.putLink _ attached key).giveWay calendar
  | deadLink key => exact Account.putLink .dead account key
  | linkSend key message =>
    simp only [stepEvents, Session.step]
    cases found : session.links.get? key with
    | none => simpa using account
    | some link =>
      have settled := account.giveWay calendar
      have held : (session.giveWay calendar).links.get? key = some link := by
        rw [giveWay_links, found]
      cases link with
      | attached connection outbox =>
        simp only [Link.send?, Link.pump, ← List.append_assoc]
        exact (settled.publishAll connection _ (outbox.push message).toList).relink held rfl
      | detached line =>
        cases accepts : line.accepts with
        | false => simpa [Link.send?, accepts] using settled
        | true => simpa [Link.send?, Link.pump, accepts] using settled.relink held rfl
  | linkReceive key bound =>
    simp only [stepEvents, Session.step]
    split
    · exact account.awaitFor (pollLink_keeps key) bound
    · simpa using account
  | linkDrop key =>
    simp only [stepEvents, Session.step, ← List.append_assoc]
    exact (account.dropLink key).giveWay calendar

theorem Account.run (account : Account [] past session) (steps : List Step) :
    Account [] (past ++ session.chronicle calendar steps) (session.last calendar steps) := by
  induction steps generalizing past session with
  | nil => simpa [chronicle] using account
  | cons step rest ih =>
    rw [last_cons, chronicle, ← List.append_assoc]
    exact ih (account.step step)

theorem Account.isAttached_iff (account : Account loose past session) {id : ConnectionId} :
    session.hub.isAttached id = true ↔ .attached id ∈ past ∧ .detached id ∉ past :=
  account.ledger.isAttached_iff.trans Hub.mem_present

private theorem Account.isAttached_linked (account : Account [] past session) {key : Nat}
    {id : ConnectionId} (linked : session.linkedTo? key = some id) :
    session.hub.isAttached id = true := by
  unfold linkedTo? at linked
  split at linked
  · rename_i connection outbox found
    cases linked
    have isLinked : id ∈ session.linked :=
      (linked_erase_of_get? account.distinct found).mem_iff.mpr List.mem_cons_self
    exact account.ledger.isAttached_iff.mpr (account.held.subset (by simp [holders, isLinked]))
  · cases linked

end Account

/-! ## A dropped link, once settled -/

section Settled

variable {calendar : Calendar} {id : ConnectionId}

theorem runUntil_ready (moment : Nat) (session : Session) :
    (session.runUntil calendar moment).ready = session.ready := by
  fun_induction runUntilEvents calendar moment session with
  | case1 session idle => rw [runUntil_of_none idle]
  | case2 session event agenda due _ ih =>
    rw [runUntil_of_some due, ih]
    cases event <;> rfl

private theorem mem_startEvents {tasks : List (Nat × LaterEvent)} (member : (0, .detach id) ∈ tasks)
    (session : Session) : .detached id ∈ startEvents calendar session tasks := by
  induction tasks generalizing session with
  | nil => cases member
  | cons task rest ih =>
    rw [startEvents, List.mem_append]
    rcases List.mem_cons.mp member with rfl | later
    · exact .inl List.mem_cons_self
    · exact .inr (ih later _)

private theorem mem_giveWayEvents {session : Session} (ready : (0, .detach id) ∈ session.ready) :
    .detached id ∈ session.giveWayEvents calendar := by
  refine List.mem_append_right _ (mem_startEvents ?_ _)
  rw [settle, runUntil_ready]
  exact ready

private theorem mem_ready_dropLink {session : Session} {key : Nat}
    (linked : session.linkedTo? key = some id) :
    (0, .detach id) ∈ (session.dropLink key).ready := by
  unfold linkedTo? at linked
  split at linked
  · rename_i found
    cases linked
    simp [Session.dropLink, found]
  · cases linked

/-- Whether a link is dropped or replaced, its pump's peer is gone behind the step. -/
theorem mem_stepEvents_of_linked (calendar : Calendar) {session : Session} {key : Nat}
    (linked : session.linkedTo? key = some id) :
    .detached id ∈ session.stepEvents calendar (.linkDrop key) ∧
      .detached id ∈ session.stepEvents calendar (.link key) := by
  constructor
  · exact List.mem_append_right _ (mem_giveWayEvents (mem_ready_dropLink linked))
  · let attached : Session := { session with hub := (Link.connect session.hub).2 }
    have connected : attached.linkedTo? key = some id := linked
    have ready : (0, .detach id) ∈ (attached.putLink key (Link.connect session.hub).1).ready :=
      mem_ready_dropLink connected
    exact List.mem_cons_of_mem _ (List.mem_append_right _ (mem_giveWayEvents ready))

end Settled

/-! ## Main statement -/

private theorem account_last (calendar : Calendar) (steps : List Step) :
    Account [] (chronicle calendar {} steps) (last calendar {} steps) :=
  account_empty.run steps

/-- The books of every run, kept from the chronicle of all that happened to its hub. Numbers rise
and none comes twice. Attached are exactly the connections that were handed out and whose peer was
not dropped; these are the peers with an owner, and that of a link goes once the link is dropped
and has settled. Detaching takes away one entry and, done again, nothing. Every publish, whoever
asked for it, reports a delivery for each other connection attached, failed where the mailbox was
dropped, and the failures add up. -/
theorem lifecycle_law (calendar : Calendar) (steps : List Step)
    (few : (Hub.issued (chronicle calendar {} steps)).length < 2 ^ 64) :
    let events := chronicle calendar {} steps
    let session := last calendar {} steps
    (Hub.Run {} events session.hub ∧
      (Hub.issued events).Pairwise (· < ·) ∧ (∀ id ∈ Hub.issued events, id < 2 ^ 64) ∧
      ∃ id, (session.step calendar .attach).1 = .attached id ∧
        ∀ earlier ∈ Hub.issued events, earlier < id) ∧
    ((∀ id, session.hub.isAttached id = true ↔ .attached id ∈ events ∧ .detached id ∉ events) ∧
      session.holders.Perm (Hub.present events) ∧
      session.hub.peerCount = (Hub.present events).length ∧
      ∀ key id, session.linkedTo? key = some id →
        session.hub.isAttached id = true ∧
        (session.step calendar (.linkDrop key)).2.hub.isAttached id = false ∧
        (session.step calendar (.link key)).2.hub.isAttached id = false) ∧
    (∀ id,
      (∀ other, (session.hub.detach id).isAttached other =
        (!decide (other = id) && session.hub.isAttached other)) ∧
      { session.hub.detach id with registry := session.hub.registry } = session.hub ∧
      (session.hub.detach id).detach id = session.hub.detach id ∧
      (session.hub.isAttached id = false → session.hub.detach id = session.hub)) ∧
    (∀ earlier origin message later, events = earlier ++ .published origin message :: later →
      ∃ before inbound timestamp, Hub.Run {} earlier before ∧
        message = inbound.stamp timestamp ∧
        (let report := (before.publish origin inbound timestamp).1
        report = Hub.expected earlier origin ∧
          report.delivered + report.failed =
            ((Hub.present earlier).filter fun id => decide (id ≠ origin)).length) ∧
        Hub.Run (before.publish origin inbound timestamp).2 later session.hub) ∧
    (∀ origin message,
      (session.step calendar (.publishAs origin message)).1 =
          .report (Hub.expected events origin) ∧
        (origin ∈ session.peers →
          (session.step calendar (.publish origin message)).1 =
            .report (Hub.expected events origin))) ∧
    session.hub.failures = ((Hub.reports [] events).map DeliveryReport.failed).sum := by
  intro events session
  have account : Account [] events session := account_last calendar steps
  have ledger := account.ledger
  have run : Hub.Run {} events session.hub := chronicle_run {} steps
  refine ⟨⟨run, ?rising, ?bounded, session.hub.nextId, rfl, fun id member =>
      (ledger.mem_issued.mp member).2⟩,
    ⟨fun id => account.isAttached_iff, account.held, ?count, fun key id linked => ?links⟩,
    fun id => ⟨Hub.isAttached_detach session.hub id, rfl, ?again, Hub.detach_eq_self⟩,
    fun earlier origin message later split => ?published,
    fun origin message => ?answers, ledger.failures⟩
  case rising =>
    rw [ledger.numbers]
    exact List.pairwise_lt_range'
  case bounded =>
    intro id member
    have below := (ledger.mem_issued.mp member).2
    rw [ledger.next] at below
    exact Nat.lt_of_lt_of_le below few
  case count =>
    rw [← ledger.registered, List.length_map]
    rfl
  case links =>
    obtain ⟨byDrop, byReplacing⟩ := mem_stepEvents_of_linked calendar linked
    refine ⟨account.isAttached_linked linked, ?_, ?_⟩
    · exact Bool.eq_false_iff.mpr fun attached =>
        ((account.step _).isAttached_iff.mp attached).2 (List.mem_append_right _ byDrop)
    · exact Bool.eq_false_iff.mpr fun attached =>
        ((account.step _).isAttached_iff.mp attached).2 (List.mem_append_right _ byReplacing)
  case again =>
    apply Hub.detach_eq_self
    simp [Hub.isAttached_detach]
  case published =>
    obtain ⟨before, inbound, timestamp, earlierRun, stamped, report, laterRun⟩ :=
      ledger.published run split
    refine ⟨before, inbound, timestamp, earlierRun, stamped, ⟨report, ?_⟩, laterRun⟩
    rw [report]
    exact Hub.expected_total earlier origin
  case answers =>
    have report := ledger.publish_report origin message (calendar session.agenda.now)
    refine ⟨congrArg Answer.report report, fun owned => ?_⟩
    simp only [Session.step, if_pos owned]
    exact congrArg Answer.report report

/-- Two peers and two links; one mailbox is dropped while its connection stays, one link is
replaced while it is held, and one publish has an origin that was never attached. -/
theorem lifecycle_law_mixed :
    let steps : List Step :=
      [.attach, .attach, .link 0, .dropMailbox 2, .publish 1 ⟨"ann", "hello"⟩, .link 0,
        .publishAs 9 ⟨"eve", "psst"⟩, .dropPeer 2, .dropPeer 2, .linkDrop 0]
    let events := chronicle (fun _ => "noon") {} steps
    (Hub.issued events).length < 2 ^ 64 ∧ Hub.issued events = [1, 2, 3, 4] ∧
      Hub.reports [] events = [⟨1, 1⟩, ⟨2, 1⟩] ∧
      (last (fun _ => "noon") {} steps).hub.failures = 2 ∧
      (last (fun _ => "noon") {} steps).hub.peerCount = 1 := by
  intro steps events
  have few : (Hub.issued events).length < 2 ^ 64 := by decide +kernel
  obtain ⟨-, ⟨-, -, count, -⟩, -, -, -, failures⟩ := lifecycle_law (fun _ => "noon") steps few
  exact ⟨few, by decide +kernel, by decide +kernel, failures.trans (by decide +kernel),
    count.trans (by decide +kernel)⟩

end Session

end ChatHub
