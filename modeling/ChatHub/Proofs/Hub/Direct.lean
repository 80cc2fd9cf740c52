import Mathlib.Data.List.Forall2
import ChatHub.Proofs.Hub.Lifecycle
/-!
A session in which every link is replaced by a peer and a mailbox that the party holds itself. Main
statements: `Replaces.run`, by which the two cannot be told apart, and `Direct.run_of_quiet`, by
which the pauses matter only to what was scheduled for later.
-/

set_option autoImplicit false

namespace ChatHub

open Session (Step Answer pollMailbox pollLink)

/-- A session without links. Under the key of each there is the id of a peer and of a mailbox that
take its place. -/
structure Direct where
  session : Session := {}
  ends : Roster Nat ConnectionId := {}

namespace Direct

variable (calendar : Calendar) (pause : Session → Session)

/-- Drops the mailbox under a key and then the peer, with a pause between the two. -/
def drop (direct : Direct) (key : Nat) : Direct :=
  match direct.ends.get? key with
  | none => { direct with session := pause direct.session }
  | some id =>
    let session := pause { direct.session with hub := direct.session.hub.dropMailbox id }
    { session := { session with hub := session.hub.detach id }, ends := direct.ends.erase key }

/-- What was asked of a link is done with the peer and the mailbox that take its place. There is a
pause where a session with links gives way. -/
def step (direct : Direct) : Step → Answer × Direct
  | .link key =>
    let (id, hub) := direct.session.hub.attach
    let dropped := { direct with session := { direct.session with hub } }.drop pause key
    (.done, { dropped with ends := dropped.ends.put key id })
  | .linkSend key message =>
    match direct.ends.get? key with
    | none => (.missing, direct)
    | some id =>
      let session := pause direct.session
      let (_, hub) := session.hub.publish id message (calendar session.agenda.now)
      (.done, { direct with session := { session with hub } })
  | .linkReceive key bound =>
    match direct.ends.get? key with
    | none => (.missing, direct)
    | some id =>
      let (outcome, session) := direct.session.awaitFor calendar (pollMailbox id) bound
      (.received outcome, { direct with session })
  | .linkDrop key => (.holds (direct.ends.contains key), direct.drop pause key)
  | step =>
    let (answer, session) := direct.session.step calendar step
    (answer, { direct with session })

/-- Takes steps in order, with the answer and the state behind each. -/
def run (direct : Direct) : List Step → List (Answer × Direct)
  | [] => []
  | step :: rest =>
    let (answer, next) := direct.step calendar pause step
    (answer, next) :: next.run rest

end Direct

namespace Session

/-! ## What links have to do with the rest -/

/-- A session that has forgotten its links. -/
def unlink (session : Session) : Session :=
  { session with links := {} }

section Unlink

variable {calendar : Calendar}

private theorem runUntil_with (moment : Nat) (session : Session) (ready : List (Nat × LaterEvent))
    (links : Roster Nat Link) :
    { session with ready, links }.runUntil calendar moment =
      { session.runUntil calendar moment with ready, links } := by
  -- The induction is along the events that become due, each of which changes the hub alone.
  fun_induction runUntilEvents calendar moment session with
  | case1 session idle => rw [runUntil_of_none idle, runUntil_of_none (by exact idle)]
  | case2 session event agenda due _ ih =>
    rw [runUntil_of_some due, ← ih, runUntil_of_some (by exact due)]
    cases event <;> rfl

private theorem runUntil_unlink (moment : Nat) (session : Session) :
    session.unlink.runUntil calendar moment = (session.runUntil calendar moment).unlink := by
  refine (runUntil_with moment session session.ready {}).trans ?_
  rw [unlink, runUntil_ready]

private theorem happen_relinked (session : Session) (links : Roster Nat Link) (event : LaterEvent) :
    Session.happen calendar { session with links } event =
      { session.happen calendar event with links } := by
  cases event <;> rfl

private theorem start_relinked (session : Session) (links : Roster Nat Link)
    (task : Nat × LaterEvent) :
    Session.start calendar { session with links } task =
      { session.start calendar task with links } := by
  unfold start
  split
  · exact happen_relinked session links task.2
  · rfl

private theorem foldl_start_relinked (tasks : List (Nat × LaterEvent)) (session : Session)
    (links : Roster Nat Link) :
    tasks.foldl (start calendar) { session with links } =
      { tasks.foldl (start calendar) session with links } := by
  induction tasks generalizing session with
  | nil => rfl
  | cons task rest ih => rw [List.foldl_cons, start_relinked, ih, List.foldl_cons]

private theorem giveWay_relinked (session : Session) (links : Roster Nat Link) :
    Session.giveWay calendar { session with links } = { session.giveWay calendar with links } := by
  have settled : Session.settle calendar { session with links } =
      { session.settle calendar with links } := by
    refine (runUntil_with _ session session.ready links).trans ?_
    rw [settle, ← runUntil_ready]
  unfold giveWay
  rw [settled]
  exact foldl_start_relinked _ { session.settle calendar with ready := [] } links

theorem giveWay_unlink (session : Session) :
    session.unlink.giveWay calendar = (session.giveWay calendar).unlink :=
  giveWay_relinked session {}

/-- What is ready to run last has its turn behind everything else. -/
theorem giveWay_detach (session : Session) (id : ConnectionId) :
    Session.giveWay calendar { session with ready := session.ready ++ [(0, .detach id)] } =
      { session.giveWay calendar with hub := (session.giveWay calendar).hub.detach id } := by
  have settled : Session.settle calendar
      { session with ready := session.ready ++ [(0, .detach id)] } =
        { session.settle calendar with ready := session.ready ++ [(0, .detach id)] } := by
    refine (runUntil_with _ session _ session.links).trans ?_
    rw [settle, ← runUntil_links]
  unfold giveWay
  rw [settled]
  simp only [List.foldl_append, List.foldl_cons, List.foldl_nil]
  have same : (session.settle calendar).ready = session.ready := runUntil_ready _ session
  rw [same]
  rfl

end Unlink

/-! ## Waiting at a link and at a mailbox -/

/-- One poll finds what another finds in a session without links, as long as each key has the link
that it has now. -/
def Mirrors (links : Nat → Option Link) (poll mirror : Session → Option Received × Session) :
    Prop :=
  ∀ session : Session, (∀ key, session.links.get? key = links key) →
    mirror session.unlink = ((poll session).1, (poll session).2.unlink) ∧
      ∀ key, (poll session).2.links.get? key = links key

section Mirrors

variable {calendar : Calendar} {links : Nat → Option Link}
  {poll mirror : Session → Option Received × Session}

theorem mirrors_pollMailbox (id : ConnectionId) :
    Mirrors links (pollMailbox id) (pollMailbox id) := by
  intro session same
  exact ⟨rfl, same⟩

theorem mirrors_pollLink {key : Nat} {id : ConnectionId} {outbox : Fifo Inbound}
    (linked : links key = some (.attached id outbox)) :
    Mirrors links (pollLink key) (pollMailbox id) := by
  intro session same
  have found := (same key).trans linked
  rw [pollLink, found]
  refine ⟨rfl, ?_⟩
  intro other
  by_cases own : other = key
  · rw [own, linked]
    exact Roster.get?_put_self ..
  · exact (Roster.get?_put_of_ne _ _ own).trans (same other)

theorem Mirrors.await (mirrors : Mirrors links poll mirror) (deadline : Nat) (session : Session)
    (same : ∀ key, session.links.get? key = links key) :
    session.unlink.await calendar mirror deadline =
        ((session.await calendar poll deadline).1,
          (session.await calendar poll deadline).2.unlink) ∧
      ∀ key, (session.await calendar poll deadline).2.links.get? key = links key := by
  fun_induction awaitEvents calendar poll (fun _ => none) deadline session with
  | case1 session outcome polled found =>
    obtain ⟨mirrored, kept⟩ := mirrors session same
    rw [found] at mirrored kept
    rw [await_of_found found, await_of_found mirrored]
    refine ⟨Prod.ext rfl (runUntil_unlink _ polled), ?_⟩
    intro key
    exact (congrArg (·.get? key) (runUntil_links _ polled)).trans (kept key)
  | case2 session polled found idle =>
    have waits := (mirrors session same).1
    rw [found] at waits
    rw [await_of_none (congrArg Prod.fst found) idle,
      await_of_none (congrArg Prod.fst waits) (by exact idle)]
    exact ⟨rfl, same⟩
  | case3 session polled found event agenda due _ ih =>
    have waits := (mirrors session same).1
    rw [found] at waits
    rw [await_of_some (congrArg Prod.fst found) due,
      await_of_some (congrArg Prod.fst waits) (by exact due)]
    cases event <;> exact ih same

theorem Mirrors.awaitFor (mirrors : Mirrors links poll mirror) (calendar : Calendar)
    (bound : Nat) (session : Session)
    (same : ∀ key, session.links.get? key = links key) :
    session.unlink.awaitFor calendar mirror bound =
        ((session.awaitFor calendar poll bound).1,
          (session.awaitFor calendar poll bound).2.unlink) ∧
      ∀ key, (session.awaitFor calendar poll bound).2.links.get? key = links key := by
  obtain ⟨mirrored, kept⟩ := mirrors session same
  unfold Session.awaitFor
  rw [mirrored]
  rcases found : poll session with ⟨_ | outcome, polled⟩
  · by_cases noTime : bound = 0
    · rw [if_pos noTime, if_pos noTime]
      exact ⟨rfl, same⟩
    · rw [if_neg noTime, if_neg noTime, giveWay_unlink]
      refine mirrors.await _ (session.giveWay calendar) ?_
      intro key
      rw [giveWay_links]
      exact same key
  · rw [found] at kept
    exact ⟨rfl, kept⟩

end Mirrors

private theorem schedule_unlink (session : Session) (later : Option Later) :
    (later.map session.unlink.schedule).getD session.unlink =
        ((later.map session.schedule).getD session).unlink ∧
      ((later.map session.schedule).getD session).links = session.links := by
  cases later with
  | none => exact ⟨rfl, rfl⟩
  | some later =>
    cases later with
    | publish delay origin message => exact ⟨rfl, rfl⟩
    | dropPeer delay id =>
      by_cases owned : id ∈ session.peers <;> simp [schedule, unlink, owned]

def Step.onLink : Step → Bool
  | .link _ | .deadLink _ | .linkSend .. | .linkReceive .. | .linkDrop _ => true
  | _ => false

private theorem step_unlink (calendar : Calendar) (session : Session) {step : Step}
    (beside : step.onLink = false) :
    session.unlink.step calendar step =
        ((session.step calendar step).1, (session.step calendar step).2.unlink) ∧
      ∀ key, (session.step calendar step).2.links.get? key = session.links.get? key := by
  cases step with
  | attach | publishAs | isAttached => exact ⟨rfl, fun _ => rfl⟩
  | publish id message | dropPeer id =>
    by_cases owned : id ∈ session.peers <;> simp [Session.step, unlink, owned]
  | dropMailbox id | drain id =>
    by_cases owned : id ∈ session.mailboxes <;> simp [Session.step, unlink, owned]
  | tryReceive id =>
    by_cases owned : id ∈ session.mailboxes
    · rcases found : session.hub.poll id with ⟨_ | _ | _, hub⟩ <;>
        simp [Session.step, unlink, owned, found]
    · simp [Session.step, unlink, owned]
  | receive id bound later =>
    obtain ⟨scheduled, links⟩ := schedule_unlink session later
    simp only [Session.step, scheduled]
    generalize (later.map session.schedule).getD session = ready at links ⊢
    rw [← links]
    by_cases owned : id ∈ ready.mailboxes
    · obtain ⟨same, kept⟩ := (mirrors_pollMailbox id).awaitFor calendar bound ready
        fun _ => rfl
      simp only [unlink] at same owned ⊢
      simp only [owned, if_true, same]
      exact ⟨trivial, kept⟩
    · simp only [unlink, owned, if_false]
      exact ⟨trivial, fun _ => trivial⟩
  | link | deadLink | linkSend | linkReceive | linkDrop => cases beside

end Session

/-! ## Steps side by side -/

/-- A session without links stands for one with links: all else is the same, and each link is
attached as the peer that takes its place, with nothing left in its outbox. -/
structure Replaces (direct : Direct) (linked : Session) : Prop where
  session : direct.session = linked.unlink
  links : ∀ key, linked.links.get? key = (direct.ends.get? key).map fun id => .attached id {}

/-- Two steps with the same answer behind which one session stands for the other. -/
def Alike (mine : Answer × Direct) (theirs : Answer × Session) : Prop :=
  mine.1 = theirs.1 ∧ Replaces mine.2 theirs.2

namespace Replaces

open Session (giveWay giveWay_links giveWay_relinked giveWay_unlink giveWay_detach dropLink
  mirrors_pollLink step_unlink)

variable {calendar : Calendar} {direct : Direct} {linked : Session}

theorem empty : Replaces {} {} where
  session := rfl
  links _ := rfl

theorem contains (replaces : Replaces direct linked) (key : Nat) :
    direct.ends.contains key = linked.links.contains key := by
  rw [Roster.contains, Roster.contains, replaces.links key, Option.isSome_map]

theorem drop (replaces : Replaces direct linked) (calendar : Calendar) (key : Nat) :
    Replaces (direct.drop (giveWay calendar) key) ((linked.dropLink key).giveWay calendar) := by
  have shown := replaces.links key
  cases held : direct.ends.get? key with
  | none =>
    rw [held, Option.map_none] at shown
    have same : linked.dropLink key = linked := by
      rw [dropLink, shown, Roster.erase_of_get?_eq_none shown]
    rw [Direct.drop, held, same]
    refine ⟨?_, ?_⟩
    · rw [replaces.session, giveWay_unlink]
    · rw [giveWay_links]
      exact replaces.links
  | some id =>
    rw [held, Option.map_some] at shown
    -- The peer goes last of all that is ready, which is when the pause is over.
    have same : linked.dropLink key =
        { linked with
          hub := linked.hub.dropMailbox id
          ready := linked.ready ++ [(0, .detach id)]
          links := linked.links.erase key } := by
      rw [dropLink, shown]
    rw [Direct.drop, held, same]
    refine ⟨?_, ?_⟩
    · rw [← giveWay_unlink, replaces.session]
      exact (giveWay_detach { linked.unlink with hub := linked.hub.dropMailbox id } id).symm
    · intro other
      rw [giveWay_links]
      by_cases own : other = key
      · rw [own, Roster.get?_erase_self, Roster.get?_erase_self, Option.map_none]
      · rw [Roster.get?_erase_of_ne _ own, Roster.get?_erase_of_ne _ own]
        exact replaces.links other

theorem put (replaces : Replaces direct linked) (key : Nat) (id : ConnectionId) :
    Replaces { direct with ends := direct.ends.put key id }
      { linked with links := linked.links.put key (.attached id {}) } := by
  refine ⟨replaces.session, ?_⟩
  intro other
  by_cases own : other = key
  · rw [own, Roster.get?_put_self, Roster.get?_put_self, Option.map_some]
  · rw [Roster.get?_put_of_ne _ _ own, Roster.get?_put_of_ne _ _ own]
    exact replaces.links other

theorem link (replaces : Replaces direct linked) (key : Nat) :
    Replaces (direct.step calendar (giveWay calendar) (.link key)).2
      (linked.step calendar (.link key)).2 := by
  obtain ⟨session, ends⟩ := direct
  obtain rfl : session = linked.unlink := replaces.session
  -- The new peer is there before the old one goes.
  have attached : Replaces ⟨{ linked.unlink with hub := linked.hub.attach.2 }, ends⟩
      { linked with hub := linked.hub.attach.2 } := ⟨rfl, replaces.links⟩
  have dropped := (attached.drop calendar key).put key linked.hub.attach.1
  rw [giveWay_links, ← giveWay_relinked] at dropped
  exact dropped

theorem linkSend (replaces : Replaces direct linked) (key : Nat) (message : Inbound) :
    Alike (direct.step calendar (giveWay calendar) (.linkSend key message))
      (linked.step calendar (.linkSend key message)) := by
  have shown := replaces.links key
  simp only [Alike, Direct.step, Session.step]
  cases held : direct.ends.get? key with
  | none =>
    rw [held, Option.map_none] at shown
    rw [shown]
    exact ⟨rfl, replaces⟩
  | some id =>
    rw [held, Option.map_some] at shown
    rw [shown]
    refine ⟨rfl, ?_, ?_⟩
    -- The outbox was empty, so the pump publishes this message and no other.
    · rw [replaces.session, giveWay_unlink]
      rfl
    · intro other
      by_cases own : other = key
      · subst own
        rw [held]
        exact Roster.get?_put_self ..
      · refine (Roster.get?_put_of_ne _ _ own).trans ?_
        rw [giveWay_links]
        exact replaces.links other

theorem linkReceive (replaces : Replaces direct linked) (key bound : Nat) :
    Alike (direct.step calendar (giveWay calendar) (.linkReceive key bound))
      (linked.step calendar (.linkReceive key bound)) := by
  have shown := replaces.links key
  simp only [Alike, Direct.step, Session.step, Roster.contains]
  cases held : direct.ends.get? key with
  | none =>
    rw [held, Option.map_none] at shown
    simp only [shown, Option.isSome_none, Bool.false_eq_true, if_false]
    exact ⟨trivial, replaces⟩
  | some id =>
    rw [held, Option.map_some] at shown
    obtain ⟨same, kept⟩ := (mirrors_pollLink shown).awaitFor calendar bound linked
      fun _ => rfl
    simp only [replaces.session, same, shown, Option.isSome_some, if_true]
    refine ⟨trivial, rfl, ?_⟩
    intro other
    exact (kept other).trans (replaces.links other)

theorem step (replaces : Replaces direct linked) {step : Step}
    (inProcess : ∀ key, step ≠ .deadLink key) :
    Alike (direct.step calendar (giveWay calendar) step) (linked.step calendar step) := by
  have beside (unlinked : step.onLink = false) :
      Alike ((direct.session.step calendar step).1,
          { direct with session := (direct.session.step calendar step).2 })
        (linked.step calendar step) := by
    obtain ⟨same, kept⟩ := step_unlink calendar linked unlinked
    rw [replaces.session, same]
    exact ⟨rfl, rfl, fun key => (kept key).trans (replaces.links key)⟩
  cases step with
  | link key => exact ⟨rfl, replaces.link key⟩
  | linkSend key message => exact replaces.linkSend key message
  | linkReceive key bound => exact replaces.linkReceive key bound
  | linkDrop key =>
    exact ⟨congrArg Answer.holds (replaces.contains key), replaces.drop calendar key⟩
  | deadLink key => exact absurd rfl (inProcess key)
  | attach | publish | publishAs | dropPeer | dropMailbox | isAttached | tryReceive | drain
  | receive => exact beside rfl

theorem run (replaces : Replaces direct linked) {steps : List Step}
    (inProcess : ∀ key, .deadLink key ∉ steps) :
    List.Forall₂ Alike (direct.run calendar (giveWay calendar) steps)
      (linked.run calendar steps) := by
  induction steps generalizing direct linked with
  | nil => exact .nil
  | cons first rest ih =>
    have alike : Alike (direct.step calendar (giveWay calendar) first)
        (linked.step calendar first) :=
      replaces.step fun key dead => inProcess key (dead ▸ List.mem_cons_self)
    exact .cons alike
      (ih alike.2 fun key later => inProcess key (List.mem_cons_of_mem _ later))

end Replaces

/-! ## Runs that schedule nothing -/

/-- Nothing is ready to run and nothing will become due. -/
structure Session.Quiet (session : Session) : Prop where
  ready : session.ready = []
  pending : session.agenda.pending = []

section Quiet

open Session (Quiet giveWay)

variable {calendar : Calendar} {session : Session} {direct : Direct}

namespace Session.Quiet

theorem idle (quiet : session.Quiet) (moment : Nat) : session.agenda.nextBefore? moment = none := by
  rw [Agenda.nextBefore?, quiet.pending]

theorem settle (quiet : session.Quiet) : session.settle calendar = session :=
  runUntil_of_none (quiet.idle _)

theorem giveWay (quiet : session.Quiet) : session.giveWay calendar = session := by
  unfold Session.giveWay
  simp only [quiet.settle, quiet.ready, List.foldl_nil]
  rw [← quiet.ready]

theorem awaitFor (quiet : session.Quiet) (id : ConnectionId) (bound : Nat) :
    (session.awaitFor calendar (pollMailbox id) bound).2.Quiet := by
  have polled : (pollMailbox id session).2.Quiet := ⟨quiet.ready, quiet.pending⟩
  unfold Session.awaitFor
  rcases found : pollMailbox id session with ⟨_ | outcome, after⟩
  · by_cases noTime : bound = 0
    · rw [if_pos noTime]
      exact quiet
    · rw [if_neg noTime, quiet.giveWay, await_of_none (congrArg Prod.fst found) (quiet.idle _)]
      exact ⟨quiet.ready, quiet.pending⟩
  · rw [found] at polled
    exact polled

theorem step (quiet : session.Quiet) (calendar : Calendar) {step : Step}
    (beside : step.onLink = false)
    (unscheduled : ∀ id bound later, step ≠ .receive id bound (some later)) :
    (session.step calendar step).2.Quiet := by
  have onHub (hub : Hub) (peers mailboxes : List ConnectionId) :
      Quiet { session with hub, peers, mailboxes } := ⟨quiet.ready, quiet.pending⟩
  cases step with
  | attach | publishAs => exact onHub ..
  | isAttached => exact quiet
  | publish id message | dropPeer id | dropMailbox id | drain id =>
    simp only [Session.step]
    split
    · exact onHub ..
    · exact quiet
  | tryReceive id =>
    simp only [Session.step]
    split
    · split <;> exact onHub ..
    · exact quiet
  | receive id bound later =>
    cases later with
    | some later => exact absurd rfl (unscheduled id bound later)
    | none =>
      simp only [Session.step, Option.map_none, Option.getD_none]
      split
      · exact quiet.awaitFor id bound
      · exact quiet
  | link | deadLink | linkSend | linkReceive | linkDrop => cases beside

end Session.Quiet

namespace Direct

private theorem drop_of_quiet (quiet : direct.session.Quiet) (calendar : Calendar) (key : Nat) :
    direct.drop (giveWay calendar) key = direct.drop id key := by
  have onHub (hub : Hub) : Quiet { direct.session with hub } := ⟨quiet.ready, quiet.pending⟩
  unfold drop
  split
  · rw [quiet.giveWay, id]
  · rw [(onHub _).giveWay, id]

private theorem step_of_quiet (quiet : direct.session.Quiet) (step : Step) :
    direct.step calendar (giveWay calendar) step = direct.step calendar id step := by
  cases step with
  | link key =>
    obtain ⟨session, ends⟩ := direct
    have attached : Quiet { session with hub := session.hub.attach.2 } :=
      ⟨quiet.ready, quiet.pending⟩
    simp only [Direct.step]
    rw [@drop_of_quiet ⟨_, ends⟩ attached calendar key]
  | linkDrop key => simp only [Direct.step, drop_of_quiet quiet calendar]
  | linkSend key message => simp only [Direct.step, quiet.giveWay, id]
  | deadLink | linkReceive | attach | publish | publishAs | dropPeer | dropMailbox | isAttached
  | tryReceive | drain | receive => rfl

private theorem quiet_drop (quiet : direct.session.Quiet) (key : Nat) :
    (direct.drop id key).session.Quiet := by
  unfold drop
  split
  · exact quiet
  · exact ⟨quiet.ready, quiet.pending⟩

theorem quiet_step (quiet : direct.session.Quiet) (calendar : Calendar) {step : Step}
    (inProcess : ∀ key, step ≠ .deadLink key)
    (unscheduled : ∀ id bound later, step ≠ .receive id bound (some later)) :
    (direct.step calendar id step).2.session.Quiet := by
  cases step with
  | link key =>
    obtain ⟨session, ends⟩ := direct
    have attached : Quiet { session with hub := session.hub.attach.2 } :=
      ⟨quiet.ready, quiet.pending⟩
    exact @quiet_drop ⟨_, ends⟩ attached key
  | linkDrop key => exact quiet_drop quiet key
  | deadLink key => exact absurd rfl (inProcess key)
  | linkSend key message =>
    simp only [Direct.step]
    split
    · exact quiet
    · exact ⟨quiet.ready, quiet.pending⟩
  | linkReceive key bound =>
    simp only [Direct.step]
    split
    · exact quiet
    · exact quiet.awaitFor _ bound
  | attach | publish | publishAs | dropPeer | dropMailbox | isAttached | tryReceive | drain
  | receive => exact quiet.step calendar rfl unscheduled

/-- A run that schedules nothing is the same without any pause. -/
theorem run_of_quiet (quiet : direct.session.Quiet) {steps : List Step}
    (inProcess : ∀ key, .deadLink key ∉ steps)
    (unscheduled : ∀ id bound later, .receive id bound (some later) ∉ steps) :
    direct.run calendar (giveWay calendar) steps = direct.run calendar id steps := by
  induction steps generalizing direct with
  | nil => rfl
  | cons first rest ih =>
    have next := quiet_step quiet calendar
      (fun key dead => inProcess key (dead ▸ List.mem_cons_self))
      fun id bound later isFirst => unscheduled id bound later (isFirst ▸ List.mem_cons_self)
    have following := ih next (fun key later => inProcess key (List.mem_cons_of_mem _ later))
      fun id bound later isLater => unscheduled id bound later (List.mem_cons_of_mem _ isLater)
    rw [run, run, step_of_quiet quiet]
    exact congrArg (List.cons _) following

end Direct

end Quiet

end ChatHub
