import ChatHub.Proofs.Hub.Direct
/-!
Any number of links on one hub while their pumps take turns with everything else. A send only fills
an outbox, a pump publishes from it later, and a link that is dropped has its pump stopped at once
and its peer detached when the pump gets its turn. Main statement: `links_are_peers`, for runs that
let the pumps have their turns behind each step and for runs that do not.
-/

set_option autoImplicit false

namespace ChatHub

/-- How far a link has got: it is held, with what is in its outbox; or its pump has been stopped and
still has the peer; or the peer is gone as well. -/
inductive Strand where
  | held (connection : ConnectionId) (outbox : Fifo Inbound)
  | stopped (connection : ConnectionId)
  | gone

def Strand.isHeld : Strand → Bool
  | .held .. => true
  | .stopped _ | .gone => false

/-- A hub and the links to it, each at the place that it was given when it was made. -/
structure Mesh where
  hub : Hub := {}
  links : List Strand := []

private theorem Link.of_pumpOnce? {connection : ConnectionId} {outbox shorter : Fifo Inbound}
    {message : Inbound} {timestamp : String} {before after : Hub}
    (first : outbox.toList.head? = some message)
    (pumped : (Link.attached connection outbox).pumpOnce? timestamp before =
      some (.attached connection shorter, after)) :
    outbox.toList = message :: shorter.toList ∧
      after = (before.publish connection message timestamp).2 := by
  simp only [Link.pumpOnce?] at pumped
  split at pumped
  · rename_i popped rest taken
    have listed := Fifo.pop?_eq_some taken
    rw [listed, List.head?_cons, Option.some.injEq] at first
    cases pumped
    subst first
    exact ⟨listed, rfl⟩
  · cases pumped

namespace Mesh

/-- What can happen next. Links are named by their places. -/
inductive Happening where
  | connected (connection : ConnectionId)
  | sent (place : Nat) (message : Inbound)
  | published (place : Nat) (connection : ConnectionId) (message : Inbound) (timestamp : String)
  | received (place : Nat) (connection : ConnectionId) (outcome : Received)
  | dropped (place : Nat) (connection : ConnectionId)
  | detached (place : Nat) (connection : ConnectionId)
  /-- Someone else used the hub. -/
  | beside (event : Hub.Event)

inductive Step : Mesh → Happening → Mesh → Prop where
  | connect {mesh : Mesh} {connection : ConnectionId} {hub : Hub}
      (connected : Link.connect mesh.hub = (.attached connection {}, hub)) :
      Step mesh (.connected connection) ⟨hub, mesh.links ++ [.held connection {}]⟩
  | send {mesh : Mesh} {place : Nat} {connection : ConnectionId} {outbox longer : Fifo Inbound}
      {message : Inbound} (held : mesh.links[place]? = some (.held connection outbox))
      (sent : (Link.attached connection outbox).send? message =
        some (.attached connection longer)) :
      Step mesh (.sent place message) ⟨mesh.hub, mesh.links.set place (.held connection longer)⟩
  | pump {mesh : Mesh} {place : Nat} {connection : ConnectionId} {outbox shorter : Fifo Inbound}
      {message : Inbound} {timestamp : String} {hub : Hub}
      (held : mesh.links[place]? = some (.held connection outbox))
      (first : outbox.toList.head? = some message)
      (pumped : (Link.attached connection outbox).pumpOnce? timestamp mesh.hub =
        some (.attached connection shorter, hub)) :
      Step mesh (.published place connection message timestamp)
        ⟨hub, mesh.links.set place (.held connection shorter)⟩
  | receive {mesh : Mesh} {place : Nat} {connection : ConnectionId} {outbox : Fifo Inbound}
      {outcome : Received} {link : Link} {hub : Hub}
      (held : mesh.links[place]? = some (.held connection outbox))
      (polled : (Link.attached connection outbox).poll mesh.hub = (some outcome, link, hub)) :
      Step mesh (.received place connection outcome) { mesh with hub }
  /-- The pump stops at once. Where several threads run, one that is in the middle of its work goes
  on until it next waits for its outbox; such runs are not among these. -/
  | drop {mesh : Mesh} {place : Nat} {connection : ConnectionId} {outbox : Fifo Inbound}
      (held : mesh.links[place]? = some (.held connection outbox)) :
      Step mesh (.dropped place connection)
        ⟨mesh.hub.dropMailbox connection, mesh.links.set place (.stopped connection)⟩
  | detach {mesh : Mesh} {place : Nat} {connection : ConnectionId}
      (stopped : mesh.links[place]? = some (.stopped connection)) :
      Step mesh (.detached place connection)
        ⟨mesh.hub.detach connection, mesh.links.set place .gone⟩
  | beside {mesh : Mesh} {event : Hub.Event} {hub : Hub} (used : Hub.Step mesh.hub event hub) :
      Step mesh (.beside event) { mesh with hub }

/-- Anything that can happen, in any order. -/
abbrev Run : Mesh → List Happening → Mesh → Prop :=
  Trace Step

/-! ## What a log says about the hub and about one link -/

def Happening.hubEvents : Happening → List Hub.Event
  | .connected connection => [.attached connection]
  | .sent .. => []
  | .published _ connection message timestamp => [.published connection (message.stamp timestamp)]
  | .received _ connection outcome => Session.receiveEvents (some connection) outcome
  | .dropped _ connection => [.abandoned connection]
  | .detached _ connection => [.detached connection]
  | .beside event => [event]

def Happening.sentOn (place : Nat) : Happening → List Inbound
  | .sent other message => if other = place then [message] else []
  | _ => []

def Happening.publishedOn (place : Nat) : Happening → List Inbound
  | .published other _ message _ => if other = place then [message] else []
  | _ => []

/-- What was sent on a link, in order. -/
def sentOn (place : Nat) (log : List Happening) : List Inbound :=
  log.flatMap (Happening.sentOn place)

/-- What the pump of a link published, in order. -/
def publishedOn (place : Nat) (log : List Happening) : List Inbound :=
  log.flatMap (Happening.publishedOn place)

section Steps

variable {mesh next : Mesh} {happening : Happening} {place : Nat}

theorem Step.hubRun (step : Step mesh happening next) :
    Hub.Run mesh.hub happening.hubEvents next.hub := by
  cases step with
  | connect connected =>
    cases connected
    exact (Hub.Step.attach mesh.hub).run
  | send => exact .nil
  | @pump _ connection _ _ message timestamp _ held first pumped =>
    rw [(Link.of_pumpOnce? first pumped).2]
    exact (Hub.Step.publish mesh.hub connection message timestamp).run
  | @receive _ connection _ outcome _ _ _ polled =>
    simp only [Link.poll, Prod.mk.injEq] at polled
    obtain ⟨found, -, rfl⟩ := polled
    have found : mesh.hub.poll connection = (some outcome, (mesh.hub.poll connection).2) :=
      Prod.ext found rfl
    cases outcome with
    | message message => exact (Hub.Step.poll found).run
    | timedOut | closed =>
      rw [show (mesh.hub.poll connection).2 = mesh.hub from Hub.eq_of_poll_other found (by simp)]
      exact .nil
  | drop => exact (Hub.Step.dropMailbox mesh.hub _).run
  | detach => exact (Hub.Step.detach mesh.hub _).run
  | beside used => exact used.run

/-- A link against what was sent on it and what its pump published. -/
def Accounts (sent published : List Inbound) : Option Strand → Prop
  | none => sent = [] ∧ published = []
  | some (.held _ outbox) => published ++ outbox.toList = sent
  | some (.stopped _) | some .gone => published <+: sent

theorem getElem?_set_strand {links : List Strand} {other : Nat} {strand : Strand}
    (there : links[other]? = some strand) (changed : Strand) (place : Nat) :
    (links.set other changed)[place]? = if other = place then some changed else links[place]? := by
  obtain ⟨bound, -⟩ := List.getElem?_eq_some_iff.mp there
  rw [List.getElem?_set, if_pos bound]

theorem Accounts.set {links : List Strand} {other : Nat} {strand changed : Strand}
    {sent published sentNow publishedNow : List Inbound}
    (accounts : Accounts sent published links[place]?) (there : links[other]? = some strand)
    (own : other = place → Accounts sent published (some strand) →
      Accounts sentNow publishedNow (some changed))
    (elsewhere : other ≠ place → sentNow = sent ∧ publishedNow = published) :
    Accounts sentNow publishedNow (links.set other changed)[place]? := by
  rw [getElem?_set_strand there]
  by_cases same : other = place
  · rw [if_pos same]
    exact own same (there ▸ same ▸ accounts)
  · obtain ⟨rfl, rfl⟩ := elsewhere same
    rw [if_neg same]
    exact accounts

/-- What is sent comes into the outbox behind the rest, and what is published was the first
in it. -/
theorem Step.accounts (step : Step mesh happening next) {sent published : List Inbound}
    (accounts : Accounts sent published mesh.links[place]?) :
    Accounts (sent ++ happening.sentOn place) (published ++ happening.publishedOn place)
      next.links[place]? := by
  cases step with
  | connect =>
    simp only [Happening.sentOn, Happening.publishedOn, List.append_nil]
    rcases Nat.lt_trichotomy place mesh.links.length with earlier | rfl | later
    · rw [List.getElem?_append_left earlier]
      exact accounts
    · rw [List.getElem?_eq_none_iff.mpr (Nat.le_refl _)] at accounts
      rw [List.getElem?_concat_length]
      obtain ⟨rfl, rfl⟩ := accounts
      rfl
    · rw [List.getElem?_eq_none_iff.mpr (Nat.le_of_lt later)] at accounts
      rw [List.getElem?_eq_none_iff.mpr ?_]
      · exact accounts
      · rw [List.length_append]
        exact later
  | send held enqueued =>
    simp only [Happening.sentOn, Happening.publishedOn, List.append_nil]
    refine accounts.set held ?_ fun other => by simp [other]
    intro own whole
    cases enqueued
    simp only [Accounts, Fifo.toList_push, own, if_true, ← List.append_assoc] at whole ⊢
    rw [whole]
  | pump held first pumped =>
    simp only [Happening.sentOn, Happening.publishedOn, List.append_nil]
    refine accounts.set held ?_ fun other => by simp [other]
    intro own whole
    simp only [Accounts, (Link.of_pumpOnce? first pumped).1] at whole
    simpa only [Accounts, own, if_true, List.append_assoc, List.singleton_append] using whole
  | drop held =>
    simp only [Happening.sentOn, Happening.publishedOn, List.append_nil]
    exact accounts.set held (fun _ whole => ⟨_, whole⟩) fun _ => ⟨rfl, rfl⟩
  | detach stopped =>
    simp only [Happening.sentOn, Happening.publishedOn, List.append_nil]
    exact accounts.set stopped (fun _ begun => begun) fun _ => ⟨rfl, rfl⟩
  | receive | beside =>
    simp only [Happening.sentOn, Happening.publishedOn, List.append_nil]
    exact accounts

/-- Nothing more is sent or published on a link that is no longer held, and it stays so. -/
theorem Step.ended (step : Step mesh happening next) {strand : Strand}
    (there : mesh.links[place]? = some strand) (ended : strand.isHeld = false) :
    (∃ later, next.links[place]? = some later ∧ later.isHeld = false) ∧
      happening.sentOn place = [] ∧ happening.publishedOn place = [] := by
  -- Whoever uses a link that is held uses another one.
  have elsewhere {other : Nat} {own : Strand} (found : mesh.links[other]? = some own)
      (held : own.isHeld = true) : other ≠ place := by
    rintro rfl
    rw [found] at there
    cases there
    rw [held] at ended
    cases ended
  cases step with
  | connect =>
    obtain ⟨bound, -⟩ := List.getElem?_eq_some_iff.mp there
    refine ⟨⟨strand, ?_, ended⟩, rfl, rfl⟩
    rw [List.getElem?_append_left bound]
    exact there
  | send held =>
    have other := elsewhere held rfl
    refine ⟨⟨strand, ?_, ended⟩, if_neg other, rfl⟩
    rw [getElem?_set_strand held, if_neg other]
    exact there
  | pump held =>
    have other := elsewhere held rfl
    refine ⟨⟨strand, ?_, ended⟩, rfl, if_neg other⟩
    rw [getElem?_set_strand held, if_neg other]
    exact there
  | drop held =>
    refine ⟨⟨strand, ?_, ended⟩, rfl, rfl⟩
    rw [getElem?_set_strand held, if_neg (elsewhere held rfl)]
    exact there
  | @detach other _ stopped =>
    refine ⟨?_, rfl, rfl⟩
    rw [getElem?_set_strand stopped]
    by_cases own : other = place
    · exact ⟨.gone, if_pos own, rfl⟩
    · exact ⟨strand, (if_neg own).trans there, ended⟩
  | receive | beside => exact ⟨⟨strand, there, ended⟩, rfl, rfl⟩

end Steps

/-! ## Runs -/

section Runs

variable {first last : Mesh} {log : List Happening} {place : Nat}

theorem Run.hubRun (run : Run first log last) :
    Hub.Run first.hub (log.flatMap Happening.hubEvents) last.hub := by
  induction run with
  | nil => exact .nil
  | cons step _ ih =>
    rw [List.flatMap_cons]
    exact step.hubRun.append ih

theorem Run.accounts (run : Run first log last) {sent published : List Inbound}
    (accounts : Accounts sent published first.links[place]?) :
    Accounts (sent ++ sentOn place log) (published ++ publishedOn place log)
      last.links[place]? := by
  induction run generalizing sent published with
  | nil =>
    rw [sentOn, publishedOn, List.flatMap_nil, List.flatMap_nil, List.append_nil, List.append_nil]
    exact accounts
  | cons step _ ih =>
    have whole := ih (step.accounts accounts)
    rw [List.append_assoc, List.append_assoc] at whole
    exact whole

theorem Run.ended (run : Run first log last) {strand : Strand}
    (there : first.links[place]? = some strand) (ended : strand.isHeld = false) :
    sentOn place log = [] ∧ publishedOn place log = [] := by
  induction run generalizing strand with
  | nil => exact ⟨rfl, rfl⟩
  | cons step _ ih =>
    obtain ⟨⟨later, found, still⟩, sent, published⟩ := step.ended there ended
    obtain ⟨sentLater, publishedLater⟩ := ih found still
    rw [sentOn, publishedOn, List.flatMap_cons, List.flatMap_cons, sent, published]
    exact ⟨sentLater, publishedLater⟩

theorem Run.dropped {earlier later : List Happening} {connection : ConnectionId}
    (run : Run first (earlier ++ .dropped place connection :: later) last) :
    sentOn place later = [] ∧ publishedOn place later = [] := by
  obtain ⟨middle, -, after⟩ := run.split
  cases after with
  | cons step after =>
    cases step with
    | drop held => exact Run.ended after ((getElem?_set_strand held _ place).trans (if_pos rfl)) rfl

theorem Accounts.isPrefix {sent published : List Inbound} {strand : Option Strand}
    (accounts : Accounts sent published strand) : published <+: sent := by
  match strand, accounts with
  | none, ⟨noneSent, nonePublished⟩ => simp [noneSent, nonePublished]
  | some (.held _ outbox), whole => exact ⟨outbox.toList, whole⟩
  | some (.stopped _), whole => exact whole
  | some .gone, whole => exact whole

end Runs

end Mesh

/-! ## Main statement -/

open Session (giveWay) in
/-- Links cannot be told from peers with mailboxes. In a session each step lets the pumps have
their turns; then the answers, the hub with all its mailboxes, and everything else the party holds
are the same behind each step as if a link were a peer and a mailbox, sending were publishing,
receiving were receiving from the mailbox, and dropping were dropping the mailbox and then the peer.
Other tasks that are ready or due have their turns in between, and without any there is nothing in
between. If the pumps have their turns at any other time, what a link has published so far is what
was sent on it first, the rest is still in its outbox, and after the link is dropped it publishes
nothing. This last part takes a pump to stop at once when its link is dropped, as on one thread. -/
theorem links_are_peers (calendar : Calendar) (steps : List Session.Step)
    (inProcess : ∀ key, .deadLink key ∉ steps) :
    (List.Forall₂ Alike (Direct.run calendar (giveWay calendar) {} steps)
        (Session.run calendar {} steps) ∧
      ((∀ id bound later, .receive id bound (some later) ∉ steps) →
        List.Forall₂ Alike (Direct.run calendar id {} steps) (Session.run calendar {} steps))) ∧
    ∀ log mesh, Mesh.Run {} log mesh →
      Hub.Run {} (log.flatMap Mesh.Happening.hubEvents) mesh.hub ∧
      ∀ place,
        Mesh.publishedOn place log <+: Mesh.sentOn place log ∧
        (∀ connection outbox, mesh.links[place]? = some (.held connection outbox) →
          Mesh.publishedOn place log ++ outbox.toList = Mesh.sentOn place log) ∧
        ∀ earlier connection later, log = earlier ++ .dropped place connection :: later →
          Mesh.sentOn place later = [] ∧ Mesh.publishedOn place later = [] := by
  have replaced : List.Forall₂ Alike (Direct.run calendar (giveWay calendar) {} steps)
      (Session.run calendar {} steps) := Replaces.empty.run inProcess
  refine ⟨⟨replaced, ?unscheduled⟩, fun log mesh run => ⟨run.hubRun, fun place => ?link⟩⟩
  case unscheduled =>
    intro unscheduled
    rw [← Direct.run_of_quiet ⟨rfl, rfl⟩ inProcess unscheduled]
    exact replaced
  case link =>
    have fresh : Mesh.Accounts [] [] ({} : Mesh).links[place]? := ⟨rfl, rfl⟩
    have accounts := run.accounts fresh
    rw [List.nil_append, List.nil_append] at accounts
    refine ⟨accounts.isPrefix, ?held, ?dropped⟩
    case held =>
      intro connection outbox held
      rw [held] at accounts
      exact accounts
    case dropped =>
      rintro earlier connection later rfl
      exact run.dropped

/-- A peer and two links, of which one is replaced and one is dropped; and a link that is dropped
with a message left in its outbox. -/
theorem links_are_peers_replaced :
    let steps : List Session.Step :=
      [.attach, .link 0, .link 1, .linkSend 0 ⟨"ann", "one"⟩, .linkReceive 1 5, .link 0,
        .publish 1 ⟨"bob", "two"⟩, .linkReceive 0 5, .linkDrop 1, .linkReceive 1 5,
        .linkSend 0 ⟨"ann", "three"⟩, .receive 1 5 none, .receive 1 5 none]
    let log : List Mesh.Happening :=
      [.connected 1, .sent 0 ⟨"ann", "one"⟩, .sent 0 ⟨"ann", "two"⟩,
        .published 0 1 ⟨"ann", "one"⟩ "noon", .dropped 0 1, .detached 0 1]
    (∀ key, .deadLink key ∉ steps) ∧
      ((Session.run (fun _ => "noon") {} steps).map Prod.fst =
        [.attached 1, .done, .done, .done, .received (.message ⟨"ann", "one", "noon"⟩), .done,
          .report ⟨2, 0⟩, .received (.message ⟨"bob", "two", "noon"⟩), .holds true, .missing,
          .done, .received (.message ⟨"ann", "one", "noon"⟩),
          .received (.message ⟨"ann", "three", "noon"⟩)] ∧
        List.Forall₂ Alike (Direct.run (fun _ => "noon") id {} steps)
          (Session.run (fun _ => "noon") {} steps)) ∧
      ∃ mesh, Mesh.Run {} log mesh ∧ Mesh.publishedOn 0 log <+: Mesh.sentOn 0 log := by
  intro steps log
  have inProcess : ∀ key, .deadLink key ∉ steps := by simp [steps]
  obtain ⟨⟨-, alike⟩, onMesh⟩ := links_are_peers (fun _ => "noon") steps inProcess
  have run : Mesh.Run {} log _ :=
    .cons (.connect rfl) (.cons (.send rfl rfl) (.cons (.send rfl rfl) (.cons (.pump rfl rfl rfl)
      (.cons (.drop rfl) (.cons (.detach rfl) .nil)))))
  exact ⟨inProcess, ⟨by decide +kernel, alike (by simp [steps])⟩, _, run,
    ((onMesh log _ run).2 0).1⟩

end ChatHub
