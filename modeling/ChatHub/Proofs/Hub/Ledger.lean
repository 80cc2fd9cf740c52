import ChatHub.Hub.Link
import ChatHub.Proofs.Hub.History
import Mathlib.Algebra.GroupWithZero.Nat
/-!
The books of a hub, kept from its history alone: the ids handed out, those still attached, what
each publish should report and how many deliveries failed. Main statement: `Ledger.run`; as long as
only ids that were handed out end, hub and books agree.
-/

set_option autoImplicit false

namespace ChatHub.Hub

/-! ## What a history says -/

/-- The id that an event hands out. -/
def Event.issued? : Event → Option ConnectionId
  | .attached id => some id
  | _ => none

/-- The ids that a history hands out, in order. -/
def issued (events : List Event) : List ConnectionId :=
  events.filterMap Event.issued?

/-- The ids handed out and not detached, in the order they were handed out. -/
def present (events : List Event) : List ConnectionId :=
  (issued events).filter fun id => decide (.detached id ∉ events)

/-- What a publish behind a history should report: a delivery for every other connection that is
present, failed if its mailbox was abandoned. -/
def expected (past : List Event) (origin : ConnectionId) : DeliveryReport :=
  let others := (present past).filter fun id => decide (id ≠ origin)
  { delivered := others.countP fun id => decide (.abandoned id ∉ past)
    failed := others.countP fun id => decide (.abandoned id ∈ past) }

/-- What an event should report. -/
def Event.report? (past : List Event) : Event → Option DeliveryReport
  | .published origin _ => some (expected past origin)
  | _ => none

/-- What the publishes of a history should report, each behind all that came before. -/
def reports (past : List Event) : List Event → List DeliveryReport
  | [] => []
  | event :: rest => (event.report? past).toList ++ reports (past ++ [event]) rest

/-- An event may end only what was handed out before. -/
def Event.Allowed (past : List Event) : Event → Prop
  | .detached id | .abandoned id => id ∈ issued past
  | _ => True

/-- Whether every event of a history is allowed when it happens. -/
def Orderly (past : List Event) : List Event → Prop
  | [] => True
  | event :: rest => event.Allowed past ∧ Orderly (past ++ [event]) rest

theorem issued_append (earlier later : List Event) :
    issued (earlier ++ later) = issued earlier ++ issued later :=
  List.filterMap_append

theorem mem_issued {events : List Event} {id : ConnectionId} :
    id ∈ issued events ↔ .attached id ∈ events := by
  rw [issued, List.mem_filterMap]
  constructor
  · rintro ⟨event, member, isIssued⟩
    cases event <;> cases isIssued
    exact member
  · intro member
    exact ⟨.attached id, member, rfl⟩

theorem mem_issued_of_mem_present {events : List Event} {id : ConnectionId}
    (isPresent : id ∈ present events) : id ∈ issued events :=
  (List.mem_filter.mp isPresent).1

theorem mem_present {events : List Event} {id : ConnectionId} :
    id ∈ present events ↔ .attached id ∈ events ∧ .detached id ∉ events := by
  rw [present, List.mem_filter, mem_issued, decide_eq_true_eq]

private theorem orderly_append {past earlier later : List Event} :
    Orderly past (earlier ++ later) ↔ Orderly past earlier ∧ Orderly (past ++ earlier) later := by
  induction earlier generalizing past with
  | nil => simp [Orderly]
  | cons event rest ih => simp [Orderly, ih, and_assoc]

private theorem reports_append (past earlier later : List Event) :
    reports past (earlier ++ later) =
      reports past earlier ++ reports (past ++ earlier) later := by
  induction earlier generalizing past with
  | nil => simp [reports]
  | cons event rest ih => simp [reports, ih]

theorem Orderly.mem_issued {events : List Event} {event : Event} (orderly : Orderly [] events)
    (member : event ∈ events) : event.Allowed events := by
  obtain ⟨earlier, later, rfl⟩ := List.append_of_mem member
  have allowed := (orderly_append.mp orderly).2.1
  cases event with
  | attached | published | took => trivial
  | detached | abandoned =>
    simp only [Event.Allowed, List.nil_append, issued_append, List.mem_append] at allowed ⊢
    exact .inl allowed

private theorem issued_snoc_of_some {past : List Event} {event : Event} {id : ConnectionId}
    (isNew : event.issued? = some id) : issued (past ++ [event]) = issued past ++ [id] := by
  rw [issued_append, issued, issued, List.filterMap_cons_some isNew, List.filterMap_nil]

theorem issued_snoc_of_none {past : List Event} {event : Event} (noNew : event.issued? = none) :
    issued (past ++ [event]) = issued past := by
  rw [issued_append, issued, issued, List.filterMap_cons_none noNew, List.filterMap_nil,
    List.append_nil]

theorem present_attached {past : List Event} {id : ConnectionId}
    (never : .detached id ∉ past) : present (past ++ [.attached id]) = present past ++ [id] := by
  rw [present, issued_snoc_of_some rfl]
  simp [present, never]

theorem present_detached (past : List Event) (id : ConnectionId) :
    present (past ++ [.detached id]) = (present past).filter fun other => decide (other ≠ id) := by
  rw [present, issued_snoc_of_none rfl, present, List.filter_filter]
  apply List.filter_congr
  intro other _
  simp [and_comm]

theorem present_other {past : List Event} {event : Event} (noNew : event.issued? = none)
    (noEnd : ∀ id, event ≠ .detached id) : present (past ++ [event]) = present past := by
  rw [present, issued_snoc_of_none noNew, present]
  apply List.filter_congr
  intro id _
  simp [(noEnd id).symm]

theorem expected_total (past : List Event) (origin : ConnectionId) :
    (expected past origin).delivered + (expected past origin).failed =
      ((present past).filter fun id => decide (id ≠ origin)).length := by
  simp [expected, List.length_eq_countP_add_countP fun id => decide (.abandoned id ∈ past),
    Nat.add_comm]

/-! ## What a publish reports -/

private theorem isAbandoned_congr (hub : Hub) {next : Hub} {id : ConnectionId}
    (same : (next.mailboxes.get? id).map Mailbox.held = (hub.mailboxes.get? id).map Mailbox.held) :
    next.isAbandoned id = hub.isAbandoned id := by
  have viaHeld : ∀ either : Hub, either.isAbandoned id =
      ((either.mailboxes.get? id).map Mailbox.held).any (fun held => !held) := by
    intro either
    rw [isAbandoned, Option.any_map]
  rw [viaHeld, viaHeld, same]

private theorem foldl_deliverCounted_report (message : Stamped)
    (targets : List (ConnectionId × ConnectionId)) (report : DeliveryReport) (hub : Hub) :
    let delivered := targets.foldl (deliverCounted message) (report, hub)
    delivered.1.delivered = report.delivered + targets.countP (fun target => hub.isOpen target.2) ∧
      delivered.1.failed = report.failed + targets.countP (fun target => !hub.isOpen target.2) ∧
      delivered.2.failures = hub.failures := by
  -- A delivery gives no mailbox an owner and takes none away, so the order does not matter.
  induction targets generalizing report hub with
  | nil => exact ⟨rfl, rfl, rfl⟩
  | cons target rest ih =>
    obtain ⟨delivered, failed, failures⟩ :=
      ih (report.count (hub.deliver target.2 message).1) (hub.deliver target.2 message).2
    simp only [isOpen_deliver] at delivered failed
    simp only [List.foldl_cons, deliverCounted, List.countP_cons]
    refine ⟨delivered.trans ?_, failed.trans ?_, failures⟩ <;>
      cases isOpen : hub.isOpen target.2 <;>
      simp [Hub.deliver, DeliveryReport.count, isOpen] <;> omega

theorem publish_report (hub : Hub) (origin : ConnectionId) (message : Inbound)
    (timestamp : String) :
    (hub.publish origin message timestamp).1 =
        { delivered := (hub.snapshot origin).countP fun target => hub.isOpen target.2
          failed := (hub.snapshot origin).countP fun target => !hub.isOpen target.2 } ∧
      (hub.publish origin message timestamp).2.failures =
        hub.failures + (hub.publish origin message timestamp).1.failed := by
  obtain ⟨delivered, failed, failures⟩ := foldl_deliverCounted_report (message.stamp timestamp)
    (hub.snapshot origin) {} hub
  simp only [Nat.zero_add] at delivered failed
  rw [publish_eq_foldl]
  simp only [failures, and_true]
  rw [← delivered, ← failed]

/-- Taking out an entry that is not there leaves everything in place. -/
theorem others_eq_self {hub : Hub} {id : ConnectionId} (absent : hub.isAttached id = false) :
    Registry.others id hub.registry.entries = hub.registry.entries := by
  refine List.filter_eq_self.mpr ?_
  intro entry member
  apply decide_eq_true
  intro same
  have attached : hub.isAttached id = true :=
    List.any_eq_true.mpr ⟨entry, member, decide_eq_true same⟩
  rw [absent] at attached
  cases attached

theorem detach_eq_self {hub : Hub} {id : ConnectionId} (absent : hub.isAttached id = false) :
    hub.detach id = hub := by
  have kept := others_eq_self absent
  obtain ⟨nextId, ⟨entries, distinct⟩, mailboxes, failures⟩ := hub
  simp only [Hub.detach, Registry.deregister, kept]

/-! ## Hub and books -/

/-- A hub agrees with the books kept from a history. -/
structure Ledger (events : List Event) (hub : Hub) : Prop where
  sound : hub.Sound
  orderly : Orderly [] events
  next : hub.nextId = (issued events).length + 1
  numbers : issued events = List.range' 1 (issued events).length
  registered : hub.registry.entries.map Prod.fst = present events
  allocated : ∀ {id}, id ∈ issued events → (hub.mailboxes.get? id).isSome = true
  abandoned : ∀ id, hub.isAbandoned id = decide (.abandoned id ∈ events)
  failures : hub.failures = ((reports [] events).map DeliveryReport.failed).sum

theorem ledger_empty : Ledger [] {} where
  sound := sound_empty
  orderly := trivial
  next := rfl
  numbers := rfl
  registered := rfl
  allocated member := by cases member
  abandoned _ := rfl
  failures := rfl

section Ledger

variable {events : List Event} {hub next : Hub} {event : Event}

theorem Ledger.mem_issued (ledger : Ledger events hub) {id : ConnectionId} :
    id ∈ issued events ↔ 1 ≤ id ∧ id < hub.nextId := by
  rw [ledger.numbers, ledger.next, List.mem_range'_1, Nat.add_comm 1]

theorem Ledger.isAttached_iff (ledger : Ledger events hub) {id : ConnectionId} :
    hub.isAttached id = true ↔ id ∈ present events := by
  rw [← ledger.registered, isAttached, Registry.contains, List.any_eq_true, List.mem_map]
  simp only [decide_eq_true_eq]

theorem Ledger.present_nodup (ledger : Ledger events hub) : (present events).Nodup :=
  ledger.registered ▸ hub.registry.distinct

theorem Ledger.next_not_mem (ledger : Ledger events hub) :
    hub.nextId ∉ issued events ∧ .detached hub.nextId ∉ events ∧
      .abandoned hub.nextId ∉ events := by
  have isNew : hub.nextId ∉ issued events := fun member =>
    Nat.lt_irrefl _ (ledger.mem_issued.mp member).2
  exact ⟨isNew, fun member => isNew (ledger.orderly.mem_issued member),
    fun member => isNew (ledger.orderly.mem_issued member)⟩

theorem Ledger.publish_report (ledger : Ledger events hub) (origin : ConnectionId)
    (message : Inbound) (timestamp : String) :
    (hub.publish origin message timestamp).1 = expected events origin := by
  have others : (present events).filter (fun id => decide (id ≠ origin)) =
      (hub.snapshot origin).map Prod.fst := by
    rw [← ledger.registered, List.filter_map]
    rfl
  -- a target is registered, so it has a mailbox, whose address is its id
  have isOpen : ∀ target ∈ hub.snapshot origin,
      hub.isOpen target.2 = decide (.abandoned target.1 ∉ events) := by
    intro target member
    have entry := (Registry.mem_snapshotExcept.mp member).2
    have attached : hub.isAttached target.1 = true := Hub.isAttached_iff.mpr ⟨_, entry⟩
    obtain ⟨mailbox, found⟩ := Option.isSome_iff_exists.mp (ledger.sound.mailbox attached)
    have lost := ledger.abandoned target.1
    rw [isAbandoned, found, Option.any_some] at lost
    rw [ledger.sound.address entry, Hub.isOpen, found, Option.any_some, decide_not, ← lost,
      Bool.not_not]
  rw [(Hub.publish_report hub origin message timestamp).1]
  simp only [expected, others, List.countP_map, DeliveryReport.mk.injEq]
  constructor <;> refine List.countP_congr fun target member => ?_ <;> simp [isOpen target member]

theorem Step.registered (step : Step hub event next) (ledger : Ledger events hub) :
    next.registry.entries.map Prod.fst = present (events ++ [event]) := by
  cases step with
  | attach =>
    have absent : hub.isAttached hub.nextId = false := by
      refine Bool.eq_false_iff.mpr fun attached => ledger.next_not_mem.1 ?_
      exact mem_issued_of_mem_present (ledger.isAttached_iff.mp attached)
    have kept := others_eq_self absent
    rw [present_attached ledger.next_not_mem.2.1, ← ledger.registered]
    simp only [Hub.attach, Hub.allocate, Hub.enroll, Registry.register, kept, List.map_append,
      List.map_cons, List.map_nil]
  | publish origin message timestamp =>
    rw [ledger.sound.publish_registry, ledger.registered, present_other rfl (by simp)]
  | detach id =>
    rw [present_detached, ← ledger.registered, List.filter_map]
    rfl
  | dropMailbox | drain => exact ledger.registered.trans (present_other rfl (by simp)).symm
  | poll polled =>
    obtain ⟨_, _, _, _, _, rfl⟩ := eq_of_poll_message polled
    exact ledger.registered.trans (present_other rfl (by simp)).symm

theorem Step.isAbandoned (step : Step hub event next) (sound : hub.Sound)
    (dropped : ∀ {id}, event = .abandoned id → (hub.mailboxes.get? id).isSome = true)
    (id : ConnectionId) :
    next.isAbandoned id = (hub.isAbandoned id || decide (event = .abandoned id)) := by
  cases step with
  | attach =>
    by_cases isNew : id = hub.nextId
    · simp [Hub.isAbandoned, attach_mailbox, isNew, sound.fresh (Nat.le_refl _)]
    · simp [Hub.isAbandoned, attach_mailbox, isNew]
  | publish origin message timestamp =>
    rw [isAbandoned_congr hub]
    · simp
    · rw [sound.publish_mailbox]
      split
      · cases hub.mailboxes.get? id <;> simp
      · rfl
  | detach => simp [Hub.isAbandoned, Hub.detach]
  | dropMailbox other =>
    obtain ⟨mailbox, found⟩ := Option.isSome_iff_exists.mp (dropped rfl)
    by_cases same : id = other
    · simp [Hub.isAbandoned, dropMailbox_mailbox, same, found]
    · simp [Hub.isAbandoned, dropMailbox_mailbox, same, Ne.symm same]
  | @poll _ other _ polled =>
    obtain ⟨mailbox, rest, found, _, held, rfl⟩ := eq_of_poll_message polled
    rw [isAbandoned_congr hub]
    · simp
    · rw [Registry.get?_modify]
      split
      · rename_i same
        simp [same, found, held]
      · rfl
  | drain other =>
    rw [isAbandoned_congr hub]
    · simp
    · rw [drain_mailbox]
      split
      · rw [Option.map_map]
        rfl
      · rfl

theorem Step.failures (step : Step hub event next) (ledger : Ledger events hub) :
    next.failures =
      hub.failures + ((event.report? events).toList.map DeliveryReport.failed).sum := by
  cases step with
  | publish origin message timestamp =>
    rw [(Hub.publish_report hub origin message timestamp).2, ledger.publish_report]
    simp [Event.report?]
  | attach | detach | dropMailbox | drain => rfl
  | poll polled =>
    obtain ⟨_, _, _, _, _, rfl⟩ := eq_of_poll_message polled
    rfl

theorem Step.issued (step : Step hub event next) (sound : hub.Sound) :
    (event.issued? = some hub.nextId ∧ next.nextId = hub.nextId + 1) ∨
      (event.issued? = none ∧ next.nextId = hub.nextId) := by
  cases step with
  | attach => exact .inl ⟨rfl, rfl⟩
  | publish origin message timestamp =>
    exact .inr ⟨rfl, sound.publish_nextId origin message timestamp⟩
  | detach | dropMailbox | drain => exact .inr ⟨rfl, rfl⟩
  | poll polled =>
    obtain ⟨_, _, _, _, _, rfl⟩ := eq_of_poll_message polled
    exact .inr ⟨rfl, rfl⟩

/-- Ids are handed out in order, whatever happens. -/
theorem Run.issued {first last : Hub} {events : List Event} (run : Run first events last)
    (sound : first.Sound) :
    Hub.issued events = List.range' first.nextId (Hub.issued events).length := by
  induction run with
  | nil => rfl
  | @cons first middle last event rest step _ ih =>
    have later := ih (step.sound sound)
    rcases step.issued sound with ⟨isNew, next⟩ | ⟨none, next⟩
    · have split : Hub.issued (event :: rest) = first.nextId :: Hub.issued rest :=
        List.filterMap_cons_some isNew
      rw [split, List.length_cons, List.range'_succ, ← next, ← later]
    · have split : Hub.issued (event :: rest) = Hub.issued rest := List.filterMap_cons_none none
      rw [split, ← next, ← later]

theorem Ledger.step (ledger : Ledger events hub) (step : Step hub event next)
    (allowed : event.Allowed events) : Ledger (events ++ [event]) next := by
  have outlasts := step.outlasts ledger.sound
  have numbers : next.nextId = (Hub.issued (events ++ [event])).length + 1 ∧
      Hub.issued (events ++ [event]) = List.range' 1 (Hub.issued (events ++ [event])).length := by
    rcases step.issued ledger.sound with ⟨isNew, next⟩ | ⟨none, next⟩
    · rw [issued_snoc_of_some isNew, next, ledger.next, List.length_append, List.length_singleton,
        ← List.range'_append_1, ← ledger.numbers, Nat.add_comm 1]
      exact ⟨rfl, rfl⟩
    · rw [issued_snoc_of_none none, next]
      exact ⟨ledger.next, ledger.numbers⟩
  exact {
    sound := step.sound ledger.sound
    orderly := orderly_append.mpr ⟨ledger.orderly, allowed, trivial⟩
    next := numbers.1
    numbers := numbers.2
    registered := step.registered ledger
    allocated := by
      intro id member
      rw [issued_append, List.mem_append] at member
      rcases member with old | isNew
      · exact outlasts.present (ledger.allocated old)
      · rw [Hub.mem_issued, List.mem_singleton] at isNew
        subst isNew
        cases step
        simp [attach_mailbox]
    abandoned := by
      intro id
      rw [step.isAbandoned ledger.sound, ledger.abandoned]
      · simp [List.mem_append, eq_comm]
      · rintro id rfl
        exact ledger.allocated allowed
    failures := by
      rw [step.failures ledger, ledger.failures, reports_append, List.map_append, List.sum_append]
      simp [reports] }

theorem Ledger.run {first last : Hub} {past later : List Event} (ledger : Ledger past first)
    (run : Run first later last) (orderly : Orderly past later) : Ledger (past ++ later) last := by
  induction run generalizing past with
  | nil => simpa using ledger
  | @cons first middle last event rest step _ ih =>
    have whole := ih (ledger.step step orderly.1) orderly.2
    rwa [List.append_assoc, List.singleton_append] at whole

end Ledger

/-! ## Parts of a history -/

/-- Each publish of an orderly history reported what the books expect of what came before. -/
theorem Ledger.published {events earlier later : List Event} {hub : Hub} {origin : ConnectionId}
    {message : Stamped} (ledger : Ledger events hub) (run : Run {} events hub)
    (split : events = earlier ++ .published origin message :: later) :
    ∃ before inbound timestamp, Run {} earlier before ∧ message = inbound.stamp timestamp ∧
      (before.publish origin inbound timestamp).1 = expected earlier origin ∧
      Run (before.publish origin inbound timestamp).2 later hub := by
  subst split
  obtain ⟨before, earlierRun, rest⟩ := run.split
  have earlierLedger : Ledger earlier before := by
    simpa using ledger_empty.run earlierRun (orderly_append.mp ledger.orderly).1
  cases rest with
  | cons step after =>
    cases step with
    | publish _ inbound timestamp =>
      exact ⟨before, inbound, timestamp, earlierRun, rfl,
        earlierLedger.publish_report origin inbound timestamp, after⟩

end ChatHub.Hub

namespace ChatHub.Link

/-- The connection whose peer the pump of a link owns. -/
def connection? : Link → Option ConnectionId
  | .attached connection _ => some connection
  | .detached _ => none

end ChatHub.Link
