import ChatHub.Proofs.Hub.Operations
import ChatHub.Proofs.Trace
/-!
The history of a hub: what happened to it, in order, whoever did it. `heard` says from a history
alone what a connection should receive. Main statement: `Run.taken_append_queued`, for every
history and every mailbox that has not lost its owner.
-/

set_option autoImplicit false

namespace ChatHub.Hub

inductive Event where
  | attached (id : ConnectionId)
  | published (origin : ConnectionId) (message : Stamped)
  | detached (id : ConnectionId)
  /-- A mailbox lost its owner. -/
  | abandoned (id : ConnectionId)
  /-- The owner of a mailbox took messages out of it. -/
  | took (id : ConnectionId) (messages : List Stamped)
  deriving DecidableEq, Repr

/-- The operations of a hub, each with the event that it is. -/
inductive Step : Hub → Event → Hub → Prop where
  | attach (hub : Hub) : Step hub (.attached hub.nextId) hub.attach.2
  | publish (hub : Hub) (origin : ConnectionId) (message : Inbound) (timestamp : String) :
      Step hub (.published origin (message.stamp timestamp))
        (hub.publish origin message timestamp).2
  | detach (hub : Hub) (id : ConnectionId) : Step hub (.detached id) (hub.detach id)
  | dropMailbox (hub : Hub) (id : ConnectionId) : Step hub (.abandoned id) (hub.dropMailbox id)
  | poll {hub next : Hub} {id : ConnectionId} {message : Stamped} :
      hub.poll id = (some (.message message), next) → Step hub (.took id [message]) next
  | drain (hub : Hub) (id : ConnectionId) : Step hub (.took id (hub.drain id).1) (hub.drain id).2

/-- Any number of operations in any order, with their history. -/
abbrev Run : Hub → List Event → Hub → Prop :=
  Trace Step

theorem Step.run {hub next : Hub} {event : Event} (step : Step hub event next) :
    Run hub [event] next :=
  .cons step .nil

/-! ## What a history says about one connection -/

/-- Whether a connection is attached behind an event, given whether it was before. -/
def Event.attaches (id : ConnectionId) (attached : Bool) : Event → Bool
  | .attached other => attached || decide (other = id)
  | .detached other => attached && decide (other ≠ id)
  | _ => attached

/-- What a connection hears of an event: a message that another origin publishes while it is
attached. -/
def Event.heardBy (id : ConnectionId) (attached : Bool) : Event → List Stamped
  | .published origin message => if attached = true ∧ origin ≠ id then [message] else []
  | _ => []

/-- The messages that an event took out of a mailbox. -/
def Event.takenFrom (id : ConnectionId) : Event → List Stamped
  | .took other messages => if other = id then messages else []
  | _ => []

/-- What a connection hears of a history, oldest first. -/
def heard (id : ConnectionId) : Bool → List Event → List Stamped
  | _, [] => []
  | attached, event :: rest =>
    event.heardBy id attached ++ heard id (event.attaches id attached) rest

/-- The messages taken out of a mailbox in the course of a history, oldest first. -/
def taken (id : ConnectionId) (events : List Event) : List Stamped :=
  events.flatMap (Event.takenFrom id)

@[simp] theorem taken_append (id : ConnectionId) (earlier later : List Event) :
    taken id (earlier ++ later) = taken id earlier ++ taken id later :=
  List.flatMap_append

/-- Whatever a connection hears was published by another. -/
theorem published_of_mem_heard {id : ConnectionId} {attached : Bool} {events : List Event}
    {message : Stamped} (member : message ∈ heard id attached events) :
    ∃ origin, origin ≠ id ∧ .published origin message ∈ events := by
  induction events generalizing attached with
  | nil => simp [heard] at member
  | cons event rest ih =>
    rcases List.mem_append.mp member with now | later
    · cases event with
      | published origin sent =>
        simp only [Event.heardBy] at now
        split at now
        · rename_i heardNow
          rw [List.mem_singleton] at now
          exact ⟨origin, heardNow.2, now ▸ List.mem_cons_self⟩
        · simp at now
      | _ => simp [Event.heardBy] at now
    · obtain ⟨origin, foreign, published⟩ := ih later
      exact ⟨origin, foreign, List.mem_cons_of_mem event published⟩

/-- A history in which no other connection publishes is silent. -/
theorem heard_eq_nil {id : ConnectionId} {events : List Event}
    (silent : ∀ origin message, origin ≠ id → .published origin message ∉ events)
    (attached : Bool) : heard id attached events = [] := by
  refine List.eq_nil_iff_forall_not_mem.mpr fun message member => ?_
  obtain ⟨origin, foreign, published⟩ := published_of_mem_heard member
  exact silent origin message foreign published

/-! ## One event -/

section Step

variable {hub next : Hub} {event : Event} {id : ConnectionId}

theorem Step.sound (step : Step hub event next) (sound : hub.Sound) : next.Sound := by
  cases step with
  | attach => exact sound.attach
  | publish origin message timestamp => exact sound.publish origin message timestamp
  | detach id => exact sound.detach id
  | dropMailbox id => exact sound.dropMailbox id
  | @poll _ other _ polled =>
    obtain ⟨_, rest, _, _, _, rfl⟩ := eq_of_poll_message polled
    exact sound.modify other fun _ => rest
  | drain id => exact sound.modify id fun mailbox => mailbox.drain.2

theorem Step.isAttached (step : Step hub event next) (sound : hub.Sound) (id : ConnectionId) :
    next.isAttached id = event.attaches id (hub.isAttached id) := by
  cases step with
  | attach =>
    rw [isAttached_attach, Bool.or_comm]
    simp only [Event.attaches, eq_comm]
  | publish origin message timestamp => exact sound.isAttached_publish origin message timestamp id
  | detach other =>
    rw [isAttached_detach, Bool.and_comm]
    simp only [Event.attaches, ne_eq, decide_not, eq_comm]
  | dropMailbox => rfl
  | poll polled =>
    obtain ⟨_, _, _, _, _, rfl⟩ := eq_of_poll_message polled
    rfl
  | drain => rfl

theorem Step.outlasts (step : Step hub event next) (sound : hub.Sound) : next.Outlasts hub := by
  cases step with
  | attach =>
    have enrolled : hub.attach.2.Outlasts hub.allocate.2 := .of_mailboxes_eq rfl
    exact enrolled.trans sound.allocate_outlasts
  | publish origin message timestamp => exact sound.publish_outlasts origin message timestamp
  | detach => exact .of_mailboxes_eq rfl
  | dropMailbox other => exact dropMailbox_outlasts hub other
  | @poll _ other _ polled =>
    obtain ⟨mailbox, rest, found, _, held, rfl⟩ := eq_of_poll_message polled
    refine outlasts_modify hub other fun mailbox' found' unowned => ?_
    rw [found] at found'
    cases found'
    exact held.trans unowned
  | drain other => exact outlasts_modify hub other fun _ _ unowned => unowned

/-- One event moves messages from the queue to the owner or adds one behind all others, as the
history says. -/
theorem Step.taken_append_queued (step : Step hub event next) (sound : hub.Sound)
    (kept : next.isAbandoned id = false) :
    event.takenFrom id ++ next.queued id =
      hub.queued id ++ event.heardBy id (hub.isAttached id) := by
  cases step with
  | attach =>
    simp only [Event.takenFrom, Event.heardBy, queued, attach_mailbox, List.nil_append,
      List.append_nil]
    split
    · rename_i same
      simp [same, sound.fresh (Nat.le_refl _)]
    · rfl
  | publish origin message timestamp =>
    simp only [Event.takenFrom, Event.heardBy, queued, List.nil_append]
    rw [sound.publish_mailbox]
    by_cases hears : hub.isAttached id = true ∧ origin ≠ id
    · rw [if_pos ⟨hears.1, hears.2.symm⟩, if_pos hears]
      obtain ⟨mailbox, found⟩ := Option.isSome_iff_exists.mp (sound.mailbox hears.1)
      have outlasts := sound.publish_outlasts origin message timestamp
      have held := held_of_not_isAbandoned found (outlasts.kept kept)
      simp [found, Mailbox.messages_deliver held]
    · rw [if_neg fun both => hears ⟨both.1, both.2.symm⟩, if_neg hears, List.append_nil]
  | detach => simp only [Event.takenFrom, Event.heardBy, List.nil_append, List.append_nil]; rfl
  | dropMailbox other =>
    simp only [Event.takenFrom, Event.heardBy, queued_dropMailbox, List.nil_append,
      List.append_nil]
    by_cases same : id = other
    · subst same
      rw [if_pos rfl, queued_eq_nil_of_dropped kept]
    · rw [if_neg same]
  | @poll _ other _ polled =>
    obtain ⟨mailbox, rest, found, front, _, rfl⟩ := eq_of_poll_message polled
    simp only [Event.takenFrom, Event.heardBy, queued, Registry.get?_modify, List.append_nil]
    by_cases isOther : id = other
    · simp [isOther, found, front]
    · simp [isOther, Ne.symm isOther]
  | drain other =>
    simp only [Event.takenFrom, Event.heardBy, queued, drain_mailbox, List.append_nil]
    by_cases isOther : id = other
    · subst isOther
      rw [if_pos rfl, if_pos rfl]
      cases found : hub.mailboxes.get? id with
      | none => simp [Hub.drain, queued, found]
      | some mailbox => simp [Hub.drain, queued, found, Mailbox.drain, Mailbox.messages]
    · simp [isOther, Ne.symm isOther]

end Step

/-! ## A whole history -/

theorem Run.sound {first last : Hub} {events : List Event} (run : Run first events last)
    (sound : first.Sound) : last.Sound := by
  induction run with
  | nil => exact sound
  | cons step _ ih => exact ih (step.sound sound)

theorem Run.outlasts {first last : Hub} {events : List Event} (run : Run first events last)
    (sound : first.Sound) : last.Outlasts first := by
  induction run with
  | nil => exact .of_mailboxes_eq rfl
  | cons step _ ih => exact (ih (step.sound sound)).trans (step.outlasts sound)

/-- What was taken out of a mailbox followed by what is still in it is what was in it at first
followed by what its connection heard since. -/
theorem Run.taken_append_queued {first last : Hub} {events : List Event} {id : ConnectionId}
    (run : Run first events last) (sound : first.Sound) (kept : last.isAbandoned id = false) :
    taken id events ++ last.queued id =
      first.queued id ++ heard id (first.isAttached id) events := by
  induction run with
  | nil => simp [taken, heard]
  | @cons first middle last event events step run ih =>
    have middleKept := (Run.outlasts run (step.sound sound)).kept kept
    have attached := step.isAttached sound id
    have now := step.taken_append_queued sound middleKept
    have later := ih (step.sound sound) kept
    calc taken id (event :: events) ++ last.queued id
        = event.takenFrom id ++ (taken id events ++ last.queued id) := by
          simp [taken, List.append_assoc]
      _ = (event.takenFrom id ++ middle.queued id) ++ heard id (middle.isAttached id) events := by
          rw [later, List.append_assoc]
      _ = first.queued id ++ heard id (first.isAttached id) (event :: events) := by
          rw [now, attached, heard, List.append_assoc]

/-! ## Bystanders -/

def Event.subject : Event → ConnectionId
  | .attached id | .published id _ | .detached id | .abandoned id | .took id _ => id

def Event.message? : Event → Option Stamped
  | .published _ message => some message
  | _ => none

/-- All that a connection notices between two states of a hub are some messages, and these only if
it is attached and its mailbox has an owner. -/
structure Overhears (id : ConnectionId) (messages : List Stamped) (hub next : Hub) : Prop where
  isAttached : next.isAttached id = hub.isAttached id
  isOpen : next.isOpen id = hub.isOpen id
  queued : next.queued id =
    hub.queued id ++ if hub.isAttached id && hub.isOpen id then messages else []

section Overhears

variable {hub next : Hub} {id : ConnectionId}

theorem Overhears.of_mailbox_eq (attached : next.isAttached id = hub.isAttached id)
    (same : next.mailboxes.get? id = hub.mailboxes.get? id) : Overhears id [] hub next where
  isAttached := attached
  isOpen := by rw [Hub.isOpen, same, Hub.isOpen]
  queued := by rw [Hub.queued, same, ite_self, List.append_nil, Hub.queued]

theorem Overhears.trans {last : Hub} {earlier later : List Stamped}
    (first : Overhears id earlier hub next) (second : Overhears id later next last) :
    Overhears id (earlier ++ later) hub last where
  isAttached := second.isAttached.trans first.isAttached
  isOpen := second.isOpen.trans first.isOpen
  queued := by
    rw [second.queued, first.queued, first.isAttached, first.isOpen]
    split
    · exact List.append_assoc ..
    · rw [List.append_nil]

theorem Sound.publish_overhears (sound : hub.Sound) {origin : ConnectionId} (message : Inbound)
    (timestamp : String) (other : origin ≠ id) :
    Overhears id [message.stamp timestamp] hub (hub.publish origin message timestamp).2 := by
  have mailbox := sound.publish_mailbox origin message timestamp id
  refine
    { isAttached := sound.isAttached_publish origin message timestamp id
      isOpen := ?_
      queued := ?_ }
  · rw [isOpen, mailbox, isOpen]
    split
    · cases hub.mailboxes.get? id with
      | none => rfl
      | some held => simp
    · rfl
  · rw [queued, mailbox, queued, isOpen]
    by_cases attached : hub.isAttached id = true
    · rw [if_pos ⟨attached, other.symm⟩, attached, Bool.true_and]
      cases hub.mailboxes.get? id with
      | none => rfl
      | some mailbox =>
        cases owned : mailbox.held with
        | true => simp [owned, Mailbox.messages_deliver owned]
        | false => simp [owned, Mailbox.deliver]
    · rw [if_neg fun both => attached both.1, Bool.eq_false_iff.mpr attached]
      exact (List.append_nil _).symm

theorem Step.overhears {event : Event} (step : Step hub event next) (sound : hub.Sound)
    (other : event.subject ≠ id) : Overhears id event.message?.toList hub next := by
  have attached : next.isAttached id = hub.isAttached id := by
    rw [step.isAttached sound]
    cases event with
    | attached | detached =>
      rw [Event.subject] at other
      simp [Event.attaches, other]
    | published _ _ | abandoned _ | took _ _ => rfl
  have foreign := other.symm
  cases step with
  | attach => exact .of_mailbox_eq attached ((attach_mailbox hub id).trans (if_neg foreign))
  | publish origin message timestamp => exact sound.publish_overhears message timestamp other
  | detach => exact .of_mailbox_eq attached rfl
  | dropMailbox dropped =>
    exact .of_mailbox_eq attached ((dropMailbox_mailbox hub dropped id).trans (if_neg foreign))
  | poll polled =>
    obtain ⟨_, _, _, _, _, rfl⟩ := eq_of_poll_message polled
    exact .of_mailbox_eq attached ((Registry.get?_modify ..).trans (if_neg foreign))
  | drain drained =>
    exact .of_mailbox_eq attached ((drain_mailbox hub drained id).trans (if_neg foreign))

/-- Whatever one connection does, the others only get to know what it publishes. -/
theorem Run.overhears {first last : Hub} {events : List Event} (run : Run first events last)
    (sound : first.Sound) (others : ∀ event ∈ events, event.subject ≠ id) :
    Overhears id (events.filterMap Event.message?) first last := by
  induction run with
  | nil => exact .of_mailbox_eq rfl rfl
  | @cons first middle last event events step _ ih =>
    have now := step.overhears sound (others event List.mem_cons_self)
    have later := ih (step.sound sound) fun event member =>
      others event (List.mem_cons_of_mem _ member)
    have both := now.trans later
    cases seen : event.message? with
    | none =>
      rw [seen, Option.toList_none, List.nil_append] at both
      rwa [List.filterMap_cons_none seen]
    | some message =>
      rw [seen, Option.toList_some, List.singleton_append] at both
      rwa [List.filterMap_cons_some seen]

end Overhears

/-! ## Numbers -/

theorem Step.nextId_le {hub next : Hub} {event : Event} (step : Step hub event next)
    (sound : hub.Sound) : hub.nextId ≤ next.nextId := by
  cases step with
  | attach => exact Nat.le_succ _
  | publish origin message timestamp =>
    exact Nat.le_of_eq (sound.publish_nextId origin message timestamp).symm
  | detach | dropMailbox | drain => exact Nat.le_refl _
  | poll polled =>
    obtain ⟨_, _, _, _, _, rfl⟩ := eq_of_poll_message polled
    exact Nat.le_refl _

theorem Run.nextId_le {first last : Hub} {events : List Event} (run : Run first events last)
    (sound : first.Sound) : first.nextId ≤ last.nextId := by
  induction run with
  | nil => exact Nat.le_refl _
  | cons step _ ih => exact Nat.le_trans (step.nextId_le sound) (ih (step.sound sound))

theorem Run.lt_nextId {first last : Hub} {events : List Event} {id : ConnectionId}
    (run : Run first events last) (sound : first.Sound) (attached : .attached id ∈ events) :
    id < last.nextId := by
  induction run with
  | nil => cases attached
  | cons step later ih =>
    rcases List.mem_cons.mp attached with rfl | after
    · cases step
      exact Run.nextId_le later sound.attach
    · exact ih (step.sound sound) after

/-- A connection that was detached is never attached again. -/
theorem Run.isAttached_of_gone {first last : Hub} {events : List Event}
    (run : Run first events last) (sound : first.Sound) {id : ConnectionId}
    (old : id < first.nextId) (gone : first.isAttached id = false) :
    last.isAttached id = false := by
  induction run with
  | nil => exact gone
  | @cons first middle last event events step later ih =>
    refine ih (step.sound sound) (Nat.lt_of_lt_of_le old (step.nextId_le sound)) ?_
    rw [step.isAttached sound, gone]
    cases step with
    | attach => simp [Event.attaches, Nat.ne_of_gt old]
    | _ => rfl

theorem Run.heard_of_gone {first last : Hub} {events : List Event} (run : Run first events last)
    (sound : first.Sound) {id : ConnectionId} (old : id < first.nextId) :
    heard id false events = [] := by
  induction run with
  | nil => rfl
  | @cons first middle last event events step later ih =>
    have rest := ih (step.sound sound) (Nat.lt_of_lt_of_le old (step.nextId_le sound))
    cases step with
    | attach => simpa [heard, Event.heardBy, Event.attaches, Nat.ne_of_gt old] using rest
    | _ => simpa [heard, Event.heardBy, Event.attaches] using rest

end ChatHub.Hub
