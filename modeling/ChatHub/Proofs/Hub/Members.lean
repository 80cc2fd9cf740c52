import ChatHub.Proofs.Hub.Ledger
import ChatHub.Proofs.Roster
import Mathlib.Data.List.Nodup
import Mathlib.Data.Option.Basic
/-!
Attached connections that own their mailboxes, and a hub all of whose connections are such. Main
statements: `Run.isMember`, and `Seats.peerCount`, which counts the connections of a hub by the
places that they have elsewhere.
-/

set_option autoImplicit false

namespace ChatHub.Hub

/-- An attached connection that owns its mailbox. -/
structure IsMember (hub : Hub) (id : ConnectionId) : Prop where
  attached : hub.isAttached id = true
  isOpen : hub.isOpen id = true

section Members

variable {hub next : Hub} {id : ConnectionId}

theorem isSome_of_isOpen (isOpen : hub.isOpen id = true) :
    (hub.mailboxes.get? id).isSome = true := by
  cases found : hub.mailboxes.get? id with
  | none => rw [Hub.isOpen, found] at isOpen; cases isOpen
  | some mailbox => rfl

theorem isMember_attach (hub : Hub) : hub.attach.2.IsMember hub.nextId where
  attached := by rw [isAttached_attach, decide_eq_true rfl, Bool.true_or]
  isOpen := by rw [isOpen, attach_mailbox, if_pos rfl]; rfl

theorem queued_attach (hub : Hub) : hub.attach.2.queued hub.nextId = [] := by
  rw [queued, attach_mailbox, if_pos rfl]
  rfl

theorem lt_nextId_of_isOpen (sound : hub.Sound) (isOpen : hub.isOpen id = true) :
    id < hub.nextId := by
  apply Nat.lt_of_not_le
  intro late
  rw [Hub.isOpen, sound.fresh late] at isOpen
  cases isOpen

theorem IsMember.lt_nextId (member : hub.IsMember id) (sound : hub.Sound) : id < hub.nextId :=
  lt_nextId_of_isOpen sound member.isOpen

/-- Only by being given up does a mailbox lose its owner. -/
theorem Step.isOpen {event : Event} (step : Step hub event next) (sound : hub.Sound)
    (stays : event ≠ .abandoned id) (isOpen : hub.isOpen id = true) : next.isOpen id = true := by
  by_cases its : event.subject = id
  · have present := isSome_of_isOpen isOpen
    have kept := isAbandoned_eq_false_of_isOpen isOpen
    apply isOpen_of_not_isAbandoned ((step.outlasts sound).present present)
    rw [step.isAbandoned sound, kept, Bool.false_or, decide_eq_false stays]
    rintro other rfl
    exact absurd (congrArg Event.abandoned its) stays
  · rw [(step.overhears sound its).isOpen]
    exact isOpen

theorem Run.isOpen {first last : Hub} {events : List Event} (run : Run first events last)
    (sound : first.Sound) (stays : .abandoned id ∉ events) (isOpen : first.isOpen id = true) :
    last.isOpen id = true := by
  induction run with
  | nil => exact isOpen
  | cons step _ ih =>
    have apart := not_or.mp (mt List.mem_cons.mpr stays)
    exact ih (step.sound sound) apart.2 (step.isOpen sound (Ne.symm apart.1) isOpen)

/-- Only by leaving or by giving up its mailbox does a connection stop being a member. -/
theorem Step.isMember {event : Event} (step : Step hub event next) (sound : hub.Sound)
    (stays : event ≠ .detached id ∧ event ≠ .abandoned id) (member : hub.IsMember id) :
    next.IsMember id where
  attached := by
    rw [step.isAttached sound]
    cases event with
    | detached other =>
      have different : other ≠ id := fun same => stays.1 (congrArg Event.detached same)
      simp [Event.attaches, member.attached, different]
    | attached _ | published _ _ | abandoned _ | took _ _ =>
      simp [Event.attaches, member.attached]
  isOpen := step.isOpen sound stays.2 member.isOpen

theorem Run.isMember {first last : Hub} {events : List Event} (run : Run first events last)
    (sound : first.Sound) (stays : ∀ event ∈ events, event ≠ .detached id ∧ event ≠ .abandoned id)
    (member : first.IsMember id) : last.IsMember id := by
  induction run with
  | nil => exact member
  | cons step _ ih =>
    apply ih (step.sound sound) fun event later => stays event (List.mem_cons_of_mem _ later)
    exact step.isMember sound (stays _ List.mem_cons_self) member

/-- A member gets everything that it overhears. -/
theorem Overhears.isMember {messages : List Stamped} (overhears : Overhears id messages hub next)
    (member : hub.IsMember id) :
    next.IsMember id ∧ next.queued id = hub.queued id ++ messages := by
  refine ⟨⟨?_, ?_⟩, ?_⟩
  · rw [overhears.isAttached]
    exact member.attached
  · rw [overhears.isOpen]
    exact member.isOpen
  · rw [overhears.queued, member.attached, member.isOpen, Bool.true_and, if_pos rfl]

theorem Sound.publish_own (sound : hub.Sound) (member : hub.IsMember id) (message : Inbound)
    (timestamp : String) :
    (hub.publish id message timestamp).2.IsMember id ∧
      (hub.publish id message timestamp).2.queued id = hub.queued id := by
  have same := sound.publish_mailbox id message timestamp id
  rw [if_neg fun both => both.2 rfl] at same
  refine ⟨⟨?_, ?_⟩, ?_⟩
  · rw [sound.isAttached_publish]
    exact member.attached
  · rw [isOpen, same]
    exact member.isOpen
  · rw [queued, same, queued]

/-- A member is never told that its hub is gone. -/
theorem IsMember.poll_cases (member : hub.IsMember id) (sound : hub.Sound) :
    (∃ message next, hub.poll id = (some (.message message), next)) ∨
      hub.queued id = [] ∧ hub.poll id = (none, hub) := by
  rcases hub.poll_cases id with ⟨message, _, _, _, _, _, polled⟩ | ⟨empty, polled⟩
  · exact .inl ⟨message, _, polled⟩
  · refine .inr ⟨empty, ?_⟩
    have present := sound.mailbox member.attached
    rw [polled, member.attached, Option.isNone_eq_false_iff.mpr present]
    rfl

theorem queued_of_poll {message : Stamped} (polled : hub.poll id = (some (.message message), next))
    (other : ConnectionId) :
    hub.queued other = (if other = id then [message] else []) ++ next.queued other := by
  obtain ⟨mailbox, rest, found, front, _, rfl⟩ := eq_of_poll_message polled
  simp only [queued, Registry.get?_modify]
  by_cases same : other = id
  · subst same
    simp [found, front]
  · simp [same]

end Members

/-! ## Places -/

/-- Each connection of a hub has one place, and each place at most one connection. -/
structure Seats (hub : Hub) (ends : Nat → Option ConnectionId) : Prop where
  member : ∀ {key id}, ends key = some id → hub.IsMember id
  apart : ∀ {key other id}, ends key = some id → ends other = some id → key = other
  only : ∀ {id}, hub.isAttached id = true → ∃ key, ends key = some id

private theorem isAttached_iff_mem {hub : Hub} {id : ConnectionId} :
    hub.isAttached id = true ↔ id ∈ hub.registry.entries.map Prod.fst := by
  rw [isAttached, Registry.contains, List.any_eq_true, List.mem_map]
  simp only [decide_eq_true_eq]

/-- As many are attached as there are places taken. -/
theorem Seats.peerCount {α : Type} {hub : Hub} {ends : Nat → Option ConnectionId}
    (seats : hub.Seats ends) {roster : Roster Nat α} (distinct : roster.Distinct)
    (same : ∀ key, (roster.get? key).isSome = (ends key).isSome) :
    hub.peerCount = roster.entries.length := by
  have taken : ∀ key ∈ roster.entries.map Prod.fst, ∃ id, ends key = some id := by
    intro key member
    exact Option.isSome_iff_exists.mp ((same key).symm.trans (Roster.isSome_get?_iff.mpr member))
  have perm : ((roster.entries.map Prod.fst).map ends).Perm
      ((hub.registry.entries.map Prod.fst).map some) := by
    rw [List.perm_ext_iff_of_nodup]
    · intro holder?
      constructor
      · intro member
        obtain ⟨key, named, rfl⟩ := List.mem_map.mp member
        obtain ⟨id, its⟩ := taken key named
        rw [its]
        exact List.mem_map_of_mem (isAttached_iff_mem.mp (seats.member its).attached)
      · intro member
        obtain ⟨id, registered, rfl⟩ := List.mem_map.mp member
        obtain ⟨key, its⟩ := seats.only (isAttached_iff_mem.mpr registered)
        refine List.mem_map.mpr ⟨key, Roster.isSome_get?_iff.mp ?_, its⟩
        rw [same, its]
        rfl
    · apply List.Nodup.map_on _ distinct
      intro key named other _ equal
      obtain ⟨id, its⟩ := taken key named
      exact seats.apart its (equal ▸ its)
    · exact hub.registry.distinct.map (Option.some_injective _)
  have sizes := perm.length_eq
  simp only [List.length_map] at sizes
  exact sizes.symm

end ChatHub.Hub
