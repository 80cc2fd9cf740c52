import ChatHub.Hub.Interleaved
import ChatHub.Proofs.Hub.Operations
/-!
Publishes that interleave with each other and with attaching and dropping peers. One invariant ties
the snapshots under way to what has arrived in each mailbox. Main statement:
`interleaved_publishes`, for every state that any interleaving reaches.
-/

set_option autoImplicit false

namespace ChatHub.Interleaved

open Hub (Sound Outlasts)

/-! ## Records -/

section Records

variable {α : Type} {lists : ConnectionId → List α} {id other : ConnectionId} {item : α}

@[simp] theorem extend_self : extend lists id item id = lists id ++ [item] := by
  simp [extend]

theorem extend_of_ne (different : other ≠ id) : extend lists id item other = lists other := by
  simp [extend, different]

private theorem mem_extend_of_mem {member : α} (old : member ∈ lists other) :
    member ∈ extend lists id item other := by
  by_cases same : other = id
  · subst same
    rw [extend_self]
    exact List.mem_append_left _ old
  · rwa [extend_of_ne same]

private theorem mem_extend {member : α} (present : member ∈ extend lists id item other) :
    member ∈ lists other ∨ (other = id ∧ member = item) := by
  by_cases same : other = id
  · subst same
    rw [extend_self, List.mem_append, List.mem_singleton] at present
    exact present.imp_right fun last => ⟨rfl, last⟩
  · rw [extend_of_ne same] at present
    exact .inl present

/-- Whether or not an item was added, everything else is as it was. -/
theorem mem_of_mem_extend_if {accepted : Bool} {member : α}
    (present : member ∈ (if accepted then extend lists id item else lists) other) :
    member ∈ lists other ∨ (other = id ∧ member = item) := by
  cases accepted with
  | true => exact mem_extend present
  | false => exact .inl present

private theorem mem_extend_if_of_mem {accepted : Bool} {member : α} (old : member ∈ lists other) :
    member ∈ (if accepted then extend lists id item else lists) other := by
  cases accepted with
  | true => exact mem_extend_of_mem old
  | false => exact old

theorem extend_if_of_not {accepted : Bool} (notNew : ¬(other = id ∧ accepted = true)) :
    (if accepted then extend lists id item else lists) other = lists other := by
  cases accepted with
  | true => exact extend_of_ne fun same => notNew ⟨same, rfl⟩
  | false => rfl

/-- With names that are all different, no other entry has the name of the one taken out. -/
theorem not_mem_map_erase {target : ConnectionId × ConnectionId}
    {targets : List (ConnectionId × ConnectionId)} (distinct : (targets.map Prod.snd).Nodup)
    (member : target ∈ targets) : target.2 ∉ (targets.erase target).map Prod.snd := by
  induction targets with
  | nil => cases member
  | cons first rest ih =>
    rw [List.map_cons, List.nodup_cons] at distinct
    by_cases same : first = target
    · subst same
      rw [List.erase_cons_head]
      exact distinct.1
    · have later : target ∈ rest := (List.mem_cons.mp member).resolve_left (Ne.symm same)
      have tailDiffers : ¬(first == target) = true := by simpa using same
      rw [List.erase_cons_tail tailDiffers, List.map_cons, List.mem_cons]
      rintro (name | inRest)
      · exact distinct.1 (name ▸ List.mem_map_of_mem later)
      · exact ih distinct.2 later inRest

private theorem mem_map_erase {target : ConnectionId × ConnectionId} {name : ConnectionId}
    {targets : List (ConnectionId × ConnectionId)} (different : name ≠ target.2)
    (member : name ∈ targets.map Prod.snd) : name ∈ (targets.erase target).map Prod.snd := by
  obtain ⟨entry, present, rfl⟩ := List.mem_map.mp member
  have other : entry ≠ target := fun same => different (congrArg Prod.snd same)
  exact List.mem_map_of_mem ((List.mem_erase_of_ne other).mpr present)

theorem getElem?_of_append {items : List α} {index : Nat} {added found : α}
    (present : (items ++ [added])[index]? = some found) :
    items[index]? = some found ∨ (index = items.length ∧ found = added) := by
  rcases Nat.lt_or_ge index items.length with inside | outside
  · rw [List.getElem?_append_left inside] at present
    exact .inl present
  · have bound := (List.getElem?_eq_some_iff.mp present).1
    rw [List.length_append, List.length_singleton] at bound
    have last : index = items.length := by omega
    subst last
    rw [List.getElem?_concat_length] at present
    exact .inr ⟨rfl, (Option.some.inj present).symm⟩

theorem getElem?_append {items : List α} {index : Nat} {added found : α}
    (present : items[index]? = some found) : (items ++ [added])[index]? = some found := by
  rwa [List.getElem?_append_left (List.getElem?_eq_some_iff.mp present).1]

theorem State.isFrom_iff {state : State} {origin : ConnectionId} {number : Nat} :
    state.isFrom origin number = true ↔
      ∃ publication, state.publications[number]? = some publication ∧
        publication.origin = origin := by
  simp [State.isFrom, Option.any_eq_true]

end Records

/-! ## The invariant -/

/-- What holds of a publish under way: it is the latest of its connection, its targets were
registered when it began, and no target that still waits for a delivery has the message. -/
structure UnderWay (state : State) (origin : ConnectionId) (flight : Flight) : Prop where
  recorded : ∃ publication, state.publications[flight.number]? = some publication ∧
    publication.origin = origin ∧ publication.message = flight.message ∧
      ∀ target ∈ flight.targets,
        target.2 ≠ origin ∧ publication.registry.contains target.2 = true
  latest : ∀ {number : Nat}, state.isFrom origin number = true → number ≤ flight.number
  distinct : (flight.targets.map Prod.snd).Nodup
  pending : ∀ target ∈ flight.targets, flight.number ∉ state.arrivals target.2

/-- What every interleaving keeps. A message that was due to a mailbox has arrived or is still to
be delivered, and what arrived is what was taken, what is queued, and what was lost with its
owner. -/
structure Consistent (state : State) : Prop where
  sound : state.hub.Sound
  attaching : ∀ {id : ConnectionId}, id ∈ state.attaching →
    (state.hub.mailboxes.get? id).isSome = true
  snapshots : ∀ {number : Nat} {publication : Publication} {id : ConnectionId},
    state.publications[number]? = some publication → publication.registry.contains id = true →
      (state.hub.mailboxes.get? id).isSome = true
  underWay : ∀ {origin : ConnectionId} {flight : Flight},
    state.flights.get? origin = some flight → UnderWay state origin flight
  arrived : ∀ {id : ConnectionId} {number : Nat}, number ∈ state.arrivals id →
    ∃ publication, state.publications[number]? = some publication ∧ publication.origin ≠ id ∧
      publication.registry.contains id = true
  ordered : ∀ id : ConnectionId, (state.arrivals id).Pairwise fun earlier later =>
    ∀ origin, state.isFrom origin earlier = true → state.isFrom origin later = true →
      earlier < later
  delivered : ∀ {number : Nat} {publication : Publication} {id : ConnectionId},
    state.publications[number]? = some publication → publication.registry.contains id = true →
      id ≠ publication.origin → state.hub.isAbandoned id = false →
        number ∈ state.arrivals id ∨
          ∃ flight, state.flights.get? publication.origin = some flight ∧
            flight.number = number ∧ id ∈ flight.targets.map Prod.snd
  contents : ∀ id : ConnectionId, ∃ lost,
    (state.taken id ++ state.hub.queued id ++ lost).map some =
        (state.arrivals id).map state.sent? ∧
      (state.hub.isAbandoned id = false → lost = [])

private theorem consistent_initial : Consistent {} where
  sound := Hub.sound_empty
  attaching member := by cases member
  snapshots present := by simp at present
  underWay found := by simp at found
  arrived member := by cases member
  ordered _ := .nil
  delivered present := by simp at present
  contents _ := ⟨[], rfl, fun _ => rfl⟩

section Steps

variable {state : State}

/-- Steps that only touch the hub's own state: nothing arrives and no publish begins, goes on or
ends. -/
theorem Consistent.frame (consistent : Consistent state) {hub : Hub} (sound : hub.Sound)
    (outlasts : hub.Outlasts state.hub) {attaching : List ConnectionId}
    (present : ∀ {id : ConnectionId}, id ∈ attaching → (hub.mailboxes.get? id).isSome = true)
    {taken : ConnectionId → List Stamped}
    (contents : ∀ id : ConnectionId, ∃ lost,
      (taken id ++ hub.queued id ++ lost).map some = (state.arrivals id).map state.sent? ∧
        (hub.isAbandoned id = false → lost = [])) :
    Consistent { state with hub, attaching, taken } where
  sound := sound
  attaching := present
  snapshots recorded registered := outlasts.present (consistent.snapshots recorded registered)
  underWay found :=
    have before := consistent.underWay found
    ⟨before.recorded, before.latest, before.distinct, before.pending⟩
  arrived := consistent.arrived
  ordered := consistent.ordered
  delivered recorded registered foreign kept :=
    consistent.delivered recorded registered foreign (outlasts.kept kept)
  contents := contents

/-- The contents of mailboxes whose queues stay as they are. -/
theorem Consistent.contents_of_queued_eq (consistent : Consistent state) {hub : Hub}
    (outlasts : hub.Outlasts state.hub) (same : ∀ id, hub.queued id = state.hub.queued id)
    (id : ConnectionId) : ∃ lost,
      (state.taken id ++ hub.queued id ++ lost).map some =
          (state.arrivals id).map state.sent? ∧
        (hub.isAbandoned id = false → lost = []) := by
  obtain ⟨lost, all, none⟩ := consistent.contents id
  exact ⟨lost, by rw [same]; exact all, fun kept => none (outlasts.kept kept)⟩

theorem Consistent.allocate (consistent : Consistent state) :
    Consistent { state with
      hub := state.hub.allocate.2
      attaching := state.attaching ++ [state.hub.nextId] } := by
  have outlasts := consistent.sound.allocate_outlasts
  refine consistent.frame consistent.sound.allocate outlasts ?_
    (consistent.contents_of_queued_eq outlasts fun id => ?_)
  · intro id member
    rcases List.mem_append.mp member with old | new
    · exact outlasts.present (consistent.attaching old)
    · rw [List.mem_singleton.mp new, Hub.allocate_mailbox, if_pos rfl]
      rfl
  · unfold Hub.queued
    rw [Hub.allocate_mailbox]
    split
    · rename_i same
      rw [same, consistent.sound.fresh (Nat.le_refl _)]
      rfl
    · rfl

theorem Consistent.enroll (consistent : Consistent state) {id : ConnectionId}
    (isAttaching : id ∈ state.attaching) :
    Consistent { state with
      hub := state.hub.enroll id
      attaching := state.attaching.erase id } := by
  have outlasts : (state.hub.enroll id).Outlasts state.hub := .of_mailboxes_eq rfl
  exact consistent.frame (consistent.sound.enroll (consistent.attaching isAttaching)) outlasts
    (fun member => consistent.attaching (List.mem_of_mem_erase member))
    (consistent.contents_of_queued_eq outlasts fun _ => rfl)

theorem Consistent.detach (consistent : Consistent state) (id : ConnectionId) :
    Consistent { state with hub := state.hub.detach id } := by
  have outlasts : (state.hub.detach id).Outlasts state.hub := .of_mailboxes_eq rfl
  exact consistent.frame (consistent.sound.detach id) outlasts consistent.attaching
    (consistent.contents_of_queued_eq outlasts fun _ => rfl)

/-- What is queued in a mailbox is lost with its owner. -/
theorem Consistent.dropMailbox (consistent : Consistent state) (id : ConnectionId) :
    Consistent { state with hub := state.hub.dropMailbox id } := by
  have outlasts := state.hub.dropMailbox_outlasts id
  refine consistent.frame (consistent.sound.dropMailbox id) outlasts
    (fun member => outlasts.present (consistent.attaching member)) fun other => ?_
  obtain ⟨lost, all, none⟩ := consistent.contents other
  rw [Hub.queued_dropMailbox]
  by_cases same : other = id
  · subst same
    refine ⟨state.hub.queued other ++ lost, ?_, fun kept => ?_⟩
    · rw [if_pos rfl, List.append_nil, ← List.append_assoc]
      exact all
    · rw [Hub.queued_eq_nil_of_dropped kept, none (outlasts.kept kept)]
      rfl
  · rw [if_neg same]
    exact ⟨lost, all, fun kept => none (outlasts.kept kept)⟩

theorem Consistent.take (consistent : Consistent state) {id : ConnectionId} {message : Stamped}
    {hub : Hub} (polled : state.hub.poll id = (some (.message message), hub)) :
    Consistent { state with hub, taken := extend state.taken id message } := by
  obtain ⟨mailbox, rest, found, front, held, rfl⟩ := Hub.eq_of_poll_message polled
  have outlasts : Outlasts { state.hub with
      mailboxes := state.hub.mailboxes.modify id fun _ => rest } state.hub := by
    refine Hub.outlasts_modify state.hub id fun mailbox' found' unowned => ?_
    rw [found] at found'
    cases found'
    exact held.trans unowned
  refine consistent.frame (consistent.sound.modify id fun _ => rest) outlasts
    (fun member => outlasts.present (consistent.attaching member)) fun other => ?_
  obtain ⟨lost, all, none⟩ := consistent.contents other
  refine ⟨lost, ?_, fun kept => none (outlasts.kept kept)⟩
  rw [← all]
  unfold Hub.queued
  rw [Registry.get?_modify]
  by_cases same : other = id
  · subst same
    simp [found, front]
  · rw [extend_of_ne same, if_neg same]

/-! ### Snapshots -/

/-- The state behind the snapshot of a publish. -/
def State.afterSnapshot (state : State) (origin : ConnectionId) (message : Stamped) : State :=
  { state with
    flights := state.flights.put origin
      { number := state.publications.length, message, targets := state.hub.snapshot origin }
    publications := state.publications ++ [⟨origin, message, state.hub.registry⟩] }

section Snapshot

variable {origin : ConnectionId} {message : Stamped}

/-- Nothing has arrived yet of a publication that is still to be recorded. -/
theorem Consistent.not_arrived (consistent : Consistent state) (id : ConnectionId) :
    state.publications.length ∉ state.arrivals id := by
  intro member
  obtain ⟨publication, recorded, _⟩ := consistent.arrived member
  simp at recorded

/-- The targets of a publish are the connections that its snapshot saw, but for the origin. -/
theorem Consistent.mem_targets (consistent : Consistent state) {id : ConnectionId} :
    id ∈ (state.hub.snapshot origin).map Prod.snd ↔
      state.hub.registry.contains id = true ∧ id ≠ origin :=
  consistent.sound.mem_snapshot

/-- The new publication changes nothing about the origin of one that has arrived. -/
theorem Consistent.isFrom_of_afterSnapshot (consistent : Consistent state)
    {id other : ConnectionId} {number : Nat} (member : number ∈ state.arrivals id)
    (isFrom : (state.afterSnapshot origin message).isFrom other number = true) :
    state.isFrom other number = true := by
  obtain ⟨publication, recorded, isOrigin⟩ := State.isFrom_iff.mp isFrom
  rcases getElem?_of_append recorded with old | ⟨isNew, _⟩
  · exact State.isFrom_iff.mpr ⟨publication, old, isOrigin⟩
  · exact absurd (isNew ▸ member) (consistent.not_arrived id)

/-- A publish that begins is the latest of its connection. -/
theorem Consistent.beginning (consistent : Consistent state) :
    UnderWay (state.afterSnapshot origin message) origin
      { number := state.publications.length, message, targets := state.hub.snapshot origin } where
  recorded := by
    refine ⟨_, List.getElem?_concat_length, rfl, rfl, fun target member => ?_⟩
    have registered := consistent.mem_targets.mp (List.mem_map_of_mem member)
    exact ⟨registered.2, registered.1⟩
  latest isFrom := by
    obtain ⟨publication, recorded, _⟩ := State.isFrom_iff.mp isFrom
    have bound := (List.getElem?_eq_some_iff.mp recorded).1
    simp only [State.afterSnapshot, List.length_append, List.length_singleton] at bound
    exact Nat.le_of_lt_succ bound
  distinct := consistent.sound.snapshot_distinct origin
  pending target _ := consistent.not_arrived target.2

/-- A publish under way goes on while one of another connection begins. -/
theorem UnderWay.afterSnapshot {other : ConnectionId} {flight : Flight}
    (underWay : UnderWay state other flight) (different : other ≠ origin) :
    UnderWay (state.afterSnapshot origin message) other flight where
  recorded := by
    obtain ⟨publication, recorded, facts⟩ := underWay.recorded
    exact ⟨publication, getElem?_append recorded, facts⟩
  latest isFrom := by
    obtain ⟨publication, recorded, isOrigin⟩ := State.isFrom_iff.mp isFrom
    rcases getElem?_of_append recorded with old | ⟨_, rfl⟩
    · exact underWay.latest (State.isFrom_iff.mpr ⟨publication, old, isOrigin⟩)
    · exact absurd isOrigin.symm different
  distinct := underWay.distinct
  pending := underWay.pending

theorem Consistent.snapshot (consistent : Consistent state)
    (idle : state.flights.get? origin = none) :
    Consistent (state.afterSnapshot origin message) where
  sound := consistent.sound
  attaching := consistent.attaching
  snapshots := by
    intro number publication id recorded registered
    rcases getElem?_of_append recorded with old | ⟨_, rfl⟩
    · exact consistent.snapshots old registered
    · exact consistent.sound.mailbox registered
  underWay := by
    intro other flight found
    simp only [State.afterSnapshot] at found
    by_cases same : other = origin
    · subst same
      rw [Roster.get?_put_self] at found
      cases found
      exact consistent.beginning
    · rw [Roster.get?_put_of_ne _ _ same] at found
      exact (consistent.underWay found).afterSnapshot same
  arrived := by
    intro id number member
    obtain ⟨publication, recorded, facts⟩ := consistent.arrived member
    exact ⟨publication, getElem?_append recorded, facts⟩
  ordered := by
    intro id
    refine (consistent.ordered id).imp_of_mem fun earlierIn laterIn inOrder other => ?_
    intro earlier later
    exact inOrder other (consistent.isFrom_of_afterSnapshot earlierIn earlier)
      (consistent.isFrom_of_afterSnapshot laterIn later)
  delivered := by
    intro number publication id recorded registered foreign kept
    rcases getElem?_of_append recorded with old | ⟨rfl, rfl⟩
    · rcases consistent.delivered old registered foreign kept with arrived | ⟨flight, found, facts⟩
      · exact .inl arrived
      · have different : publication.origin ≠ origin := by
          rintro rfl
          rw [idle] at found
          cases found
        exact .inr ⟨flight, (Roster.get?_put_of_ne _ _ different).trans found, facts⟩
    · have waits := consistent.mem_targets.mpr ⟨registered, foreign⟩
      exact .inr ⟨_, Roster.get?_put_self _ _ _, rfl, waits⟩
  contents := by
    intro id
    obtain ⟨lost, all, none⟩ := consistent.contents id
    refine ⟨lost, all.trans (List.map_congr_left fun number member => ?_), none⟩
    obtain ⟨publication, recorded, _⟩ := consistent.arrived member
    simp only [State.sent?, State.afterSnapshot, recorded, getElem?_append recorded]

end Snapshot

/-! ### Deliveries -/

/-- The state behind one delivery. It takes its target off the list and, if the mailbox is still
owned, puts the message into it. -/
def State.afterDelivery (state : State) (origin : ConnectionId) (flight : Flight)
    (target : ConnectionId × ConnectionId) (report : DeliveryReport) : State :=
  { state with
    hub := (state.hub.deliver target.2 flight.message).2
    flights := state.flights.put origin
      { flight with targets := flight.targets.erase target, report }
    arrivals :=
      if state.hub.isOpen target.2 then extend state.arrivals target.2 flight.number
      else state.arrivals }

section Delivery

variable {origin : ConnectionId} {flight : Flight} {target : ConnectionId × ConnectionId}
  {report : DeliveryReport}

/-- Only the publish under way has its number. -/
theorem UnderWay.origin_eq {other : ConnectionId} (underWay : UnderWay state origin flight)
    (isFrom : state.isFrom other flight.number = true) : other = origin := by
  obtain ⟨publication, recorded, isOrigin, _⟩ := underWay.recorded
  obtain ⟨publication', recorded', isOther⟩ := State.isFrom_iff.mp isFrom
  rw [recorded] at recorded'
  cases recorded'
  exact isOther.symm.trans isOrigin

theorem UnderWay.sent? (underWay : UnderWay state origin flight) :
    state.sent? flight.number = some flight.message := by
  obtain ⟨publication, recorded, _, isMessage, _⟩ := underWay.recorded
  rw [State.sent?, recorded, Option.map_some, isMessage]

private theorem UnderWay.afterOwnDelivery (underWay : UnderWay state origin flight)
    (waits : target ∈ flight.targets) :
    UnderWay (state.afterDelivery origin flight target report) origin
      { flight with targets := flight.targets.erase target, report } where
  recorded := by
    obtain ⟨publication, recorded, isOrigin, isMessage, targets⟩ := underWay.recorded
    exact ⟨publication, recorded, isOrigin, isMessage,
      fun target' member => targets target' (List.mem_of_mem_erase member)⟩
  latest := underWay.latest
  distinct := underWay.distinct.sublist (List.erase_sublist.map _)
  pending := by
    intro target' member arrived
    rcases mem_of_mem_extend_if arrived with old | ⟨sameName, _⟩
    · exact underWay.pending target' (List.mem_of_mem_erase member) old
    · exact not_mem_map_erase underWay.distinct waits (sameName ▸ List.mem_map_of_mem member)

private theorem UnderWay.afterOtherDelivery (underWay : UnderWay state origin flight)
    {other : ConnectionId} {another : Flight} (ownWay : UnderWay state other another)
    (different : other ≠ origin) :
    UnderWay (state.afterDelivery origin flight target report) other another where
  recorded := ownWay.recorded
  latest := ownWay.latest
  distinct := ownWay.distinct
  pending := by
    intro target' member arrived
    rcases mem_of_mem_extend_if arrived with old | ⟨_, sameNumber⟩
    · exact ownWay.pending target' member old
    · obtain ⟨publication, recorded, isOther, _⟩ := ownWay.recorded
      exact different (underWay.origin_eq
        (sameNumber ▸ State.isFrom_iff.mpr ⟨publication, recorded, isOther⟩))

/-- Only the accepted message is new in its mailbox, and it is the latest of its origin. -/
theorem Consistent.ordered_afterDelivery (consistent : Consistent state)
    (underWay : UnderWay state origin flight) (waits : target ∈ flight.targets)
    (id : ConnectionId) :
    ((state.afterDelivery origin flight target report).arrivals id).Pairwise
      fun earlier later => ∀ other, state.isFrom other earlier = true →
        state.isFrom other later = true → earlier < later := by
  simp only [State.afterDelivery]
  by_cases isNew : id = target.2 ∧ state.hub.isOpen target.2 = true
  · obtain ⟨rfl, accepted⟩ := isNew
    simp only [accepted, if_true, extend_self]
    refine List.pairwise_append.mpr ⟨consistent.ordered _, List.pairwise_singleton _ _, ?_⟩
    intro earlier member later isLast other isFrom isFrom'
    rw [List.mem_singleton.mp isLast] at isFrom' ⊢
    have sameOrigin := underWay.origin_eq isFrom'
    have notSame : earlier ≠ flight.number :=
      fun same => underWay.pending target waits (same ▸ member)
    exact Nat.lt_of_le_of_ne (underWay.latest (sameOrigin ▸ isFrom)) notSame
  · rw [extend_if_of_not isNew]
    exact consistent.ordered id

private theorem Consistent.contents_afterDelivery (consistent : Consistent state)
    (underWay : UnderWay state origin flight) (id : ConnectionId) :
    ∃ lost, (state.taken id ++ (state.hub.deliver target.2 flight.message).2.queued id ++
        lost).map some =
          ((state.afterDelivery origin flight target report).arrivals id).map state.sent? ∧
      ((state.hub.deliver target.2 flight.message).2.isAbandoned id = false → lost = []) := by
  obtain ⟨lost, all, none⟩ := consistent.contents id
  simp only [State.afterDelivery]
  rw [Hub.queued_deliver]
  by_cases isNew : id = target.2 ∧ state.hub.isOpen target.2 = true
  · obtain ⟨rfl, accepted⟩ := isNew
    have noneLost : lost = [] := none (Hub.isAbandoned_eq_false_of_isOpen accepted)
    subst noneLost
    refine ⟨[], ?_, fun _ => rfl⟩
    simp only [accepted, and_self, if_true, extend_self, List.append_nil] at all ⊢
    have sent : [flight.message].map some = [flight.number].map state.sent? := by
      simp [underWay.sent?]
    calc (state.taken target.2 ++ (state.hub.queued target.2 ++ [flight.message])).map some
        = (state.taken target.2 ++ state.hub.queued target.2).map some ++
            [flight.message].map some := by simp
      _ = (state.arrivals target.2).map state.sent? ++ [flight.number].map state.sent? := by
        rw [all, sent]
      _ = (state.arrivals target.2 ++ [flight.number]).map state.sent? := List.map_append.symm
  · have outlasts := state.hub.deliver_outlasts target.2 flight.message
    refine ⟨lost, ?_, fun kept => none (outlasts.kept kept)⟩
    rw [if_neg isNew, extend_if_of_not isNew]
    exact all

/-- What was due to a mailbox that is still owned has arrived, or still waits for its delivery. -/
theorem Consistent.delivered_afterDelivery (consistent : Consistent state)
    (found : state.flights.get? origin = some flight) {number : Nat} {publication : Publication}
    {id : ConnectionId} (recorded : state.publications[number]? = some publication)
    (registered : publication.registry.contains id = true) (foreign : id ≠ publication.origin)
    (kept : state.hub.isAbandoned id = false) :
    number ∈ (state.afterDelivery origin flight target report).arrivals id ∨
      ∃ another, (state.afterDelivery origin flight target report).flights.get?
          publication.origin = some another ∧
        another.number = number ∧ id ∈ another.targets.map Prod.snd := by
  simp only [State.afterDelivery]
  rcases consistent.delivered recorded registered foreign kept with
    arrived | ⟨another, found', rfl, inTargets⟩
  · exact .inl (mem_extend_if_of_mem arrived)
  by_cases same : publication.origin = origin
  · rw [same, found] at found'
    cases found'
    rw [same, Roster.get?_put_self]
    by_cases now : id = target.2
    · have accepted := Hub.isOpen_of_not_isAbandoned
        (consistent.snapshots recorded registered) kept
      subst now
      exact .inl (by simp [accepted])
    · exact .inr ⟨_, rfl, rfl, mem_map_erase now inTargets⟩
  · rw [Roster.get?_put_of_ne _ _ same]
    exact .inr ⟨another, found', rfl, inTargets⟩

theorem Consistent.deliver (consistent : Consistent state)
    (found : state.flights.get? origin = some flight) (waits : target ∈ flight.targets) :
    Consistent (state.afterDelivery origin flight target report) := by
  have outlasts := state.hub.deliver_outlasts target.2 flight.message
  have underWay := consistent.underWay found
  exact {
    sound := consistent.sound.modify target.2 _
    attaching := fun member => outlasts.present (consistent.attaching member)
    snapshots := fun recorded registered =>
      outlasts.present (consistent.snapshots recorded registered)
    underWay := by
      intro other another found'
      simp only [State.afterDelivery] at found'
      by_cases same : other = origin
      · subst same
        rw [Roster.get?_put_self] at found'
        cases found'
        exact underWay.afterOwnDelivery waits
      · rw [Roster.get?_put_of_ne _ _ same] at found'
        exact underWay.afterOtherDelivery (consistent.underWay found') same
    arrived := by
      intro id number member
      rcases mem_of_mem_extend_if member with old | ⟨rfl, rfl⟩
      · exact consistent.arrived old
      · obtain ⟨publication, recorded, isOrigin, _, targets⟩ := underWay.recorded
        have registered := targets target waits
        exact ⟨publication, recorded, isOrigin ▸ registered.1.symm, registered.2⟩
    ordered := consistent.ordered_afterDelivery underWay waits
    delivered := fun recorded registered foreign kept =>
      consistent.delivered_afterDelivery found recorded registered foreign (outlasts.kept kept)
    contents := consistent.contents_afterDelivery underWay }

end Delivery

/-! ### Ends -/

theorem Consistent.finish (consistent : Consistent state) {origin : ConnectionId}
    {flight : Flight} (found : state.flights.get? origin = some flight)
    (all : flight.targets.isEmpty = true) (failures : Nat) :
    Consistent { state with
      hub := { state.hub with failures }
      flights := state.flights.erase origin } where
  sound := ⟨consistent.sound.address, consistent.sound.mailbox, consistent.sound.fresh⟩
  attaching := consistent.attaching
  snapshots := consistent.snapshots
  underWay := by
    intro other flight' found'
    by_cases same : other = origin
    · subst same
      rw [Roster.get?_erase_self] at found'
      cases found'
    · rw [Roster.get?_erase_of_ne _ same] at found'
      have before := consistent.underWay found'
      exact ⟨before.recorded, before.latest, before.distinct, before.pending⟩
  arrived := consistent.arrived
  ordered := consistent.ordered
  delivered := by
    intro number publication id recorded registered foreign kept
    rcases consistent.delivered recorded registered foreign kept with
      arrived | ⟨flight', found', isNumber, waits⟩
    · exact .inl arrived
    · have different : publication.origin ≠ origin := by
        rintro rfl
        rw [found] at found'
        cases found'
        rw [List.isEmpty_iff.mp all] at waits
        cases waits
      exact .inr ⟨flight', by rwa [Roster.get?_erase_of_ne _ different], isNumber, waits⟩
  contents := consistent.contents

theorem Consistent.step (consistent : Consistent state) {move : Move} {next : State}
    (moved : state.step? move = some next) : Consistent next := by
  cases move with
  | allocate =>
    cases moved
    exact consistent.allocate
  | enroll id =>
    simp only [State.step?] at moved
    split at moved
    · rename_i isAttaching
      cases moved
      exact consistent.enroll isAttaching
    · cases moved
  | snapshot origin message timestamp =>
    simp only [State.step?] at moved
    split at moved
    · cases moved
    · rename_i idle
      cases moved
      exact consistent.snapshot idle
  | deliver origin target =>
    simp only [State.step?] at moved
    split at moved
    · cases moved
    · rename_i flight found
      split at moved
      · rename_i waits
        cases moved
        exact consistent.deliver found waits
      · cases moved
  | finish origin =>
    simp only [State.step?] at moved
    split at moved
    · cases moved
    · rename_i flight found
      split at moved
      · rename_i all
        cases moved
        exact consistent.finish found all _
      · cases moved
  | detach id =>
    cases moved
    exact consistent.detach id
  | dropMailbox id =>
    cases moved
    exact consistent.dropMailbox id
  | take id =>
    simp only [State.step?] at moved
    split at moved
    · rename_i message hub polled
      cases moved
      exact consistent.take polled
    · cases moved

theorem Reaches.consistent (reached : Reaches {} state) : Consistent state := by
  induction reached with
  | refl => exact consistent_initial
  | step move _ moved ih => exact ih.step moved

theorem Consistent.arrivals_nodup (consistent : Consistent state) (id : ConnectionId) :
    (state.arrivals id).Nodup := by
  refine (consistent.ordered id).imp_of_mem fun {earlier later} member _ inOrder same => ?_
  obtain ⟨publication, recorded, _⟩ := consistent.arrived member
  have isFrom := State.isFrom_iff.mpr ⟨publication, recorded, rfl⟩
  subst same
  exact Nat.lt_irrefl _ (inOrder publication.origin isFrom isFrom)

end Steps

/-! ## What a step leaves alone -/

/-- What a step keeps of everything that it is not about. -/
structure Frame (state : State) (move : Move) (next : State) : Prop where
  nextId : state.hub.nextId ≤ next.hub.nextId
  isOpen : ∀ {id : ConnectionId}, move ≠ .dropMailbox id → state.hub.isOpen id = true →
    next.hub.isOpen id = true
  taken : ∀ {id : ConnectionId}, move ≠ .take id → next.taken id = state.taken id
  publications : (∀ origin message timestamp, move ≠ .snapshot origin message timestamp) →
    next.publications = state.publications

theorem frame_of_step {state next : State} {move : Move} (moved : state.step? move = some next) :
    Frame state move next := by
  cases move with
  | allocate =>
    cases moved
    refine ⟨Nat.le_succ _, fun {id} _ isOpen => ?_, fun _ => rfl, fun _ => rfl⟩
    change (state.hub.allocate.2.mailboxes.get? id).any Mailbox.held = true
    rw [Hub.allocate_mailbox]
    split
    · rfl
    · exact isOpen
  | enroll id =>
    simp only [State.step?] at moved
    split at moved
    · cases moved
      exact ⟨Nat.le_refl _, fun _ isOpen => isOpen, fun _ => rfl, fun _ => rfl⟩
    · cases moved
  | snapshot origin message timestamp =>
    simp only [State.step?] at moved
    split at moved
    · cases moved
    · cases moved
      exact ⟨Nat.le_refl _, fun _ isOpen => isOpen, fun _ => rfl,
        fun other => absurd rfl (other origin message timestamp)⟩
  | deliver origin target =>
    simp only [State.step?] at moved
    split at moved
    · cases moved
    · split at moved
      · cases moved
        refine ⟨Nat.le_refl _, fun _ isOpen => ?_, fun _ => rfl, fun _ => rfl⟩
        exact (Hub.isOpen_deliver state.hub target.2 _ _).trans isOpen
      · cases moved
  | finish origin =>
    simp only [State.step?] at moved
    split at moved
    · cases moved
    · split at moved
      · cases moved
        exact ⟨Nat.le_refl _, fun _ isOpen => isOpen, fun _ => rfl, fun _ => rfl⟩
      · cases moved
  | detach id =>
    cases moved
    exact ⟨Nat.le_refl _, fun _ isOpen => isOpen, fun _ => rfl, fun _ => rfl⟩
  | dropMailbox id =>
    cases moved
    refine ⟨Nat.le_refl _, fun {other} different isOpen => ?_, fun _ => rfl, fun _ => rfl⟩
    have notIts : other ≠ id := fun same => different (congrArg Move.dropMailbox same.symm)
    rwa [Hub.isOpen, Hub.dropMailbox_mailbox, if_neg notIts]
  | take id =>
    simp only [State.step?] at moved
    split at moved
    · rename_i message hub polled
      cases moved
      obtain ⟨mailbox, rest, found, _, held, rfl⟩ := Hub.eq_of_poll_message polled
      refine ⟨Nat.le_refl _, fun {other} _ isOpen => ?_, fun {other} different => ?_, fun _ => rfl⟩
      · rw [Hub.isOpen, Registry.get?_modify]
        split
        · rename_i same
          rw [Hub.isOpen, same, found] at isOpen
          rw [same, found]
          exact held.trans isOpen
        · exact isOpen
      · exact extend_of_ne fun same => different (congrArg Move.take same.symm)
    · cases moved

/-! ## Calls that are not interrupted -/

section Uninterrupted

variable {state : State} {origin : ConnectionId}

theorem State.run?_append (state : State) (first later : List Move) :
    state.run? (first ++ later) = (state.run? first).bind fun middle => middle.run? later :=
  List.foldlM_append

/-- The two steps of attaching. -/
theorem step?_attach (consistent : Consistent state) :
    ∃ allocated, state.step? .allocate = some allocated ∧
      allocated.flights = state.flights ∧ allocated.publications = state.publications ∧
      allocated.step? (.enroll state.hub.nextId) =
        some { state with hub := state.hub.attach.2 } := by
  have isNew : state.hub.nextId ∉ state.attaching := fun member => by
    have present := consistent.attaching member
    simp [consistent.sound.fresh (Nat.le_refl _)] at present
  refine ⟨_, rfl, rfl, rfl, ?_⟩
  simp [State.step?, Hub.attach, Hub.allocate, List.erase_append_right _ isNew]

/-- The deliveries of a publish, one after the other. -/
theorem run?_deliveries (state : State) {flight : Flight}
    (found : state.flights.get? origin = some flight) :
    ∃ next, state.run? (flight.targets.map (.deliver origin)) = some next ∧
      (let delivered := flight.targets.foldl (Hub.deliverCounted flight.message)
        (flight.report, state.hub)
      next.hub = delivered.2 ∧
        next.flights.get? origin =
          some { flight with targets := [], report := delivered.1 }) ∧
      (∀ other, other ≠ origin → next.flights.get? other = state.flights.get? other) ∧
      next.publications = state.publications := by
  obtain ⟨number, message, targets, report⟩ := flight
  induction targets generalizing state report with
  | nil => exact ⟨state, rfl, ⟨rfl, found⟩, fun _ _ => rfl, rfl⟩
  | cons target rest ih =>
    obtain ⟨next, ran, done, others, published⟩ := ih
      { state with
        hub := (state.hub.deliver target.2 message).2
        flights := state.flights.put origin
          ⟨number, message, rest, report.count (state.hub.isOpen target.2)⟩
        arrivals :=
          if state.hub.isOpen target.2 then extend state.arrivals target.2 number
          else state.arrivals }
      _ (Roster.get?_put_self _ origin _)
    refine ⟨next, ?_, done, fun other different => ?_, published⟩
    · simp only [List.map_cons, State.run?, List.foldlM_cons, State.step?, found,
        List.mem_cons_self, if_true, List.erase_cons_head]
      exact ran
    · exact (others other different).trans (Roster.get?_put_of_ne _ _ different)

/-- The steps of a publish, if nothing comes between them, are the publish. -/
theorem run?_publish (idle : state.flights.get? origin = none) (message : Inbound)
    (timestamp : String) :
    ∃ begun next, state.step? (.snapshot origin message timestamp) = some begun ∧
      begun.run? ((state.hub.snapshot origin).map (.deliver origin) ++ [.finish origin]) =
        some next ∧
      next.hub = (state.hub.publish origin message timestamp).2 ∧
      (∀ other, next.flights.get? other = state.flights.get? other) ∧
      next.publications =
        state.publications ++ [⟨origin, message.stamp timestamp, state.hub.registry⟩] := by
  let begun : State := { state with
    flights := state.flights.put origin
      { number := state.publications.length
        message := message.stamp timestamp
        targets := state.hub.snapshot origin }
    publications :=
      state.publications ++ [⟨origin, message.stamp timestamp, state.hub.registry⟩] }
  obtain ⟨delivered, ran, ⟨sameHub, done⟩, others, published⟩ :=
    run?_deliveries begun (Roster.get?_put_self _ origin _)
  refine ⟨begun, { delivered with
    hub := (state.hub.publish origin message timestamp).2
    flights := delivered.flights.erase origin }, ?_, ?_, rfl, fun other => ?_, published⟩
  · simp only [State.step?, idle]
    rfl
  · refine (State.run?_append _ _ _).trans ?_
    rw [ran, Hub.publish_eq_foldl]
    simp only [Option.bind_some, State.run?, List.foldlM_cons, State.step?, done, sameHub]
    rfl
  · by_cases same : other = origin
    · rw [same, Roster.get?_erase_self, idle]
    · rw [Roster.get?_erase_of_ne _ same, others other same]
      exact Roster.get?_put_of_ne _ _ same

end Uninterrupted

/-! ## Main statement -/

/-- In every state that interleaved calls reach, a mailbox has yielded and still holds exactly the
publications that arrived in it, up to those lost with its owner. None of them is its own, none
came twice, and those of one origin came in the order of its publishes. Of a publish that is over,
every other connection that its snapshot saw has the message once while its mailbox is owned; one
that the snapshot did not see never has it. -/
theorem interleaved_publishes {state : State} (reached : Reaches {} state) (id : ConnectionId) :
    (∃ lost, (state.taken id ++ state.hub.queued id ++ lost).map some =
        (state.arrivals id).map state.sent? ∧ (state.hub.isOpen id = true → lost = [])) ∧
    (∀ number ∈ state.arrivals id, state.isFrom id number = false) ∧
    (state.arrivals id).Nodup ∧
    (∀ origin, ((state.arrivals id).filter (state.isFrom origin)).Pairwise (· < ·)) ∧
    ∀ number publication, state.publications[number]? = some publication →
      (state.IsFinished number → publication.registry.contains id = true →
        id ≠ publication.origin → state.hub.isOpen id = true →
          (state.arrivals id).count number = 1) ∧
      (publication.registry.contains id = false → number ∉ state.arrivals id) := by
  have consistent := reached.consistent
  have once := consistent.arrivals_nodup id
  refine ⟨?contents, ?foreign, once, ?ordered, fun number publication recorded =>
    ⟨fun finished registered foreign isHeld => ?delivered, fun unseen member => ?unseen⟩⟩
  case contents =>
    obtain ⟨lost, all, none⟩ := consistent.contents id
    exact ⟨lost, all, fun isHeld => none (Hub.isAbandoned_eq_false_of_isOpen isHeld)⟩
  case foreign =>
    intro number member
    obtain ⟨publication, recorded, isForeign, _⟩ := consistent.arrived member
    simpa [State.isFrom, recorded] using isForeign
  case ordered =>
    intro origin
    rw [List.pairwise_filter]
    exact (consistent.ordered id).imp fun inOrder earlier later => inOrder origin earlier later
  case delivered =>
    have kept := Hub.isAbandoned_eq_false_of_isOpen isHeld
    rcases consistent.delivered recorded registered foreign kept with
      arrived | ⟨flight, found, isNumber, _⟩
    · rw [once.count, if_pos arrived]
    · exact absurd isNumber (finished _ flight found)
  case unseen =>
    obtain ⟨publication', recorded', _, seen⟩ := consistent.arrived member
    rw [recorded] at recorded'
    cases recorded'
    simp [seen] at unseen

/-- Two publishes whose deliveries to connection 3 cross; connection 4 attaches and connection 2
detaches before they are over. -/
def crossing : List Move :=
  [.allocate, .enroll 1, .allocate, .enroll 2, .allocate, .enroll 3,
    .snapshot 1 ⟨"ann", "first"⟩ "t", .snapshot 2 ⟨"bob", "second"⟩ "t",
    .deliver 2 (3, 3), .deliver 1 (3, 3), .take 3, .allocate, .enroll 4, .deliver 1 (2, 2),
    .detach 2, .deliver 2 (1, 1), .finish 1, .finish 2]

theorem interleaved_publishes_crossing :
    ∃ state, ({} : State).run? crossing = some state ∧ state.arrivals 3 = [1, 0] ∧
      (state.arrivals 3).Nodup ∧ (state.arrivals 3).count 0 = 1 ∧ 0 ∉ state.arrivals 4 := by
  refine ⟨_, rfl, rfl, ?_⟩
  have reached := Reaches.of_run? (show ({} : State).run? crossing = some _ from rfl)
  have third := interleaved_publishes reached 3
  have fourth := interleaved_publishes reached 4
  refine ⟨third.2.2.1, ?_, ?_⟩
  · exact (third.2.2.2.2 0 _ rfl).1 (fun _ _ found => by cases found) rfl (by decide) rfl
  · exact (fourth.2.2.2.2 0 _ rfl).2 rfl

end ChatHub.Interleaved
