import ChatHub.Registry
/-!
Broadcasts whose deliveries change the registry. A registry is what the changes made to it so far
say, the last one for each id, and a broadcast delivers to the entries it found at its start
whatever happens to them meanwhile. Main statement: `broadcast_on_snapshot`.
-/

set_option autoImplicit false

namespace ChatHub.Registry

variable {α σ : Type}

/-! ## Changes in order -/

def Change.id : Change α → ConnectionId
  | .register id _ => id
  | .deregister id => id

/-- The last change that concerns an id, if there is one. -/
def lastOn (id : ConnectionId) (changes : List (Change α)) : Option (Change α) :=
  (changes.filter fun change => change.id = id).getLast?

/-- The channel that a change leaves its id with. -/
def Change.channel? : Change α → Option α
  | .register _ channel => some channel
  | .deregister _ => none

section Changes

variable {registry : Registry α} {id : ConnectionId} {changes : List (Change α)}

private theorem get?_apply (registry : Registry α) (change : Change α) (id : ConnectionId) :
    (registry.apply change).get? id =
      if change.id = id then change.channel? else registry.get? id := by
  cases change with
  | register other channel => simp only [apply, get?_register, Change.id, Change.channel?, eq_comm]
  | deregister other => simp only [apply, get?_deregister, Change.id, Change.channel?, eq_comm]

private theorem lastOn_cons (id : ConnectionId) (change : Change α) (changes : List (Change α)) :
    lastOn id (change :: changes) =
      (lastOn id changes).or (if change.id = id then some change else none) := by
  by_cases same : change.id = id
  · simp only [lastOn, same, decide_true, List.filter_cons_of_pos, List.getLast?_cons, if_true]
    cases (changes.filter fun change => change.id = id).getLast? <;> rfl
  · simp [lastOn, same]

private theorem id_of_lastOn {change : Change α} (last : lastOn id changes = some change) :
    change.id = id := by
  simpa using (List.mem_filter.mp (List.mem_of_getLast? last)).2

private theorem applyAll_append (registry : Registry α) (first second : List (Change α)) :
    registry.applyAll (first ++ second) = (registry.applyAll first).applyAll second :=
  List.foldl_append

/-- After changes, an id has what the last change on it left, and without one what it had. -/
theorem get?_applyAll (registry : Registry α) (changes : List (Change α)) (id : ConnectionId) :
    (registry.applyAll changes).get? id =
      match lastOn id changes with
      | some change => change.channel?
      | none => registry.get? id := by
  induction changes generalizing registry with
  | nil => rfl
  | cons change later ih =>
    refine (ih (registry.apply change)).trans ?_
    rw [lastOn_cons, get?_apply]
    cases lastOn id later with
    | some last => rfl
    | none => by_cases same : change.id = id <;> simp [same]

private theorem get?_applyAll_of_not_registered (absent : registry.get? id = none)
    (notAgain : ∀ channel, .register id channel ∉ changes) :
    (registry.applyAll changes).get? id = none := by
  rw [get?_applyAll]
  cases last : lastOn id changes with
  | none => exact absent
  | some change =>
    cases change with
    | deregister other => rfl
    | register other channel =>
      obtain rfl : other = id := id_of_lastOn last
      have member := (List.mem_filter.mp (List.mem_of_getLast? last)).1
      exact absurd member (notAgain channel)

end Changes

/-! ## Deliveries -/

/-- What the deliveries to channels do, each with the state that those before have left. One that
looks at the registry keeps what it sees there in its state. -/
def deliveries (deliver : σ → α → Delivery α × σ) (state : σ) : List α → List (Delivery α)
  | [] => []
  | channel :: rest =>
    let (delivery, next) := deliver state channel
    delivery :: deliveries deliver next rest

def changesOf (made : List (Delivery α)) : List (Change α) :=
  made.flatMap Delivery.changes

section Broadcasts

variable (deliver : σ → α → Delivery α × σ)

private theorem length_deliveries (state : σ) (channels : List α) :
    (deliveries deliver state channels).length = channels.length := by
  induction channels generalizing state with
  | nil => rfl
  | cons channel rest ih => simp [deliveries, ih]

/-- A broadcast under way goes on with its targets alone, whatever the registry has become. -/
theorem foldl_deliver (targets : List (ConnectionId × α)) (broadcast : Broadcast α σ) :
    let made := deliveries deliver broadcast.state (targets.map Prod.snd)
    let finished := targets.foldl (fun broadcast target => broadcast.deliver deliver target.2)
      broadcast
    finished.registry = broadcast.registry.applyAll (changesOf made) ∧
      finished.calls =
        broadcast.calls ++ (targets.map Prod.snd).zip (made.map Delivery.accepted) ∧
      finished.report.delivered = broadcast.report.delivered + made.countP Delivery.accepted ∧
      finished.report.failed =
        broadcast.report.failed + made.countP fun delivery => !delivery.accepted := by
  induction targets generalizing broadcast with
  | nil => simp [deliveries, changesOf, applyAll]
  | cons target rest ih =>
    obtain ⟨registry, calls, delivered, failed⟩ := ih (broadcast.deliver deliver target.2)
    simp only [List.foldl_cons, List.map_cons, deliveries]
    refine ⟨registry.trans ?_, calls.trans ?_, delivered.trans ?_, failed.trans ?_⟩
    · simp only [Broadcast.deliver, changesOf, List.flatMap_cons, applyAll_append]
    · simp only [Broadcast.deliver, List.zip_cons_cons, List.append_assoc,
        List.singleton_append]
    · simp only [Broadcast.deliver, DeliveryReport.delivered_count, List.countP_cons]
      exact (Nat.add_right_comm _ _ _).trans (Nat.add_assoc _ _ _)
    · simp only [Broadcast.deliver, DeliveryReport.failed_count, List.countP_cons]
      exact (Nat.add_right_comm _ _ _).trans (Nat.add_assoc _ _ _)

end Broadcasts

/-- The registries that operations lead to, with all changes so far, oldest first. A broadcast goes
through the entries of its snapshot in any order. Looking at a registry leaves it as it is. -/
inductive Reached : Registry α → List (Change α) → Prop where
  | empty : Reached ∅ []
  | changed {registry : Registry α} {history : List (Change α)} (change : Change α) :
      Reached registry history → Reached (registry.apply change) (history ++ [change])
  | broadcast {σ : Type} {registry : Registry α} {history : List (Change α)}
      {origin : ConnectionId} {targets : List (ConnectionId × α)}
      (deliver : σ → α → Delivery α × σ) (state : σ) :
      Reached registry history → targets.Perm (registry.snapshotExcept origin) →
      Reached (registry.broadcastTo targets deliver state).registry
        (history ++ changesOf (deliveries deliver state (targets.map Prod.snd)))

private theorem Reached.eq_applyAll {registry : Registry α} {history : List (Change α)}
    (reached : Reached registry history) : registry = applyAll ∅ history := by
  induction reached with
  | empty => rfl
  | changed change _ ih =>
    rw [applyAll_append, ← ih]
    rfl
  | broadcast deliver state _ _ ih =>
    rw [applyAll_append, ← ih]
    exact (foldl_deliver deliver _ _).1

/-- A registry tells what was done to it: an id is in it just if the last change on it registered
it, the size counts the ids, and an id can be removed once, with its latest channel. -/
structure Remembers (registry : Registry α) (history : List (Change α)) : Prop where
  contains : ∀ id, registry.contains id = true ↔
    ∃ channel, lastOn id history = some (.register id channel)
  size : ∃ ids : List ConnectionId, ids.Nodup ∧ ids.length = registry.size ∧
    ∀ id, id ∈ ids ↔ registry.contains id = true
  removed : ∀ id channel, (registry.remove id).1 = some channel ↔
    lastOn id history = some (.register id channel)
  gone : ∀ id further, (∀ channel, .register id channel ∉ further) →
    (((registry.remove id).2.applyAll further).remove id).1 = none

theorem Reached.get?_eq_some_iff {registry : Registry α} {history : List (Change α)}
    (reached : Reached registry history) {id : ConnectionId} {channel : α} :
    registry.get? id = some channel ↔ lastOn id history = some (.register id channel) := by
  rw [reached.eq_applyAll, get?_applyAll]
  cases last : lastOn id history with
  | none => simp
  | some change =>
    obtain rfl := id_of_lastOn last
    cases change <;> simp [Change.channel?, Change.id]

theorem Reached.remembers {registry : Registry α} {history : List (Change α)}
    (reached : Reached registry history) : Remembers registry history where
  contains id := by
    rw [contains_eq_isSome, Option.isSome_iff_exists]
    exact exists_congr fun channel => reached.get?_eq_some_iff
  size := by
    refine ⟨registry.entries.map Prod.fst, registry.distinct, List.length_map _, fun id => ?_⟩
    simp [Registry.contains]
  removed _ _ := reached.get?_eq_some_iff
  gone id further notAgain := by
    refine get?_applyAll_of_not_registered ?_ notAgain
    simp [remove, get?_deregister]

/-- A broadcast delivers to the entries at its start, once to each but the origin's, and counts the
deliveries; what they change comes to the registry in their order. -/
structure DeliversOnce (registry : Registry α) (origin : ConnectionId)
    (targets : List (ConnectionId × α)) (made : List (Delivery α)) (broadcast : Broadcast α σ) :
    Prop where
  once : (targets.map Prod.fst).Nodup
  present : ∀ id channel, (id, channel) ∈ targets ↔
    id ≠ origin ∧ registry.get? id = some channel
  length : made.length = targets.length
  calls : broadcast.calls = (targets.map Prod.snd).zip (made.map Delivery.accepted)
  delivered : broadcast.report.delivered = made.countP Delivery.accepted
  failed : broadcast.report.failed = made.countP fun delivery => !delivery.accepted
  total : broadcast.report.delivered + broadcast.report.failed = targets.length
  registry : broadcast.registry = registry.applyAll (changesOf made)

private theorem deliversOnce (registry : Registry α) (origin : ConnectionId)
    {targets : List (ConnectionId × α)} (snapshot : targets.Perm (registry.snapshotExcept origin))
    (deliver : σ → α → Delivery α × σ) (state : σ) :
    DeliversOnce registry origin targets (deliveries deliver state (targets.map Prod.snd))
      (registry.broadcastTo targets deliver state) := by
  have length := length_deliveries deliver state (targets.map Prod.snd)
  rw [List.length_map] at length
  obtain ⟨changed, calls, delivered, failed⟩ := foldl_deliver deliver targets
    { registry, state }
  simp only [List.nil_append, Nat.zero_add] at calls delivered failed
  constructor
  · exact (snapshot.map Prod.fst).nodup_iff.mpr (registry.snapshotExcept_distinct origin)
  · exact fun id channel => snapshot.mem_iff.trans mem_snapshotExcept
  · exact length
  · exact calls
  · exact delivered
  · exact failed
  · have parts := @List.length_eq_countP_add_countP _ Delivery.accepted
      (deliveries deliver state (targets.map Prod.snd))
    simp only [Bool.not_eq_true, Bool.decide_eq_false] at parts
    have total := parts.symm.trans length
    rw [← delivered, ← failed] at total
    exact total
  · exact changed

/-- Whatever its deliveries do to the registry, a broadcast goes to the entries it found. -/
theorem broadcast_on_snapshot {registry : Registry α} {history : List (Change α)}
    (reached : Reached registry history) (origin : ConnectionId)
    {targets : List (ConnectionId × α)} (snapshot : targets.Perm (registry.snapshotExcept origin))
    (deliver : σ → α → Delivery α × σ) (state : σ) :
    let made := deliveries deliver state (targets.map Prod.snd)
    let broadcast := registry.broadcastTo targets deliver state
    DeliversOnce registry origin targets made broadcast ∧
      Remembers broadcast.registry (history ++ changesOf made) :=
  ⟨deliversOnce registry origin snapshot deliver state,
    (Reached.broadcast deliver state reached snapshot).remembers⟩

/-- Three entries, two of them with the same channel. -/
def crowded : Registry Nat :=
  applyAll ∅ [.register 1 10, .register 2 10, .register 3 30]

/-- At its first call it removes a target whose turn has not come, gives the origin another channel
and adds an id; calls for channel 30 fail. -/
def meddle (first : Bool) (channel : Nat) : Delivery Nat × Bool :=
  (⟨channel != 30, if first then [.deregister 2, .register 1 11, .register 4 40] else []⟩, false)

theorem broadcast_on_snapshot_meddled :
    Reached crowded [.register 1 10, .register 2 10, .register 3 30] ∧
      (crowded.broadcastTo [(3, 30), (2, 10)] meddle true).calls = [(30, false), (10, true)] ∧
      (crowded.broadcastTo [(3, 30), (2, 10)] meddle true).report.delivered = 1 ∧
      (crowded.broadcastTo [(3, 30), (2, 10)] meddle true).registry.contains 2 = false ∧
      ((crowded.broadcastTo [(3, 30), (2, 10)] meddle true).registry.remove 1).1 = some 11 := by
  have reached : Reached crowded [.register 1 10, .register 2 10, .register 3 30] :=
    .changed (.register 3 30) (.changed (.register 2 10) (.changed (.register 1 10) .empty))
  have snapshot : [(3, 30), (2, 10)].Perm (crowded.snapshotExcept 1) := by decide
  obtain ⟨once, remembers⟩ := broadcast_on_snapshot reached 1 snapshot meddle true
  refine ⟨reached, once.calls, once.delivered, ?_, (remembers.removed 1 11).mpr rfl⟩
  rw [← Bool.not_eq_true, remembers.contains]
  rintro ⟨channel, last⟩
  cases last

end ChatHub.Registry
