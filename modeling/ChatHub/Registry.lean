/-!
Delivery channels keyed by connection id. A broadcast copies the channels out first and delivers
to the copy, so whatever the deliveries do to the registry has no effect on the broadcast itself.
-/

set_option autoImplicit false

namespace ChatHub

/-- Handed out once for each attached connection and never again. -/
abbrev ConnectionId := Nat

/-- A finite map from connection ids. No id occurs twice. -/
structure Registry (α : Type) where
  entries : List (ConnectionId × α) := []
  distinct : (entries.map Prod.fst).Nodup := by simp

structure DeliveryReport where
  delivered : Nat := 0
  failed : Nat := 0
  deriving DecidableEq, Repr, Inhabited

def DeliveryReport.count (report : DeliveryReport) (accepted : Bool) : DeliveryReport :=
  if accepted then { report with delivered := report.delivered + 1 }
  else { report with failed := report.failed + 1 }

theorem DeliveryReport.delivered_count (report : DeliveryReport) (accepted : Bool) :
    (report.count accepted).delivered = report.delivered + if accepted then 1 else 0 := by
  cases accepted <;> rfl

theorem DeliveryReport.failed_count (report : DeliveryReport) (accepted : Bool) :
    (report.count accepted).failed = report.failed + if !accepted then 1 else 0 := by
  cases accepted <;> rfl

namespace Registry

variable {α : Type}

instance : EmptyCollection (Registry α) := ⟨{}⟩

instance : Inhabited (Registry α) := ⟨∅⟩

def others (id : ConnectionId) (entries : List (ConnectionId × α)) :
    List (ConnectionId × α) :=
  entries.filter fun entry => entry.1 ≠ id

theorem others_distinct {entries : List (ConnectionId × α)} (id : ConnectionId)
    (distinct : (entries.map Prod.fst).Nodup) :
    ((others id entries).map Prod.fst).Nodup :=
  List.Nodup.sublist ((List.filter_sublist).map Prod.fst) distinct

theorem not_mem_others (id : ConnectionId) (entries : List (ConnectionId × α)) :
    id ∉ (others id entries).map Prod.fst := by
  simp [others]

def get? (registry : Registry α) (id : ConnectionId) : Option α :=
  (registry.entries.find? fun entry => entry.1 = id).map Prod.snd

def contains (registry : Registry α) (id : ConnectionId) : Bool :=
  registry.entries.any fun entry => entry.1 = id

def size (registry : Registry α) : Nat :=
  registry.entries.length

def isEmpty (registry : Registry α) : Bool :=
  registry.entries.isEmpty

def register (registry : Registry α) (id : ConnectionId) (channel : α) : Registry α where
  entries := others id registry.entries ++ [(id, channel)]
  distinct := by
    rw [List.map_append, List.nodup_append]
    refine ⟨others_distinct id registry.distinct, by simp, ?_⟩
    rintro other member _ last rfl
    simp only [List.map_cons, List.map_nil, List.mem_singleton] at last
    exact not_mem_others id registry.entries (last ▸ member)

/-- Removes an id; an absent one changes nothing. -/
def deregister (registry : Registry α) (id : ConnectionId) : Registry α where
  entries := others id registry.entries
  distinct := others_distinct id registry.distinct

def remove (registry : Registry α) (id : ConnectionId) : Option α × Registry α :=
  (registry.get? id, registry.deregister id)

def modify (registry : Registry α) (id : ConnectionId) (change : α → α) : Registry α where
  entries := registry.entries.map fun entry =>
    if entry.1 = id then (entry.1, change entry.2) else entry
  distinct := by
    have same : (Prod.fst ∘ fun entry : ConnectionId × α =>
        if entry.1 = id then (entry.1, change entry.2) else entry) = Prod.fst := by
      funext entry
      by_cases this : entry.1 = id <;> simp [this]
    rw [List.map_map, same]
    exact registry.distinct

def snapshotExcept (registry : Registry α) (origin : ConnectionId) : List (ConnectionId × α) :=
  others origin registry.entries

theorem contains_eq_isSome (registry : Registry α) (id : ConnectionId) :
    registry.contains id = (registry.get? id).isSome := by
  rw [contains, get?, Option.isSome_map, List.isSome_find?]

theorem get?_eq_none_of_not_mem {registry : Registry α} {id : ConnectionId}
    (absent : id ∉ registry.entries.map Prod.fst) : registry.get? id = none := by
  simp only [get?, Option.map_eq_none_iff, List.find?_eq_none, decide_eq_true_eq]
  intro entry member same
  exact absent (same ▸ List.mem_map_of_mem member)

theorem get?_eq_some_iff {registry : Registry α} {id : ConnectionId} {channel : α} :
    registry.get? id = some channel ↔ (id, channel) ∈ registry.entries := by
  obtain ⟨entries, distinct⟩ := registry
  simp only [get?]
  induction entries with
  | nil => simp
  | cons entry rest ih =>
    obtain ⟨other, held⟩ := entry
    simp only [List.map_cons, List.nodup_cons] at distinct
    by_cases same : other = id
    · subst same
      have unlisted : (other, channel) ∉ rest := fun member =>
        distinct.1 (List.mem_map_of_mem (f := Prod.fst) member)
      simp [unlisted, eq_comm]
    · have found := ih distinct.2
      simp only [List.find?_cons, same, decide_false, found, List.mem_cons, Prod.mk.injEq,
        Ne.symm same, false_and, false_or]

@[simp] theorem get?_empty (id : ConnectionId) : (∅ : Registry α).get? id = none :=
  rfl

@[simp] theorem get?_register_self (registry : Registry α) (id : ConnectionId) (channel : α) :
    (registry.register id channel).get? id = some channel := by
  rw [get?_eq_some_iff]
  simp [register]

theorem get?_deregister (registry : Registry α) (id other : ConnectionId) :
    (registry.deregister id).get? other = if other = id then none else registry.get? other := by
  by_cases same : other = id
  · subst same
    rw [if_pos rfl]
    exact get?_eq_none_of_not_mem (not_mem_others other registry.entries)
  · rw [if_neg same]
    apply Option.ext
    intro channel
    rw [get?_eq_some_iff, get?_eq_some_iff]
    simp [deregister, others, same]

theorem get?_register (registry : Registry α) (id other : ConnectionId) (channel : α) :
    (registry.register id channel).get? other =
      if other = id then some channel else registry.get? other := by
  by_cases same : other = id
  · subst same
    rw [if_pos rfl, get?_register_self]
  · rw [if_neg same]
    apply Option.ext
    intro held
    rw [get?_eq_some_iff, get?_eq_some_iff]
    simp [register, others, same]

theorem get?_modify (registry : Registry α) (id other : ConnectionId) (change : α → α) :
    (registry.modify id change).get? other =
      if other = id then (registry.get? other).map change else registry.get? other := by
  obtain ⟨entries, distinct⟩ := registry
  simp only [get?, modify, List.find?_map, Option.map_map]
  have sameName : ((fun entry : ConnectionId × α => decide (entry.1 = other)) ∘ fun entry =>
      if entry.1 = id then (entry.1, change entry.2) else entry) =
      fun entry => decide (entry.1 = other) := by
    funext entry
    by_cases this : entry.1 = id <;> simp [this]
  rw [sameName]
  cases found : entries.find? (fun entry => decide (entry.1 = other)) with
  | none => simp
  | some entry =>
    have name : entry.1 = other := by simpa using List.find?_some found
    by_cases same : other = id <;> simp [name, same]

theorem modify_eq_self {registry : Registry α} {id : ConnectionId} {channel : α}
    (found : registry.get? id = some channel) :
    (registry.modify id fun _ => channel) = registry := by
  obtain ⟨entries, distinct⟩ := registry
  have unchanged : (entries.map fun entry : ConnectionId × α =>
      if entry.1 = id then (entry.1, channel) else entry) = entries := by
    refine (List.map_congr_left ?_).trans (List.map_id entries)
    intro entry member
    by_cases this : entry.1 = id
    · have held : get? ⟨entries, distinct⟩ entry.1 = some entry.2 := get?_eq_some_iff.mpr member
      rw [this, found] at held
      simp only [this, if_true, id_eq, Option.some.inj held]
      exact Prod.ext this.symm rfl
    · simp [this]
  simp only [modify, mk.injEq]
  exact unchanged

theorem mem_snapshotExcept {registry : Registry α} {origin : ConnectionId}
    {target : ConnectionId × α} :
    target ∈ registry.snapshotExcept origin ↔
      target.1 ≠ origin ∧ registry.get? target.1 = some target.2 := by
  rw [get?_eq_some_iff]
  simp [snapshotExcept, others, and_comm]

theorem snapshotExcept_distinct (registry : Registry α) (origin : ConnectionId) :
    ((registry.snapshotExcept origin).map Prod.fst).Nodup :=
  others_distinct origin registry.distinct

/-- A change that a delivery makes to the registry. -/
inductive Change (α : Type) where
  | register (id : ConnectionId) (channel : α)
  | deregister (id : ConnectionId)
  deriving DecidableEq, Repr

def apply (registry : Registry α) : Change α → Registry α
  | .register id channel => registry.register id channel
  | .deregister id => registry.deregister id

def applyAll (registry : Registry α) (changes : List (Change α)) : Registry α :=
  changes.foldl apply registry

/-- What one delivery did: whether the channel took the message, and the changes it made to the
registry while it ran. -/
structure Delivery (α : Type) where
  accepted : Bool
  changes : List (Change α) := []
  deriving DecidableEq, Repr

/-- A broadcast under way: the registry as the deliveries have left it, the state they share, the
report so far and the channels called, in order. -/
structure Broadcast (α σ : Type) where
  registry : Registry α
  state : σ
  report : DeliveryReport := {}
  calls : List (α × Bool) := []

def Broadcast.deliver {σ : Type} (broadcast : Broadcast α σ)
    (deliver : σ → α → Delivery α × σ) (channel : α) : Broadcast α σ :=
  let (delivery, state) := deliver broadcast.state channel
  { registry := broadcast.registry.applyAll delivery.changes
    state
    report := broadcast.report.count delivery.accepted
    calls := broadcast.calls ++ [(channel, delivery.accepted)] }

def broadcastTo {σ : Type} (registry : Registry α) (targets : List (ConnectionId × α))
    (deliver : σ → α → Delivery α × σ) (state : σ) : Broadcast α σ :=
  targets.foldl (fun broadcast target => broadcast.deliver deliver target.2) { registry, state }

/-- Delivers to every channel but the origin's. The targets are the entries at the start, whatever
the deliveries register or deregister; one that fails keeps none of the others from its turn. -/
def broadcastExcept {σ : Type} (registry : Registry α) (origin : ConnectionId)
    (deliver : σ → α → Delivery α × σ) (state : σ) : Broadcast α σ :=
  registry.broadcastTo (registry.snapshotExcept origin) deliver state

end Registry

end ChatHub
