import ChatHub.Roster
import Mathlib.Algebra.GroupWithZero.Nat
import Mathlib.Algebra.Order.BigOperators.Group.List
import Mathlib.Algebra.Order.Group.Nat
/-!
Rosters as functions of a name, and sums over what they hold. Main statement: `total_put_add`, by
which a sum changes with the one thing that is replaced.
-/

set_option autoImplicit false

namespace ChatHub.Roster

variable {κ α β : Type} [DecidableEq κ] {roster : Roster κ α} {name : κ} {item : α}

theorem get?_put (roster : Roster κ α) (name other : κ) (item : α) :
    (roster.put name item).get? other = if other = name then some item else roster.get? other := by
  by_cases same : other = name
  · rw [if_pos same, same, get?_put_self]
  · rw [if_neg same, get?_put_of_ne roster item same]

theorem get?_erase (roster : Roster κ α) (name other : κ) :
    (roster.erase name).get? other = if other = name then none else roster.get? other := by
  by_cases same : other = name
  · rw [if_pos same, same, get?_erase_self]
  · rw [if_neg same, get?_erase_of_ne roster same]

private theorem mem_of_get? (found : roster.get? name = some item) :
    (name, item) ∈ roster.entries := by
  obtain ⟨⟨other, held⟩, isFirst, rfl⟩ := Option.map_eq_some_iff.mp found
  obtain rfl : other = name := by simpa using List.find?_some isFirst
  exact List.mem_of_find?_eq_some isFirst

theorem isSome_get?_iff :
    (roster.get? name).isSome = true ↔ name ∈ roster.entries.map Prod.fst := by
  rw [get?, Option.isSome_map, List.isSome_find?, List.any_eq_true, List.mem_map]
  simp only [decide_eq_true_eq]

/-- Changes everything that is held, each thing together with its name. -/
def mapItems (roster : Roster κ α) (change : κ → α → β) : Roster κ β :=
  ⟨roster.entries.map fun entry => (entry.1, change entry.1 entry.2)⟩

theorem get?_mapItems (roster : Roster κ α) (change : κ → α → β) (name : κ) :
    (roster.mapItems change).get? name = (roster.get? name).map (change name) := by
  obtain ⟨entries⟩ := roster
  simp only [get?, mapItems]
  induction entries with
  | nil => rfl
  | cons entry rest ih =>
    by_cases same : entry.1 = name
    · simp [same]
    · simpa [same] using ih

omit [DecidableEq κ] in
theorem Distinct.mapItems (distinct : roster.Distinct) (change : κ → α → β) :
    (roster.mapItems change).Distinct := by
  rw [Distinct, Roster.mapItems, List.map_map]
  exact distinct

/-! ## Sums -/

def total (roster : Roster κ α) (weigh : κ → α → Nat) : Nat :=
  (roster.entries.map fun entry => weigh entry.1 entry.2).sum

theorem total_erase_add (found : roster.get? name = some item) (weigh : κ → α → Nat) :
    (roster.erase name).total weigh + weigh name item ≤ roster.total weigh := by
  have member := mem_of_get? found
  obtain ⟨entries⟩ := roster
  obtain ⟨before, after, parts⟩ := List.append_of_mem member
  have lighter (part : List (κ × α)) :
      ((part.filter fun entry => decide (entry.1 ≠ name)).map fun entry =>
        weigh entry.1 entry.2).sum ≤ (part.map fun entry => weigh entry.1 entry.2).sum :=
    (List.filter_sublist.map _).sum_le_sum fun _ _ => Nat.zero_le _
  have first := lighter before
  have last := lighter after
  rw [erase, total, total, show entries = _ from parts, List.filter_append,
    List.filter_cons_of_neg (by simp), List.map_append, List.map_append, List.map_cons,
    List.sum_append, List.sum_append, List.sum_cons]
  dsimp only
  omega

theorem total_put_add (found : roster.get? name = some item) (changed : α)
    (weigh : κ → α → Nat) :
    (roster.put name changed).total weigh + weigh name item ≤
      roster.total weigh + weigh name changed := by
  have rest := total_erase_add found weigh
  have whole : (roster.put name changed).total weigh =
      (roster.erase name).total weigh + weigh name changed := by
    simp only [total, put, List.map_append, List.map_cons, List.map_nil, List.sum_append,
      List.sum_singleton]
  omega

theorem total_lt {weigh lighter : κ → α → Nat}
    (each : ∀ name item, lighter name item ≤ weigh name item)
    (found : roster.get? name = some item) (less : lighter name item < weigh name item) :
    roster.total lighter < roster.total weigh :=
  List.sum_lt_sum _ _ (fun entry _ => each entry.1 entry.2) ⟨_, mem_of_get? found, less⟩

end ChatHub.Roster
