/-!
Named things that one party holds. A name holds at most one thing, and putting something under a
name that is taken replaces it.
-/

set_option autoImplicit false

namespace ChatHub

/-- Things by name, in the order in which they were put there. -/
structure Roster (κ α : Type) where
  entries : List (κ × α) := []
  deriving DecidableEq, Repr, Inhabited

namespace Roster

variable {κ α : Type} [DecidableEq κ]

def get? (roster : Roster κ α) (name : κ) : Option α :=
  (roster.entries.find? fun entry => entry.1 = name).map Prod.snd

def contains (roster : Roster κ α) (name : κ) : Bool :=
  (roster.get? name).isSome

def erase (roster : Roster κ α) (name : κ) : Roster κ α :=
  ⟨roster.entries.filter fun entry => entry.1 ≠ name⟩

/-- Puts something under a name, in place of what was there. -/
def put (roster : Roster κ α) (name : κ) (item : α) : Roster κ α :=
  ⟨(roster.erase name).entries ++ [(name, item)]⟩

@[simp] theorem get?_empty (name : κ) : ({} : Roster κ α).get? name = none :=
  rfl

@[simp] theorem get?_erase_self (roster : Roster κ α) (name : κ) :
    (roster.erase name).get? name = none := by
  simp [get?, erase]

theorem get?_erase_of_ne (roster : Roster κ α) {name other : κ} (different : other ≠ name) :
    (roster.erase name).get? other = roster.get? other := by
  obtain ⟨entries⟩ := roster
  simp only [get?, erase, List.find?_filter]
  congr 2
  funext entry
  by_cases same : entry.1 = other <;> simp [same, different]

@[simp] theorem get?_put_self (roster : Roster κ α) (name : κ) (item : α) :
    (roster.put name item).get? name = some item := by
  have absent : (roster.erase name).entries.find? (fun entry => entry.1 = name) = none := by
    simp [erase]
  simp [get?, put, List.find?_append, absent]

theorem get?_put_of_ne (roster : Roster κ α) {name other : κ} (item : α)
    (different : other ≠ name) : (roster.put name item).get? other = roster.get? other := by
  rw [← get?_erase_of_ne roster different]
  simp [get?, put, List.find?_append, Ne.symm different]

def Distinct (roster : Roster κ α) : Prop :=
  (roster.entries.map Prod.fst).Nodup

omit [DecidableEq κ] in
theorem distinct_empty : ({} : Roster κ α).Distinct :=
  List.nodup_nil

theorem Distinct.erase {roster : Roster κ α} (distinct : roster.Distinct) (name : κ) :
    (roster.erase name).Distinct :=
  List.Nodup.sublist (List.filter_sublist.map Prod.fst) distinct

theorem Distinct.put {roster : Roster κ α} (distinct : roster.Distinct) (name : κ) (item : α) :
    (roster.put name item).Distinct := by
  have absent : name ∉ (roster.erase name).entries.map Prod.fst := by
    simp [Roster.erase]
  simp only [Distinct, Roster.put, List.map_append, List.map_cons, List.map_nil]
  rw [List.nodup_append]
  refine ⟨distinct.erase name, by simp, ?_⟩
  rintro other member last isLast rfl
  rw [List.mem_singleton] at isLast
  exact absent (isLast ▸ member)

theorem erase_of_get?_eq_none {roster : Roster κ α} {name : κ} (absent : roster.get? name = none) :
    roster.erase name = roster := by
  obtain ⟨entries⟩ := roster
  rw [get?, Option.map_eq_none_iff, List.find?_eq_none] at absent
  simp only [erase, mk.injEq, List.filter_eq_self]
  intro entry member
  simpa using absent entry member

theorem Distinct.perm_of_get? {roster : Roster κ α} (distinct : roster.Distinct) {name : κ}
    {item : α} (found : roster.get? name = some item) :
    roster.entries.Perm ((name, item) :: (roster.erase name).entries) := by
  obtain ⟨entries⟩ := roster
  simp only [get?, Roster.erase, Distinct] at found distinct ⊢
  induction entries with
  | nil => simp at found
  | cons first rest ih =>
    obtain ⟨other, held⟩ := first
    simp only [List.map_cons, List.nodup_cons] at distinct
    by_cases same : other = name
    · subst same
      have kept : rest.filter (fun entry => decide (entry.1 ≠ other)) = rest := by
        refine List.filter_eq_self.mpr fun entry member => decide_eq_true fun equal => ?_
        exact distinct.1 (equal ▸ List.mem_map_of_mem member)
      simp only [List.find?_cons, decide_true, Option.map_some, Option.some.injEq] at found
      rw [found, List.filter_cons_of_neg (by simp), kept]
    · simp only [List.find?_cons, same, decide_false] at found
      rw [List.filter_cons_of_pos (by simpa using same)]
      exact ((ih distinct.2 found).cons (other, held)).trans (List.Perm.swap _ _ _)

end Roster

end ChatHub
