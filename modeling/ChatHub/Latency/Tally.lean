/-!
How often each key was counted. The representation is canonical, so two tallies are equal as soon
as they agree on the count of every key.
-/

set_option autoImplicit false

namespace ChatHub

/-- The keys that were counted at all, ascending, with how often. -/
structure Tally where
  entries : List (Nat × Nat) := []
  ascending : entries.Pairwise (·.1 < ·.1) := by simp
  positive : ∀ entry ∈ entries, 0 < entry.2 := by simp

namespace Tally

instance : EmptyCollection Tally := ⟨{}⟩

instance : Inhabited Tally := ⟨∅⟩

def insert (key amount : Nat) : List (Nat × Nat) → List (Nat × Nat)
  | [] => [(key, amount)]
  | (other, count) :: rest =>
    if key < other then (key, amount) :: (other, count) :: rest
    else if key = other then (key, count + amount) :: rest
    else (other, count) :: insert key amount rest

theorem mem_insert {key amount : Nat} {entries : List (Nat × Nat)} {entry : Nat × Nat}
    (found : entry ∈ insert key amount entries) :
    entry ∈ entries ∨ entry.1 = key ∧ amount ≤ entry.2 := by
  induction entries with
  | nil => simp_all [insert]
  | cons first rest ih =>
    obtain ⟨other, count⟩ := first
    simp only [insert] at found
    split at found
    · grind
    · split at found <;> grind

theorem pairwise_insert {key amount : Nat} {entries : List (Nat × Nat)}
    (ascending : entries.Pairwise (·.1 < ·.1)) :
    (insert key amount entries).Pairwise (·.1 < ·.1) := by
  induction entries with
  | nil => simp [insert]
  | cons first rest ih =>
    obtain ⟨other, count⟩ := first
    rw [List.pairwise_cons] at ascending
    simp only [insert]
    split
    · rename_i below
      refine List.pairwise_cons.2 ⟨?_, List.pairwise_cons.2 ascending⟩
      intro entry found
      rcases List.mem_cons.1 found with rfl | found
      · exact below
      · exact Nat.lt_trans below (ascending.1 entry found)
    · split
      · rename_i same
        subst same
        exact List.pairwise_cons.2 ascending
      · rename_i notBelow different
        refine List.pairwise_cons.2 ⟨?_, ih ascending.2⟩
        intro entry found
        rcases mem_insert found with found | ⟨found, _⟩
        · exact ascending.1 entry found
        · simp only [found]
          omega

/-- Adds an amount to the count of a key. Nothing times counts nothing. -/
def add (tally : Tally) (key amount : Nat) : Tally :=
  if counted : 0 < amount then
    { entries := insert key amount tally.entries
      ascending := pairwise_insert tally.ascending
      positive := fun entry found => by
        rcases mem_insert found with found | found
        · exact tally.positive entry found
        · omega }
  else tally

def count (tally : Tally) (key : Nat) : Nat :=
  ((tally.entries.find? fun entry => entry.1 = key).map Prod.snd).getD 0

def total (tally : Tally) : Nat :=
  tally.entries.foldr (fun entry sum => entry.2 + sum) 0

def merge (tally other : Tally) : Tally :=
  other.entries.foldl (fun merged entry => merged.add entry.1 entry.2) tally

end Tally

end ChatHub
