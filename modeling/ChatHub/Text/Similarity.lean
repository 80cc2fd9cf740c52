/-!
How similar two texts are, from nothing in common to equality, by the characters that they share
near the same places and by how many of those stand in another order.
-/

set_option autoImplicit false

namespace ChatHub.Similarity

/-- The characters of one text that have a partner in another, each with its partner's place. A
partner is the first character of the other text that is equal, no further away than `reach`, and
not yet taken. `index` is the place of the first character. -/
def partners (reach : Nat) (other : List Char) (taken : List Nat) (index : Nat) :
    List Char → List (Char × Nat)
  | [] => []
  | character :: rest =>
    let partner? := other.zipIdx.find? fun entry =>
      entry.1 == character && index ≤ entry.2 + reach && entry.2 ≤ index + reach
        && !taken.contains entry.2
    match partner? with
    | some (_, place) =>
      (character, place) :: partners reach other (place :: taken) (index + 1) rest
    | none => partners reach other taken (index + 1) rest

/-- How many characters with partners stand in another order than their partners. -/
def misplaced (other : List Char) (paired : List (Char × Nat)) : Nat :=
  let places := (paired.map Prod.snd).mergeSort (· ≤ ·)
  let ordered := places.filterMap fun place => other[place]?
  ((paired.map Prod.fst).zip ordered).countP fun entry => entry.1 != entry.2

/-- The mean of three shares: of the one text that has partners, of the other, and of the
characters with partners that need not be exchanged. -/
def score (text other : List Char) : Float :=
  if text.isEmpty && other.isEmpty then 1.0
  else
    let paired := partners (max text.length other.length / 2 - 1) other [] 0 text
    if paired.isEmpty then 0.0
    else
      let count := paired.length
      let exchanges := misplaced other paired / 2
      (count.toFloat / text.length.toFloat + count.toFloat / other.length.toFloat
        + (count - exchanges).toFloat / count.toFloat) / 3.0

/-- Those of some names that are similar to a text, the most similar one last. -/
def similar (text : String) (names : List String) : List String :=
  let scored := names.map fun name => (score text.toList name.toList, name)
  ((scored.filter fun entry => entry.1 > 0.7).mergeSort fun left right => left.1 ≤ right.1).map
    Prod.snd

end ChatHub.Similarity
