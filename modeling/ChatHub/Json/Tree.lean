import ChatHub.Decimal.Shortest
/-!
Documents that are printed for people: one member to a line, two spaces deeper at each level.
-/

set_option autoImplicit false

namespace ChatHub.Json

/-- A document without strings and arrays. Member names need no escapes. -/
inductive Tree where
  | null
  | whole (value : Nat)
  | double (value : Float)
  | object (members : List (String × Tree))

namespace Tree

/-- A double that is finite, and null for the others. -/
def doubleText (value : Float) : String :=
  (Decimal.shortestText? value).getD "null"

def lineBreak (depth : Nat) : String :=
  "\n" ++ String.ofList (List.replicate (2 * depth) ' ')

mutual

def textAt (depth : Nat) : Tree → String
  | .null => "null"
  | .whole value => toString value
  | .double value => doubleText value
  | .object [] => "\x7b\x7d"
  | .object (first :: rest) =>
    "\x7b" ++ membersText (depth + 1) (first :: rest) ++ lineBreak depth ++ "\x7d"

def membersText (depth : Nat) : List (String × Tree) → String
  | [] => ""
  | (name, value) :: rest =>
    lineBreak depth ++ "\"" ++ name ++ "\": " ++ textAt depth value
      ++ (if rest.isEmpty then "" else ",") ++ membersText depth rest

end

def text (tree : Tree) : String :=
  tree.textAt 0

end Tree

end ChatHub.Json
