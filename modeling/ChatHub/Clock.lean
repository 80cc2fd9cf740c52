/-!
A virtual clock in milliseconds. Time stands still while anything can run and then moves to the
next event.
-/

set_option autoImplicit false

namespace ChatHub

/-- The present and the events to come, earliest first, those of one moment in the order they were
scheduled. -/
structure Agenda (α : Type) where
  now : Nat := 0
  pending : List (Nat × α) := []
  deriving Repr, Inhabited

namespace Agenda

variable {α : Type}

/-- Puts an event behind all that are due no later. -/
def insert (due : Nat) (event : α) : List (Nat × α) → List (Nat × α)
  | [] => [(due, event)]
  | other :: rest =>
    if other.1 ≤ due then other :: insert due event rest else (due, event) :: other :: rest

def schedule (agenda : Agenda α) (delay : Nat) (event : α) : Agenda α :=
  { agenda with pending := insert (agenda.now + delay) event agenda.pending }

/-- Takes the next event and moves to its time, if that comes before a moment. -/
def nextBefore? (agenda : Agenda α) (moment : Nat) : Option (α × Agenda α) :=
  match agenda.pending with
  | [] => none
  | (due, event) :: rest =>
    if due < moment then some (event, ⟨max agenda.now due, rest⟩) else none

def advanceTo (agenda : Agenda α) (moment : Nat) : Agenda α :=
  { agenda with now := max agenda.now moment }

theorem nextBefore?_length {agenda later : Agenda α} {moment : Nat} {event : α}
    (next : agenda.nextBefore? moment = some (event, later)) :
    later.pending.length < agenda.pending.length := by
  unfold nextBefore? at next
  split at next
  · simp at next
  · rename_i pending
    split at next
    · simp only [Option.some.injEq, Prod.mk.injEq] at next
      simp [← next.2, pending]
    · simp at next

end Agenda

end ChatHub
