/-!
Unbounded first-in first-out queues. `toList` lists a queue from its oldest item on; every
operation is described by what it does to that list.
-/

set_option autoImplicit false

namespace ChatHub

/-- A queue in two parts: the items to be taken next, and the items added since, latest first. -/
structure Fifo (α : Type) where
  front : List α := []
  back : List α := []
  deriving Repr, Inhabited

namespace Fifo

variable {α : Type}

def toList (queue : Fifo α) : List α :=
  queue.front ++ queue.back.reverse

def push (queue : Fifo α) (item : α) : Fifo α :=
  { queue with back := item :: queue.back }

def pop? (queue : Fifo α) : Option (α × Fifo α) :=
  match queue.front with
  | item :: front => some (item, { queue with front })
  | [] =>
    match queue.back.reverse with
    | item :: front => some (item, { front })
    | [] => none

def size (queue : Fifo α) : Nat :=
  queue.front.length + queue.back.length

@[simp] theorem toList_empty : ({} : Fifo α).toList = [] :=
  rfl

@[simp] theorem toList_push (queue : Fifo α) (item : α) :
    (queue.push item).toList = queue.toList ++ [item] := by
  simp [toList, push]

@[simp] theorem length_toList (queue : Fifo α) : queue.toList.length = queue.size := by
  simp [toList, size]

theorem pop?_eq_none_iff (queue : Fifo α) : queue.pop? = none ↔ queue.toList = [] := by
  obtain ⟨front, back⟩ := queue
  cases front with
  | cons item front => simp [pop?, toList]
  | nil => cases reversed : back.reverse <;> simp [pop?, toList, reversed]

theorem pop?_eq_some {queue rest : Fifo α} {item : α} (taken : queue.pop? = some (item, rest)) :
    queue.toList = item :: rest.toList := by
  obtain ⟨front, back⟩ := queue
  cases front with
  | cons first front =>
    simp only [pop?, Option.some.injEq, Prod.mk.injEq] at taken
    obtain ⟨rfl, rfl⟩ := taken
    rfl
  | nil =>
    cases reversed : back.reverse with
    | nil => simp [pop?, reversed] at taken
    | cons first front =>
      simp only [pop?, reversed, Option.some.injEq, Prod.mk.injEq] at taken
      obtain ⟨rfl, rfl⟩ := taken
      simp [toList, reversed]

end Fifo

end ChatHub
