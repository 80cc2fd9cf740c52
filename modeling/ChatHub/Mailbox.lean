import ChatHub.Fifo
import ChatHub.Message
/-!
The receiving end of a connection: an unbounded queue of broadcasts. Messages that were queued
before the sending side went away can still be taken.
-/

set_option autoImplicit false

namespace ChatHub

/-- A queue of messages. `held` says whether someone still owns the receiving end; without an
owner nothing can be put in. -/
structure Mailbox where
  queue : Fifo Stamped := {}
  held : Bool := true
  deriving Repr, Inhabited

/-- The outcome of a bounded wait. -/
inductive Received where
  | message (message : Stamped)
  | timedOut
  | closed
  deriving DecidableEq, Repr

namespace Mailbox

def deliver (mailbox : Mailbox) (message : Stamped) : Mailbox :=
  if mailbox.held then { mailbox with queue := mailbox.queue.push message } else mailbox

def drop (_ : Mailbox) : Mailbox :=
  { queue := {}, held := false }

def messages (mailbox : Mailbox) : List Stamped :=
  mailbox.queue.toList

/-- What a receive finds at this moment: a message first of all, then the end of the sending side.
Absent means that the receiver has to wait. -/
def poll (mailbox : Mailbox) (senderGone : Bool) : Option Received × Mailbox :=
  match mailbox.queue.pop? with
  | some (message, queue) => (some (.message message), { mailbox with queue })
  | none => (if senderGone then some .closed else none, mailbox)

def drain (mailbox : Mailbox) : List Stamped × Mailbox :=
  (mailbox.messages, { mailbox with queue := {} })

@[simp] theorem messages_empty : ({} : Mailbox).messages = [] :=
  rfl

@[simp] theorem messages_drop (mailbox : Mailbox) : mailbox.drop.messages = [] :=
  rfl

@[simp] theorem held_drop (mailbox : Mailbox) : mailbox.drop.held = false :=
  rfl

@[simp] theorem held_deliver (mailbox : Mailbox) (message : Stamped) :
    (mailbox.deliver message).held = mailbox.held := by
  unfold deliver
  split <;> rfl

theorem messages_deliver {mailbox : Mailbox} (held : mailbox.held = true) (message : Stamped) :
    (mailbox.deliver message).messages = mailbox.messages ++ [message] := by
  simp [deliver, messages, held]

theorem poll_cases (mailbox : Mailbox) (senderGone : Bool) :
    (∃ message rest, mailbox.poll senderGone = (some (.message message), rest) ∧
      mailbox.messages = message :: rest.messages ∧ rest.held = mailbox.held) ∨
    (mailbox.messages = [] ∧
      mailbox.poll senderGone = (if senderGone then some .closed else none, mailbox)) := by
  unfold poll
  cases taken : mailbox.queue.pop? with
  | none => exact .inr ⟨(Fifo.pop?_eq_none_iff mailbox.queue).mp taken, rfl⟩
  | some found => exact .inl ⟨found.1, _, rfl, Fifo.pop?_eq_some taken, rfl⟩

end Mailbox

end ChatHub
