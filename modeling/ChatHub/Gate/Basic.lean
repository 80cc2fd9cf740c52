/-!
Barriers between a coordinator and its workers. A start gate is opened once; a completion gate
counts workers down to zero.
-/

set_option autoImplicit false

namespace ChatHub

/-- A gate that stays open once it has been opened. -/
structure StartGate where
  isOpen : Bool := false
  deriving DecidableEq, Repr, Inhabited

def StartGate.open (_ : StartGate) : StartGate :=
  { isOpen := true }

/-- How many workers have not finished yet. -/
structure CompletionGate where
  remaining : Nat
  deriving DecidableEq, Repr, Inhabited

namespace CompletionGate

/-- One worker has finished. At zero nothing happens. -/
def countDown (gate : CompletionGate) : CompletionGate :=
  { remaining := gate.remaining - 1 }

def isComplete (gate : CompletionGate) : Bool :=
  gate.remaining = 0

@[simp] theorem remaining_countDown (gate : CompletionGate) :
    gate.countDown.remaining = gate.remaining - 1 :=
  rfl

end CompletionGate

end ChatHub
