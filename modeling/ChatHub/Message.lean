/-!
Chat messages. A peer sends a sender name and a text; the hub adds the time and passes both on
unchanged.
-/

set_option autoImplicit false

namespace ChatHub

/-- What a peer sends. It carries no time: the hub owns the clock. -/
structure Inbound where
  sender : String
  text : String
  deriving DecidableEq, Repr, Inhabited

/-- What the hub passes on to every other peer. -/
structure Stamped where
  sender : String
  text : String
  timestamp : String
  deriving DecidableEq, Repr, Inhabited

def Inbound.stamp (message : Inbound) (timestamp : String) : Stamped :=
  { sender := message.sender, text := message.text, timestamp }

def Stamped.inbound (message : Stamped) : Inbound :=
  { sender := message.sender, text := message.text }

@[simp] theorem Inbound.inbound_stamp (message : Inbound) (timestamp : String) :
    (message.stamp timestamp).inbound = message :=
  rfl

end ChatHub
