/-!
What all users of a load test count together.
-/

set_option autoImplicit false

namespace ChatHub

inductive Counted where
  | probe
  | timeout
  | connectFailure
  | linkFailure
  deriving DecidableEq, Repr

/-- How often each of them happened. -/
structure Counters where
  probes : Nat := 0
  timeouts : Nat := 0
  connectFailures : Nat := 0
  linkFailures : Nat := 0
  deriving DecidableEq, Repr, Inhabited

def Counters.count (counters : Counters) : Counted → Counters
  | .probe => { counters with probes := counters.probes + 1 }
  | .timeout => { counters with timeouts := counters.timeouts + 1 }
  | .connectFailure => { counters with connectFailures := counters.connectFailures + 1 }
  | .linkFailure => { counters with linkFailures := counters.linkFailures + 1 }

end ChatHub
