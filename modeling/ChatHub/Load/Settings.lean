/-!
The times of a load test, in milliseconds.
-/

set_option autoImplicit false

namespace ChatHub

structure ProbeSettings where
  waitBound : Nat := 10000
  pacing : Nat := 10
  deriving DecidableEq, Repr, Inhabited

/-- A whole run: the delay between spawning the users and opening the start gate, and the bound on
the wait for users to stop. -/
structure BenchConfig where
  probe : ProbeSettings := {}
  warmup : Nat := 3000
  grace : Nat := 30000
  deriving DecidableEq, Repr, Inhabited

end ChatHub
