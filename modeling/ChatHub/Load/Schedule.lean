import ChatHub.Load.Population
/-!
One way to schedule a population on a virtual clock: everyone in turn does what is possible, and
time moves to the next timer once nothing is.
-/

set_option autoImplicit false

namespace ChatHub

/-- Takes turns until one in which nothing was possible, absent if that does not happen within a
number of turns. -/
def settleWithin {σ : Type} (turn : σ → Bool × σ) : Nat → σ → Option σ
  | 0, _ => none
  | turns + 1, state =>
    match turn state with
    | (true, next) => settleWithin turn turns next
    | (false, _) => some state

namespace Population

def indices (population : Population) : List Nat :=
  List.range population.users.length

/-- Takes those steps of a list that are possible when they come up, and says whether there was
any. -/
def takeAll (calendar : Nat → String) (population : Population) : List Move → Bool × Population
  | [] => (false, population)
  | move :: rest =>
    match population.step? calendar move with
    | none => population.takeAll calendar rest
    | some next => (true, (next.takeAll calendar rest).2)

/-- Lets a user go on until it has to wait, at most for a number of steps, and says whether there
was any. It looks for cancellation first. -/
def runUser (calendar : Nat → String) (index : Nat) : Nat → Population → Bool × Population
  | 0, population => (false, population)
  | steps + 1, population =>
    match population.takeAll calendar [.cancel index, .proceed index] with
    | (true, next) => (true, (runUser calendar index steps next).2)
    | (false, _) => (false, population)

/-- More steps than a user takes from one wait to the next. -/
def stepLimit : Nat := 50

def runUsers (calendar : Nat → String) (population : Population) : List Nat → Bool × Population
  | [] => (false, population)
  | index :: rest =>
    let (moved, population) := runUser calendar index stepLimit population
    let (movedLater, population) := population.runUsers calendar rest
    (moved || movedLater, population)

/-- One turn of everyone: each user goes on, and then each pump moves one message. A probe reaches
nobody before all users had their turn. -/
def turn (calendar : Nat → String) (population : Population) : Bool × Population :=
  let (moved, population) := population.runUsers calendar population.indices
  let (pumped, population) := population.takeAll calendar (population.indices.map .pump)
  (moved || pumped, population)

/-- More turns than a population that can come to rest needs at one moment. -/
def turnLimit : Nat := 100000

def settle (calendar : Nat → String) (population : Population) : Option Population :=
  settleWithin (turn calendar) turnLimit population

def nextTimer? (population : Population) : Option Nat :=
  (population.users.filterMap (·.phase.timer)).min?

def moveTo (population : Population) (time : Nat) : Population :=
  { population with now := max population.now time }

/-- Lets time pass until a moment, and everything happen that is due by then. Each timer on the
way takes one unit of fuel. -/
def runUntilWithin (calendar : Nat → String) (moment : Nat) : Nat → Population → Option Population
  | 0, _ => none
  | fuel + 1, population => do
    let settled ← population.settle calendar
    match settled.nextTimer?.filter (· ≤ moment) with
    | some time => runUntilWithin calendar moment fuel (settled.moveTo time)
    | none => (settled.moveTo moment).settle calendar

/-- Timers lie ahead once a population has settled, so there are at most as many of them as there
are moments. -/
def runUntil (calendar : Nat → String) (moment : Nat) (population : Population) :
    Option Population :=
  population.runUntilWithin calendar moment (moment - population.now + 2)

def abortAll (calendar : Nat → String) (population : Population) : Population :=
  (population.takeAll calendar (population.indices.map .abort)).2

end Population

end ChatHub
