/-!
Runs of a step relation, with what happened in each step. Main statements: `Trace.append` and
`Trace.split`, by which a run is cut where its log is.
-/

set_option autoImplicit false

namespace ChatHub

/-- Any number of steps, with their log. -/
inductive Trace {σ ε : Type} (step : σ → ε → σ → Prop) : σ → List ε → σ → Prop where
  | nil {state : σ} : Trace step state [] state
  | cons {first middle last : σ} {event : ε} {events : List ε} :
      step first event middle → Trace step middle events last →
        Trace step first (event :: events) last

namespace Trace

variable {σ ε : Type} {step : σ → ε → σ → Prop} {first middle last : σ} {earlier later : List ε}

theorem append (before : Trace step first earlier middle) (after : Trace step middle later last) :
    Trace step first (earlier ++ later) last := by
  induction before with
  | nil => exact after
  | cons taken _ ih => exact .cons taken (ih after)

theorem split (run : Trace step first (earlier ++ later) last) :
    ∃ middle, Trace step first earlier middle ∧ Trace step middle later last := by
  induction earlier generalizing first with
  | nil => exact ⟨first, .nil, run⟩
  | cons event rest ih =>
    cases run with
    | cons taken run =>
      obtain ⟨middle, before, after⟩ := ih run
      exact ⟨middle, .cons taken before, after⟩

end Trace

end ChatHub
