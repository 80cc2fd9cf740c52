import ChatHub.Load.Schedule
import Mathlib.Logic.Relation
/-!
Tasks that take turns, whatever system they belong to. Main statements: `Winds.settle`, by which
tasks that lower a measure come to rest, and `acc_of_lowers` and `acc_between`, by which they do
not go on for ever although time passes in between.
-/

set_option autoImplicit false

namespace ChatHub

open Relation

variable {σ : Type}

/-! ## Turns -/

/-- What comes of a turn that tells whether any task took a step in it. -/
inductive Turned (task : σ → σ → Prop) (before : σ) : Bool × σ → Prop where
  | moved {after : σ} : TransGen task before after → Turned task before (true, after)
  | still : Turned task before (false, before)

namespace Turned

variable {τ : Type} {task : σ → σ → Prop} {before : σ} {turn : Bool × σ}

theorem path (turned : Turned task before turn) (moved : turn.1 = true) :
    TransGen task before turn.2 := by
  cases turned with
  | moved path => exact path
  | still => cases moved

theorem same (turned : Turned task before turn) (still : turn.1 = false) : turn.2 = before := by
  cases turned with
  | moved _ => cases still
  | still => rfl

theorem works (turned : Turned task before turn) : ReflTransGen task before turn.2 := by
  cases turned with
  | moved path => exact path.to_reflTransGen
  | still => exact .refl

theorem or {later : Bool × σ} (turned : Turned task before turn)
    (next : Turned task turn.2 later) : Turned task before (turn.1 || later.1, later.2) := by
  cases turned with
  | moved path => exact .moved (path.trans_left next.works)
  | still => exact next

theorem lift {other : τ → τ → Prop} (within : σ → τ)
    (step : ∀ before after, task before after → other (within before) (within after))
    (turned : Turned task before turn) : Turned other (within before) (turn.1, within turn.2) := by
  cases turned with
  | moved path => exact .moved (path.lift within step)
  | still => exact .still

end Turned

/-- Tasks that take turns at one moment. -/
structure Turns (σ : Type) where
  task : σ → σ → Prop
  turn : σ → Bool × σ
  turned : ∀ state, Turned task state (turn state)

namespace Turns

variable {system : Turns σ} {state : σ}

theorem settle_spec {turns : Nat} {settled : σ}
    (result : settleWithin system.turn turns state = some settled) :
    ReflTransGen system.task state settled ∧ (system.turn settled).1 = false := by
  induction turns generalizing state with
  | zero => cases result
  | succ turns ih =>
    have turned := system.turned state
    rw [settleWithin] at result
    split at result
    · rename_i next moved
      rw [moved] at turned
      obtain ⟨works, still⟩ := ih result
      exact ⟨turned.works.trans works, still⟩
    · rename_i still
      cases result
      exact ⟨.refl, congrArg Prod.fst still⟩

/-- What steps of tasks preserve at one moment, with a measure that they lower and that leaves room
for so many turns. -/
structure Winds (system : Turns σ) (now : σ → Nat) (turns : Nat) (Holds : σ → Prop)
    (measure : σ → Nat) : Prop where
  task : ∀ {before after : σ}, Holds before → system.task before after →
    Holds after ∧ now after = now before ∧ measure after < measure before
  few : ∀ {state : σ}, Holds state → measure state < turns

namespace Winds

variable {now measure : σ → Nat} {turns moment : Nat} {Holds : σ → Prop}

theorem path {after : σ} (winds : system.Winds now turns Holds measure) (holds : Holds state)
    (path : TransGen system.task state after) :
    Holds after ∧ now after = now state ∧ measure after < measure state := by
  induction path with
  | single step => exact winds.task holds step
  | tail _ step ih =>
    obtain ⟨holds, same, less⟩ := ih
    obtain ⟨kept, still, lower⟩ := winds.task holds step
    exact ⟨kept, still.trans same, Nat.lt_trans lower less⟩

/-- Each turn lowers the measure, so the tasks come to rest within as many turns. -/
theorem settle (winds : system.Winds now turns Holds measure) (holds : Holds state) :
    ∃ settled, settleWithin system.turn turns state = some settled ∧ Holds settled ∧
      now settled = now state ∧ (system.turn settled).1 = false := by
  have within : ∀ (turns : Nat) (state : σ), Holds state → measure state < turns →
      ∃ settled, settleWithin system.turn turns state = some settled ∧ Holds settled ∧
        now settled = now state ∧ (system.turn settled).1 = false := by
    intro turns
    induction turns with
    | zero => exact fun _ _ few => absurd few (Nat.not_lt_zero _)
    | succ turns ih =>
      intro state holds few
      have turned := system.turned state
      rw [settleWithin]
      split
      · rename_i next moved
        rw [moved] at turned
        obtain ⟨there, same, less⟩ := winds.path holds (turned.path rfl)
        obtain ⟨settled, result, kept, since, still⟩ :=
          ih next there (Nat.lt_of_lt_of_le less (Nat.le_of_lt_succ few))
        exact ⟨settled, result, kept, since.trans same, still⟩
      · rename_i still
        exact ⟨state, rfl, holds, rfl, congrArg Prod.fst still⟩
  exact within turns state holds (winds.few holds)

/-- Whoever settles and then either is done or lets time come nearer to a moment is done within as
many rounds as there are moments. -/
theorem exists_done {rounds : Nat → σ → Option σ} {Done : σ → Prop}
    (winds : system.Winds now turns Holds measure)
    (onward : ∀ fuel state settled, settleWithin system.turn turns state = some settled →
      Holds settled → now settled ≤ moment → (system.turn settled).1 = false →
      (∃ last, rounds (fuel + 1) state = some last ∧ Done last) ∨
      ∃ later, rounds (fuel + 1) state = rounds fuel later ∧ Holds later ∧
        now settled < now later ∧ now later ≤ moment)
    {fuel : Nat} (holds : Holds state) (early : now state ≤ moment)
    (enough : moment - now state < fuel) :
    ∃ last, rounds fuel state = some last ∧ Done last := by
  induction fuel generalizing state with
  | zero => exact absurd enough (Nat.not_lt_zero _)
  | succ fuel ih =>
    obtain ⟨settled, settles, there, same, still⟩ := winds.settle holds
    rcases onward fuel state settled settles there (same ▸ early) still with
      done | ⟨later, next, holds, ahead, early⟩
    · exact done
    · rw [next]
      exact ih holds early (by omega)

end Winds

end Turns

/-! ## Not for ever -/

/-- Time comes nearer to a moment, or stands still while a measure gets lower. -/
def Lowers (now effort : σ → Nat) (moment : Nat) (before after : σ) : Prop :=
  now after = now before ∧ effort after < effort before ∨
    now before < now after ∧ now after ≤ moment

section Termination

variable {now effort : σ → Nat} {moment : Nat} {Holds : σ → Prop}

/-- No steps of this kind go on for ever: between two movements of time there is only so much to
do, and time comes to an end. -/
theorem acc_of_lowers {step : σ → σ → Prop}
    (lowers : ∀ before after, Holds before → step before after →
      Holds after ∧ Lowers now effort moment before after)
    {state : σ} (holds : Holds state) : Acc (fun next state => step state next) state := by
  refine ⟨_, fun next taken => acc_of_lowers lowers (lowers state next holds taken).1⟩
termination_by (moment - now state, effort state)
decreasing_by
  rcases (lowers state next holds taken).2 with ⟨same, less⟩ | ⟨ahead, early⟩
  · rw [same]
    exact Prod.Lex.right _ less
  · exact Prod.Lex.left _ _ (Nat.sub_lt_sub_left (Nat.lt_of_lt_of_le ahead early) ahead)

/-- That stays so however often others do something in between, if they neither let time pass nor
add to what is left to do. -/
theorem acc_between {other step : σ → σ → Prop}
    (others : ∀ before after, Holds before → other before after →
      Holds after ∧ now after = now before ∧ effort after ≤ effort before)
    (lowers : ∀ before after, Holds before → step before after →
      Holds after ∧ Lowers now effort moment before after)
    {state : σ} (holds : Holds state) :
    Acc (fun next state => ∃ middle, ReflTransGen other state middle ∧ step middle next) state := by
  have meanwhile : ∀ before middle, Holds before → ReflTransGen other before middle →
      Holds middle ∧ now middle = now before ∧ effort middle ≤ effort before := by
    intro before middle holds path
    induction path with
    | refl => exact ⟨holds, rfl, Nat.le_refl _⟩
    | tail _ did ih =>
      obtain ⟨holds, same, atMost⟩ := ih
      obtain ⟨kept, still, less⟩ := others _ _ holds did
      exact ⟨kept, still.trans same, Nat.le_trans less atMost⟩
  have together : ∀ before after, Holds before →
      (∃ middle, ReflTransGen other before middle ∧ step middle after) →
      Holds after ∧ Lowers now effort moment before after := by
    rintro before after holds ⟨middle, path, taken⟩
    obtain ⟨there, same, atMost⟩ := meanwhile before middle holds path
    obtain ⟨kept, lowered⟩ := lowers middle after there taken
    refine ⟨kept, ?_⟩
    rcases lowered with ⟨still, less⟩ | ⟨ahead, early⟩
    · exact .inl ⟨still.trans same, Nat.lt_of_lt_of_le less atMost⟩
    · exact .inr ⟨same ▸ ahead, early⟩
  exact acc_of_lowers together holds

/-- What does not go on for ever and is not stuck before it is done comes to be done. -/
theorem exists_over {step : σ → σ → Prop} {first : σ} (reached isOver : σ → Prop)
    (acc : Acc (fun next state => step state next) first) (start : reached first)
    (onward : ∀ state, reached state → ¬ isOver state → ∃ next, step state next ∧ reached next) :
    ∃ last, reached last ∧ isOver last := by
  induction acc with
  | intro state _ ih =>
    by_cases done : isOver state
    · exact ⟨state, start, done⟩
    · obtain ⟨next, steps, there⟩ := onward state start done
      exact ih next steps there

end Termination

end ChatHub
