import Mathlib.Logic.Relation
import Mathlib.Order.WellFounded

/-!
# Transition systems

A component whose steps come in any order is a relation between its states. An
invariant is what the first state has and every step keeps; where no run goes on
forever, every state leads to one in which nothing is left to do.
-/

namespace Libamg.Semantics

universe u

variable {State : Type u} {Step : State → State → Prop}

/-- Zero or more steps. -/
abbrev Reaches (Step : State → State → Prop) : State → State → Prop := Relation.ReflTransGen Step

/-- Nothing can happen any more. -/
def Halted (Step : State → State → Prop) (state : State) : Prop := ∀ next, ¬ Step state next

/-- No run goes on forever. -/
def Terminates (Step : State → State → Prop) : Prop := WellFounded fun next state => Step state next

/-- What one step preserves, a run preserves. -/
theorem Reaches.preserves {Invariant : State → Prop}
    (preserved : ∀ {state next}, Invariant state → Step state next → Invariant next)
    {first last : State} (reaches : Reaches Step first last) (initial : Invariant first) :
    Invariant last := by
  induction reaches with
  | refl => exact initial
  | tail _ step inductionHypothesis => exact preserved inductionHypothesis step

/-- Every run can be continued until nothing is left to do. -/
theorem Terminates.exists_halted (terminates : Terminates Step) (first : State) :
    ∃ last, Reaches Step first last ∧ Halted Step last := by
  induction first using terminates.induction with
  | _ state inductionHypothesis =>
      by_cases halted : Halted Step state
      · exact ⟨state, .refl, halted⟩
      · have goesOn : ∃ next, Step state next := by simpa [Halted] using halted
        obtain ⟨next, step⟩ := goesOn
        obtain ⟨last, reaches, lastHalted⟩ := inductionHypothesis next step
        exact ⟨last, .head step reaches, lastHalted⟩

/-- Steps that lower a well-founded measure terminate. -/
theorem Terminates.ofMeasure {Measure : Type u} {Below : Measure → Measure → Prop}
    (wellFounded : WellFounded Below) (measure : State → Measure)
    (lowers : ∀ {state next}, Step state next → Below (measure next) (measure state)) :
    Terminates Step :=
  Subrelation.wf lowers (InvImage.wf measure wellFounded)

end Libamg.Semantics
