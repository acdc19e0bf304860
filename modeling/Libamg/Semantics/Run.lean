import Mathlib.Data.List.Induction

/-!
# Runs of a step function

A component that is called again and again is a function from a state and a call to
an answer and the next state. `run` makes the calls of a list one after the other;
`run_simulates` lifts a simulation from one call to a run, and `forall_reached_iff`
an exact condition on one step to all states of a run. `eachCall_iff` does the same for
a step that may fail. Where the abstract steps may fail as well, `runChecked_same` carries
over the failures with the answers.
-/

namespace Libamg.Semantics

universe u v w x

variable {State Abstract : Type u} {Call : Type v} {Answer : Type w} {Error : Type x}

/-- The answers to a list of calls and the last state. -/
def run (step : State → Call → Answer × State) : State → List Call → List Answer × State
  | state, [] => ([], state)
  | state, call :: calls =>
      let (answer, next) := step state call
      let (answers, last) := run step next calls
      (answer :: answers, last)

/-- The same for a step that may fail; the first failure ends the run. -/
def runChecked (step : State → Call → Except Error (Answer × State)) :
    State → List Call → Except Error (List Answer × State)
  | state, [] => .ok ([], state)
  | state, call :: calls =>
      match step state call with
      | .error error => .error error
      | .ok (answer, next) =>
          match runChecked step next calls with
          | .error error => .error error
          | .ok (answers, last) => .ok (answer :: answers, last)

/-- The state after a list of calls. -/
def reached (step : State → Call → State) (state : State) (calls : List Call) : State :=
  calls.foldl step state

@[simp] theorem reached_nil (step : State → Call → State) (state : State) :
    reached step state [] = state := rfl

theorem reached_snoc (step : State → Call → State) (state : State) (calls : List Call)
    (call : Call) : reached step state (calls ++ [call]) = step (reached step state calls) call := by
  rw [reached, List.foldl_append, List.foldl_cons, List.foldl_nil, reached]

section Simulation

variable {step : State → Call → Except Error (Answer × State)}
  {abstractStep : Abstract → Call → Answer × Abstract} {Admitted : Call → Prop}

/-- A simulation of single calls is a simulation of runs: the concrete run does not
fail and gives the abstract answers. The relation may depend on how many calls are
still to come. -/
theorem run_simulates (Related : Nat → State → Abstract → Prop)
    (stepSimulates : ∀ remaining state abstract call, Admitted call →
      Related (remaining + 1) state abstract →
        ∃ next, step state call = .ok ((abstractStep abstract call).1, next) ∧
          Related remaining next (abstractStep abstract call).2)
    {calls : List Call} (admitted : ∀ call ∈ calls, Admitted call) {state : State}
    {abstract : Abstract} (related : Related calls.length state abstract) :
    ∃ last, runChecked step state calls = .ok ((run abstractStep abstract calls).1, last) ∧
      Related 0 last (run abstractStep abstract calls).2 := by
  induction calls generalizing state abstract with
  | nil => exact ⟨state, rfl, related⟩
  | cons call calls inductionHypothesis =>
      obtain ⟨next, stepped, relatedNext⟩ :=
        stepSimulates calls.length state abstract call (admitted call List.mem_cons_self) related
      obtain ⟨last, ran, relatedLast⟩ := inductionHypothesis
        (fun other member => admitted other (List.mem_cons_of_mem _ member)) relatedNext
      refine ⟨last, ?_, relatedLast⟩
      simp only [runChecked, stepped, ran]
      rfl

end Simulation

section Same

variable {step : State → Call → Except Error (Answer × State)}
  {abstractStep : Abstract → Call → Except Error (Answer × Abstract)} {Admitted : Call → Prop}

/-- The same failure, or the same answer and related states behind it. -/
inductive Same (Related : State → Abstract → Prop) :
    Except Error (Answer × State) → Except Error (Answer × Abstract) → Prop
  | error (error : Error) : Same Related (.error error) (.error error)
  | ok (answer : Answer) {state : State} {abstract : Abstract} (related : Related state abstract) :
      Same Related (.ok (answer, state)) (.ok (answer, abstract))

/-- Steps that come to the same make runs that come to the same. -/
theorem runChecked_same {Related : State → Abstract → Prop}
    (steps : ∀ state abstract call, Admitted call → Related state abstract →
      Same Related (step state call) (abstractStep abstract call))
    {calls : List Call} (admitted : ∀ call ∈ calls, Admitted call) {state : State}
    {abstract : Abstract} (related : Related state abstract) :
    Same Related (runChecked step state calls) (runChecked abstractStep abstract calls) := by
  induction calls generalizing state abstract with
  | nil => exact .ok [] related
  | cons call calls inductionHypothesis =>
      have stepped := steps state abstract call (admitted call List.mem_cons_self) related
      rw [runChecked, runChecked]
      generalize step state call = result at stepped ⊢
      generalize abstractStep abstract call = expected at stepped ⊢
      cases stepped with
      | error error => exact .error error
      | @ok answer next abstractNext relatedNext =>
          have ran := inductionHypothesis
            (fun other member => admitted other (List.mem_cons_of_mem _ member)) relatedNext
          simp only
          generalize runChecked step next calls = result at ran ⊢
          generalize runChecked abstractStep abstractNext calls = expected at ran ⊢
          cases ran with
          | error error => exact .error error
          | ok answers relatedLast => exact .ok (answer :: answers) relatedLast

/-- What every admitted step keeps holds behind a run. -/
theorem runChecked_preserves {Invariant : State → Prop}
    (preserved : ∀ state call answer next, Admitted call → Invariant state →
      step state call = .ok (answer, next) → Invariant next)
    {calls : List Call} (admitted : ∀ call ∈ calls, Admitted call) {state last : State}
    {answers : List Answer} (invariant : Invariant state)
    (ran : runChecked step state calls = .ok (answers, last)) : Invariant last := by
  induction calls generalizing state answers with
  | nil =>
      cases ran
      exact invariant
  | cons call calls inductionHypothesis =>
      rw [runChecked] at ran
      split at ran
      · cases ran
      · rename_i answer next stepped
        split at ran
        · cases ran
        · rename_i others reached later
          cases ran
          exact inductionHypothesis
            (fun other member => admitted other (List.mem_cons_of_mem _ member))
            (preserved state call answer next (admitted call List.mem_cons_self) invariant stepped)
            later

end Same

section Reached

variable {step : State → Call → State} {Holds : State → Prop} {Allowed : State → Call → Prop}

/-- Where a step keeps the invariant exactly when it is allowed, the invariant holds
in all states of a run exactly when every call of the run is allowed where it is made. -/
theorem forall_reached_iff
    (exact : ∀ state call, Holds state → (Holds (step state call) ↔ Allowed state call))
    {state : State} (initial : Holds state) (calls : List Call) :
    (∀ before, before <+: calls → Holds (reached step state before)) ↔
      ∀ before call, before ++ [call] <+: calls → Allowed (reached step state before) call := by
  constructor
  · intro holds before call isPrefix
    have here := holds before ((List.prefix_append before [call]).trans isPrefix)
    have next := holds (before ++ [call]) isPrefix
    rw [reached_snoc] at next
    exact (exact _ call here).mp next
  · intro allowed before
    induction before using List.reverseRecOn with
    | nil => exact fun _ => initial
    | append_singleton before call inductionHypothesis =>
        intro isPrefix
        have here := inductionHypothesis ((List.prefix_append before [call]).trans isPrefix)
        rw [reached_snoc]
        exact (exact _ call here).mpr (allowed before call isPrefix)

end Reached

section EachCall

variable {step : State → Call → Except Error (Answer × State)} {Safe : State → Call → Prop}
  {Admitted : Call → Prop}

/-- Every call of a run is safe in the state it is made in. The first failure ends the run. -/
def EachCall (step : State → Call → Except Error (Answer × State)) (Safe : State → Call → Prop) :
    State → List Call → Prop
  | _, [] => True
  | state, call :: calls =>
      Safe state call ∧
        ∀ answer next, step state call = .ok (answer, next) → EachCall step Safe next calls

/-- Where the admitted calls are the safe ones and keep the invariant, a run is safe
exactly when all its calls are admitted. -/
theorem eachCall_iff (Related : Nat → State → Prop)
    (safe_iff : ∀ remaining state call, Related (remaining + 1) state →
      (Safe state call ↔ Admitted call))
    (steps : ∀ remaining state call, Admitted call → Related (remaining + 1) state →
      ∃ answer next, step state call = .ok (answer, next) ∧ Related remaining next)
    {calls : List Call} {state : State} (related : Related calls.length state) :
    EachCall step Safe state calls ↔ ∀ call ∈ calls, Admitted call := by
  induction calls generalizing state with
  | nil => exact iff_of_true trivial (List.forall_mem_nil _)
  | cons call calls inductionHypothesis =>
      rw [EachCall, List.forall_mem_cons, safe_iff calls.length state call related]
      refine and_congr_right fun admitted => ?_
      obtain ⟨answer, next, stepped, relatedNext⟩ :=
        steps calls.length state call admitted related
      rw [← inductionHypothesis relatedNext]
      constructor
      · intro safe
        exact safe answer next stepped
      · intro safe otherAnswer other same
        cases stepped.symm.trans same
        exact safe

end EachCall

end Libamg.Semantics
