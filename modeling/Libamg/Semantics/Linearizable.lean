import Mathlib.Data.Fintype.Basic
import Mathlib.Logic.Function.Basic

/-!
# Calls that run at the same time

Threads call an object, and what can be seen of them is when a call begins and when it
answers. An atomic object lets each call take effect at one moment in between
(`AtomicStep`), and calls are linearizable where what was seen can be seen of such an
object. `Runs.simulates` carries a simulation of single steps to whole runs, and `exists_log`
finds the order in which the calls took effect: a sequential run with the answers that each
thread got.
-/

namespace Libamg.Semantics

universe u v w x y

/-- What can be seen of a thread. -/
inductive Event (Thread : Type u) (Call : Type v) (Answer : Type w) where
  | invoke (thread : Thread) (call : Call)
  | answer (thread : Thread) (answer : Answer)

/-- What a call may answer, and what it leaves. -/
abbrev Spec (Value : Type x) (Call : Type v) (Answer : Type w) := Value → Call → Answer → Value → Prop

/-- Where a thread is in a call that takes effect at one moment. -/
inductive Status (Call : Type v) (Answer : Type w) where
  | idle
  | called (call : Call)
  | done (answer : Answer)

variable {Thread : Type u} {Call : Type v} {Answer : Type w} {Value : Type x}

section Runs

variable {State : Type y} {Step : State → Option (Event Thread Call Answer) → State → Prop}

/-- A run with what can be seen of it. -/
inductive Runs (Step : State → Option (Event Thread Call Answer) → State → Prop) :
    State → List (Event Thread Call Answer) → State → Prop
  | start {state : State} : Runs Step state [] state
  | step {first middle last : State} {history : List (Event Thread Call Answer)}
      {seen : Option (Event Thread Call Answer)} (run : Runs Step first history middle)
      (step : Step middle seen last) : Runs Step first (history ++ seen.toList) last

theorem Runs.single {first last : State} {seen : Option (Event Thread Call Answer)}
    (step : Step first seen last) : Runs Step first seen.toList last :=
  .step .start step

theorem Runs.trans {first middle last : State} {front back : List (Event Thread Call Answer)}
    (before : Runs Step first front middle) (behind : Runs Step middle back last) :
    Runs Step first (front ++ back) last := by
  induction behind with
  | start =>
      rw [List.append_nil]
      exact before
  | step run step inductionHypothesis =>
      rw [← List.append_assoc]
      exact .step inductionHypothesis step

/-- Steps that another system follows make runs that it follows. -/
theorem Runs.simulates {Abstract : Type y}
    {AbstractStep : Abstract → Option (Event Thread Call Answer) → Abstract → Prop}
    {first last : State} {history : List (Event Thread Call Answer)} (run : Runs Step first history last)
    (Related : State → Abstract → Prop) (Admitted : Event Thread Call Answer → Prop)
    (follows : ∀ state seen next abstract, Related state abstract → Step state seen next →
      (∀ event ∈ seen, Admitted event) →
        ∃ after, Runs AbstractStep abstract seen.toList after ∧ Related next after)
    (admitted : ∀ event ∈ history, Admitted event) {abstract : Abstract}
    (related : Related first abstract) :
    ∃ after, Runs AbstractStep abstract history after ∧ Related last after := by
  induction run with
  | start => exact ⟨abstract, .start, related⟩
  | step run step inductionHypothesis =>
      obtain ⟨before, ran, relatedBefore⟩ := inductionHypothesis fun event earlier =>
        admitted event (List.mem_append_left _ earlier)
      obtain ⟨after, stepped, relatedAfter⟩ := follows _ _ _ _ relatedBefore step fun event isSeen =>
        admitted event (List.mem_append_right _ (Option.mem_toList.mpr isSeen))
      exact ⟨after, ran.trans stepped, relatedAfter⟩

end Runs

/-! ## Atomic objects -/

/-- An atomic object: its value, and where each thread is. -/
structure Atomic (Thread : Type u) (Call : Type v) (Answer : Type w) (Value : Type x) where
  value : Value
  status : Thread → Status Call Answer

variable [DecidableEq Thread] {spec : Spec Value Call Answer}

/-- A call takes effect at some moment between its beginning and its answer. -/
inductive AtomicStep (spec : Spec Value Call Answer) : Atomic Thread Call Answer Value →
    Option (Event Thread Call Answer) → Atomic Thread Call Answer Value → Prop
  | invoke {value : Value} {status : Thread → Status Call Answer} {thread : Thread} {call : Call}
      (idle : status thread = .idle) :
      AtomicStep spec ⟨value, status⟩ (some (.invoke thread call))
        ⟨value, Function.update status thread (.called call)⟩
  | effect {value next : Value} {status : Thread → Status Call Answer} {thread : Thread} {call : Call}
      {answer : Answer} (called : status thread = .called call) (allowed : spec value call answer next) :
      AtomicStep spec ⟨value, status⟩ none ⟨next, Function.update status thread (.done answer)⟩
  | answer {value : Value} {status : Thread → Status Call Answer} {thread : Thread} {answer : Answer}
      (done : status thread = .done answer) :
      AtomicStep spec ⟨value, status⟩ (some (.answer thread answer))
        ⟨value, Function.update status thread .idle⟩

/-- Calls one after the other. -/
inductive Sequential (spec : Spec Value Call Answer) : Value → List (Call × Answer) → Value → Prop
  | start {value : Value} : Sequential spec value [] value
  | call {first middle last : Value} {log : List (Call × Answer)} {call : Call} {answer : Answer}
      (before : Sequential spec first log middle) (allowed : spec middle call answer last) :
      Sequential spec first (log ++ [(call, answer)]) last

/-- The calls of a thread. -/
def callsOf (thread : Thread) (history : List (Event Thread Call Answer)) : List Call :=
  history.filterMap fun
    | .invoke other call => if other = thread then some call else none
    | .answer _ _ => none

/-- The answers that a thread got. -/
def answersOf (thread : Thread) (history : List (Event Thread Call Answer)) : List Answer :=
  history.filterMap fun
    | .invoke _ _ => none
    | .answer other answer => if other = thread then some answer else none

/-- The entries of a log that are of a thread. -/
def entriesOf (thread : Thread) (log : List (Thread × Call × Answer)) : List (Call × Answer) :=
  log.filterMap fun (other, entry) => if other = thread then some entry else none

/-- The log has what a thread called and was answered, but for a call that has not taken effect
yet and an answer that is not given yet. -/
def AccountsFor (calls : List Call) (answers : List Answer) (entries : List (Call × Answer)) :
    Status Call Answer → Prop
  | .idle => calls = entries.map Prod.fst ∧ answers = entries.map Prod.snd
  | .called call => calls = entries.map Prod.fst ++ [call] ∧ answers = entries.map Prod.snd
  | .done answer => calls = entries.map Prod.fst ∧ answers ++ [answer] = entries.map Prod.snd

section Log

variable {thread other : Thread} {history : List (Event Thread Call Answer)}
  {log : List (Thread × Call × Answer)}

theorem callsOf_append (event : Event Thread Call Answer) :
    callsOf thread (history ++ [event]) = callsOf thread history ++ callsOf thread [event] :=
  List.filterMap_append

theorem answersOf_append (event : Event Thread Call Answer) :
    answersOf thread (history ++ [event]) = answersOf thread history ++ answersOf thread [event] :=
  List.filterMap_append

theorem entriesOf_append (entry : Thread × Call × Answer) :
    entriesOf thread (log ++ [entry]) = entriesOf thread log ++ entriesOf thread [entry] :=
  List.filterMap_append

/-- A step of a thread, as the thread's part of the history and the log sees it. -/
theorem AccountsFor.step {calls moreCalls : List Call} {answers moreAnswers : List Answer}
    {entries moreEntries : List (Call × Answer)} {status : Thread → Status Call Answer}
    {next : Status Call Answer}
    (accounts : AccountsFor calls answers entries (status other))
    (self : other = thread → AccountsFor (calls ++ moreCalls) (answers ++ moreAnswers)
      (entries ++ moreEntries) next)
    (others : other ≠ thread → moreCalls = [] ∧ moreAnswers = [] ∧ moreEntries = []) :
    AccountsFor (calls ++ moreCalls) (answers ++ moreAnswers) (entries ++ moreEntries)
      (Function.update status thread next other) := by
  by_cases same : other = thread
  · subst same
    rw [Function.update_self]
    exact self rfl
  · obtain ⟨rfl, rfl, rfl⟩ := others same
    rw [Function.update_of_ne same, List.append_nil, List.append_nil, List.append_nil]
    exact accounts

/-- The order in which the calls took effect. -/
theorem exists_log {initial : Value} {last : Atomic Thread Call Answer Value}
    (run : Runs (AtomicStep spec) ⟨initial, fun _ => .idle⟩ history last) :
    ∃ log : List (Thread × Call × Answer),
      Sequential spec initial (log.map Prod.snd) last.value ∧
      ∀ thread, AccountsFor (callsOf thread history) (answersOf thread history) (entriesOf thread log)
        (last.status thread) := by
  induction run with
  | start => exact ⟨[], .start, fun thread => ⟨rfl, rfl⟩⟩
  | @step middle last history seen run step inductionHypothesis =>
      obtain ⟨log, sequential, accounts⟩ := inductionHypothesis
      cases step with
      | @invoke value status thread call idle =>
          refine ⟨log, sequential, fun other => ?_⟩
          rw [Option.toList_some, callsOf_append, answersOf_append,
            ← List.append_nil (entriesOf other log)]
          refine (accounts other).step (fun same => ?_) fun different => ?_
          · subst same
            have before := accounts other
            simp only [idle] at before
            simpa [AccountsFor, callsOf, answersOf] using before
          · simp [callsOf, answersOf, Ne.symm different]
      | @effect value next status thread call answer called allowed =>
          refine ⟨log ++ [(thread, call, answer)], ?_, fun other => ?_⟩
          · rw [List.map_append]
            exact .call sequential allowed
          · rw [Option.toList_none, List.append_nil, entriesOf_append,
              ← List.append_nil (callsOf other history), ← List.append_nil (answersOf other history)]
            refine (accounts other).step (fun same => ?_) fun different => ?_
            · subst same
              have before := accounts other
              simp only [called] at before
              simpa [AccountsFor, entriesOf] using before
            · simp [entriesOf, Ne.symm different]
      | @answer value status thread answer done =>
          refine ⟨log, sequential, fun other => ?_⟩
          rw [Option.toList_some, callsOf_append, answersOf_append,
            ← List.append_nil (entriesOf other log)]
          refine (accounts other).step (fun same => ?_) fun different => ?_
          · subst same
            have before := accounts other
            simp only [done] at before
            simpa [AccountsFor, callsOf, answersOf] using before
          · simp [callsOf, answersOf, Ne.symm different]

end Log

end Libamg.Semantics
