import Libamg.Semantics.Processes

/-!
# Exactly one process returns

After a fork two processes run the rest of one function. `OneReturns` says that only
the calling one ever comes back from it, whatever the order of their steps.
`oneReturns_fork` derives that from a contract for each of the two branches.
-/

namespace Libamg.Semantics

open C

variable {Result : Type} {env : Environment}

/-- A call of a function: no child yet and nothing in the pipe. -/
def System.start (code : Code Result) : System Result := ⟨.start .initial code, none, []⟩

/-- What holds in every state of a run: the child does not return and the caller does
nothing else in the end, except that it may wait for a program that never ends. -/
structure Sound (env : Environment) (system : System Result) : Prop where
  childNever : ∀ child, system.child = some child → ∀ result, child.phase ≠ .returned result
  callerStays : (∀ ending, system.caller.phase ≠ .ended ending) ∧
    ∀ unwritten, system.caller.phase ≠ .executing unwritten
  settled : Halted (Step env) system → (∃ result, system.caller.phase = .returned result) ∨
    env.ending = none ∧
      ∃ child unwritten, system.child = some child ∧ child.phase = .executing unwritten
  childLeaves : Halted (Step env) system → ∀ child, system.child = some child →
    (∃ ending, child.phase = .ended ending) ∨ ∃ unwritten, child.phase = .executing unwritten

/-- A caller without a child. -/
theorem Sound.childless {caller : Process Result} {pipe : Text}
    (alive : ∀ ending, caller.phase ≠ .ended ending)
    (own : ∀ unwritten, caller.phase ≠ .executing unwritten)
    (back : Halted (Step env) ⟨caller, none, pipe⟩ → ∃ result, caller.phase = .returned result) :
    Sound env ⟨caller, none, pipe⟩ where
  childNever := by
    intro child forked
    cases forked
  callerStays := ⟨alive, own⟩
  settled := fun halted => .inl (back halted)
  childLeaves := by
    intro _ child forked
    cases forked

/-- Every run of the code ends, and exactly the calling process returns from it. -/
def OneReturns (env : Environment) (code : Code Result) : Prop :=
  Terminates (@Step Result env) ∧
    ∀ system, Reaches (Step env) (System.start code) system → Sound env system

section Contracts

variable {captured mayExit : Bool} {system : System Result} {child : Process Result}

/-- A child that ends by itself has left when nothing happens any more. -/
theorem Process.EndsAlone.leaves (alone : child.EndsAlone env captured mayExit)
    (forked : system.child = some child) (halted : Halted (Step env) system) :
    (∃ ending, child.phase = .ended ending) ∨ ∃ unwritten, child.phase = .executing unwritten := by
  cases phase : child.phase with
  | running code =>
      obtain ⟨next, acts⟩ := alone.moves phase
      exact absurd (.child forked acts) (halted _)
  | executing unwritten => exact .inr ⟨unwritten, rfl⟩
  | ended ending => exact .inl ⟨ending, rfl⟩
  | returned result =>
      rw [Process.EndsAlone, phase] at alone
      exact alone.elim

theorem Process.EndsAlone.never (alone : child.EndsAlone env captured mayExit) (result : Result) :
    child.phase ≠ .returned result := by
  intro returned
  rw [Process.EndsAlone, returned] at alone
  exact alone

/-- A program that has written everything ends, unless it never does. -/
theorem endless_of_halted (forked : system.child = some child)
    (finished : child.phase = .executing []) (halted : Halted (Step env) system) :
    env.ending = none := by
  cases ends : env.ending with
  | none => rfl
  | some ending =>
      have acts : child.act env = some { child with phase := .ended ending } := by
        rw [Process.act, finished]
        simp only [ends, Option.map_some]
      exact absurd (.child forked acts) (halted _)

/-- A captured program that is held up in its output has filled the pipe. -/
theorem full_of_halted {byte : Byte} {rest : Text}
    (alone : child.EndsAlone env true mayExit) (forked : system.child = some child)
    (executes : child.phase = .executing (byte :: rest)) (halted : Halted (Step env) system) :
    env.capacity ≤ system.pipe.length := by
  by_contra room
  have captures : child.descriptors.captured = true := by
    rw [Process.EndsAlone, executes] at alone
    exact alone
  have fitting : system.pipe.length + [byte].length ≤ env.capacity := by
    rw [List.length_singleton]
    omega
  exact halted _ (.write forked executes captures (List.cons_ne_nil byte []) fitting)

/-- A captured child that is held up has ended, or its program never ends, or the program
waits for room in the pipe. -/
theorem Process.EndsAlone.heldUp (alone : child.EndsAlone env true mayExit)
    (forked : system.child = some child) (halted : Halted (Step env) system) :
    (∃ ending, child.phase = .ended ending) ∨ ∃ unwritten, child.phase = .executing unwritten ∧
      (env.ending = none ∨ unwritten ≠ [] ∧ env.capacity ≤ system.pipe.length) := by
  rcases alone.leaves forked halted with ended | ⟨unwritten, executes⟩
  · exact .inl ended
  · refine .inr ⟨unwritten, executes, ?_⟩
    cases unwritten with
    | nil => exact .inl (endless_of_halted forked executes halted)
    | cons byte rest =>
        exact .inr ⟨List.cons_ne_nil byte rest, full_of_halted alone forked executes halted⟩

end Contracts

/-! ## Functions without a pipe -/

/-- The code does nothing but wait for the child before it returns. -/
def Code.Returns : Code Result → Prop
  | .ret _ => True
  | .waitpid next => ∀ answer, (next answer).Returns
  | _ => False

/-- The states of a call `fork` whose failure returns `failure`. -/
inductive Forking (env : Environment) (child caller : Code Result) (failure : Result) :
    System Result → Prop where
  | before : Forking env child caller failure (.start (.fork child caller (.ret failure)))
  | failing {descriptors : Descriptors} : Forking env child caller failure
      ⟨⟨descriptors, .running (.ret failure)⟩, none, []⟩
  | failed {descriptors : Descriptors} : Forking env child caller failure
      ⟨⟨descriptors, .returned failure⟩, none, []⟩
  | together {descriptors : Descriptors} {code : Code Result} {process : Process Result}
      (returns : code.Returns) (alone : process.EndsAlone env false true) :
      Forking env child caller failure ⟨⟨descriptors, .running code⟩, some process, []⟩
  | back {descriptors : Descriptors} {result : Result} {process : Process Result}
      (alone : process.EndsAlone env false true) :
      Forking env child caller failure ⟨⟨descriptors, .returned result⟩, some process, []⟩

section Forking

variable {child caller : Code Result} {failure : Result}

/-- An uncaptured child cannot use the pipe. -/
theorem Process.EndsAlone.not_captured {process : Process Result} {mayExit : Bool} {unwritten : Text}
    (alone : process.EndsAlone env false mayExit) (executes : process.phase = .executing unwritten) :
    process.descriptors.captured = false := by
  rw [Process.EndsAlone, executes] at alone
  exact alone

/-- It goes on by itself only. -/
theorem Process.EndsAlone.step {process moved : Process Result} {mayExit : Bool} {pipe piped : Text}
    (alone : process.EndsAlone env false mayExit) (childStep : ChildStep env process pipe moved piped) :
    moved.EndsAlone env false mayExit ∧ piped = pipe := by
  cases childStep with
  | act acts => exact ⟨alone.act acts, rfl⟩
  | write writes captured =>
      rw [alone.not_captured writes] at captured
      cases captured

theorem Forking.step {system next : System Result} (childAlone : child.EndsAlone env false true .initial)
    (callerReturns : caller.Returns) (forking : Forking env child caller failure system)
    (step : Step env system next) : Forking env child caller failure next := by
  cases forking with
  | before =>
      rcases step.of_fork with ⟨-, rfl⟩ | ⟨-, rfl⟩
      · exact .together callerReturns childAlone
      · exact .failing
  | failing =>
      obtain rfl := step.of_ret
      exact .failed
  | failed => exact absurd step not_step_returned
  | together returns alone =>
      rename_i code _
      cases code with
      | ret result =>
          rcases step.of_leaving with rfl | ⟨moved, piped, childStep, rfl⟩
          · exact .back alone
          · obtain ⟨movedAlone, rfl⟩ := alone.step childStep
            exact .together returns movedAlone
      | waitpid answers =>
          rcases step.of_waitpid with ⟨answer, -, rfl⟩ | ⟨moved, piped, childStep, rfl⟩
          · exact .together (returns answer) alone
          · obtain ⟨movedAlone, rfl⟩ := alone.step childStep
            exact .together returns movedAlone
      | _ => exact returns.elim
  | back alone =>
      obtain ⟨moved, piped, childStep, rfl⟩ := step.of_returned
      obtain ⟨movedAlone, rfl⟩ := alone.step childStep
      exact .back movedAlone

/-- Nobody waits forever: the caller waits only for the child, and the child for no one. -/
theorem Forking.settled {system : System Result} (forking : Forking env child caller failure system)
    (halted : Halted (Step env) system) : (∃ result, system.caller.phase = .returned result) ∨
      env.ending = none ∧
        ∃ child unwritten, system.child = some child ∧ child.phase = .executing unwritten := by
  cases forking with
  | before =>
      cases forks : env.forks with
      | true => exact absurd (.fork rfl forks) (halted _)
      | false => exact absurd (.forkFails rfl forks) (halted _)
  | failing => exact absurd (.caller rfl) (halted _)
  | failed => exact .inl ⟨failure, rfl⟩
  | back alone => exact .inl ⟨_, rfl⟩
  | together returns alone =>
      rename_i code process
      cases code with
      | ret result => exact absurd (.caller rfl) (halted _)
      | waitpid answers =>
          cases waits : env.waits with
          | false => exact absurd (.waitFails rfl waits) (halted _)
          | true =>
              rcases alone.leaves rfl halted with ⟨ending, finished⟩ | ⟨unwritten, executes⟩
              · exact absurd (.wait rfl waits rfl finished) (halted _)
              · cases unwritten with
                | nil => exact .inr ⟨endless_of_halted rfl executes halted, _, _, rfl, executes⟩
                | cons byte rest =>
                    have acts : process.act env = some { process with phase := .executing rest } := by
                      rw [Process.act, executes]
                      simp only [alone.not_captured executes, Bool.false_eq_true, if_false]
                    exact absurd (.child rfl acts) (halted _)
      | _ => exact returns.elim

theorem Forking.sound {system : System Result} (forking : Forking env child caller failure system) :
    Sound env system := by
  refine ⟨?_, ?_, forking.settled, ?_⟩
  · cases forking with
    | before | failing | failed =>
        rintro process forked
        cases forked
    | together returns alone | back alone =>
        rintro process forked
        cases forked
        exact alone.never
  · cases forking <;> exact ⟨fun _ => nofun, fun _ => nofun⟩
  · intro halted process forked
    cases forking with
    | before | failing | failed => cases forked
    | together returns alone | back alone =>
        have alone : process.EndsAlone env false true := by
          cases forked
          exact alone
        exact alone.leaves forked halted

/-- A function that forks, lets the child end by itself and only waits for it in the
parent: exactly the parent returns. -/
theorem oneReturns_fork (failure : Result) (childAlone : child.EndsAlone env false true .initial)
    (callerReturns : caller.Returns) : OneReturns env (.fork child caller (.ret failure)) := by
  refine ⟨step_terminates env, ?_⟩
  intro system reaches
  exact (reaches.preserves (fun forking step => forking.step childAlone callerReturns step)
    (@Forking.before Result env child caller failure)).sound

end Forking

end Libamg.Semantics
