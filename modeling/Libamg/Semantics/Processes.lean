import Libamg.C.Bytes
import Libamg.Semantics.Transition

/-!
# A process and its child

System calls as a tree: `Code` is what a process still has to do, with one branch for
each answer that the kernel can give. `Step` lets the calling process, the child that
it forked and a pipe between them take their steps in any order. What the kernel
answers is the `Environment`; how a read is split and who moves first is left open.
-/

namespace Libamg.Semantics

open C

/-- How a process ended, as `waitpid` reports it. -/
inductive Ending where
  | exited (status : UInt8)
  | killed (signal : Nat)
deriving DecidableEq

/-- Where an output descriptor leads. -/
inductive Stream where
  | terminal
  | discarded
  | pipe
deriving DecidableEq

/-- The descriptors that system calls name: 1, 2 and the two ends of the pipe. -/
inductive Descriptor where
  | stdout
  | stderr
  | pipeRead
  | pipeWrite

/-- The open descriptors of a process. -/
structure Descriptors where
  stdout : Option Stream
  stderr : Option Stream
  pipeRead : Bool
  pipeWrite : Bool

namespace Descriptors

/-- A process that has not opened a pipe. -/
def initial : Descriptors := ⟨some .terminal, some .terminal, false, false⟩

/-- After `pipe`. -/
def piped (descriptors : Descriptors) : Descriptors :=
  { descriptors with pipeRead := true, pipeWrite := true }

def close (descriptors : Descriptors) : Descriptor → Descriptors
  | .stdout => { descriptors with stdout := none }
  | .stderr => { descriptors with stderr := none }
  | .pipeRead => { descriptors with pipeRead := false }
  | .pipeWrite => { descriptors with pipeWrite := false }

/-- `dup` of the pipe's write end: the lowest free descriptor leads to the pipe, too. -/
def dupPipe (descriptors : Descriptors) : Descriptors :=
  if descriptors.stdout = none then { descriptors with stdout := some .pipe }
  else if descriptors.stderr = none then { descriptors with stderr := some .pipe }
  else descriptors

/-- Both output streams reopened on the null device. -/
def discard (descriptors : Descriptors) : Descriptors :=
  { descriptors with stdout := some .discarded, stderr := some .discarded }

/-- Output of the process goes into the pipe. -/
def captured (descriptors : Descriptors) : Bool :=
  descriptors.stdout = some .pipe && descriptors.stderr = some .pipe

/-- Some descriptor keeps the pipe open for writing. -/
def writesPipe (descriptors : Descriptors) : Bool :=
  descriptors.pipeWrite || descriptors.stdout = some .pipe || descriptors.stderr = some .pipe

end Descriptors

/-- What a process still has to do before it hands a result to its caller. -/
inductive Code (Result : Type) where
  | fork (child caller failed : Code Result)
  | setsid (done failed : Code Result)
  | chdir (path : Text) (done failed : Code Result)
  | pipe (next : Code Result)
  | close (descriptor : Descriptor) (next : Code Result)
  | dupPipe (next : Code Result)
  | discard (next : Code Result)
  | execv (path : Text) (argv : List (Option Text)) (failed : Code Result)
  -- `none` when the call fails
  | waitpid (next : Option Ending → Code Result)
  -- `none` when the call fails, `some []` at the end of the file
  | read (count : Nat) (next : Option Text → Code Result)
  | exit (status : Int32)
  | ret (result : Result)

/-- What a process is doing. -/
inductive Phase (Result : Type) where
  | running (code : Code Result)
  -- the executed program, with the output it has not written yet
  | executing (unwritten : Text)
  | ended (ending : Ending)
  | returned (result : Result)

structure Process (Result : Type) where
  descriptors : Descriptors
  phase : Phase Result

/-- The calling process, the child once there is one, and the unread bytes of the pipe. -/
structure System (Result : Type) where
  caller : Process Result
  child : Option (Process Result)
  pipe : Text

/-- The answers of the kernel and the program that an `execv` runs. A program without
an ending never ends. -/
structure Environment where
  forks : Bool
  setsid : Bool
  chdir : Bool
  execs : Bool
  waits : Bool
  readMayFail : Bool
  capacity : Nat
  capacity_pos : 0 < capacity
  output : Text
  ending : Option Ending

variable {Result : Type} {env : Environment}

namespace Process

/-- A process that is about to run `code`. -/
def start (descriptors : Descriptors) (code : Code Result) : Process Result :=
  ⟨descriptors, .running code⟩

/-- The process keeps the pipe from coming to its end. -/
def HoldsWriteEnd (process : Process Result) : Prop :=
  process.descriptors.writesPipe = true ∧ ∀ ending, process.phase ≠ .ended ending

/-- A step that a process takes by itself. The low byte of an exit status is what the
parent gets to see. -/
def act (env : Environment) (process : Process Result) : Option (Process Result) :=
  match process.phase with
  | .running (.setsid done failed) =>
      some { process with phase := .running (if env.setsid then done else failed) }
  | .running (.chdir _ done failed) =>
      some { process with phase := .running (if env.chdir then done else failed) }
  | .running (.pipe next) => some ⟨process.descriptors.piped, .running next⟩
  | .running (.close descriptor next) =>
      some ⟨process.descriptors.close descriptor, .running next⟩
  | .running (.dupPipe next) => some ⟨process.descriptors.dupPipe, .running next⟩
  | .running (.discard next) => some ⟨process.descriptors.discard, .running next⟩
  | .running (.execv _ _ failed) =>
      some { process with phase := if env.execs then .executing env.output else .running failed }
  | .running (.exit status) => some { process with phase := .ended (.exited status.toUInt32.toUInt8) }
  | .running (.ret result) => some { process with phase := .returned result }
  | .executing [] => env.ending.map fun ending => { process with phase := .ended ending }
  | .executing (_ :: rest) =>
      if process.descriptors.captured then none else some { process with phase := .executing rest }
  | .running (.fork ..) | .running (.waitpid _) | .running (.read ..) => none
  | .ended _ | .returned _ => none

section Act

variable {descriptors : Descriptors} {next : Process Result}

/-- A program that has written everything can only end. -/
theorem act_executing_nil (acts : act env ⟨descriptors, .executing []⟩ = some next) :
    ∃ ending, next = ⟨descriptors, .ended ending⟩ := by
  obtain ⟨ending, -, rfl⟩ := Option.map_eq_some_iff.mp acts
  exact ⟨ending, rfl⟩

/-- A program writes by itself only where its output is not captured. -/
theorem act_executing_cons {byte : Byte} {rest : Text}
    (acts : act env ⟨descriptors, .executing (byte :: rest)⟩ = some next) :
    descriptors.captured = false ∧ next = ⟨descriptors, .executing rest⟩ := by
  have moved : (if descriptors.captured then none else some ⟨descriptors, .executing rest⟩) =
      some next := acts
  obtain ⟨uncaptured, same⟩ := Option.ite_none_left_eq_some.mp moved
  exact ⟨Bool.eq_false_iff.mpr uncaptured, (Option.some.inj same).symm⟩

theorem not_ended_of_act {process : Process Result} (acts : process.act env = some next)
    (ending : Ending) : process.phase ≠ .ended ending := by
  intro ended
  rw [act, ended] at acts
  cases acts

end Act

end Process

/-- One step of the caller, of the child, or of both through the pipe. -/
inductive Step (env : Environment) : System Result → System Result → Prop where
  | caller {system : System Result} {next : Process Result}
      (acts : system.caller.act env = some next) : Step env system { system with caller := next }
  | child {system : System Result} {child next : Process Result} (forked : system.child = some child)
      (acts : child.act env = some next) : Step env system { system with child := some next }
  | fork {system : System Result} {child caller failed : Code Result}
      (calls : system.caller.phase = .running (.fork child caller failed)) (succeeds : env.forks = true) :
      Step env system { system with
        caller := .start system.caller.descriptors caller
        child := some (.start system.caller.descriptors child) }
  | forkFails {system : System Result} {child caller failed : Code Result}
      (calls : system.caller.phase = .running (.fork child caller failed)) (fails : env.forks = false) :
      Step env system { system with caller := .start system.caller.descriptors failed }
  | write {system : System Result} {child : Process Result} {chunk rest : Text}
      (forked : system.child = some child) (writes : child.phase = .executing (chunk ++ rest))
      (captured : child.descriptors.captured = true) (nonempty : chunk ≠ [])
      (room : system.pipe.length + chunk.length ≤ env.capacity) :
      Step env system { system with
        child := some { child with phase := .executing rest }
        pipe := system.pipe ++ chunk }
  | read {system : System Result} {count : Nat} {next : Option Text → Code Result} {chunk rest : Text}
      (calls : system.caller.phase = .running (.read count next)) (nonempty : chunk ≠ [])
      (short : chunk.length ≤ count) (available : system.pipe = chunk ++ rest) :
      Step env system { system with
        caller := .start system.caller.descriptors (next (some chunk))
        pipe := rest }
  | readEnd {system : System Result} {count : Nat} {next : Option Text → Code Result}
      (calls : system.caller.phase = .running (.read count next)) (empty : system.pipe = [])
      (callerClosed : ¬ system.caller.HoldsWriteEnd)
      (childClosed : ∀ child, system.child = some child → ¬ child.HoldsWriteEnd) :
      Step env system { system with
        caller := .start system.caller.descriptors (next (some [])) }
  | readFails {system : System Result} {count : Nat} {next : Option Text → Code Result}
      (calls : system.caller.phase = .running (.read count next)) (fails : env.readMayFail = true) :
      Step env system { system with caller := .start system.caller.descriptors (next none) }
  | wait {system : System Result} {child : Process Result} {next : Option Ending → Code Result}
      {ending : Ending} (calls : system.caller.phase = .running (.waitpid next))
      (succeeds : env.waits = true) (forked : system.child = some child)
      (finished : child.phase = .ended ending) :
      Step env system { system with
        caller := .start system.caller.descriptors (next (some ending)) }
  | waitFails {system : System Result} {next : Option Ending → Code Result}
      (calls : system.caller.phase = .running (.waitpid next)) (fails : env.waits = false) :
      Step env system { system with caller := .start system.caller.descriptors (next none) }

/-! ### The caller alone -/

section Childless

variable {env : Environment} {descriptors : Descriptors} {pipe : Text} {next : System Result}

theorem Step.of_fork {child caller failed : Code Result}
    (step : Step env ⟨⟨descriptors, .running (.fork child caller failed)⟩, none, pipe⟩ next) :
    (env.forks = true ∧
      next = ⟨.start descriptors caller, some (.start descriptors child), pipe⟩) ∨
    (env.forks = false ∧ next = ⟨.start descriptors failed, none, pipe⟩) := by
  cases step with
  | fork calls succeeds =>
      cases calls
      exact .inl ⟨succeeds, rfl⟩
  | forkFails calls fails =>
      cases calls
      exact .inr ⟨fails, rfl⟩
  | caller acts => cases acts
  | child forked | write forked => cases forked
  | read calls | readEnd calls | readFails calls | wait calls | waitFails calls => cases calls

theorem Step.of_ret {result : Result}
    (step : Step env ⟨⟨descriptors, .running (.ret result)⟩, none, pipe⟩ next) :
    next = ⟨⟨descriptors, .returned result⟩, none, pipe⟩ := by
  cases step with
  | caller acts =>
      cases acts
      rfl
  | child forked | write forked => cases forked
  | fork calls | forkFails calls | read calls | readEnd calls | readFails calls | wait calls
  | waitFails calls => cases calls

theorem not_step_returned {result : Result} :
    ¬ Step env ⟨⟨descriptors, .returned result⟩, none, pipe⟩ next := by
  intro step
  cases step with
  | caller acts => cases acts
  | child forked | write forked => cases forked
  | fork calls | forkFails calls | read calls | readEnd calls | readFails calls | wait calls
  | waitFails calls => cases calls

end Childless

/-! ### The caller beside its child -/

/-- A step of the child alone or into the pipe: the child and the pipe behind it. -/
inductive ChildStep (env : Environment) (child : Process Result) (pipe : Text) :
    Process Result → Text → Prop where
  | act {next : Process Result} (acts : child.act env = some next) :
      ChildStep env child pipe next pipe
  | write {chunk rest : Text} (writes : child.phase = .executing (chunk ++ rest))
      (captured : child.descriptors.captured = true) :
      ChildStep env child pipe { child with phase := .executing rest } (pipe ++ chunk)

/-- What `waitpid` tells of the child. -/
inductive Told (env : Environment) (child : Process Result) : Option Ending → Prop where
  | ending {ending : Ending} (succeeds : env.waits = true) (finished : child.phase = .ended ending) :
      Told env child (some ending)
  | nothing (fails : env.waits = false) : Told env child none

section Beside

variable {env : Environment} {descriptors : Descriptors} {child : Process Result} {pipe : Text}
  {next : System Result}

/-- A caller in `waitpid` gets its answer, or the child goes on. -/
theorem Step.of_waitpid {answers : Option Ending → Code Result}
    (step : Step env ⟨⟨descriptors, .running (.waitpid answers)⟩, some child, pipe⟩ next) :
    (∃ answer, Told env child answer ∧
      next = ⟨.start descriptors (answers answer), some child, pipe⟩) ∨
    ∃ moved piped, ChildStep env child pipe moved piped ∧
      next = ⟨⟨descriptors, .running (.waitpid answers)⟩, some moved, piped⟩ := by
  cases step with
  | caller acts => cases acts
  | child forked acts =>
      cases forked
      exact .inr ⟨_, _, .act acts, rfl⟩
  | write forked writes captured =>
      cases forked
      exact .inr ⟨_, _, .write writes captured, rfl⟩
  | wait calls succeeds forked finished =>
      cases forked
      cases calls
      exact .inl ⟨_, .ending succeeds finished, rfl⟩
  | waitFails calls fails =>
      cases calls
      exact .inl ⟨_, .nothing fails, rfl⟩
  | fork calls | forkFails calls | read calls | readEnd calls | readFails calls => cases calls

/-- A caller that leaves does so, or the child goes on. -/
theorem Step.of_leaving {result : Result}
    (step : Step env ⟨⟨descriptors, .running (.ret result)⟩, some child, pipe⟩ next) :
    next = ⟨⟨descriptors, .returned result⟩, some child, pipe⟩ ∨
    ∃ moved piped, ChildStep env child pipe moved piped ∧
      next = ⟨⟨descriptors, .running (.ret result)⟩, some moved, piped⟩ := by
  cases step with
  | caller acts =>
      cases acts
      exact .inl rfl
  | child forked acts =>
      cases forked
      exact .inr ⟨_, _, .act acts, rfl⟩
  | write forked writes captured =>
      cases forked
      exact .inr ⟨_, _, .write writes captured, rfl⟩
  | fork calls | forkFails calls | read calls | readEnd calls | readFails calls | wait calls
  | waitFails calls => cases calls

/-- Behind a caller that came back only the child goes on. -/
theorem Step.of_returned {result : Result}
    (step : Step env ⟨⟨descriptors, .returned result⟩, some child, pipe⟩ next) :
    ∃ moved piped, ChildStep env child pipe moved piped ∧
      next = ⟨⟨descriptors, .returned result⟩, some moved, piped⟩ := by
  cases step with
  | caller acts => cases acts
  | child forked acts =>
      cases forked
      exact ⟨_, _, .act acts, rfl⟩
  | write forked writes captured =>
      cases forked
      exact ⟨_, _, .write writes captured, rfl⟩
  | fork calls | forkFails calls | read calls | readEnd calls | readFails calls | wait calls
  | waitFails calls => cases calls

end Beside

/-- What the child does by itself, the system does. -/
theorem reaches_of_child {caller child last : Process Result} {pipe : Text}
    (runs : Reaches (fun process next : Process Result => process.act env = some next) child last) :
    Reaches (Step env) ⟨caller, some child, pipe⟩ ⟨caller, some last, pipe⟩ := by
  induction runs with
  | refl => exact .refl
  | tail _ acts inductionHypothesis => exact inductionHypothesis.tail (.child rfl acts)

/-! ## Every run ends

Each step moves one process down its tree or takes output from the executed program. -/

/-- The codes that an answer of the kernel to a blocking call leads to. -/
inductive Code.Branch : Code Result → Code Result → Prop where
  | forkCaller {child caller failed : Code Result} : Branch (.fork child caller failed) caller
  | forkFailed {child caller failed : Code Result} : Branch (.fork child caller failed) failed
  | wait {next : Option Ending → Code Result} (answer : Option Ending) :
      Branch (.waitpid next) (next answer)
  | read {count : Nat} {next : Option Text → Code Result} (answer : Option Text) :
      Branch (.read count next) (next answer)

/-- One process goes on, whatever the other one does. -/
inductive Process.Advances (env : Environment) : Process Result → Process Result → Prop where
  | act {process next : Process Result} (acts : process.act env = some next) :
      Advances env process next
  | branch {process : Process Result} {code next : Code Result}
      (calls : process.phase = .running code) (branch : code.Branch next) :
      Advances env process (.start process.descriptors next)
  | write {process : Process Result} {chunk rest : Text} (nonempty : chunk ≠ [])
      (writes : process.phase = .executing (chunk ++ rest)) :
      Advances env process { process with phase := .executing rest }

namespace Process

theorem accessible_ended (descriptors : Descriptors) (ending : Ending) :
    Acc (fun next process : Process Result => Advances env process next)
      ⟨descriptors, .ended ending⟩ := by
  constructor
  intro next advances
  rcases advances with acts | ⟨calls, -⟩ | ⟨-, writes⟩
  · cases acts
  · cases calls
  · cases writes

theorem accessible_returned (descriptors : Descriptors) (result : Result) :
    Acc (fun next process : Process Result => Advances env process next)
      ⟨descriptors, .returned result⟩ := by
  constructor
  intro next advances
  rcases advances with acts | ⟨calls, -⟩ | ⟨-, writes⟩
  · cases acts
  · cases calls
  · cases writes

/-- An executed program has only its output to write and then to end. -/
theorem accessible_executing (descriptors : Descriptors) (unwritten : Text) :
    Acc (fun next process : Process Result => Advances env process next)
      ⟨descriptors, .executing unwritten⟩ := by
  induction size : unwritten.length using Nat.strong_induction_on generalizing unwritten with
  | _ length inductionHypothesis =>
      constructor
      intro next advances
      rcases advances with acts | ⟨calls, -⟩ | ⟨nonempty, writes⟩
      · cases unwritten with
        | nil =>
            obtain ⟨ending, rfl⟩ := act_executing_nil acts
            exact accessible_ended descriptors ending
        | cons byte rest =>
            obtain ⟨-, rfl⟩ := act_executing_cons acts
            exact inductionHypothesis rest.length (by simp [← size]) rest rfl
      · cases calls
      · rename_i chunk rest
        have shape : unwritten = chunk ++ rest := by
          injection writes
        have shorter : rest.length < length := by
          have positive := List.length_pos_iff.mpr nonempty
          rw [← size, shape, List.length_append]
          omega
        exact inductionHypothesis rest.length shorter rest rfl

theorem accessible_code {descriptors : Descriptors} {code : Code Result}
    (acted : ∀ next, Process.act env ⟨descriptors, .running code⟩ = some next →
      Acc (fun next process : Process Result => Advances env process next) next)
    (answered : ∀ next, code.Branch next →
      Acc (fun next process : Process Result => Advances env process next)
        ⟨descriptors, .running next⟩) :
    Acc (fun next process : Process Result => Advances env process next)
      ⟨descriptors, .running code⟩ := by
  constructor
  intro next advances
  rcases advances with acts | ⟨calls, branch⟩ | ⟨-, writes⟩
  · exact acted next acts
  · cases calls
    exact answered _ branch
  · cases writes

/-- A process with code to run goes to a part of that code or leaves it. -/
theorem accessible_running (descriptors : Descriptors) (code : Code Result) :
    Acc (fun next process : Process Result => Advances env process next)
      ⟨descriptors, .running code⟩ := by
  induction code generalizing descriptors with
  | fork child caller failed _ callerAccessible failedAccessible =>
      apply accessible_code
      · intro next acts
        cases acts
      · intro next branch
        cases branch with
        | forkCaller => exact callerAccessible descriptors
        | forkFailed => exact failedAccessible descriptors
  | waitpid _ accessible | read _ _ accessible =>
      apply accessible_code
      · intro next acts
        cases acts
      · rintro _ ⟨⟩
        exact accessible _ descriptors
  | setsid done failed doneAccessible failedAccessible
  | chdir path done failed doneAccessible failedAccessible =>
      apply accessible_code
      · rintro next ⟨⟩
        split
        · exact doneAccessible descriptors
        · exact failedAccessible descriptors
      · intro next branch
        cases branch
  | execv path argv failed failedAccessible =>
      apply accessible_code
      · rintro next ⟨⟩
        split
        · exact accessible_executing descriptors env.output
        · exact failedAccessible descriptors
      · intro next branch
        cases branch
  | pipe next nextAccessible | close _ next nextAccessible | dupPipe next nextAccessible
  | discard next nextAccessible =>
      apply accessible_code
      · rintro next ⟨⟩
        exact nextAccessible _
      · intro next branch
        cases branch
  | exit status =>
      apply accessible_code
      · rintro next ⟨⟩
        exact accessible_ended descriptors _
      · intro next branch
        cases branch
  | ret result =>
      apply accessible_code
      · rintro next ⟨⟩
        exact accessible_returned descriptors result
      · intro next branch
        cases branch

theorem advances_wellFounded :
    WellFounded fun next process : Process Result => Advances env process next := by
  constructor
  rintro ⟨descriptors, phase⟩
  cases phase with
  | running code => exact accessible_running descriptors code
  | executing unwritten => exact accessible_executing descriptors unwritten
  | ended ending => exact accessible_ended descriptors ending
  | returned result => exact accessible_returned descriptors result

end Process

/-- The same for the child, once there is one. -/
theorem childAdvances_wellFounded :
    WellFounded fun next child : Option (Process Result) =>
      ∃ before after, child = some before ∧ next = some after ∧ before.Advances env after := by
  have ofSome (process : Process Result) :
      Acc (fun next child : Option (Process Result) =>
        ∃ before after, child = some before ∧ next = some after ∧ before.Advances env after)
        (some process) := by
    induction process using (@Process.advances_wellFounded Result env).induction with
    | _ process inductionHypothesis =>
        constructor
        rintro next ⟨before, after, same, rfl, advances⟩
        cases same
        exact inductionHypothesis after advances
  constructor
  intro child
  cases child with
  | none =>
      constructor
      rintro next ⟨before, after, same, -⟩
      cases same
  | some process => exact ofSome process

/-- A step advances the caller, or it leaves the caller alone and advances the child. -/
theorem Step.advances {system next : System Result} (step : Step env system next) :
    system.caller.Advances env next.caller ∨
      next.caller = system.caller ∧ ∃ before after,
        system.child = some before ∧ next.child = some after ∧ before.Advances env after := by
  cases step with
  | caller acts => exact .inl (.act acts)
  | child forked acts => exact .inr ⟨rfl, _, _, forked, rfl, .act acts⟩
  | fork calls succeeds => exact .inl (.branch calls .forkCaller)
  | forkFails calls fails => exact .inl (.branch calls .forkFailed)
  | write forked writes captured nonempty room =>
      exact .inr ⟨rfl, _, _, forked, rfl, .write nonempty writes⟩
  | read calls nonempty short available => exact .inl (.branch calls (.read _))
  | readEnd calls empty callerClosed childClosed => exact .inl (.branch calls (.read _))
  | readFails calls fails => exact .inl (.branch calls (.read _))
  | wait calls succeeds forked finished => exact .inl (.branch calls (.wait _))
  | waitFails calls fails => exact .inl (.branch calls (.wait _))

/-- Whatever the order of steps, every run ends. -/
theorem step_terminates (env : Environment) : Terminates (@Step Result env) := by
  have wellFounded := @Process.advances_wellFounded Result env
  have childWellFounded := @childAdvances_wellFounded Result env
  refine Terminates.ofMeasure (wellFounded.prod_lex childWellFounded)
    (fun system => (system.caller, system.child)) ?_
  intro system next step
  rcases step.advances with callerAdvances | ⟨same, childAdvances⟩
  · exact .left _ _ callerAdvances
  · rw [same]
    exact .right _ childAdvances

/-! ## A child that ends by itself -/

section EndsAlone

variable (env : Environment) (captured mayExit : Bool)

/-- The code comes to an `exit` or to another program without waiting for anyone, and
never hands a result to its caller. The program's output is captured as given; a process
whose output is captured keeps the pipe open on its way. -/
def Code.EndsAlone (descriptors : Descriptors) (code : Code Result) : Prop :=
  (captured = true → descriptors.writesPipe = true) ∧
    match code with
    | .setsid done failed | .chdir _ done failed =>
        done.EndsAlone descriptors ∧ failed.EndsAlone descriptors
    | .pipe next => next.EndsAlone descriptors.piped
    | .close descriptor next => next.EndsAlone (descriptors.close descriptor)
    | .dupPipe next => next.EndsAlone descriptors.dupPipe
    | .discard next => next.EndsAlone descriptors.discard
    | .execv _ _ failed =>
        descriptors.captured = captured ∧ (env.execs = false → failed.EndsAlone descriptors)
    | .exit _ => mayExit = true
    | .ret _ | .fork .. | .waitpid _ | .read .. => False

/-- The same for a process on its way. -/
def Process.EndsAlone (process : Process Result) : Prop :=
  match process.phase with
  | .running code => code.EndsAlone env captured mayExit process.descriptors
  | .executing _ => process.descriptors.captured = captured
  | .ended _ => True
  | .returned _ => False

end EndsAlone

theorem Code.EndsAlone.writesPipe {captured mayExit : Bool} {descriptors : Descriptors}
    {code : Code Result} (alone : code.EndsAlone env captured mayExit descriptors)
    (captures : captured = true) : descriptors.writesPipe = true := by
  cases code <;> exact alone.1 captures

namespace Process

variable {captured mayExit : Bool} {process next : Process Result}

theorem EndsAlone.act (alone : process.EndsAlone env captured mayExit)
    (acts : process.act env = some next) : next.EndsAlone env captured mayExit := by
  obtain ⟨descriptors, phase⟩ := process
  cases phase with
  | running code =>
      cases code with
      | setsid done failed =>
          cases acts
          by_cases succeeds : env.setsid = true
          · simpa only [EndsAlone, if_pos succeeds] using alone.2.1
          · simpa only [EndsAlone, if_neg succeeds] using alone.2.2
      | chdir path done failed =>
          cases acts
          by_cases succeeds : env.chdir = true
          · simpa only [EndsAlone, if_pos succeeds] using alone.2.1
          · simpa only [EndsAlone, if_neg succeeds] using alone.2.2
      | execv path argv failed =>
          cases acts
          by_cases succeeds : env.execs = true
          · simpa only [EndsAlone, if_pos succeeds] using alone.2.1
          · simpa only [EndsAlone, if_neg succeeds] using alone.2.2 (by simpa using succeeds)
      | pipe next | close descriptor next | dupPipe next | discard next =>
          cases acts
          exact alone.2
      | exit status =>
          cases acts
          trivial
      | ret result | fork child caller failed | waitpid answers | read count answers =>
          exact alone.2.elim
  | executing unwritten =>
      cases unwritten with
      | nil =>
          obtain ⟨ending, rfl⟩ := act_executing_nil acts
          trivial
      | cons byte rest =>
          obtain ⟨-, rfl⟩ := act_executing_cons acts
          exact alone
  | ended ending => cases acts
  | returned result => cases acts

/-- Such a process is never held up before it has ended or runs another program. -/
theorem EndsAlone.moves (alone : process.EndsAlone env captured mayExit) {code : Code Result}
    (running : process.phase = .running code) : ∃ next, process.act env = some next := by
  obtain ⟨descriptors, phase⟩ := process
  cases running
  cases code with
  | ret result | fork child caller failed | waitpid answers | read count answers => exact alone.2.elim
  | setsid done failed | chdir path done failed | pipe next | close descriptor next | dupPipe next
  | discard next | execv path argv failed | exit status => exact ⟨_, rfl⟩

/-- The output that the program of a process has still to write: all of it before the
program is there, none once it has ended. -/
def unwritten (env : Environment) (process : Process Result) : Text :=
  match process.phase with
  | .running _ | .returned _ => env.output
  | .executing unwritten => unwritten
  | .ended _ => []

theorem unwritten_of_executing {output : Text} (executes : process.phase = .executing output) :
    process.unwritten env = output := by
  rw [unwritten, executes]

theorem unwritten_of_ended {ending : Ending} (ended : process.phase = .ended ending) :
    process.unwritten env = [] := by
  rw [unwritten, ended]

/-- Where output is captured, a step that the process takes by itself writes nothing. -/
theorem EndsAlone.unwritten_act (alone : process.EndsAlone env true false)
    (acts : process.act env = some next) : next.unwritten env = process.unwritten env := by
  obtain ⟨descriptors, phase⟩ := process
  cases phase with
  | running code =>
      cases code with
      | setsid done failed | chdir path done failed =>
          cases acts
          rfl
      | execv path argv failed =>
          cases acts
          by_cases succeeds : env.execs = true
          · simp only [unwritten, if_pos succeeds]
          · simp only [unwritten, if_neg succeeds]
      | pipe next | close descriptor next | dupPipe next | discard next =>
          cases acts
          rfl
      | exit status => exact (Bool.false_ne_true alone.2).elim
      | ret result | fork child caller failed | waitpid answers | read count answers =>
          exact alone.2.elim
  | executing output =>
      cases output with
      | nil =>
          obtain ⟨ending, rfl⟩ := act_executing_nil acts
          rfl
      | cons byte rest =>
          have captures : descriptors.captured = true := alone
          rw [(act_executing_cons acts).1] at captures
          cases captures
  | ended ending => cases acts
  | returned result => cases acts

/-- A process whose output is captured keeps the pipe open until it ends. -/
theorem EndsAlone.holdsWriteEnd (alone : process.EndsAlone env true mayExit)
    (alive : ∀ ending, process.phase ≠ .ended ending) : process.HoldsWriteEnd := by
  refine ⟨?_, alive⟩
  obtain ⟨descriptors, phase⟩ := process
  cases phase with
  | running code => exact Code.EndsAlone.writesPipe alone rfl
  | executing unwritten =>
      have captures : descriptors.captured = true := alone
      rw [Descriptors.captured, Bool.and_eq_true] at captures
      simp only [Descriptors.writesPipe, captures.1, Bool.or_true, Bool.true_or]
  | ended ending => exact absurd rfl (alive ending)
  | returned result => exact alone.elim

end Process

end Libamg.Semantics
