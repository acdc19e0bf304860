import Libamg.Process.OneReturns

/-!
# The status of a program that was run

What `libamg_process_run_prog` returns, over all runs of caller and child. The child's
ending crosses to the parent in the low byte of its status, which the parent compares
with zero as a signed number although it never is below.
-/

namespace Libamg.Process

open C Semantics

/-- What `waitpid` reports of the child in the end: the ending of the program, or the exit
behind an `execv` that failed. -/
def childEnding (env : Environment) : Option Ending :=
  if env.execs then env.ending else some (.exited (-1 : Int32).toUInt32.toUInt8)

/-- What the parent returns when `waitpid` answers. -/
def verdict : Option Ending → Int32
  | none | some (.killed _) => -1
  | some (.exited status) => if wexitstatus status < 0 then -1 else 0

/-- The low byte of a status is no negative number. -/
theorem wexitstatus_nonneg (status : UInt8) : ¬ wexitstatus status < 0 := by
  have byte : status.toUInt32.toNat < 256 := status.toNat_lt
  have value : (wexitstatus status).toInt = status.toUInt32.toNat := by
    rw [wexitstatus, UInt32.toInt32, Int32.toInt]
    refine BitVec.toInt_eq_toNat_of_lt ?_
    change 2 * status.toUInt32.toNat < 2 ^ 32
    omega
  rw [Int32.lt_iff_toInt_lt, value]
  exact Int.not_lt.mpr (Int.natCast_nonneg _)

@[simp] theorem verdict_exited (status : UInt8) : verdict (some (.exited status)) = 0 :=
  if_neg (wexitstatus_nonneg status)

theorem runParent_eq : runParent = .waitpid fun answer => ret (verdict answer) := by
  rw [runParent]
  congr 1
  funext answer
  rcases answer with - | ending
  · rfl
  · cases ending with
    | killed signal => rfl
    | exited status =>
        simp only [verdict_exited]
        exact if_neg (wexitstatus_nonneg status)

/-! ## Runs -/

/-- The child of a call, from the fork to its end. -/
inductive ChildOf (env : Environment) (path : Text) (argv : List (Option Text)) :
    Process Returned → Prop where
  | discarding {descriptors : Descriptors} : ChildOf env path argv
      ⟨descriptors, .running (.discard (.execv path argv (.exit (-1))))⟩
  | launching {descriptors : Descriptors} : ChildOf env path argv
      ⟨descriptors, .running (.execv path argv (.exit (-1)))⟩
  | missing {descriptors : Descriptors} (fails : env.execs = false) : ChildOf env path argv
      ⟨descriptors, .running (.exit (-1))⟩
  | executing {descriptors : Descriptors} {unwritten : Text} (executes : env.execs = true) :
      ChildOf env path argv ⟨descriptors, .executing unwritten⟩
  | finished {descriptors : Descriptors} {ending : Ending} (reports : childEnding env = some ending) :
      ChildOf env path argv ⟨descriptors, .ended ending⟩

namespace ChildOf

variable {env : Environment} {path : Text} {argv : List (Option Text)}
  {child next : Process Returned}

theorem start (noOut : Int32) (descriptors : Descriptors) :
    ChildOf env path argv (.start descriptors (runChild noOut path argv)) := by
  rw [runChild]
  split
  · exact .discarding
  · exact .launching

theorem act (childOf : ChildOf env path argv child) (acts : child.act env = some next) :
    ChildOf env path argv next := by
  cases childOf with
  | discarding =>
      cases acts
      exact .launching
  | launching =>
      cases acts
      cases executes : env.execs with
      | true => exact .executing executes
      | false => exact .missing executes
  | missing fails =>
      cases acts
      refine .finished ?_
      rw [childEnding, fails]
      rfl
  | executing executes =>
      rename_i descriptors unwritten
      cases unwritten with
      | cons byte rest =>
          obtain ⟨-, rfl⟩ := Process.act_executing_cons acts
          exact .executing executes
      | nil =>
          obtain ⟨ending, ends, rfl⟩ := Option.map_eq_some_iff.mp acts
          refine .finished ?_
          rw [childEnding, executes]
          exact ends
  | finished => cases acts

theorem reports {ending : Ending} (childOf : ChildOf env path argv child)
    (ended : child.phase = .ended ending) : childEnding env = some ending := by
  cases childOf with
  | finished reports =>
      cases ended
      exact reports
  | discarding | launching | missing | executing => cases ended

theorem executes {unwritten : Text} (childOf : ChildOf env path argv child)
    (executing : child.phase = .executing unwritten) : env.execs = true := by
  cases childOf with
  | executing executes => exact executes
  | discarding | launching | missing | finished => cases executing

theorem step {pipe piped : Text} (childOf : ChildOf env path argv child)
    (childStep : ChildStep env child pipe next piped) : ChildOf env path argv next := by
  cases childStep with
  | act acts => exact childOf.act acts
  | write writes => exact .executing (childOf.executes writes)

end ChildOf

/-- The answer to the wait of a caller that came back from it. -/
def answered (env : Environment) : Option Ending := if env.waits then childEnding env else none

theorem ChildOf.answered {env : Environment} {path : Text} {argv : List (Option Text)}
    {child : Process Returned} {answer : Option Ending} (childOf : ChildOf env path argv child)
    (told : Told env child answer) : answered env = answer := by
  cases told with
  | ending succeeds finished =>
      rw [Process.answered, succeeds]
      exact childOf.reports finished
  | nothing fails =>
      rw [Process.answered, fails]
      rfl

/-- The states of a call. A caller that came back has decoded the ending of the child. -/
inductive Running (env : Environment) (noOut : Int32) (path : Text) (argv : List (Option Text)) :
    System Returned → Prop where
  | before : Running env noOut path argv
      (.start (.fork (runChild noOut path argv) runParent (ret (-1))))
  | failing {descriptors : Descriptors} {pipe : Text} (fails : env.forks = false) :
      Running env noOut path argv ⟨⟨descriptors, .running (ret (-1))⟩, none, pipe⟩
  | failed {descriptors : Descriptors} {pipe : Text} (fails : env.forks = false) :
      Running env noOut path argv ⟨⟨descriptors, .returned ⟨-1, []⟩⟩, none, pipe⟩
  | waiting {descriptors : Descriptors} {child : Process Returned} {pipe : Text}
      (forks : env.forks = true) (childOf : ChildOf env path argv child) :
      Running env noOut path argv ⟨⟨descriptors, .running runParent⟩, some child, pipe⟩
  | leaving {descriptors : Descriptors} {child : Process Returned} {pipe : Text}
      {answer : Option Ending} (forks : env.forks = true) (childOf : ChildOf env path argv child)
      (told : answered env = answer) : Running env noOut path argv
        ⟨⟨descriptors, .running (ret (verdict answer))⟩, some child, pipe⟩
  | left {descriptors : Descriptors} {child : Process Returned} {pipe : Text}
      {answer : Option Ending} (forks : env.forks = true) (childOf : ChildOf env path argv child)
      (told : answered env = answer) : Running env noOut path argv
        ⟨⟨descriptors, .returned ⟨verdict answer, []⟩⟩, some child, pipe⟩

namespace Running

variable {env : Environment} {noOut : Int32} {path : Text} {argv : List (Option Text)}
  {system next : System Returned}

theorem step (running : Running env noOut path argv system) (step : Step env system next) :
    Running env noOut path argv next := by
  cases running with
  | before =>
      rcases step.of_fork with ⟨forks, rfl⟩ | ⟨fails, rfl⟩
      · exact .waiting forks (.start noOut _)
      · exact .failing fails
  | failing fails =>
      obtain rfl := step.of_ret
      exact .failed fails
  | failed => exact absurd step not_step_returned
  | waiting forks childOf =>
      rw [runParent_eq] at step
      rcases step.of_waitpid with ⟨answer, told, rfl⟩ | ⟨moved, piped, childStep, rfl⟩
      · exact .leaving forks childOf (childOf.answered told)
      · rw [← runParent_eq]
        exact .waiting forks (childOf.step childStep)
  | leaving forks childOf told =>
      rcases step.of_leaving with rfl | ⟨moved, piped, childStep, rfl⟩
      · exact .left forks childOf told
      · exact .leaving forks (childOf.step childStep) told
  | left forks childOf told =>
      obtain ⟨moved, piped, childStep, rfl⟩ := step.of_returned
      exact .left forks (childOf.step childStep) told

/-- A caller that came back returned what it decoded, or that it could not fork. -/
theorem returned {result : Returned} (running : Running env noOut path argv system)
    (back : system.caller.phase = .returned result) :
    result.value = if env.forks then verdict (answered env) else -1 := by
  cases running with
  | failed fails =>
      cases back
      rw [fails]
      rfl
  | left forks childOf told =>
      cases back
      rw [forks, told]
      rfl
  | before | failing | waiting | leaving => cases back

theorem executes {child : Process Returned} {unwritten : Text}
    (running : Running env noOut path argv system) (forked : system.child = some child)
    (executing : child.phase = .executing unwritten) : env.forks = true ∧ env.execs = true := by
  cases running with
  | before | failing | failed => cases forked
  | waiting forks childOf | leaving forks childOf | left forks childOf =>
      cases forked
      exact ⟨forks, childOf.executes executing⟩

end Running

/-! ## The returned status -/

/-- The program was executed and exited with status 0. -/
def ExitsZero (env : Environment) : Prop :=
  env.forks = true ∧ env.execs = true ∧ env.ending = some (.exited 0)

instance (env : Environment) : Decidable (ExitsZero env) :=
  inferInstanceAs (Decidable (_ ∧ _ ∧ _))

/-- In every run the caller comes back, unless the program never ends, and what it returns
is 0 if the program was executed and exited with status 0 and -1 otherwise. -/
def ReportsStatus (env : Environment) (noOut : Int32) (path : Text) (args : List Text) : Prop :=
  ∃ code, (Call.runProg noOut path args).code = .ok code ∧ Terminates (@Step Returned env) ∧
    ∀ system, Reaches (Step env) (System.start code) system →
      (∀ result, system.caller.phase = .returned result →
        result.value = if ExitsZero env then 0 else -1) ∧
      (Halted (Step env) system → (∃ result, system.caller.phase = .returned result) ∨
        env.ending = none ∧
          ∃ child unwritten, system.child = some child ∧ child.phase = .executing unwritten)

/-- All arguments fit; a child that is waited for executes its program, which exits with no
other status than 0; and a program whose ending the wait fails to report does not succeed. -/
def StatusKept (env : Environment) (args : List Text) : Prop :=
  args.length ≤ maxArgs - 2 ∧
    (env.forks = true → env.waits = true →
      env.execs = true ∧ ∀ status, env.ending = some (.exited status) → status = 0) ∧
    (env.waits = false → ¬ ExitsZero env)

theorem not_exitsZero {env : Environment} (endless : env.ending = none) : ¬ ExitsZero env := by
  rintro ⟨-, -, exits⟩
  rw [endless] at exits
  cases exits

/-- What is decoded is right exactly under that condition. -/
theorem verdict_answered_iff (env : Environment) :
    (if env.forks then verdict (answered env) else -1) = (if ExitsZero env then 0 else -1) ↔
      (env.forks = true → env.waits = true →
        env.execs = true ∧ ∀ status, env.ending = some (.exited status) → status = 0) ∧
      (env.waits = false → ¬ ExitsZero env) := by
  cases forks : env.forks with
  | false =>
      have unexecuted : ¬ ExitsZero env := by
        rintro ⟨forked, -⟩
        rw [forks] at forked
        cases forked
      simp [unexecuted]
  | true =>
      cases waits : env.waits with
      | false => simp [answered, waits, verdict]
      | true =>
          cases executes : env.execs with
          | false => simp [answered, waits, childEnding, executes, ExitsZero]
          | true =>
              rcases ending : env.ending with - | exits
              · simp [answered, waits, childEnding, executes, ending, verdict, ExitsZero]
              · cases exits with
                | killed signal =>
                    simp [answered, waits, childEnding, executes, ending, verdict, ExitsZero]
                | exited status =>
                    simp [answered, waits, childEnding, executes, ending, forks, ExitsZero]

/-- Of a program that never ends there is nothing to decode. -/
theorem verdict_endless {env : Environment} (forks : env.forks = true) (executes : env.execs = true)
    (endless : env.ending = none) :
    (if env.forks then verdict (answered env) else -1) = (if ExitsZero env then 0 else -1) := by
  have nothing : answered env = none := by
    rw [answered, childEnding, executes, endless]
    split <;> rfl
  rw [forks, nothing, if_neg (not_exitsZero endless)]
  rfl

/-- `libamg_process_run_prog` reports the status of its program exactly under the condition
`StatusKept`. -/
theorem reportsStatus_iff (env : Environment) (noOut : Int32) (path : Text) (args : List Text) :
    ReportsStatus env noOut path args ↔ StatusKept env args := by
  by_cases fits : args.length ≤ 8
  · have code := @runProg_code args path fits noOut
    have one : OneReturns env (.fork (runChild noOut path (argvOf path args)) runParent (ret (-1))) :=
      oneReturns_fork _ (runChild_endsAlone noOut path _) runParent_returns
    have running : ∀ system, Reaches (Step env) (System.start
        (.fork (runChild noOut path (argvOf path args)) runParent (ret (-1)))) system →
        Running env noOut path (argvOf path args) system :=
      fun system reaches => reaches.preserves (fun running step => running.step step) .before
    have room : args.length ≤ maxArgs - 2 := fits
    rw [StatusKept, ← verdict_answered_iff, and_iff_right room]
    constructor
    · rintro ⟨found, defined, terminates, reports⟩
      rw [code] at defined
      cases defined
      obtain ⟨last, reaches, halted⟩ := terminates.exists_halted (System.start _)
      rcases (reports last reaches).2 halted with ⟨result, back⟩ | ⟨endless, child, _, forked, executing⟩
      · rw [← (running last reaches).returned back]
        exact (reports last reaches).1 result back
      · obtain ⟨forks, executes⟩ := (running last reaches).executes forked executing
        exact verdict_endless forks executes endless
    · intro right
      refine ⟨_, code, one.1, ?_⟩
      intro system reaches
      refine ⟨?_, (one.2 system reaches).settled⟩
      intro result back
      rw [(running system reaches).returned back, right]
  · refine iff_of_false ?_ fun kept => fits kept.1
    rintro ⟨found, defined, -⟩
    have overrun : (Call.runProg noOut path args).code = .error .outOfBounds :=
      Call.code_overrun (Nat.lt_of_not_le fits)
    rw [overrun] at defined
    cases defined

/-- A program that is not there: its child exits with status 255, and 0 is returned. -/
theorem run_missing_program : ¬ ReportsStatus missingProgram 0 (lit "/bin/status") [] := by
  have code := @runProg_code [] (lit "/bin/status") (Nat.zero_le 8) 0
  rintro ⟨found, defined, terminates, reports⟩
  rw [code] at defined
  cases defined
  obtain ⟨last, reaches, halted⟩ := terminates.exists_halted (System.start _)
  have running : Running missingProgram 0 (lit "/bin/status") (argvOf (lit "/bin/status") []) last :=
    reaches.preserves (fun running step => running.step step) .before
  rcases (reports last reaches).2 halted with ⟨result, back⟩ | ⟨endless, -⟩
  · have returned := running.returned back
    rw [(reports last reaches).1 result back] at returned
    exact absurd returned (by decide)
  · cases endless

end Libamg.Process
