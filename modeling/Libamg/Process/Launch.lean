import Libamg.C.Memory
import Libamg.Semantics.Processes

/-!
# Launching programs

The three functions of `process.c` that fork: the arguments they collect and what each
of the two processes does after the fork. Log output and the file mode mask are left
out; the buffer of a capture is what the function has stored from its start on.
-/

namespace Libamg.Process

open C Semantics

/-- `MAX_ARGS`. -/
def maxArgs : Nat := 10

/-- `argv[1]`, `argv[2]`, …: the argument loop with `room` indices left. It stops behind
the NULL that ends the arguments, or where the array ends. -/
def argLoop : Nat → List Text → List (Option Text)
  | 0, _ => []
  | _ + 1, [] => [none]
  | room + 1, arg :: args => some arg :: argLoop room args

/-- The array for `execv`. After the loop a NULL is stored at its last index: that of the
NULL read, or `MAX_ARGS`, which is behind the array. -/
def collectArgs (path : Text) (args : List Text) : Checked (List (Option Text)) :=
  let argv := some path :: argLoop (maxArgs - 1) args
  if argv.getLast? = some none then .ok argv else .error .outOfBounds

/-- What a call hands back: the returned number and the bytes stored in its buffer. -/
structure Returned where
  value : Int32
  buffer : Text
deriving DecidableEq

/-- `return value` from a function without a buffer, or with nothing stored in it. -/
def ret (value : Int32) : Code Returned := .ret ⟨value, []⟩

/-- The child of `spawnDaemon`. -/
def daemonChild (path : Text) (argv : List (Option Text)) : Code Returned :=
  .setsid (.chdir (lit "/") (.execv path argv (.exit 1)) (.exit 1)) (.exit 1)

/-- `libamg_process_spawn_daemon`. -/
def spawnDaemon (path : Text) (args : List Text) : Checked (Code Returned) := do
  let argv ← collectArgs path args
  return .fork (daemonChild path argv) (ret 0) (ret (-1))

/-- `WEXITSTATUS`: the low byte of the status, as a number. -/
def wexitstatus (status : UInt8) : Int32 := status.toUInt32.toInt32

/-- The child of `runProg`, with both output streams reopened if they are unwanted. -/
def runChild (noOut : Int32) (path : Text) (argv : List (Option Text)) : Code Returned :=
  if noOut ≠ 0 then .discard (.execv path argv (.exit (-1))) else .execv path argv (.exit (-1))

/-- The parent of `runProg`. -/
def runParent : Code Returned :=
  .waitpid fun
    | none => ret (-1)
    -- not WIFEXITED
    | some (.killed _) => ret (-1)
    | some (.exited status) => if wexitstatus status < 0 then ret (-1) else ret 0

/-- `libamg_process_run_prog`. -/
def runProg (noOut : Int32) (path : Text) (args : List Text) : Checked (Code Returned) := do
  let argv ← collectArgs path args
  return .fork (runChild noOut path argv) runParent (ret (-1))

/-- The end of a capture: the terminating NUL, and the wait whose result is ignored. -/
def finish (stored : Text) : Code Returned := .waitpid fun _ => .ret ⟨1, stored ++ [0]⟩

/-- The reading loop with `len` bytes left to read. A failing read ends the process. -/
def captureLoop (len : Nat) (stored : Text) : Code Returned :=
  match len with
  | 0 => finish stored
  | len + 1 => .read (len + 1) fun
    | none => .exit (-1)
    | some [] => finish stored
    | some (byte :: rest) =>
        captureLoop (len + 1 - (byte :: rest).length) (stored ++ byte :: rest)
termination_by len
decreasing_by
  rw [List.length_cons]
  omega

/-- The child of a capture: its output descriptors become copies of the pipe's write end.
Unlike in the other functions, it returns when the program cannot be executed. -/
def captureChild (path : Text) (argv : List (Option Text)) : Code Returned :=
  .close .pipeRead <| .close .stdout <| .close .stderr <| .dupPipe <| .dupPipe <|
    .execv path argv (ret (-1))

def captureParent (len : Nat) : Code Returned := .close .pipeWrite (captureLoop len [])

/-- `libamg_process_prog_capture`. The buffer keeps one byte for the NUL. -/
def progCapture (len : Int32) (path : Text) (args : List Text) : Checked (Code Returned) := do
  let argv ← collectArgs path args
  return .pipe (.fork (captureChild path argv) (captureParent (len.toInt - 1).toNat) (ret (-1)))

/-- A call of one of the three functions. -/
inductive Call where
  | spawnDaemon (path : Text) (args : List Text)
  | runProg (noOut : Int32) (path : Text) (args : List Text)
  | progCapture (len : Int32) (path : Text) (args : List Text)

/-- What a call does. -/
def Call.code : Call → Checked (Code Returned)
  | spawnDaemon path args => Process.spawnDaemon path args
  | runProg noOut path args => Process.runProg noOut path args
  | progCapture len path args => Process.progCapture len path args

/-- The arguments behind the path, without the NULL that ends them. -/
def Call.args : Call → List Text
  | spawnDaemon _ args | runProg _ _ args | progCapture _ _ args => args

/-! ## The arguments -/

theorem argLoop_of_le {room : Nat} {args : List Text} (fits : args.length < room) :
    argLoop room args = args.map some ++ [none] := by
  induction args generalizing room with
  | nil =>
      obtain ⟨room, rfl⟩ := Nat.exists_eq_succ_of_ne_zero (Nat.ne_of_gt fits)
      rfl
  | cons arg args inductionHypothesis =>
      obtain ⟨room, rfl⟩ := Nat.exists_eq_succ_of_ne_zero (Nat.ne_of_gt (Nat.zero_lt_of_lt fits))
      rw [argLoop, inductionHypothesis (Nat.lt_of_succ_lt_succ fits)]
      rfl

theorem argLoop_of_ge {room : Nat} {args : List Text} (long : room ≤ args.length) :
    argLoop room args = (args.take room).map some := by
  induction room generalizing args with
  | zero => rfl
  | succ room inductionHypothesis =>
      cases args with
      | nil => exact absurd long (Nat.not_succ_le_zero room)
      | cons arg args =>
          rw [argLoop, inductionHypothesis (Nat.le_of_succ_le_succ long)]
          rfl

/-- Up to eight arguments fit behind the path. -/
theorem collectArgs_eq {args : List Text} (path : Text) (fits : args.length ≤ 8) :
    collectArgs path args = .ok (some path :: (args.map some ++ [none])) := by
  have short : args.length < maxArgs - 1 := Nat.lt_succ_of_le fits
  have ends : (some path :: (args.map some ++ [none])).getLast? = some none := by
    rw [← List.cons_append, List.getLast?_append]
    rfl
  rw [collectArgs, argLoop_of_le short]
  exact if_pos ends

/-- With nine or more the NULL is stored behind the array. -/
theorem collectArgs_overrun {args : List Text} (path : Text) (long : 9 ≤ args.length) :
    collectArgs path args = .error .outOfBounds := by
  have filled : argLoop (maxArgs - 1) args = (args.take 9).map some := argLoop_of_ge long
  have noNull : (some path :: (args.take 9).map some).getLast? ≠ some none := by
    rw [← List.map_cons, List.getLast?_map]
    intro null
    obtain ⟨last, -, isNone⟩ := Option.map_eq_some_iff.mp null
    cases isNone
  rw [collectArgs, filled]
  exact if_neg noNull

/-- The array for `execv` when all arguments fit. -/
def argvOf (path : Text) (args : List Text) : List (Option Text) :=
  some path :: (args.map some ++ [none])

section Codes

variable {args : List Text} (path : Text) (fits : args.length ≤ 8)
include fits

theorem spawnDaemon_code : (Call.spawnDaemon path args).code =
    .ok (.fork (daemonChild path (argvOf path args)) (ret 0) (ret (-1))) := by
  rw [Call.code, spawnDaemon, collectArgs_eq path fits]
  rfl

theorem runProg_code (noOut : Int32) : (Call.runProg noOut path args).code =
    .ok (.fork (runChild noOut path (argvOf path args)) runParent (ret (-1))) := by
  rw [Call.code, runProg, collectArgs_eq path fits]
  rfl

theorem progCapture_code (len : Int32) : (Call.progCapture len path args).code =
    .ok (.pipe (.fork (captureChild path (argvOf path args)) (captureParent (len.toInt - 1).toNat)
      (ret (-1)))) := by
  rw [Call.code, progCapture, collectArgs_eq path fits]
  rfl

end Codes

theorem Call.code_overrun {call : Call} (long : 9 ≤ call.args.length) :
    call.code = .error .outOfBounds := by
  cases call with
  | spawnDaemon path args =>
      have overrun := @collectArgs_overrun args path long
      rw [code, Process.spawnDaemon, overrun]
      rfl
  | runProg noOut path args =>
      have overrun := @collectArgs_overrun args path long
      rw [code, Process.runProg, overrun]
      rfl
  | progCapture len path args =>
      have overrun := @collectArgs_overrun args path long
      rw [code, Process.progCapture, overrun]
      rfl

end Libamg.Process
