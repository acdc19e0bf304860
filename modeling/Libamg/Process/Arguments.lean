import Libamg.C.Buffer
import Libamg.Process.Launch

/-!
# Collecting the arguments

The argument loops of the three functions that fork, store by store: `argv` has
`MAX_ARGS` elements and holds what was on the stack before. The array that `collectArgs`
hands on is what these stores leave, and all of them are inside the array exactly if there
are at most `MAX_ARGS - 2` arguments.
-/

namespace Libamg.Process

open C Semantics

/-- `char *argv[MAX_ARGS]`. -/
abbrev Argv : Type := Vector (Option Text) maxArgs

/-- The loop from index `i` on, with the array and the index it leaves. -/
def argvLoop (argv : Argv) (i : Nat) (args : List Text) : Checked (Argv × Nat) :=
  if i < maxArgs then
    match args with
    | [] => do
        -- `va_arg` comes to the NULL that ends the arguments
        let argv ← store argv i none
        return (argv, i)
    | arg :: args => do
        let argv ← store argv i (some arg)
        argvLoop argv (i + 1) args
  else return (argv, i)

/-- The statements from `argv[0] = path` to `argv[i] = NULL`. -/
def fillArgv (stack : Argv) (path : Text) (args : List Text) : Checked Argv := do
  let argv ← store stack 0 (some path)
  let (argv, i) ← argvLoop argv 1 args
  store argv i none

/-- `execv` reads the array up to its first NULL. -/
def Argv.upToNull (argv : Argv) : List (Option Text) := argv.toList.takeWhile Option.isSome ++ [none]

/-- The array of a call when it comes to fork. -/
def Call.argv (stack : Argv) : Call → Checked Argv
  | spawnDaemon path args | runProg _ path args | progCapture _ path args =>
      fillArgv stack path args

/-- What a call does with its arguments collected. -/
def Call.launch (argv : List (Option Text)) : Call → Code Returned
  | spawnDaemon path _ => .fork (daemonChild path argv) (ret 0) (ret (-1))
  | runProg noOut path _ => .fork (runChild noOut path argv) runParent (ret (-1))
  | progCapture len path _ =>
      .pipe (.fork (captureChild path argv) (captureParent (len.toInt - 1).toNat) (ret (-1)))

/-- The program to be executed. -/
def Call.path : Call → Text
  | spawnDaemon path _ | runProg _ path _ | progCapture _ path _ => path

/-! ## The loop -/

/-- The loop stops behind the last argument, where that is inside the array. -/
theorem argvLoop_of_lt {args : List Text} {i : Nat} (argv : Argv) (fits : i + args.length < maxArgs) :
    ∃ after, argvLoop argv i args = .ok (after, i + args.length) ∧
      after.toList.take (i + args.length) = argv.toList.take i ++ args.map some := by
  induction args generalizing argv i with
  | nil =>
      have inside : i < maxArgs := fits
      refine ⟨argv.set i none inside, ?_, ?_⟩
      · rw [argvLoop, if_pos inside]
        simp only [store_inside inside]
        rfl
      · have front := congrArg (List.take i) (@take_set _ _ argv i inside none)
        rw [List.take_take, Nat.min_eq_left (Nat.le_succ i),
          List.take_append_of_le_length (by simp [Nat.le_of_lt inside]), List.take_take,
          Nat.min_self] at front
        rw [List.length_nil, Nat.add_zero, front, List.map_nil, List.append_nil]
  | cons arg args inductionHypothesis =>
      have inside : i < maxArgs := by omega
      have next : i + (arg :: args).length = i + 1 + args.length := by
        rw [List.length_cons]
        omega
      rw [next] at fits ⊢
      obtain ⟨after, returned, front⟩ := inductionHypothesis (argv.set i (some arg) inside) fits
      refine ⟨after, ?_, ?_⟩
      · rw [argvLoop, if_pos inside]
        simp only [store_inside inside]
        exact returned
      · rw [front, take_set inside, List.append_assoc]
        rfl

/-- With more arguments than that it stops at the end of the array. -/
theorem argvLoop_of_ge {args : List Text} {i : Nat} (argv : Argv) (inside : i ≤ maxArgs)
    (long : maxArgs ≤ i + args.length) : ∃ after, argvLoop argv i args = .ok (after, maxArgs) := by
  induction args generalizing argv i with
  | nil =>
      have last : i = maxArgs := Nat.le_antisymm inside long
      subst last
      exact ⟨argv, by rw [argvLoop, if_neg (Nat.lt_irrefl maxArgs)]; rfl⟩
  | cons arg args inductionHypothesis =>
      by_cases room : i < maxArgs
      · have goesOn : maxArgs ≤ i + 1 + args.length := by
          rw [List.length_cons] at long
          omega
        obtain ⟨after, returned⟩ := inductionHypothesis (argv.set i (some arg) room) room goesOn
        refine ⟨after, ?_⟩
        rw [argvLoop, if_pos room]
        simp only [store_inside room]
        exact returned
      · have last : i = maxArgs := by omega
        subst last
        exact ⟨argv, by rw [argvLoop, if_neg room]; rfl⟩

/-! ## The array -/

section Filled

variable {stack : Argv} {path : Text} {args : List Text}

/-- All stores are inside the array, and its front is the path, the arguments and NULL. -/
theorem fillArgv_eq (fits : args.length ≤ maxArgs - 2) :
    ∃ argv, fillArgv stack path args = .ok argv ∧
      argv.toList.take (args.length + 2) = argvOf path args := by
  have first : 0 < maxArgs := by decide
  have short : 1 + args.length < maxArgs := by
    rw [maxArgs] at fits ⊢
    omega
  obtain ⟨after, returned, front⟩ := argvLoop_of_lt (stack.set 0 (some path) first) short
  refine ⟨after.set (1 + args.length) none short, ?_, ?_⟩
  · rw [fillArgv, store_inside first, Checked.ok_bind, returned, Checked.ok_bind]
    exact store_inside short none
  · have length : args.length + 2 = 1 + args.length + 1 := by omega
    rw [length, take_set short, front, take_set first]
    rfl

/-- With one argument more the NULL behind the loop is stored behind the array. -/
theorem fillArgv_overrun (long : maxArgs - 1 ≤ args.length) :
    fillArgv stack path args = .error .outOfBounds := by
  have first : 0 < maxArgs := by decide
  have full : maxArgs ≤ 1 + args.length := by omega
  obtain ⟨after, returned⟩ := argvLoop_of_ge (stack.set 0 (some path) first) first full
  rw [fillArgv, store_inside first, Checked.ok_bind, returned, Checked.ok_bind]
  exact store_overrun (Nat.le_refl maxArgs) none

/-- What `execv` reads of an array with the path, the arguments and NULL at its front. -/
theorem upToNull_eq {argv : Argv} {count : Nat} (front : argv.toList.take count = argvOf path args) :
    argv.upToNull = argvOf path args := by
  have given : ∀ arg ∈ some path :: args.map some, Option.isSome arg = true := by
    intro arg listed
    rcases List.mem_cons.mp listed with rfl | listed
    · rfl
    · obtain ⟨text, -, rfl⟩ := List.mem_map.mp listed
      rfl
  have shape : argv.toList = some path :: args.map some ++ none :: argv.toList.drop count := by
    have parts := (List.take_append_drop count argv.toList).symm
    rw [front, argvOf] at parts
    simpa using parts
  rw [Argv.upToNull, shape, List.takeWhile_append_of_pos given,
    List.takeWhile_cons_of_neg Bool.false_ne_true, List.append_nil]
  rfl

/-- The array of `collectArgs` is what `execv` reads of the filled one. -/
theorem collectArgs_eq_fillArgv (stack : Argv) (path : Text) (args : List Text) :
    collectArgs path args = (fillArgv stack path args).map Argv.upToNull := by
  by_cases fits : args.length ≤ 8
  · obtain ⟨argv, filled, front⟩ := @fillArgv_eq stack path args fits
    rw [collectArgs_eq path fits, filled, Except.map, upToNull_eq front]
    rfl
  · have long : 9 ≤ args.length := Nat.lt_of_not_le fits
    rw [collectArgs_overrun path long, fillArgv_overrun long]
    rfl

end Filled

/-- A call goes on with the array that its loop filled. -/
theorem Call.code_eq_launch (stack : Argv) (call : Call) :
    call.code = (call.argv stack).map fun argv => call.launch argv.upToNull := by
  cases call with
  | spawnDaemon path args =>
      rw [code, Process.spawnDaemon, collectArgs_eq_fillArgv stack, argv]
      cases fillArgv stack path args <;> rfl
  | runProg noOut path args =>
      rw [code, Process.runProg, collectArgs_eq_fillArgv stack, argv]
      cases fillArgv stack path args <;> rfl
  | progCapture len path args =>
      rw [code, Process.progCapture, collectArgs_eq_fillArgv stack, argv]
      cases fillArgv stack path args <;> rfl

/-- Every store is inside the array, which ends up with the path, as many arguments as
there is room for and NULL at its front; that is what the call goes on with. -/
def CollectsArgs (stack : Argv) (call : Call) : Prop :=
  ∃ argv, call.argv stack = .ok argv ∧
    argv.toList.take (min call.args.length (maxArgs - 2) + 2) =
      argvOf call.path (call.args.take (maxArgs - 2)) ∧
    call.code = .ok (call.launch (argvOf call.path (call.args.take (maxArgs - 2))))

theorem Call.argv_eq (stack : Argv) (call : Call) :
    call.argv stack = fillArgv stack call.path call.args := by
  cases call <;> rfl

/-- The arguments of a call are collected as they should be exactly if at most
`MAX_ARGS - 2` of them stand behind the path. -/
theorem collectsArgs_iff (stack : Argv) (call : Call) :
    CollectsArgs stack call ↔ call.args.length ≤ maxArgs - 2 := by
  constructor
  · rintro ⟨argv, filled, -⟩
    by_contra long
    have overrun : fillArgv stack call.path call.args = .error .outOfBounds :=
      fillArgv_overrun (by omega)
    rw [call.argv_eq, overrun] at filled
    cases filled
  · intro fits
    obtain ⟨argv, filled, front⟩ := @fillArgv_eq stack call.path call.args fits
    have whole : call.args.take (maxArgs - 2) = call.args := List.take_of_length_le fits
    rw [← call.argv_eq] at filled
    refine ⟨argv, filled, ?_, ?_⟩
    · rw [whole, Nat.min_eq_left fits]
      exact front
    · rw [whole, call.code_eq_launch stack, filled, Except.map, upToNull_eq front]

/-- Nine arguments: the loop ends at the bound, and `argv[10]` is set to NULL. -/
theorem nine_arguments :
    ¬ CollectsArgs (Vector.replicate maxArgs none)
      (.runProg 0 (lit "/bin/ls") (List.replicate 9 (lit "-l"))) := by
  rintro ⟨argv, filled, -⟩
  have overrun : (Call.runProg 0 (lit "/bin/ls") (List.replicate 9 (lit "-l"))).argv
      (Vector.replicate maxArgs none) = .error .outOfBounds := fillArgv_overrun (Nat.le_refl 9)
  rw [overrun] at filled
  cases filled

end Libamg.Process
