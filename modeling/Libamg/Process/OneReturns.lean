import Libamg.Process.Capture

/-!
# Which process comes back

`spawnDaemon` and `runProg` end every branch of the child with `exit`, so only the
calling process returns from them. The child of a capture returns when its program
cannot be executed, and its parent can fail to return: `exactlyOneReturns_iff` is the
exact condition.
-/

namespace Libamg.Process

open C Semantics

variable {env : Environment}

/-- The call has defined behaviour, and in every run exactly the calling process returns
from it. -/
def ExactlyOneReturns (env : Environment) (call : Call) : Prop :=
  ∃ code, call.code = .ok code ∧ OneReturns env code

/-- What a call needs: room for its arguments; and for a capture that gets a child, a
program that can be executed, reads that do not fail, and either no need to wait for the
program's end or a pipe that takes what the buffer leaves of its output. -/
def CallerOnly (env : Environment) : Call → Prop
  | .spawnDaemon _ args | .runProg _ _ args => args.length ≤ 8
  | .progCapture len _ args => args.length ≤ 8 ∧ (env.forks = true → env.execs = true ∧
      (env.readMayFail = true → len.toInt ≤ 1) ∧
      (env.ending = none ∨ env.waits = false ∨
        env.output.length ≤ (len.toInt - 1).toNat + env.capacity))

/-! ## The functions whose child exits -/

theorem daemonChild_endsAlone (path : Text) (argv : List (Option Text)) :
    (daemonChild path argv).EndsAlone env false true .initial := by
  have exits : (.exit 1 : Code Returned).EndsAlone env false true .initial := ⟨nofun, rfl⟩
  exact ⟨nofun, ⟨nofun, ⟨nofun, rfl, fun _ => exits⟩, exits⟩, exits⟩

theorem runChild_endsAlone (noOut : Int32) (path : Text) (argv : List (Option Text)) :
    (runChild noOut path argv).EndsAlone env false true .initial := by
  rw [runChild]
  split
  · exact ⟨nofun, nofun, rfl, fun _ => ⟨nofun, rfl⟩⟩
  · exact ⟨nofun, rfl, fun _ => ⟨nofun, rfl⟩⟩

theorem runParent_returns : runParent.Returns := by
  intro answer
  rcases answer with - | ending
  · trivial
  · cases ending with
    | killed signal => trivial
    | exited status =>
        by_cases negative : wexitstatus status < 0
        · simp only [if_pos negative]
          trivial
        · simp only [if_neg negative]
          trivial

/-! ## Capturing -/

section Capture

variable {path : Text} {argv : List (Option Text)} {len : Nat} {system : System Returned}

/-- The code of a capture with room for `len` bytes. -/
def captureCode (path : Text) (argv : List (Option Text)) (len : Nat) : Code Returned :=
  .pipe (.fork (captureChild path argv) (captureParent len) (ret (-1)))

/-- The caller of a capture is never held up for good: a full pipe is read from, or it
takes the rest of the output, and then the program ends. -/
theorem Reader.settled {caller child : Process Returned} {pipe stored : Text}
    (reader : Reader env len (∃ ending, child.phase = .ended ending) caller stored)
    (alone : child.EndsAlone env true false)
    (balance : stored ++ (pipe ++ child.unwritten env) = env.output)
    (reads : env.readMayFail = true → len = 0)
    (fits : env.ending = none ∨ env.waits = false ∨ env.output.length ≤ len + env.capacity)
    (halted : Halted (Step env) ⟨caller, some child, pipe⟩) :
    (∃ result, caller.phase = .returned result) ∨
      env.ending = none ∧ ∃ unwritten, child.phase = .executing unwritten := by
  cases reader with
  | closing | leaving => exact absurd (.caller rfl) (halted _)
  | left => exact .inl ⟨_, rfl⟩
  | failing fails positive | failed fails positive =>
      rw [reads fails] at positive
      exact absurd positive (Nat.lt_irrefl 0)
  | looping closed left =>
      obtain ⟨answers, loops, -⟩ := captureLoop_succ _ stored
      rw [loops] at halted
      cases pipe with
      | cons byte rest =>
          exact absurd (.read rfl (List.cons_ne_nil byte []) (Nat.succ_le_succ (Nat.zero_le _)) rfl)
            (halted _)
      | nil =>
          rcases alone.heldUp rfl halted with ⟨ending, finished⟩ |
            ⟨unwritten, executes, endless | ⟨-, full⟩⟩
          · refine absurd (.readEnd rfl rfl ?_ ?_) (halted _)
            · exact fun holds => Bool.false_ne_true (closed ▸ holds.1)
            · rintro process forked holds
              cases forked
              exact holds.2 ending finished
          · exact .inr ⟨endless, _, executes⟩
          · exact absurd env.capacity_pos (Nat.not_lt.mpr full)
  | finishing complete =>
      cases waits : env.waits with
      | false => exact absurd (.waitFails rfl waits) (halted _)
      | true =>
          rcases alone.heldUp rfl halted with ⟨ending, finished⟩ |
            ⟨unwritten, executes, endless | ⟨pending, full⟩⟩
          · exact absurd (.wait rfl waits rfl finished) (halted _)
          · exact .inr ⟨endless, _, executes⟩
          · rcases fits with endless | failing | fits
            · exact .inr ⟨endless, _, executes⟩
            · rw [waits] at failing
              cases failing
            · -- the bytes that are neither stored nor in the pipe do not exist
              have total := congrArg List.length balance
              rw [Process.unwritten_of_executing executes, complete, List.length_append,
                List.length_append, List.length_take] at total
              have bytes := List.length_pos_iff.mpr pending
              change env.capacity ≤ pipe.length at full
              omega

/-- The sound states of a capture. -/
theorem Capturing.sound (capturing : Capturing env path argv len system)
    (reads : env.forks = true → env.readMayFail = true → len = 0)
    (fits : env.forks = true →
      env.ending = none ∨ env.waits = false ∨ env.output.length ≤ len + env.capacity) :
    Sound env system := by
  cases capturing with
  | piping => exact .childless nofun nofun fun halted => absurd (.caller rfl) (halted _)
  | forking =>
      refine .childless nofun nofun ?_
      intro halted
      cases forks : env.forks with
      | true => exact absurd (.fork rfl forks) (halted _)
      | false => exact absurd (.forkFails rfl forks) (halted _)
  | failing => exact .childless nofun nofun fun halted => absurd (.caller rfl) (halted _)
  | failed => exact .childless nofun nofun fun _ => ⟨_, rfl⟩
  | together forks reader alone balance room =>
      refine ⟨?_, ?_, ?_, ?_⟩
      · rintro process forked
        cases forked
        exact alone.never
      · cases reader with
        | closing | looping | finishing | leaving | left | failing =>
            exact ⟨fun _ => nofun, fun _ => nofun⟩
        | failed fails positive =>
            rw [reads forks fails] at positive
            exact absurd positive (Nat.lt_irrefl 0)
      · intro halted
        rcases reader.settled alone balance (reads forks) (fits forks) halted with
          back | ⟨endless, unwritten, executes⟩
        · exact .inl back
        · exact .inr ⟨endless, _, unwritten, rfl, executes⟩
      · rintro halted process forked
        cases forked
        exact alone.leaves rfl halted

/-- The child of a capture whose program cannot be executed returns from the function. -/
theorem child_comes_back (path : Text) (argv : List (Option Text)) (len : Nat)
    (forks : env.forks = true) (missing : env.execs = false) :
    Reaches (Step env) (.start (captureCode path argv len))
      ⟨.start Descriptors.initial.piped (captureParent len),
        some ⟨⟨some .pipe, some .pipe, false, true⟩, .returned ⟨-1, []⟩⟩, []⟩ := by
  have execs (descriptors : Descriptors) :
      (⟨descriptors, .running (.execv path argv (ret (-1)))⟩ : Process Returned).act env =
        some ⟨descriptors, .running (ret (-1))⟩ := by
    rw [Semantics.Process.act]
    simp only [missing, Bool.false_eq_true, if_false]
  have child : Reaches (fun process next : Process Returned => process.act env = some next)
      (.start Descriptors.initial.piped (captureChild path argv))
      ⟨⟨some .pipe, some .pipe, false, true⟩, .returned ⟨-1, []⟩⟩ :=
    .head rfl <| .head rfl <| .head rfl <| .head rfl <| .head rfl <| .head (execs _) <| .head rfl .refl
  exact .head (.caller rfl) <| .head (.fork rfl forks) <| reaches_of_child child

theorem child_returns (path : Text) (argv : List (Option Text)) (len : Nat)
    (forks : env.forks = true) (missing : env.execs = false) :
    ¬ OneReturns env (captureCode path argv len) := by
  rintro ⟨-, sound⟩
  exact (sound _ (child_comes_back path argv len forks missing)).childNever _ rfl _ rfl

/-- A capture whose first read fails ends the calling process. -/
theorem caller_exits (path : Text) (argv : List (Option Text)) {len : Nat} (reads : 0 < len)
    (forks : env.forks = true) (fails : env.readMayFail = true) :
    ¬ OneReturns env (captureCode path argv len) := by
  intro oneReturns
  obtain ⟨len, rfl⟩ := Nat.exists_eq_succ_of_ne_zero (Nat.ne_of_gt reads)
  obtain ⟨answers, loops, exits, -⟩ := captureLoop_succ len []
  have sound := oneReturns.2 _ <|
    .head (.caller rfl) <| .head (.fork rfl forks) <| .head (.caller rfl) <|
    .head (.readFails (congrArg Phase.running loops) fails) <|
    .head (.caller (congrArg (fun code => Semantics.Process.act env ⟨_, .running code⟩) exits)) .refl
  exact sound.callerStays.1 _ rfl

/-- A capture that leaves more in the pipe than it holds waits for a child that waits
for the pipe. -/
theorem caller_blocks (path : Text) (argv : List (Option Text)) {len : Nat}
    (forks : env.forks = true) (executes : env.execs = true) (ends : env.ending ≠ none)
    (waits : env.waits = true) (long : len + env.capacity < env.output.length) :
    ¬ OneReturns env (captureCode path argv len) := by
  rintro ⟨terminates, sound⟩
  obtain ⟨last, reaches, halted⟩ := terminates.exists_halted (System.start (captureCode path argv len))
  have capturing : Capturing env path argv len last :=
    reaches.preserves (fun capturing step => capturing.step (fun _ => executes) step) .piping
  rcases (sound last reaches).settled halted with ⟨result, back⟩ | ⟨endless, -⟩
  · cases capturing with
    | piping | forking | failing => cases back
    | failed fails =>
        rw [fails] at forks
        cases forks
    | @together caller child pipe stored _ reader alone balance room =>
        cases reader with
        | closing | looping | finishing | leaving | failing | failed => cases back
        | left complete waited =>
            rcases waited with ⟨ending, finished⟩ | failing
            · have unwritten : child.unwritten env = [] := by
                rw [Process.unwritten, finished]
              have total := congrArg List.length balance
              rw [unwritten, complete, List.append_nil, List.length_append, List.length_take] at total
              omega
            · rw [waits] at failing
              cases failing
  · exact ends endless

end Capture

/-! ## The exact condition -/

theorem progCapture_iff (len : Int32) (path : Text) {args : List Text} (fits : args.length ≤ 8) :
    OneReturns env (captureCode path (argvOf path args) (len.toInt - 1).toNat) ↔
      CallerOnly env (.progCapture len path args) := by
  constructor
  · intro oneReturns
    refine ⟨fits, ?_⟩
    intro forks
    have executes : env.execs = true := by
      by_contra missing
      exact child_returns path _ _ forks (by simpa using missing) oneReturns
    refine ⟨executes, ?_, ?_⟩
    · intro fails
      by_contra reads
      exact caller_exits path _ (by omega) forks fails oneReturns
    · by_contra blocks
      simp only [not_or, Bool.not_eq_false, Nat.not_le] at blocks
      exact caller_blocks path _ forks executes blocks.1 blocks.2.1 blocks.2.2 oneReturns
  · rintro ⟨-, needs⟩
    refine ⟨step_terminates env, ?_⟩
    intro system reaches
    have capturing : Capturing env path (argvOf path args) (len.toInt - 1).toNat system :=
      reaches.preserves (fun capturing step => capturing.step (fun forks => (needs forks).1) step)
        .piping
    refine capturing.sound ?_ fun forks => (needs forks).2.2
    intro forks fails
    have nothing := (needs forks).2.1 fails
    omega

/-- Exactly one process returns from a call if and only if it has room for its arguments
and, for a capture, the child executes its program and nothing holds the parent up. -/
theorem exactlyOneReturns_iff (env : Environment) (call : Call) :
    ExactlyOneReturns env call ↔ CallerOnly env call := by
  by_cases fits : call.args.length ≤ 8
  · cases call with
    | spawnDaemon path args =>
        refine iff_of_true ⟨_, spawnDaemon_code path fits, ?_⟩ fits
        exact oneReturns_fork _ (daemonChild_endsAlone path _) trivial
    | runProg noOut path args =>
        refine iff_of_true ⟨_, runProg_code path fits noOut, ?_⟩ fits
        exact oneReturns_fork _ (runChild_endsAlone noOut path _) runParent_returns
    | progCapture len path args =>
        have code := @progCapture_code args path fits len
        rw [← @progCapture_iff env len path args fits]
        constructor
        · rintro ⟨found, defined, oneReturns⟩
          rw [code] at defined
          cases defined
          exact oneReturns
        · exact fun oneReturns => ⟨_, code, oneReturns⟩
  · have overrun := Call.code_overrun (Nat.lt_of_not_le fits)
    refine iff_of_false ?_ ?_
    · rintro ⟨code, defined, -⟩
      rw [overrun] at defined
      cases defined
    · intro only
      cases call with
      | spawnDaemon path args | runProg noOut path args => exact fits only
      | progCapture len path args => exact fits only.1

/-- A kernel that forks but finds no program to execute. -/
def missingProgram : Environment where
  forks := true
  setsid := true
  chdir := true
  execs := false
  waits := true
  readMayFail := false
  capacity := 65536
  capacity_pos := by decide
  output := []
  ending := some (.exited 0)

/-- Capturing the output of a program that is not there: the child returns -1 into the
program of its parent. -/
theorem capture_missing_program :
    (∃ code system child, (Call.progCapture 16 (lit "/bin/status") []).code = .ok code ∧
      Reaches (Step missingProgram) (.start code) system ∧ system.child = some child ∧
      child.phase = .returned ⟨-1, []⟩) ∧
    ¬ ExactlyOneReturns missingProgram (.progCapture 16 (lit "/bin/status") []) := by
  have code := @progCapture_code [] (lit "/bin/status") (Nat.zero_le 8) 16
  constructor
  · exact ⟨_, _, _, code, child_comes_back _ _ _ rfl rfl, rfl, rfl⟩
  · rintro ⟨found, defined, oneReturns⟩
    rw [code] at defined
    cases defined
    exact child_returns _ _ _ rfl rfl oneReturns

end Libamg.Process
