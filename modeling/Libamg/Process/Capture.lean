import Libamg.Process.Launch
import Libamg.Semantics.ForkSafety

/-!
# A run of a capture

Caller and child of `libamg_process_prog_capture` under any order of their steps, when
the program can be executed. What was read, what is in the pipe and what the program has
still to write always make up its output: that is the invariant `Capturing`.
-/

namespace Libamg.Process

open C Semantics

/-- One turn of the reading loop: what it does with each answer of `read`. -/
theorem captureLoop_succ (len : Nat) (stored : Text) :
    ∃ next, captureLoop (len + 1) stored = .read (len + 1) next ∧ next none = .exit (-1) ∧
      next (some []) = finish stored ∧
      ∀ chunk, chunk ≠ [] →
        next (some chunk) = captureLoop (len + 1 - chunk.length) (stored ++ chunk) := by
  refine ⟨_, by rw [captureLoop], rfl, rfl, ?_⟩
  intro chunk nonempty
  cases chunk with
  | nil => exact absurd rfl nonempty
  | cons byte rest => rfl

/-- Where the caller stands behind the fork, with the bytes it has stored; `finished` says
that the child has ended. -/
inductive Reader (env : Environment) (len : Nat) (finished : Prop) : Process Returned → Text → Prop
  | closing : Reader env len finished ⟨Descriptors.initial.piped, .running (captureParent len)⟩ []
  | looping {descriptors : Descriptors} {remaining : Nat} {stored : Text}
      (closed : descriptors.writesPipe = false) (left : stored.length + (remaining + 1) = len) :
      Reader env len finished ⟨descriptors, .running (captureLoop (remaining + 1) stored)⟩ stored
  | finishing {descriptors : Descriptors} {stored : Text} (complete : stored = env.output.take len) :
      Reader env len finished ⟨descriptors, .running (finish stored)⟩ stored
  | leaving {descriptors : Descriptors} {stored : Text} (complete : stored = env.output.take len)
      (waited : finished ∨ env.waits = false) :
      Reader env len finished ⟨descriptors, .running (.ret ⟨1, stored ++ [0]⟩)⟩ stored
  | left {descriptors : Descriptors} {stored : Text} (complete : stored = env.output.take len)
      (waited : finished ∨ env.waits = false) :
      Reader env len finished ⟨descriptors, .returned ⟨1, stored ++ [0]⟩⟩ stored
  | failing {descriptors : Descriptors} {stored : Text} (fails : env.readMayFail = true)
      (reads : 0 < len) : Reader env len finished ⟨descriptors, .running (.exit (-1))⟩ stored
  | failed {descriptors : Descriptors} {stored : Text} {ending : Ending}
      (fails : env.readMayFail = true) (reads : 0 < len) :
      Reader env len finished ⟨descriptors, .ended ending⟩ stored

namespace Reader

variable {env : Environment} {len : Nat} {finished : Prop} {caller : Process Returned}
  {stored : Text}

theorem mono {later : Prop} (continues : finished → later)
    (reader : Reader env len finished caller stored) : Reader env len later caller stored := by
  cases reader with
  | closing => exact .closing
  | looping closed left => exact .looping closed left
  | finishing complete => exact .finishing complete
  | leaving complete waited => exact .leaving complete (waited.imp_left continues)
  | left complete waited => exact .left complete (waited.imp_left continues)
  | failing fails reads => exact .failing fails reads
  | failed fails reads => exact .failed fails reads

/-- A caller at the head of the loop: still reading, or done with as much as it wants. -/
theorem loop {descriptors : Descriptors} {remaining : Nat} (closed : descriptors.writesPipe = false)
    (left : stored.length + remaining = len) (isPrefix : stored <+: env.output) :
    Reader env len finished ⟨descriptors, .running (captureLoop remaining stored)⟩ stored := by
  cases remaining with
  | succ remaining => exact .looping closed left
  | zero =>
      have complete : stored = env.output.take len := by
        rw [← left, Nat.add_zero]
        exact List.prefix_iff_eq_take.mp isPrefix
      rw [captureLoop]
      exact .finishing complete

/-- The steps of the caller that do not wait for anything. -/
theorem act {next : Process Returned} (reader : Reader env len finished caller stored)
    (acts : caller.act env = some next) : Reader env len finished next stored := by
  cases reader with
  | closing =>
      cases acts
      exact .loop rfl (Nat.zero_add len) List.nil_prefix
  | looping closed left =>
      obtain ⟨answers, loops, -⟩ := captureLoop_succ _ stored
      rw [loops] at acts
      cases acts
  | leaving complete waited =>
      cases acts
      exact .left complete waited
  | failing fails reads =>
      cases acts
      exact .failed fails reads
  | finishing | left | failed => cases acts

/-- A caller that reads is in the loop, with room left. -/
theorem of_read {count : Nat} {answers : Option Text → Code Returned}
    (reader : Reader env len finished caller stored)
    (calls : caller.phase = .running (.read count answers)) :
    caller.descriptors.writesPipe = false ∧ stored.length + count = len ∧ 0 < count ∧
      answers none = .exit (-1) ∧ answers (some []) = finish stored ∧
      ∀ chunk, chunk ≠ [] →
        answers (some chunk) = captureLoop (count - chunk.length) (stored ++ chunk) := by
  cases reader with
  | looping closed left =>
      obtain ⟨expected, loops, exits, ends, stores⟩ := captureLoop_succ _ stored
      rw [loops] at calls
      cases calls
      exact ⟨closed, left, Nat.succ_pos _, exits, ends, stores⟩
  | closing | finishing | leaving | left | failing | failed => cases calls

/-- A caller that waits has stored all it wants, and returns whatever it is told. -/
theorem of_wait {answers : Option Ending → Code Returned}
    (reader : Reader env len finished caller stored)
    (calls : caller.phase = .running (.waitpid answers)) :
    stored = env.output.take len ∧ ∀ answer, answers answer = .ret ⟨1, stored ++ [0]⟩ := by
  cases reader with
  | looping closed left =>
      obtain ⟨expected, loops, -⟩ := captureLoop_succ _ stored
      rw [loops] at calls
      cases calls
  | finishing complete =>
      cases calls
      exact ⟨complete, fun _ => rfl⟩
  | closing | leaving | left | failing | failed => cases calls

theorem not_fork {child parent failed : Code Returned}
    (reader : Reader env len finished caller stored) :
    caller.phase ≠ .running (.fork child parent failed) := by
  intro calls
  cases reader with
  | looping closed left =>
      obtain ⟨expected, loops, -⟩ := captureLoop_succ _ stored
      rw [loops] at calls
      cases calls
  | closing | finishing | leaving | left | failing | failed => cases calls

end Reader

/-- The states of a capture whose program is executed if there is a child at all. -/
inductive Capturing (env : Environment) (path : Text) (argv : List (Option Text)) (len : Nat) :
    System Returned → Prop where
  | piping : Capturing env path argv len
      (.start (.pipe (.fork (captureChild path argv) (captureParent len) (ret (-1)))))
  | forking : Capturing env path argv len
      ⟨⟨Descriptors.initial.piped,
        .running (.fork (captureChild path argv) (captureParent len) (ret (-1)))⟩, none, []⟩
  | failing {descriptors : Descriptors} (fails : env.forks = false) : Capturing env path argv len
      ⟨⟨descriptors, .running (ret (-1))⟩, none, []⟩
  | failed {descriptors : Descriptors} (fails : env.forks = false) : Capturing env path argv len
      ⟨⟨descriptors, .returned ⟨-1, []⟩⟩, none, []⟩
  | together {caller child : Process Returned} {pipe stored : Text} (forked : env.forks = true)
      (reader : Reader env len (∃ ending, child.phase = .ended ending) caller stored)
      (alone : child.EndsAlone env true false)
      (balance : stored ++ (pipe ++ child.unwritten env) = env.output)
      (room : pipe.length ≤ env.capacity) : Capturing env path argv len ⟨caller, some child, pipe⟩

namespace Capturing

variable {env : Environment} {path : Text} {argv : List (Option Text)} {len : Nat}
  {system next : System Returned}

theorem captureChild_endsAlone (executes : env.execs = true) :
    (captureChild path argv).EndsAlone env true false Descriptors.initial.piped := by
  refine ⟨fun _ => rfl, fun _ => rfl, fun _ => rfl, fun _ => rfl, fun _ => rfl, fun _ => rfl, rfl, ?_⟩
  rw [executes]
  exact nofun

/-- One step of either process keeps the balance of stored, piped and unwritten bytes. -/
theorem step_together {caller child : Process Returned} {pipe stored : Text}
    (reader : Reader env len (∃ ending, child.phase = .ended ending) caller stored)
    (alone : child.EndsAlone env true false)
    (balance : stored ++ (pipe ++ child.unwritten env) = env.output)
    (room : pipe.length ≤ env.capacity) (forks : env.forks = true)
    (step : Step env ⟨caller, some child, pipe⟩ next) :
    Capturing env path argv len next := by
  cases step with
  | caller acts => exact .together forks (reader.act acts) alone balance room
  | child forked acts =>
      cases forked
      rw [← alone.unwritten_act acts] at balance
      refine .together forks (reader.mono ?_) (alone.act acts) balance room
      exact fun ⟨ending, ended⟩ => absurd ended (Process.not_ended_of_act acts ending)
  | write forked writes captured nonempty fits =>
      cases forked
      refine .together forks (reader.mono ?_) captured ?_ ?_
      · rintro ⟨ending, ended⟩
        rw [writes] at ended
        cases ended
      · rw [Process.unwritten_of_executing writes] at balance
        rw [← balance, List.append_assoc]
        rfl
      · rw [List.length_append]
        exact fits
  | read calls nonempty short available =>
      rename_i count answers chunk rest
      obtain ⟨closed, left, -, -, -, stores⟩ := reader.of_read calls
      have shape : pipe = chunk ++ rest := available
      rw [shape, List.append_assoc, ← List.append_assoc] at balance
      rw [shape, List.length_append] at room
      rw [stores chunk nonempty]
      refine .together forks (.loop closed ?_ ⟨_, balance⟩) alone balance (by omega)
      rw [List.length_append]
      omega
  | readEnd calls empty callerClosed childClosed =>
      obtain ⟨-, left, -, -, ends, -⟩ := reader.of_read calls
      have finished : ∃ ending, child.phase = .ended ending := by
        by_contra alive
        exact childClosed child rfl (alone.holdsWriteEnd fun ending ended => alive ⟨ending, ended⟩)
      obtain ⟨ending, ended⟩ := finished
      have complete : stored = env.output.take len := by
        have nothing : pipe = [] := empty
        rw [nothing, Process.unwritten_of_ended ended, List.append_nil, List.append_nil] at balance
        rw [← balance, List.take_of_length_le (by omega)]
      rw [ends]
      exact .together forks (.finishing complete) alone balance room
  | readFails calls fails =>
      obtain ⟨-, left, positive, exits, -⟩ := reader.of_read calls
      rw [exits]
      exact .together forks (.failing fails (by omega)) alone balance room
  | wait calls succeeds forked finished =>
      cases forked
      obtain ⟨complete, returns⟩ := reader.of_wait calls
      rw [returns]
      exact .together forks (.leaving complete (.inl ⟨_, finished⟩)) alone balance room
  | waitFails calls fails =>
      obtain ⟨complete, returns⟩ := reader.of_wait calls
      rw [returns]
      exact .together forks (.leaving complete (.inr fails)) alone balance room
  | fork calls | forkFails calls => exact absurd calls reader.not_fork

/-- Every step keeps the invariant. -/
theorem step (executes : env.forks = true → env.execs = true)
    (capturing : Capturing env path argv len system) (step : Step env system next) :
    Capturing env path argv len next := by
  cases capturing with
  | piping =>
      cases step with
      | caller acts =>
          cases acts
          exact .forking
      | child forked | write forked => cases forked
      | fork calls | forkFails calls | read calls | readEnd calls | readFails calls | wait calls
      | waitFails calls => cases calls
  | forking =>
      rcases step.of_fork with ⟨succeeds, rfl⟩ | ⟨fails, rfl⟩
      · exact .together succeeds .closing (captureChild_endsAlone (executes succeeds)) rfl
          (Nat.zero_le _)
      · exact .failing fails
  | failing fails =>
      obtain rfl := step.of_ret
      exact .failed fails
  | failed => exact absurd step not_step_returned
  | together forks reader alone balance room =>
      exact step_together reader alone balance room forks step

end Capturing

end Libamg.Process
