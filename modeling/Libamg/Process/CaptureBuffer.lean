import Libamg.C.Buffer
import Libamg.Process.Capture

/-!
# The buffer of a capture

The parent of `libamg_process_prog_capture` byte by byte: `len` counts down, `buf` moves
through `buffer`, and each `read` hands over any part of the output that it likes. The
bytes stored so far are what `captureLoop` has stored.
-/

namespace Libamg.Process

open C Semantics

/-- The parent behind the fork: what is left of `len`, how far `buf` is from `buffer`, and
the bytes of `buffer`. -/
structure Parent (size : Nat) where
  len : Nat
  buf : Nat
  buffer : CharArray size

namespace Parent

variable {size : Nat}

/-- `read` stores a chunk at `buf`. -/
def stores (parent : Parent size) (chunk : Text) : Checked (Parent size) := do
  let buffer ← parent.buffer.writeAt parent.buf chunk
  return ⟨parent.len - chunk.length, parent.buf + chunk.length, buffer⟩

/-- `*buf = 0`. -/
def closes (parent : Parent size) : Checked (CharArray size) :=
  parent.buffer.writeAt parent.buf [0]

end Parent

/-- The parent before the test of its loop, with the output that is still to come; or what
it leaves in the buffer. -/
inductive CaptureState (size : Nat) where
  | looping (parent : Parent size) (unread : Text)
  | done (buffer : CharArray size)
  | faulted (fault : Fault)

namespace CaptureState

variable {size : Nat}

/-- Go on with what a store returns. -/
def after {α : Type} (stored : Checked α) (next : α → CaptureState size) : CaptureState size :=
  match stored with
  | .ok value => next value
  | .error fault => .faulted fault

/-- `len--; buf = buffer;` -/
def start (buffer : CharArray size) (output : Text) : CaptureState size :=
  .looping ⟨size - 1, 0, buffer⟩ output

/-- What is still to come, with a turn for the end of the file. -/
def left : CaptureState size → Nat
  | looping _ unread => unread.length + 1
  | done _ | faulted _ => 0

theorem left_after_done (stored : Checked (CharArray size)) : (after stored done).left = 0 := by
  cases stored <;> rfl

end CaptureState

/-- One turn of the loop, or the statement behind it. -/
inductive CaptureStep {size : Nat} : CaptureState size → CaptureState size → Prop where
  | chunk {parent : Parent size} {unread chunk rest : Text} (wants : 0 < parent.len)
      (nonempty : chunk ≠ []) (short : chunk.length ≤ parent.len) (available : unread = chunk ++ rest) :
      CaptureStep (.looping parent unread) (.after (parent.stores chunk) fun next => .looping next rest)
  | endOfFile {parent : Parent size} (wants : 0 < parent.len) :
      CaptureStep (.looping parent []) (.after parent.closes .done)
  | full {parent : Parent size} {unread : Text} (wantsNothing : parent.len = 0) :
      CaptureStep (.looping parent unread) (.after parent.closes .done)

section Loop

variable {size : Nat} {untouched : CharArray size} {output : Text} {state next : CaptureState size}

/-- Every turn takes something of the output or ends the loop. -/
theorem CaptureStep.lowers (step : CaptureStep state next) : next.left < state.left := by
  cases step with
  | chunk wants nonempty short available =>
      rename_i parent unread chunk rest
      have positive : 0 < chunk.length := List.length_pos_iff.mpr nonempty
      have length : unread.length = chunk.length + rest.length := by
        rw [available, List.length_append]
      cases parent.stores chunk with
      | ok stored =>
          change rest.length + 1 < unread.length + 1
          omega
      | error fault => exact Nat.succ_pos _
  | endOfFile | full =>
      rw [CaptureState.left_after_done]
      exact Nat.succ_pos _

theorem captureStep_terminates (size : Nat) : Terminates (@CaptureStep size) :=
  .ofMeasure Nat.lt_wfRel.wf CaptureState.left CaptureStep.lowers

/-- The invariant: the front of the buffer has been overwritten with what was read, there
is room for the rest of `len` and a NUL behind it, and `captureLoop` is as far. -/
inductive Mirrors (untouched : CharArray size) (output : Text) :
    CaptureState size → Code Returned → Prop where
  | looping {stored unread : Text} {len : Nat} (whole : stored ++ unread = output)
      (room : stored.length + (len + 1) = size) : Mirrors untouched output
        (.looping ⟨len, stored.length, untouched.overwrite stored⟩ unread) (captureLoop len stored)
  | done {stored : Text} (complete : stored = output.take (size - 1)) : Mirrors untouched output
      (.done (untouched.overwrite (stored ++ [0]))) (finish stored)

/-- The NUL goes behind the bytes stored. -/
theorem Mirrors.closes {stored : Text} {len : Nat} (room : stored.length + (len + 1) = size)
    (complete : stored = output.take (size - 1)) :
    Mirrors untouched output
      (.after (Parent.closes ⟨len, stored.length, untouched.overwrite stored⟩) .done)
      (finish stored) := by
  have fits : stored.length + [(0 : Byte)].length ≤ size := by
    rw [List.length_singleton]
    omega
  rw [Parent.closes, CharArray.writeAt_overwrite untouched fits]
  exact .done complete

theorem Mirrors.notFaulted {code : Code Returned} (mirrors : Mirrors untouched output state code)
    (fault : Fault) : state ≠ .faulted fault := by
  rintro rfl
  cases mirrors

/-- What a turn stores, the loop of `captureLoop` stores. -/
theorem Mirrors.step {code : Code Returned} (mirrors : Mirrors untouched output state code)
    (step : CaptureStep state next) :
    ∃ continued, Reaches Code.Branch code continued ∧ Mirrors untouched output next continued := by
  cases mirrors with
  | done => cases step
  | looping whole room =>
      rename_i stored unread len
      cases step with
      | chunk wants nonempty short available =>
          rename_i chunk rest
          obtain ⟨len, rfl⟩ := Nat.exists_eq_succ_of_ne_zero (Nat.ne_of_gt wants)
          obtain ⟨answers, loops, -, -, stores⟩ := captureLoop_succ len stored
          have short : chunk.length ≤ len + 1 := short
          have fits : stored.length + chunk.length ≤ size := by omega
          refine ⟨answers (some chunk), ?_, ?_⟩
          · rw [loops]
            exact .single (.read (some chunk))
          · rw [stores chunk nonempty, Parent.stores, CharArray.writeAt_overwrite untouched fits]
            change Mirrors untouched output (.looping ⟨len + 1 - chunk.length,
              stored.length + chunk.length, untouched.overwrite (stored ++ chunk)⟩ rest) _
            rw [← List.length_append]
            refine .looping ?_ ?_
            · rw [List.append_assoc, ← available, whole]
            · rw [List.length_append]
              omega
      | endOfFile wants =>
          obtain ⟨len, rfl⟩ := Nat.exists_eq_succ_of_ne_zero (Nat.ne_of_gt wants)
          obtain ⟨answers, loops, -, ends, -⟩ := captureLoop_succ len stored
          refine ⟨answers (some []), ?_, ?_⟩
          · rw [loops]
            exact .single (.read (some []))
          · rw [ends]
            refine .closes room ?_
            rw [← whole, List.append_nil, List.take_of_length_le (by omega)]
      | full wantsNothing =>
          have nothing : len = 0 := wantsNothing
          subst nothing
          refine ⟨finish stored, ?_, .closes room ?_⟩
          · rw [captureLoop]
          · have length : size - 1 = stored.length := by omega
            rw [← whole, length, List.take_left]

/-- A run of the parent goes down the tree of its system calls and keeps the invariant. -/
theorem mirrors_reaches (positive : 0 < size)
    (reaches : Reaches CaptureStep (.start untouched output) state) :
    ∃ code, Reaches Code.Branch (captureLoop (size - 1) []) code ∧
      Mirrors untouched output state code := by
  induction reaches with
  | refl =>
      refine ⟨_, .refl, ?_⟩
      have room : ([] : Text).length + (size - 1 + 1) = size := by
        rw [List.length_nil]
        omega
      have looping := @Mirrors.looping size untouched output _ _ _ (List.nil_append output) room
      rw [CharArray.overwrite_nil] at looping
      exact looping
  | tail _ step inductionHypothesis =>
      obtain ⟨code, leads, mirrors⟩ := inductionHypothesis
      obtain ⟨continued, goesOn, kept⟩ := mirrors.step step
      exact ⟨continued, leads.trans goesOn, kept⟩

/-- However the output is split, the loop ends without a store behind the buffer, and the
buffer then holds as much of the output as fits before a NUL. -/
theorem capture_leaves_output (positive : 0 < size) (untouched : CharArray size) (output : Text) :
    Terminates (@CaptureStep size) ∧
    ∀ state, Reaches CaptureStep (.start untouched output) state →
      (∀ fault, state ≠ .faulted fault) ∧
      (Halted CaptureStep state → ∃ buffer, state = .done buffer ∧
        buffer.bytes = output.take (min (size - 1) output.length) ++
          0 :: untouched.bytes.drop (min (size - 1) output.length + 1)) := by
  refine ⟨captureStep_terminates size, ?_⟩
  intro state reaches
  obtain ⟨code, -, mirrors⟩ := mirrors_reaches positive reaches
  have sound := mirrors.notFaulted
  cases mirrors with
  | looping whole room =>
      refine ⟨sound, ?_⟩
      intro halted
      rename_i stored unread len
      cases len with
      | zero => exact absurd (.full rfl) (halted _)
      | succ len =>
          cases unread with
          | nil => exact absurd (.endOfFile (Nat.succ_pos len)) (halted _)
          | cons byte rest =>
              exact absurd (.chunk (Nat.succ_pos len) (List.cons_ne_nil byte [])
                (Nat.le_add_left 1 len) rfl) (halted _)
  | done complete =>
      rename_i stored
      refine ⟨sound, fun _ => ⟨_, rfl, ?_⟩⟩
      have length : (stored ++ [0]).length = min (size - 1) output.length + 1 := by
        rw [List.length_append, complete, List.length_take]
        rfl
      have fits : (stored ++ [0]).length ≤ size := by omega
      rw [CharArray.overwrite_bytes fits, length, complete, List.append_assoc,
        ← List.take_eq_take_min]
      rfl

end Loop

/-- A buffer of three bytes and five bytes of output. -/
theorem capture_leaves_output_three :
    0 < 3 ∧ Terminates (@CaptureStep 3) ∧
    ∀ state, Reaches CaptureStep (.start (.zero 3) (lit "ready")) state →
      (∀ fault, state ≠ .faulted fault) ∧
      (Halted CaptureStep state → ∃ buffer, state = .done buffer ∧ buffer.bytes = lit "re" ++ [0]) := by
  have leaves := capture_leaves_output (by decide) (.zero 3) (lit "ready")
  exact ⟨by decide, leaves.1, leaves.2⟩

end Libamg.Process
