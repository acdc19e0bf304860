import Libamg.C.Decimal
import Libamg.C.Lines
import Libamg.Semantics.Run
import Mathlib.Algebra.Order.Field.Rat
import Mathlib.Tactic.FieldSimp
import Mathlib.Tactic.Linarith

/-!
# Processor usage

`libamg_system_get_cpu_usage` keeps the seven counters of the last line that it scanned in
static variables, zeros before the first one, and divides by how much they have grown
since. The numbers are exact here: floating point and the rounding of the text are left out.
-/

namespace Libamg.System

open C Semantics

/-- The counters of a line, and the static variables that keep them. -/
@[ext] structure Counters where
  user : Int
  nice : Int
  system : Int
  idle : Int
  iowait : Int
  irq : Int
  softirq : Int
deriving DecidableEq

namespace Counters

/-- The static variables before the first call. -/
def zero : Counters := ⟨0, 0, 0, 0, 0, 0, 0⟩

/-- No counter is lower. -/
structure Le (old new : Counters) : Prop where
  user : old.user ≤ new.user
  nice : old.nice ≤ new.nice
  system : old.system ≤ new.system
  idle : old.idle ≤ new.idle
  iowait : old.iowait ≤ new.iowait
  irq : old.irq ≤ new.irq
  softirq : old.softirq ≤ new.softirq

/-- How much all counters have grown. -/
def total (old new : Counters) : Int :=
  (new.user - old.user) + (new.nice - old.nice) + (new.system - old.system) +
    (new.idle - old.idle) + (new.iowait - old.iowait) + (new.irq - old.irq) +
    (new.softirq - old.softirq)

/-- How much all but the idle time has grown. -/
def busy (old new : Counters) : Int :=
  (new.user - old.user) + (new.nice - old.nice) + (new.system - old.system) +
    (new.iowait - old.iowait) + (new.irq - old.irq) + (new.softirq - old.softirq)

end Counters

/-- `%Lu`: a number behind white space, with the text behind it. -/
def scanLu (text : Text) : Option (Int × Text) :=
  let body := text.dropWhile isSpace
  let negative := body.head? = some minus
  let digits := if negative ∨ body.head? = some 43 then body.tail else body
  let run := digits.takeWhile isDigit
  if run = [] then none
  else some (if negative then -(digitsValue run) else digitsValue run, digits.drop run.length)

/-- The numbers of `count` conversions, if all of them succeed. -/
def scanLus : Nat → Text → Option (List Int)
  | 0, _ => some []
  | count + 1, text =>
      match scanLu text with
      | none => none
      | some (number, rest) => (scanLus count rest).map (number :: ·)

/-- `sscanf(buf, "cpu %Lu %Lu %Lu %Lu %Lu %Lu %Lu", ...) == 7`. -/
def scanCounters (buf : Text) : Option Counters :=
  if lit "cpu" <+: buf then
    match scanLus 7 (buf.drop 3) with
    | some [user, nice, system, idle, iowait, irq, softirq] =>
        some ⟨user, nice, system, idle, iowait, irq, softirq⟩
    | _ => none
  else none

/-- What /proc/stat reads as: never as an empty file. -/
structure Stat where
  text : Text
  nonempty : text ≠ []

/-- The counters of the first line, as far as the buffer holds it. -/
def Stat.scan (stat : Stat) : Option Counters :=
  (fgetsLines 256 stat.text).head?.bind fun buf => scanCounters (cstr buf)

/-- What a call divides by and the two numbers that it prints. -/
structure Usage where
  divisor : ℚ
  cpu : ℚ
  idle : ℚ

/-- The arithmetic of a call. -/
def usage (old new : Counters) : Usage :=
  let divisor : ℚ := old.total new
  let scale := 100 / divisor
  ⟨divisor, old.busy new * scale, (new.idle - old.idle : Int) * scale⟩

/-- The counters of a snapshot, where the file is opened and its line is scanned. -/
def scanned (stat : Option Stat) : Option Counters := stat.bind Stat.scan

/-- `libamg_system_get_cpu_usage`, with what it computes, if it computes anything. -/
def getCpuUsage (old : Counters) (stat : Option Stat) : Option Usage × Counters :=
  match scanned stat with
  | none => (none, old)
  | some new => (some (usage old new), new)

/-- The division is one, and the two numbers are parts of a hundred. -/
structure Usage.Sound (usage : Usage) : Prop where
  divides : usage.divisor ≠ 0
  cpu_nonneg : 0 ≤ usage.cpu
  cpu_le : usage.cpu ≤ 100
  idle_nonneg : 0 ≤ usage.idle
  idle_le : usage.idle ≤ 100
  sum : usage.cpu + usage.idle = 100

/-- The counters of a sequence of snapshots never fall. -/
def NonDecreasing (old : Counters) (stats : List (Option Stat)) : Prop :=
  (old :: stats.filterMap scanned).IsChain Counters.Le

/-- Some counter has grown between any two snapshots scanned, and since before the first. -/
def Grows (old : Counters) (stats : List (Option Stat)) : Prop :=
  (old :: stats.filterMap scanned).IsChain (· ≠ ·)

/-- Every call of a run that computes something does so soundly. -/
def AllSound (old : Counters) (stats : List (Option Stat)) : Prop :=
  ∀ answer ∈ (run getCpuUsage old stats).1, ∀ usage, answer = some usage → usage.Sound

/-! ## One call -/

section Call

variable {old new : Counters}

theorem Counters.total_eq (old new : Counters) :
    old.total new = old.busy new + (new.idle - old.idle) := by
  rw [total, busy]
  omega

theorem Counters.Le.busy_nonneg (le : old.Le new) : 0 ≤ old.busy new := by
  obtain ⟨user, nice, system, -, iowait, irq, softirq⟩ := le
  rw [busy]
  omega

/-- Counters that do not fall have not grown exactly if they are the same. -/
theorem Counters.Le.total_eq_zero_iff (le : old.Le new) : old.total new = 0 ↔ old = new := by
  obtain ⟨user, nice, system, idle, iowait, irq, softirq⟩ := le
  rw [total, Counters.ext_iff]
  omega

/-- Two parts of a positive sum, each as a percentage of it. -/
theorem percent_sound {busy idle : ℚ} (busyNonneg : 0 ≤ busy) (idleNonneg : 0 ≤ idle)
    (positive : 0 < busy + idle) :
    0 ≤ busy * (100 / (busy + idle)) ∧ busy * (100 / (busy + idle)) ≤ 100 ∧
      busy * (100 / (busy + idle)) + idle * (100 / (busy + idle)) = 100 := by
  have sum : busy * (100 / (busy + idle)) + idle * (100 / (busy + idle)) = 100 := by
    field_simp
  have scale : 0 ≤ 100 / (busy + idle) := div_nonneg (by norm_num) positive.le
  have idlePart : 0 ≤ idle * (100 / (busy + idle)) := mul_nonneg idleNonneg scale
  exact ⟨mul_nonneg busyNonneg scale, by linarith, sum⟩

/-- A call is sound exactly if some counter has grown. -/
theorem usage_sound_iff (le : old.Le new) : (usage old new).Sound ↔ old ≠ new := by
  have divisor : (usage old new).divisor = (old.total new : ℚ) := rfl
  constructor
  · intro sound same
    refine sound.divides ?_
    rw [divisor, le.total_eq_zero_iff.mpr same, Int.cast_zero]
  · intro grown
    have nonzero : old.total new ≠ 0 := fun zero => grown (le.total_eq_zero_iff.mp zero)
    have busyNonneg : (0 : ℚ) ≤ old.busy new := Int.cast_nonneg le.busy_nonneg
    have idleNonneg : (0 : ℚ) ≤ (new.idle - old.idle : Int) :=
      Int.cast_nonneg (Int.sub_nonneg.mpr le.idle)
    have parts : (old.total new : ℚ) = old.busy new + (new.idle - old.idle : Int) := by
      rw [Counters.total_eq, Int.cast_add]
    have positive : (0 : ℚ) < old.busy new + (new.idle - old.idle : Int) := by
      refine lt_of_le_of_ne (add_nonneg busyNonneg idleNonneg) ?_
      rw [← parts]
      exact (Int.cast_ne_zero.mpr nonzero).symm
    obtain ⟨cpuNonneg, cpuLe, sum⟩ := percent_sound busyNonneg idleNonneg positive
    rw [← parts] at cpuNonneg cpuLe sum
    refine ⟨Int.cast_ne_zero.mpr nonzero, cpuNonneg, cpuLe, ?_, ?_, sum⟩
    · have idle := eq_sub_of_add_eq' sum
      change 0 ≤ _ * (100 / (old.total new : ℚ))
      rw [idle]
      exact sub_nonneg.mpr cpuLe
    · have idle := eq_sub_of_add_eq' sum
      change _ * (100 / (old.total new : ℚ)) ≤ 100
      rw [idle]
      exact sub_le_self 100 cpuNonneg

end Call

/-! ## Runs -/

theorem run_getCpuUsage_cons (old : Counters) (stat : Option Stat) (stats : List (Option Stat)) :
    (run getCpuUsage old (stat :: stats)).1 =
      (getCpuUsage old stat).1 :: (run getCpuUsage (getCpuUsage old stat).2 stats).1 := rfl

theorem allSound_cons (old : Counters) (stat : Option Stat) (stats : List (Option Stat)) :
    AllSound old (stat :: stats) ↔
      (∀ usage, (getCpuUsage old stat).1 = some usage → usage.Sound) ∧
        AllSound (getCpuUsage old stat).2 stats := by
  rw [AllSound, run_getCpuUsage_cons, List.forall_mem_cons]
  rfl

/-- From any counters on: by induction on the snapshots, where one that is not scanned leaves
the counters as they are. -/
theorem allSound_iff {old : Counters} {stats : List (Option Stat)}
    (nonDecreasing : NonDecreasing old stats) : AllSound old stats ↔ Grows old stats := by
  induction stats generalizing old with
  | nil =>
      refine iff_of_true ?_ (.singleton old)
      intro answer member
      cases member
  | cons stat stats inductionHypothesis =>
      rw [allSound_cons, getCpuUsage]
      cases line : scanned stat with
      | none =>
          rw [NonDecreasing, List.filterMap_cons_none line] at nonDecreasing
          rw [Grows, List.filterMap_cons_none line]
          refine Iff.trans (and_iff_right ?_) (inductionHypothesis nonDecreasing)
          rintro usage impossible
          cases impossible
      | some new =>
          rw [NonDecreasing, List.filterMap_cons_some line, List.isChain_cons_cons] at nonDecreasing
          rw [Grows, List.filterMap_cons_some line, List.isChain_cons_cons,
            ← usage_sound_iff nonDecreasing.1]
          refine and_congr ?_ (inductionHypothesis nonDecreasing.2)
          exact ⟨fun sound => sound _ rfl, fun sound usage same => Option.some.inj same ▸ sound⟩

/-- In a run from the start on, over snapshots whose counters never fall, every call divides
by a number other than zero and prints two parts of a hundred exactly if some counter has
grown at every snapshot scanned. -/
theorem cpuUsage_allSound_iff (stats : List (Option Stat)) (nonDecreasing : NonDecreasing .zero stats) :
    AllSound .zero stats ↔ Grows .zero stats := allSound_iff nonDecreasing

/-- Two calls within one clock tick. -/
def sameTick : List (Option Stat) :=
  let stat : Stat := ⟨lit "cpu  4 0 2 90 1 0 3\n", by decide⟩
  [some stat, some stat]

theorem sameTick_scanned :
    sameTick.filterMap scanned = [⟨4, 0, 2, 90, 1, 0, 3⟩, ⟨4, 0, 2, 90, 1, 0, 3⟩] := by decide

theorem sameTick_nonDecreasing : NonDecreasing .zero sameTick := by
  rw [NonDecreasing, sameTick_scanned]
  refine .cons_cons ?_ (.cons_cons ?_ (.singleton _))
  · constructor <;> decide
  · constructor <;> decide

theorem cpuUsage_allSound_sameTick :
    NonDecreasing .zero sameTick ∧ (AllSound .zero sameTick ↔ Grows .zero sameTick) :=
  ⟨sameTick_nonDecreasing, cpuUsage_allSound_iff sameTick sameTick_nonDecreasing⟩

/-- The second call divides by zero. -/
theorem sameTick_unsound : NonDecreasing .zero sameTick ∧ ¬ AllSound .zero sameTick := by
  refine ⟨sameTick_nonDecreasing, ?_⟩
  rw [allSound_iff sameTick_nonDecreasing, Grows, sameTick_scanned]
  intro grows
  exact (List.isChain_cons_cons.mp (List.isChain_cons_cons.mp grows).2).1 rfl

end Libamg.System
