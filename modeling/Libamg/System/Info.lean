import Libamg.C.Buffer
import Libamg.C.Lines

/-!
# Processor and memory

`libamg_system_get_cpu_info` and `libamg_system_get_memory` append what `fgets` reads of a
file to a static buffer, one all of the file and the other its first two buffers of it. How
long the text gets is not looked at.
-/

namespace Libamg.System

open C

/-- `BUF_SIZE`. -/
def bufSize : Nat := 256

/-- The loops: each buffer read is appended as a string. -/
def appendAll (capacity : Nat) (buffers : List Text) : Checked (CharArray capacity) :=
  buffers.foldlM (fun info buffer => info.strcat (cstr buffer)) (.zero capacity)

/-- `libamg_system_get_cpu_info`, for the content of the file if it can be opened. -/
def getCpuInfo : Option Text → Checked (Option (CharArray (4 * bufSize)))
  | none => .ok none
  | some file => (appendAll (4 * bufSize) (fgetsLines bufSize file)).map some

/-- `libamg_system_get_memory`. The second turn reads nothing if the first came to the end
of the file. -/
def getMemory : Option Text → Checked (Option (CharArray bufSize))
  | none => .ok none
  | some file => (appendAll bufSize ((fgetsLines bufSize file).take 2)).map some

/-- The text handed out is terminated inside its buffer and a prefix of the file. -/
def HandsOutPrefix {capacity : Nat} (outcome : Checked (Option (CharArray capacity)))
    (file : Text) : Prop :=
  ∃ info, outcome = .ok (some info) ∧ info.Terminated ∧ info.str <+: file

/-- Behind a buffer with a NUL every other begins with one: nothing is appended any more. -/
def NothingBehindNul (buffers : List Text) : Prop :=
  buffers.Pairwise fun earlier later => 0 ∈ earlier → later.head? = some 0

/-- The buffers read are shorter than the static one, up to the first NUL, and nothing
follows behind it. -/
def FitsIn (capacity : Nat) (buffers : List Text) : Prop :=
  (cstr buffers.flatten).length < capacity ∧ NothingBehindNul buffers

/-! ## The loop -/

/-- What the loop appends. -/
def appended (buffers : List Text) : Text := (buffers.map cstr).flatten

theorem appended_cons (buffer : Text) (buffers : List Text) :
    appended (buffer :: buffers) = cstr buffer ++ appended buffers := rfl

theorem nul_notMem_appended (buffers : List Text) : 0 ∉ appended buffers := by
  intro member
  obtain ⟨text, listed, inText⟩ := List.mem_flatten.mp member
  obtain ⟨buffer, -, rfl⟩ := List.mem_map.mp listed
  exact nul_notMem_cstr buffer inText

section Loop

variable {capacity : Nat} {buffers : List Text}

/-- With room for all that is appended, all of it is in the array. -/
theorem appendLoop_eq {info : CharArray capacity} (terminated : info.Terminated)
    (fits : info.str.length + (appended buffers).length < capacity) :
    ∃ after, buffers.foldlM (fun info buffer => info.strcat (cstr buffer)) info = .ok after ∧
      after.Terminated ∧ after.str = info.str ++ appended buffers := by
  induction buffers generalizing info with
  | nil => exact ⟨info, rfl, terminated, (List.append_nil _).symm⟩
  | cons buffer buffers inductionHypothesis =>
      rw [appended_cons, List.length_append] at fits
      obtain ⟨next, stored, nextTerminated, str⟩ :=
        CharArray.strcat_eq terminated (nul_notMem_cstr buffer) (by omega)
      have left : next.str.length + (appended buffers).length < capacity := by
        rw [str, List.length_append]
        omega
      obtain ⟨after, looped, afterTerminated, whole⟩ := inductionHypothesis nextTerminated left
      refine ⟨after, ?_, afterTerminated, ?_⟩
      · rw [List.foldlM_cons, stored]
        exact looped
      · rw [whole, str, appended_cons, List.append_assoc]

/-- Without it, some store is behind the array. -/
theorem appendLoop_overrun {info : CharArray capacity} (terminated : info.Terminated)
    (long : capacity ≤ info.str.length + (appended buffers).length) :
    buffers.foldlM (fun info buffer => info.strcat (cstr buffer)) info = .error .outOfBounds := by
  induction buffers generalizing info with
  | nil =>
      have short := CharArray.str_length_lt terminated
      have nothing : (appended []).length = 0 := rfl
      omega
  | cons buffer buffers inductionHypothesis =>
      rw [appended_cons, List.length_append] at long
      rw [List.foldlM_cons]
      by_cases fits : info.str.length + (cstr buffer).length < capacity
      · obtain ⟨next, stored, nextTerminated, str⟩ :=
          CharArray.strcat_eq terminated (nul_notMem_cstr buffer) fits
        rw [stored]
        refine inductionHypothesis nextTerminated ?_
        rw [str, List.length_append]
        omega
      · rw [CharArray.strcat_overrun terminated (Nat.le_of_not_lt fits)]
        rfl

/-- A prefix of the file is handed out exactly if what is appended is one and fits. -/
theorem handsOutPrefix_iff (positive : 0 < capacity) {file : Text} :
    HandsOutPrefix ((appendAll capacity buffers).map some) file ↔
      (appended buffers).length < capacity ∧ appended buffers <+: file := by
  have empty : (CharArray.zero capacity).str.length = 0 := by
    rw [CharArray.str_zero]
    rfl
  have terminated : (CharArray.zero capacity).Terminated :=
    List.mem_replicate.mpr ⟨Nat.ne_of_gt positive, rfl⟩
  by_cases fits : (appended buffers).length < capacity
  · obtain ⟨after, looped, afterTerminated, str⟩ :=
      @appendLoop_eq capacity buffers _ terminated (by omega)
    rw [CharArray.str_zero, List.nil_append] at str
    rw [appendAll, looped, and_iff_right fits, ← str]
    constructor
    · rintro ⟨info, same, -, begins⟩
      cases same
      exact begins
    · exact fun begins => ⟨after, rfl, afterTerminated, begins⟩
  · have overrun := @appendLoop_overrun capacity buffers _ terminated (by omega)
    rw [appendAll, overrun]
    refine iff_of_false ?_ fun both => fits both.1
    rintro ⟨info, impossible, -⟩
    cases impossible

end Loop

/-! ## The text -/

section Text

variable {buffers : List Text}

theorem cstr_eq_nil_iff {buffer : Text} (nonempty : buffer ≠ []) :
    cstr buffer = [] ↔ buffer.head? = some 0 := by
  cases buffer with
  | nil => exact absurd rfl nonempty
  | cons byte rest =>
      by_cases nul : byte = 0
      · simp [nul]
      · simp [cstr_cons nul, nul]

theorem appended_eq_nil_iff (nonempty : ∀ buffer ∈ buffers, buffer ≠ []) :
    appended buffers = [] ↔ ∀ buffer ∈ buffers, buffer.head? = some 0 := by
  rw [appended, List.flatten_eq_nil_iff, List.forall_mem_map]
  exact forall₂_congr fun buffer listed => cstr_eq_nil_iff (nonempty buffer listed)

/-- Behind a NUL only nothing is a prefix. -/
theorem appended_prefix_nul {rest : Text} : appended buffers <+: 0 :: rest ↔ appended buffers = [] := by
  constructor
  · intro begins
    cases shape : appended buffers with
    | nil => rfl
    | cons byte front =>
        rw [shape, List.cons_prefix_cons] at begins
        have inside := nul_notMem_appended buffers
        rw [shape, begins.1] at inside
        exact absurd List.mem_cons_self inside
  · intro nothing
    rw [nothing]
    exact List.nil_prefix

/-- What stands behind a NUL is passed over by the first buffer that has one, but not by the
next. -/
theorem appended_prefix_iff (nonempty : ∀ buffer ∈ buffers, buffer ≠ []) (rest : Text) :
    appended buffers <+: buffers.flatten ++ rest ↔ NothingBehindNul buffers := by
  induction buffers with
  | nil => exact iff_of_true List.nil_prefix .nil
  | cons buffer buffers inductionHypothesis =>
      obtain ⟨_, others⟩ := List.forall_mem_cons.mp nonempty
      rw [NothingBehindNul, List.pairwise_cons, appended_cons, List.flatten_cons, List.append_assoc]
      by_cases nul : 0 ∈ buffer
      · obtain ⟨tail, shape⟩ := exists_eq_cstr_append nul
        have passed : cstr buffer ++ appended buffers <+: buffer ++ (buffers.flatten ++ rest) ↔
            appended buffers = [] := by
          conv => lhs; rhs; rw [shape]
          rw [List.append_assoc, List.prefix_append_right_inj, List.cons_append]
          exact appended_prefix_nul
        rw [passed, appended_eq_nil_iff others]
        constructor
        · intro nothing
          refine ⟨fun later listed _ => nothing later listed, ?_⟩
          exact List.pairwise_of_forall_mem_list fun _ _ later listed _ => nothing later listed
        · exact fun both later listed => both.1 later listed nul
      · rw [cstr_eq_self nul, List.prefix_append_right_inj, inductionHypothesis others]
        exact (and_iff_right fun later listed inside => absurd inside nul).symm

/-- The text appended is then the string at the start of what was read. -/
theorem appended_eq_cstr (nonempty : ∀ buffer ∈ buffers, buffer ≠ [])
    (nothing : NothingBehindNul buffers) : appended buffers = cstr buffers.flatten := by
  induction buffers with
  | nil => rfl
  | cons buffer buffers inductionHypothesis =>
      obtain ⟨_, others⟩ := List.forall_mem_cons.mp nonempty
      obtain ⟨first, rest⟩ := List.pairwise_cons.mp nothing
      rw [appended_cons, List.flatten_cons]
      by_cases nul : 0 ∈ buffer
      · obtain ⟨tail, shape⟩ := exists_eq_cstr_append nul
        have none : appended buffers = [] :=
          (appended_eq_nil_iff others).mpr fun later listed => first later listed nul
        conv => rhs; rw [shape]
        rw [none, List.append_nil, List.append_assoc, List.cons_append,
          cstr_append_nul (nul_notMem_cstr buffer)]
      · rw [cstr_append nul, cstr_eq_self nul, inductionHypothesis others rest]

theorem fitsIn_iff {capacity : Nat} (nonempty : ∀ buffer ∈ buffers, buffer ≠ []) (rest : Text) :
    FitsIn capacity buffers ↔
      (appended buffers).length < capacity ∧ appended buffers <+: buffers.flatten ++ rest := by
  rw [FitsIn, appended_prefix_iff nonempty]
  exact and_congr_left fun nothing => by rw [appended_eq_cstr nonempty nothing]

end Text

/-! ## The two functions -/

section Files

variable (file : Text)

theorem fgets_ne_nil : ∀ buffer ∈ fgetsLines bufSize file, buffer ≠ [] := fun _ listed =>
  (@tiles_fgetsLines 255 (by decide) file).ne_nil (by decide) listed

theorem flatten_fgets : (fgetsLines bufSize file).flatten = file :=
  @flatten_fgetsLines 255 (by decide) file

theorem getCpuInfo_handsOutPrefix_iff :
    HandsOutPrefix (getCpuInfo (some file)) file ↔
      FitsIn (4 * bufSize) (fgetsLines bufSize file) := by
  rw [getCpuInfo, handsOutPrefix_iff (by decide), fitsIn_iff (fgets_ne_nil file) [],
    flatten_fgets, List.append_nil]

theorem getMemory_handsOutPrefix_iff :
    HandsOutPrefix (getMemory (some file)) file ↔
      FitsIn bufSize ((fgetsLines bufSize file).take 2) := by
  have nonempty : ∀ buffer ∈ (fgetsLines bufSize file).take 2, buffer ≠ [] :=
    fun buffer listed => fgets_ne_nil file buffer (List.mem_of_mem_take listed)
  have parts : ((fgetsLines bufSize file).take 2).flatten ++
      ((fgetsLines bufSize file).drop 2).flatten = file := by
    rw [← List.flatten_append, List.take_append_drop, flatten_fgets]
  rw [getMemory, handsOutPrefix_iff (by decide), fitsIn_iff nonempty _, parts]

end Files

/-- Both functions hand out a prefix of their file exactly if what they read of it fits. -/
theorem info_handsOutPrefix_iff (file : Text) :
    (HandsOutPrefix (getCpuInfo (some file)) file ↔
      FitsIn (4 * bufSize) (fgetsLines bufSize file)) ∧
    (HandsOutPrefix (getMemory (some file)) file ↔
      FitsIn bufSize ((fgetsLines bufSize file).take 2)) :=
  ⟨getCpuInfo_handsOutPrefix_iff file, getMemory_handsOutPrefix_iff file⟩

/-- More than the buffer of the processor's text, without a NUL. -/
theorem cpuInfo_long : ¬ HandsOutPrefix (getCpuInfo (some (List.replicate 1024 120)))
    (List.replicate 1024 120) := by
  rw [getCpuInfo_handsOutPrefix_iff]
  rintro ⟨fits, -⟩
  have noNul : (0 : Byte) ∉ List.replicate 1024 120 := fun inside =>
    absurd (List.eq_of_mem_replicate inside) (by decide)
  rw [flatten_fgets, cstr_eq_self noNul, List.length_replicate] at fits
  exact absurd fits (by decide)

end Libamg.System
