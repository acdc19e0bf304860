import Libamg.C.Buffer
import Libamg.C.Decimal
import Libamg.C.Lines
import Libamg.C.Search

/-!
# Looking a program up

`libamg_process_get_pid` walks through the directory /proc and reads the first line of each
`stat` file into a buffer that it does not clear between two entries. A file that reads
empty leaves no blank for `while (*s != ' ') s++` to stop at.
-/

namespace Libamg.Process

open C

/-- The parentheses around the name in a line of `stat`. -/
def openParen : Byte := 40
def closeParen : Byte := 41

/-- One scan: how many bytes were read into the buffer and how far `s` got in it. -/
structure Scan where
  read : Nat
  reached : Nat

/-- The local variables of the function, with the scans made so far. -/
structure Walk where
  pid : Int32
  found : Bool
  buf : CharArray 256
  scans : List Scan

def statPath (dName : Text) : Text := lit "/proc/" ++ dName ++ lit "/stat"
def cmdlinePath (dName : Text) : Text := lit "/proc/" ++ dName ++ lit "/cmdline"

/-- The statements from `if (*s == '(')` on. What is read of the command line is not used. -/
def inspect (fopen : Text → Option Text) (progname dName : Text) (walk : Walk) (s : Nat) :
    Checked Walk := do
  let byte ← walk.buf.byteAt s
  if byte = openParen then
    let text ← walk.buf.read
    match strrchr text closeParen with
    | none => return walk
    | some q =>
        let buf ← walk.buf.writeAt q [0]
        let name ← buf.strAt (s + 1)
        if name = cstr progname then
          let path ← sprintf 256 (cmdlinePath dName)
          -- the process may have disappeared
          if (fopen path).isSome then return { walk with buf, found := true }
          else return { walk with buf }
        else return { walk with buf }
  else return walk

/-- One turn of the loop. -/
def visit (fopen : Text → Option Text) (progname : Text) (walk : Walk) (dName : Text) :
    Checked Walk := do
  let walk := { walk with pid := atoi dName }
  if walk.pid = 0 then return walk
  else
    let path ← sprintf 256 (statPath dName)
    match fopen path with
    | none => return walk
    | some content =>
        -- `fgets` leaves the buffer alone when there is nothing to read
        let line := (fgetsLines 256 content).head?
        let cleared := walk.buf.overwrite [0]
        let buf := line.elim cleared fun line => cleared.overwrite (line ++ [0])
        let s ← seek blank buf.bytes 0
        let scan : Scan := ⟨(line.elim 0 List.length), s + 1⟩
        inspect fopen progname dName { walk with buf, scans := walk.scans ++ [scan] } (s + 1)

/-- `while (((d = readdir(dir)) != NULL) && (!found))`. -/
def visitAll (fopen : Text → Option Text) (progname : Text) (walk : Walk) : List Text → Checked Walk
  | [] => .ok walk
  | dName :: rest =>
      if walk.found then .ok walk
      else do
        let walk ← visit fopen progname walk dName
        visitAll fopen progname walk rest

/-- The returned number and the scans made. -/
structure Lookup where
  value : Int32
  scans : List Scan

/-- `libamg_process_get_pid`, with the buffer as it is on the stack and the names in the
directory, if it can be opened. -/
def getPid (stack : CharArray 256) (dir : Option (List Text)) (fopen : Text → Option Text)
    (progname : Text) : Checked Lookup :=
  match dir with
  | none => .ok ⟨0, []⟩
  | some names => do
      let walk ← visitAll fopen progname ⟨0, false, stack, []⟩ names
      return ⟨if walk.found then walk.pid else 0, walk.scans⟩

/-! ## A snapshot of /proc -/

/-- What stands behind the number in a line of `stat`: the name of the program between
parentheses, and fields without any. -/
structure StatLine where
  comm : Text
  fields : Text
  commLine : newline ∉ comm
  commString : 0 ∉ comm
  fieldsLine : newline ∉ fields
  fieldsString : 0 ∉ fields
  fieldsPlain : closeParen ∉ fields

/-- A `stat` file when it is opened and read. -/
inductive StatFile where
  | gone
  -- opened, but the process has just exited
  | empty
  | line (line : StatLine)

/-- The text behind the opening parenthesis. -/
def StatLine.rest (line : StatLine) : Text :=
  line.comm ++ closeParen :: (blank :: line.fields ++ [newline])

def StatFile.content (dName : Text) : StatFile → Option Text
  | gone => none
  | empty => some []
  | line text => some (dName ++ blank :: openParen :: text.rest)

/-- The name of the program, where the file has one. -/
def StatFile.comm : StatFile → Option Text
  | gone | empty => none
  | line text => some text.comm

/-- The entries of /proc in any order. A name that begins with a number is the number of a
process. -/
structure Snapshot where
  names : List Text
  fopen : Text → Option Text
  stat : Text → StatFile
  decimal : ∀ dName ∈ names, atoi dName ≠ 0 → dName = printInt (atoi dName).toInt
  opens : ∀ dName ∈ names, atoi dName ≠ 0 → fopen (statPath dName) = (stat dName).content dName

namespace Snapshot

variable (snapshot : Snapshot) (progname : Text)

/-- The entry is a process of the given name whose command line can be opened. -/
def Matches (dName : Text) : Prop :=
  atoi dName ≠ 0 ∧ (snapshot.stat dName).comm = some (cstr progname) ∧
    (snapshot.fopen (cmdlinePath dName)).isSome = true

instance : DecidablePred (snapshot.Matches progname) := fun _ =>
  inferInstanceAs (Decidable (_ ∧ _ ∧ _))

/-- The number of the first such process, and 0 if there is none. -/
def expected (names : List Text) : Int32 :=
  ((names.find? fun dName => snapshot.Matches progname dName).map atoi).getD 0

end Snapshot

/-! ## One line -/

/-- The name that the function sees in the bytes behind the opening parenthesis. -/
def nameIn (shown : Text) : Option Text := (strrchr shown closeParen).map shown.take

section Inspect

variable {fopen : Text → Option Text} {progname dName : Text} {walk : Walk}

/-- The last closing parenthesis of a line is the last one behind its opening one. -/
theorem strrchr_line {front : Text} (plain : closeParen ∉ front) (shown : Text) :
    strrchr (front ++ openParen :: shown) closeParen =
      (strrchr shown closeParen).map (front.length + 1 + ·) := by
  have different : closeParen ≠ openParen := by decide
  have noneBefore : closeParen ∉ front ++ [openParen] := by
    simp [plain, different]
  have found := @strrchr_append_of_notMem _ _ shown noneBefore
  rwa [List.append_assoc, List.singleton_append, List.length_append, List.length_singleton] at found

/-- A NUL in the place of that parenthesis leaves the name as a string. -/
theorem exists_cut {buf : CharArray 256} {front name rest : Text}
    (bytes : buf.bytes = front ++ openParen :: (name ++ closeParen :: rest)) (noNul : 0 ∉ name) :
    ∃ cut, buf.writeAt (front.length + 1 + name.length) [0] = .ok cut ∧
      cut.strAt (front.length + 1) = .ok name := by
  have length : (front ++ [openParen]).length = front.length + 1 := by
    rw [List.length_append, List.length_singleton]
  have position : ((front ++ [openParen]) ++ name).length = front.length + 1 + name.length := by
    rw [List.length_append, length]
  have parts : buf.bytes = ((front ++ [openParen]) ++ name) ++ ([closeParen] ++ rest) := by
    rw [bytes]
    simp only [List.append_assoc, List.cons_append, List.nil_append]
  obtain ⟨cut, written, after⟩ := @CharArray.writeAt_split 256 buf _ _ [0] _ parts rfl
  rw [position] at written
  have behind : cut.bytes.drop (front.length + 1) = name ++ 0 :: rest := by
    rw [after, List.append_assoc]
    exact List.drop_left' length
  exact ⟨cut, written, CharArray.strAt_eq noNul behind⟩

/-- In a line the string up to the last closing parenthesis is compared. -/
theorem inspect_eq {front shown rest : Text}
    (bytes : walk.buf.bytes = front ++ openParen :: (shown ++ 0 :: rest))
    (plain : closeParen ∉ front) (frontString : 0 ∉ front) (string : 0 ∉ shown)
    (short : (cmdlinePath dName).length < 256) :
    ∃ buf, inspect fopen progname dName walk front.length = .ok { walk with
      buf, found := walk.found ||
        (nameIn shown = some (cstr progname) && (fopen (cmdlinePath dName)).isSome) } := by
  have opened : walk.buf.byteAt front.length = .ok openParen := CharArray.byteAt_of_bytes bytes
  have read : walk.buf.read = .ok (front ++ openParen :: shown) := by
    have clean : 0 ∉ front ++ openParen :: shown := by
      simp [frontString, string, openParen]
    have whole : walk.buf.bytes = (front ++ openParen :: shown) ++ 0 :: rest := by
      rw [bytes, List.append_assoc, List.cons_append]
    rw [CharArray.read_eq_str (CharArray.terminated_of_bytes whole),
      CharArray.str_of_bytes clean whole]
  rw [inspect, opened, Checked.ok_bind, if_pos rfl, read, Checked.ok_bind, strrchr_line plain, nameIn]
  cases found : strrchr shown closeParen with
  | none => exact ⟨walk.buf, by simp; rfl⟩
  | some offset =>
      obtain ⟨name, tail, rfl, rfl, -⟩ := exists_of_strrchr found
      have noNul : 0 ∉ name := fun member => string (List.mem_append_left _ member)
      rw [List.append_assoc, List.cons_append] at bytes
      obtain ⟨buf, written, named⟩ := exists_cut bytes noNul
      refine ⟨buf, ?_⟩
      simp only [Option.map_some, written, Checked.ok_bind, named, List.take_left, sprintf_eq short]
      by_cases same : name = cstr progname
      · rw [if_pos same]
        cases (fopen (cmdlinePath dName)).isSome with
        | true => simp [same]; rfl
        | false => simp; rfl
      · rw [if_neg same]
        simp [same]
        rfl

/-- With nothing in the buffer there is no closing parenthesis to find. -/
theorem inspect_nothing {s : Nat} {after : Walk} (nothing : walk.buf.str = [])
    (terminated : walk.buf.Terminated) (returned : inspect fopen progname dName walk s = .ok after) :
    after = walk := by
  rw [inspect] at returned
  obtain ⟨byte, -, returned⟩ := Checked.bind_eq_ok returned
  by_cases opened : byte = openParen
  · rw [if_pos opened, CharArray.read_eq_str terminated, nothing] at returned
    cases returned
    rfl
  · rw [if_neg opened] at returned
    cases returned
    rfl

end Inspect

/-- Where the closing parenthesis of a line is among the bytes read, or else neither its name
nor the part of it up to the last parenthesis read is the one looked for. -/
def StatLine.Legible (line : StatLine) (dName name : Text) : Prop :=
  dName.length + 2 + line.comm.length + 1 ≤ 255 ∨
    line.comm ≠ name ∧ ∀ cut tail, line.comm.take (253 - dName.length) = cut ++ closeParen :: tail →
      closeParen ∉ tail → cut ≠ name

/-- What the buffer holds behind the opening parenthesis. -/
def StatLine.shown (line : StatLine) (dName : Text) : Text := line.rest.take (253 - dName.length)

namespace StatLine

variable (line : StatLine) {dName : Text}

theorem nul_notMem_shown : 0 ∉ line.shown dName := by
  intro member
  have whole := List.mem_of_mem_take member
  simp [rest, line.commString, line.fieldsString, closeParen, blank, newline] at whole

/-- A name that ends inside the buffer is seen whole. -/
theorem nameIn_of_fits (fits : dName.length + 2 + line.comm.length + 1 ≤ 255) :
    nameIn (line.shown dName) = some line.comm := by
  have room : line.comm.length ≤ 253 - dName.length := by omega
  obtain ⟨left, some⟩ : ∃ left, 253 - dName.length - line.comm.length = left + 1 :=
    ⟨253 - dName.length - line.comm.length - 1, by omega⟩
  have shape : line.shown dName =
      line.comm ++ closeParen :: (blank :: line.fields ++ [newline]).take left := by
    rw [shown, rest, List.take_append, List.take_of_length_le room, some, List.take_succ_cons]
  have plain : closeParen ∉ (blank :: line.fields ++ [newline]).take left := by
    intro member
    have inside := List.mem_of_mem_take member
    have notBlank : closeParen ≠ blank := by decide
    have notNewline : closeParen ≠ newline := by decide
    simp [line.fieldsPlain, notBlank, notNewline] at inside
  rw [nameIn, shape, strrchr_last plain, Option.map_some, List.take_left]

/-- A longer one is cut at the last parenthesis that stands inside it. -/
theorem shown_of_long (long : ¬ dName.length + 2 + line.comm.length + 1 ≤ 255) :
    line.shown dName = line.comm.take (253 - dName.length) := by
  rw [shown, rest, List.take_append_of_le_length (by omega)]

/-- What is seen decides as the name does exactly if the line is legible. -/
theorem legible_iff (name : Text) :
    line.Legible dName name ↔ (nameIn (line.shown dName) = some name ↔ line.comm = name) := by
  by_cases fits : dName.length + 2 + line.comm.length + 1 ≤ 255
  · rw [line.nameIn_of_fits fits, Option.some_inj]
    exact iff_of_true (.inl fits) Iff.rfl
  · rw [Legible, or_iff_right fits, line.shown_of_long fits, nameIn]
    cases found : strrchr (line.comm.take (253 - dName.length)) closeParen with
    | none =>
        have absent := strrchr_eq_none_iff.mp found
        constructor
        · exact fun other => iff_of_false (by simp) other.1
        · intro same
          refine ⟨fun equal => ?_, fun cut tail shape => ?_⟩
          · have impossible := same.mpr equal
            simp at impossible
          · rw [shape] at absent
            simp at absent
    | some offset =>
        obtain ⟨seen, tail, shape, length, plain⟩ := exists_of_strrchr found
        have first : (line.comm.take (253 - dName.length)).take offset = seen := by
          rw [shape, ← length, List.take_left]
        have shorter : seen ≠ line.comm := by
          intro equal
          have lengths := congrArg List.length shape
          rw [List.length_take, List.length_append, List.length_cons, equal] at lengths
          omega
        rw [Option.map_some, first, Option.some_inj]
        constructor
        · intro other
          exact iff_of_false (other.2 seen tail shape plain) other.1
        · intro same
          have different : line.comm ≠ name := fun equal => shorter ((same.mpr equal).trans equal.symm)
          refine ⟨different, ?_⟩
          rintro cut other shape' plain' rfl
          have position := @strrchr_last _ cut _ plain'
          rw [← shape', found] at position
          have lengths : offset = cut.length := Option.some.inj position
          have equal : seen = cut := by
            rw [← first, lengths, shape', List.take_left]
          exact different (same.mp equal)

end StatLine

end Libamg.Process
