import Libamg.C.Bytes

/-!
# The file system seen by the library

Configuration files are opened by fixed paths, read in one loop and rewritten as
a whole. Whether `fopen` succeeds is part of the state, one answer for each path
and mode, so that every pattern of outcomes can be stated.
-/

namespace Libamg

open C

abbrev Path := String

/-- File contents together with what `fopen` answers for reading and writing. -/
structure Files where
  content : Path → Option Text
  readable : Path → Bool
  writable : Path → Bool

namespace Files

/-- `fopen(path, "r")`: `none` is the NULL stream. -/
def openRead (files : Files) (path : Path) : Option Text :=
  if files.readable path then files.content path else none

/-- `fopen(path, "r+")`. -/
def openUpdate (files : Files) (path : Path) : Option Text :=
  if files.writable path then files.openRead path else none

/-- What `fopen(path, "w")`, printing `text` and `fclose` leave behind. -/
def write (files : Files) (path : Path) (text : Text) : Files :=
  { files with content := fun other => if other = path then some text else files.content other }

@[simp] theorem write_content_self (files : Files) (path : Path) (text : Text) :
    (files.write path text).content path = some text := if_pos rfl

theorem write_content_of_ne (files : Files) {path other : Path} (text : Text)
    (different : other ≠ path) : (files.write path text).content other = files.content other :=
  if_neg different

@[simp] theorem write_readable (files : Files) (path : Path) (text : Text) :
    (files.write path text).readable = files.readable := rfl

@[simp] theorem write_writable (files : Files) (path : Path) (text : Text) :
    (files.write path text).writable = files.writable := rfl

theorem openRead_write_self {files : Files} {path : Path} (text : Text)
    (readable : files.readable path = true) :
    (files.write path text).openRead path = some text := by
  simp [openRead, readable]

/-- Writing one file does not change how another one reads. -/
theorem openRead_write_of_ne (files : Files) {path other : Path} (text : Text)
    (different : other ≠ path) :
    (files.write path text).openRead other = files.openRead other := by
  simp [openRead, write_content_of_ne files text different]

theorem content_of_openUpdate {files : Files} {path : Path} {text : Text}
    (opened : files.openUpdate path = some text) : files.content path = some text := by
  rw [openUpdate, Option.ite_none_right_eq_some, openRead, Option.ite_none_right_eq_some] at opened
  exact opened.2.2

/-- A file that was opened for an update can be opened for the next one. -/
theorem openUpdate_write_self {files : Files} {path : Path} {before : Text} (text : Text)
    (opened : files.openUpdate path = some before) :
    (files.write path text).openUpdate path = some text := by
  rw [openUpdate, Option.ite_none_right_eq_some, openRead, Option.ite_none_right_eq_some] at opened
  rw [openUpdate, write_writable, if_pos opened.1, openRead_write_self text opened.2.1]

/-- A path that can be opened both ways. -/
def Openable (files : Files) (path : Path) : Prop :=
  files.readable path = true ∧ files.writable path = true

instance (files : Files) (path : Path) : Decidable (files.Openable path) :=
  inferInstanceAs (Decidable (_ ∧ _))

/-- A file system without files in which every `fopen` for writing succeeds. -/
def empty : Files where
  content := fun _ => none
  readable := fun _ => true
  writable := fun _ => true

end Files
end Libamg
