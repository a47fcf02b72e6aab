import ItemGuard.Storage.Failure
import ItemGuard.Text.Fields

/-!
# Paths

A path is kept as the text it was given as, because messages show it so; `Path.ofText` reads the
text, and `Path.upward` lists the paths of the directories around it. Joining puts a relative text
behind a directory with one `/` between them, and lets a text that starts with `/` replace the
directory. Names and whole paths have a largest number of bytes.
-/

namespace ItemGuard.Storage

/-- The names from the root of the file system down to a file or directory. -/
abbrev Location := List String

def nameLimit : Nat := 255

def pathLimit : Nat := 4095

/-- A path: where it starts, and the names to follow, `.` and `..` among them. -/
structure Path where
  /-- It starts at the root, not at the working directory. -/
  rooted : Bool
  names : List String
  /-- Its text ends with `/`, so what it leads to has to be a directory. -/
  trailing : Bool
  /-- The number of bytes of its text. -/
  size : Nat
  deriving DecidableEq

namespace Path

/-- Reads a path; empty names do not count. -/
def ofText (text : String) : Path where
  rooted := text.toList.head? == some '/'
  names := ((Text.splitOn '/' text.toList).filter fun f => !f.isEmpty).map String.ofList
  trailing := text.toList.getLast? == some '/'
  size := text.utf8ByteSize

/-- The null character ends a name for the operating system, so no path may contain it. -/
def hasNull (p : Path) : Bool :=
  p.names.any fun n => n.toList.contains '\x00'

/-- A path without any name that is not the root: the empty text. -/
def isEmpty (p : Path) : Bool :=
  p.names.isEmpty && !p.rooted

/-- The texts that end with one of the fields of a path, which are given the last one first. Empty
fields and `.` lead nowhere, so no text ends with them. -/
def upwardOf : List (List Char) → List String
  | [] => []
  | field :: above =>
    if field = [] ∨ field = ['.'] then upwardOf above
    else String.ofList (['/'].intercalate (field :: above).reverse) :: upwardOf above

/-- A path as far as its last name, and the paths of the directories around it up to where it
starts, the innermost first. -/
def upward (text : String) : List String :=
  upwardOf (Text.splitOn '/' text.toList).reverse

end Path

/-- The text of a path below a directory. -/
def joinPath (directory rest : String) : String :=
  if rest.toList.head? == some '/' then rest
  else if directory.isEmpty || directory.toList.getLast? == some '/' then directory ++ rest
  else directory ++ "/" ++ rest

end ItemGuard.Storage
