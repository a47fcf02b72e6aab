/-!
# Blanks, comments and line ends in TOML

What stands between the parts of a TOML text. A reader gives what it read and the text behind it.
-/

namespace ItemGuard.Toml

/-- Reads something from the start of a text. -/
abbrev Reader (α : Type) := List Char → Option (α × List Char)

def isBlank (c : Char) : Bool := c == ' ' || c == '\t'

def skipBlanks (cs : List Char) : List Char := cs.dropWhile isBlank

/-- The characters above ASCII; all of them may stand in strings and comments. -/
def isWide (c : Char) : Bool := 0x80 ≤ c.toNat

/-- The characters of a comment. -/
def isComment (c : Char) : Bool :=
  c == '\t' || (0x20 ≤ c.toNat && c.toNat ≤ 0x7E) || isWide c

/-- Drops the end of a line. -/
def newline? : List Char → Option (List Char)
  | '\n' :: cs => some cs
  | '\r' :: '\n' :: cs => some cs
  | _ => none

/-- Drops blanks and a comment. -/
def skipComment (cs : List Char) : List Char :=
  match skipBlanks cs with
  | '#' :: rest => rest.dropWhile isComment
  | rest => rest

/-- Drops the rest of a line that has nothing more to say; the text may end with it. -/
def lineEnd? (cs : List Char) : Option (List Char) :=
  match skipComment cs with
  | [] => some []
  | rest => newline? rest

/-- Drops blanks, comments and line ends between the elements of an array. The flag says whether
the text starts inside a comment. -/
def skipGaps : Bool → List Char → Option (List Char)
  | false, [] => some []
  | true, [] => none
  | _, '\n' :: cs => skipGaps false cs
  | _, '\r' :: '\n' :: cs => skipGaps false cs
  | _, '\r' :: _ => none
  | true, c :: cs => if isComment c then skipGaps true cs else none
  | false, c :: cs =>
    if isBlank c then skipGaps false cs
    else if c = '#' then skipGaps true cs
    else some (c :: cs)

end ItemGuard.Toml
