import ItemGuard.Text.Blank
import ItemGuard.Text.Fields

/-!
# Lines of a blacklist

A line is read without the blanks around it. Nothing, or a text that starts with `;` or `#`, says
nothing; a text in square brackets is a header and lists tokens; everything else is an option.
-/

namespace ItemGuard.Blacklist

/-- What a line of a blacklist is. -/
inductive Line where
  /-- A blank line or a comment. -/
  | silent
  /-- A header with its tokens. -/
  | header (tokens : List (List Char))
  /-- Any other line, without the blanks around it. -/
  | option (text : List Char)
  deriving DecidableEq

/-- Drops the empty fields at the end of a list. -/
def dropEmptyEnd : List (List Char) → List (List Char)
  | [] => []
  | f :: fs =>
    match dropEmptyEnd fs with
    | [] => if f.isEmpty then [] else [f]
    | g :: gs => f :: g :: gs

/-- The fields of the text between the brackets of a header: the empty fields at its end do not
count, except that nothing between the brackets is one empty field. -/
def headerFields (inner : List Char) : List (List Char) :=
  let fields := Text.splitOn ',' inner
  if inner.isEmpty then fields else dropEmptyEnd fields

/-- The tokens of a header: its fields without the blanks around them. -/
def headerTokens (inner : List Char) : List (List Char) :=
  (headerFields inner).map Text.trim

/-- The text between the brackets, if the whole text stands in square brackets. -/
def bracketed? : List Char → Option (List Char)
  | '[' :: cs => if cs.getLast? = some ']' then some cs.dropLast else none
  | _ => none

def isComment : List Char → Bool
  | [] => false
  | c :: _ => c == ';' || c == '#'

/-- What a text without blanks around it is as a line. -/
def Line.ofTrimmed (text : List Char) : Line :=
  if text.isEmpty || isComment text then .silent
  else
    match bracketed? text with
    | some inner => .header (headerTokens inner)
    | none => .option text

def Line.ofText (raw : List Char) : Line :=
  .ofTrimmed (Text.trim raw)

end ItemGuard.Blacklist
