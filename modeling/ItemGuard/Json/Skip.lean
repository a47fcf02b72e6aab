import ItemGuard.Json.Reader

/-!
# Passing over JSON values

`skipValue` passes over a value of any shape and any depth. It keeps the brackets that are open, the
innermost first, and looks at numbers and strings no closer than it has to to find their ends.
-/

namespace ItemGuard.Json

/-- An open bracket. -/
inductive Bracket where
  | array
  | object
  deriving DecidableEq

/-- What comes next: a value in open brackets, or the text behind a value in them. -/
inductive Skipping where
  | value (brackets : List Bracket)
  | behind (brackets : List Bracket)

/-- Passes over a value that is no array and no object, behind the blanks before it. -/
def skipScalar : List Char → Except Fault (List Char)
  | [] => .error .truncated
  | 'n' :: cs => readWord ['u', 'l', 'l'] cs
  | 't' :: cs => readWord ['r', 'u', 'e'] cs
  | 'f' :: cs => readWord ['a', 'l', 's', 'e'] cs
  | '"' :: cs => do
    let (_, cs) ← skipString cs
    .ok cs
  | c :: cs =>
    if c = '-' || c.isDigit then do
      let (_, cs) ← skipNumber (c :: cs)
      .ok cs
    else .error .malformed

/-- Passes over the name of a field and the colon behind it. -/
def skipName (cs : List Char) : Except Fault (List Char) :=
  match skipBlanks cs with
  | [] => .error .truncated
  | '"' :: cs => do
    let (_, cs) ← skipString cs
    readColon cs
  | _ :: _ => .error .malformed

/-- Passes over a value, or over the bracket that opens it and what comes before its first
element. -/
def skipOpening (brackets : List Bracket) (cs : List Char) :
    Except Fault (Text.Step Skipping Unit) :=
  match skipBlanks cs with
  | '[' :: cs =>
    match skipBlanks cs with
    | ']' :: cs => .ok (.more (.behind brackets) cs)
    | cs => if cs.isEmpty then .error .truncated else .ok (.more (.value (.array :: brackets)) cs)
  | '\x7b' :: cs =>
    match skipBlanks cs with
    | '\x7d' :: cs => .ok (.more (.behind brackets) cs)
    | cs => do .ok (.more (.value (.object :: brackets)) (← skipName cs))
  | cs => do .ok (.more (.behind brackets) (← skipScalar cs))

/-- Passes over what comes behind a value: a comma, or the bracket that closes the innermost open
one. -/
def skipClosing : List Bracket → List Char → Except Fault (Text.Step Skipping Unit)
  | [], cs => .ok (.done () cs)
  | .array :: brackets, cs =>
    match skipBlanks cs with
    | [] => .error .truncated
    | ',' :: cs => .ok (.more (.value (.array :: brackets)) cs)
    | ']' :: cs => .ok (.more (.behind brackets) cs)
    | _ :: _ => .error .malformed
  | .object :: brackets, cs =>
    match skipBlanks cs with
    | [] => .error .truncated
    | ',' :: cs => do .ok (.more (.value (.object :: brackets)) (← skipName cs))
    | '\x7d' :: cs => .ok (.more (.behind brackets) cs)
    | _ :: _ => .error .malformed

def skipStep : Skipping → List Char → Except Fault (Text.Step Skipping Unit)
  | .value brackets, cs => skipOpening brackets cs
  | .behind brackets, cs => skipClosing brackets cs

def skipValue : Reads Unit :=
  Text.scan .malformed skipStep (.value [])

end ItemGuard.Json
