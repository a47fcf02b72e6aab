import ItemGuard.Json.Numbers
import ItemGuard.Json.Strings

/-!
# Reading JSON

`readElements` and `readMembers` read the inside of an array and of an object, each part with a
reader that the caller supplies, so that a part of a known shape is read straight into its type.
`readValue` reads values of any shape that nest at most so many levels deep. Blanks may stand
before and behind every part.
-/

namespace ItemGuard.Json

/-- The characters between the parts of a text. -/
def isBlank (c : Char) : Bool :=
  c == ' ' || c == '\n' || c == '\t' || c == '\r'

/-- Drops the blanks at the start of a text. -/
def skipBlanks (cs : List Char) : List Char :=
  cs.dropWhile isBlank

/-- Reads the rest of a word. -/
def readWord : List Char → List Char → Except Fault (List Char)
  | [], cs => .ok cs
  | _ :: _, [] => .error .truncated
  | w :: ws, c :: cs => if w = c then readWord ws cs else .error .malformed

/-- Reads a value that is no array and no object, behind the blanks before it. -/
def readScalar : Reads Value
  | [] => .error .truncated
  | 'n' :: cs => do .ok (.null, ← readWord ['u', 'l', 'l'] cs)
  | 't' :: cs => do .ok (.boolean true, ← readWord ['r', 'u', 'e'] cs)
  | 'f' :: cs => do .ok (.boolean false, ← readWord ['a', 'l', 's', 'e'] cs)
  | '"' :: cs => do
    let (s, cs) ← readString cs
    .ok (.string s, cs)
  | c :: cs =>
    if c = '-' || c.isDigit then do
      let (n, cs) ← readNumber (c :: cs)
      .ok (.number n, cs)
    else .error .malformed

/-- Reads a colon between the name of a field and its value. -/
def readColon (cs : List Char) : Except Fault (List Char) :=
  match skipBlanks cs with
  | [] => .error .truncated
  | ':' :: cs => .ok cs
  | _ :: _ => .error .malformed

section

variable {σ : Type}

/-- Reads what comes behind an element of an array: its end, or another element. -/
def elementStep (element : σ → Reads σ) (state : σ) (cs : List Char) :
    Except Fault (Text.Step σ σ) :=
  match skipBlanks cs with
  | [] => .error .truncated
  | ']' :: cs => .ok (.done state cs)
  | ',' :: cs =>
    match skipBlanks cs with
    | [] => .error .truncated
    | ']' :: _ => .error .malformed
    | c :: cs => do
      let (state, cs) ← element state (c :: cs)
      .ok (.more state cs)
  | _ :: _ => .error .malformed

/-- Reads an array behind its bracket. -/
def readElements (element : σ → Reads σ) (state : σ) : Reads σ := fun cs =>
  match skipBlanks cs with
  | [] => .error .truncated
  | ']' :: cs => .ok (state, cs)
  | c :: cs => do
    let (state, cs) ← element state (c :: cs)
    Text.scan .malformed (elementStep element) state cs

/-- Reads what comes behind a field of an object: its end, or another field. -/
def memberStep (member : σ → String → Reads σ) (state : σ) (cs : List Char) :
    Except Fault (Text.Step σ σ) :=
  match skipBlanks cs with
  | [] => .error .truncated
  | '\x7d' :: cs => .ok (.done state cs)
  | ',' :: cs =>
    match skipBlanks cs with
    | [] => .error .truncated
    | '"' :: cs => do
      let (name, cs) ← readString cs
      let (state, cs) ← member state name cs
      .ok (.more state cs)
    | _ :: _ => .error .malformed
  | _ :: _ => .error .malformed

/-- Reads an object behind its brace; `member` reads a field from the colon on. -/
def readMembers (member : σ → String → Reads σ) (state : σ) : Reads σ := fun cs =>
  match skipBlanks cs with
  | [] => .error .truncated
  | '\x7d' :: cs => .ok (state, cs)
  | '"' :: cs => do
    let (name, cs) ← readString cs
    let (state, cs) ← member state name cs
    Text.scan .malformed (memberStep member) state cs
  | _ :: _ => .error .malformed

end

/-- Adds a value to those already read, the last one first. -/
def addElement (read : Reads Value) (elements : List Value) : Reads (List Value) := fun cs => do
  let (value, cs) ← read cs
  .ok (value :: elements, cs)

/-- Adds a field to those already read, the last one first. -/
def addMember (read : Reads Value) (fields : List (String × Value)) (name : String) :
    Reads (List (String × Value)) := fun cs => do
  let (value, cs) ← read (← readColon cs)
  .ok ((name, value) :: fields, cs)

/-- Reads a value. `inner` reads the values inside it, if it may contain any. -/
def readValueWith (inner : Option (Reads Value)) : Reads Value := fun cs =>
  match skipBlanks cs with
  | '[' :: cs =>
    match inner with
    | none => .error .malformed
    | some read => do
      let (elements, cs) ← readElements (addElement read) [] cs
      .ok (.array elements.reverse, cs)
  | '\x7b' :: cs =>
    match inner with
    | none => .error .malformed
    | some read => do
      let (fields, cs) ← readMembers (addMember read) [] cs
      .ok (.object fields.reverse, cs)
  | cs => readScalar cs

/-- Reads a value with at most so many levels of arrays and objects. -/
def readValue : Nat → Reads Value
  | 0 => readValueWith none
  | depth + 1 => readValueWith (some (readValue depth))

/-- The deepest nesting of arrays and objects in a text. -/
def maxDepth : Nat := 127

/-! ## Values of a known shape -/

/-- What a message shows of the value at the start of a text; an array or object is not read. -/
def readKind (cs : List Char) : Except Fault Kind :=
  match skipBlanks cs with
  | '[' :: _ => .ok .sequence
  | '\x7b' :: _ => .ok .map
  | cs => do
    let (value, _) ← readScalar cs
    .ok value.kind

/-- Refuses the value at the start of a text. -/
def refuse {α : Type} (expected : String) (cs : List Char) : Except Fault α := do
  .error (.shape (.wrongType (← readKind cs) expected))

def expectString (expected : String) : Reads String := fun cs =>
  match skipBlanks cs with
  | '"' :: cs => readString cs
  | cs => refuse expected cs

def expectEnd (cs : List Char) : Except Fault Unit :=
  match skipBlanks cs with
  | [] => .ok ()
  | _ :: _ => .error .malformed

end ItemGuard.Json
