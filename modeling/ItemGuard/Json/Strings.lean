import ItemGuard.Json.Value
import ItemGuard.Text.Scan
import ItemGuard.Text.Utf8

/-!
# Reading JSON strings

A string ends at the first quote that is not escaped. An escape is a backslash and a letter, or
`\u` and the four hexadecimal digits of a UTF-16 unit, where a character beyond the first 65536
takes two of them. `skipString` passes over a string and lets units without a partner be.
-/

namespace ItemGuard.Json

/-- The character that a letter stands for behind a backslash. -/
def shortEscape? : Char → Option Char
  | '"' => some '"'
  | '\\' => some '\\'
  | '/' => some '/'
  | 'b' => some '\x08'
  | 'f' => some '\x0c'
  | 'n' => some '\n'
  | 'r' => some '\r'
  | 't' => some '\t'
  | _ => none

/-- The value of hexadecimal digits. -/
def hexDigitsValue? (cs : List Char) : Option Nat :=
  cs.foldlM (fun n c => (Text.hexValue? c).map (16 * n + ·)) 0

/-- Reads the four digits of a UTF-16 unit. A text of less than four bytes ends too early. -/
def readUnit (cs : List Char) : Except Fault (Nat × List Char) :=
  let ds := cs.take 4
  if (Text.utf8 (String.ofList ds)).length < 4 then .error .truncated
  else
    match hexDigitsValue? ds, ds.length == 4 with
    | some unit, true => .ok (unit, cs.drop 4)
    | _, _ => .error .malformed

/-- The unit is the first of two. -/
def isLeading (unit : Nat) : Bool := 0xD800 ≤ unit && unit ≤ 0xDBFF

/-- The unit is the second of two. -/
def isTrailing (unit : Nat) : Bool := 0xDC00 ≤ unit && unit ≤ 0xDFFF

/-- The character of two units. -/
def joinUnits (leading trailing : Nat) : Char :=
  Char.ofNat (0x10000 + (leading - 0xD800) * 0x400 + (trailing - 0xDC00))

/-- Reads the second of two units with the backslash before it. -/
def readTrailing (leading : Nat) : Reads Char
  | [] => .error .truncated
  | ['\\'] => .error .truncated
  | '\\' :: 'u' :: cs => do
    let (unit, cs) ← readUnit cs
    if isTrailing unit then .ok (joinUnits leading unit, cs) else .error .malformed
  | _ => .error .malformed

/-- Reads the units of an escaped character behind `\u`. -/
def readUnits : Reads Char := fun cs => do
  let (unit, cs) ← readUnit cs
  if isTrailing unit then .error .malformed
  else if isLeading unit then readTrailing unit cs
  else .ok (Char.ofNat unit, cs)

def readShortEscape (c : Char) : Except Fault Char :=
  match shortEscape? c with
  | some d => .ok d
  | none => .error .malformed

/-- Reads the next character of a string, or its end, given the characters already read, the last
one first. -/
def stringStep (read : List Char) : List Char → Except Fault (Text.Step (List Char) String)
  | [] => .error .truncated
  | '"' :: cs => .ok (.done (String.ofList read.reverse) cs)
  | ['\\'] => .error .truncated
  | '\\' :: 'u' :: cs => do
    let (c, cs) ← readUnits cs
    .ok (.more (c :: read) cs)
  | '\\' :: c :: cs => do .ok (.more ((← readShortEscape c) :: read) cs)
  | c :: cs => if c.toNat < 0x20 then .error .malformed else .ok (.more (c :: read) cs)

/-- Reads a string behind its first quote. -/
def readString : Reads String :=
  Text.scan .malformed stringStep []

/-- Passes over the next character of a string, or its end. -/
def skipStringStep (_ : Unit) : List Char → Except Fault (Text.Step Unit Unit)
  | [] => .error .truncated
  | '"' :: cs => .ok (.done () cs)
  | ['\\'] => .error .truncated
  | '\\' :: 'u' :: cs => do
    let (_, cs) ← readUnit cs
    .ok (.more () cs)
  | '\\' :: c :: cs => do
    let _ ← readShortEscape c
    .ok (.more () cs)
  | c :: cs => if c.toNat < 0x20 then .error .malformed else .ok (.more () cs)

/-- Passes over a string behind its first quote. -/
def skipString : Reads Unit :=
  Text.scan .malformed skipStringStep ()

end ItemGuard.Json
