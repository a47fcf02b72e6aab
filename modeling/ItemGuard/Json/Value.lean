import ItemGuard.Decimal.Shortest
import ItemGuard.Text.Quoted

/-!
# JSON values and what can be wrong with them

A value keeps the fields of its objects in the order of the text, repeated ones as well. A text is
refused because it is no JSON, because it ends too early, or because a value has not the shape that
is asked for; the first thing that is wrong counts.
-/

namespace ItemGuard.Json

/-- A number: an integer from -2⁶³ to 2⁶⁴ - 1 if it is written as one, or a binary64 number. -/
inductive Number where
  | integer (value : Int)
  | float (value : Decimal.Binary64)
  deriving DecidableEq

inductive Value where
  | null
  | boolean (value : Bool)
  | number (value : Number)
  | string (value : String)
  | array (elements : List Value)
  | object (fields : List (String × Value))

/-- A value as far as a message shows it. -/
inductive Kind where
  | null
  | boolean (value : Bool)
  | number (value : Number)
  | string (value : String)
  | sequence
  | map
  deriving DecidableEq

/-- What a message shows of a value. -/
def Value.kind : Value → Kind
  | null => .null
  | boolean b => .boolean b
  | number n => .number n
  | string s => .string s
  | array _ => .sequence
  | object _ => .map

/-- A part of a message between grave accents. -/
def ticked (s : String) : String :=
  "`" ++ s ++ "`"

def integerText (n : Int) : String :=
  String.ofList ((if n < 0 then ['-'] else []) ++ Text.decimal n.natAbs)

def Kind.message : Kind → String
  | null => "null"
  | boolean b => "boolean " ++ ticked (if b then "true" else "false")
  | number (.integer n) => "integer " ++ ticked (integerText n)
  | number (.float x) => "floating point " ++ ticked x.text
  | string s => "string " ++ Text.quoted s
  | sequence => "sequence"
  | map => "map"

/-- A value has not the shape that is asked for. -/
inductive Mismatch where
  | missingField (name : String)
  | duplicateField (name : String)
  /-- A name is none of those that are known. -/
  | unknownVariant (name : String) (known : List String)
  | wrongType (kind : Kind) (expected : String)
  | outOfRange (value : Int) (expected : String)
  /-- An array has not as many elements as it should. -/
  | wrongLength (length : Nat) (expected : String)
  deriving DecidableEq

def Mismatch.message : Mismatch → String
  | missingField name => "missing field " ++ ticked name
  | duplicateField name => "duplicate field " ++ ticked name
  | unknownVariant name known =>
    "unknown variant " ++ ticked name ++ ", expected one of "
      ++ String.intercalate ", " (known.map ticked)
  | wrongType kind expected => "invalid type: " ++ kind.message ++ ", expected " ++ expected
  | outOfRange value expected =>
    "invalid value: integer " ++ ticked (integerText value) ++ ", expected " ++ expected
  | wrongLength length expected =>
    "invalid length " ++ String.ofList (Text.decimal length) ++ ", expected " ++ expected

/-- What is wrong with a text. -/
inductive Fault where
  /-- The text is no JSON, or a number or the nesting of values is out of bounds. -/
  | malformed
  /-- The text ends too early. -/
  | truncated
  /-- A value has not the shape that is asked for. -/
  | shape (mismatch : Mismatch)
  deriving DecidableEq

/-- Reads something from the start of a text. -/
abbrev Reads (α : Type) := List Char → Except Fault (α × List Char)

end ItemGuard.Json
