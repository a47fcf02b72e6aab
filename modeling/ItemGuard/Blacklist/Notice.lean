import ItemGuard.Text.Numeral

/-!
# Notices

What is wrong with a line of a blacklist never keeps the rest from being read; it becomes a notice
with the number of the line, counted from 1.
-/

namespace ItemGuard.Blacklist

/-- What is wrong with a line. -/
inductive Cause where
  /-- A header has a token that names no item. -/
  | unknownItem (token : String)
  /-- An option has a key that is none of the four. -/
  | unknownOption (key : String)
  /-- An option has no value. -/
  | missingValue (text : String)
  /-- An option stands before the first header. -/
  | noSection (text : String)
  deriving DecidableEq

/-- The part of the line that is wrong. -/
def Cause.text : Cause → String
  | .unknownItem token => token
  | .unknownOption key => key
  | .missingValue text => text
  | .noSection text => text

/-- What the part of the line is, in words. -/
def Cause.words : Cause → String
  | .unknownItem _ => "unknown block name"
  | .unknownOption _ => "unknown option"
  | .missingValue _ => "option with no value"
  | .noSection _ => "option with no heading"

/-- Something wrong with a numbered line. -/
structure Notice where
  line : Nat
  cause : Cause
  deriving DecidableEq

def Notice.message (n : Notice) : String :=
  "line " ++ String.ofList (Text.decimal n.line) ++ ": " ++ n.cause.words
    ++ " '" ++ n.cause.text ++ "'"

end ItemGuard.Blacklist
