/-!
# TOML values

Tables keep their entries in the order in which they were written. What made a table decides what
may still be added to it. No setting is a float or a date-time, so those are kept without their
value.
-/

namespace ItemGuard.Toml

/-- What made a table. -/
inductive Origin where
  /-- Its own header; also an element of an array of tables, and the document. -/
  | header
  /-- The header of a table below it. -/
  | implied
  /-- A dotted key. -/
  | dotted
  /-- An inline table, to which nothing can be added. -/
  | inline
  deriving DecidableEq

inductive Value where
  | string (text : String)
  | integer (value : Int)
  | float
  | boolean (value : Bool)
  | dateTime
  | array (elements : List Value)
  | table (origin : Origin) (entries : List (String × Value))
  /-- An array of tables that are written under headers of their own. -/
  | tables (elements : List (List (String × Value)))

abbrev Entries := List (String × Value)

/-- What is wrong with a document. -/
inductive Fault where
  /-- The text is no TOML. -/
  | malformed
  /-- A key or table is defined twice, or something is added to a value that is complete. -/
  | redefined (key : String)
  /-- A value is not what its key asks for. -/
  | mismatch (expected : String)
  deriving DecidableEq

def Fault.message : Fault → String
  | malformed => "the text is no TOML document"
  | redefined key => "'" ++ key ++ "' is already defined"
  | mismatch expected => "expected " ++ expected

end ItemGuard.Toml
