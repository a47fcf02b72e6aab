import ItemGuard.Toml.Document

/-!
# Typed fields

A section of settings is a table, or an array that lists its fields in their order; missing fields
have defaults and unknown ones are ignored. A date-time counts as a section without fields.
-/

namespace ItemGuard.Toml

namespace Value

def asString : Value → Except Fault String
  | string text => .ok text
  | _ => .error (.mismatch "a string")

def asBoolean : Value → Except Fault Bool
  | boolean value => .ok value
  | _ => .error (.mismatch "a boolean")

def asNatural (bound : Nat) : Value → Except Fault Nat
  | integer value =>
    if 0 ≤ value && value < bound then .ok value.toNat
    else .error (.mismatch "a number in range")
  | _ => .error (.mismatch "an integer")

def asTable : Value → Except Fault Entries
  | table _ entries => .ok entries
  | _ => .error (.mismatch "a table")

end Value

/-- The fields of a section with their values: by name, or by position. -/
inductive Fields where
  | named (entries : Entries)
  | listed (values : List Value)

def Value.asFields : Value → Except Fault Fields
  | table _ entries => .ok (.named entries)
  | array elements => .ok (.listed elements)
  | tables elements => .ok (.listed (elements.map (.table .header)))
  | dateTime => .ok (.named [])
  | _ => .error (.mismatch "a section")

/-- The value of the field with a name and a position. -/
def Fields.get? (fields : Fields) (position : Nat) (name : String) : Option Value :=
  match fields with
  | named entries => entries.lookup name
  | listed values => values[position]?

/-- Reads a field, or takes its default. -/
def Fields.getD {α : Type} (fields : Fields) (position : Nat) (name : String)
    (read : Value → Except Fault α) (default : α) : Except Fault α :=
  match fields.get? position name with
  | some value => read value
  | none => .ok default

end ItemGuard.Toml
