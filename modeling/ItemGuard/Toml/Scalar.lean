import ItemGuard.Toml.Dates
import ItemGuard.Toml.Numbers
import ItemGuard.Toml.Strings
import ItemGuard.Toml.Value

/-!
# TOML values that contain no others

A value is told by how it starts: a quote, a word, or else a date, a float or an integer, tried in
this order.
-/

namespace ItemGuard.Toml

/-- Reads a date-time, a float or an integer. -/
def number? : Reader Value := fun cs =>
  match dateTime? cs with
  | some (_, rest) => some (.dateTime, rest)
  | none =>
    match decimalFloat? cs with
    | some (_, rest) => some (.float, rest)
    | none =>
      match specialFloat? cs with
      | some (_, rest) => some (.float, rest)
      | none => (integer? cs).map fun p => (.integer p.1, p.2)

/-- Reads a value that contains no others. -/
def scalar? : Reader Value := fun cs =>
  match cs with
  | '"' :: _ | '\'' :: _ => (string? cs).map fun p => (.string p.1, p.2)
  | 't' :: 'r' :: 'u' :: 'e' :: rest => some (.boolean true, rest)
  | 'f' :: 'a' :: 'l' :: 's' :: 'e' :: rest => some (.boolean false, rest)
  | _ => number? cs

end ItemGuard.Toml
