import ItemGuard.Text.Numeral

/-!
# Strings in JSON

A string is written between double quotes. The quote, the backslash and the control characters
are escaped, with the short forms that JSON has for some of them, and nothing else is.
-/

namespace ItemGuard.Json

/-- How a string is written, character by character. -/
def escapeChar (c : Char) : List Char :=
  if c = '"' then ['\\', '"']
  else if c = '\\' then ['\\', '\\']
  else if c = '\x08' then ['\\', 'b']
  else if c = '\x0c' then ['\\', 'f']
  else if c = '\n' then ['\\', 'n']
  else if c = '\r' then ['\\', 'r']
  else if c = '\t' then ['\\', 't']
  else if c.toNat < 0x20 then
    ['\\', 'u', '0', '0', Nat.digitChar (c.toNat / 16), Nat.digitChar (c.toNat % 16)]
  else [c]

/-- The characters of a string in JSON, without the quotes around them. -/
def escape (cs : List Char) : List Char :=
  cs.flatMap escapeChar

def quote (s : String) : List Char :=
  '"' :: escape s.toList ++ ['"']

end ItemGuard.Json
