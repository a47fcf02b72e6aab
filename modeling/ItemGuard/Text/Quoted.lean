import ItemGuard.Text.Printed

/-!
# Texts quoted in messages

A message that shows a text puts it between double quotes, with a backslash before a quote or a
backslash, the short forms of null, tab, line feed and carriage return, and a number in braces for
every other character that is not printed.
-/

namespace ItemGuard.Text

/-- The hexadecimal digits of a number, with small letters. -/
def hexDigits (n : Nat) : List Char :=
  Nat.toDigits 16 n

/-- How a quoted text shows one character. -/
def quoteChar : Char → List Char
  | '"' => ['\\', '"']
  | '\\' => ['\\', '\\']
  | '\x00' => ['\\', '0']
  | '\t' => ['\\', 't']
  | '\n' => ['\\', 'n']
  | '\r' => ['\\', 'r']
  | c =>
    if isPrinted c then [c]
    else ['\\', 'u', '\x7b'] ++ hexDigits c.toNat ++ ['\x7d']

def quoted (s : String) : String :=
  String.ofList ('"' :: s.toList.flatMap quoteChar ++ ['"'])

end ItemGuard.Text
