import ItemGuard.Text.Numeral
import ItemGuard.Toml.Blanks

/-!
# Strings and keys in TOML

A string stands between double quotes, with escapes, or between single quotes, without; three quotes
of a kind let it span several lines. A part of a key is a bare word or a string of one line.
-/

namespace ItemGuard.Toml

/-- The character that a letter stands for after a backslash. -/
def escaped? : Char → Option Char
  | 'b' => some '\x08'
  | 't' => some '\t'
  | 'n' => some '\n'
  | 'f' => some '\x0c'
  | 'r' => some '\r'
  | '"' => some '"'
  | '\\' => some '\\'
  | _ => none

def codePoint? (digits : List Char) : Option Char := do
  let values ← digits.mapM Text.hexValue?
  let n := values.foldl (fun n v => 16 * n + v) 0
  if n.isValidChar then some (Char.ofNat n) else none

/-- The characters that stand for themselves between double quotes. -/
def isBasic (c : Char) : Bool :=
  isComment c && c != '"' && c != '\\'

/-- The characters that stand for themselves between single quotes. -/
def isLiteral (c : Char) : Bool :=
  isComment c && c != '\''

/-- Puts a character before a text that was read. -/
def consRead (c : Char) (r : Option (List Char × List Char)) : Option (List Char × List Char) :=
  r.map fun p => (c :: p.1, p.2)

/-- Reads a string up to its closing double quote. -/
def basicBody : Reader (List Char)
  | [] => none
  | '"' :: cs => some ([], cs)
  | '\\' :: 'u' :: a :: b :: c :: d :: cs => do
    consRead (← codePoint? [a, b, c, d]) (basicBody cs)
  | '\\' :: 'U' :: a :: b :: c :: d :: e :: f :: g :: h :: cs => do
    consRead (← codePoint? [a, b, c, d, e, f, g, h]) (basicBody cs)
  | '\\' :: c :: cs => do consRead (← escaped? c) (basicBody cs)
  | c :: cs => if isBasic c then consRead c (basicBody cs) else none

/-- Reads a string up to its closing single quote. -/
def literalBody : Reader (List Char)
  | [] => none
  | '\'' :: cs => some ([], cs)
  | c :: cs => if isLiteral c then consRead c (literalBody cs) else none

/-- The quotes that stand directly before the three closing ones: at most two. -/
def closingQuotes (q : Char) : List Char → List Char × List Char
  | c :: d :: cs =>
    if c = q && d = q then ([q, q], cs)
    else if c = q then ([q], d :: cs)
    else ([], c :: d :: cs)
  | c :: cs => if c = q then ([q], cs) else ([], c :: cs)
  | [] => ([], [])

/-- Reads a string of several lines up to its three closing double quotes. A backslash at the end
of a line drops all blanks and line ends up to the next character; the flag says whether they are
being dropped. -/
def basicLines : Bool → Reader (List Char)
  | _, [] => none
  | _, '"' :: '"' :: '"' :: cs => some (closingQuotes '"' cs)
  | _, '"' :: cs => consRead '"' (basicLines false cs)
  | _, '\\' :: 'u' :: a :: b :: c :: d :: cs => do
    consRead (← codePoint? [a, b, c, d]) (basicLines false cs)
  | _, '\\' :: 'U' :: a :: b :: c :: d :: e :: f :: g :: h :: cs => do
    consRead (← codePoint? [a, b, c, d, e, f, g, h]) (basicLines false cs)
  | _, '\\' :: c :: cs =>
    if (newline? (skipBlanks (c :: cs))).isSome then basicLines true (c :: cs)
    else do consRead (← escaped? c) (basicLines false cs)
  | dropping, '\r' :: '\n' :: cs =>
    if dropping then basicLines true cs else consRead '\n' (basicLines false cs)
  | dropping, '\n' :: cs =>
    if dropping then basicLines true cs else consRead '\n' (basicLines false cs)
  | dropping, c :: cs =>
    if dropping && isBlank c then basicLines true cs
    else if isBasic c then consRead c (basicLines false cs)
    else none

/-- Reads a string of several lines up to its three closing single quotes. -/
def literalLines : Reader (List Char)
  | [] => none
  | '\'' :: '\'' :: '\'' :: cs => some (closingQuotes '\'' cs)
  | '\'' :: cs => consRead '\'' (literalLines cs)
  | '\r' :: '\n' :: cs => consRead '\n' (literalLines cs)
  | '\n' :: cs => consRead '\n' (literalLines cs)
  | c :: cs => if isLiteral c then consRead c (literalLines cs) else none

/-- Drops the line end directly after three opening quotes. -/
def dropNewline (cs : List Char) : List Char :=
  (newline? cs).getD cs

/-- Reads a string of one of the four kinds. -/
def string? : Reader String := fun cs =>
  let read : Option (List Char × List Char) :=
    match cs with
    | '"' :: '"' :: '"' :: cs => basicLines false (dropNewline cs)
    | '"' :: cs => basicBody cs
    | '\'' :: '\'' :: '\'' :: cs => literalLines (dropNewline cs)
    | '\'' :: cs => literalBody cs
    | _ => none
  read.map fun p => (String.ofList p.1, p.2)

/-! ## Keys -/

def isKeyChar (c : Char) : Bool :=
  c.isAlphanum || c == '_' || c == '-'

/-- Reads one part of a key: bare, or a string of one line. -/
def simpleKey? : Reader String
  | '"' :: cs => (basicBody cs).map fun p => (String.ofList p.1, p.2)
  | '\'' :: cs => (literalBody cs).map fun p => (String.ofList p.1, p.2)
  | cs =>
    let word := cs.takeWhile isKeyChar
    if word.isEmpty then none else some (String.ofList word, cs.dropWhile isKeyChar)

end ItemGuard.Toml
