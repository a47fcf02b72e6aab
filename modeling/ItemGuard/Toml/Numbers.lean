import ItemGuard.Text.Numeral
import ItemGuard.Toml.Blanks

/-!
# Numbers in TOML

Integers are decimal, hexadecimal, octal or binary and have 64 bits. Floats are checked and not
kept.
-/

namespace ItemGuard.Toml

/-- Reads digits with single underscores between them, after a first digit. -/
def moreDigits (isDigit : Char → Bool) : List Char → List Char × List Char
  | [] => ([], [])
  | '_' :: c :: cs =>
    if isDigit c then
      let (ds, rest) := moreDigits isDigit cs
      (c :: ds, rest)
    else ([], '_' :: c :: cs)
  | c :: cs =>
    if isDigit c then
      let (ds, rest) := moreDigits isDigit cs
      (c :: ds, rest)
    else ([], c :: cs)

/-- Reads one or more digits with single underscores between them. -/
def digits? (isDigit : Char → Bool) : Reader (List Char)
  | [] => none
  | c :: cs =>
    if isDigit c then
      let (ds, rest) := moreDigits isDigit cs
      some (c :: ds, rest)
    else none

/-- Reads a sign; without one a number is positive. The answer says whether it is negative. -/
def sign : List Char → Bool × List Char
  | '-' :: cs => (true, cs)
  | '+' :: cs => (false, cs)
  | cs => (false, cs)

/-- Reads the digits of a decimal integer: 0 alone, or digits that do not start with 0. -/
def decimalDigits? : Reader (List Char)
  | '0' :: cs => some (['0'], cs)
  | cs => digits? Char.isDigit cs

/-- Integers have 64 bits, so they reach from -2⁶³ to 2⁶³ - 1. -/
def integer64? (value : Int) : Option Int :=
  if -9223372036854775808 ≤ value && value < 9223372036854775808 then some value else none

/-- Reads digits of a base other than ten. -/
def basedInteger? (base : Nat) (isDigit : Char → Bool) : Reader Int := fun cs => do
  let (ds, rest) ← digits? isDigit cs
  let values ← ds.mapM Text.hexValue?
  let value ← integer64? (Int.ofNat (values.foldl (fun n v => base * n + v) 0))
  some (value, rest)

def integer? : Reader Int
  | '0' :: 'x' :: cs => basedInteger? 16 (fun c => (Text.hexValue? c).isSome) cs
  | '0' :: 'o' :: cs => basedInteger? 8 (fun c => '0' ≤ c && c ≤ '7') cs
  | '0' :: 'b' :: cs => basedInteger? 2 (fun c => c == '0' || c == '1') cs
  | cs => do
    let (negative, cs) := sign cs
    let (ds, rest) ← decimalDigits? cs
    let n := Int.ofNat (Text.digitsValue ds)
    let value ← integer64? (if negative then -n else n)
    some (value, rest)

/-- The exponent of a float, if there is one. -/
def exponent? : Reader Int
  | c :: cs =>
    if c = 'e' || c = 'E' then do
      let (negative, cs) := sign cs
      let (ds, rest) ← digits? Char.isDigit cs
      let n := Int.ofNat (Text.digitsValue ds)
      some (if negative then -n else n, rest)
    else none
  | [] => none

/-- The number `m · 10^e` is not rounded to infinity in 64-bit floating point. -/
def isFinite (m : Nat) (e : Int) : Bool :=
  let limit := Nat.pow 2 1024 - Nat.pow 2 970
  if m = 0 then true
  else if e ≥ 310 then false
  else if e ≥ 0 then m * Nat.pow 10 e.toNat < limit
  else
    let drop := e.natAbs
    if Nat.log2 m < 3 * drop then true else m < limit * Nat.pow 10 drop

/-- Reads a float with a fraction or an exponent. A positive one must not be too large. -/
def decimalFloat? : Reader Unit := fun cs => do
  let (negative, cs) := sign cs
  let (whole, cs) ← decimalDigits? cs
  let (fraction, cs, hasFraction) ←
    match cs with
    | '.' :: cs => do
      let (ds, cs) ← digits? Char.isDigit cs
      some (ds, cs, true)
    | cs => some ([], cs, false)
  let (e, cs) ←
    match exponent? cs with
    | some (e, cs) => some (e, cs)
    | none => if hasFraction then some (0, cs) else none
  if negative || isFinite (Text.digitsValue (whole ++ fraction)) (e - fraction.length) then
    some ((), cs)
  else none

/-- Reads one of the floats that are no numbers. -/
def specialFloat? : Reader Unit := fun cs =>
  match (sign cs).2 with
  | 'i' :: 'n' :: 'f' :: cs => some ((), cs)
  | 'n' :: 'a' :: 'n' :: cs => some ((), cs)
  | _ => none

end ItemGuard.Toml
