import ItemGuard.Json.Value

/-!
# Reading JSON numbers

A numeral has a whole part without needless zeros, perhaps a fraction, and perhaps an exponent. The
number it stands for is an integer if it is written as one, fits, and is not `-0`; every other
number is computed from as many leading digits as fit into 64 bits and a power of ten, with a
rounding after each operation, and must not be infinite.
-/

namespace ItemGuard.Json

open Decimal (Binary64)

/-- A number as it is written. -/
structure Numeral where
  negative : Bool
  whole : List Char
  /-- The digits behind the decimal point, if there is one. -/
  fraction : List Char
  /-- The exponent, if there is one: whether it is negative, and its digits. -/
  exponent : Option (Bool × List Char)

/-! ## Reading numerals -/

/-- Reads one or more digits. `atEnd` is wrong with a text that ends before them. -/
def readDigits (atEnd : Fault) (cs : List Char) : Except Fault (List Char × List Char) :=
  match cs.takeWhile Char.isDigit, cs.dropWhile Char.isDigit with
  | [], [] => .error atEnd
  | [], _ :: _ => .error .malformed
  | ds, rest => .ok (ds, rest)

/-- Reads the whole part of a numeral: a zero, or digits that start with no zero. -/
def readWhole (atEnd : Fault) (cs : List Char) : Except Fault (List Char × List Char) := do
  let (ds, rest) ← readDigits atEnd cs
  match ds with
  | '0' :: _ :: _ => .error .malformed
  | _ => .ok (ds, rest)

/-- Reads the fraction of a numeral, if there is one. -/
def readFraction (atEnd : Fault) : List Char → Except Fault (List Char × List Char)
  | '.' :: cs => readDigits atEnd cs
  | cs => .ok ([], cs)

def readSign : List Char → Bool × List Char
  | '-' :: cs => (true, cs)
  | '+' :: cs => (false, cs)
  | cs => (false, cs)

def isExponentLetter (c : Char) : Bool := c == 'e' || c == 'E'

/-- Reads the exponent of a numeral, if there is one. -/
def readExponent (atEnd : Fault) : Reads (Option (Bool × List Char))
  | c :: cs =>
    if isExponentLetter c then do
      let (negative, cs) := readSign cs
      let (ds, rest) ← readDigits atEnd cs
      .ok (some (negative, ds), rest)
    else .ok (none, c :: cs)
  | [] => .ok (none, [])

def readNumeral (atEnd : Fault) : Reads Numeral := fun cs => do
  let (negative, cs) := match cs with
    | '-' :: cs => (true, cs)
    | cs => (false, cs)
  let (whole, cs) ← readWhole atEnd cs
  let (fraction, cs) ← readFraction atEnd cs
  let (exponent, cs) ← readExponent atEnd cs
  .ok (⟨negative, whole, fraction, exponent⟩, cs)

/-! ## The number of a numeral -/

/-- A decimal number of leading digits and a power of ten. -/
structure Leading where
  digits : Nat
  exponent : Int
  /-- A digit did not fit, so no further digit counts. -/
  isFull : Bool

namespace Leading

/-- One more than the largest number of leading digits: 2⁶⁴. -/
def bound : Nat := 18446744073709551616

/-- Adds a digit of the whole part; one that does not fit leaves its place behind. -/
def addWhole (l : Leading) (c : Char) : Leading :=
  let digits := 10 * l.digits + Text.digitValue c
  if !l.isFull && digits < bound then { l with digits := digits }
  else { l with exponent := l.exponent + 1, isFull := true }

/-- Adds a digit of the fraction; one that does not fit is dropped. -/
def addFraction (l : Leading) (c : Char) : Leading :=
  let digits := 10 * l.digits + Text.digitValue c
  if !l.isFull && digits < bound then { l with digits := digits, exponent := l.exponent - 1 }
  else { l with isFull := true }

/-- The leading digits of the whole part and the fraction of a numeral. The first digit of a
fraction is tried again after a whole part that did not fit. -/
def ofDigits (whole fraction : List Char) : Leading :=
  let l := whole.foldl addWhole ⟨0, 0, false⟩
  fraction.foldl addFraction { l with isFull := false }

end Leading

/-- The largest exponent that is read, 2³¹ - 1; a larger one counts as infinite. -/
def maxExponent : Nat := 2147483647

/-- The binary64 number of leading digits with an exponent, unless it is infinite. -/
def scaled? (l : Leading) (exponent : Option (Bool × List Char)) : Option Nat :=
  match exponent with
  | none => Binary64.scale? (Binary64.ofNat l.digits) l.exponent
  | some (negative, ds) =>
    let n := Text.digitsValue ds
    if maxExponent < n then
      if l.digits = 0 || negative then some 0 else none
    else
      Binary64.scale? (Binary64.ofNat l.digits)
        (if negative then l.exponent - n else l.exponent + n)

namespace Numeral

/-- The smallest integer without its sign: 2⁶³. -/
def lowest : Nat := 9223372036854775808

/-- The integer that the numeral is written as, if it fits. -/
def integer? (n : Numeral) : Option Int :=
  if n.fraction.isEmpty && n.exponent.isNone then
    let value := Text.digitsValue n.whole
    if n.negative then
      if 0 < value && value ≤ lowest then some (-value) else none
    else if value < Leading.bound then some value
    else none
  else none

/-- The number of the numeral, unless it is infinite. -/
def number? (n : Numeral) : Option Number :=
  match n.integer? with
  | some value => some (.integer value)
  | none =>
    (scaled? (.ofDigits n.whole n.fraction) n.exponent).map fun units =>
      .float ⟨n.negative, units⟩

end Numeral

def readNumber : Reads Number := fun cs => do
  let (numeral, cs) ← readNumeral .truncated cs
  match numeral.number? with
  | some number => .ok (number, cs)
  | none => .error .malformed

/-- Passes over a number, however large it is. A text that ends in a number is malformed here. -/
def skipNumber : Reads Unit := fun cs => do
  let (_, cs) ← readNumeral .malformed cs
  .ok ((), cs)

end ItemGuard.Json
