import ItemGuard.Decimal.Binary64
import ItemGuard.Text.Numeral

/-!
# The shortest decimal text of a number

A binary64 number is written with the fewest digits that are nearer to it than to any other, and of
those the nearest ones. Numbers from 10⁻⁵ on and below 10¹⁶ are written without an exponent; the
exponent of any other number is written with its sign.
-/

namespace ItemGuard.Decimal

/-- The decimal number `digits · 10 ^ exponent`. -/
structure Digits where
  digits : Nat
  exponent : Int
  deriving DecidableEq

/-- Takes zeros from the end of the digits. -/
def Digits.strip (d : Digits) : Digits :=
  if h : d.digits = 0 then d
  else if d.digits % 10 = 0 then (Digits.mk (d.digits / 10) (d.exponent + 1)).strip
  else d
termination_by d.digits
decreasing_by exact Nat.div_lt_self (Nat.pos_of_ne_zero h) (by decide)

namespace Binary64

/-- The decimal number is closer to a positive magnitude than to its neighbours. Halfway to a
neighbour counts as closer if the magnitude has an even significand. -/
def isClosest (units : Nat) (d : Digits) : Bool :=
  let step := Nat.pow 2 (spareBits units)
  -- In quarters of a unit; below a power of two the magnitudes are twice as dense.
  let below := if units = Nat.pow 2 (Nat.log2 units) && 1 < step then step else 2 * step
  let den := Nat.pow 10 (-d.exponent).toNat
  let num := 4 * d.digits * Nat.pow 10 d.exponent.toNat * unitsInOne
  let low := (4 * units - below) * den
  let high := (4 * units + 2 * step) * den
  if units / step % 2 = 0 then low ≤ num && num ≤ high else low < num && num < high

/-- The exponent of the power of ten at or below a positive magnitude. -/
def leadingExponent (units : Nat) : Int :=
  (Text.decimal (units * Nat.pow 10 350 / unitsInOne)).length - 351

/-- The magnitude as a quotient of numbers, counted in powers of ten. -/
def inPowersOfTen (units : Nat) (exponent : Int) : Nat × Nat :=
  (units * Nat.pow 10 (-exponent).toNat, unitsInOne * Nat.pow 10 exponent.toNat)

/-- The decimal number with so many digits that is closest to a positive magnitude, if it is closer
to it than to any neighbour. -/
def withDigits? (units count : Nat) : Option Digits :=
  let exponent := leadingExponent units - (count - 1 : Nat)
  let (num, den) := inPowersOfTen units exponent
  let below : Digits := ⟨num / den, exponent⟩
  let above : Digits := ⟨num / den + 1, exponent⟩
  match isClosest units below, isClosest units above with
  | true, true => some ⟨roundDiv num den, exponent⟩
  | true, false => some below
  | false, true => some above
  | false, false => none

/-- The shortest decimal number for a positive magnitude; 17 digits are always enough. -/
def shortest (units : Nat) : Digits :=
  (((List.range 17).findSome? fun k => withDigits? units (k + 1)).getD ⟨0, 0⟩).strip

/-- The text of a decimal number without zeros at the end of its digits. -/
def layout (d : Digits) : List Char :=
  let ds := Text.decimal d.digits
  -- The decimal point stands behind so many digits.
  let point : Int := ds.length + d.exponent
  if 0 ≤ d.exponent && point ≤ 16 then
    ds ++ List.replicate d.exponent.toNat '0' ++ ['.', '0']
  else if 0 < point && point ≤ 16 then
    ds.take point.toNat ++ '.' :: ds.drop point.toNat
  else if -5 < point && point ≤ 0 then
    '0' :: '.' :: List.replicate (-point).toNat '0' ++ ds
  else
    let fraction := if ds.length = 1 then [] else '.' :: ds.drop 1
    let sign := if point - 1 < 0 then '-' else '+'
    ds.take 1 ++ fraction ++ 'e' :: sign :: Text.decimal (point - 1).natAbs

def text (x : Binary64) : String :=
  let digits := if x.units = 0 then ['0', '.', '0'] else layout (shortest x.units)
  String.ofList (if x.negative then '-' :: digits else digits)

end Binary64
end ItemGuard.Decimal
