/-!
# Binary floating point

A finite binary64 number is a sign and a multiple of 2⁻¹⁰⁷⁴, its magnitude: the multiples below 2⁵³
are all there, and from there on only those with at most 53 significant bits. Every operation gives
the magnitude nearest to the exact result, and of two that are equally near the one with the even
significand.
-/

namespace ItemGuard.Decimal

/-- A finite binary64 number. -/
structure Binary64 where
  negative : Bool
  /-- The magnitude as a multiple of 2⁻¹⁰⁷⁴. -/
  units : Nat
  deriving DecidableEq

namespace Binary64

def unitsInOne : Nat := Nat.pow 2 1074

/-- The first multiple of 2⁻¹⁰⁷⁴ that is too large. -/
def infinity : Nat := Nat.pow 2 1024 * unitsInOne

/-- The number of low bits that a magnitude of so many units has no room for. -/
def spareBits (units : Nat) : Nat :=
  Nat.log2 units - 52

/-- The quotient of two numbers, rounded to a natural number, a half to the even one. -/
def roundDiv (num den : Nat) : Nat :=
  let q := num / den
  let r := num % den
  if 2 * r < den then q else if den < 2 * r then q + 1 else q + q % 2

/-- The rounded quotient is at most half a unit away. -/
theorem roundDiv_near {num den : Nat} (h : 0 < den) :
    2 * num ≤ 2 * (den * roundDiv num den) + den ∧
      2 * (den * roundDiv num den) ≤ 2 * num + den := by
  have hdiv := Nat.div_add_mod num den
  have hmod := Nat.mod_lt num h
  have hbit : num / den % 2 = 0 ∨ num / den % 2 = 1 := by omega
  simp only [roundDiv]
  split
  · omega
  · split
    · rw [Nat.mul_add, Nat.mul_one]; omega
    · rcases hbit with hb | hb
      · rw [hb, Nat.add_zero]; omega
      · rw [hb, Nat.mul_add, Nat.mul_one]; omega

/-- The magnitude nearest to a quotient of units. -/
def nearest (num den : Nat) : Nat :=
  let step := Nat.pow 2 (spareBits (num / den))
  step * roundDiv num (den * step)

def ofNat (n : Nat) : Nat :=
  nearest (n * unitsInOne) 1

def mul (a b : Nat) : Nat :=
  nearest (a * b) unitsInOne

def div (a b : Nat) : Nat :=
  nearest (a * unitsInOne) b

def powerOfTen (n : Nat) : Nat :=
  ofNat (Nat.pow 10 n)

/-- The largest power of ten that is no infinity. -/
def maxPowerOfTen : Nat := 308

/-- A magnitude times a power of ten with a negative exponent: at most one division by a power that
is no infinity after another, until nothing is left. -/
def scaleDown (units exponent : Nat) : Nat :=
  if exponent ≤ maxPowerOfTen then div units (powerOfTen exponent)
  else if units = 0 then 0
  else scaleDown (div units (powerOfTen maxPowerOfTen)) (exponent - maxPowerOfTen)
termination_by exponent
decreasing_by simp_all [maxPowerOfTen]; omega

/-- A magnitude times a power of ten, unless it is infinite. -/
def scale? (units : Nat) (exponent : Int) : Option Nat :=
  if exponent < 0 then some (scaleDown units exponent.natAbs)
  else if units = 0 then some 0
  else if maxPowerOfTen < exponent.natAbs then none
  else
    let r := mul units (powerOfTen exponent.natAbs)
    if r < infinity then some r else none

end Binary64
end ItemGuard.Decimal
