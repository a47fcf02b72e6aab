import ItemGuard.Text.Numeral
import ItemGuard.Toml.Blanks

/-!
# Dates and times in TOML

Dates and times are checked as RFC 3339 has them and not kept. A minute may have a leap second.
-/

namespace ItemGuard.Toml

/-- Reads a number of exactly so many digits within limits. -/
def fixedDigits? (width low high : Nat) : Reader Nat := fun cs =>
  let ds := cs.take width
  let n := Text.digitsValue ds
  if ds.length = width && ds.all Char.isDigit && low ≤ n && n ≤ high then
    some (n, cs.drop width)
  else none

def char? (c : Char) : Reader Unit
  | [] => none
  | d :: cs => if d = c then some ((), cs) else none

def daysIn (year month : Nat) : Nat :=
  if month = 2 then
    if year % 4 = 0 && (year % 100 != 0 || year % 400 = 0) then 29 else 28
  else if month = 4 || month = 6 || month = 9 || month = 11 then 30
  else 31

def date? : Reader Unit := fun cs => do
  let (year, cs) ← fixedDigits? 4 0 9999 cs
  let (_, cs) ← char? '-' cs
  let (month, cs) ← fixedDigits? 2 1 12 cs
  let (_, cs) ← char? '-' cs
  let (_, cs) ← fixedDigits? 2 1 (daysIn year month) cs
  some ((), cs)

def skipFraction : List Char → List Char
  | '.' :: c :: cs => if c.isDigit then cs.dropWhile Char.isDigit else '.' :: c :: cs
  | cs => cs

def time? : Reader Unit := fun cs => do
  let (_, cs) ← fixedDigits? 2 0 23 cs
  let (_, cs) ← char? ':' cs
  let (_, cs) ← fixedDigits? 2 0 59 cs
  let (_, cs) ← char? ':' cs
  let (_, cs) ← fixedDigits? 2 0 60 cs
  some ((), skipFraction cs)

def offset? : Reader Unit
  | 'Z' :: cs => some ((), cs)
  | 'z' :: cs => some ((), cs)
  | c :: cs =>
    if c = '+' || c = '-' then do
      let (_, cs) ← fixedDigits? 2 0 23 cs
      let (_, cs) ← char? ':' cs
      let (_, cs) ← fixedDigits? 2 0 59 cs
      some ((), cs)
    else none
  | [] => none

/-- Drops what a reader reads, if it reads anything. -/
def skip? (read : Reader Unit) (cs : List Char) : List Char :=
  match read cs with
  | some (_, rest) => rest
  | none => cs

/-- Reads the time behind a date, with the offset behind it. -/
def dateTail? : Reader Unit
  | c :: cs =>
    if c = 'T' || c = 't' || c = ' ' then do
      let (_, cs) ← time? cs
      some ((), skip? offset? cs)
    else none
  | [] => none

/-- Reads a date, a time, or a date with a time. -/
def dateTime? : Reader Unit := fun cs =>
  match date? cs with
  | some (_, cs) => some ((), skip? dateTail? cs)
  | none => time? cs

end ItemGuard.Toml
