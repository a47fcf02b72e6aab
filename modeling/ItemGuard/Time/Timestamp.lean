import ItemGuard.Text.Numeral

/-!
# Timestamps

A timestamp is a number of seconds since the start of 1970 in UTC and a number of nanoseconds. It
is written as RFC 3339 has it, with `Z` for UTC, and with no more fraction digits than it needs,
three at a time. A thousand million nanoseconds or more stand for a leap second.
-/

namespace ItemGuard

/-- A day of the proleptic Gregorian calendar. -/
structure Date where
  year : Int
  month : Nat
  day : Nat
  deriving DecidableEq

/-- The days from the 1st of March of the year 0 to the start of 1970. -/
def Date.epochDay : Int := 719468

/-- The day that is so many days after the start of 1970. -/
def Date.ofDays (days : Int) : Date :=
  -- Years are counted from March, so that a leap day is the last day of its year.
  let shifted := days + Date.epochDay
  -- 400 years have 146097 days.
  let era := shifted.fdiv 146097
  let dayOfEra := (shifted.fmod 146097).toNat
  let yearOfEra := (dayOfEra - dayOfEra / 1460 + dayOfEra / 36524 - dayOfEra / 146096) / 365
  let dayOfYear := dayOfEra - (365 * yearOfEra + yearOfEra / 4 - yearOfEra / 100)
  -- The months from March on start at day `(153 m + 2) / 5` of the year.
  let m := (5 * dayOfYear + 2) / 153
  let month := if m < 10 then m + 3 else m - 9
  { year := era * 400 + yearOfEra + (if month ≤ 2 then 1 else 0)
    month := month
    day := dayOfYear - (153 * m + 2) / 5 + 1 }

/-- Four digits for the years 0 to 9999, a sign and at least four digits for all others. -/
def yearDigits (year : Int) : List Char :=
  if 0 ≤ year && year ≤ 9999 then Text.padded 4 year.toNat
  else (if year < 0 then '-' else '+') :: Text.padded 4 year.natAbs

structure Timestamp where
  seconds : Int
  nanos : Nat
  deriving DecidableEq

namespace Timestamp

/-- The fraction of a second in 0, 3, 6 or 9 digits. -/
def fractionDigits (nanos : Nat) : List Char :=
  if nanos = 0 then []
  else if nanos % 1000000 = 0 then '.' :: Text.padded 3 (nanos / 1000000)
  else if nanos % 1000 = 0 then '.' :: Text.padded 6 (nanos / 1000)
  else '.' :: Text.padded 9 nanos

def text (t : Timestamp) : String :=
  let date := Date.ofDays (t.seconds.fdiv 86400)
  let second := (t.seconds.fmod 86400).toNat
  let two := Text.padded 2
  String.ofList <|
    yearDigits date.year ++ '-' :: two date.month ++ '-' :: two date.day
      ++ 'T' :: two (second / 3600) ++ ':' :: two (second / 60 % 60)
      ++ ':' :: two (second % 60 + t.nanos / 1000000000)
      ++ fractionDigits (t.nanos % 1000000000) ++ ['Z']

end Timestamp
end ItemGuard
