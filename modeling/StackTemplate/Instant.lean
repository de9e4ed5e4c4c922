import StackTemplate.Text.Decimal

/-!
# Instants

An instant is a number of seconds since the start of 1970 and a part of a second.  Its label
is the date and the time of day in UTC, to the millisecond.

The date comes from the day count by the rule of 400-year cycles, with years that start in
March: then the leap day is the last day of its year, and the months before it have the
regular lengths 31, 30, 31, 30, 31.
-/

namespace StackTemplate

/-- A point in time: seconds since 1970-01-01T00:00:00 UTC, and nanoseconds. -/
structure Instant where
  seconds : Int
  nanoseconds : Nat
deriving DecidableEq

/-- A day of the calendar. -/
structure Date where
  year : Int
  month : Nat
  day : Nat
deriving DecidableEq

namespace Date

/-- The date that lies `days` after 1970-01-01. -/
def ofDays (days : Int) : Date :=
  -- Days since 0000-03-01, split into cycles of 400 years.
  let shifted := days + 719468
  let cycle := shifted.fdiv 146097
  let dayOfCycle := (shifted.fmod 146097).toNat
  let yearOfCycle :=
    (dayOfCycle - dayOfCycle / 1460 + dayOfCycle / 36524 - dayOfCycle / 146096) / 365
  let dayOfYear := dayOfCycle - (365 * yearOfCycle + yearOfCycle / 4 - yearOfCycle / 100)
  let march := (5 * dayOfYear + 2) / 153
  let month := if march < 10 then march + 3 else march - 9
  { year := cycle * 400 + yearOfCycle + (if month ≤ 2 then 1 else 0)
    month
    day := dayOfYear - (153 * march + 2) / 5 + 1 }

/-- Four digits for the years 0 to 9999, and a sign in front of any other year. -/
def yearText (year : Int) : String :=
  if year < 0 then "-" ++ Text.fixed 4 year.natAbs
  else if year ≤ 9999 then Text.fixed 4 year.natAbs
  else "+" ++ Text.fixed 4 year.natAbs

end Date

namespace Instant

/-- Milliseconds since the start of 1970, the rest of a millisecond dropped. -/
def milliseconds (t : Instant) : Int := t.seconds * 1000 + (t.nanoseconds / 1000000 : Nat)

/-- The label `YYYY-MM-DDThh:mm:ss.mmm`, as stream ARNs have it (`dynamodb_table`). -/
def label (t : Instant) : String :=
  let date := Date.ofDays (t.seconds.fdiv 86400)
  let second := (t.seconds.fmod 86400).toNat
  String.join [Date.yearText date.year, "-", Text.fixed 2 date.month, "-", Text.fixed 2 date.day,
    "T", Text.fixed 2 (second / 3600), ":", Text.fixed 2 (second / 60 % 60), ":",
    Text.fixed 2 (second % 60), ".", Text.fixed 3 (t.nanoseconds / 1000000)]

end Instant
end StackTemplate
