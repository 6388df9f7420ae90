import Loom.Decimal.Numeral

/-!
# Moments

Moments of universal time, to the second, in the forms in which receipts, archives
and documents write them.
-/

namespace Loom

open Loom.Text

structure Moment where
  year : Nat
  month : Nat
  day : Nat
  hour : Nat
  minute : Nat
  second : Nat

namespace Moment

/-- A number filled up with zeros. -/
def padded (width n : Nat) : String :=
  let s := Decimal.showInt n
  repeated "0" (width - s.length) ++ s

/-- The year, month and day some days after the first of March of the year zero.
    Years begin in March here, so that a leap day ends one. -/
def ofDays (days : Nat) : Nat × Nat × Nat :=
  let era := days / 146097
  let dayOfEra := days % 146097
  let yearOfEra := (dayOfEra - dayOfEra / 1460 + dayOfEra / 36524 - dayOfEra / 146096) / 365
  let dayOfYear := dayOfEra - (365 * yearOfEra + yearOfEra / 4 - yearOfEra / 100)
  let monthFromMarch := (5 * dayOfYear + 2) / 153
  let day := dayOfYear - (153 * monthFromMarch + 2) / 5 + 1
  let month := if monthFromMarch < 10 then monthFromMarch + 3 else monthFromMarch - 9
  (yearOfEra + era * 400 + (if month ≤ 2 then 1 else 0), month, day)

def ofSeconds (seconds : Nat) : Moment :=
  let (year, month, day) := ofDays (seconds / 86400 + 719468)
  let rest := seconds % 86400
  ⟨year, month, day, rest / 3600, rest / 60 % 60, rest % 60⟩

def date (m : Moment) (sep : String) : String :=
  join sep [padded 4 m.year, padded 2 m.month, padded 2 m.day]

def time (m : Moment) (sep : String) : String :=
  join sep [padded 2 m.hour, padded 2 m.minute, padded 2 m.second]

def iso (m : Moment) : String :=
  m.date "-" ++ "T" ++ m.time ":" ++ "Z"

def stamp (m : Moment) : String :=
  m.date "" ++ "-" ++ m.time ""

def spoken (m : Moment) : String :=
  m.date "-" ++ " " ++ m.time ":" ++ "Z"

end Moment

end Loom
