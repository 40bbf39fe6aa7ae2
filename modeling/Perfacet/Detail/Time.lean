import Mathlib.Data.List.Basic

/-!
# Clock readings as text

`iso8601Utc` turns a reading of the millisecond clock into the text that task results
carry. `gmtime_r` is the proleptic Gregorian calendar: years start in March while the
days are split up, so that a leap day comes last, and 400 years are an era of 146097
days.
-/

namespace Perfacet

/-- A year, a month and a day. -/
structure CivilDate where
  year : ℕ
  month : ℕ
  day : ℕ
  deriving DecidableEq, Repr

/-- The calendar date a number of days after 1970-01-01. -/
def civilFromDays (days : ℕ) : CivilDate :=
  -- the days are counted from the first of March of the year 0
  let z := days + 719468
  let era := z / 146097
  let dayOfEra := z % 146097
  let yearOfEra := (dayOfEra - dayOfEra / 1460 + dayOfEra / 36524 - dayOfEra / 146096) / 365
  let dayOfYear := dayOfEra - (365 * yearOfEra + yearOfEra / 4 - yearOfEra / 100)
  -- a year that begins in March ends with its leap day
  let marchMonth := (5 * dayOfYear + 2) / 153
  let month := if marchMonth < 10 then marchMonth + 3 else marchMonth - 9
  { year := yearOfEra + era * 400 + if month ≤ 2 then 1 else 0
    month := month
    day := dayOfYear - (153 * marchMonth + 2) / 5 + 1 }

/-- A number with leading zeros up to a width. -/
def padded (width n : ℕ) : String :=
  let digits := (toString n).toList
  String.ofList (List.replicate (width - digits.length) '0' ++ digits)

/-- The UTC date and time of a clock reading, with milliseconds. -/
def iso8601Utc (unixMs : UInt64) : String :=
  let sec := unixMs.toNat / 1000
  let ms := unixMs.toNat % 1000
  let date := civilFromDays (sec / 86400)
  let ofDay := sec % 86400
  toString date.year ++ "-" ++ padded 2 date.month ++ "-" ++ padded 2 date.day ++ "T" ++
    padded 2 (ofDay / 3600) ++ ":" ++ padded 2 (ofDay / 60 % 60) ++ ":" ++
    padded 2 (ofDay % 60) ++ "." ++ padded 3 ms ++ "Z"

example : iso8601Utc 1709210096789 = "2024-02-29T12:34:56.789Z" := by decide

end Perfacet
