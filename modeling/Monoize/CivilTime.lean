import Mathlib.Algebra.Group.Int.Defs
import Mathlib.Algebra.Group.Nat.Defs
import Mathlib.Data.Int.Basic

/-! The RFC 3339 text of an instant in UTC. -/

namespace CivilTime

structure Date where
  (year month day : Int)

def ofDays (days : Int) : Date :=
  let shifted := days + 719468
  let era := shifted / 146097
  let dayOfEra := shifted % 146097
  let yearOfEra := (dayOfEra - dayOfEra / 1460 + dayOfEra / 36524 - dayOfEra / 146096) / 365
  let dayOfYear := dayOfEra - (365 * yearOfEra + yearOfEra / 4 - yearOfEra / 100)
  let shiftedMonth := (5 * dayOfYear + 2) / 153
  let month := if shiftedMonth < 10 then shiftedMonth + 3 else shiftedMonth - 9
  { year := yearOfEra + era * 400 + if month ≤ 2 then 1 else 0
    month := month
    day := dayOfYear - (153 * shiftedMonth + 2) / 5 + 1 }

def padded (width n : Nat) : String :=
  String.ofList (List.replicate (width - (Nat.toDigits 10 n).length) '0' ++ Nat.toDigits 10 n)

def yearText (year : Int) : String :=
  if year < 0 then "-" ++ padded 4 year.natAbs
  else if 9999 < year then "+" ++ padded 4 year.natAbs
  else padded 4 year.natAbs

/-- The text of an instant in nanoseconds, with its fraction of a second cut to `places` decimals. -/
def rfc3339 (places : Nat) (nanos : Int) : String :=
  let secondsOfEpoch := nanos / 1000000000
  let date := ofDays (secondsOfEpoch / 86400)
  let secondOfDay := (secondsOfEpoch % 86400).toNat
  let fraction := (nanos % 1000000000).toNat / 10 ^ (9 - places)
  yearText date.year ++ "-" ++ padded 2 date.month.toNat ++ "-" ++ padded 2 date.day.toNat ++ "T" ++
    padded 2 (secondOfDay / 3600) ++ ":" ++ padded 2 (secondOfDay / 60 % 60) ++ ":" ++ padded 2 (secondOfDay % 60) ++
    "." ++ padded places fraction ++ "Z"

def rfc3339Auto (nanos : Int) : String :=
  let fraction := nanos % 1000000000
  if fraction = 0 then String.ofList ((rfc3339 3 nanos).toList.dropLast.dropLast.dropLast.dropLast.dropLast ++ ['Z'])
  else if fraction % 1000000 = 0 then rfc3339 3 nanos
  else if fraction % 1000 = 0 then rfc3339 6 nanos
  else rfc3339 9 nanos

example : rfc3339 6 1709251199123456789 = "2024-02-29T23:59:59.123456Z" := by decide +kernel

example : rfc3339 3 (-1000000) = "1969-12-31T23:59:59.999Z" := by decide +kernel

example : rfc3339Auto 1709251199000000000 = "2024-02-29T23:59:59Z" := by decide +kernel

end CivilTime
