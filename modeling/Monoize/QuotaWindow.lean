import Monoize.CivilTime
import Monoize.Money
import Monoize.QuotaSchema

namespace Monoize

open Fallible MachineInt

/-- Nanoseconds since 1970-01-01T00:00:00Z. -/
abbrev Instant := Int

def seconds (n : Int) : Int := n * 1000000000

-- 262142-12-31T23:59:59.999999999Z, the last instant of the date library
def maxInstant : Instant := seconds 8210266876799 + 999999999

-- -262143-01-01T00:00:00Z, the first one
def minInstant : Instant := seconds (-8334601228800)

/-- The stored text of an instant keeps microseconds; its order is the order of the number. -/
def timestamp (value : Instant) : Int := value / 1000

def parseTimestamp (value : Int) : Instant := value * 1000

-- `aborted` is a panic, which drops the transaction
inductive QuotaError
  | code (value : String)
  | storage (message : String)
  | aborted
  deriving DecidableEq

def QuotaError.errorCode : QuotaError → String
  | code value => value
  | storage _ => "quota_storage_error"
  | aborted => ""

def QuotaError.message : QuotaError → String
  | code value => value
  | storage message => "quota storage failed: " ++ message
  | aborted => ""

structure QuotaWindow where
  (start stop : Instant)
  deriving DecidableEq

def isRolling : WindowKind → Bool
  | .fiveHours | .twelveHours | .custom => true
  | .day | .week | .month => false

def daysFromCivil (year month day : Int) : Int :=
  let y := if month ≤ 2 then year - 1 else year
  let era := y / 400
  let yoe := y - era * 400
  let doy := (153 * (if 2 < month then month - 3 else month + 9) + 2) / 5 + day - 1
  era * 146097 + (yoe * 365 + yoe / 4 - yoe / 100 + doy) - 719468

def civilFromDays (days : Int) : Int × Int × Int :=
  let date := CivilTime.ofDays days
  (date.year, date.month, date.day)

-- Asia/Shanghai has been at a fixed offset of eight hours since 1991.
def shanghaiOffset : Int := seconds 28800

def shanghaiDate (now : Instant) : Int := (now + shanghaiOffset) / seconds 86400

def shanghaiMidnight (date : Int) : Instant := date * seconds 86400 - shanghaiOffset

def minDate : Int := minInstant / seconds 86400

def maxDate : Int := maxInstant / seconds 86400

def numDaysFromMonday (date : Int) : Int := (date + 3) % 7

def windowDates (kind : WindowKind) (date : Int) : Int × Int :=
  match kind with
  | .week =>
    let start := date - numDaysFromMonday date
    (start, start + 7)
  | .month =>
    let (year, month, day) := civilFromDays date
    (date - (day - 1), if month = 12 then daysFromCivil (year + 1) 1 1 else daysFromCivil year (month + 1) 1)
  | _ => (date, date + 1)

def expectedWindowSeconds (kind : WindowKind) (windowSeconds : Int) : Int :=
  match kind with
  | .fiveHours => 18000
  | .twelveHours => 43200
  | _ => windowSeconds

def quotaWindow (kind : WindowKind) (windowSeconds : Int) (now : Instant) : Except QuotaError QuotaWindow :=
  if isRolling kind then do
    require (¬ (windowSeconds ≠ expectedWindowSeconds kind windowSeconds ∨ windowSeconds ≤ 0 ∨
      (kind = .custom ∧ (31536000 < windowSeconds ∨ windowSeconds % 3600 ≠ 0))))
      (.code "invalid_quota_window")
    require (now + seconds windowSeconds ≤ maxInstant) (.code "invalid_quota_window")
    pure ⟨now, now + seconds windowSeconds⟩
  else do
    let date := shanghaiDate now
    let (startDate, endDate) := windowDates kind date
    require (date ≤ maxDate ∧ minDate ≤ startDate) .aborted
    require (endDate ≤ maxDate) (if kind = .month then .code "invalid_quota_window" else .aborted)
    require (minInstant ≤ shanghaiMidnight startDate) (.code "invalid_quota_window")
    pure ⟨shanghaiMidnight startDate, shanghaiMidnight endDate⟩

theorem quotaWindow_rolling {kind : WindowKind} {windowSeconds : Int} {now : Instant}
    {w : QuotaWindow} (hk : isRolling kind = true) (h : quotaWindow kind windowSeconds now = .ok w) :
    w = ⟨now, now + seconds windowSeconds⟩ := by
  simp only [quotaWindow, hk, if_true, ok_iff] at h
  obtain ⟨-, -, -, -, hw⟩ := h
  exact hw.symm

def overflow : QuotaError := .code "quota_amount_overflow"

def parseCanonical (value : String) : Except QuotaError Int := do
  let digits ← orError overflow (canonical? value.toList)
  orError overflow (checked 127 digits)

theorem parseCanonical_bounds {value : String} {n : Int} (h : parseCanonical value = .ok n) : 0 ≤ n ∧ n < 2 ^ 127 := by
  simp only [parseCanonical, ok_iff, checked_eq_some] at h
  obtain ⟨m, -, rfl, -, hlt⟩ := h
  exact ⟨Int.natCast_nonneg m, hlt⟩

theorem parseCanonical_toString {v n : Int} : parseCanonical (toString v) = .ok n ↔ v = n ∧ 0 ≤ v ∧ v < 2 ^ 127 := by
  simp only [parseCanonical, ok_iff, canonical?_checked_toString]

def ceilProductRatio (value multiplier denominator : Int) : Except QuotaError Int := do
  let product ← orError overflow (checked 127 (value * multiplier))
  let quotient ← orError .aborted (div? 127 product denominator)
  let remainder := product.tmod denominator
  orError overflow (checked 127 (quotient + if remainder ≠ 0 then 1 else 0))

def roundProductRatio (value multiplier denominator : Int) : Except QuotaError Int := do
  let product ← orError overflow (checked 127 (value * multiplier))
  let quotient ← orError .aborted (div? 127 product denominator)
  let remainder := product.tmod denominator
  let doubled ← orError overflow (checked 127 (remainder * 2))
  orError overflow (checked 127 (quotient + if denominator ≤ doubled then 1 else 0))

end Monoize
