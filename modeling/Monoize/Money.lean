import Mathlib.Data.Int.GCD
import Monoize.Fallible
import Monoize.MachineInt
import Monoize.TextFields

/-! Amounts in minor units, exchange rates and the conversions between them. -/

namespace Monoize

open Fallible MachineInt TextFields

variable {value : String} {v r : Int} {rate : ExchangeRateRational}

inductive Currency
  | cny | usd
  deriving DecidableEq

def currencyString : Currency → String
  | .cny => "CNY"
  | .usd => "USD"

inductive MoneyError
  | invalidAmount | invalidExchangeRate | amountOverflow
  deriving DecidableEq

def MoneyError.message : MoneyError → String
  | invalidAmount => "amount must be a canonical nonnegative integer string"
  | invalidExchangeRate => "exchange rate must be a positive canonical decimal"
  | amountOverflow => "amount exceeds the supported integer range"

def parseMinor (value : String) : Except MoneyError Int := do
  let n ← orError .invalidAmount (canonical? value.toList)
  orError .amountOverflow (checked 127 n)

def signedCanonical? : List Char → Option Int
  | '-' :: cs => if cs = ['0'] then none else (canonical? cs).map fun n : Nat => -(n : Int)
  | cs => (canonical? cs).map Int.ofNat

structure ExchangeRateRational where
  decimal : String
  (numerator denominator : Int)
  numerator_pos : 0 < numerator
  denominator_pos : 0 < denominator

def splitOnce (cs : List Char) : List Char × Option (List Char) :=
  match splitAt? '.' cs with
  | none => (cs, none)
  | some (integer, fraction) => (integer, some fraction)

def fractionDigits (fraction : Option (List Char)) : Except MoneyError (Nat × Nat) :=
  match fraction with
  | none => .ok (0, 0)
  | some digits => do
    let n ← orError .invalidExchangeRate (digits? digits)
    require (digits.length ≤ 18) .invalidExchangeRate
    pure (digits.length, n)

def reducedRate (decimal : String) (numerator denominator : Int) (hn : 0 < numerator) (hd : 0 < denominator) :
    ExchangeRateRational where
  decimal := decimal
  numerator := numerator / Int.gcd numerator denominator
  denominator := denominator / Int.gcd numerator denominator
  numerator_pos := Int.ediv_pos_of_pos_of_dvd hn (Int.natCast_nonneg _) (Int.gcd_dvd_left ..)
  denominator_pos := Int.ediv_pos_of_pos_of_dvd hd (Int.natCast_nonneg _) (Int.gcd_dvd_right ..)

def ExchangeRateRational.parse (value : String) : Except MoneyError ExchangeRateRational := do
  let (integer, fraction) := splitOnce value.toList
  let whole ← orError .invalidExchangeRate (canonical? integer)
  let (scale, fractional) ← fractionDigits fraction
  let whole ← orError .amountOverflow (checked 127 whole)
  let scaled ← orError .amountOverflow (checked 127 (whole * 10 ^ scale))
  let numerator ← orError .amountOverflow (checked 127 (scaled + fractional))
  if h : 0 < numerator then pure (reducedRate value numerator (10 ^ scale) h (Int.pow_pos (by decide)))
  else .error .invalidExchangeRate

def requireNonnegative (value : Int) : Except MoneyError Unit := require (0 ≤ value) .invalidAmount

def roundNonnegativeRatio (numerator denominator : Int) : Except MoneyError Int := do
  require (0 ≤ numerator ∧ 0 < denominator) .invalidAmount
  let quotient := numerator / denominator
  let remainder := numerator % denominator
  if remainder ≠ 0 ∧ denominator - remainder ≤ remainder then orError .amountOverflow (checked 127 (quotient + 1))
  else pure quotient

def checkedRoundProductRatio (value multiplier denominator : Int) : Except MoneyError Int := do
  let numerator ← orError .amountOverflow (checked 127 (value * multiplier))
  roundNonnegativeRatio numerator denominator

def convertMinorRational (amount : Int) (source target : Currency) (rate : ExchangeRateRational) :
    Except MoneyError Int := do
  requireNonnegative amount
  match source, target with
  | .usd, .cny => checkedRoundProductRatio amount rate.numerator rate.denominator
  | .cny, .usd => checkedRoundProductRatio amount rate.denominator rate.numerator
  | _, _ => pure amount

def nanoUsdPerCent : Int := 10000000

def cnyFenToNanoUsd (amountFen : Int) (rate : ExchangeRateRational) : Except MoneyError Int := do
  requireNonnegative amountFen
  let scaledDenominator ← orError .amountOverflow (checked 127 (rate.denominator * nanoUsdPerCent))
  checkedRoundProductRatio amountFen scaledDenominator rate.numerator

def quotedReceivedToNanoUsd (amountMinor : Int) (currency : Currency) (cnyPerUsd : String) :
    Except MoneyError Int := do
  let rate ← ExchangeRateRational.parse cnyPerUsd
  match currency with
  | .usd => orError .amountOverflow (checked 127 (amountMinor * nanoUsdPerCent))
  | .cny => cnyFenToNanoUsd amountMinor rate

theorem parseMinor_eq_ok (h : parseMinor value = .ok v) : 0 ≤ v ∧ v < 2 ^ 127 := by
  simp only [parseMinor, ok_iff] at h
  obtain ⟨n, -, hn⟩ := h
  obtain ⟨rfl, -, hhi⟩ := checked_eq_some.1 hn
  exact ⟨Int.natCast_nonneg n, hhi⟩

theorem parseMinor_toString {w : Int} : parseMinor (toString v) = .ok w ↔ v = w ∧ 0 ≤ v ∧ v < 2 ^ 127 := by
  simp only [parseMinor, ok_iff, canonical?_checked_toString]

theorem signedCanonical?_of_canonical? {cs : List Char} {n : Nat} (h : canonical? cs = some n) :
    signedCanonical? cs = some (n : Int) := by
  unfold signedCanonical?
  split
  · rw [canonical?_neg] at h
    cases h
  · rw [h]
    rfl

theorem signedCanonical?_toString (v : Int) : signedCanonical? (toString v).toList = some v := by
  by_cases hv : v < 0
  · have hlist : (toString v).toList = '-' :: Nat.toDigits 10 v.natAbs := by
      rw [toList_toString, if_pos hv]
    have hzero : Nat.toDigits 10 v.natAbs ≠ ['0'] := by
      intro h
      apply head?_toDigits_ne_zero v.natAbs (by omega)
      rw [h]
      rfl
    have hsigned : signedCanonical? ('-' :: Nat.toDigits 10 v.natAbs) = some (-(v.natAbs : Int)) := by
      rw [signedCanonical?, if_neg hzero, canonical?_toDigits]
      rfl
    rw [hlist, hsigned, Option.some.injEq]
    omega
  · have hcanonical : canonical? (toString v).toList = some v.natAbs := by
      rw [canonical?_toString, if_neg hv]
    rw [signedCanonical?_of_canonical? hcanonical, Option.some.injEq]
    omega

theorem signedCanonical?_of_parseMinor (h : parseMinor value = .ok v) : signedCanonical? value.toList = some v := by
  simp only [parseMinor, ok_iff, checked_eq_some] at h
  obtain ⟨n, hn, rfl, -⟩ := h
  exact signedCanonical?_of_canonical? hn

theorem roundNonnegativeRatio_range {n d : Int} (h : roundNonnegativeRatio n d = .ok v) (hn : n < 2 ^ 127) :
    0 ≤ v ∧ v < 2 ^ 127 := by
  simp only [roundNonnegativeRatio, ok_iff] at h
  obtain ⟨-, ⟨hn0, hd⟩, h⟩ := h
  have hq : 0 ≤ n / d := Int.ediv_nonneg hn0 hd.le
  split at h
  · obtain ⟨rfl, -, hlt⟩ := checked_eq_some.1 (orError_eq_ok.1 h)
    exact ⟨by omega, hlt⟩
  · rw [← pure_eq_ok.1 h]
    exact ⟨hq, lt_of_le_of_lt (Int.ediv_le_self d hn0) hn⟩

theorem checkedRoundProductRatio_range {m d : Int} (h : checkedRoundProductRatio v m d = .ok r) :
    0 ≤ r ∧ r < 2 ^ 127 := by
  simp only [checkedRoundProductRatio, ok_iff, checked_eq_some] at h
  obtain ⟨_, ⟨rfl, -, hlt⟩, h⟩ := h
  exact roundNonnegativeRatio_range h hlt

theorem cnyFenToNanoUsd_range (h : cnyFenToNanoUsd v rate = .ok r) : 0 ≤ r ∧ r < 2 ^ 127 := by
  simp only [cnyFenToNanoUsd, ok_iff] at h
  obtain ⟨_, -, _, -, h⟩ := h
  exact checkedRoundProductRatio_range h

theorem quotedReceivedToNanoUsd_range {c : Currency} {rate : String} (hv : 0 ≤ v)
    (h : quotedReceivedToNanoUsd v c rate = .ok r) : 0 ≤ r ∧ r < 2 ^ 127 := by
  simp only [quotedReceivedToNanoUsd, ok_iff] at h
  obtain ⟨_, -, h⟩ := h
  cases c with
  | usd =>
    obtain ⟨rfl, -, hlt⟩ := checked_eq_some.1 (orError_eq_ok.1 h)
    exact ⟨Int.mul_nonneg hv (by decide), hlt⟩
  | cny => exact cnyFenToNanoUsd_range h

theorem eq_toString_of_parseMinor (h : parseMinor value = .ok v) : value = toString v := by
  simp only [parseMinor, ok_iff, checked_eq_some] at h
  obtain ⟨n, hn, rfl, -⟩ := h
  apply String.toList_injective
  rw [toList_toString, if_neg (by omega), Int.natAbs_natCast, toDigits_of_canonical? hn]

theorem canonical?_of_signedCanonical? {cs : List Char} (h : signedCanonical? cs = some v) (hv : 0 ≤ v) :
    canonical? cs = some v.toNat := by
  unfold signedCanonical? at h
  split at h
  · rename_i digits
    split at h
    · cases h
    rename_i hzero
    obtain ⟨n, hn, rfl⟩ := Option.map_eq_some_iff.1 h
    have hn0 : n = 0 := by omega
    rw [hn0] at hn
    exact absurd (toDigits_of_canonical? hn).symm hzero
  · obtain ⟨n, hn, rfl⟩ := Option.map_eq_some_iff.1 h
    exact hn

theorem parseMinor_of_signedCanonical? (h : signedCanonical? value.toList = some v) (hlt : v < 2 ^ 127) :
    (∃ w, parseMinor value = .ok w) ↔ 0 ≤ v := by
  constructor
  · rintro ⟨w, hw⟩
    rw [signedCanonical?_of_parseMinor hw] at h
    rw [← Option.some.inj h]
    exact (parseMinor_eq_ok hw).1
  · intro hv
    refine ⟨v, ?_⟩
    simp only [parseMinor, ok_iff, checked_eq_some]
    exact ⟨v.toNat, canonical?_of_signedCanonical? h hv, by omega⟩

theorem ExchangeRateRational.parse_decimal (h : ExchangeRateRational.parse value = .ok rate) : rate.decimal = value := by
  simp only [ExchangeRateRational.parse, ok_iff] at h
  obtain ⟨_, -, _, -, _, -, _, -, _, -, h⟩ := h
  split at h
  · rw [← pure_eq_ok.1 h]
    rfl
  · cases h

theorem convertMinorRational_range {amount : Int} {source target : Currency}
    (h : convertMinorRational amount source target rate = .ok v) (hlt : amount < 2 ^ 127) : 0 ≤ v ∧ v < 2 ^ 127 := by
  simp only [convertMinorRational, requireNonnegative, ok_iff] at h
  obtain ⟨_, hnonneg, h⟩ := h
  split at h
  · exact checkedRoundProductRatio_range h
  · exact checkedRoundProductRatio_range h
  · rw [← pure_eq_ok.1 h]
    exact ⟨hnonneg, hlt⟩

end Monoize
