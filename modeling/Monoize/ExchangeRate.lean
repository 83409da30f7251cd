import Monoize.Money

/-! Exchange rates are read exactly, and conversions round the exact product to the nearest integer. -/

namespace Monoize

open Fallible MachineInt TextFields ExchangeRateRational Int

variable {value : String} {integer fraction : List Char} {rate : ExchangeRateRational}

def nanoUsdToCnyFen (amountNanoUsd : Int) (rate : ExchangeRateRational) : Except MoneyError Int := do
  requireNonnegative amountNanoUsd
  let denominator ← orError .amountOverflow (checked 127 (rate.denominator * nanoUsdPerCent))
  checkedRoundProductRatio amountNanoUsd rate.numerator denominator

/-- The text is `(0|[1-9][0-9]*)(\.[0-9]{1,18})?`, with no `fraction` where the group is absent. -/
structure RateText (value : String) (integer fraction : List Char) : Prop where
  text : value.toList = integer ++ if fraction = [] then [] else '.' :: fraction
  integer_digits : integer ≠ [] ∧ integer.all Char.isDigit = true
  no_leading_zero : integer.head? = some '0' → integer.length = 1
  fraction_digits : fraction.length ≤ 18 ∧ fraction.all Char.isDigit = true

/-- The numerator at the written scale: all digits read as one number. -/
def writtenNumerator (integer fraction : List Char) : Nat := Nat.ofDigitChars 10 (integer ++ fraction) 0

theorem writtenNumerator_eq (integer fraction : List Char) : writtenNumerator integer fraction =
    Nat.ofDigitChars 10 integer 0 * 10 ^ fraction.length + Nat.ofDigitChars 10 fraction 0 := by
  rw [writtenNumerator, Nat.ofDigitChars_append, Nat.ofDigitChars_eq_ofDigitChars_zero, Nat.mul_comm]

theorem splitOnce_spec (cs : List Char) : cs = (splitOnce cs).1 ++ ((splitOnce cs).2.map ('.' :: ·)).getD [] := by
  unfold splitOnce
  split
  · rw [Option.map_none, Option.getD_none, List.append_nil]
  · rename_i hsplit
    exact (splitAt?_eq_some.1 hsplit).1

variable (h : RateText value integer fraction)

include h

theorem RateText.splitOnce : splitOnce value.toList = (integer, if fraction = [] then none else some fraction) := by
  have hdigits : ∀ c ∈ integer, decide (c ≠ '.') = true := by
    intro c hc
    apply decide_eq_true
    rintro rfl
    exact absurd (List.all_eq_true.1 h.integer_digits.2 _ hc) (by decide)
  rw [h.text, Monoize.splitOnce, splitAt?, List.dropWhile_append_of_pos hdigits, List.takeWhile_append_of_pos hdigits]
  split_ifs <;> simp

theorem RateText.canonical : canonical? integer = some (Nat.ofDigitChars 10 integer 0) := by
  rw [canonical?, if_neg (fun hzero => absurd (h.no_leading_zero hzero.2) hzero.1.ne'), digits?, if_pos h.integer_digits]

theorem RateText.fractionDigits :
    fractionDigits (if fraction = [] then none else some fraction) =
      .ok (fraction.length, Nat.ofDigitChars 10 fraction 0) := by
  split_ifs with hnil
  · rw [hnil]
    rfl
  · rw [Monoize.fractionDigits, digits?, if_pos ⟨hnil, h.fraction_digits.2⟩, orError_some, ok_bind,
      require_of h.fraction_digits.1, ok_bind]
    rfl

theorem RateText.parse_eq_ok : parse value = .ok rate ↔
    (writtenNumerator integer fraction : Int) < 2 ^ 127 ∧ ∃ hn : 0 < (writtenNumerator integer fraction : Int),
      rate = reducedRate value (writtenNumerator integer fraction) (10 ^ fraction.length) hn (Int.pow_pos (by decide)) := by
  have hpow : 1 ≤ 10 ^ fraction.length := Nat.one_le_pow _ _ (by decide)
  have hle := Nat.le_mul_of_pos_right (Nat.ofDigitChars 10 integer 0) hpow
  have hsum : ((Nat.ofDigitChars 10 integer 0 : Int) * 10 ^ fraction.length + Nat.ofDigitChars 10 fraction 0) =
      writtenNumerator integer fraction := by
    rw [writtenNumerator_eq]
    push_cast
    rfl
  have hscaled : (Nat.ofDigitChars 10 integer 0 : Int) ≤ Nat.ofDigitChars 10 integer 0 * 10 ^ fraction.length := by
    exact_mod_cast hle
  rw [parse, h.splitOnce]
  dsimp only
  rw [h.canonical, orError_some, ok_bind, h.fractionDigits, ok_bind]
  simp only [ok_iff, checked_eq_some]
  constructor
  · rintro ⟨_, ⟨rfl, -⟩, _, ⟨rfl, -⟩, _, ⟨rfl, -, hlt⟩, hrate⟩
    rw [hsum] at hlt
    simp only [hsum] at hrate
    split at hrate
    · rename_i hn
      exact ⟨hlt, hn, (pure_eq_ok.1 hrate).symm⟩
    · cases hrate
  · rintro ⟨hlt, hn, rfl⟩
    refine ⟨_, ⟨rfl, by omega⟩, _, ⟨rfl, by omega⟩, _, ⟨rfl, by omega⟩, ?_⟩
    simp only [hsum]
    exact (dif_pos hn).trans (pure_eq_ok.2 rfl)

omit h

theorem rateText_of_parse (h : parse value = .ok rate) : ∃ integer fraction, RateText value integer fraction := by
  simp only [parse, ok_iff] at h
  obtain ⟨whole, hwhole, ⟨scale, fractional⟩, hfraction, -⟩ := h
  have htext := splitOnce_spec value.toList
  rw [canonical?, digits?] at hwhole
  split_ifs at hwhole with hzero hdigits
  refine ⟨(splitOnce value.toList).1, (splitOnce value.toList).2.getD [], ?_, hdigits, ?_, ?_⟩
  · cases hsplit : (splitOnce value.toList).2 with
    | none => simpa [hsplit] using htext
    | some f =>
      have hne : f ≠ [] := by
        rintro rfl
        rw [hsplit] at hfraction
        simp [Monoize.fractionDigits, digits?, orError] at hfraction
      simpa [hsplit, hne] using htext
  · intro hhead
    have hlen := List.length_pos_iff.2 hdigits.1
    by_contra hne
    exact hzero ⟨by omega, hhead⟩
  · cases hsplit : (splitOnce value.toList).2 with
    | none => exact ⟨by decide, rfl⟩
    | some f =>
      rw [hsplit] at hfraction
      simp only [Monoize.fractionDigits, digits?, ok_iff] at hfraction
      obtain ⟨n, hn, _, hlen, -⟩ := hfraction
      split_ifs at hn with hall
      exact ⟨hlen, hall.2⟩

/-- The result is the integer nearest to the ratio, ties upward, unless the computation overflows. -/
def RoundsRatio (result : Except MoneyError Int) (numerator denominator : Int) : Prop :=
  result = .error .amountOverflow ∨
    ∃ r, result = .ok r ∧ 2 * denominator * r - denominator ≤ 2 * numerator ∧ 2 * numerator < 2 * denominator * r + denominator

theorem roundNonnegativeRatio_rounds {n d : Int} (hn : 0 ≤ n) (hd : 0 < d) : RoundsRatio (roundNonnegativeRatio n d) n d := by
  have hdiv := mul_ediv_add_emod n d
  have hlo := emod_nonneg n hd.ne'
  have hhi := emod_lt_of_pos n hd
  rw [roundNonnegativeRatio, require_of ⟨hn, hd⟩, ok_bind]
  dsimp only
  split
  · cases hchecked : checked 127 (n / d + 1) with
    | none => exact .inl rfl
    | some r =>
      refine .inr ⟨r, rfl, ?_⟩
      rw [← (checked_eq_some.1 hchecked).1, mul_assoc, mul_add]
      omega
  · refine .inr ⟨n / d, rfl, ?_⟩
    rw [mul_assoc]
    omega

theorem RoundsRatio.checked {x n d : Int} {f : Int → Except MoneyError Int} (h : RoundsRatio (f x) n d) :
    RoundsRatio (orError .amountOverflow (checked 127 x) >>= f) n d := by
  unfold MachineInt.checked
  split
  · exact h
  · exact .inl rfl

theorem checkedRoundProductRatio_rounds {v m d : Int} (hv : 0 ≤ v) (hm : 0 < m) (hd : 0 < d) :
    RoundsRatio (checkedRoundProductRatio v m d) (v * m) d :=
  .checked (roundNonnegativeRatio_rounds (mul_nonneg hv hm.le) hd)

/-- The exact factor of a conversion, as a numerator and a denominator. -/
def conversionRatio (source target : Currency) (rate : ExchangeRateRational) : Int × Int :=
  match source, target with
  | .usd, .cny => (rate.numerator, rate.denominator)
  | .cny, .usd => (rate.denominator, rate.numerator)
  | _, _ => (1, 1)

theorem exchangeRate_exact (value : String) (amount : Int) (hamount : 0 ≤ amount) :
    ((∃ rate, ExchangeRateRational.parse value = .ok rate) ↔ ∃ integer fraction, RateText value integer fraction ∧
      0 < writtenNumerator integer fraction ∧ (writtenNumerator integer fraction : Int) < 2 ^ 127) ∧
    (∀ rate integer fraction, ExchangeRateRational.parse value = .ok rate → RateText value integer fraction →
      rate.numerator * 10 ^ fraction.length = writtenNumerator integer fraction * rate.denominator ∧
      Int.gcd rate.numerator rate.denominator = 1 ∧ rate.denominator ∣ 10 ^ 18) ∧
    ∀ rate, (∀ source target, RoundsRatio (convertMinorRational amount source target rate)
        (amount * (conversionRatio source target rate).1) (conversionRatio source target rate).2) ∧
      RoundsRatio (cnyFenToNanoUsd amount rate) (amount * (rate.denominator * 10 ^ 7)) rate.numerator ∧
      RoundsRatio (nanoUsdToCnyFen amount rate) (amount * rate.numerator) (rate.denominator * 10 ^ 7) := by
  have hscaled (rate : ExchangeRateRational) : 0 < rate.denominator * nanoUsdPerCent :=
    mul_pos rate.denominator_pos (by decide)
  refine ⟨⟨?_, ?_⟩, ?_, fun rate => ⟨?_, ?_, ?_⟩⟩
  · rintro ⟨rate, hrate⟩
    obtain ⟨integer, fraction, htext⟩ := rateText_of_parse hrate
    obtain ⟨hlt, hn, -⟩ := htext.parse_eq_ok.1 hrate
    exact ⟨integer, fraction, htext, by omega, hlt⟩
  · rintro ⟨integer, fraction, htext, hn, hlt⟩
    exact ⟨_, htext.parse_eq_ok.2 ⟨hlt, by omega, rfl⟩⟩
  · intro rate integer fraction hrate htext
    obtain ⟨-, hn, rfl⟩ := htext.parse_eq_ok.1 hrate
    have hgcd : 0 < Int.gcd (writtenNumerator integer fraction) (10 ^ fraction.length) := gcd_pos_of_ne_zero_left _ hn.ne'
    refine ⟨?_, gcd_ediv_gcd_ediv_gcd hgcd, ?_⟩
    · show _ / _ * 10 ^ fraction.length = _ * (_ / _)
      rw [Int.mul_comm (_ / _), ← Int.mul_ediv_assoc _ (Int.gcd_dvd_left ..), ← Int.mul_ediv_assoc _ (Int.gcd_dvd_right ..),
        mul_comm]
    · apply (ediv_dvd_of_dvd (Int.gcd_dvd_right ..)).trans
      exact pow_dvd_pow 10 htext.fraction_digits.1
  · intro source target
    unfold convertMinorRational
    rw [requireNonnegative, require_of hamount, ok_bind]
    cases source <;> cases target
    · exact .inr ⟨amount, rfl, by dsimp only [conversionRatio]; omega⟩
    · exact checkedRoundProductRatio_rounds hamount rate.denominator_pos rate.numerator_pos
    · exact checkedRoundProductRatio_rounds hamount rate.numerator_pos rate.denominator_pos
    · exact .inr ⟨amount, rfl, by dsimp only [conversionRatio]; omega⟩
  · rw [cnyFenToNanoUsd, requireNonnegative, require_of hamount, ok_bind]
    exact .checked (checkedRoundProductRatio_rounds hamount (hscaled rate) rate.numerator_pos)
  · rw [nanoUsdToCnyFen, requireNonnegative, require_of hamount, ok_bind]
    exact .checked (checkedRoundProductRatio_rounds hamount rate.numerator_pos (hscaled rate))

theorem exchangeRate_exact_sample : ∃ rate, ExchangeRateRational.parse "7.2" = .ok rate ∧ rate.numerator = 36 ∧
    rate.denominator = 5 ∧ cnyFenToNanoUsd 3 rate = .ok 4166667 ∧
    RoundsRatio (cnyFenToNanoUsd 3 rate) (3 * (rate.denominator * 10 ^ 7)) rate.numerator := by
  have hexact := exchangeRate_exact "7.2" 3 (by decide)
  obtain ⟨rate, hrate⟩ := hexact.1.2 ⟨['7'], ['2'], ⟨by decide, by decide, by decide, by decide⟩, by decide, by decide⟩
  have hreduced : (ExchangeRateRational.parse "7.2").toOption.map (fun r => (r.numerator, r.denominator)) = some (36, 5) := by
    decide +kernel
  rw [hrate] at hreduced
  obtain ⟨hn, hd⟩ : rate.numerator = 36 ∧ rate.denominator = 5 := by simpa [Except.toOption] using hreduced
  refine ⟨rate, hrate, hn, hd, ?_, (hexact.2.2 rate).2.1⟩
  unfold cnyFenToNanoUsd
  rw [hn, hd]
  rfl

end Monoize
