import Monoize.OrderSteps

/-! What the Store has checked of a balance order when it accepts it, and what fulfilment can therefore rely on. -/

namespace Monoize

open Fallible MachineInt Relational ExchangeRateRational

variable {v base : Int} {rate : ExchangeRateRational}

variable {discount payable : Int} {product : StoreProduct} {settings : StoreSettings} {userId decimal : String}
  {e : MoneyError}

theorem salesParseMinor_toString (h0 : 0 ≤ v) (hlt : v < 2 ^ 127) : salesParseMinor (toString v) = .ok v := by
  simp only [salesParseMinor, salesParseSignedMinor, ok_iff, signed?_toString, Option.bind_some, checked_eq_some]
  exact ⟨v, ⟨v, ⟨rfl, by omega, hlt⟩, (), rfl, rfl⟩, (), h0, rfl⟩

theorem computeAmounts_ok_iff {rate : Int} (hrate : 0 ≤ rate ∧ rate ≤ maxCommissionRateBp)
    (hbase : minCodedOrderMinor ≤ base) (hlt : base < 2 ^ 127) (hdiscount : 0 ≤ discount)
    (hdiscounted : base * discount < 2 ^ 127) (hearned : base * (rate - discount) < 2 ^ 127) :
    (∃ amounts, computeAmounts base rate discount = .ok amounts) ↔ discount ≤ rate := by
  simp only [computeAmounts, ok_iff, checked_eq_some]
  simp only [minCodedOrderMinor, maxCommissionRateBp] at hbase hrate ⊢
  constructor
  · rintro ⟨amounts, _, -, _, ⟨-, hle⟩, -⟩
    exact hle
  · intro hle
    have hpos : 0 ≤ base * discount := Int.mul_nonneg (by omega) hdiscount
    have hearned0 : 0 ≤ base * (rate - discount) := Int.mul_nonneg (by omega) (by omega)
    have hbound : base * discount ≤ base * 2000 := Int.mul_le_mul_of_nonneg_left (by omega) (by omega)
    have hpart : base * discount / bpDenominator < base := by
      simp only [bpDenominator]
      omega
    have hpart0 : 0 ≤ base * discount / bpDenominator := Int.ediv_nonneg hpos (by decide)
    exact ⟨_, (), hrate, (), ⟨hdiscount, hle⟩, (), by omega, (), hbase, base * discount, ⟨rfl, by omega, hdiscounted⟩,
      base - base * discount / bpDenominator, ⟨rfl, by omega, by omega⟩, base * (rate - discount),
      ⟨rfl, by omega, hearned⟩, (), by omega, rfl⟩

theorem computeAmounts_inv {rate : Int} {amounts : SalesAmounts} (h : computeAmounts base rate discount = .ok amounts) :
    minCodedOrderMinor ≤ base ∧ 0 ≤ discount ∧ base * discount < 2 ^ 127 := by
  simp only [computeAmounts, ok_iff, checked_eq_some] at h
  obtain ⟨_, -, _, ⟨hdiscount, -⟩, _, -, _, hbase, _, ⟨rfl, -, hlt⟩, -⟩ := h
  exact ⟨hbase, hdiscount, hlt⟩

theorem applySalesDiscount_inv {sales : AppliedSalesCode} (h : applySalesDiscount base (some sales) = .ok payable) :
    minCodedOrderMinor ≤ base ∧ 0 ≤ sales.discountBp ∧ base * sales.discountBp < 2 ^ 127 := by
  unfold applySalesDiscount at h
  split at h
  · rename_i hnone
    cases hnone
  rename_i hsome
  cases hsome
  split at h
  · rename_i hamounts
    exact computeAmounts_inv hamounts
  all_goals cases h

variable {input : CreatePaymentOrderInput}

theorem quoteBalance_inv {price : Int} {quote : BalanceQuote}
    (h : quoteBalance product input settings price rate = .ok (payable, quote)) :
    ∃ base received : Int, applySalesDiscount base input.sales = .ok payable ∧ quote.rechargeMinor = toString base ∧
      quote.actualReceivedMinor = toString received ∧ (0 ≤ base ∧ base < 2 ^ 127) ∧ 0 ≤ received ∧
      received < 2 ^ 127 := by
  unfold quoteBalance at h
  split at h
  · rename_i custom hcustom
    simp only [quoteCustom, ok_iff, mapMoneyError_eq_ok] at h
    obtain ⟨amount, hamount, _, -, _, -, _, -, paid, hpaid, rfl, rfl⟩ := h
    have htext := eq_toString_of_parseMinor hamount
    have hrange := parseMinor_eq_ok hamount
    exact ⟨amount, amount, hpaid, htext, htext, hrange, hrange⟩
  · simp only [quoteListed, ok_iff, mapMoneyError_eq_ok, checked_eq_some] at h
    obtain ⟨_, -, _, -, rechargeAmount, hrechargeAmount, recharge, hrecharge, _, -, _, -, bonusAmount, hbonusAmount, bonus,
      hbonus, _, ⟨rfl, -, hactual⟩, paid, hpaid, rfl, rfl⟩ := h
    have hrange := convertMinorRational_range hrecharge (parseMinor_eq_ok hrechargeAmount).2
    have hbonus0 := (convertMinorRational_range hbonus (parseMinor_eq_ok hbonusAmount).2).1
    exact ⟨recharge, recharge + bonus, hpaid, rfl, rfl, hrange, by omega, hactual⟩

structure Accepted (c : OrderContract) : Prop where
  quoted : ∃ quote balance received rate, c.quote = some quote ∧ quote.product.balance = some balance ∧
    parseMinor balance.actualReceivedMinor = .ok received ∧ ExchangeRateRational.parse c.cnyPerUsd = .ok rate ∧
    toString rate.numerator = c.rateNumerator ∧ toString rate.denominator = c.rateDenominator
  coded : ∀ code, c.salesCode = some code → ∃ base discount, faceValueMinor c.quote = .ok base ∧
    c.salesDiscountBp = some discount ∧ minCodedOrderMinor ≤ base ∧ base < 2 ^ 127 ∧ 0 ≤ discount ∧
    base * discount < 2 ^ 127

theorem orderContract_accepted [Sha256] {quoted : Int × Option BalanceQuote}
    {now : Instant} {ids : OrderIds} (hrate : parse decimal = .ok rate)
    (hquoted : quotePayment product input settings rate = .ok quoted) (hkind : product.kind = .balance) :
    Accepted (orderContract userId input product rate quoted.1 quoted.2 now ids) := by
  simp only [quotePayment, hkind, ok_iff, mapMoneyError_eq_ok] at hquoted
  obtain ⟨price, hprice, ⟨payable, balance⟩, hbalance, rfl⟩ := hquoted
  obtain ⟨base, received, hpayable, hrecharge, hactual, hbase, hreceived⟩ :=
    quoteBalance_inv hbalance
  constructor
  · have hreceipt : parseMinor balance.actualReceivedMinor = .ok received :=
      hactual ▸ parseMinor_toString.2 ⟨rfl, hreceived⟩
    refine ⟨_, balance, received, rate, rfl, rfl, hreceipt, ?_, rfl, rfl⟩
    show parse rate.decimal = .ok rate
    rw [parse_decimal hrate, hrate]
  · intro code hcode
    obtain ⟨sales, hsales, -⟩ := Option.map_eq_some_iff.1 hcode
    rw [hsales] at hpayable
    obtain ⟨hmin, hdiscount, hlt⟩ := applySalesDiscount_inv hpayable
    have hface : faceValueMinor
        (orderContract userId input product rate payable (some balance) now ids).quote = .ok base := by
      have hparse : salesParseMinor balance.rechargeMinor = .ok base :=
        hrecharge ▸ salesParseMinor_toString hbase.1 hbase.2
      simp only [faceValueMinor, ok_iff]
      exact ⟨balance, rfl, hparse⟩
    refine ⟨base, sales.discountBp, hface, ?_, hmin, hbase.2, hdiscount, hlt⟩
    simp only [orderContract, hsales, Option.map_some]

theorem OrderCreated.accepted [Sha256] {db next : Database}
    {request : CreatePaymentOrderRequest} {o : StoreOrder} (h : OrderCreated db next userId request o)
    (hkind : o.contract.productKind = .balance) : Accepted o.contract := by
  obtain ⟨sales, settings, rate, product, quoted, decimal, now, ids, -, hrate, hquoted, hcontract⟩ := h.quoted
  rw [hcontract] at hkind ⊢
  exact orderContract_accepted hrate hquoted hkind

theorem liftFulfillment_eq_error {α : Type} {x : Except MoneyError α} {e : CallbackStoreError}
    (h : liftFulfillment x = .error e) : ∃ m, x = .error m ∧ e = .fulfillment m.message := by
  cases x with
  | ok a => cases h
  | error m =>
    cases h
    exact ⟨m, rfl, rfl⟩

theorem cnyFenToNanoUsd_error (hv : 0 ≤ v) (h : cnyFenToNanoUsd v rate = .error e) : e = .amountOverflow := by
  simp only [cnyFenToNanoUsd, requireNonnegative, checkedRoundProductRatio, roundNonnegativeRatio, bind_eq_error,
    require_eq_error, orError_eq_error, ok_iff, checked_eq_some] at h
  rcases h with ⟨hneg, -⟩ | ⟨_, -, ⟨-, rfl⟩ | ⟨_, ⟨rfl, -⟩, ⟨-, rfl⟩ | ⟨_, ⟨rfl, -⟩, ⟨hneg, -⟩ | ⟨_, -, h⟩⟩⟩⟩
  · exact absurd hv hneg
  · rfl
  · rfl
  · have hscaled : 0 ≤ rate.denominator * nanoUsdPerCent := Int.mul_nonneg rate.denominator_pos.le (by decide)
    exact absurd ⟨Int.mul_nonneg hv hscaled, rate.numerator_pos⟩ hneg
  · split at h
    · exact (orError_eq_error.1 h).2.symm
    · cases h

theorem quotedReceivedToNanoUsd_error
    (hrate : parse decimal = .ok rate) (h : quotedReceivedToNanoUsd v .usd decimal = .error e) : e = .amountOverflow := by
  simp only [quotedReceivedToNanoUsd, hrate, bind_eq_error, orError_eq_error] at h
  rcases h with h | ⟨_, -, -, rfl⟩
  · cases h
  · rfl

theorem Accepted.converted {c : OrderContract} (h : Accepted c)
    (hfits : convertedAmount c ≠ .error (.fulfillment MoneyError.amountOverflow.message)) :
    ∃ amount, convertedAmount c = .ok amount := by
  obtain ⟨quote, balance, received, rate, hquote, hbalance, hreceived, hrate, hratio⟩ := h.quoted
  cases hconverted : convertedAmount c with
  | ok amount => exact ⟨amount, rfl⟩
  | error e =>
    have hnonneg := (parseMinor_eq_ok hreceived).1
    have hoverflow : e = .fulfillment MoneyError.amountOverflow.message := by
      simp only [convertedAmount, hquote, bind_eq_error, orError_eq_error, ok_iff, require_eq_error,
        liftFulfillment_eq_ok, reduceCtorEq, false_and, false_or, Option.some.injEq] at hconverted
      obtain ⟨_, rfl, hconverted⟩ := hconverted
      simp only [hbalance, reduceCtorEq, false_and, false_or, Option.some.injEq] at hconverted
      obtain ⟨_, rfl, hparse | ⟨_, hparse, hparse' | ⟨_, hparse', ⟨hne, -⟩ | ⟨_, -, hconvert⟩⟩⟩⟩ := hconverted
      · obtain ⟨m, hm, -⟩ := liftFulfillment_eq_error hparse
        cases hreceived.symm.trans hm
      · obtain ⟨m, hm, -⟩ := liftFulfillment_eq_error hparse'
        cases hrate.symm.trans hm
      · cases hrate.symm.trans hparse'
        exact absurd hratio hne
      cases hreceived.symm.trans hparse
      cases hrate.symm.trans hparse'
      split at hconvert
      · obtain ⟨m, hm, rfl⟩ := liftFulfillment_eq_error hconvert
        rw [cnyFenToNanoUsd_error hnonneg hm]
      · obtain ⟨m, hm, rfl⟩ := liftFulfillment_eq_error hconvert
        rw [parse_decimal hrate] at hm
        rw [quotedReceivedToNanoUsd_error hrate hm]
    exact absurd (hoverflow ▸ hconverted) hfits

end Monoize
