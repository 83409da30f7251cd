import Monoize.Recovery

/-! Order creation: a sales code is resolved, the product is quoted in the payment currency and the quote is
frozen in the order's row. -/

namespace Monoize

open Fallible MachineInt Relational

def orderLifetimeMinutes : Int := 30

def orderCreationLimitPerMinute : Nat := 5

def openOrderLimit : Nat := 10

inductive PaymentOrderError
  | invalidInput | salesCodeInvalid | salesCodeAmountTooSmall | invalidAmount | invalidExchangeRate
  | productUnavailable | channelUnavailable | orderNotFound | idempotencyConflict | creationRateLimited
  | openOrderLimit | paymentHold | retentionPaused | orderNotPayable | amountOverflow
  | storage (message : String)
  deriving DecidableEq

def mapMoneyError {α : Type} : Except MoneyError α → Except PaymentOrderError α
  | .ok value => .ok value
  | .error .invalidAmount => .error .invalidAmount
  | .error .invalidExchangeRate => .error .invalidExchangeRate
  | .error .amountOverflow => .error .amountOverflow

structure AppliedSalesCode where
  code : String
  (discountBp commissionRateBp : Int)

structure CreatePaymentOrderInput where
  (idempotencyKey productId paymentChannelId : String)
  paymentCurrency : Currency
  customRechargeMinor : Option String
  sales : Option AppliedSalesCode

structure ExchangeRateSnapshot where
  (base quote cnyPerUsd : String)

structure StoreProduct where
  id : String
  kind : ProductKind
  name : String
  priceCurrency : Currency
  priceMinor : String
  durationSeconds : Option Int
  groupIds : List String
  quotas : PlanQuotas
  (rechargeMinor bonusMinor : Option String)
  enabled : Bool

structure StoreSettings where
  (customRechargeCnyMinMinor customRechargeCnyMaxMinor customRechargeUsdMinMinor : String)
  customRechargeUsdMaxMinor : String

variable [Sha256] (db : Database)

def settingOr (key default : String) : String :=
  ((db.systemSettings.find? (·.key = key)).map (·.value)).getD default

def storedSettings : StoreSettings where
  customRechargeCnyMinMinor := settingOr db "store.custom_recharge_cny_min_minor" "100"
  customRechargeCnyMaxMinor := settingOr db "store.custom_recharge_cny_max_minor" "100000000"
  customRechargeUsdMinMinor := settingOr db "store.custom_recharge_usd_min_minor" "100"
  customRechargeUsdMaxMinor := settingOr db "store.custom_recharge_usd_max_minor" "100000000"

def validateRange (minimum maximum : String) : Except MoneyError Unit := do
  let low ← parseMinor minimum
  let high ← parseMinor maximum
  require (low ≠ 0 ∧ high ≠ 0 ∧ low ≤ high) .invalidAmount

def validateSettings (settings : StoreSettings) : Except MoneyError Unit := do
  validateRange settings.customRechargeCnyMinMinor settings.customRechargeCnyMaxMinor
  validateRange settings.customRechargeUsdMinMinor settings.customRechargeUsdMaxMinor

def settingsErrorText : MoneyError → String
  | .invalidAmount => "invalid monetary amount"
  | .amountOverflow => "monetary amount overflow"
  | .invalidExchangeRate => "invalid exchange rate"

def getSettings : Except PaymentOrderError StoreSettings :=
  match validateSettings (storedSettings db) with
  | .ok () => .ok (storedSettings db)
  | .error error => .error (.storage (settingsErrorText error))

structure Checkout where
  products : List StoreProduct
  enabledChannels : List String
  retentionPaused : Bool
  channelLocked : String → Bool
  channelAvailable : String → Currency → String → Bool

def validateIdempotencyKey (value : String) : Except PaymentOrderError Unit := require (validKey value) .invalidInput

def orderRequestDigest (input : CreatePaymentOrderInput) : String :=
  sha256 ("v2\x00" ++ input.productId ++ "\x00" ++ input.paymentChannelId ++ "\x00" ++
    currencyString input.paymentCurrency ++ "\x00" ++ input.customRechargeMinor.getD "" ++ "\x00" ++
    (input.sales.map (·.code)).getD "")

def orderByCreationKey (userId key : String) : Option StoreOrder :=
  db.storeOrders.find? fun o => o.contract.userId = userId ∧ o.contract.creationIdempotencyKey = some key

def replayOrder (userId : String) (input : CreatePaymentOrderInput) : Except PaymentOrderError (Option StoreOrder) := do
  validateIdempotencyKey input.idempotencyKey
  match orderByCreationKey db userId input.idempotencyKey with
  | none => pure none
  | some existing =>
    require (existing.contract.creationRequestDigest = some (orderRequestDigest input)) .idempotencyConflict
    pure (some existing)

def applySalesDiscount (baseMinor : Int) : Option AppliedSalesCode → Except PaymentOrderError Int
  | none => .ok baseMinor
  | some sales =>
    match computeAmounts baseMinor sales.commissionRateBp sales.discountBp with
    | .ok amounts => .ok amounts.paymentMinor
    | .error .amountTooSmall => .error .salesCodeAmountTooSmall
    | .error .discountAboveRate => .error .salesCodeInvalid
    | .error .rateOutOfRange => .error .salesCodeInvalid
    | .error .invalidAmount => .error .invalidAmount

def customBounds (settings : StoreSettings) : Currency → String × String
  | .cny => (settings.customRechargeCnyMinMinor, settings.customRechargeCnyMaxMinor)
  | .usd => (settings.customRechargeUsdMinMinor, settings.customRechargeUsdMaxMinor)

def quoteCustom (custom : String) (input : CreatePaymentOrderInput) (settings : StoreSettings) :
    Except PaymentOrderError (Int × BalanceQuote) := do
  let amount ← mapMoneyError (parseMinor custom)
  let minimum ← mapMoneyError (parseMinor (customBounds settings input.paymentCurrency).1)
  let maximum ← mapMoneyError (parseMinor (customBounds settings input.paymentCurrency).2)
  require (minimum ≤ amount ∧ amount ≤ maximum) .invalidAmount
  let payable ← applySalesDiscount amount input.sales
  pure (payable, ⟨custom, "0", custom⟩)

def quoteListed (product : StoreProduct) (input : CreatePaymentOrderInput) (price : Int)
    (rate : ExchangeRateRational) : Except PaymentOrderError (Int × BalanceQuote) := do
  let rechargeSource ← orError (.storage "balance details are missing") product.rechargeMinor
  let bonusSource ← orError (.storage "balance details are missing") product.bonusMinor
  let rechargeAmount ← mapMoneyError (parseMinor rechargeSource)
  let recharge ← mapMoneyError
    (convertMinorRational rechargeAmount product.priceCurrency input.paymentCurrency rate)
  let expectedPrice ← mapMoneyError (convertMinorRational price product.priceCurrency input.paymentCurrency rate)
  require (recharge = expectedPrice) (.storage "balance recharge and product price differ")
  let bonusAmount ← mapMoneyError (parseMinor bonusSource)
  let bonus ← mapMoneyError (convertMinorRational bonusAmount product.priceCurrency input.paymentCurrency rate)
  let actual ← orError .amountOverflow (checked 127 (recharge + bonus))
  let payable ← applySalesDiscount recharge input.sales
  pure (payable, ⟨toString recharge, toString bonus, toString actual⟩)

def quoteBalance (product : StoreProduct) (input : CreatePaymentOrderInput) (settings : StoreSettings) (price : Int)
    (rate : ExchangeRateRational) : Except PaymentOrderError (Int × BalanceQuote) :=
  match input.customRechargeMinor with
  | some custom => quoteCustom custom input settings
  | none => quoteListed product input price rate

def quotePlan (product : StoreProduct) (input : CreatePaymentOrderInput) (price : Int)
    (rate : ExchangeRateRational) : Except PaymentOrderError Int := do
  require (input.customRechargeMinor = none) .invalidAmount
  mapMoneyError (convertMinorRational price product.priceCurrency input.paymentCurrency rate)

def quotePayment (product : StoreProduct) (input : CreatePaymentOrderInput) (settings : StoreSettings)
    (rate : ExchangeRateRational) : Except PaymentOrderError (Int × Option BalanceQuote) := do
  let price ← mapMoneyError (parseMinor product.priceMinor)
  match product.kind with
  | .balance => do
    let quoted ← quoteBalance product input settings price rate
    pure (quoted.1, some quoted.2)
  | .plan => do
    let payable ← quotePlan product input price rate
    pure (payable, none)

def minutes (n : Int) : Instant := seconds (60 * n)

structure OrderIds where
  (orderId orderNumber : String)

def orderContract (userId : String) (input : CreatePaymentOrderInput)
    (product : StoreProduct) (rate : ExchangeRateRational) (payable : Int) (balance : Option BalanceQuote)
    (now : Instant) (ids : OrderIds) : OrderContract where
  orderNumber := ids.orderNumber
  userId := userId
  productKind := product.kind
  paymentChannelId := input.paymentChannelId
  paymentCurrency := input.paymentCurrency
  paymentMinor := toString payable
  cnyPerUsd := rate.decimal
  rateNumerator := toString rate.numerator
  rateDenominator := toString rate.denominator
  quote := some ⟨product.id, product.name, product.durationSeconds, product.groupIds,
    if product.kind = .plan then product.quotas else ⟨[], List.nodup_nil⟩, balance⟩
  contractVersion := 2
  salesCode := input.sales.map (·.code)
  salesDiscountBp := input.sales.map (·.discountBp)
  creationIdempotencyKey := some input.idempotencyKey
  creationRequestDigest := some (orderRequestDigest input)
  createdAt := timestamp now
  expiresAt := timestamp (now + minutes orderLifetimeMinutes)

def requireMayOrder (userId : String) (now : Instant) : Except PaymentOrderError Unit := do
  require (db.balanceHolds.count (fun h => h.userId = userId ∧ h.active = true) = 0) .paymentHold
  require (db.storeOrders.count (fun o => o.contract.userId = userId ∧
    timestamp (now - minutes 1) ≤ o.contract.createdAt) < orderCreationLimitPerMinute) .creationRateLimited
  require (db.storeOrders.count (fun o => o.contract.userId = userId ∧ o.paymentState = .unpaid ∧
    timestamp now < o.contract.expiresAt) < openOrderLimit) .openOrderLimit

def insertOrder (shop : Checkout) (db : Database) (userId : String)
    (input : CreatePaymentOrderInput) (settings : StoreSettings) (rate : ExchangeRateRational) (now : Instant)
    (ids : OrderIds) : Except PaymentOrderError (StoreOrder × Database) := do
  require (shop.retentionPaused = false) .retentionPaused
  require (shop.channelLocked input.paymentChannelId = true) .channelUnavailable
  requireMayOrder db userId now
  let product ← orError .productUnavailable (shop.products.find? fun p => p.id = input.productId ∧ p.enabled = true)
  require (input.paymentChannelId ∈ shop.enabledChannels) .channelUnavailable
  require (product.kind = .plan → db.planFeaturesEnabled = true) .productUnavailable
  let quoted ← quotePayment product input settings rate
  require (toString quoted.1 ≠ "0") .invalidAmount
  require (shop.channelAvailable input.paymentChannelId input.paymentCurrency (toString quoted.1) = true)
    .channelUnavailable
  let order : StoreOrder := ⟨ids.orderId,
    orderContract userId input product rate quoted.1 quoted.2 now ids, .unpaid, .pending, .none, false, 0⟩
  let orders ← orError (.storage "UNIQUE constraint failed") (db.storeOrders.insert? order)
  pure (order, { db with storeOrders := orders })

def createOrder (shop : Checkout) (db : Database) (userId : String)
    (input : CreatePaymentOrderInput) (snapshot : ExchangeRateSnapshot) (now : Instant) (ids : OrderIds) :
    Except PaymentOrderError (StoreOrder × Database) := do
  match ← replayOrder db userId input with
  | some existing => pure (existing, db)
  | none => do
    require (snapshot.base = "USD" ∧ snapshot.quote = "CNY") .invalidExchangeRate
    let rate ← mapMoneyError (ExchangeRateRational.parse snapshot.cnyPerUsd)
    let settings ← getSettings db
    insertOrder shop db userId input settings rate now ids

structure CreatePaymentOrderRequest where
  (idempotencyKey productId paymentChannelId : String)
  paymentCurrency : Currency
  (customRechargeMinor salesCode : Option String)

inductive CheckoutError
  | code (code message : String)
  | order (error : PaymentOrderError)
  deriving DecidableEq

def mapSalesCodeError : SalesStoreError → CheckoutError
  | .codeInvalid => .code "sales_code_invalid" "Sales code is invalid; check it and enter it again"
  | .discountAboveRate => .code "sales_discount_above_rate" "This sales code is misconfigured; contact the operator"
  | other => .code "internal_error" other.message

def resolveSales (userId : String) (request : CreatePaymentOrderRequest) :
    Except CheckoutError (Option AppliedSalesCode) :=
  match request.salesCode.map fun code => trim code.toList with
  | none => .ok none
  | some [] => .ok none
  | some code =>
    match resolveCode db (String.ofList code) with
    | .error error => .error (mapSalesCodeError error)
    | .ok resolved => do
      require (resolved.agentUserId ≠ userId)
        (.code "sales_code_self_referral" "An agent may not credit their own order")
      require (request.paymentCurrency = .cny)
        (.code "sales_code_currency_unsupported" "A sales code applies only to a CNY order")
      pure (some ⟨resolved.code, resolved.discountBp, resolved.commissionRateBp⟩)

def createStoreOrder (shop : Checkout) (db : Database) (userId : String)
    (request : CreatePaymentOrderRequest) (snapshot : ExchangeRateSnapshot) (now : Instant) (ids : OrderIds) :
    Except CheckoutError (StoreOrder × Database) := do
  let sales ← resolveSales db userId request
  match createOrder shop db userId ⟨request.idempotencyKey, request.productId, request.paymentChannelId,
      request.paymentCurrency, request.customRechargeMinor, sales⟩ snapshot now ids with
  | .ok result => .ok result
  | .error error => .error (.order error)

def PaymentAttempt.withExpired (a : PaymentAttempt) : PaymentAttempt :=
  { a with
    state := .expired
    failureKind := none }

def PaymentAttempt.closable (a : PaymentAttempt) : Prop :=
  a.state = .created ∨ a.state = .presented ∨ a.state = .failed
  deriving Decidable

def closeConfirmedUnpaidAdmin (orderId attemptId : String) : Except PaymentOrderError (Unit × Database) := do
  let o ← orError .orderNotFound (db.storeOrders.find? (·.id = orderId))
  let a ← orError .orderNotFound (db.paymentAttempts.find? fun a => a.id = attemptId ∧ a.orderId = orderId)
  require (o.contract.contractVersion = 2 ∧ o.paymentState = .unpaid) .orderNotPayable
  require a.closable .orderNotPayable
  require (db.paymentAttempts.count (fun b => b.orderId = orderId ∧ b.id ≠ attemptId ∧
    (b.state = .created ∨ b.state = .presented)) = 0) .orderNotPayable
  let attempts ← orError .orderNotPayable (db.paymentAttempts.update?
    (fun b => b.id = attemptId ∧ b.orderId = orderId ∧ b.closable) PaymentAttempt.withExpired)
  let orders ← orError .orderNotPayable (db.storeOrders.updateOne?
    (fun p => p.id = orderId ∧ p.paymentState = .unpaid ∧ p.contract.contractVersion = 2 ∧
      p.stateRevision = o.stateRevision) (StoreOrder.withPaymentState .closed))
  pure ((), { db with
    paymentAttempts := attempts
    storeOrders := orders })

end Monoize
