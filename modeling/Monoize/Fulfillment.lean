import Monoize.CivilTime
import Monoize.QuotaStore
import Monoize.Sales

/-! Fulfilment of a paid order: one transaction that credits the frozen amount, or starts the plan, and
accrues the sales commission. -/

namespace Monoize

open CivilTime Fallible MachineInt Relational

inductive CallbackStoreError
  | invalidInput | notFound
  | storage (message : String)
  | fulfillment (message : String)
  deriving DecidableEq

def CallbackStoreError.display : CallbackStoreError → String
  | invalidInput => "verified callback input is invalid"
  | notFound => "callback order or attempt is missing"
  | storage message => "callback storage failed: " ++ message
  | fulfillment message => "callback fulfillment failed: " ++ message

def callbackConflict : CallbackStoreError := .storage "UNIQUE constraint failed"

structure ReconciliationFence where
  ownerId : String
  epoch : Int
  now : Instant

variable (db : Database) (o : StoreOrder)

def validateReconciliationFence (fence : ReconciliationFence) : Except CallbackStoreError Unit := do
  let lease ← orError (.storage "reconciliation lease is missing")
    (db.reconciliationLeases.find? (·.name = "store_reconciler"))
  require (lease.ownerId = fence.ownerId ∧ lease.epoch = fence.epoch ∧ timestamp fence.now < lease.expiresAt)
    (.storage "reconciliation lease was lost")

def validateFence : Option ReconciliationFence → Except CallbackStoreError Unit
  | none => pure ()
  | some fence => validateReconciliationFence db fence

def liftFulfillment {α : Type} : Except MoneyError α → Except CallbackStoreError α
  | .ok value => .ok value
  | .error error => .error (.fulfillment error.message)

def liftSales {α : Type} : Except SalesStoreError α → Except CallbackStoreError α
  | .ok value => .ok value
  | .error error => .error (.storage error.message)

def liftAmounts {α : Type} : Except SalesError α → Except CallbackStoreError α
  | .ok value => .ok value
  | .error error => .error (.storage error.debug)

def StoreOrder.withPaymentState (state : PaymentState) (o : StoreOrder) : StoreOrder :=
  { o with
    paymentState := state
    stateRevision := o.stateRevision + 1 }

theorem StoreOrder.withPaymentState_key (state : PaymentState) (o : StoreOrder) :
    Keyed.key (o.withPaymentState state) = Keyed.key o := rfl

def StoreOrder.withFulfilled : StoreOrder :=
  { o with
    fulfillmentState := .fulfilled
    stateRevision := o.stateRevision + 1 }

def StoreOrder.fulfillable (orderId : String) (revision : Int) : Prop :=
  o.id = orderId ∧ o.paymentState = .paid ∧ (o.fulfillmentState = .pending ∨ o.fulfillmentState = .failed) ∧
    o.paymentHold = false ∧ o.stateRevision = revision
  deriving Decidable

/-- The statement also deletes the order's retry row, which nothing here reads. -/
def finishOrderFulfillment (orderId : String) (expectedRevision : Int) : Except CallbackStoreError Database := do
  let orders ← orError (.storage "order state changed during fulfillment")
    (db.storeOrders.updateOne? (fun o => o.fulfillable orderId expectedRevision) StoreOrder.withFulfilled)
  pure { db with storeOrders := orders }

structure FulfillmentIds where
  (ledgerId entitlementId entryId : String)

def fulfillPlan (quote : OrderQuote) (now : Instant) (ids : FulfillmentIds) : Except CallbackStoreError Database := do
  let duration ← orError (.fulfillment "plan duration is missing") quote.product.durationSeconds
  require (now + seconds duration ≤ maxInstant) (.fulfillment "plan duration overflow")
  let current := db.entitlementCurrent.find? (·.userId = o.contract.userId)
  match replaceEntitlementTx db {
      expectedGeneration := current.map (·.generation)
      userId := o.contract.userId
      productId := quote.product.id
      productName := quote.product.name
      startsAt := now
      endsAt := now + seconds duration
      rateNumerator := o.contract.rateNumerator
      rateDenominator := o.contract.rateDenominator
      groupIds := quote.product.groupIds
      quotas := quote.product.quotas
      sourceKind := "order"
      sourceId := o.id } ids.entitlementId (timestamp now) with
  | .error error => .error (.fulfillment error.message)
  | .ok (_, next) => finishOrderFulfillment next o.id o.stateRevision

def convertedAmount (contract : OrderContract) : Except CallbackStoreError Int := do
  let quote ← orError (.fulfillment "quote is malformed") contract.quote
  let balance ← orError (.fulfillment "balance quote is missing") quote.product.balance
  let received ← liftFulfillment (parseMinor balance.actualReceivedMinor)
  let rate ← liftFulfillment (ExchangeRateRational.parse contract.cnyPerUsd)
  require (toString rate.numerator = contract.rateNumerator ∧ toString rate.denominator = contract.rateDenominator)
    (.fulfillment "order rate rational does not match decimal snapshot")
  match contract.paymentCurrency with
  | .cny => liftFulfillment (cnyFenToNanoUsd received rate)
  | .usd => liftFulfillment (quotedReceivedToNanoUsd received .usd rate.decimal)

def fulfillmentKey (orderId : String) : String := "store:fulfillment:" ++ orderId

def rechargeRow (delta balance : Int) (now : Instant) (id : String) : BillingLedgerRow where
  id := id
  userId := o.contract.userId
  kind := "store_recharge"
  deltaNanoUsd := delta
  balanceAfterNanoUsd := some balance
  metaJson := "\x7b\"order_id\":\"" ++ o.id ++ "\"\x7d"
  createdAt := rfc3339 6 now
  idempotencyKey := some (fulfillmentKey o.id)

def setBalance (userId : String) (next : Int) : Database :=
  { db with users := db.users.update (·.id = userId) (withBalance next) (withBalance_key next) }

def creditBalance (delta : Int) (now : Instant) (ledgerId : String) : Except CallbackStoreError Database := do
  let user ← orError (.fulfillment "reward user is missing") (db.users.find? (·.id = o.contract.userId))
  let previous ← liftFulfillment (parseMinor user.balanceNanoUsd)
  let balance ← orError (.fulfillment "balance overflow") (checked 127 (previous + delta))
  let ledger ← orError callbackConflict (db.billingLedger.insert? (rechargeRow o delta balance now ledgerId))
  pure { setBalance db o.contract.userId balance with billingLedger := ledger }

def commissionEntry (agent : SalesAgent) (amounts : SalesAmounts) (discountBp rateBp : Int)
    (now : Instant) (id : String) : CommissionEntry where
  id := id
  agentUserId := agent.userId
  orderId := o.id
  orderNumber := o.contract.orderNumber
  buyerUserId := o.contract.userId
  baseFen := amounts.baseMinor
  commissionFen := amounts.commissionMinor
  discountBp := discountBp
  commissionRateBp := rateBp
  origin := .code
  reversedAt := none
  createdAt := timestamp now

/-- The agent of a code that was disabled after the order still earns; a code that is gone earns nobody. -/
def accrueForAgent (agent : SalesAgent) (baseMinor : Int) (now : Instant)
    (entryId : String) : Except CallbackStoreError Database := do
  let discountBp := o.contract.salesDiscountBp.getD 0
  let rateBp ← liftSales (commissionRateForEntry db)
  let amounts ← liftAmounts (computeAmounts baseMinor rateBp discountBp)
  if db.commissionEntries.count (·.orderId = o.id) > 0 then pure db
  else
    let entries ← orError callbackConflict
      (db.commissionEntries.insert? (commissionEntry o agent amounts discountBp rateBp now entryId))
    let balance ← orError (.storage "agent balance is malformed") (checked 127 agent.commissionBalanceFen)
    pure { db with
      commissionEntries := entries
      salesAgents := db.salesAgents.update (·.userId = agent.userId)
        (withCommissionBalance (wrapping 127 (balance + amounts.commissionMinor))) }

def accrueSalesCommission (orderId : String) (now : Instant) (entryId : String) :
    Except CallbackStoreError Database := do
  let o ← orError (.storage "order vanished during accrual") (db.storeOrders.find? (·.id = orderId))
  match o.contract.salesCode with
  | none => pure db
  | some code =>
    if o.contract.paymentCurrency ≠ .cny then pure db
    else
      let baseMinor ← liftSales (faceValueMinor o.contract.quote)
      match db.salesAgents.find? (·.code = code) with
      | none => pure db
      | some agent => accrueForAgent db o agent baseMinor now entryId

def fulfillBalance (now : Instant) (ids : FulfillmentIds) : Except CallbackStoreError Database := do
  let delta ← convertedAmount o.contract
  let credited ← creditBalance db o delta now ids.ledgerId
  let finished ← finishOrderFulfillment credited o.id o.stateRevision
  accrueSalesCommission finished o.id now ids.entryId

def fulfillPaidOrderInner (orderId : String) (fence : Option ReconciliationFence) (now : Instant)
    (ids : FulfillmentIds) : Except CallbackStoreError Database := do
  validateFence db fence
  let o ← orError .notFound (db.storeOrders.find? (·.id = orderId))
  if o.fulfillmentState = .fulfilled then pure db
  else do
    require (o.paymentState = .paid ∧ o.paymentHold = false) (.fulfillment "order is not eligible for fulfillment")
    let quote ← orError (.fulfillment "quote is malformed") o.contract.quote
    if o.contract.productKind = .plan then fulfillPlan db o quote now ids
    else fulfillBalance db o now ids

end Monoize
