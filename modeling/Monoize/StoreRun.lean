import Monoize.Metering
import Monoize.OrderCreation
import Monoize.PaymentCallbacks
import Monoize.RecoveryClaims

/-! The Store as one state machine: orders are created, paid, fulfilled and recovered in any order, while requests
are charged and sales agents come and go. -/

namespace Monoize

open MachineInt Relational Transition

def storedBalance (db : Database) (userId : String) : Int :=
  ((db.users.find? (·.id = userId)).bind fun u => signedCanonical? u.balanceNanoUsd.toList).getD 0

inductive StoreEvent
  /-- Without `thenFulfill` this is the projection alone, as a fenced query or a crash before fulfilment leaves it. -/
  | payment (input : ApplyProviderEventInput) (fence : Option ReconciliationFence) (thenFulfill : Bool) (now : Instant)
      (ids : FulfillmentIds)
  | fulfill (orderId : String) (fence : Option ReconciliationFence) (now : Instant) (ids : FulfillmentIds)
  | beginRefund (input : BeginRefundInput) (now : Instant) (ids : RecoveryIds)
  | markRefundPending (refundId : String) (providerRefundId : Option String)
  | rejectRefund (refundId : String) (now : Instant) (ids : RecoveryIds)
  | completeRefund (refundId : String) (now : Instant)
  | openClaim (input : VerifiedRecoveryClaimInput) (now : Instant) (ids : RecoveryIds)
  | winClaim (claimId : String) (now : Instant) (ids : RecoveryIds)
  | loseClaim (claimId : String) (now : Instant) (ids : RecoveryIds)
  /-- Payment attempts are created, presented, expired and failed elsewhere: any table may follow. -/
  | attempts (table : Table PaymentAttempt)
  | createOrder (shop : Checkout) (userId : String) (request : CreatePaymentOrderRequest)
      (snapshot : ExchangeRateSnapshot) (now : Instant) (ids : OrderIds)
  | closeUnpaid (orderId attemptId : String)
  | charge (charge : RequestCharge) (ledgerId : String)
  | setCommissionRate (rateBp : Int)
  | insertAgent (userId code : String) (discountBp : Int)
  | setAgentEnabled (userId : String) (enabled : Bool)
  | setOwnDiscount (userId : String) (discountBp : Int)

section

variable [Sha256]

def fulfillOrder (db : Database) (orderId : String) (fence : Option ReconciliationFence) (now : Instant)
    (ids : FulfillmentIds) : Except CallbackStoreError (Unit × Database) :=
  (fulfillPaidOrderInner db orderId fence now ids).map fun next => ((), next)

def applyStoreEvent (db : Database) : StoreEvent → Database
  | .payment input fence thenFulfill now ids =>
    (applyVerifiedPaymentInner db input fence thenFulfill now ids).2
  | .fulfill orderId fence now ids => commit db (fulfillOrder db orderId fence now ids)
  | .beginRefund input now ids => commit db (beginRefundWithOutcome db input now ids)
  | .markRefundPending refundId providerRefundId => commit db (markRefundPendingOutcome db refundId providerRefundId)
  | .rejectRefund refundId now ids => commit db (rejectRefund db refundId now ids)
  | .completeRefund refundId now => commit db (completeRefund db refundId now)
  | .openClaim input now ids => commit db (openClaim db input now ids)
  | .winClaim claimId now ids => commit db (winClaim db claimId now ids)
  | .loseClaim claimId now ids => commit db (loseClaim db claimId now ids)
  | .attempts table => { db with paymentAttempts := table }
  | .createOrder shop userId request snapshot now ids =>
    commit db (createStoreOrder shop db userId request snapshot now ids)
  | .closeUnpaid orderId attemptId => commit db (closeConfirmedUnpaidAdmin db orderId attemptId)
  | .charge charge ledgerId => commit db (chargeUserBalanceNano db charge ledgerId)
  | .setCommissionRate rateBp => commit db (setCommissionRateBp db rateBp)
  | .insertAgent userId code discountBp => commit db (insertAgent db userId code discountBp)
  | .setAgentEnabled userId enabled => commit db (setAgentEnabled db userId enabled)
  | .setOwnDiscount userId discountBp => commit db (setOwnDiscount db userId discountBp)

def StoreEvent.paidOrder : StoreEvent → Option String
  | .payment input .. => some input.orderId
  | .fulfill orderId .. => some orderId
  | _ => none

def refundOrder (db : Database) (refundId : String) : Option String :=
  (db.refunds.find? (·.id = refundId)).map (·.orderId)

def claimOrder (db : Database) (claimId : String) : Option String :=
  (loadClaim db (·.id = claimId)).map (·.orderId)

def StoreEvent.recoveredOrder (db : Database) : StoreEvent → Option String
  | .beginRefund input .. => some input.orderId
  | .markRefundPending refundId _ => refundOrder db refundId
  | .rejectRefund refundId .. => refundOrder db refundId
  | .completeRefund refundId _ => refundOrder db refundId
  | .openClaim input .. => some input.orderId
  | .winClaim claimId .. => claimOrder db claimId
  | .loseClaim claimId .. => claimOrder db claimId
  | _ => none

/-- The database, and for every order and user the sum of the balance changes that the order's payment events and
fulfil calls made, and that its recovery operations made. -/
structure StoreState where
  db : Database
  (credited moved : String → String → Int)

def record (sums : String → String → Int) (target : Option String) (db next : Database) : String → String → Int :=
  fun orderId userId =>
    if target = some orderId then sums orderId userId + (storedBalance next userId - storedBalance db userId)
    else sums orderId userId

def StoreState.run (s : StoreState) (e : StoreEvent) : StoreState where
  db := applyStoreEvent s.db e
  credited := record s.credited e.paidOrder s.db (applyStoreEvent s.db e)
  moved := record s.moved (e.recoveredOrder s.db) s.db (applyStoreEvent s.db e)

inductive StoreStep : StoreState → StoreState → Prop
  | run (s : StoreState) (e : StoreEvent) : StoreStep s (s.run e)

end

/-- Nothing has been fulfilled or recovered yet; users, orders, attempts, events and agents are arbitrary. -/
structure StoreInitial (s : StoreState) : Prop where
  unfulfilled : ∀ o ∈ s.db.storeOrders.rows, o.fulfillmentState ≠ .fulfilled
  ledger_key : ∀ row ∈ s.db.billingLedger.rows, ∀ orderId, row.idempotencyKey ≠ some (fulfillmentKey orderId)
  no_recovery : s.db.rewardRecoveries = .empty
  no_claim : s.db.recoveryClaims = .empty
  no_refund : s.db.refunds = .empty
  credited : s.credited = fun _ _ => 0
  moved : s.moved = fun _ _ => 0

end Monoize
