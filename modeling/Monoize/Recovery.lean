import Monoize.Fulfillment

/-! Economic recovery of a fulfilled order: refunds, disputes and chargebacks share the order's recovery
row. Each operation is one transaction. -/

namespace Monoize

open CivilTime Fallible MachineInt Relational

inductive RecoveryError
  | invalidInput | notFound | orderNotRecoverable | insufficientBalance | conflict
  | storage (message : String)
  deriving DecidableEq

def RecoveryError.display : RecoveryError → String
  | invalidInput => "invalid recovery input"
  | notFound => "recovery object was not found"
  | orderNotRecoverable => "order cannot enter economic recovery"
  | insufficientBalance => "available balance cannot cover the refund reserve"
  | conflict => "economic recovery state conflicts with this operation"
  | storage message => "economic recovery storage failed: " ++ message

structure BeginRefundInput where
  (orderId requestedByAdminId idempotencyKey : String)

structure VerifiedRecoveryClaimInput where
  (orderId credentialVersionId providerClaimId : String)
  providerEventRowId : Option String
  kind : RecoveryClaimKind

structure RefundRecord where
  (id orderId attemptId : String)
  providerRefundId : Option String
  idempotencyKey : String
  state : RefundState
  amountMinor : String
  currency : Currency
  recoveryId : String
  originalNanoUsd : Nat

def validKeyChar (c : Char) : Bool := c.isAlphanum || c ∈ ['-', '_', '.', ':']

def validKey (value : String) : Prop :=
  value ≠ "" ∧ value.toList.length ≤ 100 ∧ ∀ c ∈ value.toList, validKeyChar c = true
  deriving Decidable

def validateRefundInput (input : BeginRefundInput) : Except RecoveryError Unit :=
  require (input.orderId ≠ "" ∧ trim input.requestedByAdminId.toList ≠ [] ∧ validKey input.idempotencyKey)
    .invalidInput

def validateClaimInput (input : VerifiedRecoveryClaimInput) : Except RecoveryError Unit :=
  require (input.orderId ≠ "" ∧ input.credentialVersionId ≠ "" ∧ input.providerClaimId ≠ "" ∧
    input.providerClaimId.utf8ByteSize ≤ 200 ∧ input.providerEventRowId ≠ some "") .invalidInput

def parseNonnegative (value : String) : Except RecoveryError Nat := do
  let n ← orError (.storage "stored recovery amount is invalid") (canonical? value.toList)
  require (n < 2 ^ 128) (.storage "number too large to fit in target type")
  pure n

def parseSigned (value : String) : Except RecoveryError Int := do
  let v ← orError (.storage "stored balance is invalid") (signedCanonical? value.toList)
  orError (.storage "number too large to fit in target type") (checked 127 v)

def checkedI128 (value : Nat) : Except RecoveryError Int := orError .conflict (checked 127 value)

variable (db : Database) (o : StoreOrder) (refundId : String)

def refundClaim (idempotencyKey : String) : Option (RecoveryClaim × RewardRecovery) :=
  db.recoveryClaims.rows.findSome? fun c =>
    if c.providerClaimId = idempotencyKey ∧ c.kind = .refund then
      (db.rewardRecoveries.find? (·.id = c.recoveryId)).map fun r => (c, r)
    else none

def refundFromRow (f : Refund) (r : RewardRecovery) : RefundRecord :=
  ⟨f.id, f.orderId, f.attemptId, f.providerRefundId, f.idempotencyKey, f.state, f.amountMinor, f.currency, r.id,
    r.originalNanoUsd⟩

def loadRefund (p : Refund → Bool) : Option RefundRecord :=
  (db.refunds.find? p).bind fun f => (refundClaim db f.idempotencyKey).map fun cr => refundFromRow f cr.2

def laterPaid (a b : PaymentAttempt) : Prop :=
  Option.lt (· < ·) b.paidAt a.paidAt ∨ (b.paidAt = a.paidAt ∧ b.id < a.id)
  deriving Decidable

def paidAttempt (orderId : String) : Option PaymentAttempt :=
  (db.paymentAttempts.rows.filter fun a =>
    a.orderId = orderId ∧ a.state = .paid ∧ a.providerTransactionId ≠ none).foldl
    (fun best a => match best with
      | none => some a
      | some b => if laterPaid a b then some a else some b) none

def fulfilledReward (orderId : String) : Except RecoveryError Nat := do
  let row ← orError .orderNotRecoverable
    (db.billingLedger.find? (·.idempotencyKey = some (fulfillmentKey orderId)))
  let value ← parseSigned (toString row.deltaNanoUsd)
  require (0 ≤ value) .orderNotRecoverable
  pure value.toNat

def originalReward : Except RecoveryError Nat :=
  if o.contract.productKind = .balance ∧ o.fulfillmentState = .fulfilled then fulfilledReward db o.id else pure 0

def ensureRecovery (orderId : String) (original : Nat) (id : String) : Except RecoveryError (String × Database) :=
  match db.rewardRecoveries.find? (·.orderId = orderId) with
  | some r => do
    let stored ← parseNonnegative (toString r.originalNanoUsd)
    require (stored = original) .conflict
    pure (r.id, db)
  | none => do
    let recoveries ← orError .conflict
      (db.rewardRecoveries.insert? ⟨id, orderId, original, 0, 0, none, none, .opened⟩)
    pure (id, { db with rewardRecoveries := recoveries })

def lockUserBalance (userId : String) : Except RecoveryError Int := do
  let user ← orError .notFound (db.users.find? (·.id = userId))
  parseSigned user.balanceNanoUsd

def recoveryKey (recoveryId step : String) : String := "store:recovery:" ++ recoveryId ++ ":" ++ step

structure BalanceChange where
  userId : String
  (current delta : Int)
  (kind ledgerKey orderId recoveryId : String)
  now : Instant

def recoveryRow (change : BalanceChange) (balance : Int) (id : String) : BillingLedgerRow where
  id := id
  userId := change.userId
  kind := change.kind
  deltaNanoUsd := change.delta
  balanceAfterNanoUsd := some balance
  metaJson := "\x7b\"order_id\":\"" ++ change.orderId ++ "\",\"recovery_id\":\"" ++ change.recoveryId ++ "\"\x7d"
  createdAt := rfc3339 3 change.now
  idempotencyKey := some change.ledgerKey

def applyRecoveryDelta (change : BalanceChange) (ledgerId : String) : Except RecoveryError Database := do
  let balance ← orError .conflict (checked 127 (change.current + change.delta))
  let ledger ← orError .conflict (db.billingLedger.insert? (recoveryRow change balance ledgerId))
  pure { setBalance db change.userId balance with billingLedger := ledger }

def RewardRecovery.withReserve (amount : Nat) (key : String) (r : RewardRecovery) : RewardRecovery :=
  { r with
    reservedNanoUsd := amount
    debitLedgerKey := some key
    state := .reserved }

def RewardRecovery.withRelease (key : String) (r : RewardRecovery) : RewardRecovery :=
  { r with
    reservedNanoUsd := 0
    releaseLedgerKey := some key
    state := .released }

def RewardRecovery.withRecovered (r : RewardRecovery) : RewardRecovery :=
  { r with
    reservedNanoUsd := 0
    recoveredNanoUsd := r.originalNanoUsd
    state := .recovered }

theorem RewardRecovery.withRecovered_key (r : RewardRecovery) : Keyed.key r.withRecovered = Keyed.key r := rfl

def RecoveryClaim.withState (state : RecoveryClaimState) (c : RecoveryClaim) : RecoveryClaim :=
  { c with state := state }

def settleClaim (claimId : String) (state : RecoveryClaimState) : Table RecoveryClaim :=
  db.recoveryClaims.update (fun c => c.id = claimId ∧ c.state = .opened) (RecoveryClaim.withState state)

def reserveReward (recoveryId : String) (balance : Int) (amount : Nat)
    (delta : Int) (now : Instant) (ledgerId : String) : Except RecoveryError Database := do
  let key := recoveryKey recoveryId "reserve"
  let debited ← applyRecoveryDelta db
    ⟨o.contract.userId, balance, delta, "store_recovery_reserve", key, o.id, recoveryId, now⟩ ledgerId
  pure { debited with
    rewardRecoveries := debited.rewardRecoveries.update
      (fun r => r.id = recoveryId ∧ r.reservedNanoUsd = 0 ∧ r.recoveredNanoUsd = 0)
      (RewardRecovery.withReserve amount key) }

def releaseReward (recoveryId : String) (balance delta : Int) (now : Instant)
    (ledgerId : String) : Except RecoveryError Database := do
  let key := recoveryKey recoveryId "release"
  let credited ← applyRecoveryDelta db
    ⟨o.contract.userId, balance, delta, "store_recovery_release", key, o.id, recoveryId, now⟩ ledgerId
  pure { credited with
    rewardRecoveries := credited.rewardRecoveries.update (fun r => r.id = recoveryId ∧ r.recoveredNanoUsd = 0)
      (RewardRecovery.withRelease key) }

def refundReserve (recoveryId : String) (original : Nat) (now : Instant)
    (ledgerId : String) : Except RecoveryError Database := do
  let recovery ← orError .notFound (db.rewardRecoveries.find? (·.id = recoveryId))
  let reserved ← parseNonnegative (toString recovery.reservedNanoUsd)
  let recovered ← parseNonnegative (toString recovery.recoveredNanoUsd)
  require (recovered = 0) .conflict
  if original ≠ 0 ∧ reserved = 0 then do
    let balance ← lockUserBalance db o.contract.userId
    let delta ← checkedI128 original
    require (delta ≤ balance) .insufficientBalance
    reserveReward db o recoveryId balance original (-delta) now ledgerId
  else if original ≠ 0 ∧ reserved ≠ original then .error .insufficientBalance
  else pure db

structure RecoveryIds where
  (recoveryId ledgerId refundId claimId : String)

def openRefund (attempt : PaymentAttempt) (input : BeginRefundInput)
    (recoveryId : String) (original : Nat) (now : Instant) (ids : RecoveryIds) : Except RecoveryError Database := do
  let refunds ← orError .conflict (db.refunds.insert?
    ⟨ids.refundId, o.id, attempt.id, none, input.idempotencyKey, .created, o.contract.paymentMinor,
      o.contract.paymentCurrency, input.requestedByAdminId, rfc3339 3 now⟩)
  let claims ← orError .conflict (db.recoveryClaims.insert?
    ⟨ids.claimId, recoveryId, attempt.credentialVersionId, input.idempotencyKey, none, .refund, original, .opened,
      rfc3339 3 now⟩)
  let orders ← orError .conflict (db.storeOrders.updateOne?
    (fun p => p.id = o.id ∧ p.paymentState = .paid ∧ p.stateRevision = o.stateRevision)
    (StoreOrder.withPaymentState .refundPending))
  pure { db with
    refunds := refunds
    recoveryClaims := claims
    storeOrders := orders }

def StoreOrder.refundable : Prop :=
  o.paymentState = .paid ∧ ¬ (o.contract.productKind = .plan ∧ o.fulfillmentState = .fulfilled)
  deriving Decidable

def beginNewRefund (input : BeginRefundInput) (now : Instant) (ids : RecoveryIds) :
    Except RecoveryError (RefundRecord × Database) := do
  let o ← orError .orderNotRecoverable (db.storeOrders.find? (·.id = input.orderId))
  let attempt ← orError .orderNotRecoverable (paidAttempt db input.orderId)
  require o.refundable .orderNotRecoverable
  let original ← originalReward db o
  let (recoveryId, ensured) ← ensureRecovery db input.orderId original ids.recoveryId
  let reserved ← refundReserve ensured o recoveryId original now ids.ledgerId
  let opened ← openRefund reserved o attempt input recoveryId original now ids
  let record ← orError (.storage "inserted refund is missing") (loadRefund opened (·.id = ids.refundId))
  pure (record, opened)

def beginRefundWithOutcome (input : BeginRefundInput) (now : Instant) (ids : RecoveryIds) :
    Except RecoveryError ((RefundRecord × Bool) × Database) := do
  validateRefundInput input
  match loadRefund db (·.idempotencyKey = input.idempotencyKey) with
  | some existing => do
    require (existing.orderId = input.orderId) .conflict
    pure ((existing, false), db)
  | none => do
    let (record, next) ← beginNewRefund db input now ids
    pure ((record, true), next)

def Refund.withPending (providerRefundId : Option String) (f : Refund) : Refund :=
  { f with
    state := .pending
    providerRefundId := providerRefundId }

def Refund.withState (state : RefundState) (f : Refund) : Refund := { f with state := state }

def putPending (providerRefundId : Option String) : Database :=
  { db with
    refunds := db.refunds.update (·.id = refundId) (Refund.withPending providerRefundId) }

/-- As inside a transaction of the caller: the input is not validated. -/
def markRefundPendingOutcomeIn (providerRefundId : Option String) : Except RecoveryError (RefundRecord × Database) := do
  let existing ← orError .notFound (loadRefund db (·.id = refundId))
  match existing.state, existing.providerRefundId, providerRefundId with
  | .pending, some stored, some received => do
    require (stored = received) .conflict
    pure (existing, db)
  | .pending, none, some received => do
    let next := putPending db refundId (some received)
    let record ← orError .notFound (loadRefund next (·.id = refundId))
    pure (record, next)
  | .pending, _, none => pure (existing, db)
  | .created, _, _ => do
    let next := putPending db refundId providerRefundId
    let record ← orError .notFound (loadRefund next (·.id = refundId))
    pure (record, next)
  | _, _, _ => .error .conflict

def markRefundPendingOutcome (providerRefundId : Option String) : Except RecoveryError (RefundRecord × Database) := do
  require (refundId ≠ "" ∧ ∀ value ∈ providerRefundId, trim value.toList ≠ []) .invalidInput
  markRefundPendingOutcomeIn db refundId providerRefundId

structure RefundMutation where
  refund : Refund
  claim : RecoveryClaim
  recovery : RewardRecovery
  order : StoreOrder

def loadRefundMutation : Except RecoveryError RefundMutation := do
  let refund ← orError .notFound (db.refunds.find? (·.id = refundId))
  let (claim, recovery) ← orError .notFound (refundClaim db refund.idempotencyKey)
  let order ← orError .notFound (db.storeOrders.find? (·.id = refund.orderId))
  pure ⟨refund, claim, recovery, order⟩

def otherOpenClaims (claims : Table RecoveryClaim) (recoveryId claimId : String) : Nat :=
  claims.count fun c => c.recoveryId = recoveryId ∧ c.id ≠ claimId ∧ c.state = .opened

def settleRefund (state : RefundState) : Table Refund :=
  db.refunds.update (fun f => f.id = refundId ∧ (f.state = .created ∨ f.state = .pending)) (Refund.withState state)

def releaseIfLast (recovery : RewardRecovery) (otherOpen : Nat) (now : Instant)
    (ledgerId : String) : Except RecoveryError Database := do
  let reserved ← parseNonnegative (toString recovery.reservedNanoUsd)
  let recovered ← parseNonnegative (toString recovery.recoveredNanoUsd)
  if otherOpen = 0 ∧ recovered = 0 ∧ reserved ≠ 0 then do
    let balance ← lockUserBalance db o.contract.userId
    let delta ← checkedI128 reserved
    releaseReward db o recovery.id balance delta now ledgerId
  else pure db

def rejectRefund (now : Instant) (ids : RecoveryIds) : Except RecoveryError (Unit × Database) := do
  let m ← loadRefundMutation db refundId
  match m.refund.state with
  | .failed => pure ((), db)
  | .succeeded => .error .conflict
  | _ => do
    let claims := settleClaim db m.claim.id .resolved
    let released ← releaseIfLast { db with recoveryClaims := claims } m.order m.recovery
      (otherOpenClaims claims m.recovery.id m.claim.id) now ids.ledgerId
    pure ((), { released with
      refunds := settleRefund released refundId .failed
      storeOrders := released.storeOrders.update
        (fun p => p.id = m.order.id ∧ p.paymentState = .refundPending)
        (StoreOrder.withPaymentState .paid) (StoreOrder.withPaymentState_key .paid) })

abbrev settledRefund (m : RefundMutation) (orders : Table StoreOrder) : Database :=
  { db with
    rewardRecoveries := db.rewardRecoveries.update (fun r => r.id = m.recovery.id ∧ r.recoveredNanoUsd = 0)
      RewardRecovery.withRecovered
    recoveryClaims := settleClaim db m.claim.id .consumed
    refunds := settleRefund db refundId .succeeded
    storeOrders := orders }

def finishRefund : Except SalesStoreError (Option Int × Database) → Except RecoveryError (Unit × Database)
  | .ok (_, next) => .ok ((), next)
  | .error error => .error (.storage error.message)

def completeOpenRefund (m : RefundMutation) (now : Instant) : Except RecoveryError (Unit × Database) := do
  let original ← parseNonnegative (toString m.recovery.originalNanoUsd)
  let reserved ← parseNonnegative (toString m.recovery.reservedNanoUsd)
  require (original = 0 ∨ reserved = original) .conflict
  let orders ← orError .conflict (db.storeOrders.updateOne?
    (fun p => p.id = m.order.id ∧ p.paymentState = .refundPending) (StoreOrder.withPaymentState .refunded))
  finishRefund (reverseCommissionForOrder (settledRefund db refundId m orders) m.order.id (timestamp now))

def completeRefund (now : Instant) : Except RecoveryError (Unit × Database) := do
  let m ← loadRefundMutation db refundId
  match m.refund.state with
  | .succeeded => pure ((), db)
  | .failed => .error .conflict
  | _ => completeOpenRefund db refundId m now

end Monoize
