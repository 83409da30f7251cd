import Monoize.EpayCallback
import Monoize.PaymentCallbacks
import Monoize.Process
import Monoize.OrderCreation
import Monoize.Retention

/-! The Store reconciler: one run takes a lease with a new epoch and then works through its candidates, with one
transaction or one write for each change and calls to the payment provider between them. -/

namespace Monoize

open Concurrent Fallible MachineInt Relational

inductive ReconciliationError
  | leaseUnavailable | leaseLost
  | storage (message : String)
  deriving DecidableEq

structure FulfillmentRetry where
  orderId : String
  (attemptCount nextAttemptAt : Int)
  lastErrorCategory : String

instance : Keyed FulfillmentRetry := .on (·.orderId)

structure CaseTimes where
  (createdAt updatedAt : Int)
  closedAt : Option Int

/-- The database with the tables and columns that only the reconciler reads; the columns are given by the id of
their row. -/
structure ReconcilerStore where
  db : Database
  refundQueryRetries : Table RefundQueryRetry := .empty
  fulfillmentRetries : Table FulfillmentRetry := .empty
  providerExpiresAt : String → Option Int := fun _ => none
  refundPendingAt : String → Option Int := fun _ => none
  caseTimes : String → Option CaseTimes := fun _ => none

inductive ProviderPaymentState
  | notFound | unpaid
  | paid (providerTransactionId : String)
  | closed | ambiguous
  deriving DecidableEq

structure PaymentQueryOutcome where
  attemptId : String
  attemptState : AttemptState
  (orderId channelId credentialVersionId providerObjectId merchantAccountIdentity : String)
  (orderNumber amountMinor : String)
  currency : Currency
  paymentHold : Bool
  state : ProviderPaymentState

inductive PaymentOperationsError
  | attemptNotFound | credentialNotFound | credentialBindingMismatch | credentialDecryptionFailed | credentialInvalid
  | accountIdentityMismatch | paymentContractInvalid | unsupportedAdapter
  | provider (error : AdapterError)
  | storage (message : String)

inductive RefundQueryProjection
  | alreadyTerminal
  | pending (providerRefundId : Option String)
  | succeeded (providerRefundId : Option String)
  | failed (providerRefundId : Option String)

inductive RefundOperationsError
  | invalidInput | notFound | orderNotRefundable | idempotencyConflict | insufficientBalance | configurationUnavailable
  | storage (message : String)

structure RefundReconciliationCandidate where
  (refundId orderId : String)
  pendingAt : Instant

def paymentOperationsErrorCategory : PaymentOperationsError → String
  | .attemptNotFound => "attempt_not_found"
  | .credentialNotFound => "credential_not_found"
  | .credentialBindingMismatch => "credential_binding_mismatch"
  | .credentialDecryptionFailed => "credential_decryption_failed"
  | .credentialInvalid => "credential_invalid"
  | .accountIdentityMismatch => "account_identity_mismatch"
  | .paymentContractInvalid => "payment_contract_invalid"
  | .unsupportedAdapter => "unsupported_adapter"
  | .provider .ambiguous => "provider_transport_ambiguous"
  | .provider .verification => "provider_verification_failed"
  | .provider .invalidConfiguration => "provider_configuration_invalid"
  | .provider .invalidRequest => "provider_request_invalid"
  | .provider .rejected => "provider_query_rejected"
  | .provider .unsupported => "provider_query_unsupported"
  | .storage _ => "storage_error"

def refundOperationsErrorCategory : RefundOperationsError → String
  | .invalidInput => "invalid_input"
  | .notFound => "refund_not_found"
  | .orderNotRefundable => "order_not_refundable"
  | .idempotencyConflict => "idempotency_conflict"
  | .insufficientBalance => "insufficient_balance"
  | .configurationUnavailable => "payment_configuration_unavailable"
  | .storage _ => "storage_error"

def leaseName : String := "store_reconciler"

def leaseSeconds : Int := 90

def batchSize : Nat := 100

def liftRecovery {α : Type} : Except RecoveryError α → Except ReconciliationError α
  | .ok value => .ok value
  | .error error => .error (.storage error.display)

def validateOwnerId (ownerId : String) : Except ReconciliationError Unit :=
  require (ownerId ≠ "" ∧ ownerId.utf8ByteSize ≤ 128 ∧ trim ownerId.toList = ownerId.toList)
    (.storage "reconciliation owner ID is invalid")

def reconciliationNow (startedAtWall : Instant) (elapsedSeconds : Nat) : Except ReconciliationError Instant := do
  require (elapsedSeconds < 2 ^ 63 ∧ startedAtWall + seconds elapsedSeconds ≤ maxInstant)
    (.storage "reconciliation time overflow")
  pure (startedAtWall + seconds elapsedSeconds)

def lease? (db : Database) : Option ReconciliationLease := db.reconciliationLeases.find? (·.name = leaseName)

def validateLease (db : Database) (fence : ReconciliationFence) : Except ReconciliationError Unit := do
  let lease ← orError .leaseLost (lease? db)
  require (lease.ownerId = fence.ownerId ∧ lease.epoch = fence.epoch ∧ timestamp fence.now < lease.expiresAt) .leaseLost

def ReconciliationLease.take (ownerId : String) (epoch : Int) (now : Instant) (l : ReconciliationLease) :
    ReconciliationLease :=
  { l with
    ownerId := ownerId
    epoch := epoch
    expiresAt := timestamp (now + seconds leaseSeconds) }

variable (s : ReconcilerStore) (candidate : RefundReconciliationCandidate) [Sha256]

def withLeases (leases : Table ReconciliationLease) : ReconcilerStore :=
  { s with db := { s.db with reconciliationLeases := leases } }

def defaultLease : ReconciliationLease := ⟨leaseName, "", 0, 0⟩

def acquireLease (ownerId : String) (now : Instant) : Except ReconciliationError Int × ReconcilerStore :=
  let leases := (s.db.reconciliationLeases.insert? defaultLease).getD s.db.reconciliationLeases
  match leases.find? (·.name = leaseName) with
  | none => (.error (.storage "inserted lease is missing"), s)
  | some lease =>
    if lease.ownerId ≠ "" ∧ lease.ownerId ≠ ownerId ∧ now < parseTimestamp lease.expiresAt then
      (.error .leaseUnavailable, withLeases s leases)
    else
      match checked 63 (lease.epoch + 1) with
      | none => (.error (.storage "lease epoch overflow"), s)
      | some epoch =>
        (.ok epoch, withLeases s (leases.update (·.name = leaseName) (ReconciliationLease.take ownerId epoch now)))

def upsertCase (case : ReconciliationCase) (merge : ReconciliationCase → ReconciliationCase)
    (hmerge : ∀ old, Keyed.key (merge old) = Keyed.key old) (now : Instant) : ReconcilerStore :=
  { s with
    db := { s.db with
      reconciliationCases := (s.db.reconciliationCases.insert? case).getD
        (s.db.reconciliationCases.update (·.id = case.id) merge hmerge) }
    caseTimes := Function.update s.caseTimes case.id
      (some ⟨((s.caseTimes case.id).map (·.createdAt)).getD (timestamp now), timestamp now, none⟩) }

def ReconciliationCase.close (c : ReconciliationCase) : ReconciliationCase := { c with state := "closed" }

def closeCase (caseId : String) (now : Instant) : ReconcilerStore :=
  if s.db.reconciliationCases.count (fun c => c.id = caseId ∧ c.state ≠ "closed") = 0 then s
  else
    { s with
      db := { s.db with
        reconciliationCases := s.db.reconciliationCases.update (fun c => c.id = caseId ∧ c.state ≠ "closed")
          ReconciliationCase.close }
      caseTimes := Function.update s.caseTimes caseId ((s.caseTimes caseId).map fun t =>
        { t with
          updatedAt := timestamp now
          closedAt := some (timestamp now) }) }

def paymentQueryCaseId (attemptId : String) : String := "payment-query:" ++ attemptId

def refundPendingCaseId (refundId : String) : String := "refund-pending:" ++ refundId

def paymentQueryCase (attemptId : String) (orderId channelId : Option String) (category severity : String) :
    ReconciliationCase where
  id := paymentQueryCaseId attemptId
  orderId := orderId
  channelId := channelId
  severity := severity
  kind := "payment_query"
  state := "open"
  evidence := [("attempt_id", attemptId), ("category", category)]

def mergePaymentQueryCase (case old : ReconciliationCase) : ReconciliationCase :=
  { case with
    id := old.id
    kind := old.kind }

def upsertPaymentQueryCase (attemptId : String) (orderId channelId : Option String)
    (category severity : String) (now : Instant) : ReconcilerStore :=
  let case := paymentQueryCase attemptId orderId channelId category severity
  upsertCase s case (mergePaymentQueryCase case) (fun _ => rfl) now

def closePaymentQueryCase (attemptId : String) (now : Instant) : ReconcilerStore :=
  closeCase s (paymentQueryCaseId attemptId) now

def refundPendingCase (channelId : String) (category : Option String) : ReconciliationCase where
  id := refundPendingCaseId candidate.refundId
  orderId := some candidate.orderId
  channelId := some channelId
  severity := "high"
  kind := "refund_pending"
  state := "open"
  evidence := ("refund_id", candidate.refundId) :: (category.map fun text => ("error_category", text)).toList

def upsertRefundPendingCase (channelId : String) (category : Option String) (now : Instant) : ReconcilerStore :=
  let case := refundPendingCase candidate channelId category
  upsertCase s case (fun old => { case with id := old.id }) (fun _ => rfl) now

structure RefundRow where
  refund : Refund
  order : StoreOrder
  attempt : PaymentAttempt

def refundRow? (db : Database) (refundId : String) : Option RefundRow := do
  let refund ← db.refunds.find? (·.id = refundId)
  let order ← db.storeOrders.find? (·.id = refund.orderId)
  let attempt ← db.paymentAttempts.find? (·.id = refund.attemptId)
  pure ⟨refund, order, attempt⟩

def dueAt (start delay : Instant) (message : String) : Except ReconciliationError Instant := do
  require (start + delay ≤ maxInstant) (.storage message)
  pure (start + delay)

def RefundQueryRetry.withAlert (now : Instant) (r : RefundQueryRetry) : RefundQueryRetry :=
  { r with alertedAt := some (timestamp now) }

def alertRetry (pendingAt now : Instant) : Option RefundQueryRetry → Except ReconciliationError (Table RefundQueryRetry)
  | some _ => orError (.storage "refund alert state changed concurrently")
      (s.refundQueryRetries.updateOne? (fun r => r.refundId = candidate.refundId ∧ r.alertedAt = none)
        (RefundQueryRetry.withAlert now))
  | none => do
    let initialDueAt ← dueAt pendingAt (minutes 1) "refund query due time overflow"
    orError (.storage "UNIQUE constraint failed") (s.refundQueryRetries.insert?
      ⟨candidate.refundId, 0, timestamp initialDueAt, none, some (timestamp now)⟩)

def openRefundPendingCase (fence : ReconciliationFence) : Except ReconciliationError (Bool × ReconcilerStore) := do
  validateLease s.db fence
  let row ← orError (.storage "refund is missing") (refundRow? s.db candidate.refundId)
  let pending ← orError (.storage "refund pending time is missing") (s.refundPendingAt row.order.id)
  let alertDueAt ← dueAt (parseTimestamp pending) (minutes 15) "refund alert time overflow"
  if row.refund.orderId ≠ candidate.orderId ∨ parseTimestamp pending ≠ candidate.pendingAt ∨
      row.refund.state ≠ .pending ∨ row.order.paymentState ≠ .refundPending ∨ fence.now < alertDueAt then
    pure (false, s)
  else do
    let retry := s.refundQueryRetries.find? (·.refundId = candidate.refundId)
    let case := s.db.reconciliationCases.find? (·.id = refundPendingCaseId candidate.refundId)
    if (retry.bind (·.alertedAt)).isSome ∨ case.map (·.state) = some "open" then pure (false, s)
    else do
      let retries ← alertRetry s candidate (parseTimestamp pending) fence.now retry
      pure (true, upsertRefundPendingCase
        { s with
          refundQueryRetries := retries }
        candidate row.attempt.channelId (retry.bind (·.lastErrorCategory)) fence.now)

def refundQueryDelay (attemptCount : Int) : Instant :=
  if attemptCount = 1 then minutes 5 else if attemptCount = 2 then minutes 15 else hours 1

def putRefundQueryRetry (retries : Table RefundQueryRetry) (retry : RefundQueryRetry) : Table RefundQueryRetry :=
  (retries.insert? retry).getD (retries.update (·.refundId = retry.refundId)
    (fun old => { retry with refundId := old.refundId }) fun _ => rfl)

def scheduleRefundQuery (projectPending : Bool)
    (providerRefundId errorCategory : Option String) (fence : ReconciliationFence) :
    Except ReconciliationError (Unit × ReconcilerStore) := do
  validateLease s.db fence
  let row ← orError (.storage "refund is missing") (refundRow? s.db candidate.refundId)
  if row.refund.orderId ≠ candidate.orderId ∨ row.refund.state ≠ .pending ∨
      row.order.paymentState ≠ .refundPending then pure ((), s)
  else do
    let db ← (if projectPending then do
        let (_, next) ← liftRecovery (markRefundPendingOutcomeIn s.db candidate.refundId providerRefundId)
        pure next
      else pure s.db : Except ReconciliationError Database)
    let retry := s.refundQueryRetries.find? (·.refundId = candidate.refundId)
    let attemptCount ← orError (.storage "refund query count overflow")
      (checked 63 ((retry.map (·.attemptCount)).getD 0 + 1))
    let nextAttemptAt ← dueAt fence.now (refundQueryDelay attemptCount) "refund query retry time overflow"
    let alertDueAt ← dueAt candidate.pendingAt (minutes 15) "refund alert time overflow"
    let previous := retry.bind (·.alertedAt)
    let alertedAt := if alertDueAt ≤ fence.now then previous.or (some (timestamp fence.now)) else previous
    let scheduled : ReconcilerStore := { s with
      db := db
      refundQueryRetries := putRefundQueryRetry s.refundQueryRetries
        ⟨candidate.refundId, attemptCount, timestamp nextAttemptAt, errorCategory, alertedAt⟩ }
    if alertDueAt ≤ fence.now then
      pure ((), upsertRefundPendingCase scheduled candidate row.attempt.channelId errorCategory fence.now)
    else pure ((), scheduled)

def markIfGiven (db : Database) (refundId : String) : Option String → Except ReconciliationError Database
  | none => pure db
  | some providerRefundId => do
    let (_, next) ← liftRecovery (markRefundPendingOutcomeIn db refundId (some providerRefundId))
    pure next

def projectRefundQuery (db : Database) (refundId : String) (now : Instant) (ids : RecoveryIds) :
    RefundQueryProjection → Except ReconciliationError Database
  | .succeeded providerRefundId => do
    let marked ← markIfGiven db refundId providerRefundId
    let (_, next) ← liftRecovery (completeRefund marked refundId now)
    pure next
  | .failed providerRefundId => do
    let marked ← markIfGiven db refundId providerRefundId
    let (_, next) ← liftRecovery (rejectRefund marked refundId now ids)
    pure next
  | .alreadyTerminal => .error (.storage "refund terminal projection is invalid")
  | .pending _ => .error (.storage "refund terminal projection is invalid")

def RefundState.isTerminal (state : RefundState) : Prop := state = .succeeded ∨ state = .failed
  deriving Decidable

def RefundQueryProjection.isAlreadyTerminal : RefundQueryProjection → Bool
  | .alreadyTerminal => true
  | _ => false

def terminalRefund (refund : Refund) (order : StoreOrder) (projection : RefundQueryProjection)
    (now : Instant) (ids : RecoveryIds) : Except ReconciliationError (Option Database) :=
  if refund.state.isTerminal then pure (some s.db)
  else if projection.isAlreadyTerminal then pure none
  else if refund.state ≠ .pending ∨ order.paymentState ≠ .refundPending then pure none
  else some <$> projectRefundQuery s.db refund.id now ids projection

def completeRefundQuery (projection : RefundQueryProjection) (fence : ReconciliationFence) (ids : RecoveryIds) :
    Except ReconciliationError (Bool × ReconcilerStore) := do
  validateLease s.db fence
  let refund ← orError (.storage "refund is missing") (s.db.refunds.find? (·.id = candidate.refundId))
  let order ← orError (.storage "refund is missing") (s.db.storeOrders.find? (·.id = refund.orderId))
  require (refund.orderId = candidate.orderId) (.storage "refund order changed concurrently")
  match ← terminalRefund s refund order projection fence.now ids with
  | none => pure (false, s)
  | some db =>
    pure (true, closeCase
      { s with
        db := db
        refundQueryRetries := s.refundQueryRetries.remove (·.refundId = candidate.refundId) }
      (refundPendingCaseId candidate.refundId) fence.now)

def attemptRow? (db : Database) (attemptId : String) : Option (PaymentAttempt × StoreOrder) := do
  let attempt ← db.paymentAttempts.find? (·.id = attemptId)
  let order ← db.storeOrders.find? (·.id = attempt.orderId)
  pure (attempt, order)

def updateAttempt (db : Database) (p : PaymentAttempt → Bool) (f : PaymentAttempt → PaymentAttempt) :
    Option (Table PaymentAttempt) :=
  if db.paymentAttempts.count p = 1 then db.paymentAttempts.update? p f else none

def releaseUnpresentedAttempt (attemptId : String) (fence : ReconciliationFence) :
    Except ReconciliationError (Bool × ReconcilerStore) := do
  validateLease s.db fence
  let (attempt, order) ← orError (.storage "payment attempt is missing") (attemptRow? s.db attemptId)
  if order.paymentState ≠ .unpaid ∨ ¬ mayBindAbsent attempt then pure (false, s)
  else do
    let attempts ← orError (.storage "recoverable payment attempt changed concurrently")
      (updateAttempt s.db (fun a => a.id = attemptId ∧ a.state = attempt.state) PaymentAttempt.withExpired)
    pure (true, { s with db := { s.db with paymentAttempts := attempts } })

def expireAttempt (attemptId : String) (fence : ReconciliationFence) :
    Except ReconciliationError (Bool × ReconcilerStore) := do
  validateLease s.db fence
  let (attempt, order) ← orError (.storage "payment attempt is missing") (attemptRow? s.db attemptId)
  if attempt.state ≠ .presented ∨ order.paymentState ≠ .unpaid then pure (false, s)
  else do
    let providerExpiresAt ← orError (.storage "provider expiry is missing") (s.providerExpiresAt attemptId)
    if fence.now < parseTimestamp providerExpiresAt then pure (false, s)
    else do
      let attempts ← orError (.storage "expired payment state changed concurrently")
        (updateAttempt s.db (fun a => a.id = attemptId ∧ a.state = .presented)
          fun a => { a with state := .expired })
      let orders ← orError (.storage "expired payment state changed concurrently")
        (s.db.storeOrders.updateOne?
          (fun o => o.id = attempt.orderId ∧ o.paymentState = .unpaid ∧ o.stateRevision = order.stateRevision)
          (StoreOrder.withPaymentState .closed) (StoreOrder.withPaymentState_key .closed))
      pure (true, { s with db := { s.db with
        paymentAttempts := attempts
        storeOrders := orders } })

def fulfillmentDelay (attemptCount : Int) : Instant :=
  seconds (if attemptCount = 1 then 120 else if attemptCount = 2 then 600 else 3600)

def putFulfillmentRetry (retries : Table FulfillmentRetry) (retry : FulfillmentRetry) : Table FulfillmentRetry :=
  (retries.insert? retry).getD (retries.update (·.orderId = retry.orderId)
    (fun old => { retry with orderId := old.orderId }) fun _ => rfl)

def scheduleFulfillmentRetry (orderId : String) (fence : ReconciliationFence) :
    Except ReconciliationError (Unit × ReconcilerStore) := do
  validateLease s.db fence
  let order ← orError (.storage "retry order is missing") (s.db.storeOrders.find? (·.id = orderId))
  if order.fulfillmentState = .fulfilled then
    pure ((), { s with fulfillmentRetries := s.fulfillmentRetries.remove (·.orderId = orderId) })
  else do
    require (order.paymentState = .paid) (.storage "retry order is no longer paid")
    let retry := s.fulfillmentRetries.find? (·.orderId = orderId)
    let attemptCount ← orError (.storage "retry count overflow")
      (checked 63 ((retry.map (·.attemptCount)).getD 0 + 1))
    pure ((), { s with
      fulfillmentRetries := putFulfillmentRetry s.fulfillmentRetries
        ⟨orderId, attemptCount, timestamp (fence.now + fulfillmentDelay attemptCount), "fulfillment_failed"⟩ })

def applyVerifiedPaymentFenced (s : ReconcilerStore) (input : ApplyProviderEventInput)
    (fence : ReconciliationFence) (ids : FulfillmentIds) :
    Except CallbackStoreError CallbackApplyResult × ReconcilerStore :=
  if input.eventKind ≠ "payment_query_succeeded" ∨ input.rawBody.isSome then (.error .invalidInput, s)
  else
    let result := applyVerifiedPaymentInner s.db input (some fence) false fence.now ids
    (result.1, { s with db := result.2 })

def fulfillPaidOrderFenced (orderId : String) (fence : ReconciliationFence)
    (ids : FulfillmentIds) : Except CallbackStoreError (Unit × ReconcilerStore) := do
  let next ← fulfillPaidOrderInner s.db orderId (some fence) fence.now ids
  pure ((), { s with
    db := next
    fulfillmentRetries := s.fulfillmentRetries.remove (·.orderId = orderId) })

def retryDue (refundId : String) (pendingAt : Int) (now : Instant) : Prop :=
  match s.refundQueryRetries.find? (·.refundId = refundId) with
  | none => pendingAt ≤ timestamp (now - minutes 1)
  | some retry => retry.nextAttemptAt ≤ timestamp now

/-- What a read may return: the due attempts of unpaid orders. The age of an attempt that was never presented is not
a column of the model. -/
def PaymentCandidate (now : Instant) (attemptId : String) : Prop :=
  ∃ a ∈ s.db.paymentAttempts.rows, ∃ o ∈ s.db.storeOrders.rows, a.id = attemptId ∧ o.id = a.orderId ∧
    o.paymentState = .unpaid ∧
    (∀ c ∈ s.db.reconciliationCases.rows, c.id = paymentQueryCaseId attemptId → c.state = "open" →
      ∀ times ∈ s.caseTimes c.id, times.updatedAt ≤ timestamp (now - seconds 60)) ∧
    ((a.state = .presented ∧ a.providerObjectId ≠ none ∧
      ∃ expiry ∈ s.providerExpiresAt a.id, expiry ≤ timestamp now) ∨
    (a.adapterKind = "epay" ∧ (a.state = .created ∨ a.state = .failed ∧ a.failureKind = some .providerRejected)))

def PendingRefund (pendingAt : Int) : Prop :=
  ∃ f ∈ s.db.refunds.rows, ∃ o ∈ s.db.storeOrders.rows, f.id = candidate.refundId ∧ f.orderId = candidate.orderId ∧
    o.id = f.orderId ∧ f.state = .pending ∧ o.paymentState = .refundPending ∧ s.refundPendingAt o.id = some pendingAt ∧
    candidate.pendingAt = parseTimestamp pendingAt

def RefundQueryCandidate (now : Instant) (candidate : RefundReconciliationCandidate) : Prop :=
  ∃ pendingAt, PendingRefund s candidate pendingAt ∧ retryDue s candidate.refundId pendingAt now

def RefundAlertCandidate (now : Instant) (candidate : RefundReconciliationCandidate) : Prop :=
  ∃ pendingAt, PendingRefund s candidate pendingAt ∧ pendingAt ≤ timestamp (now - minutes 15) ∧
    (∀ retry ∈ s.refundQueryRetries.find? (·.refundId = candidate.refundId), retry.alertedAt = none) ∧
    ∀ c ∈ s.db.reconciliationCases.rows, c.id = refundPendingCaseId candidate.refundId → c.state ≠ "open"

/-- The time of payment is not a column of the model. -/
def FulfillmentCandidate (now : Instant) (orderId : String) : Prop :=
  ∃ o ∈ s.db.storeOrders.rows, o.id = orderId ∧ o.paymentState = .paid ∧
    (o.fulfillmentState = .pending ∨ o.fulfillmentState = .failed) ∧ o.paymentHold = false ∧
    ∀ retry ∈ s.fulfillmentRetries.find? (·.orderId = orderId), retry.nextAttemptAt ≤ timestamp now

/-- One atomic step of a run: a transaction, a single write, a read, a provider call, a look at the clock or a new
UUID. -/
inductive ReconcilerAct
  | acquireLease (ownerId : String) (now : Instant)
  | expiredPaymentCandidates (now : Instant)
  | refundQueryCandidates (now : Instant)
  | refundAlertCandidates (now : Instant)
  | fulfillmentCandidates (now : Instant)
  | elapsedSeconds
  | newUuid
  | queryAttempt (attemptId : String)
  | queryRefund (orderId refundId : String)
  | openRefundPendingCase (candidate : RefundReconciliationCandidate) (fence : ReconciliationFence)
  | scheduleRefundQuery (candidate : RefundReconciliationCandidate) (projectPending : Bool)
      (providerRefundId errorCategory : Option String) (fence : ReconciliationFence)
  | completeRefundQuery (candidate : RefundReconciliationCandidate) (projection : RefundQueryProjection)
      (fence : ReconciliationFence)
  | releaseUnpresentedAttempt (attemptId : String) (fence : ReconciliationFence)
  | expireAttempt (attemptId : String) (fence : ReconciliationFence)
  | scheduleFulfillmentRetry (orderId : String) (fence : ReconciliationFence)
  | applyVerifiedPayment (input : ApplyProviderEventInput) (fence : ReconciliationFence)
  | fulfillPaidOrder (orderId : String) (fence : ReconciliationFence)
  | upsertPaymentQueryCase (attemptId : String) (orderId channelId : Option String) (category severity : String)
      (now : Instant)
  | closePaymentQueryCase (attemptId : String) (now : Instant)

def ReconcilerAct.Answer : ReconcilerAct → Type
  | acquireLease .. => Except ReconciliationError Int
  | expiredPaymentCandidates _ | fulfillmentCandidates _ => Except ReconciliationError (List String)
  | refundQueryCandidates _ | refundAlertCandidates _ =>
    Except ReconciliationError (List RefundReconciliationCandidate)
  | elapsedSeconds => Nat
  | newUuid => String
  | queryAttempt _ => Except PaymentOperationsError PaymentQueryOutcome
  | queryRefund .. => Except RefundOperationsError RefundQueryProjection
  | openRefundPendingCase .. | completeRefundQuery .. | releaseUnpresentedAttempt .. | expireAttempt .. =>
    Except ReconciliationError Bool
  | scheduleRefundQuery .. | scheduleFulfillmentRetry .. | upsertPaymentQueryCase .. | closePaymentQueryCase .. =>
    Except ReconciliationError Unit
  | applyVerifiedPayment .. => Except CallbackStoreError CallbackApplyResult
  | fulfillPaidOrder .. => Except CallbackStoreError Unit

structure ReconciliationOutcome where
  scanned : Nat := 0
  fulfilled : Nat := 0
  failed : Nat := 0
  paymentQueries : Nat := 0
  paymentsApplied : Nat := 0
  attemptsExpired : Nat := 0
  queryFailures : Nat := 0
  refundQueries : Nat := 0
  refundsTerminal : Nat := 0
  refundQueryFailures : Nat := 0

abbrev Reconciling := Fallibly ReconcilerAct.Answer ReconciliationError

structure StoreReconciler where
  (paymentQueries refundOperations : Bool)

structure ReconcilerSession where
  ownerId : String
  epoch : Int
  now : Instant

open Fallibly

def currentFence (session : ReconcilerSession) : Reconciling ReconciliationFence := do
  let elapsed ← ask ReconcilerAct.elapsedSeconds
  let fenceNow ← attempt (reconciliationNow session.now elapsed)
  pure ⟨session.ownerId, session.epoch, fenceNow⟩

def paymentQueryEvent (query : PaymentQueryOutcome)
    (providerTransactionId eventRowId : String) (now : Instant) : ApplyProviderEventInput :=
  let parsedJson := [("source", "payment_query"), ("attempt_id", query.attemptId),
    ("provider_object_id", query.providerObjectId), ("provider_transaction_id", providerTransactionId),
    ("order_number", query.orderNumber), ("amount_minor", query.amountMinor),
    ("currency", currencyString query.currency)]
  { eventRowId := eventRowId
    credentialVersionId := query.credentialVersionId
    verificationCredentialVersionId := query.credentialVersionId
    providerEventId := "payment-query:" ++ query.attemptId ++ ":" ++ providerTransactionId
    eventKind := "payment_query_succeeded"
    orderId := query.orderId
    attemptId := query.attemptId
    providerTransactionId := providerTransactionId
    providerObjectId := query.providerObjectId
    orderNumber := query.orderNumber
    merchantAccountIdentity := query.merchantAccountIdentity
    amountMinor := query.amountMinor
    currency := query.currency
    bodyDigest := sha256Json parsedJson
    parsedJson := parsedJson
    rawBody := none
    sourceIp := none
    userAgent := some "monoize-store-reconciler"
    receivedAt := now }

def callbackFailure : CallbackStoreError → ReconciliationError
  | .storage message =>
    if message = "reconciliation lease was lost" then .leaseLost
    else .storage (CallbackStoreError.storage message).display
  | error => .storage error.display

def reconcileFulfillment (session : ReconcilerSession) (outcome : ReconciliationOutcome) (orderId : String) :
    Reconciling ReconciliationOutcome := do
  let fence ← currentFence session
  match ← ask (ReconcilerAct.fulfillPaidOrder orderId fence) with
  | .ok () => pure { outcome with fulfilled := outcome.fulfilled + 1 }
  | .error (.fulfillment _) => do
    let retryFence ← currentFence session
    let scheduled ← ask (ReconcilerAct.scheduleFulfillmentRetry orderId retryFence)
    attempt scheduled
    pure { outcome with failed := outcome.failed + 1 }
  | .error error => attempt (.error (callbackFailure error))

def upsertCaseOf (query : PaymentQueryOutcome) (attemptId category severity : String) (now : Instant)
    (outcome : ReconciliationOutcome) : Reconciling ReconciliationOutcome := do
  let written ← ask (ReconcilerAct.upsertPaymentQueryCase attemptId (some query.orderId) (some query.channelId)
    category severity now)
  attempt written
  pure { outcome with queryFailures := outcome.queryFailures + 1 }

def closeCaseOf (attemptId : String) (now : Instant) (outcome : ReconciliationOutcome) :
    Reconciling ReconciliationOutcome := do
  let written ← ask (ReconcilerAct.closePaymentQueryCase attemptId now)
  attempt written
  pure outcome

def reconcilePaid (session : ReconcilerSession)
    (query : PaymentQueryOutcome) (attemptId providerTransactionId : String) (fence : ReconciliationFence)
    (outcome : ReconciliationOutcome) : Reconciling ReconciliationOutcome := do
  let eventRowId ← ask ReconcilerAct.newUuid
  match ← ask (ReconcilerAct.applyVerifiedPayment
      (paymentQueryEvent query providerTransactionId eventRowId fence.now) fence) with
  | .ok .applied => do
    let closed ← closeCaseOf attemptId fence.now { outcome with paymentsApplied := outcome.paymentsApplied + 1 }
    if query.paymentHold then pure closed else reconcileFulfillment session closed query.orderId
  | .ok .duplicate => closeCaseOf attemptId fence.now outcome
  | .ok .manualReview => upsertCaseOf query attemptId "projection_mismatch" "critical" fence.now outcome
  | .error error => attempt (.error (callbackFailure error))

def reconcileNotPaid (query : PaymentQueryOutcome) (attemptId : String) (fence : ReconciliationFence)
    (outcome : ReconciliationOutcome) : Reconciling ReconciliationOutcome :=
  let expired := { outcome with attemptsExpired := outcome.attemptsExpired + 1 }
  if query.attemptState = .presented then do
    let answer ← ask (ReconcilerAct.expireAttempt attemptId fence)
    if ← attempt answer then closeCaseOf attemptId fence.now expired else pure outcome
  else if query.state = .unpaid then upsertCaseOf query attemptId "provider_unpaid" "medium" fence.now outcome
  else do
    let answer ← ask (ReconcilerAct.releaseUnpresentedAttempt attemptId fence)
    if ← attempt answer then closeCaseOf attemptId fence.now expired
    else upsertCaseOf query attemptId "provider_unpaid" "medium" fence.now outcome

def reconcilePayment (session : ReconcilerSession)
    (counted : ReconciliationOutcome) (attemptId : String) : Reconciling ReconciliationOutcome := do
  let outcome := { counted with paymentQueries := counted.paymentQueries + 1 }
  match ← ask (ReconcilerAct.queryAttempt attemptId) with
  | .error (.storage message) => attempt (.error (.storage message))
  | .error error => do
    let written ← ask (ReconcilerAct.upsertPaymentQueryCase attemptId none none (paymentOperationsErrorCategory error) "high"
      session.now)
    attempt written
    pure { outcome with queryFailures := outcome.queryFailures + 1 }
  | .ok query => do
    let fence ← currentFence session
    match query.state with
    | .paid providerTransactionId =>
      reconcilePaid session query attemptId providerTransactionId fence outcome
    | .ambiguous => upsertCaseOf query attemptId "provider_ambiguous" "high" fence.now outcome
    | _ => reconcileNotPaid query attemptId fence outcome

def reconcileRefund (session : ReconcilerSession) (counted : ReconciliationOutcome)
    (candidate : RefundReconciliationCandidate) : Reconciling ReconciliationOutcome := do
  let outcome := { counted with refundQueries := counted.refundQueries + 1 }
  let result ← ask (ReconcilerAct.queryRefund candidate.orderId candidate.refundId)
  let fence ← currentFence session
  match result with
  | .ok (.pending providerRefundId) => do
    let scheduled ← ask (ReconcilerAct.scheduleRefundQuery candidate true providerRefundId none fence)
    attempt scheduled
    pure outcome
  | .ok projection => do
    let answer ← ask (ReconcilerAct.completeRefundQuery candidate projection fence)
    if ← attempt answer then pure { outcome with refundsTerminal := outcome.refundsTerminal + 1 } else pure outcome
  | .error (.storage message) => attempt (.error (.storage message))
  | .error error => do
    let scheduled ← ask (ReconcilerAct.scheduleRefundQuery candidate false none
      (some (refundOperationsErrorCategory error)) fence)
    attempt scheduled
    pure { outcome with refundQueryFailures := outcome.refundQueryFailures + 1 }

def reconcileAlert (session : ReconcilerSession) (outcome : ReconciliationOutcome)
    (candidate : RefundReconciliationCandidate) : Reconciling ReconciliationOutcome := do
  let fence ← currentFence session
  let opened ← ask (ReconcilerAct.openRefundPendingCase candidate fence)
  let _ ← attempt opened
  pure outcome

def reconcile (reconciler : StoreReconciler) (session : ReconcilerSession) : Reconciling ReconciliationOutcome := do
  let payments ← (if reconciler.paymentQueries then do
      let answer ← ask (ReconcilerAct.expiredPaymentCandidates session.now)
      attempt answer
    else pure [] : Reconciling (List String))
  let refunds ← (if reconciler.refundOperations then do
      let answer ← ask (ReconcilerAct.refundQueryCandidates session.now)
      attempt answer
    else pure [] : Reconciling (List RefundReconciliationCandidate))
  let alertsAnswer ← ask (ReconcilerAct.refundAlertCandidates session.now)
  let alerts ← attempt alertsAnswer
  let ordersAnswer ← ask (ReconcilerAct.fulfillmentCandidates session.now)
  let orders ← attempt ordersAnswer
  let outcome : ReconciliationOutcome :=
    { scanned := payments.length + refunds.length + alerts.length + orders.length }
  let alerted ← alerts.foldlM (reconcileAlert session) outcome
  let paid ← payments.foldlM (reconcilePayment session) alerted
  let refunded ← refunds.foldlM (reconcileRefund session) paid
  orders.foldlM (reconcileFulfillment session) refunded

def runOnce (reconciler : StoreReconciler) (ownerId : String) (now : Instant) : Reconciling ReconciliationOutcome := do
  attempt (validateOwnerId ownerId)
  let answer ← ask (ReconcilerAct.acquireLease ownerId now)
  let epoch ← attempt answer
  reconcile reconciler ⟨ownerId, epoch, now⟩

end Monoize
