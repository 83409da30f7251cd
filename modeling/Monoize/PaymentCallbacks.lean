import Monoize.Fulfillment

/-! Projection of verified payment events: the event row, the attempt and the order change in one
transaction, and fulfilment follows in another. -/

namespace Monoize

open Fallible Relational

structure ApplyProviderEventInput where
  (eventRowId credentialVersionId verificationCredentialVersionId providerEventId : String)
  (eventKind orderId attemptId providerTransactionId providerObjectId orderNumber : String)
  (merchantAccountIdentity amountMinor : String)
  currency : Currency
  bodyDigest : String
  parsedJson : List (String × String)
  rawBody : Option EncryptedSecret
  (sourceIp userAgent : Option String)
  receivedAt : Instant

inductive CallbackApplyResult
  | applied | duplicate | manualReview
  deriving DecidableEq

def isHexDigit (c : Char) : Bool :=
  c.isDigit || ('a' ≤ c && c ≤ 'f') || ('A' ≤ c && c ≤ 'F')

def hyphenatedUuid (cs : List Char) : Prop :=
  cs.length = 36 ∧ ∀ p ∈ cs.zipIdx, if p.2 ∈ [8, 13, 18, 23] then p.1 = '-' else isHexDigit p.1 = true
  deriving Decidable

def isUuid (text : String) : Prop :=
  let cs := text.toList
  (cs.length = 32 ∧ ∀ c ∈ cs, isHexDigit c = true) ∨ hyphenatedUuid cs ∨
    (cs.head? = some '\x7b' ∧ cs.getLast? = some '\x7d' ∧ hyphenatedUuid cs.tail.dropLast) ∨
    (cs.take 9 = "urn:uuid:".toList ∧ hyphenatedUuid (cs.drop 9))
  deriving Decidable

def isHexDigest (text : String) : Prop := text.toList.length = 64 ∧ ∀ c ∈ text.toList, isHexDigit c = true
  deriving Decidable

def EncryptedSecret.complete (raw : EncryptedSecret) : Prop :=
  raw.version ≠ 0 ∧ raw.keyId ≠ "" ∧ raw.nonceBase64 ≠ "" ∧ raw.ciphertextBase64 ≠ ""
  deriving Decidable

def rawBodyFits (eventKind : String) : Option EncryptedSecret → Prop
  | some raw => eventKind = "payment_succeeded" ∧ raw.complete
  | none => eventKind = "payment_query_succeeded"

instance (eventKind : String) (raw : Option EncryptedSecret) : Decidable (rawBodyFits eventKind raw) := by
  cases raw <;> unfold rawBodyFits <;> infer_instance

variable [Sha256] (db : Database) (input : ApplyProviderEventInput)

def ApplyProviderEventInput.valid : Prop :=
  isUuid input.eventRowId ∧ input.credentialVersionId ≠ "" ∧ input.verificationCredentialVersionId ≠ "" ∧
    input.providerEventId ≠ "" ∧ input.orderId ≠ "" ∧ input.attemptId ≠ "" ∧ input.providerTransactionId ≠ "" ∧
    input.providerObjectId ≠ "" ∧ input.orderNumber ≠ "" ∧ isHexDigest input.merchantAccountIdentity ∧
    rawBodyFits input.eventKind input.rawBody ∧ isHexDigest input.bodyDigest ∧
    (parseMinor input.amountMinor).isOk = true
  deriving Decidable

def validateInput : Except CallbackStoreError Unit :=
  require input.valid .invalidInput

def insertEvent (credentialVersionId : String) (input : ApplyProviderEventInput)
    (projectionState : ProjectionState) : Except CallbackStoreError Database := do
  let events ← orError callbackConflict (db.providerEvents.insert?
    ⟨input.eventRowId, credentialVersionId, input.providerEventId, input.eventKind, input.bodyDigest,
      input.parsedJson, projectionState, input.rawBody, input.sourceIp, input.userAgent, timestamp input.receivedAt⟩)
  pure { db with providerEvents := events }

def duplicateResult (event : ProviderEvent) : Except CallbackStoreError CallbackApplyResult :=
  match event.projectionState with
  | .applied => .ok .duplicate
  | .manualReview => .ok .manualReview
  | .pending => .error (.storage "unknown callback projection state: pending")
  | .superseded => .error (.storage "unknown callback projection state: superseded")

def identityKeys : List String :=
  ["event_id", "event_kind", "type", "checkout_session_id", "payment_intent_id", "attempt_id", "trade_no",
    "transaction_id", "provider_object_id", "provider_transaction_id", "order_number", "amount_minor", "currency"]

def immutableParsedIdentity (value : List (String × String)) : List (String × String) :=
  identityKeys.filterMap fun key => (value.lookup key).map fun field => (key, field)

def withCase (case : ReconciliationCase) (old : ReconciliationCase) : ReconciliationCase :=
  { old with
    state := case.state
    evidence := case.evidence }

/-- `INSERT … ON CONFLICT (id) DO UPDATE`. -/
def putCase (cases : Table ReconciliationCase) (case : ReconciliationCase) : Table ReconciliationCase :=
  (cases.insert? case).getD (cases.update (·.id = case.id) (withCase case))

def identityConflict (event : ProviderEvent) (credentialVersionId : String)
    (input : ApplyProviderEventInput) (channelId : String) : ReconciliationCase where
  id := "provider-event-identity-conflict:" ++ digest [credentialVersionId, input.providerEventId]
  orderId := some input.orderId
  channelId := some channelId
  severity := "high"
  kind := "provider_event_identity_conflict"
  state := "open"
  evidence := [("credential_version_id", credentialVersionId), ("provider_event_id", input.providerEventId),
    ("stored_body_digest", event.bodyDigest), ("incoming_body_digest", input.bodyDigest),
    ("stored_parsed_identity_digest",
      digest ((immutableParsedIdentity event.parsedJson).flatMap fun f => [f.1, f.2])),
    ("incoming_parsed_identity_digest",
      digest ((immutableParsedIdentity input.parsedJson).flatMap fun f => [f.1, f.2]))]

def duplicateResultWithEvidence (event : ProviderEvent)
    (credentialVersionId : String) (input : ApplyProviderEventInput) (channelId : String) :
    Except CallbackStoreError (CallbackApplyResult × Database) :=
  if event.bodyDigest = input.bodyDigest ∧
      immutableParsedIdentity event.parsedJson = immutableParsedIdentity input.parsedJson then
    (duplicateResult event).map fun result => (result, db)
  else
    .ok (.manualReview, { db with
      reconciliationCases := putCase db.reconciliationCases
        (identityConflict event credentialVersionId input channelId) })

def mayBindAbsent (a : PaymentAttempt) : Prop :=
  (a.state = .created ∧ a.failureKind = none) ∨ (a.state = .failed ∧ a.failureKind = some .providerRejected)
  deriving Decidable

def absentProviderObjectMayBind (a : PaymentAttempt) (input : ApplyProviderEventInput) : Prop :=
  a.providerObjectId = none ∧ a.adapterKind = "epay" ∧ input.providerObjectId = input.orderNumber ∧ mayBindAbsent a
  deriving Decidable

def providerObjectMatches (a : PaymentAttempt) (input : ApplyProviderEventInput) : Prop :=
  a.providerObjectId = some input.providerObjectId ∨ absentProviderObjectMayBind a input
  deriving Decidable

def matchesContract (o : StoreOrder) (a : PaymentAttempt) (input : ApplyProviderEventInput) : Prop :=
  a.credentialVersionId = input.credentialVersionId ∧ providerObjectMatches a input ∧
    a.merchantAccountIdentity = input.merchantAccountIdentity ∧ o.contract.orderNumber = input.orderNumber ∧
    o.contract.paymentMinor = input.amountMinor ∧ o.contract.paymentCurrency = input.currency
  deriving Decidable

def bindingCandidate (o : StoreOrder) (a : PaymentAttempt) (input : ApplyProviderEventInput) (b : PaymentAttempt) :
    Prop :=
  b.orderId = o.id ∧ o.contract.orderNumber = input.orderNumber ∧ b.channelId = a.channelId ∧
    b.adapterKind = a.adapterKind ∧ b.credentialVersionId = input.credentialVersionId ∧
    (b.providerObjectId = some input.providerObjectId ∨ b.providerObjectId = none ∧
      (b.state = .created ∨ b.state = .failed ∧ b.failureKind = some .providerRejected))
  deriving Decidable

def uniquelyBound (o : StoreOrder) (a : PaymentAttempt) (input : ApplyProviderEventInput) : Prop :=
  (db.paymentAttempts.rows.filter fun b => bindingCandidate o a input b).map PaymentAttempt.id = [input.attemptId]
  deriving Decidable

def requiresUniqueBinding (a : PaymentAttempt) (input : ApplyProviderEventInput) : Prop :=
  input.eventKind = "payment_succeeded" ∧ input.rawBody ≠ none ∧ a.adapterKind = "epay"
  deriving Decidable

def canApply (o : StoreOrder) : Prop :=
  o.paymentState = .unpaid ∨ (o.paymentState = .closed ∧ o.contract.contractVersion = 2) ∨ o.paymentState = .paid
  deriving Decidable

def PaymentAttempt.withPaid (a : PaymentAttempt) : PaymentAttempt :=
  { a with
    state := .paid
    failureKind := none
    providerTransactionId := some input.providerTransactionId
    providerObjectId := some (a.providerObjectId.getD input.providerObjectId)
    paidAt := some (timestamp input.receivedAt) }

inductive Projection
  | settled (result : CallbackApplyResult)
  | applied (paymentHold : Bool)
  deriving DecidableEq

def findEvent (credentialVersionId providerEventId : String) : Option ProviderEvent :=
  db.providerEvents.find? fun e => e.credentialVersionId = credentialVersionId ∧ e.providerEventId = providerEventId

def settleDuplicate (event : ProviderEvent)
    (credentialVersionId : String) (input : ApplyProviderEventInput) (channelId : String) :
    Except CallbackStoreError (Projection × Database) := do
  let (result, next) ← duplicateResultWithEvidence db event credentialVersionId input channelId
  pure (.settled result, next)

def settleManualReview (credentialVersionId : String) (input : ApplyProviderEventInput) :
    Except CallbackStoreError (Projection × Database) := do
  let next ← insertEvent db credentialVersionId input .manualReview
  pure (.settled .manualReview, next)

def markOrderPaid (o : StoreOrder) : Except CallbackStoreError Database :=
  if o.paymentState = .paid then pure db
  else do
    let orders ← orError (.storage "order state changed during callback projection")
      (db.storeOrders.updateOne?
        (fun p => p.id = o.id ∧ p.paymentState = o.paymentState ∧ p.stateRevision = o.stateRevision)
        (StoreOrder.withPaymentState .paid))
    pure { db with storeOrders := orders }

def applyPayment (o : StoreOrder) (input : ApplyProviderEventInput) :
    Except CallbackStoreError (Projection × Database) := do
  let recorded ← insertEvent db input.credentialVersionId input .applied
  let attempts ← orError callbackConflict
    (recorded.paymentAttempts.update? (·.id = input.attemptId) (PaymentAttempt.withPaid input))
  let paid ← markOrderPaid { recorded with paymentAttempts := attempts } o
  let applications ← orError callbackConflict (paid.orderEventApplications.insert?
    ⟨input.eventRowId, input.orderId, "payment_applied", timestamp input.receivedAt⟩)
  pure (.applied o.paymentHold, { paid with orderEventApplications := applications })

def projectBound (o : StoreOrder) (a : PaymentAttempt)
    (input : ApplyProviderEventInput) : Except CallbackStoreError (Projection × Database) :=
  match findEvent db input.credentialVersionId input.providerEventId with
  | some event => settleDuplicate db event input.credentialVersionId input a.channelId
  | none =>
    if matchesContract o a input ∧ canApply o then applyPayment db o input
    else settleManualReview db input.credentialVersionId input

def projectPayment (fence : Option ReconciliationFence) : Except CallbackStoreError (Projection × Database) := do
  validateFence db fence
  let o ← orError .notFound (db.storeOrders.find? (·.id = input.orderId))
  let a ← orError .notFound
    (db.paymentAttempts.find? fun a => a.id = input.attemptId ∧ a.orderId = input.orderId)
  if requiresUniqueBinding a input ∧ ¬ uniquelyBound db o a input then
    match findEvent db input.verificationCredentialVersionId input.providerEventId with
    | some event => settleDuplicate db event input.verificationCredentialVersionId input a.channelId
    | none => settleManualReview db input.verificationCredentialVersionId input
  else projectBound db o a input

/-- The projection commits even when the fulfilment after it fails. -/
def applyVerifiedPaymentInner
    (fence : Option ReconciliationFence) (fulfillAfterProjection : Bool) (now : Instant) (ids : FulfillmentIds) :
    Except CallbackStoreError CallbackApplyResult × Database :=
  match validateInput input >>= fun _ => projectPayment db input fence with
  | .error error => (.error error, db)
  | .ok (.settled result, next) => (.ok result, next)
  | .ok (.applied paymentHold, next) =>
    if paymentHold = true ∨ fulfillAfterProjection = false then (.ok .applied, next)
    else
      match fulfillPaidOrderInner next input.orderId fence ((fence.map (·.now)).getD now) ids with
      | .error error => (.error error, next)
      | .ok last => (.ok .applied, last)

end Monoize
