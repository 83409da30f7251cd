import Monoize.Money
import Monoize.QuotaSchema

/-! The Store's tables. Columns that no modelled function reads, such as most times, are left out. -/

namespace Monoize

open Relational

inductive ProductKind
  | balance | plan
  deriving DecidableEq

inductive PaymentState
  | unpaid | paid | refundPending | refunded | closed
  deriving DecidableEq

inductive FulfillmentState
  | pending | fulfilled | failed
  deriving DecidableEq

inductive DisputeState
  | none | opened | won | lost
  deriving DecidableEq

structure BalanceQuote where
  (rechargeMinor bonusMinor actualReceivedMinor : String)

structure ProductQuote where
  (id name : String)
  durationSeconds : Option Int
  groupIds : List String
  quotas : PlanQuotas
  balance : Option BalanceQuote

structure OrderQuote where
  product : ProductQuote

/-- The frozen part of an order: no statement of the Store updates it. -/
structure OrderContract where
  (orderNumber userId : String)
  productKind : ProductKind
  paymentChannelId : String
  paymentCurrency : Currency
  (paymentMinor cnyPerUsd rateNumerator rateDenominator : String)
  /-- None when the column's text is not a quote. -/
  quote : Option OrderQuote
  contractVersion : Nat
  salesCode : Option String
  salesDiscountBp : Option Int
  (creationIdempotencyKey creationRequestDigest : Option String)
  (createdAt expiresAt : Int)

structure StoreOrder where
  id : String
  contract : OrderContract
  paymentState : PaymentState
  fulfillmentState : FulfillmentState
  disputeState : DisputeState
  paymentHold : Bool
  stateRevision : Int

inductive AttemptState
  | created | presented | expired | failed | paid
  deriving DecidableEq

inductive AttemptFailureKind
  | configurationUnavailable | providerRejected
  deriving DecidableEq

structure PaymentAttempt where
  (id orderId channelId adapterKind credentialVersionId merchantAccountIdentity : String)
  state : AttemptState
  failureKind : Option AttemptFailureKind
  (providerTransactionId providerObjectId : Option String)
  idempotencyKey : String
  paidAt : Option Int

inductive ProjectionState
  | pending | applied | superseded | manualReview
  deriving DecidableEq

structure EncryptedSecret where
  version : Nat
  (keyId nonceBase64 ciphertextBase64 : String)

/-- `parsedJson` holds the fields of the parsed event and the texts of their values. -/
structure ProviderEvent where
  (id credentialVersionId providerEventId eventKind bodyDigest : String)
  parsedJson : List (String × String)
  projectionState : ProjectionState
  rawBody : Option EncryptedSecret
  (sourceIp userAgent : Option String)
  receivedAt : Int

structure OrderEventApplication where
  (providerEventRowId orderId result : String)
  appliedAt : Int

structure ReconciliationLease where
  (name ownerId : String)
  (epoch expiresAt : Int)
  deriving DecidableEq

structure ReconciliationCase where
  id : String
  (orderId channelId : Option String)
  (severity kind state : String)
  evidence : List (String × String)
  deriving DecidableEq

inductive RefundState
  | created | pending | succeeded | failed
  deriving DecidableEq

structure Refund where
  (id orderId attemptId : String)
  providerRefundId : Option String
  idempotencyKey : String
  state : RefundState
  amountMinor : String
  currency : Currency
  (requestedByAdminId createdAt : String)

inductive RecoveryState
  | opened | reserved | recovered | released
  deriving DecidableEq

structure RewardRecovery where
  (id orderId : String)
  (originalNanoUsd reservedNanoUsd recoveredNanoUsd : Nat)
  (debitLedgerKey releaseLedgerKey : Option String)
  state : RecoveryState

inductive RecoveryClaimKind
  | refund | dispute | chargeback
  deriving DecidableEq

inductive RecoveryClaimState
  | opened | resolved | consumed
  deriving DecidableEq

structure RecoveryClaim where
  (id recoveryId credentialVersionId providerClaimId : String)
  providerEventRowId : Option String
  kind : RecoveryClaimKind
  amountNanoUsd : Nat
  state : RecoveryClaimState
  createdAt : String

structure SalesAgent where
  (userId code : String)
  (discountBp commissionBalanceFen : Int)
  enabled : Bool

inductive CommissionOrigin
  | code | claim
  deriving DecidableEq

structure CommissionEntry where
  (id agentUserId orderId orderNumber buyerUserId : String)
  (baseFen commissionFen discountBp commissionRateBp : Int)
  origin : CommissionOrigin
  reversedAt : Option Int
  createdAt : Int

structure SystemSetting where
  (key value : String)

instance : Keyed StoreOrder where
  Key := String × String × String × Option String
  key o := (o.id, o.contract.orderNumber, o.contract.userId, o.contract.creationIdempotencyKey)
  Clash k l := k.1 = l.1 ∨ k.2.1 = l.2.1 ∨ (k.2.2.1 = l.2.2.1 ∧ SameIndex k.2.2.2 l.2.2.2)
  clash_symm := Or.imp Eq.symm (Or.imp Eq.symm (And.imp Eq.symm SameIndex.symm))

def PaymentAttempt.transactionKey (a : PaymentAttempt) : Option (String × String) :=
  a.providerTransactionId.map fun t => (a.credentialVersionId, t)

def PaymentAttempt.activeKey (a : PaymentAttempt) : Option String :=
  if a.state = .created ∨ a.state = .presented then some a.orderId else none

instance : Keyed PaymentAttempt where
  Key := String × String × Option (String × String) × Option String
  key a := (a.id, a.idempotencyKey, a.transactionKey, a.activeKey)
  Clash k l := k.1 = l.1 ∨ k.2.1 = l.2.1 ∨ SameIndex k.2.2.1 l.2.2.1 ∨ SameIndex k.2.2.2 l.2.2.2
  clash_symm := Or.imp Eq.symm (Or.imp Eq.symm (Or.imp SameIndex.symm SameIndex.symm))

instance : Keyed ProviderEvent := .either (·.id) fun e => (e.credentialVersionId, e.providerEventId)

instance : Keyed OrderEventApplication := .on (·.providerEventRowId)

instance : Keyed ReconciliationLease := .on (·.name)

instance : Keyed ReconciliationCase := .on (·.id)

instance : Keyed Refund := .either (·.id) (·.idempotencyKey)

instance : Keyed RewardRecovery := .either (·.id) (·.orderId)

instance : Keyed RecoveryClaim where
  Key := String × (String × String × RecoveryClaimKind) × Option (String × RecoveryClaimKind)
  key c := (c.id, (c.credentialVersionId, c.providerClaimId, c.kind), c.providerEventRowId.map fun e => (e, c.kind))
  Clash k l := k.1 = l.1 ∨ k.2.1 = l.2.1 ∨ SameIndex k.2.2 l.2.2
  clash_symm := Or.imp Eq.symm (Or.imp Eq.symm SameIndex.symm)

instance : Keyed SalesAgent := .either (·.userId) (·.code)

instance : Keyed CommissionEntry := .either (·.id) (·.orderId)

instance : Keyed SystemSetting := .on (·.key)

end Monoize
