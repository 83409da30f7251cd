import Monoize.StoreRun

/-! Commission that is claimed after the fact, and the withdrawals of an agent's balance. -/

namespace Monoize

open Fallible MachineInt Relational

inductive WithdrawalState
  | requested | paid | rejected | cancelled
  deriving DecidableEq

structure SalesWithdrawal where
  (id agentUserId : String)
  amountFen : Int
  state : WithdrawalState
  requestedAt : Int
  decidedAt : Option Int
  (decidedBy decisionNote : Option String)

structure SalesClaimAttempt where
  (id agentUserId : String)
  succeeded : Bool
  attemptedAt : Int

instance : Keyed SalesWithdrawal := .on (·.id)

instance : Keyed SalesClaimAttempt := .on (·.id)

structure SalesDesk where
  db : Database
  withdrawals : Table SalesWithdrawal := .empty
  claimAttempts : Table SalesClaimAttempt := .empty

def minWithdrawalMinor : Int := 1

def claimAttemptsPerMinute : Nat := 10

def claimFailuresBeforeCooldown : Nat := 5

def claimFailureWindowMinutes : Int := 15

def SalesError.toStore : SalesError → SalesStoreError
  | .discountAboveRate => .discountAboveRate
  | .amountTooSmall => .amountTooSmall
  | .rateOutOfRange => .invalidInput
  | .invalidAmount => .invalidInput

def claimCommission (baseMinor commissionRateBp : Int) : Except SalesStoreError Int :=
  match computeAmounts baseMinor commissionRateBp 0 with
  | .ok amounts => .ok amounts.commissionMinor
  | .error error => .error error.toStore

/-- An identifier that is neither a user's id nor a username is taken for an id. -/
def resolveBuyerIdentifier (db : Database) (submitted : String) : String :=
  ((db.users.find? fun u => u.id = submitted ∨ u.username = submitted).map User.id).getD submitted

def claimable (o : StoreOrder) (buyerUserId : String) : Prop :=
  o.contract.userId = buyerUserId ∧ o.paymentState = .paid ∧ o.fulfillmentState = .fulfilled ∧
    o.contract.paymentCurrency = .cny
  deriving Decidable

def claimEntry (o : StoreOrder) (agentUserId orderNumber buyerUserId : String) (baseMinor commissionMinor rateBp : Int)
    (now : Instant) (id : String) : CommissionEntry where
  id := id
  agentUserId := agentUserId
  orderId := o.id
  orderNumber := orderNumber
  buyerUserId := buyerUserId
  baseFen := baseMinor
  commissionFen := commissionMinor
  discountBp := 0
  commissionRateBp := rateBp
  origin := .claim
  reversedAt := none
  createdAt := timestamp now

/-- The transaction of a claim. A wrong buyer and an unknown order are answered alike. -/
def claimOrderInner (db : Database) (agentUserId orderNumber submitted : String) (rateBp : Int) (now : Instant)
    (entryId : String) : Except SalesStoreError (CommissionEntry × Database) := do
  require (agentUserId ≠ submitted) .selfReferral
  let buyerUserId := resolveBuyerIdentifier db submitted
  let o ← orError .claimMismatch (db.storeOrders.find? (·.contract.orderNumber = orderNumber))
  require (claimable o buyerUserId) .claimMismatch
  let baseMinor ← faceValueMinor o.contract.quote
  let commissionMinor ← claimCommission baseMinor rateBp
  require (db.commissionEntries.count (·.orderId = o.id) = 0) .claimAlreadyCredited
  let entry := claimEntry o agentUserId orderNumber buyerUserId baseMinor commissionMinor rateBp now entryId
  let entries ← orError (.storage "UNIQUE constraint failed") (db.commissionEntries.insert? entry)
  let next ← creditAgent { db with commissionEntries := entries } agentUserId commissionMinor
  pure (entry, next)

def checkClaimRate (s : SalesDesk) (agentUserId : String) (now : Instant) : Except SalesStoreError Unit :=
  let recent := s.claimAttempts.count fun a =>
    a.agentUserId = agentUserId ∧ timestamp (now - minutes 1) ≤ a.attemptedAt
  let failures := s.claimAttempts.count fun a => a.agentUserId = agentUserId ∧
    timestamp (now - minutes claimFailureWindowMinutes) ≤ a.attemptedAt ∧ a.succeeded = false
  require (¬ (claimAttemptsPerMinute ≤ recent ∨ claimFailuresBeforeCooldown ≤ failures)) .claimRateLimited

def recordClaimAttempt (s : SalesDesk) (agentUserId : String) (succeeded : Bool) (now : Instant) (id : String) :
    Except SalesStoreError (Unit × SalesDesk) := do
  let attempts ← orError (.storage "UNIQUE constraint failed")
    (s.claimAttempts.insert? ⟨id, agentUserId, succeeded, timestamp now⟩)
  pure ((), { s with claimAttempts := attempts })

def SalesDesk.commit {α : Type} (s : SalesDesk) : Except SalesStoreError (α × SalesDesk) → SalesDesk
  | .ok (_, next) => next
  | .error _ => s

def SalesDesk.claim (s : SalesDesk) (agentUserId orderNumber submitted : String) (rateBp : Int) (now : Instant)
    (entryId : String) : Except SalesStoreError (CommissionEntry × SalesDesk) :=
  (claimOrderInner s.db agentUserId orderNumber submitted rateBp now entryId).map fun r => (r.1, { s with db := r.2 })

def SalesDesk.claimOrder (s : SalesDesk) (agentUserId orderNumber submitted : String) (now : Instant)
    (entryId attemptId : String) : Except SalesStoreError CommissionEntry × SalesDesk :=
  match checkClaimRate s agentUserId now, commissionRateBp s.db with
  | .error error, _ => (.error error, s)
  | .ok (), .error error => (.error error, s)
  | .ok (), .ok rateBp =>
    let outcome := s.claim agentUserId orderNumber submitted rateBp now entryId
    let claimed := s.commit outcome
    match recordClaimAttempt claimed agentUserId outcome.isOk now attemptId with
    | .error error => (.error error, claimed)
    | .ok ((), next) => (outcome.map Prod.fst, next)

def setAgentBalance (db : Database) (agentUserId : String) (balance : Int) : Database :=
  { db with
    salesAgents := db.salesAgents.update (·.userId = agentUserId) (withCommissionBalance balance) }

def requestWithdrawal (s : SalesDesk) (agentUserId : String) (amountMinor : Int) (now : Instant) (id : String) :
    Except SalesStoreError (SalesWithdrawal × SalesDesk) := do
  require (minWithdrawalMinor ≤ amountMinor) .invalidInput
  require (s.withdrawals.count (fun w => w.agentUserId = agentUserId ∧ w.state = .requested) = 0) .withdrawalPending
  let agent ← orError .notAgent (s.db.salesAgents.find? (·.userId = agentUserId))
  let balance ← orError .invalidInput (checked 127 agent.commissionBalanceFen)
  require (amountMinor ≤ balance) .insufficientBalance
  let w : SalesWithdrawal := ⟨id, agentUserId, amountMinor, .requested, timestamp now, none, none, none⟩
  let withdrawals ← orError (.storage "UNIQUE constraint failed") (s.withdrawals.insert? w)
  pure (w, { s with
    db := setAgentBalance s.db agentUserId (wrapping 127 (balance - amountMinor))
    withdrawals := withdrawals })

def SalesWithdrawal.withDecision (paid : Bool) (now : Int) (adminUserId note : String) (w : SalesWithdrawal) :
    SalesWithdrawal :=
  { w with
    state := if paid then .paid else .rejected
    decidedAt := some now
    decidedBy := some adminUserId
    decisionNote := some note }

def SalesWithdrawal.withCancelled (now : Int) (w : SalesWithdrawal) : SalesWithdrawal :=
  { w with
    state := .cancelled
    decidedAt := some now }

def returnHeld (db : Database) (agentUserId : String) (amountMinor : Int) : Except SalesStoreError Database := do
  let agent ← orError .notAgent (db.salesAgents.find? (·.userId = agentUserId))
  let balance ← orError .invalidInput (checked 127 agent.commissionBalanceFen)
  pure (setAgentBalance db agentUserId (wrapping 127 (balance + amountMinor)))

def decideWithdrawal (s : SalesDesk) (withdrawalId adminUserId : String) (paid : Bool) (note : String)
    (now : Instant) : Except SalesStoreError (SalesWithdrawal × SalesDesk) := do
  let w ← orError .withdrawalNotPending (s.withdrawals.find? (·.id = withdrawalId))
  require (w.state = .requested) .withdrawalNotPending
  let amountMinor ← salesParseMinor (toString w.amountFen)
  let withdrawals := s.withdrawals.update (fun w => w.id = withdrawalId ∧ w.state = .requested)
    (SalesWithdrawal.withDecision paid (timestamp now) adminUserId note)
  let db ← (if paid then pure s.db else returnHeld s.db w.agentUserId amountMinor : Except SalesStoreError Database)
  pure (w.withDecision paid (timestamp now) adminUserId note, { s with
    db := db
    withdrawals := withdrawals })

def cancelWithdrawal (s : SalesDesk) (withdrawalId agentUserId : String) (now : Instant) :
    Except SalesStoreError (SalesWithdrawal × SalesDesk) := do
  let w ← orError .withdrawalNotFound
    (s.withdrawals.find? fun w => w.id = withdrawalId ∧ w.agentUserId = agentUserId)
  require (w.state = .requested) .withdrawalNotPending
  let amountMinor ← salesParseMinor (toString w.amountFen)
  let withdrawals := s.withdrawals.update (fun w => w.id = withdrawalId ∧ w.state = .requested)
    (SalesWithdrawal.withCancelled (timestamp now))
  let db ← returnHeld s.db agentUserId amountMinor
  pure (w.withCancelled (timestamp now), { s with
    db := db
    withdrawals := withdrawals })

/-- One transaction of the sales store, or one event of the Store. A claim brings the rate that was read before it. -/
inductive SalesEvent
  | store (e : StoreEvent)
  | claim (agentUserId orderNumber submitted : String) (rateBp : Int) (now : Instant) (entryId : String)
  | recordAttempt (agentUserId : String) (succeeded : Bool) (now : Instant) (id : String)
  | requestWithdrawal (agentUserId : String) (amountMinor : Int) (now : Instant) (id : String)
  | decideWithdrawal (withdrawalId adminUserId : String) (paid : Bool) (note : String) (now : Instant)
  | cancelWithdrawal (withdrawalId agentUserId : String) (now : Instant)

variable [Sha256]

def SalesDesk.run (s : SalesDesk) : SalesEvent → SalesDesk
  | .store e => { s with db := applyStoreEvent s.db e }
  | .claim agentUserId orderNumber submitted rateBp now entryId =>
    s.commit (s.claim agentUserId orderNumber submitted rateBp now entryId)
  | .recordAttempt agentUserId succeeded now id => s.commit (recordClaimAttempt s agentUserId succeeded now id)
  | .requestWithdrawal agentUserId amountMinor now id => s.commit (requestWithdrawal s agentUserId amountMinor now id)
  | .decideWithdrawal withdrawalId adminUserId paid note now =>
    s.commit (decideWithdrawal s withdrawalId adminUserId paid note now)
  | .cancelWithdrawal withdrawalId agentUserId now => s.commit (cancelWithdrawal s withdrawalId agentUserId now)

inductive SalesStep : SalesDesk → SalesDesk → Prop
  | run (s : SalesDesk) (e : SalesEvent) : SalesStep s (s.run e)

end Monoize
