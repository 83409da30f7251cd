import Monoize.AdmissionProtocol

/-! The primary's side of metering: balance deltas are applied once, anchored by their ledger row. -/

namespace Monoize

open Fallible MachineInt Relational

structure BalanceDelta where
  (deltaId kind userId : String)
  apiKeyId : Option String
  (amountNanoUsd metaJson createdAt : String)
  deriving DecidableEq

structure MeteringBatch where
  planTerminals : List PlanTerminalWire := []
  balanceDeltas : List BalanceDelta := []

structure MeteringAck where
  appliedBalanceDeltas : Nat
  planTerminalAcks : List PlanTerminalAcknowledgement

def validDeltaKind (kind : String) : Prop := kind = "request_charge" ∨ kind = "api_key_charge"
  deriving Decidable

def validateDelta (d : BalanceDelta) : Except String Unit := do
  require (d.deltaId ≠ "" ∧ d.userId ≠ "") "delta_id and user_id must be non-empty"
  require (validDeltaKind d.kind) "kind must be request_charge or api_key_charge"
  require ((trimmed? 127 d.amountNanoUsd).isSome) "amount_nano_usd must be decimal i128 text"
  require (d.createdAt ≠ "") "created_at must be RFC 3339 text"

def deltaSubject (d : BalanceDelta) : Option String :=
  if d.kind = "request_charge" then some d.userId
  else if d.kind = "api_key_charge" then d.apiKeyId
  else none

def checkedSubAllowNegative (current amount : Int) : Except String Int :=
  orError "balance overflow" (checked 127 (current - amount))

def subtractUserBalanceTx (db : Database) (userId : String) (amount : Int) : Except String Database :=
  match db.users.find? (·.id = userId) with
  | none => pure db
  | some u =>
    if u.balanceUnlimited then pure db
    else do
      let current ← orError "malformed stored balance" (trimmed? 127 u.balanceNanoUsd)
      let next ← checkedSubAllowNegative current amount
      pure { db with users := db.users.update (·.id = userId) (withBalance next) }

def subAccountBalance (k : ApiKey) : Int := (k.subAccountBalanceNano.bind (trimmed? 127)).getD 0

def withSubAccountBalance (next : Int) (k : ApiKey) : ApiKey :=
  { k with subAccountBalanceNano := some (toString next) }

theorem withSubAccountBalance_key (next : Int) (k : ApiKey) : Keyed.key (withSubAccountBalance next k) = Keyed.key k := rfl

def chargeApiKey (db : Database) (apiKeyId : String) (amount : Int) : Except String Database :=
  match db.apiKeys.find? (·.id = apiKeyId) with
  | none => pure db
  | some k =>
    if k.subAccountEnabled then do
      let next ← checkedSubAllowNegative (subAccountBalance k) amount
      pure { db with
        apiKeys := db.apiKeys.update (·.id = apiKeyId) (withSubAccountBalance next) }
    else subtractUserBalanceTx db k.userId amount

def applyCharge (db : Database) (d : BalanceDelta) (amount : Int) : Except String Database :=
  if d.kind = "request_charge" then subtractUserBalanceTx db d.userId amount
  else if d.kind = "api_key_charge" then chargeApiKey db (d.apiKeyId.getD "") amount
  else .error ("unsupported delta kind " ++ d.kind.quote)

/-- The negation of the least machine integer wraps around. -/
def ledgerRow (d : BalanceDelta) (amount : Int) : BillingLedgerRow where
  id := d.deltaId
  userId := d.userId
  kind := d.kind
  deltaNanoUsd := if amount = -2 ^ 127 then amount else -amount
  balanceAfterNanoUsd := none
  metaJson := d.metaJson
  createdAt := d.createdAt
  idempotencyKey := some d.deltaId

def applyBalanceDelta (db : Database) (d : BalanceDelta) : Except String (Nat × Database) := do
  let amount ← orError "amount_nano_usd must be decimal i128 text" (trimmed? 127 d.amountNanoUsd)
  if (db.billingLedger.find? (·.idempotencyKey = some d.deltaId)).isSome then pure (0, db)
  else
    let ledger ← orError "UNIQUE constraint failed" (db.billingLedger.insert? (ledgerRow d amount))
    let next ← applyCharge { db with billingLedger := ledger } d amount
    pure (1, next)

def applyDeltas (db : Database) : List BalanceDelta → Except String (Nat × Database)
  | [] => pure (0, db)
  | d :: ds => do
    let (n, next) ← applyBalanceDelta db d
    let (m, last) ← applyDeltas next ds
    pure (n + m, last)

def liftStorage {α : Type} : Except String α → Except AdmissionRuntimeError α
  | .ok value => .ok value
  | .error message => .error (.storage message)

/-- One transaction. The request logs and last-used times of a batch are written to columns that nothing
here reads. -/
def applyMeteringBatch [Sha256] (db : Database) (batch : MeteringBatch) (violationId : String) :
    Except AdmissionRuntimeError (MeteringAck × Database) := do
  let (acks, settled) ← applyTerminalBatch db violationId batch.planTerminals
  let (applied, next) ← liftStorage (applyDeltas settled batch.balanceDeltas)
  pure (⟨applied, acks⟩, next)

inductive BillingErrorKind
  | internal | notFound | invalidStoredBalance | overflow | insufficientBalance
  deriving DecidableEq

structure BillingError where
  kind : BillingErrorKind
  message : String

structure RequestCharge where
  userId : String
  amountNanoUsd : Int
  requestId : Option String
  (metaJson createdAt : String)

def requestChargeRow (charge : RequestCharge) (next : Int) (id : String) : BillingLedgerRow where
  id := id
  userId := charge.userId
  kind := "request_charge"
  deltaNanoUsd := -charge.amountNanoUsd
  balanceAfterNanoUsd := some next
  metaJson := charge.metaJson
  createdAt := charge.createdAt
  idempotencyKey := none

def chargeUserBalanceNanoInner (db : Database) (charge : RequestCharge) (ledgerId : String) :
    Except BillingError (Unit × Database) := do
  let user ← orError ⟨.notFound, "user not found"⟩ (db.users.find? (·.id = charge.userId))
  let balance ← orError ⟨.invalidStoredBalance, "invalid_nano_usd"⟩ (trimmed? 127 user.balanceNanoUsd)
  if user.balanceUnlimited then pure ((), db)
  else do
    let next ← orError ⟨.overflow, "balance subtraction overflow"⟩ (checked 127 (balance - charge.amountNanoUsd))
    let ledger ← orError ⟨.internal, "UNIQUE constraint failed"⟩
      (db.billingLedger.insert? (requestChargeRow charge next ledgerId))
    pure ((), { db with
      users := db.users.update (·.id = charge.userId) (withBalance next)
      billingLedger := ledger })

def chargeUserBalanceNano (db : Database) (charge : RequestCharge) (ledgerId : String) :
    Except BillingError (Unit × Database) :=
  if charge.amountNanoUsd ≤ 0 then pure ((), db)
  else do
    require (∃ id ∈ charge.requestId, trim id.toList ≠ [])
      ⟨.internal, "request charge metadata is missing request_id"⟩
    chargeUserBalanceNanoInner db charge ledgerId

def deliverBatches [Sha256] (db : Database) :
    List (MeteringBatch × String) → Except AdmissionRuntimeError Database
  | [] => pure db
  | (batch, violationId) :: batches => do
    let (_, next) ← applyMeteringBatch db batch violationId
    deliverBatches next batches

end Monoize
