import Mathlib.Data.List.Sort
import Monoize.BatchUpdate
import Monoize.Fulfillment

/-! The daily retention job. It clears or deletes records by age, at most 500 roots of each class, and leaves what
a legal hold names. -/

namespace Monoize

open CivilTime Fallible MachineInt Relational

inductive StoreRetentionDataClass
  | rawCallbackBodies | networkMetadata | financialRecords | redemptionAudits | expiredReauthGrants
  deriving DecidableEq

structure AccessAudit where
  (id actorId actorRole action reason result : String)
  createdAt : Int

structure ReauthGrant where
  (id userId : String)
  expiresAt : Int

structure SettlementReport where
  (id importedAt : String)

structure SettlementLine where
  (id reportId amountMinor : String)

structure LegalHold where
  id : String
  (startsAt expiresAt : Int)

structure LegalHoldItem where
  holdId : String
  dataClass : StoreRetentionDataClass
  identifier : String

structure RefundQueryRetry where
  refundId : String
  (attemptCount nextAttemptAt : Int)
  lastErrorCategory : Option String
  alertedAt : Option Int

structure StorePrivacyRetention where
  (rawCallbackDays networkMetadataDays financialRecordsDays redemptionAuditDays : Int)
  expiredReauthGrantHours : Int

structure PrivacyRecord where
  (id policyVersion : String)
  /-- None when the column's text is not a retention document. -/
  retention : Option StorePrivacyRetention
  (approvedAt nextReviewAt : String)
  accepted : Bool

structure StoreRetentionCounts where
  rawCallbackBodies : Nat := 0
  networkMetadata : Nat := 0
  financialRecords : Nat := 0
  redemptionAudits : Nat := 0
  expiredReauthGrants : Nat := 0

inductive StoreRetentionRunState
  | running | succeeded | failed
  deriving DecidableEq

structure StoreRetentionRun where
  (id workerOwnerId policyVersion : String)
  counts : StoreRetentionCounts
  oldestRemainingAt : Option Int
  state : StoreRetentionRunState
  errorCategory : Option String
  startedAt : Int
  completedAt : Option Int

structure StoreRetentionAlert where
  (id runId : String)
  (consecutiveFailures createdAt : Int)

structure StoreRetentionState where
  runInProgress : Bool := false
  currentRunId : Option String := none
  currentWorkerOwnerId : Option String := none
  lastRunId : Option String := none
  consecutiveFailures : Int := 0
  checkoutPaused : Bool := false
  activeAlertId : Option String := none
  updatedAt : Int := 0

instance : Keyed AccessAudit := .on (·.id)

instance : Keyed ReauthGrant := .on (·.id)

instance : Keyed SettlementReport := .on (·.id)

instance : Keyed SettlementLine := .on (·.id)

instance : Keyed LegalHold := .on (·.id)

abbrev HoldItemKey : Type := String × String

instance : Keyed LegalHoldItem :=
  { Key := HoldItemKey, key := fun i => (i.holdId, i.identifier) }

instance : Keyed RefundQueryRetry := .on (·.refundId)

instance : Keyed PrivacyRecord := .on (·.id)

instance : Keyed StoreRetentionRun := .on (·.id)

instance : Keyed StoreRetentionAlert := .on (·.id)

structure RetentionStore where
  db : Database
  accessAudits : Table AccessAudit := .empty
  reauthGrants : Table ReauthGrant := .empty
  settlementReports : Table SettlementReport := .empty
  settlementLines : Table SettlementLine := .empty
  legalHolds : Table LegalHold := .empty
  legalHoldItems : Table LegalHoldItem := .empty
  refundQueryRetries : Table RefundQueryRetry := .empty
  privacyRecords : Table PrivacyRecord := .empty
  retentionRuns : Table StoreRetentionRun := .empty
  retentionAlerts : Table StoreRetentionAlert := .empty
  retentionState : StoreRetentionState := {}

inductive StoreRetentionError
  | invalidInput | runActive | containmentUnavailable | notFound
  | storage (message : String)
  deriving DecidableEq

structure RetentionRunActor where
  (actorId actorRole reason : String)

inductive PolicyLookup
  | current (version : String) (retention : StorePrivacyRetention)
  | invalid (version : String)
  | unavailable

def PolicyLookup.version : PolicyLookup → String
  | current version _ => version
  | invalid version => version
  | unavailable => "unavailable"

structure RetentionIds where
  (runId auditId interruptedAuditId alertId interruptedAlertId : String)

def retentionBatchSize : Nat := 500

def networkMetadataRetentionDays : Int := 90

def retentionSystemActor : String := "_monoize_retention_job"

def hours (n : Int) : Int := n * 3600 * 1000000000

def days (n : Int) : Int := hours (24 * n)

def checkedSub (value duration : Int) : Except StoreRetentionError Instant := do
  require (minInstant ≤ value - duration) .invalidInput
  pure (value - duration)

def storedText (micros : Int) : String := rfc3339 6 (parseTimestamp micros)

variable (s : RetentionStore)

def RetentionStore.held (dataClass : StoreRetentionDataClass) (now : Int) (id : String) : Bool :=
  s.legalHoldItems.rows.any fun i => i.dataClass = dataClass ∧ i.identifier = id ∧
    s.legalHolds.rows.any fun h => h.id = i.holdId ∧ h.startsAt ≤ now ∧ now < h.expiresAt

def olderFirst {κ : Type} [LT κ] (a b : κ × String) : Prop := a.1 < b.1 ∨ (a.1 = b.1 ∧ ¬ b.2 < a.2)

instance {κ : Type} [LT κ] [DecidableLT κ] [DecidableEq κ] (a b : κ × String) : Decidable (olderFirst a b) :=
  inferInstanceAs (Decidable (_ ∨ _))

def retentionBatch {β κ : Type} [LT κ] [DecidableLT κ] [DecidableEq κ] (key : β → κ × String) (rows : List β) : List β :=
  (rows.insertionSort fun a b => olderFirst (key a) (key b)).take retentionBatchSize

def ProviderEvent.withoutRawBody (e : ProviderEvent) : ProviderEvent := { e with rawBody := none }

def ProviderEvent.withoutNetwork (e : ProviderEvent) : ProviderEvent :=
  { e with
    sourceIp := none
    userAgent := none }

def ProviderEvent.hasNetwork (e : ProviderEvent) : Bool := e.sourceIp.isSome || e.userAgent.isSome

def rawCallbackIds (now : Int) (cutoff : Instant) : List String :=
  (retentionBatch (fun e => (e.receivedAt, e.id)) (s.db.providerEvents.rows.filter fun e =>
    e.receivedAt ≤ timestamp cutoff ∧ e.rawBody.isSome ∧ ¬ s.held .rawCallbackBodies now e.id)).map (·.id)

def clearRawCallbacks (now : Instant) : Except StoreRetentionError (Nat × RetentionStore) := do
  let cutoff ← checkedSub now (days 30)
  let (events, changed) := s.db.providerEvents.updateEach (fun id e => e.id = id ∧ e.rawBody.isSome)
    ProviderEvent.withoutRawBody (fun _ => rfl) (rawCallbackIds s (timestamp now) cutoff)
  pure (changed, { s with db := { s.db with providerEvents := events } })

def networkMetadataIds (now : Int) (cutoff : Instant) : List String :=
  (retentionBatch (fun e => (e.receivedAt, e.id)) (s.db.providerEvents.rows.filter fun e =>
    e.receivedAt ≤ timestamp cutoff ∧ e.hasNetwork ∧ ¬ s.held .networkMetadata now e.id)).map (·.id)

def clearNetworkMetadata (now : Instant) : Except StoreRetentionError (Nat × RetentionStore) := do
  let cutoff ← checkedSub now (days networkMetadataRetentionDays)
  let (events, changed) := s.db.providerEvents.updateEach (fun id e => e.id = id ∧ e.hasNetwork)
    ProviderEvent.withoutNetwork (fun _ => rfl) (networkMetadataIds s (timestamp now) cutoff)
  pure (changed, { s with db := { s.db with providerEvents := events } })

def reauthGrantIds (now : Int) (cutoff : Instant) : List String :=
  (retentionBatch (fun g => (g.expiresAt, g.id)) (s.reauthGrants.rows.filter fun g =>
    g.expiresAt ≤ timestamp cutoff ∧ ¬ s.held .expiredReauthGrants now g.id)).map (·.id)

def deleteReauthGrants (now : Instant) (grantHours : Int) : Except StoreRetentionError (Nat × RetentionStore) := do
  let cutoff ← checkedSub now (hours grantHours)
  let (grants, changed) := s.reauthGrants.removeEach (fun id g => g.id = id) (reauthGrantIds s (timestamp now) cutoff)
  pure (changed, { s with reauthGrants := grants })

def AccessAudit.isRedemption (a : AccessAudit) : Bool :=
  a.action ∈ ["redemption_reveal", "redemption_copy", "redemption_export"]

def redemptionAuditIds (now : Int) (cutoff : Instant) : List String :=
  (retentionBatch (fun a => (a.createdAt, a.id)) (s.accessAudits.rows.filter fun a =>
    a.createdAt ≤ timestamp cutoff ∧ a.isRedemption ∧ ¬ s.held .redemptionAudits now a.id)).map (·.id)

def deleteRedemptionAudits (now : Instant) : Except StoreRetentionError (Nat × RetentionStore) := do
  let cutoff ← checkedSub now (days 730)
  let (audits, changed) := s.accessAudits.removeEach (fun id a => a.id = id) (redemptionAuditIds s (timestamp now) cutoff)
  pure (changed, { s with accessAudits := audits })

inductive FinancialTable
  | orders | providerEvents | billingLedger | refunds | recoveryClaims | settlementReports | accessAudits
  deriving DecidableEq

structure FinancialCandidate where
  table : FinancialTable
  (id retentionAt : String)

def StoreOrder.isTerminal (o : StoreOrder) : Bool := o.paymentState = .closed ∨ o.paymentState = .refunded

def financialRoots : List FinancialCandidate :=
  ((s.db.storeOrders.rows.filter StoreOrder.isTerminal).map fun o => ⟨.orders, o.id, storedText o.contract.createdAt⟩) ++
  (s.db.providerEvents.rows.map fun e => ⟨.providerEvents, e.id, storedText e.receivedAt⟩) ++
  (s.db.billingLedger.rows.map fun r => ⟨.billingLedger, r.id, r.createdAt⟩) ++
  (s.db.refunds.rows.map fun f => ⟨.refunds, f.id, f.createdAt⟩) ++
  (s.db.recoveryClaims.rows.map fun c => ⟨.recoveryClaims, c.id, c.createdAt⟩) ++
  (s.settlementReports.rows.map fun r => ⟨.settlementReports, r.id, r.importedAt⟩) ++
  ((s.accessAudits.rows.filter fun a => !a.isRedemption).map fun a => ⟨.accessAudits, a.id, storedText a.createdAt⟩)

/-- Times are compared as texts, which the tables write with different precision. -/
def financialUnion (now : Int) (cutoff eventCutoff : String) : List FinancialCandidate :=
  (financialRoots s).filter fun c =>
    ¬ (if c.table = .providerEvents then eventCutoff else cutoff) < c.retentionAt ∧ ¬ s.held .financialRecords now c.id

def financialCandidates (now : Int) (cutoff eventCutoff : String) : List FinancialCandidate :=
  retentionBatch (fun c => (c.retentionAt, c.id)) (financialUnion s now cutoff eventCutoff)

/-- The children of an order go with it unless they are held themselves. A refund takes its query retries along. -/
def deleteOrderChildren (orderId : String) (now : Int) : RetentionStore :=
  let unheld := fun id => !s.held .financialRecords now id
  let recoveryIds := (s.db.rewardRecoveries.rows.filter (·.orderId = orderId)).map (·.id)
  { s with
    db := { s.db with
      recoveryClaims := (s.db.recoveryClaims.removeEach (fun recoveryId c => c.recoveryId = recoveryId ∧ unheld c.id)
        recoveryIds).1
      orderEventApplications := s.db.orderEventApplications.remove fun a =>
        a.orderId = orderId ∧ unheld a.providerEventRowId
      refunds := s.db.refunds.remove fun f => f.orderId = orderId ∧ unheld f.id
      rewardRecoveries := s.db.rewardRecoveries.remove fun r => r.orderId = orderId ∧ unheld r.id
      paymentAttempts := s.db.paymentAttempts.remove fun a => a.orderId = orderId ∧ unheld a.id }
    refundQueryRetries := s.refundQueryRetries.remove fun t =>
      s.db.refunds.rows.any fun f => f.id = t.refundId ∧ f.orderId = orderId ∧ unheld f.id }

def deleteFinancialRoot (c : FinancialCandidate) (now : Int) : Bool × RetentionStore :=
  match c.table with
  | .orders =>
    let s := deleteOrderChildren s c.id now
    (s.db.storeOrders.count (·.id = c.id) = 1,
      { s with db := { s.db with storeOrders := s.db.storeOrders.remove (·.id = c.id) } })
  | .providerEvents =>
    (s.db.providerEvents.count (·.id = c.id) = 1,
      { s with
        db := { s.db with
          orderEventApplications := s.db.orderEventApplications.remove (·.providerEventRowId = c.id)
          providerEvents := s.db.providerEvents.remove (·.id = c.id) } })
  | .billingLedger =>
    (s.db.billingLedger.count (·.id = c.id) = 1,
      { s with db := { s.db with billingLedger := s.db.billingLedger.remove (·.id = c.id) } })
  | .refunds =>
    (s.db.refunds.count (·.id = c.id) = 1,
      { s with
        db := { s.db with refunds := s.db.refunds.remove (·.id = c.id) }
        refundQueryRetries := s.refundQueryRetries.remove (·.refundId = c.id) })
  | .recoveryClaims =>
    (s.db.recoveryClaims.count (·.id = c.id) = 1,
      { s with db := { s.db with recoveryClaims := s.db.recoveryClaims.remove (·.id = c.id) } })
  | .settlementReports =>
    let lines := s.settlementLines.remove fun l => l.reportId = c.id ∧ !s.held .financialRecords now l.id
    if lines.count (·.reportId = c.id) ≠ 0 then (false, { s with settlementLines := lines })
    else
      (s.settlementReports.count (·.id = c.id) = 1,
        { s with
          settlementLines := lines
          settlementReports := s.settlementReports.remove (·.id = c.id) })
  | .accessAudits =>
    (s.accessAudits.count (·.id = c.id) = 1,
      { s with accessAudits := s.accessAudits.remove (·.id = c.id) })

def deleteFinancialRoots (now : Int) (candidates : List FinancialCandidate) : Nat × RetentionStore :=
  candidates.foldl (fun (deleted, s) c =>
    let (removed, next) := deleteFinancialRoot s c now
    (deleted + removed.toNat, next)) (0, s)

def deleteFinancialRecords (now : Instant) (recordDays : Int) : Except StoreRetentionError (Nat × RetentionStore) := do
  let cutoff ← checkedSub now (days recordDays)
  let eventCutoff ← checkedSub now (days (max recordDays networkMetadataRetentionDays))
  pure (deleteFinancialRoots s (timestamp now)
    (financialCandidates s (timestamp now) (rfc3339 6 cutoff) (rfc3339 6 eventCutoff)))

def applyRetention (now : Instant) (policy : StorePrivacyRetention) :
    Except StoreRetentionError (StoreRetentionCounts × RetentionStore) := do
  let (rawCallbackBodies, s) ← clearRawCallbacks s now
  let (networkMetadata, s) ← clearNetworkMetadata s now
  let (financialRecords, s) ← deleteFinancialRecords s now policy.financialRecordsDays
  let (redemptionAudits, s) ← deleteRedemptionAudits s now
  let (expiredReauthGrants, s) ← deleteReauthGrants s now policy.expiredReauthGrantHours
  pure (⟨rawCallbackBodies, networkMetadata, financialRecords, redemptionAudits, expiredReauthGrants⟩, s)

def leastText (texts : List String) : Option String :=
  texts.foldl (fun least text => match least with
    | none => some text
    | some t => if text < t then some text else some t) none

def validNonblankText (value : String) (maxChars : Nat) : Bool :=
  trim value.toList ≠ [] ∧ value.toList.length ≤ maxChars

def validIdentifier (value : String) : Bool :=
  value ≠ "" ∧ trim value.toList = value.toList ∧ value.utf8ByteSize ≤ 255

def validateActor (actor : RetentionRunActor) : Except StoreRetentionError Unit :=
  require (validIdentifier actor.actorId ∧ (actor.actorRole = "system" ∨ actor.actorRole = "admin") ∧
    validNonblankText actor.reason 2000) .invalidInput

def validRetention (value : StorePrivacyRetention) : Bool :=
  value.rawCallbackDays = 30 ∧ value.networkMetadataDays = 90 ∧
    (1 ≤ value.financialRecordsDays ∧ value.financialRecordsDays ≤ 36500) ∧ value.redemptionAuditDays = 730 ∧
    (1 ≤ value.expiredReauthGrantHours ∧ value.expiredReauthGrantHours ≤ 24)

def canonicalTime (value : Instant) : Instant := parseTimestamp (timestamp value)

def insertAccessAudit (id actorId actorRole action reason result : String) (now : Instant) :
    Except StoreRetentionError RetentionStore := do
  let audits ← orError (.storage "UNIQUE constraint failed")
    (s.accessAudits.insert? ⟨id, actorId, actorRole, action, reason, result, timestamp now⟩)
  pure { s with accessAudits := audits }

section

-- RFC 3339 texts are read by the date library.
variable (parseTime : String → Option Instant)

def readTime (text : String) : Except StoreRetentionError Instant :=
  orError (.storage "input contains invalid characters") (parseTime text)

def olderOf (oldest : Option Instant) (texts : List String) : Except StoreRetentionError (Option Instant) :=
  match leastText texts with
  | none => pure oldest
  | some text => do
    let value ← readTime parseTime text
    pure (some (oldest.elim value (min · value)))

def oldestRemaining (s : RetentionStore) : Except StoreRetentionError (Option Instant) :=
  [s.db.providerEvents.rows.map fun e => storedText e.receivedAt,
    s.reauthGrants.rows.map fun g => storedText g.expiresAt,
    (s.db.storeOrders.rows.filter StoreOrder.isTerminal).map fun o => storedText o.contract.createdAt,
    s.db.billingLedger.rows.map fun r => r.createdAt,
    s.db.refunds.rows.map fun f => f.createdAt,
    s.db.recoveryClaims.rows.map fun c => c.createdAt,
    s.settlementReports.rows.map fun r => r.importedAt,
    s.accessAudits.rows.map fun a => storedText a.createdAt].foldlM (olderOf parseTime) none

def newestFirst (a b : PrivacyRecord) : Prop := olderFirst (b.approvedAt, b.id) (a.approvedAt, a.id)
  deriving Decidable

/-- The newest accepted record whose review period contains the run time; a malformed time ends the search. -/
def currentPolicy (records : List PrivacyRecord) (now : Instant) : PolicyLookup :=
  match records with
  | [] => .unavailable
  | record :: rest =>
    match parseTime record.approvedAt, parseTime record.nextReviewAt with
    | some approved, some review =>
      if approved ≤ now ∧ now < review then
        match record.retention with
        | some retention => .current record.policyVersion retention
        | none => .invalid record.policyVersion
      else currentPolicy rest now
    | _, _ => .invalid record.policyVersion

end

def incrementFailureLocked (runId : String) (now : Instant) (alertId : String) :
    Except StoreRetentionError RetentionStore := do
  require (0 ≤ s.retentionState.consecutiveFailures) (.storage "consecutive_failures is negative")
  let failures := s.retentionState.consecutiveFailures + 1
  require (failures < 2 ^ 63) (.storage "retention failure count overflow")
  if 3 ≤ failures ∧ s.retentionState.checkoutPaused = false then do
    let alerts ← orError (.storage "UNIQUE constraint failed")
      (s.retentionAlerts.insert? ⟨alertId, runId, failures, timestamp now⟩)
    pure { s with
      retentionAlerts := alerts
      retentionState := { s.retentionState with
        consecutiveFailures := failures
        checkoutPaused := true
        activeAlertId := some alertId
        updatedAt := timestamp now } }
  else
    pure { s with
      retentionState := { s.retentionState with
        consecutiveFailures := failures
        updatedAt := timestamp now } }

def StoreRetentionRun.withFailure (category : String) (completedAt : Int) (r : StoreRetentionRun) : StoreRetentionRun :=
  { r with
    state := .failed
    errorCategory := some category
    completedAt := some completedAt }

def StoreRetentionRun.withSuccess (counts : StoreRetentionCounts) (oldest : Option Int) (completedAt : Int)
    (r : StoreRetentionRun) : StoreRetentionRun :=
  { r with
    counts := counts
    oldestRemainingAt := oldest
    state := .succeeded
    errorCategory := none
    completedAt := some completedAt }

def closeInterrupted (ownerId : String) (now : Instant) (ids : RetentionIds) :
    Except StoreRetentionError RetentionStore := do
  let owner ← orError (.storage "active retention owner is missing") s.retentionState.currentWorkerOwnerId
  require (owner ≠ ownerId) .runActive
  let interruptedId ← orError (.storage "active retention run ID is missing") s.retentionState.currentRunId
  let closed : RetentionStore := { s with
    retentionRuns := s.retentionRuns.update (fun r => r.id = interruptedId ∧ r.state = .running)
      (StoreRetentionRun.withFailure "interrupted" (timestamp now)) }
  let counted ← incrementFailureLocked closed interruptedId now ids.interruptedAlertId
  insertAccessAudit counted ids.interruptedAuditId retentionSystemActor "system" "retention_run" "scheduled_retention"
    "failed" now

def claimRunLocked (ownerId policyVersion : String) (now : Instant) (ids : RetentionIds) :
    Except StoreRetentionError RetentionStore := do
  let s ← (if s.retentionState.runInProgress then closeInterrupted s ownerId now ids else pure s :
    Except StoreRetentionError RetentionStore)
  let runs ← orError (.storage "UNIQUE constraint failed")
    (s.retentionRuns.insert? ⟨ids.runId, ownerId, policyVersion, {}, none, .running, none, timestamp now, none⟩)
  pure { s with
    retentionRuns := runs
    retentionState := { s.retentionState with
      runInProgress := true
      currentRunId := some ids.runId
      currentWorkerOwnerId := some ownerId
      updatedAt := timestamp now } }

def isOwnRunning (runId ownerId : String) (r : StoreRetentionRun) : Bool :=
  r.id = runId ∧ r.workerOwnerId = ownerId ∧ r.state = .running

def endClaim (state : StoreRetentionState) (runId ownerId : String) (failures : Int) (now : Instant) :
    StoreRetentionState :=
  if state.currentRunId = some runId ∧ state.currentWorkerOwnerId = some ownerId then
    { state with
      runInProgress := false
      currentRunId := none
      currentWorkerOwnerId := none
      lastRunId := some runId
      consecutiveFailures := failures
      updatedAt := timestamp now }
  else state

def executeSuccess (parseTime : String → Option Instant) (s : RetentionStore) (ownerId : String) (now : Instant)
    (policy : StorePrivacyRetention) (actor : RetentionRunActor) (ids : RetentionIds) :
    Except StoreRetentionError RetentionStore := do
  let (counts, applied) ← applyRetention s now policy
  let oldest ← oldestRemaining parseTime applied
  let runs ← orError (.storage "retention worker claim was lost") (applied.retentionRuns.updateOne?
    (isOwnRunning ids.runId ownerId) (StoreRetentionRun.withSuccess counts (oldest.map timestamp) (timestamp now)))
  insertAccessAudit { applied with
    retentionRuns := runs
    retentionState := endClaim applied.retentionState ids.runId ownerId 0 now }
    ids.auditId actor.actorId actor.actorRole "retention_run" actor.reason "succeeded" now

def finalizeFailure (ownerId category : String) (now : Instant) (actor : RetentionRunActor)
    (ids : RetentionIds) : Except StoreRetentionError RetentionStore := do
  let runs ← orError (.storage "retention worker claim was lost") (s.retentionRuns.updateOne?
    (isOwnRunning ids.runId ownerId) (StoreRetentionRun.withFailure category (timestamp now)))
  let counted ← incrementFailureLocked { s with retentionRuns := runs } ids.runId now ids.alertId
  insertAccessAudit { counted with
    retentionState := endClaim counted.retentionState ids.runId ownerId counted.retentionState.consecutiveFailures now }
    ids.auditId actor.actorId actor.actorRole "retention_run" actor.reason "failed" now

def runById (id : String) : Except StoreRetentionError StoreRetentionRun :=
  orError (.storage "completed retention run is missing") (s.retentionRuns.find? (·.id = id))

def runPolicy (parseTime : String → Option Instant) (s : RetentionStore) (ownerId : String) (now : Instant)
    (policy : PolicyLookup) (actor : RetentionRunActor) (ids : RetentionIds) : Except String RetentionStore :=
  match policy with
  | .current _ retention =>
    if validRetention retention then
      match executeSuccess parseTime s ownerId now retention actor ids with
      | .ok next => .ok next
      | .error _ => .error "storage"
    else .error "privacy_policy_invalid"
  | .invalid _ => .error "privacy_policy_invalid"
  | .unavailable => .error "privacy_policy_unavailable"

/-- One run of the job: the claim, the deletions and the closing of a failed run are transactions of their own. -/
def runAt (parseTime : String → Option Instant) (s : RetentionStore) (ownerId : String) (clock : Instant)
    (actor : RetentionRunActor) (ids : RetentionIds) : RetentionStore × Except StoreRetentionError StoreRetentionRun :=
  let now := canonicalTime clock
  let policy := currentPolicy parseTime ((s.privacyRecords.rows.filter (·.accepted)).insertionSort newestFirst) now
  match (do
    validateActor actor
    claimRunLocked s ownerId policy.version now ids : Except StoreRetentionError RetentionStore) with
  | .error error => (s, .error error)
  | .ok claimed =>
    match runPolicy parseTime claimed ownerId now policy actor ids with
    | .ok next => (next, runById next ids.runId)
    | .error category =>
      match finalizeFailure claimed ownerId category now actor ids with
      | .ok next => (next, runById next ids.runId)
      | .error error => (claimed, .error error)

end Monoize
