import Mathlib.Data.List.Sort
import Monoize.Database
import Monoize.QuotaWindow

namespace Monoize

open Fallible MachineInt Relational

structure EntitlementGenerationInput where
  expectedGeneration : Option Int
  (userId productId productName : String)
  (startsAt endsAt : Instant)
  (rateNumerator rateDenominator : String)
  groupIds : List String
  quotas : PlanQuotas
  (sourceKind sourceId : String)

structure EntitlementGeneration where
  (id userId : String)
  generation : Int
  (productId productName : String)
  (startsAt endsAt : Instant)
  (rateNumerator rateDenominator : String)
  groupIds : List String
  quotas : PlanQuotas
  (sourceKind sourceId : String)

structure QuotaReservationInput where
  (userId requestId : String)
  maximumNanoUsd : Int
  pricingRevision : String
  now : Instant

structure QuotaReservation where
  (id requestId userId entitlementId : String)
  (generation maximumNanoUsd reservedFenCny : Int)
  (rateNumerator rateDenominator pricingRevision : String)
  (actualNanoUsd actualFenCny : Option Int)
  state : QuotaTerminalState
  admittedAt : Instant
  terminalAt : Option Instant
  bucketCount : Nat

def storageConflict : QuotaError := .storage "UNIQUE constraint failed"

variable (db : Database)

def requirePassedGate : Except QuotaError Unit :=
  require (db.backend = .postgres ∨ db.planFeaturesEnabled) (.code "quota_gate_unavailable")

def generationFromRow (g : EntitlementGenerationRow) : EntitlementGeneration where
  id := g.id
  userId := g.userId
  generation := g.generation
  productId := g.productId
  productName := g.productName
  startsAt := parseTimestamp g.startsAt
  endsAt := parseTimestamp g.endsAt
  rateNumerator := g.rateNumerator
  rateDenominator := g.rateDenominator
  groupIds := g.groupIds
  quotas := g.quotas
  sourceKind := g.sourceKind
  sourceId := g.sourceId

def generationMatchesInput (g : EntitlementGeneration) (input : EntitlementGenerationInput) : Prop :=
  g.userId = input.userId ∧ g.productId = input.productId ∧ g.productName = input.productName ∧
    g.startsAt = input.startsAt ∧ g.endsAt = input.endsAt ∧
    g.rateNumerator = input.rateNumerator ∧ g.rateDenominator = input.rateDenominator ∧
    g.groupIds = input.groupIds ∧ g.quotas = input.quotas ∧
    g.sourceKind = input.sourceKind ∧ g.sourceId = input.sourceId

instance (g : EntitlementGeneration) (input : EntitlementGenerationInput) :
    Decidable (generationMatchesInput g input) := by
  unfold generationMatchesInput
  infer_instance

def generationRow (input : EntitlementGenerationInput) (generation : Int) (id : String)
    (createdAt : Int) : EntitlementGenerationRow where
  id := id
  userId := input.userId
  generation := generation
  productId := input.productId
  productName := input.productName
  startsAt := timestamp input.startsAt
  endsAt := timestamp input.endsAt
  rateNumerator := input.rateNumerator
  rateDenominator := input.rateDenominator
  groupIds := input.groupIds
  quotas := input.quotas
  sourceKind := input.sourceKind
  sourceId := input.sourceId
  createdAt := createdAt

def replaceEntitlementTx (input : EntitlementGenerationInput) (id : String)
    (createdAt : Int) : Except QuotaError (EntitlementGeneration × Database) := do
  requirePassedGate db
  let _ ← orError (.code "plan_entitlement_user_not_found") (db.users.find? (·.id = input.userId))
  match db.entitlementGenerations.find?
      (fun g => g.sourceKind = input.sourceKind ∧ g.sourceId = input.sourceId) with
  | some row =>
    require (generationMatchesInput (generationFromRow row) input) (.code "entitlement_source_conflict")
    pure (generationFromRow row, db)
  | none =>
    let current := db.entitlementCurrent.find? (·.userId = input.userId)
    require (current.map (·.generation) = input.expectedGeneration) (.code "entitlement_generation_conflict")
    let generation ← orError (.code "entitlement_generation_conflict")
      (checked 63 ((current.map (·.generation)).getD 0 + 1))
    let row := generationRow input generation id createdAt
    let generations ← orError storageConflict (db.entitlementGenerations.insert? row)
    let lifecycle ← orError storageConflict (db.entitlementLifecycle.insert? ⟨id, none, none, none, none, createdAt⟩)
    let currents ← orError storageConflict (match current with
      | some expected => db.entitlementCurrent.update?
          (fun c => c.userId = input.userId ∧ c.generation = expected.generation)
          (fun c => { c with entitlementId := id, generation := generation, updatedAt := createdAt })
      | none => db.entitlementCurrent.insert? ⟨input.userId, id, generation, createdAt⟩)
    pure ({ generationFromRow row with startsAt := input.startsAt, endsAt := input.endsAt },
      { db with
        entitlementGenerations := generations
        entitlementLifecycle := lifecycle
        entitlementCurrent := currents })

def parseAmount? : Option Int → Except QuotaError (Option Int)
  | some value => some <$> parseCanonical (toString value)
  | none => pure none

def reservationFromRow (row : QuotaReservationRow) : Except QuotaError QuotaReservation := do
  let maximum ← parseCanonical (toString row.maximumNanoUsd)
  let reserved ← parseCanonical (toString row.reservedFenCny)
  let actualNano ← parseAmount? row.actualNanoUsd
  let actualFen ← parseAmount? row.actualFenCny
  pure
    { id := row.id
      requestId := row.requestId
      userId := row.userId
      entitlementId := row.entitlementId
      generation := row.generation
      maximumNanoUsd := maximum
      reservedFenCny := reserved
      rateNumerator := row.rateNumerator
      rateDenominator := row.rateDenominator
      pricingRevision := row.pricingRevision
      actualNanoUsd := actualNano
      actualFenCny := actualFen
      state := row.state
      admittedAt := parseTimestamp row.admittedAt
      terminalAt := row.terminalAt.map parseTimestamp
      bucketCount := db.quotaReservationBuckets.count (·.reservationId = row.id) }

structure BucketBinding where
  rule : PlanQuota
  id : String
  window : QuotaWindow

def bucketPayload (entitlementId : String) (generation : Int) (ruleId : String) (start stop : Int) : String :=
  entitlementId ++ "\x00" ++ toString generation ++ "\x00" ++ ruleId ++ "\x00" ++
    toString start ++ "\x00" ++ toString stop

def bucketId [Sha256] (entitlementId : String) (generation : Int) (rule : PlanQuota) (window : QuotaWindow) : String :=
  "quota-bucket-" ++ sha256 (bucketPayload entitlementId generation rule.id
    (timestamp window.start) (timestamp window.stop))

def bucketBindings [Sha256] (entitlement : EntitlementGeneration) (now : Instant) :
    List PlanQuota → Except QuotaError (List BucketBinding)
  | [] => pure []
  | rule :: rules => do
    let window ← quotaWindow rule.windowKind rule.windowSeconds now
    let rest ← bucketBindings entitlement now rules
    pure (⟨rule, bucketId entitlement.id entitlement.generation rule window, window⟩ :: rest)

def bindingLe (a b : BucketBinding) : Prop :=
  timestamp a.window.stop < timestamp b.window.stop ∨ (timestamp a.window.stop = timestamp b.window.stop ∧
    (a.rule.id < b.rule.id ∨ (a.rule.id = b.rule.id ∧ a.id ≤ b.id)))
  deriving Decidable

def freshBucket (entitlement : EntitlementGeneration) (now : Instant) (binding : BucketBinding) : QuotaBucket where
  id := binding.id
  entitlementId := entitlement.id
  generation := entitlement.generation
  quotaRuleId := binding.rule.id
  windowKind := binding.rule.windowKind
  windowStart := timestamp binding.window.start
  windowEnd := timestamp binding.window.stop
  settledFenCny := 0
  reservedFenCny := 0
  quotaFenCny := binding.rule.quotaFenCny
  updatedAt := timestamp now

def insertBucket (buckets : Table QuotaBucket) (row : QuotaBucket) : Except QuotaError (Table QuotaBucket) :=
  if (buckets.find? (·.id = row.id)).isSome then pure buckets
  else orError storageConflict (buckets.insert? row)

def insertBuckets (entitlement : EntitlementGeneration) (now : Instant) (buckets : Table QuotaBucket) :
    List BucketBinding → Except QuotaError (Table QuotaBucket)
  | [] => pure buckets
  | binding :: bindings => do
    let next ← insertBucket buckets (freshBucket entitlement now binding)
    insertBuckets entitlement now next bindings

def activeBuckets (buckets : Table QuotaBucket) (entitlement : EntitlementGeneration) (now : Instant) :
    List QuotaBucket :=
  buckets.rows.filter fun b => b.entitlementId = entitlement.id ∧
    b.generation = entitlement.generation ∧ timestamp now < b.windowEnd

structure BucketUsage where
  usedByRule : String → Int
  reservedByBucket : String → Option Int

def bucketUsage : List QuotaBucket → BucketUsage → Except QuotaError BucketUsage
  | [], usage => pure usage
  | b :: bs, usage => do
    let settled ← parseCanonical (toString b.settledFenCny)
    let reserved ← parseCanonical (toString b.reservedFenCny)
    let used ← orError overflow (checked 127 (usage.usedByRule b.quotaRuleId + settled))
    let used ← orError overflow (checked 127 (used + reserved))
    bucketUsage bs
      { usedByRule := Function.update usage.usedByRule b.quotaRuleId used
        reservedByBucket := Function.update usage.reservedByBucket b.id (some reserved) }

def reserveBuckets (usage : BucketUsage) (reservedFen : Int) (now : Instant) (buckets : Table QuotaBucket) :
    List BucketBinding → Except QuotaError (Table QuotaBucket)
  | [] => pure buckets
  | binding :: bindings => do
    let quota ← parseCanonical binding.rule.quotaFenCny
    let used ← orError overflow (checked 127 (usage.usedByRule binding.rule.id + reservedFen))
    require (used ≤ quota) (.code "plan_quota_exhausted")
    let reserved ← orError (.storage "quota bucket disappeared") (usage.reservedByBucket binding.id)
    let target ← orError overflow (checked 127 (reserved + reservedFen))
    reserveBuckets usage reservedFen now
      (buckets.update (·.id = binding.id)
        (fun b => { b with reservedFenCny := target, updatedAt := timestamp now }) fun _ => rfl)
      bindings

def insertLinks (reservationId : String) (reservedFen : Int) (links : Table QuotaReservationBucket) :
    List BucketBinding → Except QuotaError (Table QuotaReservationBucket)
  | [] => pure links
  | binding :: bindings => do
    let next ← orError storageConflict (links.insert? ⟨reservationId, binding.id, reservedFen⟩)
    insertLinks reservationId reservedFen next bindings

def reservedFen (entitlement : EntitlementGeneration) (maximumNanoUsd : Int) : Except QuotaError Int := do
  let numerator ← parseCanonical entitlement.rateNumerator
  let denominator ← parseCanonical entitlement.rateDenominator
  let scaled ← orError overflow (checked 127 (denominator * nanoUsdPerCent))
  ceilProductRatio maximumNanoUsd numerator scaled

def currentEntitlement (userId : String) : Option (EntitlementGenerationRow × EntitlementLifecycle) := do
  let current ← db.entitlementCurrent.find? (·.userId = userId)
  let generation ← db.entitlementGenerations.find? (·.id = current.entitlementId)
  let lifecycle ← db.entitlementLifecycle.find? (·.entitlementId = generation.id)
  pure (generation, lifecycle)

def admissibleEntitlement (input : QuotaReservationInput) : Except QuotaError EntitlementGeneration := do
  requirePassedGate db
  require (db.balanceHolds.count (fun h => h.userId = input.userId ∧ h.active) = 0) (.code "plan_payment_hold")
  require (db.quotaAdmissionBlocks.count (fun b => b.userId = input.userId ∧ b.clearedAt = none) = 0)
    (.code "plan_quota_violation_blocked")
  let (row, lifecycle) ← orError (.code "plan_entitlement_inactive") (currentEntitlement db input.userId)
  require (lifecycle.suspendedAt = none ∧ lifecycle.revokedAt = none) (.code "plan_entitlement_inactive")
  let entitlement := generationFromRow row
  require (entitlement.startsAt ≤ input.now ∧ input.now < entitlement.endsAt) (.code "plan_entitlement_inactive")
  pure entitlement

def reservationRow (entitlement : EntitlementGeneration) (input : QuotaReservationInput) (fen : Int)
    (id : String) : QuotaReservationRow where
  id := id
  requestId := input.requestId
  entitlementId := entitlement.id
  generation := entitlement.generation
  userId := input.userId
  maximumNanoUsd := input.maximumNanoUsd
  reservedFenCny := fen
  rateNumerator := entitlement.rateNumerator
  rateDenominator := entitlement.rateDenominator
  pricingRevision := input.pricingRevision
  actualNanoUsd := none
  actualFenCny := none
  state := .reserved
  admittedAt := timestamp input.now
  terminalAt := none
  updatedAt := timestamp input.now

def admitNew [Sha256] (db : Database) (input : QuotaReservationInput)
    (id : String) : Except QuotaError (QuotaReservation × Database) := do
  let entitlement ← admissibleEntitlement db input
  let fen ← reservedFen entitlement input.maximumNanoUsd
  let unsorted ← bucketBindings entitlement input.now entitlement.quotas.rules
  let bindings := unsorted.insertionSort bindingLe
  let buckets ← insertBuckets entitlement input.now db.quotaBuckets bindings
  let usage ← bucketUsage (activeBuckets buckets entitlement input.now) ⟨fun _ => 0, fun _ => none⟩
  let buckets ← reserveBuckets usage fen input.now buckets bindings
  let row := reservationRow entitlement input fen id
  let reservations ← orError storageConflict (db.quotaReservations.insert? row)
  let links ← insertLinks id fen db.quotaReservationBuckets bindings
  pure
    ({ id := id
       requestId := input.requestId
       userId := input.userId
       entitlementId := entitlement.id
       generation := entitlement.generation
       maximumNanoUsd := input.maximumNanoUsd
       reservedFenCny := fen
       rateNumerator := entitlement.rateNumerator
       rateDenominator := entitlement.rateDenominator
       pricingRevision := input.pricingRevision
       actualNanoUsd := none
       actualFenCny := none
       state := .reserved
       admittedAt := input.now
       terminalAt := none
       bucketCount := bindings.length },
     { db with
       quotaBuckets := buckets
       quotaReservations := reservations
       quotaReservationBuckets := links })

def currentBinding (userId : String) : Option (String × Int) :=
  (db.entitlementCurrent.find? (·.userId = userId)).map fun c => (c.entitlementId, c.generation)

def reserveTx [Sha256] (db : Database) (input : QuotaReservationInput)
    (expectedEntitlement : Option (String × Int)) (id : String) :
    Except QuotaError (QuotaReservation × Database) := do
  require (expectedEntitlement = none ∨ currentBinding db input.userId = expectedEntitlement)
    (.code "plan_entitlement_inactive")
  match db.quotaReservations.find? (·.requestId = input.requestId) with
  | some row =>
    let existing ← reservationFromRow db row
    require (existing.userId = input.userId ∧ existing.maximumNanoUsd = input.maximumNanoUsd ∧
      existing.pricingRevision = input.pricingRevision ∧
      currentBinding db input.userId = some (existing.entitlementId, existing.generation))
      (.code "quota_idempotency_conflict")
    pure (existing, db)
  | none => admitNew db input id

structure LinkedBucket where
  bucketId : String
  (linkedReservedFenCny settledFenCny reservedFenCny : Int)

def linkedBuckets (reservationId : String) : List LinkedBucket :=
  (db.quotaReservationBuckets.rows.filter (·.reservationId = reservationId)).filterMap fun l =>
    (db.quotaBuckets.find? (·.id = l.bucketId)).map fun b =>
      ⟨b.id, l.reservedFenCny, b.settledFenCny, b.reservedFenCny⟩

def settleBuckets (actualFen : Option Int) (now : Instant) (buckets : Table QuotaBucket) :
    List LinkedBucket → Except QuotaError (Table QuotaBucket)
  | [] => pure buckets
  | link :: links => do
    let linked ← parseCanonical (toString link.linkedReservedFenCny)
    let current ← parseCanonical (toString link.reservedFenCny)
    let reserved ← orError (.storage "quota reservation conservation failed") (checked 127 (current - linked))
    let before ← parseCanonical (toString link.settledFenCny)
    let settled ← orError overflow (checked 127 (before + actualFen.getD 0))
    settleBuckets actualFen now
      (buckets.update (·.id = link.bucketId)
        (fun b => { b with settledFenCny := settled, reservedFenCny := reserved, updatedAt := timestamp now })
        fun _ => rfl)
      links

def actualFenCny (existing : QuotaReservation) : Option Int → Except QuotaError (Option Int)
  | none => pure none
  | some actual => do
    let numerator ← parseCanonical existing.rateNumerator
    let denominator ← parseCanonical existing.rateDenominator
    let scaled ← orError overflow (checked 127 (denominator * nanoUsdPerCent))
    some <$> roundProductRatio actual numerator scaled

def sameTerminal (existing : QuotaReservation) (actualNanoUsd : Option Int) : Prop :=
  match existing.state, actualNanoUsd with
  | .released, none => True
  | .settled, some actual | .violated, some actual => existing.actualNanoUsd = some actual
  | _, _ => False

instance (existing : QuotaReservation) (actualNanoUsd : Option Int) :
    Decidable (sameTerminal existing actualNanoUsd) := by
  unfold sameTerminal
  split <;> infer_instance

def terminalState (actualFen : Option Int) (reservedFen : Int) : QuotaTerminalState :=
  match actualFen with
  | none => .released
  | some actual => if reservedFen < actual then .violated else .settled

def insertViolation (violations : Table QuotaViolation) (row : QuotaViolation) : Option (Table QuotaViolation) :=
  if (violations.find? (·.reservationId = row.reservationId)).isSome then some violations
  else violations.insert? row

def upsertAdmissionBlock (blocks : Table QuotaAdmissionBlock) (row : QuotaAdmissionBlock) :
    Option (Table QuotaAdmissionBlock) :=
  if (blocks.find? (·.userId = row.userId)).isSome then blocks.update? (·.userId = row.userId) fun _ => row
  else blocks.insert? row

def recordViolation (existing : QuotaReservation) (actualFen : Option Int) (now : Instant)
    (violationId : String) : Except QuotaError Database :=
  match actualFen with
  | none => pure db
  | some actual =>
    if existing.reservedFenCny < actual then do
      let violations ← orError storageConflict (insertViolation db.quotaViolations
        ⟨violationId, existing.id, existing.requestId, existing.userId, existing.entitlementId,
          existing.generation, existing.reservedFenCny, actual, timestamp now⟩)
      let blocks ← orError storageConflict (upsertAdmissionBlock db.quotaAdmissionBlocks
        ⟨existing.userId, violationId, existing.entitlementId, existing.generation, timestamp now, none⟩)
      pure { db with quotaViolations := violations, quotaAdmissionBlocks := blocks }
    else pure db

def terminatedRow (actualNanoUsd actualFen : Option Int) (now : Instant) (r : QuotaReservationRow) :
    QuotaReservationRow :=
  { r with
    actualNanoUsd := actualNanoUsd
    actualFenCny := actualFen
    state := terminalState actualFen r.reservedFenCny
    terminalAt := some (timestamp now)
    updatedAt := timestamp now }

def terminalTx (reservationId : String) (actualNanoUsd : Option Int) (now : Instant)
    (violationId : String) : Except QuotaError (QuotaReservation × Database) := do
  let row ← orError (.code "quota_reservation_not_found") (db.quotaReservations.find? (·.id = reservationId))
  let existing ← reservationFromRow db row
  if existing.state ≠ .reserved then
    require (sameTerminal existing actualNanoUsd) (.code "quota_terminal_conflict")
    pure (existing, db)
  else
    let actualFen ← actualFenCny existing actualNanoUsd
    let links := linkedBuckets db reservationId
    require (links.length = existing.bucketCount) (.storage "quota reservation bucket links changed")
    let buckets ← settleBuckets actualFen now db.quotaBuckets links
    let settled : Database := { db with
      quotaBuckets := buckets
      quotaReservations := db.quotaReservations.update (fun r => r.id = reservationId ∧ r.state = .reserved)
        (terminatedRow actualNanoUsd actualFen now) }
    let next ← recordViolation settled existing actualFen now violationId
    pure ({ existing with
      actualNanoUsd := actualNanoUsd
      actualFenCny := actualFen
      state := terminalState actualFen existing.reservedFenCny
      terminalAt := some now }, next)

end Monoize
