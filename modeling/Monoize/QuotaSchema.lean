import Monoize.Table

/-! The tables that plan entitlements and quota admission read and write. Amount columns that only
ever hold printed integers are integers here; time columns are microseconds. -/

namespace Monoize

open Relational

inductive WindowKind
  | fiveHours | twelveHours | day | week | month | custom
  deriving DecidableEq

structure PlanQuota where
  id : String
  windowKind : WindowKind
  windowSeconds : Int
  quotaFenCny : String
  sortOrder : Int
  deriving DecidableEq

structure PlanQuotas where
  rules : List PlanQuota
  distinct : (rules.map PlanQuota.id).Nodup
  deriving DecidableEq

structure EntitlementGenerationRow where
  (id userId : String)
  generation : Int
  (productId productName : String)
  (startsAt endsAt : Int)
  (rateNumerator rateDenominator : String)
  groupIds : List String
  quotas : PlanQuotas
  (sourceKind sourceId : String)
  createdAt : Int
  deriving DecidableEq

structure EntitlementLifecycle where
  entitlementId : String
  suspendedAt : Option Int
  suspensionReason : Option String
  revokedAt : Option Int
  revocationReason : Option String
  updatedAt : Int

structure EntitlementCurrent where
  (userId entitlementId : String)
  (generation updatedAt : Int)

inductive QuotaTerminalState
  | reserved | settled | released | violated
  deriving DecidableEq

structure QuotaBucket where
  (id entitlementId : String)
  generation : Int
  quotaRuleId : String
  windowKind : WindowKind
  (windowStart windowEnd settledFenCny reservedFenCny : Int)
  quotaFenCny : String
  updatedAt : Int
  deriving DecidableEq

structure QuotaReservationRow where
  (id requestId entitlementId : String)
  generation : Int
  userId : String
  (maximumNanoUsd reservedFenCny : Int)
  (rateNumerator rateDenominator pricingRevision : String)
  (actualNanoUsd actualFenCny : Option Int)
  state : QuotaTerminalState
  admittedAt : Int
  terminalAt : Option Int
  updatedAt : Int

structure QuotaReservationBucket where
  (reservationId bucketId : String)
  reservedFenCny : Int

structure QuotaViolation where
  (id reservationId requestId userId entitlementId : String)
  (generation reservedFenCny actualFenCny detectedAt : Int)

structure QuotaAdmissionBlock where
  (userId violationId entitlementId : String)
  (generation blockedAt : Int)
  clearedAt : Option Int

instance : Keyed EntitlementGenerationRow where
  Key := String × (String × Int) × (String × String)
  key g := (g.id, (g.userId, g.generation), (g.sourceKind, g.sourceId))
  Clash k l := k.1 = l.1 ∨ k.2.1 = l.2.1 ∨ k.2.2 = l.2.2
  clash_symm := Or.imp Eq.symm (Or.imp Eq.symm Eq.symm)

instance : Keyed EntitlementLifecycle := .on (·.entitlementId)

instance : Keyed EntitlementCurrent := .either (·.userId) (·.entitlementId)

instance : Keyed QuotaBucket :=
    .either (·.id) fun b => (b.entitlementId, b.generation, b.quotaRuleId, b.windowStart, b.windowEnd)

instance : Keyed QuotaReservationRow := .either (·.id) (·.requestId)

instance : Keyed QuotaReservationBucket where
  Key := String × String
  key l := (l.reservationId, l.bucketId)

instance : Keyed QuotaViolation := .either (·.id) (·.reservationId)

instance : Keyed QuotaAdmissionBlock := .either (·.userId) (·.violationId)

theorem QuotaBucket.clashes_of_id {a b : QuotaBucket} (h : a.id = b.id) : Clashes a b := .inl h

theorem QuotaReservationRow.clashes_of_id {a b : QuotaReservationRow} (h : a.id = b.id) :
    Clashes a b := .inl h

theorem QuotaReservationBucket.clashes_iff {a b : QuotaReservationBucket} :
    Clashes a b ↔ a.reservationId = b.reservationId ∧ a.bucketId = b.bucketId := Prod.mk.injEq .. ▸ Iff.rfl

end Monoize
