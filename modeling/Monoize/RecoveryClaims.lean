import Monoize.Recovery

/-! Disputes and chargebacks: a verified claim freezes what is left of the reward and puts the user on hold. -/

namespace Monoize

open CivilTime Fallible MachineInt Relational

structure ClaimRecord where
  claim : RecoveryClaim
  orderId : String

variable (db : Database) (o : StoreOrder) (recovery : RewardRecovery)

def loadClaim (p : RecoveryClaim → Bool) : Option ClaimRecord :=
  (db.recoveryClaims.find? p).bind fun c =>
    (db.rewardRecoveries.find? (·.id = c.recoveryId)).map fun r => ⟨c, r.orderId⟩

structure ClaimMutation where
  claim : RecoveryClaim
  recovery : RewardRecovery
  order : StoreOrder

def loadClaimMutation (claimId : String) : Except RecoveryError ClaimMutation := do
  let claim ← orError .notFound (db.recoveryClaims.find? (·.id = claimId))
  let recovery ← orError .notFound (db.rewardRecoveries.find? (·.id = claim.recoveryId))
  let order ← orError .notFound (db.storeOrders.find? (·.id = recovery.orderId))
  pure ⟨claim, recovery, order⟩

def StoreOrder.withDispute (state : DisputeState) (hold : Bool) (o : StoreOrder) : StoreOrder :=
  { o with
    disputeState := state
    paymentHold := hold
    stateRevision := o.stateRevision + 1 }

def disputeOrder (orders : Table StoreOrder) (orderId : String) (state : DisputeState) (hold : Bool) : Table StoreOrder :=
  orders.update (·.id = orderId) (StoreOrder.withDispute state hold)

def BalanceHold.withOpened (reason : String) (now : Int) (h : BalanceHold) : BalanceHold :=
  { h with
    active := true
    reason := reason
    openedAt := now
    clearedAt := none }

/-- `INSERT … ON CONFLICT (user_id) DO UPDATE`. -/
def putHold (holds : Table BalanceHold) (userId reason : String) (now : Int) : Table BalanceHold :=
  (holds.insert? ⟨userId, true, reason, now, none⟩).getD
    (holds.update (·.userId = userId) (BalanceHold.withOpened reason now))

def BalanceHold.withCleared (now : Int) (h : BalanceHold) : BalanceHold :=
  { h with
    active := false
    clearedAt := some now }

def clearHold (holds : Table BalanceHold) (userId : String) (now : Int) : Table BalanceHold :=
  holds.update (·.userId = userId) (BalanceHold.withCleared now)

def boughtBy (orderId : String) (p : EntitlementGenerationRow → Bool) (l : EntitlementLifecycle) : Bool :=
  db.entitlementGenerations.rows.any fun g =>
    g.id = l.entitlementId ∧ g.sourceKind = "order" ∧ g.sourceId = orderId ∧ p g

def EntitlementLifecycle.withSuspended (now : Int) (l : EntitlementLifecycle) : EntitlementLifecycle :=
  { l with
    suspendedAt := some now
    suspensionReason := some "payment_dispute"
    updatedAt := now }

def EntitlementLifecycle.withResumed (now : Int) (l : EntitlementLifecycle) : EntitlementLifecycle :=
  { l with
    suspendedAt := none
    suspensionReason := none
    updatedAt := now }

def EntitlementLifecycle.withRevoked (now : Int) (l : EntitlementLifecycle) : EntitlementLifecycle :=
  { l with
    revokedAt := some now
    revocationReason := some "payment_loss"
    updatedAt := now }

def suspendEntitlements (orderId : String) (now : Int) : Table EntitlementLifecycle :=
  db.entitlementLifecycle.update
    (fun l => boughtBy db orderId (fun _ => true) l ∧ l.suspendedAt = none ∧ l.revokedAt = none)
    (EntitlementLifecycle.withSuspended now)

def resumeEntitlements (orderId : String) (now : Int) : Table EntitlementLifecycle :=
  db.entitlementLifecycle.update
    (fun l => boughtBy db orderId (fun g => now < g.endsAt) l ∧ l.suspensionReason = some "payment_dispute" ∧
      l.revokedAt = none)
    (EntitlementLifecycle.withResumed now)

def revokeEntitlements (orderId : String) (now : Int) : Table EntitlementLifecycle :=
  db.entitlementLifecycle.update (fun l => boughtBy db orderId (fun _ => true) l ∧ l.revokedAt = none)
    (EntitlementLifecycle.withRevoked now)

def claimReserve (recoveryId : String) (original : Nat) (now : Instant)
    (ledgerId : String) : Except RecoveryError Database := do
  let recovery ← orError .notFound (db.rewardRecoveries.find? (·.id = recoveryId))
  let reserved ← parseNonnegative (toString recovery.reservedNanoUsd)
  let recovered ← parseNonnegative (toString recovery.recoveredNanoUsd)
  if original ≠ 0 ∧ reserved = 0 ∧ recovered = 0 then do
    let balance ← lockUserBalance db o.contract.userId
    let reserve := min original balance.toNat
    if reserve ≠ 0 then
      reserveReward db o recoveryId balance reserve (wrapping 127 (-(reserve : Int))) now ledgerId
    else pure db
  else pure db

def StoreOrder.claimable : Prop :=
  o.paymentState = .paid ∨ o.paymentState = .refundPending ∨ o.paymentState = .refunded
  deriving Decidable

def paidUnder (orderId credentialVersionId : String) : Prop :=
  db.paymentAttempts.rows.any (fun a =>
    a.orderId = orderId ∧ a.credentialVersionId = credentialVersionId ∧ a.state = .paid) = true
  deriving Decidable

def openNewClaim (input : VerifiedRecoveryClaimInput) (now : Instant) (ids : RecoveryIds) :
    Except RecoveryError (ClaimRecord × Database) := do
  let o ← orError .orderNotRecoverable (db.storeOrders.find? (·.id = input.orderId))
  require (paidUnder db input.orderId input.credentialVersionId) .orderNotRecoverable
  require o.claimable .orderNotRecoverable
  let original ← originalReward db o
  let (recoveryId, ensured) ← ensureRecovery db input.orderId original ids.recoveryId
  let reserved ← claimReserve ensured o recoveryId original now ids.ledgerId
  let claims ← orError .conflict (reserved.recoveryClaims.insert?
    ⟨ids.claimId, recoveryId, input.credentialVersionId, input.providerClaimId, input.providerEventRowId, input.kind,
      original, .opened, rfc3339 3 now⟩)
  let opened : Database := { reserved with
    recoveryClaims := claims
    storeOrders := disputeOrder reserved.storeOrders input.orderId .opened true
    balanceHolds := putHold reserved.balanceHolds o.contract.userId "payment_dispute" (timestamp now)
    entitlementLifecycle := suspendEntitlements reserved input.orderId (timestamp now) }
  let record ← orError (.storage "inserted recovery claim is missing") (loadClaim opened (·.id = ids.claimId))
  pure (record, opened)

def openClaim (input : VerifiedRecoveryClaimInput) (now : Instant) (ids : RecoveryIds) :
    Except RecoveryError (ClaimRecord × Database) := do
  validateClaimInput input
  require (input.kind ≠ .refund) .invalidInput
  match loadClaim db fun c => c.credentialVersionId = input.credentialVersionId ∧
      c.providerClaimId = input.providerClaimId ∧ c.kind = input.kind with
  | some existing => do
    require (existing.orderId = input.orderId) .conflict
    pure (existing, db)
  | none => openNewClaim db input now ids

def releaseWon (now : Instant) (ledgerId : String) : Except RecoveryError (Int × Database) := do
  let reserved ← parseNonnegative (toString recovery.reservedNanoUsd)
  let recovered ← parseNonnegative (toString recovery.recoveredNanoUsd)
  let balance ← lockUserBalance db o.contract.userId
  if reserved ≠ 0 ∧ recovered = 0 then do
    let released ← releaseReward db o recovery.id balance (wrapping 127 reserved) now ledgerId
    pure (wrapping 127 (balance + wrapping 127 reserved), released)
  else pure (balance, db)

def endHold (now : Instant) : Database :=
  { db with
    storeOrders := disputeOrder db.storeOrders o.id .won false
    balanceHolds := clearHold db.balanceHolds o.contract.userId (timestamp now)
    entitlementLifecycle := resumeEntitlements db o.id (timestamp now) }

def settleWon (now : Instant) (ledgerId : String) : Except RecoveryError Database := do
  let (finalBalance, released) ← releaseWon db o recovery now ledgerId
  pure (if 0 ≤ finalBalance ∧ recovery.recoveredNanoUsd = 0 then endHold released o now else released)

def winClaim (claimId : String) (now : Instant) (ids : RecoveryIds) : Except RecoveryError (Unit × Database) := do
  let m ← loadClaimMutation db claimId
  match m.claim.state with
  | .resolved => pure ((), db)
  | .consumed => .error .conflict
  | .opened => do
    let claims := settleClaim db claimId .resolved
    let resolved : Database := { db with recoveryClaims := claims }
    if otherOpenClaims claims m.recovery.id claimId = 0 then do
      let next ← settleWon resolved m.order m.recovery now ids.ledgerId
      pure ((), next)
    else pure ((), resolved)

def remainingReward : Except RecoveryError Nat := do
  let original ← parseNonnegative (toString recovery.originalNanoUsd)
  let reserved ← parseNonnegative (toString recovery.reservedNanoUsd)
  let recovered ← parseNonnegative (toString recovery.recoveredNanoUsd)
  require (reserved ≤ original ∧ recovered ≤ original - reserved) .conflict
  pure (original - reserved - recovered)

def debitLoss (now : Instant) (ledgerId : String) : Except RecoveryError Database := do
  let remaining ← remainingReward recovery
  if remaining ≠ 0 then do
    let balance ← lockUserBalance db o.contract.userId
    applyRecoveryDelta db ⟨o.contract.userId, balance, wrapping 127 (-(remaining : Int)), "store_recovery_loss",
      recoveryKey recovery.id "loss", o.id, recovery.id, now⟩ ledgerId
  else pure db

def loseClaim (claimId : String) (now : Instant) (ids : RecoveryIds) : Except RecoveryError (Unit × Database) := do
  let m ← loadClaimMutation db claimId
  match m.claim.state with
  | .consumed => pure ((), db)
  | .resolved => .error .conflict
  | .opened => do
    let debited ← debitLoss db m.order m.recovery now ids.ledgerId
    pure ((), { debited with
      rewardRecoveries := debited.rewardRecoveries.update (·.id = m.recovery.id) RewardRecovery.withRecovered
        RewardRecovery.withRecovered_key
      recoveryClaims := settleClaim debited claimId .consumed
      storeOrders := disputeOrder debited.storeOrders m.order.id .lost true
      balanceHolds := putHold debited.balanceHolds m.order.contract.userId "payment_loss" (timestamp now)
      entitlementLifecycle := revokeEntitlements debited m.order.id (timestamp now) })

end Monoize
