import Monoize.RecoveryCalls
import Monoize.Thinning

/-! The operations on open refunds and claims, on a database and on the same database with another ledger and without
some rows. As long as the rows that an operation works with are kept, both runs go alike, except that a unique index of
the other ledger may refuse the row that the operation books. -/

namespace Monoize

open Fallible Relational Option Table

variable {r : RewardRecovery} {refundId claimId : String}

inductive MoneyOp
  | markRefundPending (refundId : String) (providerRefundId : Option String)
  | rejectRefund (refundId : String) (now : Instant) (ids : RecoveryIds)
  | completeRefund (refundId : String) (now : Instant)
  | winClaim (claimId : String) (now : Instant) (ids : RecoveryIds)
  | loseClaim (claimId : String) (now : Instant) (ids : RecoveryIds)

def MoneyOp.run (db : Database) : MoneyOp → Except RecoveryError (Option RefundRecord × Database)
  | .markRefundPending refundId providerRefundId =>
    (markRefundPendingOutcome db refundId providerRefundId).map (Prod.map some id)
  | .rejectRefund refundId now ids => (Monoize.rejectRefund db refundId now ids).map (Prod.map (fun _ => none) id)
  | .completeRefund refundId now => (Monoize.completeRefund db refundId now).map (Prod.map (fun _ => none) id)
  | .winClaim claimId now ids => (Monoize.winClaim db claimId now ids).map (Prod.map (fun _ => none) id)
  | .loseClaim claimId now ids => (Monoize.loseClaim db claimId now ids).map (Prod.map (fun _ => none) id)

def MoneyOp.ledgerId : MoneyOp → Option String
  | .rejectRefund _ _ ids | .winClaim _ _ ids | .loseClaim _ _ ids => some ids.ledgerId
  | .markRefundPending .. | .completeRefund .. => none

def unbooked (db : Database) : Database := { db with billingLedger := .empty }

/-- Which rows are kept: orders and recoveries by their id, refunds and claims by their id and the row they belong to. -/
structure Cut where
  order : String → Bool
  refund : String → String → Bool
  recovery : String → Bool
  claim : String → String → Bool

structure Thinned (k : Cut) (a b : Database) : Prop where
  users : b.users = a.users
  apiKeys : b.apiKeys = a.apiKeys
  balanceHolds : b.balanceHolds = a.balanceHolds
  generations : b.entitlementGenerations = a.entitlementGenerations
  lifecycle : b.entitlementLifecycle = a.entitlementLifecycle
  agents : b.salesAgents = a.salesAgents
  commissions : b.commissionEntries = a.commissionEntries
  orders : a.storeOrders.Thins b.storeOrders fun o => k.order o.id
  refunds : a.refunds.Thins b.refunds fun f => k.refund f.id f.orderId
  recoveries : a.rewardRecoveries.Thins b.rewardRecoveries fun r => k.recovery r.id
  claims : a.recoveryClaims.Thins b.recoveryClaims fun c => k.claim c.id c.recoveryId

def KeepsRecovery (k : Cut) (db : Database) (r : RewardRecovery) : Prop :=
  k.recovery r.id = true ∧
    ∀ c ∈ db.recoveryClaims.rows, c.recoveryId = r.id → c.state = .opened → k.claim c.id c.recoveryId = true

def KeepsRefund (k : Cut) (db : Database) (refundId : String) : Prop :=
  ∀ f ∈ db.refunds.rows, f.id = refundId → k.refund f.id f.orderId = true ∧ k.order f.orderId = true ∧
    ∀ c r, refundClaim db f.idempotencyKey = some (c, r) → k.claim c.id c.recoveryId = true ∧ KeepsRecovery k db r

def KeepsClaim (k : Cut) (db : Database) (claimId : String) : Prop :=
  ∀ c ∈ db.recoveryClaims.rows, c.id = claimId → k.claim c.id c.recoveryId = true ∧
    ∀ r, db.rewardRecoveries.find? (·.id = c.recoveryId) = some r → KeepsRecovery k db r ∧ k.order r.orderId = true

def MoneyOp.Keeps (k : Cut) (db : Database) : MoneyOp → Prop
  | .markRefundPending refundId _ | .rejectRefund refundId .. | .completeRefund refundId _ => KeepsRefund k db refundId
  | .winClaim claimId .. | .loseClaim claimId .. => KeepsClaim k db claimId

def Owns (ledgerId : Option String) (rows : Table BillingLedgerRow) : Prop :=
  ∀ row ∈ rows.rows, ledgerId = some row.id ∧ row.idempotencyKey ≠ none

/-- What the first run has booked is in the ledger of the second one too. -/
structure Booked (k : Cut) (ledgerId : Option String) (ledger : Table BillingLedgerRow) (a b : Database) : Prop
    extends Thinned k a b where
  rows : Owns ledgerId a.billingLedger
  appended : ledger.append? a.billingLedger = some b.billingLedger

def Refused (ledgerId : Option String) (ledger : Table BillingLedgerRow) (a : Database) (e : RecoveryError) : Prop :=
  Owns ledgerId a.billingLedger ∧ ledger.append? a.billingLedger = none ∧ e = .conflict

abbrev Books (k : Cut) (ledgerId : String) (ledger : Table BillingLedgerRow) :
    Except RecoveryError Database → Except RecoveryError Database → Prop :=
  Tracks (Booked k (some ledgerId) ledger) (Refused (some ledgerId) ledger)

abbrev BooksWith {α : Type} (k : Cut) (ledgerId : Option String) (ledger : Table BillingLedgerRow) :
    Except RecoveryError (α × Database) → Except RecoveryError (α × Database) → Prop :=
  Tracks (fun p q => p.1 = q.1 ∧ Booked k ledgerId ledger p.2 q.2) fun p => Refused ledgerId ledger p.2

/-- The databases before the operation has booked anything. -/
structure Unbooked (k : Cut) (ledger : Table BillingLedgerRow) (a b : Database) : Prop extends Thinned k a b where
  clean : a.billingLedger = .empty
  ledger : b.billingLedger = ledger

variable {k : Cut} {a b : Database} {providerRefundId : Option String}

theorem find?_recovery {db : Database} {id : String} (h : db.rewardRecoveries.find? (·.id = id) = some r) :
    ∀ r' ∈ db.rewardRecoveries.rows, r'.id = id → r' = r := by
  intro r' hr' hid
  have hr := of_find?_decide h
  exact eq_of_clashes hr' (mem_of_find? h) (.inl (hid.trans hr.symm))

theorem loadRefundMutation_rows {db : Database} {m : RefundMutation} (h : loadRefundMutation db refundId = .ok m) :
    m.refund ∈ db.refunds.rows ∧ m.refund.id = refundId ∧
      refundClaim db m.refund.idempotencyKey = some (m.claim, m.recovery) ∧ m.order.id = m.refund.orderId := by
  simp only [loadRefundMutation, ok_iff, Prod.exists] at h
  obtain ⟨f, hf, c, r, hcr, o, ho, rfl⟩ := h
  have hid := of_find?_decide hf
  have horder := of_find?_decide ho
  exact ⟨mem_of_find? hf, hid, hcr, horder⟩

theorem putPending_keeps (h : KeepsRefund k a refundId) :
    KeepsRefund k (putPending a refundId providerRefundId) refundId := by
  intro f hf hid
  obtain ⟨f', hf', rfl⟩ := List.mem_map.1 hf
  split at hid
  · rename_i hmarked
    rw [if_pos hmarked]
    exact h f' hf' hid
  · rename_i hother
    rw [if_neg hother]
    exact h f' hf' hid

variable {o : StoreOrder} {m : RefundMutation} {state : RecoveryClaimState} {ids : RecoveryIds} {ledgerId : String}
  {now : Instant} {change : BalanceChange} {userId recoveryId : String} {balance delta : Int} {otherOpen : Nat}
  {ledger : Table BillingLedgerRow} {id : Option String}

section Thinned

variable (h : Thinned k a b)

include h

theorem Thinned.recovery {id : String} (hr : a.rewardRecoveries.find? (·.id = id) = some r)
    (hkept : k.recovery r.id = true) : b.rewardRecoveries.find? (·.id = id) = some r := by
  rw [← hr]
  apply h.recoveries.find?
  intro r' hr' hid
  rw [find?_recovery hr r' hr' (of_decide_eq_true hid)]
  exact hkept

theorem Thinned.refundClaim (key : String)
    (hkept : ∀ c r, refundClaim a key = some (c, r) → k.claim c.id c.recoveryId = true ∧ k.recovery r.id = true) :
    refundClaim b key = Monoize.refundClaim a key := by
  unfold Monoize.refundClaim at hkept ⊢
  rw [h.claims]
  apply findSome?_filter
  · intro c _ hnone
    split at hnone
    · rename_i hkey
      rw [if_pos hkey, h.recoveries.find?_none (map_eq_none_iff.1 hnone)]
      rfl
    · rename_i hkey
      exact if_neg hkey
  · intro c _ cr hsome hfirst
    split at hsome
    · rename_i hkey
      obtain ⟨r, hr, rfl⟩ := map_eq_some_iff.1 hsome
      obtain ⟨hc, hrecovery⟩ := hkept c r hfirst
      rw [if_pos hkey, h.recovery hr hrecovery]
      exact ⟨hc, rfl⟩
    · cases hsome

theorem Thinned.order {orderId : String} (hkept : k.order orderId = true) :
    b.storeOrders.find? (·.id = orderId) = a.storeOrders.find? (·.id = orderId) := by
  apply h.orders.find?
  intro o _ hid
  rw [of_decide_eq_true hid]
  exact hkept

theorem Thinned.loadClaimMutation (hkeeps : KeepsClaim k a claimId) :
    loadClaimMutation b claimId = Monoize.loadClaimMutation a claimId := by
  have hclaim : b.recoveryClaims.find? (·.id = claimId) = a.recoveryClaims.find? (·.id = claimId) := by
    apply h.claims.find?
    intro c hc hid
    exact (hkeeps c hc (of_decide_eq_true hid)).1
  unfold Monoize.loadClaimMutation
  rw [hclaim]
  cases hc : a.recoveryClaims.find? (·.id = claimId) with
  | none => rfl
  | some c =>
    have hid := of_find?_decide hc
    obtain ⟨-, hrecovery⟩ := hkeeps c (mem_of_find? hc) hid
    simp only [orError_some, ok_bind]
    cases hr : a.rewardRecoveries.find? (·.id = c.recoveryId) with
    | none =>
      rw [h.recoveries.find?_none hr]
      rfl
    | some r =>
      have hkept := hrecovery r hr
      rw [h.recovery hr hkept.1.1]
      simp only [orError_some, ok_bind, h.order hkept.2]

theorem lockUserBalance_thinned : lockUserBalance b userId = lockUserBalance a userId := by
  rw [lockUserBalance, lockUserBalance, h.users]

theorem otherOpenClaims_thinned (hkeeps : KeepsRecovery k a r) (hstate : state ≠ .opened) :
    otherOpenClaims (settleClaim b claimId state) r.id claimId =
      otherOpenClaims (settleClaim a claimId state) r.id claimId := by
  apply (h.claims.update (by exact fun _ => ⟨rfl, rfl⟩)).count
  intro c hc hopen
  obtain ⟨hrecovery, -, hopen⟩ := of_decide_eq_true hopen
  obtain ⟨c', hc', rfl⟩ := List.mem_map.1 hc
  split at hopen
  · exact absurd hopen hstate
  · rename_i hother
    rw [if_neg hother] at hrecovery ⊢
    exact hkeeps.2 c' hc' hrecovery hopen

theorem putPending_thinned :
    Thinned k (putPending a refundId providerRefundId) (putPending b refundId providerRefundId) :=
  { h with refunds := h.refunds.update (by exact fun _ => ⟨rfl, rfl⟩) }

theorem endHold_thinned : Thinned k (endHold a o now) (endHold b o now) := by
  have hresumed : resumeEntitlements b o.id (timestamp now) = resumeEntitlements a o.id (timestamp now) := by
    unfold resumeEntitlements boughtBy
    rw [h.lifecycle, h.generations]
  exact { h with
    orders := h.orders.update (by exact fun _ => ⟨rfl, rfl⟩)
    balanceHolds := by rw [endHold, endHold, h.balanceHolds]
    lifecycle := hresumed }

variable (hkeeps : KeepsRefund k a refundId)

include hkeeps

theorem Thinned.refund : b.refunds.find? (·.id = refundId) = a.refunds.find? (·.id = refundId) := by
  apply h.refunds.find?
  intro f hf hid
  exact (hkeeps f hf (of_decide_eq_true hid)).1

theorem Thinned.loadRefundMutation : loadRefundMutation b refundId = Monoize.loadRefundMutation a refundId := by
  unfold Monoize.loadRefundMutation
  rw [h.refund hkeeps]
  cases hf : a.refunds.find? (·.id = refundId) with
  | none => rfl
  | some f =>
    have hid := of_find?_decide hf
    obtain ⟨-, horder, hclaim⟩ := hkeeps f (mem_of_find? hf) hid
    have hpair := h.refundClaim f.idempotencyKey fun c r hcr => ⟨(hclaim c r hcr).1, (hclaim c r hcr).2.1⟩
    simp only [orError_some, ok_bind, hpair, h.order horder]

theorem Thinned.loadRefund : loadRefund b (·.id = refundId) = Monoize.loadRefund a (·.id = refundId) := by
  unfold Monoize.loadRefund
  rw [h.refund hkeeps]
  cases hf : a.refunds.find? (·.id = refundId) with
  | none => rfl
  | some f =>
    have hid := of_find?_decide hf
    obtain ⟨-, -, hclaim⟩ := hkeeps f (mem_of_find? hf) hid
    have hpair := h.refundClaim f.idempotencyKey fun c r hcr => ⟨(hclaim c r hcr).1, (hclaim c r hcr).2.1⟩
    rw [bind_some, bind_some, hpair]

end Thinned

theorem Unbooked.booked (h : Unbooked k ledger a b) : Booked k id ledger a b where
  toThinned := h.toThinned
  rows := by
    rw [h.clean]
    nofun
  appended := by rw [h.clean, h.ledger, append?_empty]

theorem creditAgent_booked (h : Booked k id ledger a b) (agentUserId : String) (delta : Int) :
    Tracks (Booked k id ledger) (fun _ _ => False) (creditAgent a agentUserId delta) (creditAgent b agentUserId delta) := by
  unfold creditAgent
  rw [h.agents]
  apply Tracks.same
  intro agent _
  apply Tracks.same
  intro balance _
  exact .ok { h with agents := rfl }

theorem reverseCommissionForOrder_booked (h : Booked k id ledger a b) (orderId : String) (now : Int) :
    Tracks (fun p q => p.1 = q.1 ∧ Booked k id ledger p.2 q.2) (fun _ _ => False) (reverseCommissionForOrder a orderId now)
      (reverseCommissionForOrder b orderId now) := by
  unfold reverseCommissionForOrder
  rw [h.commissions]
  cases a.commissionEntries.find? fun e => e.orderId = orderId ∧ e.reversedAt = none with
  | none => exact .ok ⟨rfl, h⟩
  | some entry =>
    apply Tracks.same
    intro commission _
    have hreversed (entries : Table CommissionEntry) :
        Booked k id ledger { a with commissionEntries := entries } { b with commissionEntries := entries } :=
      { h with commissions := rfl }
    exact (creditAgent_booked (hreversed _) entry.agentUserId (-commission)).map (fun _ _ hnext => ⟨rfl, hnext⟩)
      fun _ _ hrefused => hrefused

theorem finishRefund_books {x y : Except SalesStoreError (Option Int × Database)}
    (h : Tracks (fun p q => p.1 = q.1 ∧ Booked k id ledger p.2 q.2) (fun _ _ => False) x y) :
    BooksWith k id ledger (finishRefund x) (finishRefund y) := by
  cases h with
  | error e => exact .error _
  | ok h => exact .ok ⟨rfl, h.2⟩
  | refused h => cases h

section Unbooked

variable (h : Unbooked k ledger a b)

include h

theorem settleClaim_unbooked :
    Unbooked k ledger { a with recoveryClaims := settleClaim a claimId state }
      { b with recoveryClaims := settleClaim b claimId state } :=
  { h with claims := h.claims.update (by exact fun _ => ⟨rfl, rfl⟩) }

theorem applyRecoveryDelta_books :
    Books k ledgerId ledger (applyRecoveryDelta a change ledgerId) (applyRecoveryDelta b change ledgerId) := by
  unfold applyRecoveryDelta
  apply Tracks.same
  intro balance _
  obtain ⟨rows, hrows⟩ := exists_insert (t := (empty : Table BillingLedgerRow))
    (a := recoveryRow change balance ledgerId) (fun _ hb => absurd hb List.not_mem_nil)
  have happend := append?_insert (t := ledger) hrows
  have howns : Owns (some ledgerId) rows := by
    intro row hrow
    rcases (mem_insert hrows).1 hrow with hold | rfl
    · cases hold
    · exact ⟨rfl, some_ne_none _⟩
  rw [h.clean, h.ledger, hrows]
  cases hinsert : ledger.insert? (recoveryRow change balance ledgerId) with
  | none => exact .refused ⟨howns, happend.trans hinsert, rfl⟩
  | some booked =>
    have husers : (setBalance b change.userId balance).users = (setBalance a change.userId balance).users := by
      rw [setBalance, setBalance, h.users]
    exact .ok { h.toThinned with
      users := husers
      rows := howns
      appended := happend.trans hinsert }

theorem releaseReward_books : Books k ledgerId ledger (releaseReward a o recoveryId balance delta now ledgerId)
      (releaseReward b o recoveryId balance delta now ledgerId) := by
  unfold releaseReward
  apply (applyRecoveryDelta_books h).map
  · intro credited credited' hcredited
    exact { hcredited with recoveries := hcredited.recoveries.update (by exact fun _ => ⟨rfl, rfl⟩) }
  · exact fun _ _ hrefused => hrefused

theorem releaseIfLast_books : Books k ledgerId ledger (releaseIfLast a o r otherOpen now ledgerId)
      (releaseIfLast b o r otherOpen now ledgerId) := by
  unfold releaseIfLast
  apply Tracks.same
  intro reserved _
  apply Tracks.same
  intro recovered _
  split
  · rw [lockUserBalance_thinned h.toThinned]
    apply Tracks.same
    intro balance _
    apply Tracks.same
    intro delta _
    exact releaseReward_books h
  · exact .ok h.booked

theorem completeOpenRefund_books (horder : k.order m.order.id = true) :
    BooksWith k none ledger (completeOpenRefund a refundId m now) (completeOpenRefund b refundId m now) := by
  unfold completeOpenRefund
  apply Tracks.same
  intro original _
  apply Tracks.same
  intro reserved _
  apply Tracks.same
  intro _ _
  have hupdate := h.orders.updateOne? (p := fun p => p.id = m.order.id ∧ p.paymentState = .refundPending)
    (f := StoreOrder.withPaymentState .refunded) (fun _ => rfl) (by
      intro o _ hp
      rw [(of_decide_eq_true hp).1]
      exact horder) (by exact fun _ => rfl)
  rcases hupdate with ⟨hnone, hnone'⟩ | ⟨orders, orders', hsome, hsome', horders⟩
  · rw [hnone, hnone']
    exact .error _
  rw [hsome, hsome']
  have hbooked : Booked k none ledger a b := h.booked
  have hsettled : Booked k none ledger (settledRefund a refundId m orders) (settledRefund b refundId m orders') :=
    { hbooked with
      recoveries := h.recoveries.update (by exact fun _ => ⟨rfl, rfl⟩)
      claims := h.claims.update (by exact fun _ => ⟨rfl, rfl⟩)
      refunds := h.refunds.update (by exact fun _ => ⟨rfl, rfl⟩)
      orders := horders }
  exact finishRefund_books (reverseCommissionForOrder_booked hsettled m.order.id (timestamp now))

theorem releaseWon_books : BooksWith k (some ledgerId) ledger (releaseWon a o r now ledgerId)
      (releaseWon b o r now ledgerId) := by
  unfold releaseWon
  rw [lockUserBalance_thinned h.toThinned]
  apply Tracks.same
  intro reserved _
  apply Tracks.same
  intro recovered _
  apply Tracks.same
  intro balance _
  split
  · exact (releaseReward_books h).map (fun _ _ hnext => ⟨rfl, hnext⟩) fun _ _ hrefused => hrefused
  · exact .ok ⟨rfl, h.booked⟩

theorem settleWon_books : Books k ledgerId ledger (settleWon a o r now ledgerId) (settleWon b o r now ledgerId) := by
  unfold settleWon
  apply (releaseWon_books h).map
  · rintro ⟨balance, next⟩ ⟨_, next'⟩ ⟨rfl, hnext⟩
    dsimp only
    split
    · exact { hnext with toThinned := endHold_thinned hnext.toThinned }
    · exact hnext
  · rintro ⟨balance, next⟩ e hrefused
    dsimp only
    split <;> exact hrefused

theorem debitLoss_books : Books k ledgerId ledger (debitLoss a o r now ledgerId) (debitLoss b o r now ledgerId) := by
  unfold debitLoss
  apply Tracks.same
  intro remaining _
  split
  · rw [lockUserBalance_thinned h.toThinned]
    apply Tracks.same
    intro balance _
    exact applyRecoveryDelta_books h
  · exact .ok h.booked

theorem winClaim_books (hkeeps : KeepsClaim k a claimId) :
    BooksWith k (some ids.ledgerId) ledger (winClaim a claimId now ids) (winClaim b claimId now ids) := by
  unfold winClaim
  rw [h.loadClaimMutation hkeeps]
  apply Tracks.same
  intro m hm
  have hrows := loadClaimMutation_inv hm
  have hid := of_find?_decide hrows.claim
  have hrecovery := ((hkeeps m.claim (mem_of_find? hrows.claim) hid).2 m.recovery hrows.recovery).1
  have hsettled := @settleClaim_unbooked claimId k a b .resolved ledger h
  split
  · exact .ok ⟨rfl, h.booked⟩
  · exact .error _
  have hother := @otherOpenClaims_thinned _ claimId _ _ _ .resolved h.toThinned hrecovery nofun
  dsimp only
  rw [hother]
  split
  · exact (settleWon_books hsettled).map (fun _ _ hnext => ⟨rfl, hnext⟩) fun _ _ hrefused => hrefused
  · exact .ok ⟨rfl, hsettled.booked⟩

theorem loseClaim_books (hkeeps : KeepsClaim k a claimId) :
    BooksWith k (some ids.ledgerId) ledger (loseClaim a claimId now ids) (loseClaim b claimId now ids) := by
  unfold loseClaim
  rw [h.loadClaimMutation hkeeps]
  apply Tracks.same
  intro m _
  split
  · exact .ok ⟨rfl, h.booked⟩
  · exact .error _
  refine (debitLoss_books h).map ?_ fun _ _ hrefused => hrefused
  intro debited debited' hdebited
  have hrevoked : revokeEntitlements debited' m.order.id (timestamp now) =
      revokeEntitlements debited m.order.id (timestamp now) := by
    unfold revokeEntitlements boughtBy
    rw [hdebited.lifecycle, hdebited.generations]
  have hholds : putHold debited'.balanceHolds m.order.contract.userId "payment_loss" (timestamp now) =
      putHold debited.balanceHolds m.order.contract.userId "payment_loss" (timestamp now) := by
    rw [hdebited.balanceHolds]
  exact ⟨rfl, { hdebited with
    recoveries := hdebited.recoveries.update (by exact fun _ => ⟨rfl, rfl⟩)
    claims := hdebited.claims.update (by exact fun _ => ⟨rfl, rfl⟩)
    orders := hdebited.orders.update (by exact fun _ => ⟨rfl, rfl⟩)
    balanceHolds := hholds
    lifecycle := hrevoked }⟩

variable (hkeeps : KeepsRefund k a refundId)

include hkeeps

theorem rejectRefund_books :
    BooksWith k (some ids.ledgerId) ledger (rejectRefund a refundId now ids) (rejectRefund b refundId now ids) := by
  unfold rejectRefund
  rw [h.loadRefundMutation hkeeps]
  apply Tracks.same
  intro m hm
  obtain ⟨hrefund, hid, hclaim, -⟩ := loadRefundMutation_rows hm
  have hrecovery := ((hkeeps m.refund hrefund hid).2.2 m.claim m.recovery hclaim).2
  split
  · exact .ok ⟨rfl, h.booked⟩
  · exact .error _
  have hother := @otherOpenClaims_thinned _ m.claim.id _ _ _ .resolved h.toThinned hrecovery nofun
  dsimp only
  rw [hother]
  refine (releaseIfLast_books (settleClaim_unbooked h)).map ?_ fun _ _ hrefused => hrefused
  intro released released' hreleased
  exact ⟨rfl, { hreleased with
    refunds := hreleased.refunds.update (by exact fun _ => ⟨rfl, rfl⟩)
    orders := hreleased.orders.update (by exact fun _ => ⟨rfl, rfl⟩) }⟩

theorem completeRefund_books :
    BooksWith k none ledger (completeRefund a refundId now) (completeRefund b refundId now) := by
  unfold completeRefund
  rw [h.loadRefundMutation hkeeps]
  apply Tracks.same
  intro m hm
  obtain ⟨hrefund, hid, -, horder⟩ := loadRefundMutation_rows hm
  split
  · exact .ok ⟨rfl, h.booked⟩
  · exact .error _
  apply completeOpenRefund_books h
  rw [horder]
  exact (hkeeps m.refund hrefund hid).2.1

theorem markRefundPendingOutcome_books :
    BooksWith k none ledger (markRefundPendingOutcome a refundId providerRefundId)
      (markRefundPendingOutcome b refundId providerRefundId) := by
  have hput (provider : Option String) :
      BooksWith k none ledger (do
        let record ← orError .notFound (loadRefund (putPending a refundId provider) (·.id = refundId))
        pure (record, putPending a refundId provider) : Except RecoveryError (RefundRecord × Database)) (do
        let record ← orError .notFound (loadRefund (putPending b refundId provider) (·.id = refundId))
        pure (record, putPending b refundId provider)) := by
    have hnext := @putPending_thinned refundId k a b provider h.toThinned
    rw [hnext.loadRefund (putPending_keeps hkeeps)]
    apply Tracks.same
    intro record _
    exact .ok ⟨rfl, { h.booked with toThinned := hnext }⟩
  unfold markRefundPendingOutcome markRefundPendingOutcomeIn
  apply Tracks.same
  intro _ _
  rw [h.loadRefund hkeeps]
  apply Tracks.same
  intro existing _
  split
  · apply Tracks.same
    intro _ _
    exact .ok ⟨rfl, h.booked⟩
  · exact hput _
  · exact .ok ⟨rfl, h.booked⟩
  · exact hput _
  · exact .error _

omit hkeeps

theorem MoneyOp.run_books (op : MoneyOp) (hkeeps : op.Keeps k a) :
    BooksWith k op.ledgerId ledger (op.run a) (op.run b) := by
  have hmap {α : Type} {f : α → Option RefundRecord} {x y : Except RecoveryError (α × Database)}
      (h : BooksWith k op.ledgerId ledger x y) :
      BooksWith k op.ledgerId ledger (x.map (Prod.map f id)) (y.map (Prod.map f id)) :=
    h.map (fun _ _ hnext => ⟨congrArg f hnext.1, hnext.2⟩) fun _ _ hrefused => hrefused
  cases op with
  | markRefundPending refundId providerRefundId => exact hmap (markRefundPendingOutcome_books h hkeeps)
  | rejectRefund refundId now ids => exact hmap (rejectRefund_books h hkeeps)
  | completeRefund refundId now => exact hmap (completeRefund_books h hkeeps)
  | winClaim claimId now ids => exact hmap (winClaim_books h hkeeps)
  | loseClaim claimId now ids => exact hmap (loseClaim_books h hkeeps)

end Unbooked

end Monoize
