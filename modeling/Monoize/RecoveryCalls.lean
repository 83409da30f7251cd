import Monoize.RecoverySteps

/-! The seven recovery operations, each described once: what it reads, what it moves and which rows it adds. -/

namespace Monoize

open Escrow Fallible MachineInt Relational Option Table

variable {db next : Database} {o : StoreOrder} {input : BeginRefundInput} {recoveryId refundId claimId : String}
  {now : Instant} {ids : RecoveryIds} {m : ClaimMutation}

variable {record : RefundRecord} {r : RewardRecovery} {released : Database} {orderId : String}

structure RefundOpened (db next : Database) (o : StoreOrder) (recoveryId key : String) : Prop where
  frame : next = { db with
    refunds := next.refunds
    recoveryClaims := next.recoveryClaims
    storeOrders := next.storeOrders }
  refund : ∃ f : Refund, f.orderId = o.id ∧ f.idempotencyKey = key ∧ f.state = .created ∧
    db.refunds.insert? f = some next.refunds
  claim : ∃ c : RecoveryClaim, c.recoveryId = recoveryId ∧ c.providerClaimId = key ∧ c.kind = .refund ∧
    c.state = .opened ∧ db.recoveryClaims.insert? c = some next.recoveryClaims
  orders : next.storeOrders = db.storeOrders.update
    (fun p => p.id = o.id ∧ p.paymentState = .paid ∧ p.stateRevision = o.stateRevision)
    (StoreOrder.withPaymentState .refundPending)

theorem withPaymentState_face (state : PaymentState) (o : StoreOrder) : (o.withPaymentState state).face = o.face := rfl

theorem openRefund_inv {attempt : PaymentAttempt} {original : Nat}
    (h : openRefund db o attempt input recoveryId original now ids = .ok next) :
    RefundOpened db next o recoveryId input.idempotencyKey := by
  simp only [openRefund, ok_iff] at h
  obtain ⟨refunds, hrefunds, claims, hclaims, orders, horders, rfl⟩ := h
  have hupdate := (updateOne?_eq_some.1 horders).2
  exact ⟨rfl, ⟨_, rfl, rfl, rfl, hrefunds⟩, ⟨_, rfl, rfl, rfl, rfl, hclaims⟩, hupdate.symm⟩

variable {outcome : RefundRecord × Bool}

theorem beginRefundWithOutcome_inv (h : beginRefundWithOutcome db input now ids = .ok (outcome, next)) :
    next = db ∨ ∃ o r ensured reserved, db.order? input.orderId = some o ∧ o.refundable ∧
      RecoveryReserved db ensured reserved o r ∧ RefundOpened reserved next o r.id input.idempotencyKey := by
  simp only [beginRefundWithOutcome, ok_iff] at h
  obtain ⟨_, -, h⟩ := h
  split at h
  · simp only [ok_iff] at h
    obtain ⟨_, -, -, rfl⟩ := h
    exact .inl rfl
  simp only [beginNewRefund, ok_iff] at h
  obtain ⟨⟨record, opened⟩, ⟨o, ho, attempt, -, _, hrefundable, original, horiginal, ⟨recoveryId, ensured⟩, hensure,
    reserved, hreserve, opened', hopen, _, -, -, rfl⟩, -, rfl⟩ := h
  obtain ⟨r, rfl, rfl, hstands⟩ := ensureRecovery_stands ho horiginal hensure
  exact .inr ⟨o, r, ensured, reserved, ho, hrefundable, hstands.refundReserve hreserve, openRefund_inv hopen⟩

theorem RefundOpened.sameBooks {key : String} (h : RefundOpened db next o recoveryId key) : SameBooks db next :=
  SameBooks.of_orders _ (by rw [h.frame]) (by rw [h.frame]) (by rw [h.frame]) h.orders (fun _ => rfl)

def Refund.isOpen (f : Refund) : Prop := f.state = .created ∨ f.state = .pending
  deriving Decidable

theorem Refund.isOpen_of_ne {f : Refund} (hfailed : f.state = .failed → False)
    (hsucceeded : f.state = .succeeded → False) : f.isOpen := by
  unfold Refund.isOpen
  cases hstate : f.state with
  | created => exact .inl rfl
  | pending => exact .inr rfl
  | succeeded => exact absurd hstate hsucceeded
  | failed => exact absurd hstate hfailed

theorem loadRefund_state (h : loadRefund db (·.id = refundId) = some record) :
    ∃ f, db.refunds.find? (·.id = refundId) = some f ∧ f.state = record.state := by
  obtain ⟨f, hf, hrecord⟩ := bind_eq_some_iff.1 h
  obtain ⟨cr, -, rfl⟩ := map_eq_some_iff.1 hrecord
  exact ⟨f, hf, rfl⟩

theorem markRefundPendingOutcomeIn_inv {providerRefundId : Option String}
    (h : markRefundPendingOutcomeIn db refundId providerRefundId = .ok (record, next)) :
    next = db ∨ ∃ f provider, db.refunds.find? (·.id = refundId) = some f ∧ f.isOpen ∧
      next = putPending db refundId provider := by
  simp only [markRefundPendingOutcomeIn, ok_iff] at h
  obtain ⟨existing, hexisting, h⟩ := h
  obtain ⟨f, hf, hstate⟩ := loadRefund_state hexisting
  split at h
  · simp only [ok_iff] at h
    obtain ⟨_, -, -, rfl⟩ := h
    exact .inl rfl
  · rename_i hpending hnone
    simp only [ok_iff] at h
    obtain ⟨_, -, -, rfl⟩ := h
    exact .inr ⟨f, _, hf, .inr (hstate.trans hpending), rfl⟩
  · cases h
    exact .inl rfl
  · rename_i hcreated
    simp only [ok_iff] at h
    obtain ⟨_, -, -, rfl⟩ := h
    exact .inr ⟨f, _, hf, .inl (hstate.trans hcreated), rfl⟩
  · cases h

structure RefundRows (db : Database) (refundId : String) (m : RefundMutation) : Prop where
  refund : db.refunds.find? (·.id = refundId) = some m.refund
  claim : m.claim ∈ db.recoveryClaims.rows ∧ m.claim.providerClaimId = m.refund.idempotencyKey ∧ m.claim.kind = .refund
  recovery : db.rewardRecoveries.find? (·.id = m.claim.recoveryId) = some m.recovery
  order : db.order? m.refund.orderId = some m.order

theorem loadRefundMutation_inv {m : RefundMutation} (h : loadRefundMutation db refundId = .ok m) :
    RefundRows db refundId m := by
  simp only [loadRefundMutation, ok_iff] at h
  obtain ⟨refund, hrefund, ⟨claim, recovery⟩, hclaim, order, horder, rfl⟩ := h
  obtain ⟨c, hc, hjoin⟩ := List.exists_of_findSome?_eq_some hclaim
  split at hjoin
  · rename_i hmatch
    obtain ⟨r, hr, heq⟩ := map_eq_some_iff.1 hjoin
    cases heq
    exact ⟨hrefund, ⟨hc, hmatch⟩, hr, horder⟩
  · cases hjoin

structure RefundRejected (db next : Database) (refundId : String) (now : Instant) (ids : RecoveryIds) (m : RefundMutation)
    (released : Database) : Prop where
  rows : RefundRows db refundId m
  isOpen : m.refund.isOpen
  release : releaseIfLast { db with recoveryClaims := settleClaim db m.claim.id .resolved } m.order m.recovery
    (otherOpenClaims (settleClaim db m.claim.id .resolved) m.recovery.id m.claim.id) now ids.ledgerId = .ok released
  result : next = { released with
    refunds := settleRefund released refundId .failed
    storeOrders := released.storeOrders.update (fun p => p.id = m.order.id ∧ p.paymentState = .refundPending)
      (StoreOrder.withPaymentState .paid) }

theorem rejectRefund_inv (h : rejectRefund db refundId now ids = .ok ((), next)) :
    next = db ∨ ∃ m released, RefundRejected db next refundId now ids m released := by
  simp only [rejectRefund, ok_iff] at h
  obtain ⟨m, hm, h⟩ := h
  split at h
  · cases h
    exact .inl rfl
  · cases h
  rename_i hfailed hsucceeded
  simp only [ok_iff] at h
  obtain ⟨released, hreleased, -, rfl⟩ := h
  exact .inr ⟨m, released, loadRefundMutation_inv hm, Refund.isOpen_of_ne hfailed hsucceeded, hreleased, rfl⟩

structure Linked (db : Database) : Prop where
  claim_recovery : ∀ c ∈ db.recoveryClaims.rows, ∃ r ∈ db.rewardRecoveries.rows, r.id = c.recoveryId
  claim_refund : ∀ c ∈ db.recoveryClaims.rows, c.kind = .refund → ∃ f ∈ db.refunds.rows,
    f.idempotencyKey = c.providerClaimId ∧ ∀ r ∈ db.rewardRecoveries.rows, r.id = c.recoveryId → r.orderId = f.orderId

theorem recovery?_of_mem (hr : r ∈ db.rewardRecoveries.rows) : db.recovery? r.orderId = some r := by
  apply find?_eq_some_of_mem hr
  · exact decide_eq_true rfl
  · intro q hq
    exact .inr (of_decide_eq_true hq)

theorem RefundRows.recovery? {m : RefundMutation} (h : RefundRows db refundId m) (hl : Linked db) :
    db.recovery? m.refund.orderId = some m.recovery := by
  obtain ⟨f, hf, hkey, horder⟩ := hl.claim_refund m.claim h.claim.1 h.claim.2.2
  have hsame : f = m.refund :=
    eq_of_clashes hf (mem_of_find? h.refund) (.inr (hkey.trans h.claim.2.1))
  have hmem := mem_of_find? h.recovery
  have hid := of_find?_decide h.recovery
  rw [← hsame, ← horder m.recovery hmem hid]
  exact recovery?_of_mem hmem

theorem RefundRows.refundOrder {m : RefundMutation} (h : RefundRows db refundId m) :
    refundOrder db refundId = some m.refund.orderId := by
  rw [Monoize.refundOrder, h.refund, map_some]

theorem RefundRejected.spec {m : RefundMutation}
    (h : RefundRejected db next refundId now ids m released) (hl : Linked db) :
    MoneyFrame { db with recoveryClaims := settleClaim db m.claim.id .resolved } released ∧
      BookStep Book.Recovers m.refund.orderId db next := by
  obtain ⟨hm, -, hreleased, rfl⟩ := h
  obtain ⟨hmoney, hstep⟩ := releaseIfLast_spec hreleased hm.order (hm.recovery? hl)
  have hclaims : SameBooks db { db with recoveryClaims := settleClaim db m.claim.id .resolved } := ⟨rfl, fun _ => rfl⟩
  exact ⟨hmoney, (hstep.after hclaims).before
    (SameBooks.of_orders (f := StoreOrder.withPaymentState .paid) (fun _ => rfl) rfl rfl rfl rfl
    (withPaymentState_face .paid))⟩

theorem salesParseMinor_eq_ok {v w : Int} (h : salesParseMinor (toString v) = .ok w) : w = v ∧ 0 ≤ v := by
  simp only [salesParseMinor, salesParseSignedMinor, ok_iff, signed?_toString, bind_some, checked_eq_some] at h
  obtain ⟨_, ⟨_, ⟨rfl, -⟩, _, -, rfl⟩, _, hnonneg, rfl⟩ := h
  exact ⟨rfl, hnonneg⟩

theorem reverseCommissionForOrder_inv {now : Int} {commission : Option Int}
    (h : reverseCommissionForOrder db orderId now = .ok (commission, next)) (c : OrderContract) :
    Accrued db next orderId c := by
  unfold reverseCommissionForOrder at h
  split at h
  · cases h
    exact Accrued.refl db orderId c
  rename_i e he
  simp only [creditAgent, ok_iff, checked_eq_some, Prod.mk.injEq] at h
  obtain ⟨amount, hamount, _, ⟨a, ha, _, ⟨rfl, -⟩, rfl⟩, -, rfl⟩ := h
  obtain ⟨rfl, -⟩ := salesParseMinor_eq_ok hamount
  obtain ⟨horder, hopen⟩ := of_find?_decide he
  have huser := of_find?_decide ha
  refine ⟨rfl, .reverse e a now ⟨⟨mem_of_find? ha, huser⟩, ⟨mem_of_find? he, hopen⟩, rfl, ?_⟩ horder⟩
  rw [credited, huser]

structure RefundCompleted (db next : Database) (refundId : String) (m : RefundMutation) : Prop where
  rows : RefundRows db refundId m
  isOpen : m.refund.isOpen
  reserve : m.recovery.originalNanoUsd = 0 ∨ m.recovery.reservedNanoUsd = m.recovery.originalNanoUsd
  result : next = { settledRefund db refundId m (db.storeOrders.update
      (fun p => p.id = m.order.id ∧ p.paymentState = .refundPending) (StoreOrder.withPaymentState .refunded)) with
    commissionEntries := next.commissionEntries
    salesAgents := next.salesAgents }
  move : CommissionMove db next m.order.id m.order.contract

theorem completeRefund_inv (h : completeRefund db refundId now = .ok ((), next)) :
    (next = db ∧ ∃ m, RefundRows db refundId m ∧ m.refund.state = .succeeded) ∨ ∃ m, RefundCompleted db next refundId m := by
  simp only [completeRefund, bind_eq_ok] at h
  obtain ⟨m, hm, h⟩ := h
  split at h
  · rename_i hsucceeded
    simp only [pair_eq_ok] at h
    exact .inl ⟨h.2.symm, m, loadRefundMutation_inv hm, hsucceeded⟩
  · cases h
  rename_i hsucceeded hfailed
  simp only [completeOpenRefund, bind_eq_ok, require_eq_ok, orError_eq_ok] at h
  obtain ⟨original, horiginal, reserved, hreserved, _, hcase, orders, horders, h⟩ := h
  rw [parseNonnegative_toString horiginal, parseNonnegative_toString hreserved] at hcase
  have hupdate := (updateOne?_eq_some.1 horders).2
  cases hreverse : reverseCommissionForOrder (settledRefund db refundId m orders) m.order.id (timestamp now) with
  | error e =>
    rw [hreverse] at h
    cases h
  | ok last =>
    rw [hreverse] at h
    cases h
    have hreversed := reverseCommissionForOrder_inv hreverse m.order.contract
    refine .inr ⟨m, loadRefundMutation_inv hm, Refund.isOpen_of_ne hfailed hsucceeded, hcase, ?_,
      hreversed.move.of_tables rfl rfl⟩
    rw [hreversed.frame, hupdate]

theorem consume_bookStep (ho : db.order? orderId = some o)
    (hr : db.recovery? orderId = some r) (hcase : r.originalNanoUsd = 0 ∨ r.reservedNanoUsd = r.originalNanoUsd)
    (hnext : next = { db with
      rewardRecoveries := db.rewardRecoveries.update (fun q => q.id = r.id ∧ q.recoveredNanoUsd = 0)
        RewardRecovery.withRecovered }) : BookStep Book.Recovers orderId db next := by
  have hp (q : RewardRecovery) (hq : decide (q.id = r.id ∧ q.recoveredNanoUsd = 0) = true) : q.id = r.id :=
    (of_decide_eq_true hq).1
  by_cases hrecovered : r.recoveredNanoUsd = 0
  · have hmove : Move r.amounts r.withRecovered.amounts 0 := Move.consume hcase hrecovered
    exact ((BalanceMoved.refl db _).record ho hr _ (decide_eq_true ⟨rfl, hrecovered⟩) hp hmove hnext).2
  -- the row was recovered before: the update meets no row
  have hrecoveries : next.rewardRecoveries = db.rewardRecoveries.update
      (fun q => q.id = r.id ∧ q.recoveredNanoUsd = 0) RewardRecovery.withRecovered := by
    rw [hnext]
  have hsame (id : String) : next.recovery? id = db.recovery? id := by
    by_cases hid : id = orderId
    · subst hid
      rw [recovery?_update hrecoveries, hr, map_some, if_neg (fun e => hrecovered (of_decide_eq_true e).2)]
    · exact recovery?_update_ne hrecoveries hr hp hid
  have hbooks : SameBooks db next := by
    refine ⟨by rw [hnext], fun id => ?_⟩
    simp only [book, hsame]
    rw [hnext]
    rfl
  exact hbooks.step Book.Recovers.idle orderId

theorem RefundCompleted.bookStep {m : RefundMutation} (h : RefundCompleted db next refundId m) (hl : Linked db) :
    BookStep Book.Recovers m.refund.orderId db next := by
  have hstep := consume_bookStep h.rows.order (h.rows.recovery? hl) h.reserve rfl
  rw [h.result]
  exact hstep.before (SameBooks.of_orders (f := StoreOrder.withPaymentState .refunded) (fun _ => rfl) rfl rfl rfl rfl
    (withPaymentState_face .refunded))

structure ClaimOpened (db next : Database) (o : StoreOrder) (recoveryId : String) (kind : RecoveryClaimKind)
    (now : Int) : Prop where
  frame : next = { db with
    recoveryClaims := next.recoveryClaims
    storeOrders := next.storeOrders
    balanceHolds := next.balanceHolds
    entitlementLifecycle := next.entitlementLifecycle }
  claim : ∃ c : RecoveryClaim, c.recoveryId = recoveryId ∧ c.kind = kind ∧ c.state = .opened ∧
    db.recoveryClaims.insert? c = some next.recoveryClaims
  orders : next.storeOrders = disputeOrder db.storeOrders o.id .opened true
  holds : next.balanceHolds = putHold db.balanceHolds o.contract.userId "payment_dispute" now

theorem openClaim_inv {input : VerifiedRecoveryClaimInput} {record : ClaimRecord}
    (h : openClaim db input now ids = .ok (record, next)) :
    next = db ∨ ∃ o r ensured reserved, db.order? input.orderId = some o ∧ input.kind ≠ .refund ∧
      RecoveryReserved db ensured reserved o r ∧ ClaimOpened reserved next o r.id input.kind (timestamp now) := by
  simp only [openClaim, ok_iff] at h
  obtain ⟨_, -, _, hkind, h⟩ := h
  split at h
  · simp only [ok_iff] at h
    obtain ⟨_, -, -, rfl⟩ := h
    exact .inl rfl
  simp only [openNewClaim, ok_iff] at h
  obtain ⟨o, ho, _, -, _, -, original, horiginal, ⟨recoveryId, ensured⟩, hensure, reserved, hreserve, claims, hclaims,
    _, -, -, rfl⟩ := h
  obtain ⟨r, rfl, rfl, hstands⟩ := ensureRecovery_stands ho horiginal hensure
  have hid := order?_id ho
  rw [← hid] at ho ⊢
  exact .inr ⟨o, r, ensured, reserved, ho, hkind, hstands.claimReserve hreserve, rfl, ⟨_, rfl, rfl, rfl, hclaims⟩, rfl, rfl⟩

theorem withDispute_face (state : DisputeState) (hold : Bool) (o : StoreOrder) : (o.withDispute state hold).face = o.face :=
  rfl

theorem ClaimOpened.sameBooks {kind : RecoveryClaimKind} {now : Int} (h : ClaimOpened db next o recoveryId kind now) :
    SameBooks db next :=
  SameBooks.of_orders _ (by rw [h.frame]) (by rw [h.frame]) (by rw [h.frame]) h.orders (withDispute_face .opened true)

structure ClaimRows (db : Database) (claimId : String) (m : ClaimMutation) : Prop where
  claim : db.recoveryClaims.find? (·.id = claimId) = some m.claim
  recovery : db.rewardRecoveries.find? (·.id = m.claim.recoveryId) = some m.recovery
  order : db.order? m.recovery.orderId = some m.order

theorem loadClaimMutation_inv (h : loadClaimMutation db claimId = .ok m) : ClaimRows db claimId m := by
  simp only [loadClaimMutation, ok_iff] at h
  obtain ⟨claim, hclaim, recovery, hrecovery, order, horder, rfl⟩ := h
  exact ⟨hclaim, hrecovery, horder⟩

theorem ClaimRows.recovery? (h : ClaimRows db claimId m) : db.recovery? m.recovery.orderId = some m.recovery :=
  recovery?_of_mem (mem_of_find? h.recovery)

theorem ClaimRows.claimOrder (h : ClaimRows db claimId m) : claimOrder db claimId = some m.recovery.orderId := by
  rw [Monoize.claimOrder, loadClaim, h.claim, bind_some, h.recovery, map_some, map_some]

theorem ClaimRows.amounts_lt (h : ClaimRows db claimId m) (hs : (book db m.recovery.orderId).Sound) :
    (m.recovery.reservedNanoUsd : Int) < 2 ^ 127 ∧ (m.recovery.originalNanoUsd : Int) < 2 ^ 127 := by
  have hbounds := recovery_bounds hs h.recovery?
  omega

structure ClaimWon (db next : Database) (claimId : String) (now : Instant) (ids : RecoveryIds) (m : ClaimMutation)
    (finalBalance : Int) (released : Database) : Prop where
  rows : ClaimRows db claimId m
  opened : m.claim.state = .opened
  last : otherOpenClaims (settleClaim db claimId .resolved) m.recovery.id claimId = 0
  release : releaseWon { db with recoveryClaims := settleClaim db claimId .resolved } m.order m.recovery now ids.ledgerId =
    .ok (finalBalance, released)
  result : next = if 0 ≤ finalBalance ∧ m.recovery.recoveredNanoUsd = 0 then endHold released m.order now else released

theorem winClaim_inv (h : winClaim db claimId now ids = .ok ((), next)) :
    next = db ∨
      (∃ m, ClaimRows db claimId m ∧ otherOpenClaims (settleClaim db claimId .resolved) m.recovery.id claimId ≠ 0 ∧
        next = { db with recoveryClaims := settleClaim db claimId .resolved }) ∨
      ∃ m finalBalance released, ClaimWon db next claimId now ids m finalBalance released := by
  simp only [winClaim, bind_eq_ok] at h
  obtain ⟨m, hm, h⟩ := h
  split at h
  · cases h
    exact .inl rfl
  · cases h
  rename_i hopened
  split at h
  · rename_i hlast
    simp only [settleWon, bind_eq_ok, pure_eq_ok, Prod.mk.injEq] at h
    obtain ⟨_, ⟨⟨finalBalance, released⟩, hrelease, rfl⟩, -, rfl⟩ := h
    exact .inr (.inr ⟨m, finalBalance, released, loadClaimMutation_inv hm, hopened, hlast, hrelease, rfl⟩)
  · rename_i hothers
    simp only [pair_eq_ok] at h
    exact .inr (.inl ⟨m, loadClaimMutation_inv hm, hothers, h.2.symm⟩)

theorem endHold_sameBooks (db : Database) (o : StoreOrder) (now : Instant) : SameBooks db (endHold db o now) :=
  SameBooks.of_orders (f := StoreOrder.withDispute .won false) (fun _ => rfl) rfl rfl rfl rfl (withDispute_face .won false)

theorem ClaimWon.spec {finalBalance : Int} (h : ClaimWon db next claimId now ids m finalBalance released)
    (hs : ∀ orderId, (book db orderId).Sound) :
    MoneyFrame { db with recoveryClaims := settleClaim db claimId .resolved } released ∧
      BookStep Book.Recovers m.recovery.orderId db next := by
  obtain ⟨hm, -, -, hrelease, rfl⟩ := h
  obtain ⟨hmoney, hstep⟩ := releaseWon_spec hrelease hm.order hm.recovery? (hm.amounts_lt (hs _)).1
  have hclaims : SameBooks db { db with recoveryClaims := settleClaim db claimId .resolved } := ⟨rfl, fun _ => rfl⟩
  refine ⟨hmoney, ?_⟩
  split
  · exact (hstep.after hclaims).before (endHold_sameBooks released m.order now)
  · exact hstep.after hclaims

structure ClaimLost (db next : Database) (claimId : String) (now : Instant) (ids : RecoveryIds) (m : ClaimMutation)
    (debited : Database) : Prop where
  rows : ClaimRows db claimId m
  opened : m.claim.state = .opened
  debit : debitLoss db m.order m.recovery now ids.ledgerId = .ok debited
  result : next = { debited with
    rewardRecoveries := debited.rewardRecoveries.update (·.id = m.recovery.id) RewardRecovery.withRecovered
    recoveryClaims := settleClaim debited claimId .consumed
    storeOrders := disputeOrder debited.storeOrders m.order.id .lost true
    balanceHolds := putHold debited.balanceHolds m.order.contract.userId "payment_loss" (timestamp now)
    entitlementLifecycle := revokeEntitlements debited m.order.id (timestamp now) }

theorem loseClaim_inv (h : loseClaim db claimId now ids = .ok ((), next)) :
    next = db ∨ ∃ m debited, ClaimLost db next claimId now ids m debited := by
  simp only [loseClaim, ok_iff] at h
  obtain ⟨m, hm, h⟩ := h
  split at h
  · cases h
    exact .inl rfl
  · cases h
  rename_i hopened
  simp only [ok_iff] at h
  obtain ⟨debited, hdebit, -, rfl⟩ := h
  exact .inr ⟨m, debited, loadClaimMutation_inv hm, hopened, hdebit, rfl⟩

theorem ClaimLost.spec {debited : Database} (h : ClaimLost db next claimId now ids m debited)
    (hs : ∀ orderId, (book db orderId).Sound) :
    (MoneyFrame db debited ∧ debited.rewardRecoveries = db.rewardRecoveries) ∧
      BookStep Book.Recovers m.recovery.orderId db next := by
  obtain ⟨hm, -, hdebit, rfl⟩ := h
  obtain ⟨hle, hmoved⟩ := debitLoss_spec hdebit (hm.amounts_lt (hs _)).2
  have hmove : Move m.recovery.amounts m.recovery.withRecovered.amounts _ := Move.lose hle
  have hstep := (hmoved.record (f := RewardRecovery.withRecovered) hm.order hm.recovery? (fun _ => rfl) (decide_eq_true rfl)
    (fun q hq => of_decide_eq_true hq) hmove rfl).2
  exact ⟨⟨hmoved.money, hmoved.recoveries⟩,
    hstep.before (SameBooks.of_orders (f := StoreOrder.withDispute .lost true) (fun _ => rfl) rfl rfl rfl rfl
      (withDispute_face .lost true))⟩

end Monoize
