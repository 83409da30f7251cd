import Monoize.RecoveryReserves
import Monoize.RefundCompletion
import Monoize.StoreFulfillable
import Monoize.StoreHolds

/-! When a paid order can be refunded and disputed, again or for the first time. -/

namespace Monoize

open CivilTime Fallible MachineInt Relational Transition List Option Table

variable {db next : Database} {o : StoreOrder} {r : RewardRecovery} {orderId id recoveryId ledgerId : String}
  {original : Nat} {input : BeginRefundInput} {c : RecoveryClaim}

def creditedReward (db : Database) (o : StoreOrder) : Nat :=
  if o.contract.productKind = .balance ∧ o.fulfillmentState = .fulfilled then
    ((db.reward? o.id).map fun row => row.deltaNanoUsd.toNat).getD 0
  else 0

def ReserveUnused (db : Database) (recoveryId : String) : Prop :=
  ∀ row ∈ db.billingLedger.rows, row.idempotencyKey ≠ some (recoveryKey recoveryId "reserve")
  deriving Decidable

@[mk_iff]
structure FreshIds (db : Database) (ids : RecoveryIds) : Prop where
  recovery : ∀ r ∈ db.rewardRecoveries.rows, r.id ≠ ids.recoveryId
  unused : ReserveUnused db ids.recoveryId
  ledger : ∀ row ∈ db.billingLedger.rows, row.id ≠ ids.ledgerId
  refund : ∀ f ∈ db.refunds.rows, f.id ≠ ids.refundId
  claim : ∀ c ∈ db.recoveryClaims.rows, c.id ≠ ids.claimId

instance (db : Database) (ids : RecoveryIds) : Decidable (FreshIds db ids) := decidable_of_iff _ (freshIds_iff ..).symm

theorem originalReward_eq (hs : (book db o.id).Sound) (ho : db.order? o.id = some o) :
    originalReward db o = .ok (creditedReward db o) := by
  unfold originalReward creditedReward
  by_cases hcase : o.contract.productKind = .balance ∧ o.fulfillmentState = .fulfilled
  · rw [if_pos hcase, if_pos hcase]
    have hface : (book db o.id).order = some (o.contract, true) := by
      rw [book_order ho, StoreOrder.face, decide_eq_true hcase.2]
    obtain ⟨amount, hreward, hconverted⟩ := hs.rewarded _ hface hcase.1
    obtain ⟨row, hrow, hpair⟩ := map_eq_some_iff.1 hreward
    have hdelta : row.deltaNanoUsd = amount := congrArg Prod.snd hpair
    have hrange := convertedAmount_range hconverted
    have hfind : db.billingLedger.find? (·.idempotencyKey = some (fulfillmentKey o.id)) = some row := hrow
    simp only [fulfilledReward, hfind, hrow, hdelta, ok_iff, map_some]
    exact ⟨row, rfl, amount, by rw [hdelta]; exact parseSigned_ok ⟨by omega, hrange.2⟩, (), hrange.1, rfl⟩
  · rw [if_neg hcase, if_neg hcase]
    rfl

@[mk_iff]
structure Unclaimed (db : Database) (o : StoreOrder) : Prop where
  paid : o.paymentState = .paid
  recoverable : ¬ (o.contract.productKind = .plan ∧ o.fulfillmentState = .fulfilled)
  unrecovered : ∀ r ∈ db.rewardRecoveries.rows, r.orderId = o.id → r.recoveredNanoUsd = 0
  no_claim : ∀ c ∈ db.recoveryClaims.rows, c.state = .opened → ∀ r ∈ db.rewardRecoveries.rows, r.id = c.recoveryId →
    r.orderId ≠ o.id
  attempt : ∃ a ∈ db.paymentAttempts.rows, a.orderId = o.id ∧ a.state = .paid ∧ a.providerTransactionId ≠ none
  user : ∃ u ∈ db.users.rows, u.id = o.contract.userId

instance (db : Database) (o : StoreOrder) : Decidable (Unclaimed db o) := decidable_of_iff _ (unclaimed_iff ..).symm

theorem Unclaimed.reserved (h : Unclaimed db o) (hheld : ReservesHeld db) (hr : db.recovery? o.id = some r) :
    r.reservedNanoUsd = 0 ∧ r.recoveredNanoUsd = 0 := by
  have hmem := mem_of_find? hr
  have horder := of_find?_decide hr
  refine ⟨?_, h.unrecovered r hmem horder⟩
  by_contra hreserved
  obtain ⟨c, hc, hid, hstate⟩ := hheld r hmem hreserved
  exact h.no_claim c hc hstate r hmem hid.symm horder

theorem Unclaimed.balance (h : Unclaimed db o) (hbalances : ∀ u ∈ db.users.rows, IsAmount u.balanceNanoUsd) :
    lockUserBalance db o.contract.userId = .ok (storedBalance db o.contract.userId) ∧
      -2 ^ 127 ≤ storedBalance db o.contract.userId ∧ storedBalance db o.contract.userId < 2 ^ 127 := by
  obtain ⟨u, hu, hid⟩ := h.user
  have hfind : db.users.find? (·.id = o.contract.userId) = some u := by
    apply find?_eq_some_of_mem hu (decide_eq_true hid)
    intro w hw
    exact (of_decide_eq_true hw).trans hid.symm
  obtain ⟨v, hv, hrange⟩ := hbalances u hu
  rw [storedBalance_eq hfind hv]
  refine ⟨?_, hrange⟩
  simp only [lockUserBalance, hfind, ok_iff, parseSigned, checked_eq_some]
  exact ⟨u, rfl, v, hv, rfl, hrange⟩

theorem ensureRecovery_ok_iff (hs : (book db orderId).Sound) (hfresh : ∀ r ∈ db.rewardRecoveries.rows, r.id ≠ id) :
    (∃ p, ensureRecovery db orderId original id = .ok p) ↔
      ∀ r, db.recovery? orderId = some r → r.originalNanoUsd = original := by
  unfold ensureRecovery
  cases hfind : db.rewardRecoveries.find? (·.orderId = orderId) with
  | some r =>
    have hr : db.recovery? orderId = some r := hfind
    have hparse := parseNonnegative_ok (show r.originalNanoUsd < 2 ^ 128 by have := (recovery_bounds hs hr).2; omega)
    simp only [hparse, hr, ok_iff, Except.ok.injEq, some.injEq]
    constructor
    · rintro ⟨_, _, rfl, _, hsame, -⟩ _ rfl
      exact hsame
    · intro h
      exact ⟨_, _, rfl, (), h r rfl, rfl⟩
  | none =>
    have hr : db.recovery? orderId = none := hfind
    simp only [hr, reduceCtorEq, false_imp_iff, implies_true, iff_true, ok_iff]
    have hinsert : ∀ r ∈ db.rewardRecoveries.rows, ¬ Clashes r ⟨id, orderId, original, 0, 0, none, none, .opened⟩ := by
      rintro r hmem (hid | horder)
      · exact hfresh r hmem hid
      · exact find?_eq_none.1 hfind r hmem (decide_eq_true horder)
    obtain ⟨recoveries, hrecoveries⟩ := exists_insert hinsert
    exact ⟨_, recoveries, hrecoveries, rfl⟩

theorem reserveReward_ok_iff {balance delta : Int} {amount : Nat} {now : Instant}
    (hrange : -2 ^ 127 ≤ balance + delta ∧ balance + delta < 2 ^ 127)
    (hfresh : ∀ row ∈ db.billingLedger.rows, row.id ≠ ledgerId) :
    (∃ next, reserveReward db o recoveryId balance amount delta now ledgerId = .ok next) ↔ ReserveUnused db recoveryId := by
  simp only [reserveReward, applyRecoveryDelta, ok_iff, checked_eq_some]
  constructor
  · rintro ⟨_, _, ⟨_, ⟨rfl, -⟩, ledger, hledger, -⟩, -⟩ row hrow hkey
    exact (insert?_eq_some.1 hledger).1 row hrow (BillingLedgerRow.clashes_of_idempotencyKey hkey rfl)
  · intro hunused
    have hinsert : ∀ row ∈ db.billingLedger.rows, ¬ Clashes row (recoveryRow
        ⟨o.contract.userId, balance, delta, "store_recovery_reserve", recoveryKey recoveryId "reserve", o.id, recoveryId,
          now⟩ (balance + delta) ledgerId) := by
      rintro row hrow (hid | ⟨-, hkey⟩)
      · exact hfresh row hrow hid
      · exact hunused row hrow hkey
    obtain ⟨ledger, hledger⟩ := exists_insert hinsert
    exact ⟨_, _, ⟨_, ⟨rfl, hrange⟩, ledger, hledger, rfl⟩, rfl⟩

theorem refundReserve_ok {balance : Int} (now : Instant) (hr : db.recovery? o.id = some r)
    (hzero : r.reservedNanoUsd = 0 ∧ r.recoveredNanoUsd = 0)
    (hbalance : lockUserBalance db o.contract.userId = .ok balance) (hlt : balance < 2 ^ 127)
    (hcovers : (original : Int) ≤ balance) (hfresh : ∀ row ∈ db.billingLedger.rows, row.id ≠ ledgerId)
    (hunused : original = 0 ∨ ReserveUnused db r.id) :
    ∃ next, refundReserve db o r.id original now ledgerId = .ok next := by
  have hparse := parseNonnegative_ok (show 0 < 2 ^ 128 by decide)
  rw [refundReserve, recovery_by_id hr, orError_some, ok_bind, hzero.1, hzero.2, hparse, ok_bind, ok_bind,
    require_of rfl, ok_bind]
  by_cases horiginal : original = 0
  · rw [if_neg (fun h => h.1 horiginal), if_neg (fun h => h.1 horiginal)]
    exact ⟨db, rfl⟩
  have hchecked : checkedI128 original = .ok (original : Int) :=
    orError_eq_ok.2 (checked_eq_some.2 ⟨rfl, by omega, by omega⟩)
  rw [if_pos ⟨horiginal, rfl⟩, hbalance, ok_bind, hchecked, ok_bind, require_of hcovers]
  exact (reserveReward_ok_iff (by omega) hfresh).2 (hunused.resolve_left horiginal)

theorem claimReserve_ok_iff {balance : Int} (now : Instant) (hr : db.recovery? o.id = some r)
    (hzero : r.reservedNanoUsd = 0 ∧ r.recoveredNanoUsd = 0)
    (hbalance : lockUserBalance db o.contract.userId = .ok balance) (hlo : -2 ^ 127 ≤ balance) (hlt : balance < 2 ^ 127)
    (hfresh : ∀ row ∈ db.billingLedger.rows, row.id ≠ ledgerId) :
    (∃ next, claimReserve db o r.id original now ledgerId = .ok next) ↔
      original = 0 ∨ balance ≤ 0 ∨ ReserveUnused db r.id := by
  have hparse := parseNonnegative_ok (show 0 < 2 ^ 128 by decide)
  have hrun : claimReserve db o r.id original now ledgerId =
      if original ≠ 0 ∧ min original balance.toNat ≠ 0 then
        reserveReward db o r.id balance (min original balance.toNat)
          (wrapping 127 (-((min original balance.toNat : Nat) : Int))) now ledgerId
      else .ok db := by
    rw [claimReserve, recovery_by_id hr, orError_some, ok_bind, hzero.1, hzero.2, hparse, ok_bind, ok_bind]
    by_cases horiginal : original = 0
    · rw [if_neg (fun h => h.1 horiginal), if_neg (fun h => h.1 horiginal)]
      rfl
    rw [if_pos ⟨horiginal, rfl, rfl⟩, hbalance, ok_bind]
    by_cases hmin : min original balance.toNat = 0
    · rw [if_neg (fun h => h hmin), if_neg (fun h => h.2 hmin)]
      rfl
    · rw [if_pos hmin, if_pos ⟨horiginal, hmin⟩]
  rw [hrun]
  by_cases hcase : original ≠ 0 ∧ min original balance.toNat ≠ 0
  · have hwrap : wrapping 127 (-((min original balance.toNat : Nat) : Int)) =
        -((min original balance.toNat : Nat) : Int) := by
      apply wrapping_eq_self <;> omega
    rw [if_pos hcase, reserveReward_ok_iff (by omega) hfresh]
    constructor
    · exact fun h => .inr (.inr h)
    · rintro (horiginal | hnone | hunused)
      · exact absurd horiginal hcase.1
      · omega
      · exact hunused
  · rw [if_neg hcase]
    refine iff_of_true ⟨db, rfl⟩ ?_
    by_cases horiginal : original = 0
    · exact .inl horiginal
    · exact .inr (.inl (by omega))

theorem ensureRecovery_row (h : ensureRecovery db orderId original id = .ok (recoveryId, next))
    (hr : next.recovery? orderId = some r) : db.recovery? orderId = some r ∨
      (db.recovery? orderId = none ∧ r = ⟨id, orderId, original, 0, 0, none, none, .opened⟩) := by
  unfold ensureRecovery at h
  split at h
  · simp only [ok_iff] at h
    obtain ⟨_, -, _, -, -, rfl⟩ := h
    exact .inl hr
  rename_i hnone
  simp only [ok_iff] at h
  obtain ⟨recoveries, hinsert, -, rfl⟩ := h
  rcases (mem_insert hinsert).1 (mem_of_find? hr) with hmem | hnew
  · exact absurd (of_find? hr) (find?_eq_none.1 hnone r hmem)
  · exact .inr ⟨hnone, hnew⟩

structure Ensured (db next : Database) (o : StoreOrder) (r : RewardRecovery) : Prop where
  row : next.recovery? o.id = some r
  original : r.originalNanoUsd = creditedReward db o
  zero : r.reservedNanoUsd = 0 ∧ r.recoveredNanoUsd = 0
  frame : next = { db with rewardRecoveries := next.rewardRecoveries }
  unused : ReserveUnused next r.id ↔ ∀ q, db.recovery? o.id = some q → ReserveUnused db q.id

/-- An order that nobody recovers, in a sound store, and fresh ids for its recovery. -/
structure Disputable (db : Database) (o : StoreOrder) (ids : RecoveryIds) : Prop where
  sound : (book db o.id).Sound
  held : ReservesHeld db
  balances : ∀ u ∈ db.users.rows, IsAmount u.balanceNanoUsd
  mem : o ∈ db.storeOrders.rows
  unclaimed : Unclaimed db o
  ids : FreshIds db ids

theorem Disputable.order? {ids : RecoveryIds} (h : Disputable db o ids) : db.order? o.id = some o := order?_of_mem h.mem

theorem Disputable.ensured {ids : RecoveryIds} (hd : Disputable db o ids)
    (h : ensureRecovery db o.id (creditedReward db o) ids.recoveryId = .ok (recoveryId, next)) :
    ∃ r, r.id = recoveryId ∧ Ensured db next o r := by
  have hreward := originalReward_eq hd.sound hd.order?
  obtain ⟨⟨r, hr, hid, horiginal⟩, -, hframe, -⟩ :=
    ensureRecovery_spec h hd.order? (originalReward_inv hreward) (originalReward_lt hreward)
  have hledger : next.billingLedger = db.billingLedger := by rw [hframe]
  have hunused (id : String) : ReserveUnused next id ↔ ReserveUnused db id := by rw [ReserveUnused, hledger, ReserveUnused]
  refine ⟨r, hid, hr, horiginal, ?_, hframe, ?_⟩
  · rcases ensureRecovery_row h hr with hold | ⟨-, rfl⟩
    · exact hd.unclaimed.reserved hd.held hold
    · exact ⟨rfl, rfl⟩
  · rw [hunused]
    rcases ensureRecovery_row h hr with hold | ⟨hnone, rfl⟩
    · simp only [hold, some.injEq, forall_eq']
    · simp only [hnone, reduceCtorEq, false_imp_iff, implies_true, iff_true]
      exact hd.ids.unused

theorem Ensured.balance (h : Ensured db next o r) :
    lockUserBalance next o.contract.userId = lockUserBalance db o.contract.userId := by
  rw [h.frame, lockUserBalance, lockUserBalance]

theorem Ensured.reserved {reserved : Database} (h : Ensured db next o r) (hm : MoneyFrame next reserved) :
    reserved.storeOrders = db.storeOrders ∧ reserved.refunds = db.refunds ∧
      reserved.recoveryClaims = db.recoveryClaims ∧
      ∃ r' ∈ reserved.rewardRecoveries.rows, r'.id = r.id ∧ r'.orderId = o.id := by
  obtain ⟨r', hr', hid⟩ := hm.recovery? h.row
  have horder := of_find?_decide hr'
  refine ⟨?_, ?_, ?_, r', mem_of_find? hr', hid, horder⟩ <;> rw [hm.frame, h.frame]

@[mk_iff]
structure FreshRefund (db : Database) (input : BeginRefundInput) : Prop where
  valid : validateRefundInput input = .ok ()
  key : ∀ f ∈ db.refunds.rows, f.idempotencyKey ≠ input.idempotencyKey

instance (db : Database) (input : BeginRefundInput) : Decidable (FreshRefund db input) :=
  decidable_of_iff _ (freshRefund_iff ..).symm

theorem FreshRefund.no_claim (h : FreshRefund db input) (hl : Linked db) :
    ∀ c ∈ db.recoveryClaims.rows, c.kind = .refund → c.providerClaimId ≠ input.idempotencyKey := by
  intro c hc hkind hkey
  obtain ⟨f, hf, hfkey, -⟩ := hl.claim_refund c hc hkind
  exact h.key f hf (hfkey.trans hkey)

theorem FreshRefund.load (h : FreshRefund db input) : loadRefund db (·.idempotencyKey = input.idempotencyKey) = none := by
  have hnone : db.refunds.find? (·.idempotencyKey = input.idempotencyKey) = none :=
    find?_eq_none.2 fun f hf hkey => h.key f hf (of_decide_eq_true hkey)
  rw [loadRefund, hnone]
  rfl

@[mk_iff]
structure FreshClaim (db : Database) (input : VerifiedRecoveryClaimInput) : Prop where
  valid : validateClaimInput input = .ok ()
  kind : input.kind ≠ .refund
  paid : paidUnder db input.orderId input.credentialVersionId
  claim : ∀ c ∈ db.recoveryClaims.rows,
    ¬ (c.credentialVersionId = input.credentialVersionId ∧ c.providerClaimId = input.providerClaimId ∧ c.kind = input.kind)
  event : ∀ c ∈ db.recoveryClaims.rows, ∀ e, input.providerEventRowId = some e → c.providerEventRowId ≠ some e

instance (db : Database) (input : VerifiedRecoveryClaimInput) : Decidable (FreshClaim db input) :=
  decidable_of_iff _ (freshClaim_iff ..).symm

theorem FreshClaim.load {input : VerifiedRecoveryClaimInput} (h : FreshClaim db input) :
    (loadClaim db fun c => c.credentialVersionId = input.credentialVersionId ∧
      c.providerClaimId = input.providerClaimId ∧ c.kind = input.kind) = none := by
  have hnone : db.recoveryClaims.find? (fun c => c.credentialVersionId = input.credentialVersionId ∧
      c.providerClaimId = input.providerClaimId ∧ c.kind = input.kind) = none :=
    find?_eq_none.2 fun c hc hsame => h.claim c hc (of_decide_eq_true hsame)
  rw [loadClaim, hnone]
  rfl

theorem FreshClaim.no_clash {input : VerifiedRecoveryClaimInput} (h : FreshClaim db input) {claimId : String}
    (hid : ∀ c ∈ db.recoveryClaims.rows, c.id ≠ claimId) (recoveryId : String) (original : Nat) (createdAt : String) :
    ∀ c ∈ db.recoveryClaims.rows, ¬ Clashes c ⟨claimId, recoveryId, input.credentialVersionId, input.providerClaimId,
      input.providerEventRowId, input.kind, original, .opened, createdAt⟩ := by
  rintro c hc (hsame | hsame | ⟨hsome, hsame⟩)
  · exact hid c hc hsame
  · exact h.claim c hc ⟨congrArg (·.1) hsame, congrArg (·.2.1) hsame, congrArg (·.2.2) hsame⟩
  · obtain ⟨e, he⟩ := ne_none_iff_exists'.1 hsome
    obtain ⟨stored, hstored, rfl⟩ := map_eq_some_iff.1 he
    obtain ⟨received, hreceived, hpair⟩ := map_eq_some_iff.1 (hsame.symm.trans he)
    have hevent : received = stored := congrArg Prod.fst hpair
    exact h.event c hc received hreceived (hevent ▸ hstored)

theorem refundClaim_isSome {key : String} (hc : c ∈ db.recoveryClaims.rows) (hkey : c.providerClaimId = key)
    (hkind : c.kind = .refund) (hr : r ∈ db.rewardRecoveries.rows) (hid : r.id = c.recoveryId) :
    (refundClaim db key).isSome := by
  rw [refundClaim, List.isSome_findSome?, List.any_eq_true]
  refine ⟨c, hc, ?_⟩
  rw [if_pos ⟨hkey, hkind⟩, ← hid, recovery_of_id hr]
  rfl

theorem loadRefund_exists {f : Refund} (hf : f ∈ db.refunds.rows) (hid : f.id = id) (hc : c ∈ db.recoveryClaims.rows)
    (hkey : c.providerClaimId = f.idempotencyKey) (hkind : c.kind = .refund) (hr : r ∈ db.rewardRecoveries.rows)
    (hrid : r.id = c.recoveryId) : ∃ record, loadRefund db (·.id = id) = some record := by
  obtain ⟨cr, hcr⟩ := isSome_iff_exists.1 (refundClaim_isSome hc hkey hkind hr hrid)
  rw [loadRefund, ← hid, refunds_find? hf, bind_some, hcr]
  exact ⟨_, rfl⟩

theorem loadClaim_exists (hc : c ∈ db.recoveryClaims.rows) (hid : c.id = id) (hr : r ∈ db.rewardRecoveries.rows)
    (hrid : r.id = c.recoveryId) : ∃ record, loadClaim db (·.id = id) = some record := by
  have hfind : db.recoveryClaims.find? (·.id = id) = some c := by
    apply find?_eq_some_of_mem hc (decide_eq_true hid)
    intro d hd
    exact .inl ((of_decide_eq_true hd).trans hid.symm)
  rw [loadClaim, hfind, bind_some, ← hrid, recovery_of_id hr]
  exact ⟨_, rfl⟩

theorem openRefund_ok (attempt : PaymentAttempt) (original : Nat) (now : Instant) {ids : RecoveryIds}
    (ho : o ∈ db.storeOrders.rows) (hpaid : o.paymentState = .paid)
    (hkey : ∀ f ∈ db.refunds.rows, f.idempotencyKey ≠ input.idempotencyKey)
    (hid : ∀ f ∈ db.refunds.rows, f.id ≠ ids.refundId) (hclaimId : ∀ c ∈ db.recoveryClaims.rows, c.id ≠ ids.claimId)
    (hclaim : ∀ c ∈ db.recoveryClaims.rows, c.kind = .refund → c.providerClaimId ≠ input.idempotencyKey)
    (hr : r ∈ db.rewardRecoveries.rows) : ∃ next record, openRefund db o attempt input r.id original now ids = .ok next ∧
      loadRefund next (·.id = ids.refundId) = some record := by
  have hrefund : ∀ f ∈ db.refunds.rows, ¬ Clashes f ⟨ids.refundId, o.id, attempt.id, none, input.idempotencyKey, .created,
      o.contract.paymentMinor, o.contract.paymentCurrency, input.requestedByAdminId, rfc3339 3 now⟩ := by
    rintro f hf (hsame | hsame)
    · exact hid f hf hsame
    · exact hkey f hf hsame
  have hnew : ∀ c ∈ db.recoveryClaims.rows, ¬ Clashes c ⟨ids.claimId, r.id, attempt.credentialVersionId,
      input.idempotencyKey, none, .refund, original, .opened, rfc3339 3 now⟩ := by
    rintro c hc (hsame | hsame | hsame)
    · exact hclaimId c hc hsame
    · exact hclaim c hc (congrArg (·.2.2) hsame) (congrArg (·.2.1) hsame)
    · exact hsame.1 hsame.2
  obtain ⟨refunds, hrefunds⟩ := exists_insert hrefund
  obtain ⟨claims, hclaims⟩ := exists_insert hnew
  have hone : db.storeOrders.count (fun p => p.id = o.id ∧ p.paymentState = .paid ∧ p.stateRevision = o.stateRevision) = 1 := by
    apply count_eq_one ho (decide_eq_true ⟨rfl, hpaid, rfl⟩)
    intro p _ hp
    exact .inl (of_decide_eq_true hp).1
  obtain ⟨f, hf, hfid, hfkey⟩ : ∃ f ∈ refunds.rows, f.id = ids.refundId ∧ f.idempotencyKey = input.idempotencyKey :=
    ⟨_, (mem_insert hrefunds).2 (.inr rfl), rfl, rfl⟩
  obtain ⟨c, hc, hckey, hckind, hcid⟩ : ∃ c ∈ claims.rows, c.providerClaimId = input.idempotencyKey ∧ c.kind = .refund ∧
      r.id = c.recoveryId := ⟨_, (mem_insert hclaims).2 (.inr rfl), rfl, rfl, rfl⟩
  have hload (orders : Table StoreOrder) : ∃ record, loadRefund { db with
      refunds := refunds
      recoveryClaims := claims
      storeOrders := orders } (·.id = ids.refundId) = some record := by
    apply loadRefund_exists hf hfid hc (hckey.trans hfkey.symm) hckind _ hcid
    exact hr
  obtain ⟨record, hrecord⟩ := hload (db.storeOrders.update _ (StoreOrder.withPaymentState .refundPending))
  refine ⟨_, record, ?_, hrecord⟩
  rw [openRefund, hrefunds, hclaims,
    updateOne?_eq_some.2 ⟨hone, rfl⟩]
  rfl

theorem paidAttempt_exists
    (h : ∃ a ∈ db.paymentAttempts.rows, a.orderId = orderId ∧ a.state = .paid ∧ a.providerTransactionId ≠ none) :
    ∃ a, paidAttempt db orderId = some a := by
  have hfold (step : Option PaymentAttempt → PaymentAttempt → Option PaymentAttempt)
      (hstep : ∀ best a, ∃ next, step (some best) a = some next) (attempts : List PaymentAttempt) (best : PaymentAttempt) :
      ∃ a, attempts.foldl step (some best) = some a := by
    induction attempts generalizing best with
    | nil => exact ⟨best, rfl⟩
    | cons a attempts ih =>
      obtain ⟨next, hnext⟩ := hstep best a
      rw [foldl_cons, hnext]
      exact ih next
  obtain ⟨a, ha, horder, hstate, htransaction⟩ := h
  unfold paidAttempt
  cases hpaid : db.paymentAttempts.rows.filter fun a =>
      a.orderId = orderId ∧ a.state = .paid ∧ a.providerTransactionId ≠ none with
  | nil =>
    have hnone := filter_eq_nil_iff.1 hpaid a ha
    exact absurd (decide_eq_true ⟨horder, hstate, htransaction⟩) hnone
  | cons first rest =>
    refine hfold _ (fun best a => ?_) rest first
    dsimp only
    split
    · exact ⟨_, rfl⟩
    · exact ⟨_, rfl⟩

/-- Whether the order's recovery row, if it has one, serves another claim: it was made for today's reward, and either
nothing will be reserved or nothing was reserved before. -/
def RecoveryReusable (db : Database) (o : StoreOrder) : Prop :=
  ∀ r, db.recovery? o.id = some r → r.originalNanoUsd = creditedReward db o ∧
    (creditedReward db o = 0 ∨ storedBalance db o.contract.userId ≤ 0 ∨ ReserveUnused db r.id)

theorem Ensured.unused_or (h : Ensured db next o r) (hreusable : RecoveryReusable db o) :
    creditedReward db o = 0 ∨ storedBalance db o.contract.userId ≤ 0 ∨
      ReserveUnused next r.id := by
  by_cases hzero : creditedReward db o = 0
  · exact .inl hzero
  by_cases hbalance : storedBalance db o.contract.userId ≤ 0
  · exact .inr (.inl hbalance)
  · refine .inr (.inr (h.unused.2 ?_))
    intro q hq
    exact ((hreusable q hq).2.resolve_left hzero).resolve_left hbalance

section

variable {ids : RecoveryIds} {now : Instant} {input : VerifiedRecoveryClaimInput} (hd : Disputable db o ids)

include hd

theorem Disputable.ensure (hreusable : RecoveryReusable db o) :
    ∃ r ensured, ensureRecovery db o.id (creditedReward db o) ids.recoveryId = .ok (r.id, ensured) ∧
      Ensured db ensured o r := by
  obtain ⟨⟨recoveryId, ensured⟩, hensure⟩ :=
    (ensureRecovery_ok_iff hd.sound hd.ids.recovery).2 (fun r hr => (hreusable r hr).1)
  obtain ⟨r, rfl, hensured⟩ := hd.ensured hensure
  exact ⟨r, ensured, hensure, hensured⟩

theorem Ensured.order? (h : Ensured db next o r) : next.order? o.id = some o := by
  rw [h.frame]
  exact hd.order?

theorem Ensured.ledger (h : Ensured db next o r) :
    ∀ row ∈ next.billingLedger.rows, row.id ≠ ids.ledgerId := by
  rw [h.frame]
  exact hd.ids.ledger

theorem Ensured.claimReserve_iff (h : Ensured db next o r) (now : Instant) :
    (∃ reserved, claimReserve next o r.id (creditedReward db o) now ids.ledgerId = .ok reserved) ↔
      creditedReward db o = 0 ∨ storedBalance db o.contract.userId ≤ 0 ∨ ReserveUnused next r.id := by
  obtain ⟨hbalance, hlo, hlt⟩ := hd.unclaimed.balance hd.balances
  exact claimReserve_ok_iff now h.row h.zero (h.balance.trans hbalance) hlo hlt (h.ledger hd)

theorem beginRefundWithOutcome_ok {input : BeginRefundInput} (hl : Linked db)
    (hinput : FreshRefund db input) (horder : input.orderId = o.id)
    (hcovers : (creditedReward db o : Int) ≤ storedBalance db o.contract.userId) (hreusable : RecoveryReusable db o) :
    ∃ record next, beginRefundWithOutcome db input now ids = .ok ((record, true), next) := by
  obtain ⟨hbalance, hlo, hlt⟩ := hd.unclaimed.balance hd.balances
  obtain ⟨r, ensured, hensure, hensured⟩ := hd.ensure hreusable
  have hunused : creditedReward db o = 0 ∨ ReserveUnused ensured r.id := by
    rcases hensured.unused_or hreusable with hzero | hnone | hunused
    · exact .inl hzero
    · exact .inl (by omega)
    · exact .inr hunused
  obtain ⟨reserved, hreserve⟩ := refundReserve_ok now hensured.row hensured.zero
    (hensured.balance.trans hbalance) hlt hcovers (hensured.ledger hd) hunused
  obtain ⟨attempt, hattempt⟩ := paidAttempt_exists hd.unclaimed.attempt
  have hmoney := (refundReserve_spec (hensured.order? hd) hensured.row (hensured.original.symm ▸ hreserve)).1
  obtain ⟨horders, hrefunds, hclaims, r', hr', hid, -⟩ := hensured.reserved hmoney
  obtain ⟨next, record, hopen, hload⟩ := openRefund_ok attempt (creditedReward db o) now (horders ▸ hd.mem)
    hd.unclaimed.paid (hrefunds ▸ hinput.key) (hrefunds ▸ hd.ids.refund) (hclaims ▸ hd.ids.claim)
    (hclaims ▸ hinput.no_claim hl) hr'
  have hfind : db.storeOrders.find? (·.id = o.id) = some o := hd.order?
  refine ⟨record, next, ?_⟩
  rw [beginRefundWithOutcome, hinput.valid, ok_bind, hinput.load]
  rw [beginNewRefund, horder, hfind, orError_some, ok_bind, hattempt, orError_some, ok_bind,
    require_of ⟨hd.unclaimed.paid, hd.unclaimed.recoverable⟩, ok_bind, originalReward_eq hd.sound hd.order?, ok_bind,
    hensure, ok_bind]
  dsimp only
  rw [hreserve, ok_bind, ← hid, hopen, ok_bind, hload]
  rfl

structure ClaimRecorded (db : Database) (o : StoreOrder) (input : VerifiedRecoveryClaimInput) : Prop where
  claim : ∃ c ∈ db.recoveryClaims.rows, c.credentialVersionId = input.credentialVersionId ∧
    c.providerClaimId = input.providerClaimId ∧ c.kind = input.kind ∧ c.state = .opened ∧
    ∃ r ∈ db.rewardRecoveries.rows, r.id = c.recoveryId ∧ r.orderId = o.id
  order : ∀ p, db.order? o.id = some p → p.paymentHold = true
  user : OnHold db o.contract.userId

theorem openClaim_ok (hinput : FreshClaim db input)
    (horder : input.orderId = o.id) (hreusable : RecoveryReusable db o) :
    ∃ record next, openClaim db input now ids = .ok (record, next) ∧ ClaimRecorded next o input := by
  obtain ⟨r, ensured, hensure, hensured⟩ := hd.ensure hreusable
  obtain ⟨reserved, hreserve⟩ := (hensured.claimReserve_iff hd now).2 (hensured.unused_or hreusable)
  have hmoney := (claimReserve_spec (hensured.order? hd) hensured.row (hensured.original.symm ▸ hreserve)).1
  obtain ⟨horders, -, hclaims, r', hr', hid, hr'order⟩ := hensured.reserved hmoney
  obtain ⟨claims, hinsert⟩ := exists_insert
    (hclaims ▸ hinput.no_clash hd.ids.claim r.id (creditedReward db o) (rfc3339 3 now) : ∀ c ∈
    reserved.recoveryClaims.rows, ¬ Clashes c _)
  obtain ⟨next, hnext⟩ : ∃ next : Database, next = { reserved with
      recoveryClaims := claims
      storeOrders := disputeOrder reserved.storeOrders o.id .opened true
      balanceHolds := putHold reserved.balanceHolds o.contract.userId "payment_dispute" (timestamp now)
      entitlementLifecycle := suspendEntitlements reserved o.id (timestamp now) } := ⟨_, rfl⟩
  have hfind : db.storeOrders.find? (·.id = o.id) = some o := hd.order?
  have hrecoveries : next.rewardRecoveries = reserved.rewardRecoveries := by rw [hnext]
  have hrecorded : ∃ c ∈ next.recoveryClaims.rows, c.id = ids.claimId ∧
      c.credentialVersionId = input.credentialVersionId ∧ c.providerClaimId = input.providerClaimId ∧
      c.kind = input.kind ∧ c.state = .opened ∧ c.recoveryId = r.id := by
    rw [hnext]
    exact ⟨_, (mem_insert hinsert).2 (.inr rfl), rfl, rfl, rfl, rfl, rfl, rfl⟩
  obtain ⟨c, hc, hcid, hcredential, hprovider, hkind, hstate, hrecovery⟩ := hrecorded
  obtain ⟨record, hrecord⟩ := loadClaim_exists hc hcid (hrecoveries ▸ hr') (hid.trans hrecovery.symm)
  refine ⟨record, next, ?_, ?_, ?_, ?_⟩
  · rw [openClaim, hinput.valid, ok_bind, require_of hinput.kind, ok_bind, hinput.load]
    rw [openNewClaim, horder, hfind, orError_some, ok_bind, require_of (horder ▸ hinput.paid), ok_bind,
      require_of (show o.claimable from .inl hd.unclaimed.paid), ok_bind, originalReward_eq hd.sound hd.order?,
        ok_bind, hensure, ok_bind]
    dsimp only
    rw [hreserve, ok_bind, hinsert, orError_some, ok_bind, ← hnext, hrecord]
    rfl
  · exact ⟨c, hc, hcredential, hprovider, hkind, hstate, r', hrecoveries ▸ hr', hid.trans hrecovery.symm, hr'order⟩
  · intro p hp
    have hmem := mem_of_find? hp
    have hpid := of_find?_decide hp
    have hrows : next.storeOrders = disputeOrder reserved.storeOrders o.id .opened true := by rw [hnext]
    rw [hrows] at hmem
    obtain ⟨q, hq, rfl⟩ := mem_update.1 hmem
    split at hpid
    · rename_i hcase
      rw [if_pos hcase]
      rfl
    · rename_i hcase
      exact absurd (decide_eq_true hpid) hcase
  · have hholds : next.balanceHolds = putHold reserved.balanceHolds o.contract.userId "payment_dispute" (timestamp now) := by
      rw [hnext]
    exact (putHold_onHold hholds).1

theorem openClaim_reusable {record : ClaimRecord}
    (hinput : FreshClaim db input) (horder : input.orderId = o.id) (h : openClaim db input now ids = .ok (record, next)) :
    RecoveryReusable db o := by
  have hfind : db.storeOrders.find? (·.id = o.id) = some o := hd.order?
  rw [openClaim, hinput.valid, require_of hinput.kind, hinput.load] at h
  simp only [openNewClaim, horder, hfind, orError_some, ok_bind, originalReward_eq hd.sound hd.order?, ok_iff] at h
  obtain ⟨_, -, _, -, ⟨recoveryId, ensured⟩, hensure, reserved, hreserve, -⟩ := h
  have hsame := (ensureRecovery_ok_iff hd.sound hd.ids.recovery).1 ⟨_, hensure⟩
  obtain ⟨r, rfl, hensured⟩ := hd.ensured hensure
  have hcase := (hensured.claimReserve_iff hd now).1 ⟨reserved, hreserve⟩
  intro q hq
  refine ⟨hsame q hq, hcase.imp_right (Or.imp_right ?_)⟩
  intro hunused
  exact hensured.unused.1 hunused q hq

end

section

variable [Sha256]

theorem reachable_reserves {s : StoreState} (h : Reachable StoreOpening StoreStep s) :
    BooksInv s ∧ ReservesHeld s.db := by
  apply h.invariant
  · intro s hs
    refine ⟨booksInv_initial hs.initial, ?_⟩
    rw [ReservesHeld, hs.initial.no_recovery]
    exact fun r hr => absurd hr not_mem_nil
  · rintro s t ⟨hbooks, hheld⟩ ⟨e⟩
    exact ⟨storeStep_books hbooks (.run s e), (hbooks.did e).reserves hbooks.sound hheld⟩

/-- A paid order is refundable and disputable exactly when its recovery row can serve once more. -/
theorem paid_order_recoverable_iff {s : StoreState} (h : Reachable StoreOpening StoreStep s)
    {o : StoreOrder} (hmem : o ∈ s.db.storeOrders.rows) (ho : Unclaimed s.db o) {refund : BeginRefundInput}
    {claim : VerifiedRecoveryClaimInput}
    (hrefund : FreshRefund s.db refund) (hclaim : FreshClaim s.db claim) (hrefundOrder : refund.orderId = o.id)
    (hclaimOrder : claim.orderId = o.id) {ids : RecoveryIds} (hids : FreshIds s.db ids) (now : Instant) :
    (((creditedReward s.db o : Int) ≤ storedBalance s.db o.contract.userId →
        ∃ record next, beginRefundWithOutcome s.db refund now ids = .ok ((record, true), next)) ∧
      ∃ record next, openClaim s.db claim now ids = .ok (record, next) ∧ ClaimRecorded next o claim) ↔
    RecoveryReusable s.db o := by
  obtain ⟨hbooks, hready⟩ := reachable_ready h
  have hd : Disputable s.db o ids := ⟨hbooks.sound o.id, (reachable_reserves h).2, hready.balances, hmem, ho, hids⟩
  constructor
  · rintro ⟨-, record, next, hok, -⟩
    exact openClaim_reusable hd hclaim hclaimOrder hok
  · intro hreusable
    refine ⟨?_, openClaim_ok hd hclaim hclaimOrder hreusable⟩
    intro hcovers
    exact beginRefundWithOutcome_ok hd hbooks.linked hrefund hrefundOrder hcovers hreusable

end

def sampleRefund : BeginRefundInput := ⟨"order-1", "admin", "refund-2"⟩

def sampleClaim : VerifiedRecoveryClaimInput := ⟨"order-1", "credential", "claim-2", none, .dispute⟩

def sampleIds : RecoveryIds := ⟨"r9", "l9", "f9", "k9"⟩

def fulfilledRun : List StoreEvent :=
  [sampleCreate none, samplePaidEvent "700", .fulfill "order-1" none 0 ⟨"l2", "e2", "c2"⟩]

def rejectedRun : List StoreEvent := fulfilledRun ++
  [.beginRefund ⟨"order-1", "admin", "refund-1"⟩ 0 ⟨"r1", "l3", "f1", "k1"⟩, .rejectRefund "f1" 0 ⟨"r2", "l4", "f2", "k2"⟩]

def wonBeforeFulfilledRun : List StoreEvent :=
  [sampleCreate none, samplePaidEvent "700",
    .openClaim ⟨"order-1", "credential", "claim-1", none, .dispute⟩ 0 ⟨"r1", "l3", "f1", "k1"⟩,
    .winClaim "k1" 0 ⟨"r2", "l4", "f2", "k2"⟩, .fulfill "order-1" none 0 ⟨"l2", "e2", "c2"⟩]

open SampleDigests

theorem paid_order_recoverable_sample : ∃ o ∈ (runStore fulfilledRun).db.storeOrders.rows, o.paymentState = .paid ∧
    (∃ record next, beginRefundWithOutcome (runStore fulfilledRun).db sampleRefund 0 sampleIds = .ok ((record, true), next)) ∧
    ∃ record next, openClaim (runStore fulfilledRun).db sampleClaim 0 sampleIds = .ok (record, next) ∧
      ClaimRecorded next o sampleClaim := by
  have hrow : ∃ o ∈ (runStore fulfilledRun).db.storeOrders.rows, o.id = "order-1" ∧ Unclaimed (runStore fulfilledRun).db o ∧
      (creditedReward (runStore fulfilledRun).db o : Int) ≤ storedBalance (runStore fulfilledRun).db o.contract.userId := by
    decide +kernel
  obtain ⟨o, ho, hid, hunclaimed, hcovers⟩ := hrow
  have hreusable : RecoveryReusable (runStore fulfilledRun).db o := by
    intro r hr
    exact nomatch hr
  have hrefund : FreshRefund (runStore fulfilledRun).db sampleRefund := by decide +kernel
  have hclaim : FreshClaim (runStore fulfilledRun).db sampleClaim := by decide +kernel
  have hids : FreshIds (runStore fulfilledRun).db sampleIds := by decide +kernel
  have hboth := (paid_order_recoverable_iff (runStore_reachable fulfilledRun) ho hunclaimed hrefund hclaim hid.symm hid.symm
    hids 0).2 hreusable
  exact ⟨o, ho, hunclaimed.paid, hboth.1 hcovers, hboth.2⟩

theorem paid_order_not_recoverable :
    (∃ o ∈ (runStore rejectedRun).db.storeOrders.rows, o.id = sampleRefund.orderId ∧ Unclaimed (runStore rejectedRun).db o ∧
      (creditedReward (runStore rejectedRun).db o : Int) ≤ storedBalance (runStore rejectedRun).db o.contract.userId ∧
      FreshRefund (runStore rejectedRun).db sampleRefund ∧ FreshClaim (runStore rejectedRun).db sampleClaim ∧
      FreshIds (runStore rejectedRun).db sampleIds ∧
      beginRefundWithOutcome (runStore rejectedRun).db sampleRefund 0 sampleIds = .error .conflict ∧
      openClaim (runStore rejectedRun).db sampleClaim 0 sampleIds = .error .conflict) ∧
    ∃ o ∈ (runStore wonBeforeFulfilledRun).db.storeOrders.rows, o.id = sampleClaim.orderId ∧
      Unclaimed (runStore wonBeforeFulfilledRun).db o ∧ FreshClaim (runStore wonBeforeFulfilledRun).db sampleClaim ∧
      FreshIds (runStore wonBeforeFulfilledRun).db sampleIds ∧
      openClaim (runStore wonBeforeFulfilledRun).db sampleClaim 0 sampleIds = .error .conflict := by
  simp only [← failure?_eq_some]
  decide +kernel

end Monoize
