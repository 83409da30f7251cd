import Monoize.MeteringOnce
import Monoize.MoneyOperations
import Monoize.RetentionHolds

/-! Whether a retention run can be seen in the money. -/

namespace Monoize

open Fallible MachineInt Relational List Option Table

variable {f : Refund} {orderId : String} {s : RetentionStore} {now : Int} {roots : List FinancialCandidate}

def LiveOrder (db : Database) (orderId : String) : Prop :=
  ∃ o ∈ db.storeOrders.rows, o.id = orderId ∧ o.isTerminal = false

def OpenRefund (db : Database) (f : Refund) : Prop := f ∈ db.refunds.rows ∧ f.isOpen ∧ LiveOrder db f.orderId

def RecoveryInUse (db : Database) (r : RewardRecovery) : Prop :=
  LiveOrder db r.orderId ∨ ∃ f c, OpenRefund db f ∧ refundClaim db f.idempotencyKey = some (c, r)

def OpenClaim (db : Database) (c : RecoveryClaim) : Prop :=
  c ∈ db.recoveryClaims.rows ∧ c.state = .opened ∧
    ∃ r, db.rewardRecoveries.find? (·.id = c.recoveryId) = some r ∧ RecoveryInUse db r

def MoneyOp.Pending (db : Database) : MoneyOp → Prop
  | .markRefundPending refundId _ | .rejectRefund refundId .. | .completeRefund refundId _ =>
    ∃ f, OpenRefund db f ∧ f.id = refundId
  | .winClaim claimId .. | .loseClaim claimId .. => ∃ c ∈ db.recoveryClaims.rows, c.id = claimId ∧ c.state = .opened ∧
    ∃ r, db.rewardRecoveries.find? (·.id = c.recoveryId) = some r ∧ LiveOrder db r.orderId

def MoneyOp.Fresh (db : Database) (op : MoneyOp) : Prop :=
  ∀ ledgerId, op.ledgerId = some ledgerId → ∀ row ∈ db.billingLedger.rows, row.id ≠ ledgerId

def Charged (db : Database) (d : BalanceDelta) : Prop :=
  ∃ amount, trimmed? 127 d.amountNanoUsd = some amount ∧ ledgerRow d amount ∈ db.billingLedger.rows

/-- Balances, holds, and the live orders and the recoveries in use of `db` are the same in both databases. -/
structure SameMoney (db next next' : Database) : Prop where
  users : next'.users = next.users
  apiKeys : next'.apiKeys = next.apiKeys
  balanceHolds : next'.balanceHolds = next.balanceHolds
  orders : ∀ orderId, LiveOrder db orderId →
    next'.storeOrders.find? (·.id = orderId) = next.storeOrders.find? (·.id = orderId)
  recoveries : ∀ r ∈ db.rewardRecoveries.rows, RecoveryInUse db r →
    next'.rewardRecoveries.find? (·.id = r.id) = next.rewardRecoveries.find? (·.id = r.id)

def SameOutcome {ε α : Type} (db : Database) : Except ε (α × Database) → Except ε (α × Database) → Prop :=
  Related fun p q => p.1 = q.1 ∧ SameMoney db p.2 q.2

structure MoneyUnseen [Sha256] (db db' : Database) : Prop where
  refunds : ∀ f, OpenRefund db f → f ∈ db'.refunds.rows ∧ loadRefundMutation db' f.id = loadRefundMutation db f.id
  claims : ∀ c, OpenClaim db c → c ∈ db'.recoveryClaims.rows
  operations : ∀ op : MoneyOp, op.Pending db → op.Fresh db → SameOutcome db (op.run db) (op.run db')
  redelivery : ∀ deltas violationId, (∀ d ∈ deltas, Charged db d) →
    SameOutcome db (applyMeteringBatch db { balanceDeltas := deltas } violationId)
      (applyMeteringBatch db' { balanceDeltas := deltas } violationId)

/-- The open refunds of live orders are kept with their claims and recoveries, and so are the open claims. -/
structure KeepsOpen (k : Cut) (db : Database) : Prop where
  refunds : ∀ f, OpenRefund db f → k.refund f.id f.orderId = true
  attached : ∀ f c r, OpenRefund db f → refundClaim db f.idempotencyKey = some (c, r) →
    k.claim c.id c.recoveryId = true ∧ k.recovery r.id = true
  claims : ∀ c, OpenClaim db c → k.claim c.id c.recoveryId = true

/-- The ledger rows of applied deltas are kept as well, and those whose key a pending operation would book next. -/
structure SparesMoney (k : Cut) (keepRow : String → Bool) (db : Database) : Prop extends KeepsOpen k db where
  bookings : ∀ op : MoneyOp, op.Pending db → op.Fresh db → ∀ result next, op.run (unbooked db) = .ok (result, next) →
    ∀ row ∈ db.billingLedger.rows, ∀ booked ∈ next.billingLedger.rows, row.idempotencyKey = booked.idempotencyKey →
      keepRow row.id = true
  charges : ∀ d, Charged db d → keepRow d.deltaId = true

structure LeftOver (k : Cut) (keepRow : String → Bool) (db db' : Database) : Prop where
  thinned : Thinned k db db'
  ledger : db.billingLedger.Thins db'.billingLedger fun row => keepRow row.id
  order : ∀ orderId, LiveOrder db orderId → k.order orderId = true
  recovery : ∀ r ∈ db.rewardRecoveries.rows, LiveOrder db r.orderId → k.recovery r.id = true

section

variable {k : Cut} {keepRow : String → Bool} {db db' next next' : Database} {op : MoneyOp}
  {result : Option RefundRecord} {row booked : BillingLedgerRow} {r : RewardRecovery} {d : BalanceDelta}

theorem refundClaim_mem {key : String} {c : RecoveryClaim} (h : refundClaim db key = some (c, r)) :
    c ∈ db.recoveryClaims.rows ∧ r ∈ db.rewardRecoveries.rows := by
  obtain ⟨c', hc', hjoin⟩ := exists_of_findSome?_eq_some h
  split at hjoin
  · obtain ⟨r', hr', heq⟩ := map_eq_some_iff.1 hjoin
    cases heq
    exact ⟨hc', mem_of_find? hr'⟩
  · cases hjoin

theorem SameMoney.trans {last : Database} (h : SameMoney db next next') (h' : SameMoney db next last) :
    SameMoney db next' last where
  users := h'.users.trans h.users.symm
  apiKeys := h'.apiKeys.trans h.apiKeys.symm
  balanceHolds := h'.balanceHolds.trans h.balanceHolds.symm
  orders orderId hlive := (h'.orders orderId hlive).trans (h.orders orderId hlive).symm
  recoveries r hr huse := (h'.recoveries r hr huse).trans (h.recoveries r hr huse).symm

def Cut.all : Cut := ⟨fun _ => true, fun _ _ => true, fun _ => true, fun _ _ => true⟩

theorem LeftOver.refl (db : Database) : LeftOver Cut.all (fun _ => true) db db where
  thinned := ⟨rfl, rfl, rfl, rfl, rfl, rfl, rfl, (filter_true _).symm, (filter_true _).symm, (filter_true _).symm,
    (filter_true _).symm⟩
  ledger := (filter_true _).symm
  order _ _ := rfl
  recovery _ _ _ := rfl

theorem KeepsOpen.all (db : Database) : KeepsOpen Cut.all db := ⟨fun _ _ => rfl, fun _ _ _ _ _ => ⟨rfl, rfl⟩, fun _ _ => rfl⟩

theorem Charged.find? (h : Charged db d) :
    ∃ row, db.billingLedger.find? (·.idempotencyKey = some d.deltaId) = some row := by
  obtain ⟨amount, -, hrow⟩ := h
  rw [← Option.isSome_iff_exists, Table.find?, List.find?_isSome]
  exact ⟨ledgerRow d amount, hrow, decide_eq_true rfl⟩

theorem applyDeltas_charged {deltas : List BalanceDelta} (h : ∀ d ∈ deltas, Charged db d) :
    applyDeltas db deltas = .ok (0, db) := by
  induction deltas with
  | nil => rfl
  | cons d deltas ih =>
    obtain ⟨amount, hamount, -⟩ := h d mem_cons_self
    obtain ⟨row, hrow⟩ := (h d mem_cons_self).find?
    have hfirst : applyBalanceDelta db d = .ok (0, db) := by
      rw [applyBalanceDelta, hamount, orError_some, ok_bind, hrow]
      rfl
    rw [applyDeltas, hfirst, ok_bind]
    simp only [ih fun d' hd' => h d' (mem_cons_of_mem d hd'), ok_bind]
    rfl

theorem applyMeteringBatch_deltas [Sha256] (db : Database) (deltas : List BalanceDelta)
    (violationId : String) : applyMeteringBatch db { balanceDeltas := deltas } violationId =
      (liftStorage (applyDeltas db deltas)).map fun p => (⟨p.1, []⟩, p.2) := by
  rw [applyMeteringBatch]
  have hnone : applyTerminalBatch db violationId [] = .ok ([], db) := rfl
  simp only [hnone, ok_bind]
  cases applyDeltas db deltas with
  | error e => rfl
  | ok p => rfl

theorem OpenRefund.find? (hf : OpenRefund db f) : db.refunds.find? (·.id = f.id) = some f :=
  find?_eq_some_of_mem hf.1 (decide_eq_true rfl) fun _ h => .inl (of_decide_eq_true h)

theorem LiveOrder.find? (h : LiveOrder db orderId) : ∃ o, db.storeOrders.find? (·.id = orderId) = some o := by
  obtain ⟨o, ho, hid, -⟩ := h
  rw [← Option.isSome_iff_exists, Table.find?, List.find?_isSome]
  exact ⟨o, ho, decide_eq_true hid⟩

variable (hleft : LeftOver k keepRow db db')

include hleft

theorem RecoveryInUse.keeps (hopen : KeepsOpen k db)
    (hr : r ∈ db.rewardRecoveries.rows) (huse : RecoveryInUse db r) : KeepsRecovery k db r := by
  constructor
  · rcases huse with hlive | ⟨f, c, hf, hcr⟩
    · exact hleft.recovery r hr hlive
    · exact (hopen.attached f c r hf hcr).2
  · intro c hc hrecovery hstate
    apply hopen.claims c
    refine ⟨hc, hstate, r, ?_, huse⟩
    rw [hrecovery]
    exact recovery_of_id hr

theorem OpenRefund.keeps (hopen : KeepsOpen k db) (hf : OpenRefund db f) : KeepsRefund k db f.id := by
  intro f' hf' hid
  have hsame : f' = f := eq_of_clashes hf' hf.1 (.inl hid)
  subst hsame
  refine ⟨hopen.refunds f' hf, hleft.order f'.orderId hf.2.2, ?_⟩
  intro c r hcr
  exact ⟨(hopen.attached f' c r hf hcr).1,
    RecoveryInUse.keeps hleft hopen (refundClaim_mem hcr).2 (.inr ⟨f', c, hf, hcr⟩)⟩

theorem MoneyOp.Pending.keeps (hopen : KeepsOpen k db) {op : MoneyOp} (hop : op.Pending db) : op.Keeps k db := by
  have hrefund {refundId : String} (h : ∃ f, OpenRefund db f ∧ f.id = refundId) : KeepsRefund k db refundId := by
    obtain ⟨f, hf, rfl⟩ := h
    exact hf.keeps hleft hopen
  have hclaim {claimId : String} (h : ∃ c ∈ db.recoveryClaims.rows, c.id = claimId ∧ c.state = .opened ∧
      ∃ r, db.rewardRecoveries.find? (·.id = c.recoveryId) = some r ∧ LiveOrder db r.orderId) :
      KeepsClaim k db claimId := by
    obtain ⟨c, hc, rfl, hstate, r, hr, hlive⟩ := h
    intro c' hc' hid
    have hsame : c' = c := eq_of_clashes hc' hc (.inl hid)
    subst hsame
    refine ⟨hopen.claims c' ⟨hc, hstate, r, hr, .inl hlive⟩, ?_⟩
    intro r' hr'
    rw [hr, some.injEq] at hr'
    subst hr'
    exact ⟨RecoveryInUse.keeps hleft hopen (mem_of_find? hr) (.inl hlive), hleft.order r.orderId hlive⟩
  cases op with
  | markRefundPending _ _ | rejectRefund _ _ _ | completeRefund _ _ => exact hrefund hop
  | winClaim claimId now ids => exact hclaim hop
  | loseClaim claimId now ids => exact hclaim hop

theorem Thinned.sameMoney (hopen : KeepsOpen k db) (h : Thinned k next next') : SameMoney db next next' where
  users := h.users
  apiKeys := h.apiKeys
  balanceHolds := h.balanceHolds
  orders orderId hlive := h.order (hleft.order orderId hlive)
  recoveries r hr huse := by
    apply h.recoveries.find?
    intro r' _ hid
    rw [of_decide_eq_true hid]
    exact (RecoveryInUse.keeps hleft hopen hr huse).1

theorem append?_leftOver (rows : Table BillingLedgerRow)
    (hkept : ∀ row ∈ db.billingLedger.rows, ∀ booked ∈ rows.rows, Clashes row booked → keepRow row.id = true) :
    (db'.billingLedger.append? rows).isSome = (db.billingLedger.append? rows).isSome := by
  rw [Bool.eq_iff_iff, append?_isSome, append?_isSome]
  constructor
  · intro h row hrow booked hbooked hclash
    exact h row (hleft.ledger.mem.2 ⟨hrow, hkept row hrow booked hbooked hclash⟩) booked hbooked hclash
  · intro h row hrow
    exact h row (hleft.ledger.mem.1 hrow).1

theorem MoneyOp.Pending.books (hopen : KeepsOpen k db) (hop : op.Pending db) :
    BooksWith k op.ledgerId db'.billingLedger (op.run (unbooked db)) (op.run db') := by
  have hunbooked : Unbooked k db'.billingLedger (unbooked db) db' :=
    { hleft.thinned with
      clean := rfl
      ledger := rfl }
  exact MoneyOp.run_books hunbooked op (hop.keeps hleft hopen)

omit hleft

theorem MoneyOp.Pending.owns (hop : op.Pending db) (hrun : op.run (unbooked db) = .ok (result, next)) :
    Owns op.ledgerId next.billingLedger := by
  have hbooks := hop.books (LeftOver.refl db) (KeepsOpen.all db)
  rw [hrun] at hbooks
  rcases hbooks.ok_left with ⟨_, -, -, hbooked⟩ | ⟨_, -, howns, -⟩
  · exact hbooked.rows
  · exact howns

theorem MoneyOp.Fresh.clash (hfresh : op.Fresh db) (howns : Owns op.ledgerId next.billingLedger)
    (hrow : row ∈ db.billingLedger.rows) (hbooked : booked ∈ next.billingLedger.rows) :
    Clashes row booked ↔ row.idempotencyKey = booked.idempotencyKey := by
  obtain ⟨hid, hkey⟩ := howns booked hbooked
  constructor
  · rintro (hsame | hsame)
    · exact absurd hsame (hfresh booked.id hid row hrow)
    · exact hsame.2
  · intro hsame
    refine .inr ⟨?_, hsame⟩
    show row.idempotencyKey ≠ none
    rw [hsame]
    exact hkey

include hleft

theorem SparesMoney.operations (h : SparesMoney k keepRow db)
    (hop : op.Pending db) (hfresh : op.Fresh db) : SameOutcome db (op.run db) (op.run db') := by
  have hbooks := hop.books (LeftOver.refl db) (KeepsOpen.all db)
  have hbooks' := hop.books hleft h.toKeepsOpen
  cases hrun : op.run (unbooked db) with
  | error e =>
    rw [hrun] at hbooks hbooks'
    rw [hbooks.error_left, hbooks'.error_left]
    exact .error e
  | ok p =>
    obtain ⟨result, next⟩ := p
    have howns := hop.owns hrun
    rw [hrun] at hbooks hbooks'
    have hsome := append?_leftOver hleft next.billingLedger fun row hrow booked hbooked hclash =>
      h.bookings op hop hfresh result next hrun row hrow booked hbooked ((hfresh.clash howns hrow hbooked).1 hclash)
    rcases hbooks.ok_left with ⟨p, hp, hresult, hbooked⟩ | ⟨_, he, -, hnone, rfl⟩
    · rcases hbooks'.ok_left with ⟨q, hq, hresult', hbooked'⟩ | ⟨_, -, -, hnone, -⟩
      · rw [hp, hq]
        have hsame := hbooked.toThinned.sameMoney (LeftOver.refl db) (KeepsOpen.all db)
        exact .ok ⟨hresult.symm.trans hresult', hsame.trans (hbooked'.toThinned.sameMoney hleft h.toKeepsOpen)⟩
      · rw [hnone, hbooked.appended] at hsome
        cases hsome
    · rcases hbooks'.ok_left with ⟨_, -, -, hbooked'⟩ | ⟨_, he', -, -, rfl⟩
      · rw [hnone, hbooked'.appended] at hsome
        cases hsome
      · rw [he, he']
        exact .error _

theorem SparesMoney.charged (h : SparesMoney k keepRow db) (hd : Charged db d) : Charged db' d := by
  obtain ⟨amount, hamount, hrow⟩ := hd
  exact ⟨amount, hamount, hleft.ledger.mem.2 ⟨hrow, h.charges d ⟨amount, hamount, hrow⟩⟩⟩

theorem SparesMoney.unseen [Sha256] (h : SparesMoney k keepRow db) : MoneyUnseen db db' where
  refunds f hf := by
    constructor
    · exact hleft.thinned.refunds.mem.2 ⟨hf.1, h.refunds f hf⟩
    · exact hleft.thinned.loadRefundMutation (hf.keeps hleft h.toKeepsOpen)
  claims c hc := hleft.thinned.claims.mem.2 ⟨hc.1, h.claims c hc⟩
  operations op hop hfresh := h.operations hleft hop hfresh
  redelivery deltas violationId hdeltas := by
    rw [applyMeteringBatch_deltas, applyMeteringBatch_deltas, applyDeltas_charged hdeltas,
      applyDeltas_charged fun d hd => h.charged hleft (hdeltas d hd)]
    have hsame := hleft.thinned.sameMoney hleft h.toKeepsOpen
    exact .ok ⟨rfl, hsame⟩

theorem MoneyUnseen.keepsOpen [Sha256] (h : MoneyUnseen db db') : KeepsOpen k db where
  refunds f hf := (hleft.thinned.refunds.mem.1 (h.refunds f hf).1).2
  attached f c r hf hcr := by
    obtain ⟨o, ho⟩ := hf.2.2.find?
    have hload : loadRefundMutation db f.id = .ok ⟨f, c, r, o⟩ := by
      rw [loadRefundMutation, hf.find?, orError_some, ok_bind, hcr, orError_some, ok_bind]
      simp only [ho, orError_some, ok_bind]
      rfl
    have hload' := loadRefundMutation_rows ((h.refunds f hf).2.trans hload)
    obtain ⟨hc, hr⟩ := refundClaim_mem hload'.2.2.1
    exact ⟨(hleft.thinned.claims.mem.1 hc).2, (hleft.thinned.recoveries.mem.1 hr).2⟩
  claims c hc := (hleft.thinned.claims.mem.1 (h.claims c hc)).2

theorem MoneyUnseen.bookings [Sha256] (h : MoneyUnseen db db') (hop : op.Pending db) (hfresh : op.Fresh db)
    (hrun : op.run (unbooked db) = .ok (result, next))
    (hrow : row ∈ db.billingLedger.rows) (hbooked : booked ∈ next.billingLedger.rows)
    (hkey : row.idempotencyKey = booked.idempotencyKey) : keepRow row.id = true := by
  have howns := hop.owns hrun
  have hbooks := hop.books (LeftOver.refl db) (KeepsOpen.all db)
  have hbooks' := hop.books hleft (h.keepsOpen hleft)
  rw [hrun] at hbooks hbooks'
  have houtcome := h.operations op hop hfresh
  rcases hbooks.ok_left with ⟨_, -, -, hfree⟩ | ⟨_, hconflict, -⟩
  · have hsome : (db.billingLedger.append? next.billingLedger).isSome = true := by rw [hfree.appended, isSome_some]
    exact absurd ((hfresh.clash howns hrow hbooked).2 hkey) (append?_isSome.1 hsome row hrow booked hbooked)
  rw [hconflict] at houtcome
  rcases hbooks'.ok_left with ⟨_, hok, -⟩ | ⟨_, -, -, happend, -⟩
  · cases hok.symm.trans houtcome.error_left
  rw [← not_isSome_iff_eq_none, append?_isSome] at happend
  push Not at happend
  obtain ⟨row', hrow', booked', hbooked', hclash⟩ := happend
  have hmem := hleft.ledger.mem.1 hrow'
  have hsingle : booked' = booked := by
    have hid := (howns booked' hbooked').1
    rw [(howns booked hbooked).1, some.injEq] at hid
    exact eq_of_clashes hbooked' hbooked (.inl hid.symm)
  have hkey' := (hfresh.clash howns hmem.1 hbooked').1 hclash
  rw [hsingle, ← hkey] at hkey'
  have hnone := (howns booked hbooked).2
  have hsame : row' = row := by
    apply eq_of_clashes hmem.1 hrow
    refine .inr ⟨?_, hkey'⟩
    show row'.idempotencyKey ≠ none
    rw [hkey', hkey]
    exact hnone
  rw [← hsame]
  exact hmem.2

theorem MoneyUnseen.charges [Sha256] (h : MoneyUnseen db db') (hd : Charged db d) : keepRow d.deltaId = true := by
  have houtcome := h.redelivery [d] "" (by
    intro d' hd'
    rw [mem_singleton] at hd'
    exact hd' ▸ hd)
  obtain ⟨amount, hamount, hrow⟩ := id hd
  by_contra hdeleted
  have hnone : db'.billingLedger.find? (·.idempotencyKey = some d.deltaId) = none := by
    rw [Table.find?, List.find?_eq_none]
    intro row hrow' hkey
    have hmem := hleft.ledger.mem.1 hrow'
    have hkey := of_decide_eq_true hkey
    have hsame : row = ledgerRow d amount := by
      apply eq_of_clashes hmem.1 hrow
      refine .inr ⟨?_, hkey⟩
      show row.idempotencyKey ≠ none
      rw [hkey]
      exact some_ne_none _
    rw [hsame] at hmem
    exact hdeleted hmem.2
  rw [applyMeteringBatch_deltas, applyMeteringBatch_deltas, applyDeltas_charged (by simpa using hd)] at houtcome
  obtain ⟨⟨ack, next⟩, hbatch, hack, -⟩ := houtcome.ok_left
  cases hdeltas : applyDeltas db' [d] with
  | error e =>
    rw [hdeltas] at hbatch
    cases hbatch
  | ok p =>
    rw [hdeltas] at hbatch
    cases hbatch
    have hzero : 0 = p.1 := congrArg MeteringAck.appliedBalanceDeltas hack
    simp only [applyDeltas, ok_iff, Prod.exists] at hdeltas
    obtain ⟨n, mid, hfirst, m, last, -, rfl⟩ := hdeltas
    rw [applyBalanceDelta, hamount, orError_some, ok_bind, hnone] at hfirst
    simp only [isSome_none, Bool.false_eq_true, if_false, ok_iff] at hfirst
    obtain ⟨ledger, -, charged, -, rfl, -⟩ := hfirst
    simp only at hzero
    omega

theorem moneyUnseen_iff [Sha256] : MoneyUnseen db db' ↔ SparesMoney k keepRow db := by
  constructor
  · intro h
    exact { h.keepsOpen hleft with
      bookings := fun _ hop hfresh _ _ hrun _ hrow _ hbooked hkey => h.bookings hleft hop hfresh hrun hrow hbooked hkey
      charges := fun _ hd => h.charges hleft hd }
  · exact SparesMoney.unseen hleft

end

def retentionCut (s : RetentionStore) (now : Int) (roots : List FinancialCandidate) : Cut where
  order id := !selects roots .orders id
  refund id orderId := !(selects roots .refunds id || (selects roots .orders orderId && unheld s now id))
  recovery id := !s.db.rewardRecoveries.rows.any fun r => r.id = id ∧ recoveryReached s now roots r
  claim id recoveryId := !(selects roots .recoveryClaims id ||
    (unheld s now id && s.db.rewardRecoveries.rows.any fun r => r.id = recoveryId ∧ selects roots .orders r.orderId))

theorem retentionCut_recovery {r : RewardRecovery}
    (hr : r ∈ s.db.rewardRecoveries.rows) : (retentionCut s now roots).recovery r.id = !recoveryReached s now roots r := by
  rw [retentionCut, Bool.not_inj_iff, Bool.eq_iff_iff]
  simp only [List.any_eq_true, decide_eq_true_eq]
  constructor
  · rintro ⟨r', hr', hid, hreached⟩
    rw [← eq_of_clashes hr' hr (.inl hid)]
    exact hreached
  · exact fun hreached => ⟨r, hr, rfl, hreached⟩

theorem runCandidates_terminal {now : Instant} {policy : StorePrivacyRetention}
    (hlive : LiveOrder s.db orderId) : selects (runCandidates s now policy) .orders orderId = false := by
  obtain ⟨o, ho, rfl, hstate⟩ := hlive
  rw [Bool.eq_false_iff]
  intro h
  obtain ⟨c, hc, htable, hid⟩ := selects_iff.1 h
  have hroot := runCandidates_root hc
  simp only [financialRoots, List.mem_append, List.mem_map] at hroot
  rcases hroot with (((((⟨o', ho', rfl⟩ | ⟨_, _, rfl⟩) | ⟨_, _, rfl⟩) | ⟨_, _, rfl⟩) | ⟨_, _, rfl⟩) | ⟨_, _, rfl⟩) | ⟨_, _, rfl⟩
  all_goals try cases htable
  have hsame : o = o' := eq_of_clashes ho (mem_filter.1 ho').1 (.inl hid)
  have hterminal := (mem_filter.1 ho').2
  rw [← hsame, hstate] at hterminal
  cases hterminal

theorem Pruned.leftOver {next : RetentionStore} (h : Pruned s next now roots)
    (hlive : ∀ orderId, LiveOrder s.db orderId → selects roots .orders orderId = false) :
    LeftOver (retentionCut s now roots) (fun id => !selects roots .billingLedger id) s.db next.db where
  thinned := by
    have hframe := h.frame
    constructor
    case recoveries =>
      show next.db.rewardRecoveries.rows = _
      rw [h.recoveries]
      apply filter_congr
      intro r hr
      exact (retentionCut_recovery hr).symm
    case orders => exact h.orders
    case refunds => exact h.refunds
    case claims => exact h.claims
    all_goals rw [hframe]
  ledger := h.ledger
  order orderId horder := by
    show (!selects roots .orders orderId) = true
    rw [hlive orderId horder]
    rfl
  recovery r hr horder := by
    rw [retentionCut_recovery hr, recoveryReached, hlive r.orderId horder]
    rfl

theorem runAt_leftOver (parseTime : String → Option Instant) (s : RetentionStore) (ownerId : String) (clock : Instant)
    (actor : RetentionRunActor) (ids : RetentionIds) :
    LeftOver (retentionCut s (timestamp (canonicalTime clock)) (deletedRoots parseTime s ownerId clock actor ids))
      (fun id => !selects (deletedRoots parseTime s ownerId clock actor ids) .billingLedger id) s.db
      (runAt parseTime s ownerId clock actor ids).1.db := by
  rcases runAt_cases parseTime s ownerId clock actor ids with
    ⟨hnone, hgrown⟩ | ⟨claimed, policy, counts, applied, hclaimed, -, happlied, hgrown, hroots⟩
  · rw [hnone, hgrown.frame]
    exact (Pruned.refl s (timestamp (canonicalTime clock))).leftOver fun _ _ => rfl
  obtain ⟨cleared, f, pruned, hcleared, hpruned, hswept⟩ := applyRetention_inv happlied
  have hleft := hpruned.leftOver (by
    intro orderId horder
    rw [hcleared.frame] at horder
    exact runCandidates_terminal horder)
  have hclaimedDb : claimed.db = s.db := by rw [hclaimed.frame]
  have hclearedDb := congrArg RetentionStore.db hcleared.frame
  rw [hclaimedDb] at hclearedDb
  have hrecoveries : cleared.db.rewardRecoveries = s.db.rewardRecoveries := by
    rw [hclearedDb]
  have hcut (roots : List FinancialCandidate) : retentionCut cleared (timestamp (canonicalTime clock)) roots =
      retentionCut s (timestamp (canonicalTime clock)) roots := by
    have hheld (id : String) : unheld cleared (timestamp (canonicalTime clock)) id =
        unheld s (timestamp (canonicalTime clock)) id := by
      rw [unheld, unheld, hcleared.held, hclaimed.held]
    have hreached : recoveryReached cleared (timestamp (canonicalTime clock)) roots =
        recoveryReached s (timestamp (canonicalTime clock)) roots := by
      funext r
      rw [recoveryReached, recoveryReached, hheld]
    rw [retentionCut, retentionCut, hrecoveries, hreached]
    simp only [hheld]
  rw [hroots, hgrown.frame, hswept.frame]
  rw [hcut, hclearedDb] at hleft
  exact ⟨{ hleft.thinned with users := hleft.thinned.users }, hleft.ledger, hleft.order, hleft.recovery⟩

/-- The money does not show a retention run exactly when the run spares the rows that pending operations and applied
charges rest on. -/
theorem runAt_unseen_iff [Sha256] (parseTime : String → Option Instant) (s : RetentionStore)
    (ownerId : String) (clock : Instant) (actor : RetentionRunActor) (ids : RetentionIds) :
    MoneyUnseen s.db (runAt parseTime s ownerId clock actor ids).1.db ↔
      SparesMoney
        (retentionCut s (timestamp (canonicalTime clock)) (deletedRoots parseTime s ownerId clock actor ids))
        (fun id => !selects (deletedRoots parseTime s ownerId clock actor ids) .billingLedger id) s.db :=
  moneyUnseen_iff (runAt_leftOver parseTime s ownerId clock actor ids)

section Sample

def sampleCharge : MeteringBatch := { balanceDeltas := [sampleDelta "d1" "request_charge" "5"] }

open SampleDigests

-- A user with a balance of 100 who was charged 5 on 1 January; the run is on 1 June under a policy of one day.
def sampleChargedStore : RetentionStore :=
  { db := commit sampleAccounts (applyMeteringBatch sampleAccounts sampleCharge "v")
    privacyRecords := sampleRetentionStore.privacyRecords }

def sampleRunOn (s : RetentionStore) : RetentionStore :=
  (runAt sampleReadTime s "owner" (seconds 1780272000) sampleRetentionActor sampleRetentionIds).1

theorem runAt_recharges_delta :
    (applyMeteringBatch sampleAccounts sampleCharge "v").isOk = true ∧
    balanceOf sampleChargedStore.db (.user "user") = some 95 ∧
    balanceOf (sampleRunOn sampleChargedStore).db (.user "user") = some 95 ∧
    balanceOf (commit sampleChargedStore.db (applyMeteringBatch sampleChargedStore.db sampleCharge "v"))
      (.user "user") = some 95 ∧
    balanceOf (commit (sampleRunOn sampleChargedStore).db
      (applyMeteringBatch (sampleRunOn sampleChargedStore).db sampleCharge "v")) (.user "user") = some 90 ∧
    ¬ MoneyUnseen sampleChargedStore.db (sampleRunOn sampleChargedStore).db := by
  refine ⟨by decide +kernel, by decide +kernel, by decide +kernel, by decide +kernel, by decide +kernel, ?_⟩
  intro h
  have hcharged : Charged sampleChargedStore.db (sampleDelta "d1" "request_charge" "5") :=
    ⟨5, by decide +kernel, by decide +kernel⟩
  have hkept := h.charges (runAt_leftOver sampleReadTime sampleChargedStore "owner" (seconds 1780272000)
    sampleRetentionActor sampleRetentionIds) hcharged
  have hdeleted : selects (deletedRoots sampleReadTime sampleChargedStore "owner" (seconds 1780272000)
    sampleRetentionActor sampleRetentionIds) .billingLedger (sampleDelta "d1" "request_charge" "5").deltaId = true := by
    decide +kernel
  rw [hdeleted] at hkept
  cases hkept

end Sample

end Monoize
