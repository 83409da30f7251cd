import Monoize.RefundLifecycle
import Monoize.StoreCredit

/-! When a refund that the provider confirmed can be recorded. -/

namespace Monoize

open Fallible MachineInt Relational Transition Option Table

variable {f : Refund} {db next : Database}

/-- Balances and commissions are machine integers, and every entry's agent exists. -/
structure CommissionsSound (db : Database) : Prop where
  balances : ∀ a ∈ db.salesAgents.rows, -2 ^ 127 ≤ a.commissionBalanceFen ∧ a.commissionBalanceFen < 2 ^ 127
  amounts : ∀ e ∈ db.commissionEntries.rows, 0 ≤ e.commissionFen ∧ e.commissionFen < 2 ^ 127
  agents : ∀ e ∈ db.commissionEntries.rows, ∃ a ∈ db.salesAgents.rows, a.userId = e.agentUserId

theorem agents_update_mem {agents : Table SalesAgent} {p : SalesAgent → Bool} {f : SalesAgent → SalesAgent} (hf)
    {a : SalesAgent} (ha : a ∈ agents.rows) :
    ∃ a' ∈ (agents.update p f hf).rows, a'.userId = a.userId ∧ a'.code = a.code := by
  refine ⟨_, mem_update.2 ⟨a, ha, rfl⟩, ?_⟩
  split
  · exact ⟨congrArg Prod.fst (hf a), congrArg Prod.snd (hf a)⟩
  · exact ⟨rfl, rfl⟩

theorem CommissionEvent.agentsStay (h : CommissionEvent db next) {a : SalesAgent} (ha : a ∈ db.salesAgents.rows) :
    ∃ a' ∈ next.salesAgents.rows, a'.userId = a.userId ∧ a'.code = a.code := by
  rcases h with ⟨o, -, hmove⟩ | ⟨-, hsame | hmanaged⟩
  · cases hmove with
    | idle _ hagents =>
      rw [hagents]
      exact ⟨a, ha, rfl, rfl⟩
    | accrue _ _ h _ | reverse _ _ _ h _ =>
      rw [h.agents]
      exact agents_update_mem _ ha
  · rw [hsame]
    exact ⟨a, ha, rfl, rfl⟩
  · cases hmanaged with
    | enroll b _ hinsert => exact ⟨a, (mem_insert hinsert).2 (.inl ha), rfl, rfl⟩
    | edit p f hf _ hupdate =>
      rw [hupdate]
      exact agents_update_mem hf ha

theorem CommissionEvent.agentsKept (h : CommissionEvent db next) : AgentsKept db.salesAgents next.salesAgents := by
  rcases h with ⟨o, -, hmove⟩ | ⟨-, hsame | hmanaged⟩
  · exact hmove.agentsKept
  · rw [hsame]
    exact AgentsKept.refl _
  cases hmanaged with
  | enroll b hzero hinsert =>
    intro a ha
    rcases (mem_insert hinsert).1 ha with ha | rfl
    · exact .inl ⟨a, ha, rfl⟩
    · rw [hzero]
      exact .inr (by decide)
  | edit p f hf hbalance hupdate =>
    rw [hupdate]
    intro a' ha'
    obtain ⟨a, ha, rfl⟩ := mem_update.1 ha'
    refine .inl ⟨a, ha, ?_⟩
    split
    · exact hbalance a
    · rfl

theorem CommissionEvent.entry (h : CommissionEvent db next) {e' : CommissionEntry}
    (he' : e' ∈ next.commissionEntries.rows) :
    (∃ e ∈ db.commissionEntries.rows, e'.agentUserId = e.agentUserId ∧ e'.commissionFen = e.commissionFen) ∨
      ((0 ≤ e'.commissionFen ∧ e'.commissionFen < 2 ^ 127) ∧ ∃ a ∈ db.salesAgents.rows, a.userId = e'.agentUserId) := by
  rcases h with ⟨o, -, hmove⟩ | ⟨hentries, -⟩
  · cases hmove with
    | idle hentries _ =>
      rw [hentries] at he'
      exact .inl ⟨e', he', rfl, rfl⟩
    | accrue e a h _ =>
      rcases (mem_insert h.entries).1 he' with he' | rfl
      · exact .inl ⟨e', he', rfl, rfl⟩
      · exact .inr ⟨h.amount, a, h.agent.1, h.agent.2⟩
    | reverse e a now h _ =>
      rw [h.entries] at he'
      obtain ⟨e₀, he₀, rfl⟩ := mem_update.1 he'
      refine .inl ⟨e₀, he₀, ?_⟩
      split
      · exact ⟨rfl, rfl⟩
      · exact ⟨rfl, rfl⟩
  · rw [hentries] at he'
    exact .inl ⟨e', he', rfl, rfl⟩

theorem CommissionsSound.event (h : CommissionsSound db) (he : CommissionEvent db next) : CommissionsSound next := by
  constructor
  · intro a ha
    rcases he.agentsKept a ha with ⟨b, hb, hab⟩ | hrange
    · rw [hab]
      exact h.balances b hb
    · exact hrange
  · intro e' he'
    rcases he.entry he' with ⟨e, hmem, -, hamount⟩ | ⟨hrange, -⟩
    · rw [hamount]
      exact h.amounts e hmem
    · exact hrange
  · intro e' he'
    have hagent : ∃ a ∈ db.salesAgents.rows, a.userId = e'.agentUserId := by
      rcases he.entry he' with ⟨e, hmem, huser, -⟩ | ⟨-, hagent⟩
      · rw [huser]
        exact h.agents e hmem
      · exact hagent
    obtain ⟨a, ha, huser⟩ := hagent
    obtain ⟨a', ha', huser', -⟩ := he.agentsStay ha
    exact ⟨a', ha', huser'.trans huser⟩

theorem salesParseMinor_ok {v : Int} (h : 0 ≤ v ∧ v < 2 ^ 127) : salesParseMinor (toString v) = .ok v := by
  simp only [salesParseMinor, salesParseSignedMinor, ok_iff, signed?_toString, bind_some, checked_eq_some]
  exact ⟨v, ⟨v, ⟨rfl, by omega, h.2⟩, (), rfl, rfl⟩, (), h.1, rfl⟩

theorem reverseCommissionForOrder_ok (h : CommissionsSound db) (orderId : String) (now : Int) :
    ∃ r, reverseCommissionForOrder db orderId now = .ok r := by
  unfold reverseCommissionForOrder
  split
  · exact ⟨_, rfl⟩
  rename_i e he
  have hmem := mem_of_find? he
  obtain ⟨a, ha, huser⟩ := h.agents e hmem
  have hfind : db.salesAgents.find? (·.userId = e.agentUserId) = some a := by
    apply find?_eq_some_of_mem ha (decide_eq_true huser)
    intro b hb
    exact .inl ((of_decide_eq_true hb).trans huser.symm)
  simp only [creditAgent, salesParseMinor_ok (h.amounts e hmem), hfind, ok_iff, checked_eq_some, Except.ok.injEq, some.injEq]
  exact ⟨_, _, rfl, _, ⟨a, rfl, _, ⟨rfl, h.balances a ha⟩, rfl⟩, rfl⟩

theorem refunds_find? (hf : f ∈ db.refunds.rows) : db.refunds.find? (·.id = f.id) = some f := by
  apply find?_eq_some_of_mem hf (decide_eq_true rfl)
  intro g hg
  exact .inl (of_decide_eq_true hg)

theorem loadRefundMutation_ok (hl : Linked db) (h : RefundsOpen db) (hf : f ∈ db.refunds.rows) :
    ∃ m, loadRefundMutation db f.id = .ok m ∧ m.refund = f := by
  have hrefund := refunds_find? hf
  have hclaim : ∃ cr, refundClaim db f.idempotencyKey = some cr := by
    obtain ⟨c, hc, hkey, hkind⟩ := h.claimed f hf
    obtain ⟨r, hr, hid⟩ := hl.claim_recovery c hc
    apply isSome_iff_exists.1
    rw [refundClaim, List.findSome?_isSome_iff]
    refine ⟨c, hc, ?_⟩
    rw [if_pos ⟨hkey, hkind⟩, isSome_map]
    exact List.find?_isSome.2 ⟨r, hr, decide_eq_true hid⟩
  obtain ⟨o, ho, hid⟩ := h.ordered f hf
  have horder : db.storeOrders.find? (·.id = f.orderId) = some o := by
    apply find?_eq_some_of_mem ho (decide_eq_true hid)
    intro p hp
    exact .inl ((of_decide_eq_true hp).trans hid.symm)
  obtain ⟨cr, hcr⟩ := hclaim
  simp only [loadRefundMutation, hrefund, ok_iff, some.injEq]
  exact ⟨⟨f, cr.1, cr.2, o⟩, ⟨f, rfl, cr, hcr, o, horder, rfl⟩, rfl⟩

def ReserveWhole (db : Database) (orderId : String) : Prop :=
  ∃ r, db.recovery? orderId = some r ∧ (r.originalNanoUsd = 0 ∨ r.reservedNanoUsd = r.originalNanoUsd)

theorem completeRefund_ok (hs : ∀ orderId, (book db orderId).Sound) (hl : Linked db) (h : RefundsOpen db)
    (hc : CommissionsSound db) (hf : f ∈ db.refunds.rows) (hopen : f.isOpen) (hwhole : ReserveWhole db f.orderId)
    (now : Instant) : ∃ next, completeRefund db f.id now = .ok ((), next) := by
  obtain ⟨m, hm, rfl⟩ := loadRefundMutation_ok hl h hf
  have hrows := loadRefundMutation_inv hm
  have hrecovery := hrows.recovery? hl
  obtain ⟨r, hr, hcase⟩ := hwhole
  cases hrecovery.symm.trans hr
  obtain ⟨hbounded, hlt⟩ := recovery_bounds (hs m.refund.orderId) hrecovery
  have horder := mem_of_find? hrows.order
  have hpending := h.pending m.refund hf hopen m.order horder hrows.order_id.1
  have hcount : db.storeOrders.count (fun p => p.id = m.order.id ∧ p.paymentState = .refundPending) = 1 := by
    apply count_eq_one horder (decide_eq_true ⟨rfl, hpending⟩)
    intro p _ hp
    exact .inl (of_decide_eq_true hp).1
  have hparse := parseNonnegative_ok (show m.recovery.originalNanoUsd < 2 ^ 128 by omega)
  have hparse' := parseNonnegative_ok (show m.recovery.reservedNanoUsd < 2 ^ 128 by omega)
  have hsettled : CommissionsSound (settledRefund db m.refund.id m (db.storeOrders.update
      (fun p => p.id = m.order.id ∧ p.paymentState = .refundPending) (StoreOrder.withPaymentState .refunded))) :=
    ⟨hc.balances, hc.amounts, hc.agents⟩
  obtain ⟨reversed, hreversed⟩ := reverseCommissionForOrder_ok hsettled m.order.id (timestamp now)
  refine ⟨reversed.2, ?_⟩
  rcases hopen with hstate | hstate
  all_goals
    rw [completeRefund, hm, ok_bind, hstate]
    simp only [completeOpenRefund, hparse, hparse', ok_iff, updateOne?_eq_some, Except.ok.injEq]
    refine ⟨_, rfl, _, rfl, (), hcase, _, ⟨hcount, rfl⟩, ?_⟩
    rw [hreversed]
    rfl

structure RefundRecorded (db : Database) (f : Refund) : Prop where
  order : ∃ o, db.order? f.orderId = some o ∧ o.paymentState = .refunded
  refund : ∃ g, db.refunds.find? (·.id = f.id) = some g ∧ g.state = .succeeded
  recovered : ∃ r, db.recovery? f.orderId = some r ∧ r.recoveredNanoUsd ≤ r.originalNanoUsd

theorem completeRefund_recorded {now : Instant} (hs : ∀ orderId, (book db orderId).Sound) (hl : Linked db)
    (h : RefundsOpen db) (hf : f ∈ db.refunds.rows) (hopen : f.isOpen) (hok : completeRefund db f.id now = .ok ((), next)) :
    RefundRecorded next f ∧ ReserveWhole db f.orderId := by
  have hfind := refunds_find? hf
  rcases completeRefund_inv hok with ⟨-, m, hm, hsucceeded⟩ | ⟨m, hm, -, hcase, hnext, -⟩
  · cases hm.refund.symm.trans hfind
    rcases hopen with hcreated | hpending
    · cases hsucceeded.symm.trans hcreated
    · cases hsucceeded.symm.trans hpending
  · cases hm.refund.symm.trans hfind
    have hrecovery := hm.recovery? hl
    have hpending := h.pending m.refund hf hopen m.order (mem_of_find? hm.order) hm.order_id.1
    refine ⟨⟨?_, ?_, ?_⟩, m.recovery, hrecovery, hcase⟩
    · have horders : next.storeOrders = db.storeOrders.update
          (fun p => p.id = m.order.id ∧ p.paymentState = .refundPending) (StoreOrder.withPaymentState .refunded) := by
            rw [hnext]
      refine ⟨m.order.withPaymentState .refunded, ?_, rfl⟩
      rw [order?_update horders, hm.order, map_some, if_pos (decide_eq_true ⟨rfl, hpending⟩)]
    · refine ⟨m.refund.withState .succeeded, ?_, rfl⟩
      have hrefunds : next.refunds = settleRefund db m.refund.id .succeeded := by rw [hnext]
      rw [hrefunds, settleRefund, find?_update _ (f := Refund.withState .succeeded) fun _ => rfl, hfind, map_some,
        if_pos (decide_eq_true ⟨rfl, hopen⟩)]
    · have hbounded := (recovery_bounds (hs m.refund.orderId) hrecovery).1
      have hrecoveries : next.rewardRecoveries = db.rewardRecoveries.update
          (fun r => r.id = m.recovery.id ∧ r.recoveredNanoUsd = 0) RewardRecovery.withRecovered := by
        rw [hnext]
      rw [recovery?_update hrecoveries, hrecovery, map_some]
      refine ⟨_, rfl, ?_⟩
      split
      · exact le_rfl
      · omega

structure RefundOpening (s : StoreState) : Prop where
  initial : StoreInitial s
  commissions : CommissionsSound s.db

section

variable [Sha256]

theorem reachable_refundsOpen {s : StoreState} (h : Reachable RefundOpening StoreStep s) :
    BooksInv s ∧ RefundsOpen s.db ∧ CommissionsSound s.db := by
  apply h.invariant
  · intro s hs
    have hnone : ∀ f : Refund, f ∉ s.db.refunds.rows := by
      rw [hs.initial.no_refund]
      exact fun f => List.not_mem_nil
    exact ⟨booksInv_initial hs.initial, ⟨fun f hf => absurd hf (hnone f), fun f hf => absurd hf (hnone f),
      fun f hf => absurd hf (hnone f), fun f hf => absurd hf (hnone f)⟩, hs.commissions⟩
  · rintro s t ⟨hbooks, hrefunds, hcommissions⟩ ⟨e⟩
    exact ⟨storeStep_books hbooks (.run s e), (hbooks.did e).refundsOpen hrefunds,
      hcommissions.event (hbooks.did e).commissions⟩

/-- A confirmed refund is recorded exactly when the reserve it was begun with is still there. -/
theorem confirmed_refund_recorded_iff {s : StoreState} (h : Reachable RefundOpening StoreStep s)
    {f : Refund} (hf : f ∈ s.db.refunds.rows) (hopen : f.state = .created ∨ f.state = .pending) (now : Instant) :
    (∃ next, completeRefund s.db f.id now = .ok ((), next) ∧ RefundRecorded next f) ↔ ReserveWhole s.db f.orderId := by
  obtain ⟨hbooks, hrefunds, hcommissions⟩ := reachable_refundsOpen h
  constructor
  · rintro ⟨next, hok, -⟩
    exact (completeRefund_recorded hbooks.sound hbooks.linked hrefunds hf hopen hok).2
  · intro hwhole
    obtain ⟨next, hok⟩ := completeRefund_ok hbooks.sound hbooks.linked hrefunds hcommissions hf hopen hwhole now
    exact ⟨next, hok, (completeRefund_recorded hbooks.sound hbooks.linked hrefunds hf hopen hok).1⟩

end

theorem sampleStore_refundOpening : RefundOpening sampleStore :=
  ⟨sampleStore_initial, fun _ ha => (nomatch ha), fun _ he => (nomatch he), fun _ he => (nomatch he)⟩

open SampleDigests

def recoveryRun (events : List StoreEvent) : StoreState := events.foldl StoreState.run samplePaid

theorem recoveryRun_reachable (events : List StoreEvent) : Reachable RefundOpening StoreStep (recoveryRun events) :=
  ((Reachable.start sampleStore_refundOpening).foldl (fun s e => StoreStep.run s e) _).foldl
    (fun s e => StoreStep.run s e) events

def beginEvent : StoreEvent := .beginRefund ⟨"order-1", "admin", "refund-1"⟩ 0 ⟨"r1", "l4", "f1", "k1"⟩

theorem confirmed_refund_recorded_sample : ∃ f ∈ (recoveryRun [beginEvent]).db.refunds.rows, f.state = .created ∧
    ∃ next, completeRefund (recoveryRun [beginEvent]).db f.id 0 = .ok ((), next) ∧ RefundRecorded next f := by
  have hbegun : ∃ f ∈ (recoveryRun [beginEvent]).db.refunds.rows, f.state = .created ∧
      ∃ r, (recoveryRun [beginEvent]).db.recovery? f.orderId = some r ∧
        (r.originalNanoUsd = 0 ∨ r.reservedNanoUsd = r.originalNanoUsd) := by
    decide +kernel
  obtain ⟨f, hf, hstate, hwhole⟩ := hbegun
  exact ⟨f, hf, hstate, (confirmed_refund_recorded_iff (recoveryRun_reachable _) hf (.inl hstate) 0).2 hwhole⟩

def chargedBackRun : List StoreEvent :=
  [beginEvent, .markRefundPending "f1" (some "provider-refund"),
    .openClaim ⟨"order-1", "credential", "claim-1", none, .chargeback⟩ 0 ⟨"r2", "l5", "f2", "k2"⟩,
    .loseClaim "k2" 0 ⟨"r3", "l6", "f3", "k3"⟩]

theorem confirmed_refund_refused : Reachable RefundOpening StoreStep (recoveryRun chargedBackRun) ∧
    ∃ f ∈ (recoveryRun chargedBackRun).db.refunds.rows, f.state = .pending ∧
      completeRefund (recoveryRun chargedBackRun).db f.id 0 = .error .conflict := by
  refine ⟨recoveryRun_reachable _, ?_⟩
  simp only [← failure?_eq_some]
  decide +kernel

theorem open_refund_exclusive {s : StoreState} (h : Reachable RefundOpening StoreStep s) {f : Refund}
    (hf : f ∈ s.db.refunds.rows) (hopen : f.isOpen) :
    (∃ o ∈ s.db.storeOrders.rows, o.id = f.orderId ∧ o.paymentState = .refundPending) ∧
      ∀ g ∈ s.db.refunds.rows, g.isOpen → g.orderId = f.orderId → g = f := by
  have hrefunds := (reachable_refundsOpen h).2.1
  obtain ⟨o, ho, hid⟩ := hrefunds.ordered f hf
  refine ⟨⟨o, ho, hid, hrefunds.pending f hf hopen o ho hid⟩, fun g hg hg' heq => ?_⟩
  exact hrefunds.single g hg f hf hg' hopen heq

theorem open_refund_exclusive_sample : ∃ f ∈ (recoveryRun [beginEvent]).db.refunds.rows, f.isOpen ∧
    (∃ o ∈ (recoveryRun [beginEvent]).db.storeOrders.rows, o.id = f.orderId ∧ o.paymentState = .refundPending) ∧
    ∀ g ∈ (recoveryRun [beginEvent]).db.refunds.rows, g.isOpen → g.orderId = f.orderId → g = f := by
  have hbegun : ∃ f ∈ (recoveryRun [beginEvent]).db.refunds.rows, f.isOpen := by decide +kernel
  obtain ⟨f, hf, hopen⟩ := hbegun
  exact ⟨f, hf, hopen, open_refund_exclusive (recoveryRun_reachable _) hf hopen⟩

end Monoize
