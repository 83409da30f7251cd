import Monoize.StoreCredit
import Monoize.StoreReady

/-! When a paid balance order can be fulfilled. -/

namespace Monoize

open Fallible MachineInt Relational Transition List Option Table

variable {db : Database} {o : StoreOrder} {now : Instant}

structure StoreOpening (s : StoreState) : Prop where
  initial : StoreInitial s
  no_order : s.db.storeOrders = .empty
  balances : ∀ u ∈ s.db.users.rows, IsAmount u.balanceNanoUsd
  rate : ∃ rate, commissionRateForEntry s.db = .ok rate
  agents : ∀ a ∈ s.db.salesAgents.rows, -2 ^ 127 ≤ a.commissionBalanceFen ∧ a.commissionBalanceFen < 2 ^ 127

section

variable [Sha256]

theorem reachable_ready {s : StoreState} (h : Reachable StoreOpening StoreStep s) : BooksInv s ∧ Ready s.db := by
  apply h.invariant
  · intro s hs
    refine ⟨booksInv_initial hs.initial, hs.balances, hs.rate, hs.agents, ?_⟩
    rw [hs.no_order]
    exact fun _ ho => nomatch ho
  · intro s t hinv hst
    refine ⟨storeStep_books hinv.1 hst, ?_⟩
    obtain ⟨e⟩ := hst
    exact (hinv.1.did e).kept.ready hinv.2

end

structure FulfillmentStored (db : Database) (o : StoreOrder) (fence : Option ReconciliationFence)
    (ids : FulfillmentIds) : Prop where
  fence : validateFence db fence = .ok ()
  user : ∃ u ∈ db.users.rows, u.id = o.contract.userId
  ledgerId : ∀ row ∈ db.billingLedger.rows, row.id ≠ ids.ledgerId
  entryId : ∀ e ∈ db.commissionEntries.rows, e.id ≠ ids.entryId

structure FulfillmentFits (db : Database) (o : StoreOrder) : Prop where
  amount : convertedAmount o.contract ≠ .error (.fulfillment MoneyError.amountOverflow.message)
  balance : ∀ amount, convertedAmount o.contract = .ok amount →
    storedBalance db o.contract.userId + amount < 2 ^ 127
  commission : ∀ base rate, faceValueMinor o.contract.quote = .ok base → commissionRateForEntry db = .ok rate →
    base * (rate - o.contract.salesDiscountBp.getD 0) < 2 ^ 127

/-- The rate of today covers the discount that was frozen in the order, if an agent still has its code. -/
def CommissionCovered (db : Database) (o : StoreOrder) : Prop :=
  ∀ code agent rate, o.contract.salesCode = some code → o.contract.paymentCurrency = .cny →
    db.salesAgents.find? (·.code = code) = some agent → commissionRateForEntry db = .ok rate →
    o.contract.salesDiscountBp.getD 0 ≤ rate

theorem commissionRateForEntry_range {rate : Int} (h : commissionRateForEntry db = .ok rate) :
    0 ≤ rate ∧ rate ≤ maxCommissionRateBp := by
  unfold commissionRateForEntry at h
  split at h
  · rw [← pure_eq_ok.1 h]
    decide
  · simp only [ok_iff] at h
    obtain ⟨_, -, _, hrange, rfl⟩ := h
    exact hrange

theorem creditBalance_ok_iff {u : User} {v delta : Int} {ledgerId : String}
    (hu : db.users.find? (·.id = o.contract.userId) = some u) (hv : signedCanonical? u.balanceNanoUsd.toList = some v)
    (hlt : v < 2 ^ 127) (hdelta : 0 ≤ delta) (hfits : v + delta < 2 ^ 127)
    (hfresh : ∀ row ∈ db.billingLedger.rows, row.id ≠ ledgerId) (hunpaid : db.reward? o.id = none) :
    (∃ next, creditBalance db o delta now ledgerId = .ok next) ↔ 0 ≤ v := by
  rw [← parseMinor_of_signedCanonical? hv hlt]
  simp only [creditBalance, hu, ok_iff, liftFulfillment_eq_ok, some.injEq, checked_eq_some]
  constructor
  · rintro ⟨_, _, rfl, w, hw, -⟩
    exact ⟨w, hw⟩
  · rintro ⟨w, hw⟩
    have hwv : w = v := some.inj ((signedCanonical?_of_parseMinor hw).symm.trans hv)
    have hw0 := (parseMinor_eq_ok hw).1
    have hinsert : ∀ row ∈ db.billingLedger.rows, ¬ Clashes row (rechargeRow o delta (w + delta) now ledgerId) := by
      rintro row hrow (hid | ⟨-, hkey⟩)
      · exact hfresh row hrow hid
      · exact find?_eq_none.1 hunpaid row hrow (decide_eq_true hkey)
    obtain ⟨ledger, hledger⟩ := exists_insert hinsert
    exact ⟨_, u, rfl, w, hw, w + delta, ⟨rfl, by omega, by omega⟩, ledger, hledger, rfl⟩

theorem finishOrderFulfillment_ok (ho : o ∈ db.storeOrders.rows) (hf : o.fulfillable o.id o.stateRevision) :
    ∃ next, finishOrderFulfillment db o.id o.stateRevision = .ok next := by
  have hcount : db.storeOrders.count (fun p => p.fulfillable o.id o.stateRevision) = 1 := by
    apply count_eq_one ho (decide_eq_true hf)
    intro p _ hp
    exact .inl (of_decide_eq_true hp).1
  simp only [finishOrderFulfillment, ok_iff, updateOne?_eq_some]
  exact ⟨_, _, ⟨hcount, rfl⟩, rfl⟩

theorem accrueForAgent_ok_iff {agent : SalesAgent} {base rate : Int} {entryId : String}
    (hrate : commissionRateForEntry db = .ok rate) (hbase : minCodedOrderMinor ≤ base) (hlt : base < 2 ^ 127)
    (hdiscount : 0 ≤ o.contract.salesDiscountBp.getD 0) (hdiscounted : base * o.contract.salesDiscountBp.getD 0 < 2 ^ 127)
    (hearned : base * (rate - o.contract.salesDiscountBp.getD 0) < 2 ^ 127)
    (hagent : -2 ^ 127 ≤ agent.commissionBalanceFen ∧ agent.commissionBalanceFen < 2 ^ 127)
    (hfresh : ∀ e ∈ db.commissionEntries.rows, e.id ≠ entryId) :
    (∃ next, accrueForAgent db o agent base now entryId = .ok next) ↔ o.contract.salesDiscountBp.getD 0 ≤ rate := by
  rw [← computeAmounts_ok_iff (commissionRateForEntry_range hrate) hbase hlt hdiscount hdiscounted hearned]
  simp only [accrueForAgent, ok_iff, liftSales_eq_ok, liftAmounts_eq_ok, hrate]
  constructor
  · rintro ⟨_, _, hsame, amounts, hamounts, -⟩
    rw [← Except.ok.inj hsame] at hamounts
    exact ⟨amounts, hamounts⟩
  · rintro ⟨amounts, hamounts⟩
    by_cases hcount : db.commissionEntries.count (·.orderId = o.id) > 0
    · refine ⟨db, rate, rfl, amounts, hamounts, ?_⟩
      rw [if_pos hcount]
      rfl
    have hinsert : ∀ e ∈ db.commissionEntries.rows, ¬ Clashes e
        (commissionEntry o agent amounts (o.contract.salesDiscountBp.getD 0) rate now entryId) := by
      rintro e he (hid | horder)
      · exact hfresh e he hid
      · exact hcount (countP_pos_iff.2 ⟨e, he, decide_eq_true horder⟩)
    obtain ⟨entries, hentries⟩ := exists_insert hinsert
    simp only [if_neg hcount, ok_iff, checked_eq_some]
    exact ⟨_, rate, rfl, amounts, hamounts, entries, hentries, agent.commissionBalanceFen, ⟨rfl, hagent⟩, rfl⟩

theorem accrueSalesCommission_ok_iff {entryId : String} (ho : db.order? o.id = some o) (haccepted : Accepted o.contract)
    (hrate : ∃ rate, commissionRateForEntry db = .ok rate)
    (hagents : ∀ a ∈ db.salesAgents.rows, -2 ^ 127 ≤ a.commissionBalanceFen ∧ a.commissionBalanceFen < 2 ^ 127)
    (hfits : ∀ base rate, faceValueMinor o.contract.quote = .ok base → commissionRateForEntry db = .ok rate →
      base * (rate - o.contract.salesDiscountBp.getD 0) < 2 ^ 127)
    (hfresh : ∀ e ∈ db.commissionEntries.rows, e.id ≠ entryId) :
    (∃ next, accrueSalesCommission db o.id now entryId = .ok next) ↔ CommissionCovered db o := by
  obtain ⟨rate, hrate⟩ := hrate
  have hfind : db.storeOrders.find? (·.id = o.id) = some o := ho
  simp only [accrueSalesCommission, hfind, bind_eq_ok, orError_eq_ok, some.injEq]
  cases hcode : o.contract.salesCode with
  | none =>
    apply iff_of_true
    · refine ⟨db, o, rfl, ?_⟩
      rw [hcode]
      rfl
    · intro code agent rate hsome
      cases hcode.symm.trans hsome
  | some code =>
    obtain ⟨base, discount, hface, hfrozen, hbase, hlt, hdiscount, hdiscounted⟩ := haccepted.coded code hcode
    have hgetD : o.contract.salesDiscountBp.getD 0 = discount := by rw [hfrozen, getD_some]
    by_cases hcny : o.contract.paymentCurrency = .cny
    · cases hagent : db.salesAgents.find? (·.code = code) with
      | none =>
        apply iff_of_true
        · refine ⟨db, o, rfl, ?_⟩
          simp only [hcode, hcny, not_true_eq_false, if_false, bind_eq_ok, liftSales_eq_ok, hagent, ne_eq]
          exact ⟨base, hface, rfl⟩
        · intro code' agent rate hsome _ hfound
          cases hcode.symm.trans hsome
          cases hagent.symm.trans hfound
      | some agent =>
        have hiff : (∃ next, accrueForAgent db o agent base now entryId = .ok next) ↔ _ :=
          accrueForAgent_ok_iff hrate hbase hlt (hgetD ▸ hdiscount) (hgetD ▸ hdiscounted) (hfits base rate hface hrate)
            (hagents agent (mem_of_find? hagent)) hfresh
        constructor
        · rintro ⟨next, _, rfl, h⟩
          simp only [hcode, hcny, not_true_eq_false, if_false, bind_eq_ok, liftSales_eq_ok, hagent, ne_eq] at h
          obtain ⟨_, hsame, h⟩ := h
          cases hface.symm.trans hsame
          intro code' agent' rate' hsome _ hfound hrate'
          cases hrate.symm.trans hrate'
          exact hiff.1 ⟨next, h⟩
        · intro hcovered
          obtain ⟨next, h⟩ := hiff.2 (hcovered code agent rate hcode hcny hagent hrate)
          refine ⟨next, o, rfl, ?_⟩
          simp only [hcode, hcny, not_true_eq_false, if_false, bind_eq_ok, liftSales_eq_ok, hagent, ne_eq]
          exact ⟨base, hface, h⟩
    · apply iff_of_true
      · refine ⟨db, o, rfl, ?_⟩
        simp only [hcode, hcny, ne_eq, not_false_eq_true, if_true]
        rfl
      · intro _ _ _ _ hcurrency
        exact absurd hcurrency hcny

theorem accrue_after_credit_iff {credited finished : Database} {amount : Int} {ids : FulfillmentIds} (hready : Ready db)
    (ho : o ∈ db.storeOrders.rows) (hf : o.fulfillable o.id o.stateRevision) (haccepted : Accepted o.contract)
    (hfits : FulfillmentFits db o) (hfresh : ∀ e ∈ db.commissionEntries.rows, e.id ≠ ids.entryId)
    (hcredit : creditBalance db o amount now ids.ledgerId = .ok credited)
    (hfinish : finishOrderFulfillment credited o.id o.stateRevision = .ok finished) :
    (∃ next, accrueSalesCommission finished o.id now ids.entryId = .ok next) ↔ CommissionCovered db o := by
  obtain ⟨u, current, ledger, -, -, -, -, rfl⟩ := creditBalance_inv hcredit
  have hfinished := finishOrderFulfillment_inv hfinish
  have horder : finished.order? o.id = some o.withFulfilled := by
    have hupdate : finished.storeOrders = db.storeOrders.update (fun p => p.fulfillable o.id o.stateRevision)
        StoreOrder.withFulfilled := by
      rw [hfinished]
      rfl
    rw [order?_update hupdate, order?_of_mem ho, map_some, if_pos (decide_eq_true hf)]
  subst hfinished
  exact accrueSalesCommission_ok_iff (o := o.withFulfilled) horder haccepted hready.rate hready.agents hfits.commission
    hfresh

theorem fulfillBalance_ok_iff {fence : Option ReconciliationFence} {ids : FulfillmentIds} (hready : Ready db)
    (ho : o ∈ db.storeOrders.rows) (hf : o.fulfillable o.id o.stateRevision) (hkind : o.contract.productKind = .balance)
    (hunpaid : db.reward? o.id = none) (hstored : FulfillmentStored db o fence ids) (hfits : FulfillmentFits db o) :
    (∃ next, fulfillBalance db o now ids = .ok next) ↔
      0 ≤ storedBalance db o.contract.userId ∧ CommissionCovered db o := by
  have haccepted := hready.orders o ho hkind
  obtain ⟨amount, hamount⟩ := haccepted.converted hfits.amount
  obtain ⟨u, hu, hid⟩ := hstored.user
  obtain ⟨v, hv, -, hlt⟩ := hready.balances u hu
  have hfind : db.users.find? (·.id = o.contract.userId) = some u := by
    apply find?_eq_some_of_mem hu (decide_eq_true hid)
    intro w hw
    exact (of_decide_eq_true hw).trans hid.symm
  have hbalance := storedBalance_eq hfind hv
  have hcredit : (∃ next, creditBalance db o amount now ids.ledgerId = .ok next) ↔ 0 ≤ v :=
    creditBalance_ok_iff hfind hv hlt (convertedAmount_range hamount).1 (hbalance ▸ hfits.balance amount hamount)
      hstored.ledgerId hunpaid
  rw [hbalance, ← hcredit]
  simp only [fulfillBalance, hamount, ok_iff]
  constructor
  · rintro ⟨next, _, hsame, credited, hcredited, finished, hfinish, haccrue⟩
    cases hsame
    refine ⟨⟨credited, hcredited⟩, ?_⟩
    exact (accrue_after_credit_iff hready ho hf haccepted hfits hstored.entryId hcredited hfinish).1 ⟨next, haccrue⟩
  · rintro ⟨⟨credited, hcredited⟩, hcovered⟩
    have hmem : o ∈ credited.storeOrders.rows := by
      obtain ⟨_, _, _, -, -, -, -, rfl⟩ := creditBalance_inv hcredited
      exact ho
    obtain ⟨finished, hfinish⟩ := finishOrderFulfillment_ok hmem hf
    obtain ⟨next, haccrue⟩ :=
      (accrue_after_credit_iff hready ho hf haccepted hfits hstored.entryId hcredited hfinish).2 hcovered
    exact ⟨next, amount, rfl, credited, hcredited, finished, hfinish, haccrue⟩

section

variable [Sha256]

theorem paid_order_fulfils_iff {s : StoreState} (h : Reachable StoreOpening StoreStep s) {o : StoreOrder}
    (ho : o ∈ s.db.storeOrders.rows) (hkind : o.contract.productKind = .balance) (hpaid : o.paymentState = .paid)
    (hunheld : o.paymentHold = false) (hpending : o.fulfillmentState = .pending) {fence : Option ReconciliationFence}
    {now : Instant} {ids : FulfillmentIds} (hstored : FulfillmentStored s.db o fence ids)
    (hfits : FulfillmentFits s.db o) :
    (∃ next, fulfillPaidOrderInner s.db o.id fence now ids = .ok next) ↔
      0 ≤ storedBalance s.db o.contract.userId ∧ CommissionCovered s.db o := by
  obtain ⟨hbooks, hready⟩ := reachable_ready h
  have hf : o.fulfillable o.id o.stateRevision := ⟨rfl, hpaid, .inl hpending, hunheld, rfl⟩
  have hface : o.face = (o.contract, false) := by
    rw [StoreOrder.face, hpending]
    rfl
  have hunpaid : s.db.reward? o.id = none := by
    apply map_eq_none_iff.1
    exact (hbooks.sound o.id).unrewarded o.contract false ((book_order (order?_of_mem ho)).trans (congrArg some hface))
      (.inr rfl)
  obtain ⟨_, _, _, _, hquote, -⟩ := (hready.orders o ho hkind).quoted
  have hfind : s.db.storeOrders.find? (·.id = o.id) = some o := order?_of_mem ho
  have hcall : fulfillPaidOrderInner s.db o.id fence now ids = fulfillBalance s.db o now ids := by
    rw [fulfillPaidOrderInner, hstored.fence, ok_bind, hfind, orError_some, ok_bind, hpending, if_neg (by decide),
      require_of ⟨hpaid, hunheld⟩, ok_bind, hquote, orError_some, ok_bind, hkind, if_neg (by decide)]
  rw [hcall]
  exact fulfillBalance_ok_iff hready ho hf hkind hunpaid hstored hfits

end

def sampleShop : Checkout where
  products := [⟨"balance", .balance, "Recharge", .cny, "700", none, [], ⟨[], List.nodup_nil⟩, some "700", some "0", true⟩]
  enabledChannels := ["channel"]
  retentionPaused := false
  channelLocked := fun _ => true
  channelAvailable := fun _ _ _ => true

def sampleOpening : StoreState where
  db :=
    { users := .single ⟨"user", "0", false, "buyer"⟩
      paymentAttempts := .single (sampleAttempt "attempt-1" "order-1") }
  credited := fun _ _ => 0
  moved := fun _ _ => 0

theorem sampleOpening_opening : StoreOpening sampleOpening := by
  refine ⟨⟨fun _ ho => (nomatch ho), fun _ hrow => (nomatch hrow), rfl, rfl, rfl, rfl, rfl⟩, rfl, ?_,
    ⟨500, by decide +kernel⟩, fun _ ha => (nomatch ha)⟩
  intro u hu
  cases mem_singleton.1 hu
  exact ⟨0, by decide +kernel, by decide, by decide⟩

def sampleCreate (code : Option String) : StoreEvent :=
  .createOrder sampleShop "user" ⟨"key-1", "balance", "channel", .cny, none, code⟩ ⟨"USD", "CNY", "7"⟩ 0 ⟨"order-1", "LS-1"⟩

def samplePaidEvent (amountMinor : String) : StoreEvent :=
  .payment { samplePayment "00000000000000000000000000000001" "order-1" "attempt-1" "LS-1" with amountMinor := amountMinor }
    none false 0 ⟨"l1", "e1", "c1"⟩

def overdrawnRun : List StoreEvent :=
  [sampleCreate none, samplePaidEvent "700", .charge ⟨"user", 5, some "request", "", ""⟩ "l1"]

def loweredRateRun : List StoreEvent :=
  [.insertAgent "agent" "ABCDEFGH" 500, sampleCreate (some "ABCDEFGH"), .setAgentEnabled "agent" false,
    .setCommissionRate 100, samplePaidEvent "665"]

open SampleDigests

def runStore (events : List StoreEvent) : StoreState := events.foldl StoreState.run sampleOpening

theorem runStore_reachable (events : List StoreEvent) : Reachable StoreOpening StoreStep (runStore events) :=
  (Reachable.start sampleOpening_opening).foldl (fun s e => StoreStep.run s e) _

theorem paid_order_fulfils_sample : ∃ o ∈ (runStore [sampleCreate none, samplePaidEvent "700"]).db.storeOrders.rows,
    o.paymentState = .paid ∧ ∃ next, fulfillPaidOrderInner
      (runStore [sampleCreate none, samplePaidEvent "700"]).db o.id none 0 ⟨"l2", "e2", "c2"⟩ = .ok next := by
  obtain ⟨o, ho, hstate, hkind, hunheld, hpending, huser, hcode, hamount, hface, hdiscount⟩ :
      ∃ o ∈ (runStore [sampleCreate none, samplePaidEvent "700"]).db.storeOrders.rows,
      o.paymentState = .paid ∧ o.contract.productKind = .balance ∧ o.paymentHold = false ∧
      o.fulfillmentState = .pending ∧ o.contract.userId = "user" ∧ o.contract.salesCode = none ∧
      convertedAmount o.contract = .ok 1000000000 ∧ faceValueMinor o.contract.quote = .ok 700 ∧
      o.contract.salesDiscountBp = none := by
    decide +kernel
  have hbalance : storedBalance (runStore [sampleCreate none, samplePaidEvent "700"]).db "user" = 0 := by decide +kernel
  refine ⟨o, ho, hstate, (paid_order_fulfils_iff (runStore_reachable _) ho hkind hstate hunheld hpending
    ⟨rfl, ?_, by decide +kernel, by decide +kernel⟩ ⟨?_, ?_, ?_⟩).2 ⟨by rw [huser, hbalance], ?_⟩⟩
  · rw [huser]
    decide +kernel
  · rw [hamount]
    nofun
  · intro amount h
    cases hamount.symm.trans h
    rw [huser, hbalance]
    decide
  · intro base rate hbase hrate
    cases hface.symm.trans hbase
    have hrange := commissionRateForEntry_range hrate
    simp only [maxCommissionRateBp, hdiscount, getD_none] at hrange ⊢
    omega
  · intro code agent rate h
    cases hcode.symm.trans h

theorem paid_order_not_fulfilled :
    (∃ o ∈ (runStore overdrawnRun).db.storeOrders.rows, o.contract.productKind = .balance ∧ o.paymentState = .paid ∧
      o.paymentHold = false ∧ o.fulfillmentState = .pending ∧
      fulfillPaidOrderInner (runStore overdrawnRun).db o.id none 0 ⟨"l2", "e2", "c2"⟩ =
        .error (.fulfillment "amount must be a canonical nonnegative integer string")) ∧
    (∃ o ∈ (runStore loweredRateRun).db.storeOrders.rows, o.contract.productKind = .balance ∧ o.paymentState = .paid ∧
      o.paymentHold = false ∧ o.fulfillmentState = .pending ∧
      fulfillPaidOrderInner (runStore loweredRateRun).db o.id none 0 ⟨"l2", "e2", "c2"⟩ =
        .error (.storage "DiscountAboveRate")) := by
  simp only [← failure?_eq_some]
  decide +kernel

end Monoize
