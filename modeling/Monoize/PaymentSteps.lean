import Monoize.QuotaSteps
import Monoize.StoreBooks

/-! What payment events and fulfil calls do to the books. -/

namespace Monoize

open Fallible MachineInt Relational Option Table

variable {db next : Database} {userId orderId : String} {u : User} {o : StoreOrder} {c : OrderContract} {amount : Int}
  {now : Instant} {ids : FulfillmentIds} {fence : Option ReconciliationFence} {input : ApplyProviderEventInput}
  {projection : Projection}

variable {v base : Int} {entryId id credential : String}

theorem find?_setBalance (db : Database) (userId : String) (v : Int) (other : String) :
    (setBalance db userId v).users.find? (·.id = other) =
      (db.users.find? (·.id = other)).map fun u => if u.id = userId then withBalance v u else u := by
  rw [setBalance, find?_update]
  · simp only [decide_eq_true_eq]
  · exact fun _ => rfl

variable (hu : db.users.find? (·.id = userId) = some u)

include hu

theorem storedBalance_eq (hv : signedCanonical? u.balanceNanoUsd.toList = some v) : storedBalance db userId = v := by
  rw [storedBalance, hu, bind_some, hv, getD_some]

theorem storedBalance_setBalance (v : Int) (other : String) :
    storedBalance (setBalance db userId v) other = if userId = other then v else storedBalance db other := by
  by_cases h : userId = other
  · subst h
    have hid := of_find?_decide hu
    rw [if_pos rfl]
    apply storedBalance_eq (u := withBalance v u)
    · rw [find?_setBalance, hu, map_some, if_pos hid]
    · exact signedCanonical?_toString v
  · rw [if_neg h, storedBalance, find?_setBalance, storedBalance]
    cases hfind : db.users.find? (·.id = other) with
    | none => rfl
    | some w =>
      have hid := of_find?_decide hfind
      rw [map_some, if_neg (fun e => h (e.symm.trans hid))]

theorem storedBalance_credit {current : Int}
    (hv : signedCanonical? u.balanceNanoUsd.toList = some current) (delta : Int) (other : String) :
    storedBalance (setBalance db userId (current + delta)) other =
      storedBalance db other + if some userId = some other then delta else 0 := by
  rw [storedBalance_setBalance hu]
  by_cases h : userId = other
  · subst h
    rw [if_pos rfl, if_pos rfl, storedBalance_eq hu hv]
  · rw [if_neg h, if_neg (fun e => h (some.inj e)), Int.add_zero]

omit hu

def IsAmount (text : String) : Prop := ∃ v, signedCanonical? text.toList = some v ∧ -2 ^ 127 ≤ v ∧ v < 2 ^ 127

def UsersKept (users next : Table User) : Prop := ∀ u ∈ next.rows, u ∈ users.rows ∨ IsAmount u.balanceNanoUsd

theorem UsersKept.refl (users : Table User) : UsersKept users users := fun _ hu => .inl hu

theorem setBalance_kept (db : Database) (userId : String) (hlo : -2 ^ 127 ≤ v) (hhi : v < 2 ^ 127) :
    UsersKept db.users (setBalance db userId v).users := by
  intro u' hu'
  simp only [setBalance, mem_update] at hu'
  obtain ⟨u, hu, rfl⟩ := hu'
  split
  · exact .inr ⟨v, signedCanonical?_toString v, hlo, hhi⟩
  · exact .inl hu

theorem order?_id (ho : db.order? orderId = some o) : o.id = orderId := by
  have hid := of_find?_decide ho
  exact hid

theorem liftFulfillment_eq_ok {α : Type} {x : Except MoneyError α} {a : α} : liftFulfillment x = .ok a ↔ x = .ok a := by
  cases x <;> simp [liftFulfillment]

theorem liftSales_eq_ok {α : Type} {x : Except SalesStoreError α} {a : α} : liftSales x = .ok a ↔ x = .ok a := by
  cases x <;> simp [liftSales]

theorem liftAmounts_eq_ok {α : Type} {x : Except SalesError α} {a : α} : liftAmounts x = .ok a ↔ x = .ok a := by
  cases x <;> simp [liftAmounts]

theorem convertedAmount_range (h : convertedAmount c = .ok amount) : 0 ≤ amount ∧ amount < 2 ^ 127 := by
  simp only [convertedAmount, ok_iff, liftFulfillment_eq_ok] at h
  obtain ⟨_, -, _, -, received, hreceived, _, -, _, -, h⟩ := h
  split at h
  · exact cnyFenToNanoUsd_range (liftFulfillment_eq_ok.1 h)
  · exact quotedReceivedToNanoUsd_range (parseMinor_eq_ok hreceived).1 (liftFulfillment_eq_ok.1 h)

theorem creditBalance_inv {delta : Int} {ledgerId : String} (h : creditBalance db o delta now ledgerId = .ok next) :
    ∃ u current ledger, db.users.find? (·.id = o.contract.userId) = some u ∧
      parseMinor u.balanceNanoUsd = .ok current ∧ (-2 ^ 127 ≤ current + delta ∧ current + delta < 2 ^ 127) ∧
      db.billingLedger.insert? (rechargeRow o delta (current + delta) now ledgerId) = some ledger ∧
      next = { setBalance db o.contract.userId (current + delta) with billingLedger := ledger } := by
  simp only [creditBalance, ok_iff] at h
  obtain ⟨u, hu, current, hcurrent, balance, hbalance, ledger, hledger, rfl⟩ := h
  obtain ⟨rfl, hrange⟩ := checked_eq_some.1 hbalance
  exact ⟨u, current, ledger, hu, liftFulfillment_eq_ok.1 hcurrent, hrange, hledger, rfl⟩

theorem finishOrderFulfillment_inv {revision : Int} (h : finishOrderFulfillment db orderId revision = .ok next) :
    next = { db with
      storeOrders := db.storeOrders.update (fun o => o.fulfillable orderId revision) StoreOrder.withFulfilled } := by
  simp only [finishOrderFulfillment, ok_iff] at h
  obtain ⟨orders, horders, rfl⟩ := h
  rw [(updateOne?_eq_some.1 horders).2]

def AgentsKept (agents next : Table SalesAgent) : Prop :=
  ∀ a' ∈ next.rows, (∃ a ∈ agents.rows, a'.commissionBalanceFen = a.commissionBalanceFen) ∨
    (-2 ^ 127 ≤ a'.commissionBalanceFen ∧ a'.commissionBalanceFen < 2 ^ 127)

theorem AgentsKept.refl (agents : Table SalesAgent) : AgentsKept agents agents :=
  fun a ha => .inl ⟨a, ha, rfl⟩

theorem AgentsKept.credit (agents : Table SalesAgent) (p : SalesAgent → Bool) (v : Int) :
    AgentsKept agents (agents.update p (withCommissionBalance (wrapping 127 v))) := by
  intro a' ha'
  obtain ⟨a, ha, rfl⟩ := mem_update.1 ha'
  split
  · exact .inr (wrapping_range 127 v)
  · exact .inl ⟨a, ha, rfl⟩

def credited (agents : Table SalesAgent) (a : SalesAgent) (delta : Int) : Table SalesAgent :=
  agents.update (·.userId = a.userId) (withCommissionBalance (wrapping 127 (a.commissionBalanceFen + delta)))

structure EntryAccrued (db next : Database) (e : CommissionEntry) (a : SalesAgent) : Prop where
  agent : a ∈ db.salesAgents.rows ∧ a.userId = e.agentUserId
  open_entry : e.reversedAt = none
  amount : 0 ≤ e.commissionFen ∧ e.commissionFen < 2 ^ 127
  entries : db.commissionEntries.insert? e = some next.commissionEntries
  agents : next.salesAgents = credited db.salesAgents a e.commissionFen

structure EntryReversed (db next : Database) (e : CommissionEntry) (a : SalesAgent) (now : Int) : Prop where
  agent : a ∈ db.salesAgents.rows ∧ a.userId = e.agentUserId
  entry : e ∈ db.commissionEntries.rows ∧ e.reversedAt = none
  entries : next.commissionEntries = db.commissionEntries.update (fun e' => e'.id = e.id ∧ e'.reversedAt = none)
    (withReversedAt now)
  agents : next.salesAgents = credited db.salesAgents a (-e.commissionFen)

inductive CommissionMove (db next : Database) (orderId : String) (c : OrderContract) : Prop
  | idle (he : next.commissionEntries = db.commissionEntries) (ha : next.salesAgents = db.salesAgents)
  | accrue (e : CommissionEntry) (a : SalesAgent) (h : EntryAccrued db next e a)
      (hcoded : e.orderId = orderId ∧ e.buyerUserId = c.userId ∧ c.salesCode = some a.code)
  | reverse (e : CommissionEntry) (a : SalesAgent) (now : Int) (h : EntryReversed db next e a now)
      (horder : e.orderId = orderId)

structure Accrued (db next : Database) (orderId : String) (c : OrderContract) : Prop where
  frame : next = { db with
    commissionEntries := next.commissionEntries
    salesAgents := next.salesAgents }
  move : CommissionMove db next orderId c

theorem Accrued.refl (db : Database) (orderId : String) (c : OrderContract) : Accrued db db orderId c :=
  ⟨rfl, .idle rfl rfl⟩

theorem CommissionMove.agentsKept (h : CommissionMove db next orderId c) : AgentsKept db.salesAgents next.salesAgents := by
  cases h with
  | idle _ ha =>
    rw [ha]
    exact AgentsKept.refl _
  | accrue _ _ h _ | reverse _ _ _ h _ =>
    rw [h.agents]
    exact AgentsKept.credit _ _ _

theorem computeAmounts_commission {rate discount : Int} {amounts : SalesAmounts}
    (h : computeAmounts base rate discount = .ok amounts) :
    0 ≤ amounts.commissionMinor ∧ amounts.commissionMinor < 2 ^ 127 := by
  simp only [computeAmounts, ok_iff, checked_eq_some] at h
  obtain ⟨_, -, _, ⟨-, hdiscount⟩, _, hbase, _, -, _, -, _, -, earned, ⟨rfl, -, hlt⟩, _, -, rfl⟩ := h
  have hnonneg : 0 ≤ base * (rate - discount) := Int.mul_nonneg (by omega) (by omega)
  simp only [bpDenominator]
  omega

theorem accrueForAgent_inv {agent : SalesAgent}
    (h : accrueForAgent db o agent base now entryId = .ok next) (hagent : agent ∈ db.salesAgents.rows)
    (hcode : o.contract.salesCode = some agent.code) : Accrued db next o.id o.contract := by
  simp only [accrueForAgent, ok_iff, liftAmounts_eq_ok] at h
  obtain ⟨_, -, amounts, hamounts, h⟩ := h
  split at h
  · rw [← pure_eq_ok.1 h]
    exact Accrued.refl db o.id o.contract
  simp only [ok_iff, checked_eq_some] at h
  obtain ⟨entries, hentries, _, ⟨rfl, -⟩, rfl⟩ := h
  exact ⟨rfl, .accrue _ agent ⟨⟨hagent, rfl⟩, rfl, computeAmounts_commission hamounts, hentries, rfl⟩
    ⟨rfl, rfl, hcode⟩⟩

theorem accrueSalesCommission_inv (h : accrueSalesCommission db orderId now entryId = .ok next)
    (ho : db.order? orderId = some o) : Accrued db next orderId o.contract := by
  have hid := of_find?_decide ho
  have hfind : db.storeOrders.find? (·.id = orderId) = some o := ho
  simp only [accrueSalesCommission, hfind, ok_iff, some.injEq] at h
  obtain ⟨_, rfl, h⟩ := h
  split at h
  · rw [← pure_eq_ok.1 h]
    exact Accrued.refl db orderId o.contract
  rename_i code hcode
  split at h
  · rw [← pure_eq_ok.1 h]
    exact Accrued.refl db orderId o.contract
  simp only [ok_iff] at h
  obtain ⟨_, -, h⟩ := h
  split at h
  · rw [← pure_eq_ok.1 h]
    exact Accrued.refl db orderId o.contract
  rename_i agent hagent
  have hagentCode := of_find?_decide hagent
  rw [← hid]
  exact accrueForAgent_inv h (mem_of_find? hagent) (hcode.trans (congrArg some hagentCode.symm))

structure RecoveryFrame (db next : Database) : Prop where
  refunds : next.refunds = db.refunds
  recoveries : next.rewardRecoveries = db.rewardRecoveries
  claims : next.recoveryClaims = db.recoveryClaims
  holds : next.balanceHolds = db.balanceHolds
  leases : next.reconciliationLeases = db.reconciliationLeases

theorem RecoveryFrame.refl (db : Database) : RecoveryFrame db db := ⟨rfl, rfl, rfl, rfl, rfl⟩

theorem RecoveryFrame.trans {db₁ db₂ db₃ : Database} (h₁ : RecoveryFrame db₁ db₂) (h₂ : RecoveryFrame db₂ db₃) :
    RecoveryFrame db₁ db₃ :=
  ⟨h₂.refunds.trans h₁.refunds, h₂.recoveries.trans h₁.recoveries, h₂.claims.trans h₁.claims,
    h₂.holds.trans h₁.holds, h₂.leases.trans h₁.leases⟩

structure Credited (db next : Database) (o : StoreOrder) (amount : Int) : Prop where
  converted : convertedAmount o.contract = .ok amount
  balance : ∃ u current, db.users.find? (·.id = o.contract.userId) = some u ∧
    parseMinor u.balanceNanoUsd = .ok current ∧ (-2 ^ 127 ≤ current + amount ∧ current + amount < 2 ^ 127) ∧
    next.users = (setBalance db o.contract.userId (current + amount)).users
  ledger : ∃ balance now ledgerId, db.billingLedger.insert? (rechargeRow o amount balance now ledgerId) =
    some next.billingLedger

structure Fulfilled (db next : Database) (o : StoreOrder) : Prop where
  paid : o.paymentState = .paid
  unheld : o.paymentHold = false
  unfulfilled : o.fulfillmentState ≠ .fulfilled
  orders : next.storeOrders = db.storeOrders.update (fun p => p.fulfillable o.id o.stateRevision)
    StoreOrder.withFulfilled
  frame : RecoveryFrame db next
  settings : next.systemSettings = db.systemSettings
  commissions : CommissionMove db next o.id o.contract
  reward : (o.contract.productKind = .plan ∧ next.users = db.users ∧ next.billingLedger = db.billingLedger) ∨
    (o.contract.productKind = .balance ∧ ∃ amount, Credited db next o amount)

theorem fulfillPlan_inv {quote : OrderQuote} (h : fulfillPlan db o quote now ids = .ok next) :
    (next.users = db.users ∧ next.billingLedger = db.billingLedger) ∧ RecoveryFrame db next ∧
      (next.systemSettings = db.systemSettings ∧ CommissionMove db next o.id o.contract) ∧
      next.storeOrders = db.storeOrders.update (fun p => p.fulfillable o.id o.stateRevision)
        StoreOrder.withFulfilled := by
  simp only [fulfillPlan, ok_iff] at h
  obtain ⟨_, -, _, -, h⟩ := h
  split at h
  · cases h
  rename_i next' hreplace
  rw [finishOrderFulfillment_inv h]
  rcases replaceEntitlementTx_inv hreplace with rfl | ⟨row, hrow⟩
  · exact ⟨⟨rfl, rfl⟩, ⟨rfl, rfl, rfl, rfl, rfl⟩, ⟨rfl, .idle rfl rfl⟩, rfl⟩
  · rw [hrow.frame]
    exact ⟨⟨rfl, rfl⟩, ⟨rfl, rfl, rfl, rfl, rfl⟩, ⟨rfl, .idle rfl rfl⟩, rfl⟩

theorem CommissionMove.of_tables {mid : Database} (h : CommissionMove mid next orderId c)
    (hentries : mid.commissionEntries = db.commissionEntries) (hagents : mid.salesAgents = db.salesAgents) :
    CommissionMove db next orderId c := by
  cases h with
  | idle he ha => exact .idle (he.trans hentries) (ha.trans hagents)
  | accrue e a h hcoded =>
    refine .accrue e a ⟨?_, h.open_entry, h.amount, ?_, ?_⟩ hcoded
    · rw [← hagents]
      exact h.agent
    · rw [← hentries]
      exact h.entries
    · rw [← hagents]
      exact h.agents
  | reverse e a now h horder =>
    refine .reverse e a now ⟨?_, ?_, ?_, ?_⟩ horder
    · rw [← hagents]
      exact h.agent
    · rw [← hentries]
      exact h.entry
    · rw [← hentries]
      exact h.entries
    · rw [← hagents]
      exact h.agents

theorem fulfillBalance_inv (h : fulfillBalance db o now ids = .ok next) (ho : db.order? o.id = some o) :
    RecoveryFrame db next ∧ (next.systemSettings = db.systemSettings ∧ CommissionMove db next o.id o.contract) ∧
      (∃ amount, Credited db next o amount) ∧
      next.storeOrders = db.storeOrders.update (fun p => p.fulfillable o.id o.stateRevision)
        StoreOrder.withFulfilled := by
  simp only [fulfillBalance, ok_iff] at h
  obtain ⟨amount, hamount, credited, hcredit, finished, hfinish, haccrue⟩ := h
  obtain ⟨u, current, ledger, hu, hcurrent, hrange, hledger, rfl⟩ := creditBalance_inv hcredit
  have hfinished := finishOrderFulfillment_inv hfinish
  have horders : finished.storeOrders = db.storeOrders.update (fun p => p.fulfillable o.id o.stateRevision)
      StoreOrder.withFulfilled := by rw [hfinished]; rfl
  have hread : ∃ o', finished.order? o.id = some o' ∧ o'.contract = o.contract := by
    rw [order?_update horders, ho, map_some]
    refine ⟨_, rfl, ?_⟩
    split <;> rfl
  obtain ⟨o', ho', hcontract⟩ := hread
  have haccrued := accrueSalesCommission_inv haccrue ho'
  rw [hcontract] at haccrued
  have hmove : CommissionMove db next o.id o.contract :=
    haccrued.move.of_tables (by rw [hfinished]; rfl) (by rw [hfinished]; rfl)
  have hframe := haccrued.frame
  rw [hfinished] at hframe
  refine ⟨?_, ⟨?_, hmove⟩, ⟨amount, hamount, ⟨u, current, hu, hcurrent, hrange, ?_⟩, ⟨current + amount, now,
    ids.ledgerId, ?_⟩⟩, ?_⟩
  · rw [hframe]
    exact ⟨rfl, rfl, rfl, rfl, rfl⟩
  · rw [hframe]
    rfl
  · rw [hframe]
  · rw [hframe]
    exact hledger
  · rw [hframe]
    rfl

theorem fulfillPaidOrderInner_inv (h : fulfillPaidOrderInner db orderId fence now ids = .ok next) :
    next = db ∨ ∃ o, db.order? orderId = some o ∧ Fulfilled db next o := by
  simp only [fulfillPaidOrderInner, ok_iff] at h
  obtain ⟨_, -, o, ho, h⟩ := h
  split at h
  · exact .inl (pure_eq_ok.1 h).symm
  rename_i hunfulfilled
  simp only [ok_iff] at h
  obtain ⟨_, ⟨hpaid, hhold⟩, quote, -, h⟩ := h
  refine .inr ⟨o, ho, ?_⟩
  split at h
  · rename_i hplan
    obtain ⟨hmoney, hframe, ⟨hsettings, hcommissions⟩, horders⟩ := fulfillPlan_inv h
    exact ⟨hpaid, hhold, hunfulfilled, horders, hframe, hsettings, hcommissions, .inl ⟨hplan, hmoney⟩⟩
  rename_i hplan
  obtain ⟨hframe, ⟨hsettings, hcommissions⟩, hcredit, horders⟩ := fulfillBalance_inv h (order?_id ho ▸ ho)
  have hkind : o.contract.productKind = .balance := by
    cases hk : o.contract.productKind with
    | balance => rfl
    | plan => exact absurd hk hplan
  exact ⟨hpaid, hhold, hunfulfilled, horders, hframe, hsettings, hcommissions, .inr ⟨hkind, hcredit⟩⟩

theorem Credited.storedBalance (h : Credited db next o amount) (userId : String) : storedBalance next userId =
      storedBalance db userId + if some o.contract.userId = some userId then amount else 0 := by
  obtain ⟨u, current, hu, hcurrent, -, husers⟩ := h.balance
  rw [← storedBalance_credit hu (signedCanonical?_of_parseMinor hcurrent)]
  simp only [Monoize.storedBalance, husers]

theorem Credited.reward? (h : Credited db next o amount) :
    db.reward? o.id = none ∧ (next.reward? o.id).map (fun row => (row.userId, row.deltaNanoUsd)) =
      some (o.contract.userId, amount) := by
  obtain ⟨balance, now, ledgerId, hledger⟩ := h.ledger
  have hnone : db.reward? o.id = none := by
    apply List.find?_eq_none.2
    intro row hrow hkey
    exact (insert?_eq_some.1 hledger).1 row hrow
      (BillingLedgerRow.clashes_of_idempotencyKey (of_decide_eq_true hkey) rfl)
  have hfind : next.reward? o.id = some (rechargeRow o amount balance now ledgerId) := by
    have hnew := find?_insert hledger (fun row => row.idempotencyKey = some (fulfillmentKey o.id))
    rw [Database.reward?] at hnone ⊢
    rw [hnew, hnone]
    exact if_pos (decide_eq_true rfl)
  exact ⟨hnone, by rw [hfind]; rfl⟩

theorem Credited.reward?_ne (h : Credited db next o amount) (hid : id ≠ o.id) : next.reward? id = db.reward? id := by
  obtain ⟨balance, now, ledgerId, hledger⟩ := h.ledger
  apply find?_insert_of_neg hledger
  apply decide_eq_false
  intro hkey
  exact hid (fulfillmentKey_injective (some.inj hkey)).symm

variable (h : Fulfilled db next o)

include h

theorem Fulfilled.fulfillable : o.fulfillable o.id o.stateRevision := by
  refine ⟨rfl, h.paid, ?_, h.unheld, rfl⟩
  cases hf : o.fulfillmentState with
  | pending => exact .inl rfl
  | fulfilled => exact absurd hf h.unfulfilled
  | failed => exact .inr rfl

theorem Fulfilled.order? (ho : db.order? orderId = some o) : next.order? orderId = some o.withFulfilled := by
  rw [order?_update h.orders, ho, map_some, if_pos (decide_eq_true h.fulfillable)]

theorem Fulfilled.order?_ne (hid : id ≠ o.id) : next.order? id = db.order? id := by
  rw [order?_update h.orders]
  cases hp : db.order? id with
  | none => rfl
  | some p =>
    have hpid := of_find?_decide hp
    rw [map_some, if_neg]
    intro hf
    exact hid (hpid.symm.trans (of_decide_eq_true hf).1)

omit h in
theorem book_order (ho : db.order? orderId = some o) : (book db orderId).order = some o.face := by
  simp only [book, ho, map_some]

omit h in
theorem book_owner (ho : db.order? orderId = some o) : (book db orderId).owner = some o.contract.userId := by
  rw [Book.owner, book_order ho]
  rfl

theorem Fulfilled.face : o.face = (o.contract, false) := by
  rw [StoreOrder.face, decide_eq_false h.unfulfilled]

theorem Fulfilled.bookStep (ho : db.order? orderId = some o) : BookStep Book.Pays orderId db next := by
  have hid := of_find?_decide ho
  subst hid
  have horder := book_order ho
  rw [h.face] at horder
  have hrecovery (id : String) : next.recovery? id = db.recovery? id := by
    simp only [Database.recovery?, h.frame.recoveries]
  rcases h.reward with ⟨hplan, husers, hledger⟩ | ⟨hbalance, amount, hcredit⟩
  · have hreward (id : String) : next.reward? id = db.reward? id := by
      simp only [Database.reward?, hledger]
    refine ⟨⟨0, ?_, fun userId => ?_⟩, fun id hid => ?_⟩
    · have hbook : book next o.id = { book db o.id with order := some (o.contract, true) } := by
        simp only [book, h.order? ho, hreward, hrecovery]
        rfl
      rw [hbook]
      exact Book.Pays.starts horder hplan
    · simp only [storedBalance, husers, ite_self, Int.add_zero]
    · simp only [book, h.order?_ne hid, hreward, hrecovery]
  · refine ⟨⟨amount, ?_, fun userId => ?_⟩, fun id hid => ?_⟩
    · have hbook : book next o.id =
          { book db o.id with order := some (o.contract, true), reward := some (o.contract.userId, amount) } := by
        simp only [book, h.order? ho, hcredit.reward?.2, hrecovery]
        rfl
      have hnone : (book db o.id).reward = none := by
        simp only [book, hcredit.reward?.1, map_none]
      rw [hbook]
      exact Book.Pays.credits horder hbalance hnone hcredit.converted
    · rw [book_owner ho]
      exact hcredit.storedBalance userId
    · simp only [book, h.order?_ne hid, hcredit.reward?_ne hid, hrecovery]

omit h

def Quiet (db next : Database) : Prop :=
  next = { db with
    providerEvents := next.providerEvents
    reconciliationCases := next.reconciliationCases }

structure PaymentApplied (db next : Database) (o : StoreOrder) : Prop where
  users : next.users = db.users
  ledger : next.billingLedger = db.billingLedger
  frame : RecoveryFrame db next
  settings : next.systemSettings = db.systemSettings
  agents : next.salesAgents = db.salesAgents
  entries : next.commissionEntries = db.commissionEntries
  applicable : canApply o
  orders : (o.paymentState = .paid ∧ next.storeOrders = db.storeOrders) ∨ next.storeOrders = db.storeOrders.update
    (fun p => p.id = o.id ∧ p.paymentState = o.paymentState ∧ p.stateRevision = o.stateRevision)
    (StoreOrder.withPaymentState .paid)

theorem settleDuplicate_quiet [Sha256] {event : ProviderEvent} {channelId : String}
    (h : settleDuplicate db event credential input channelId = .ok (projection, next)) :
    ∃ result, projection = .settled result ∧ Quiet db next := by
  simp only [settleDuplicate, ok_iff] at h
  obtain ⟨⟨result, next'⟩, hdup, rfl, rfl⟩ := h
  refine ⟨result, rfl, ?_⟩
  unfold duplicateResultWithEvidence at hdup
  split at hdup
  · cases hd : duplicateResult event with
    | error e =>
      rw [hd] at hdup
      cases hdup
    | ok r =>
      rw [hd] at hdup
      cases hdup
      rfl
  · cases hdup
    rfl

theorem settleManualReview_quiet (h : settleManualReview db credential input = .ok (projection, next)) :
    ∃ result, projection = .settled result ∧ Quiet db next := by
  simp only [settleManualReview, insertEvent, ok_iff] at h
  obtain ⟨_, ⟨events, -, rfl⟩, rfl, rfl⟩ := h
  exact ⟨_, rfl, rfl⟩

theorem applyPayment_inv (h : applyPayment db o input = .ok (projection, next)) (hcan : canApply o) :
    projection = .applied o.paymentHold ∧ PaymentApplied db next o := by
  simp only [applyPayment, insertEvent, ok_iff] at h
  obtain ⟨_, ⟨events, -, rfl⟩, attempts, -, paid, hpaid, applications, -, rfl, rfl⟩ := h
  refine ⟨rfl, ?_⟩
  unfold markOrderPaid at hpaid
  split at hpaid
  · rename_i hstate
    rw [← pure_eq_ok.1 hpaid]
    exact ⟨rfl, rfl, ⟨rfl, rfl, rfl, rfl, rfl⟩, rfl, rfl, rfl, hcan, .inl ⟨hstate, rfl⟩⟩
  · simp only [ok_iff] at hpaid
    obtain ⟨orders, horders, rfl⟩ := hpaid
    have hupdate := (updateOne?_eq_some.1 horders).2
    exact ⟨rfl, rfl, ⟨rfl, rfl, rfl, rfl, rfl⟩, rfl, rfl, rfl, hcan, .inr hupdate.symm⟩

theorem projectPayment_inv [Sha256] (h : projectPayment db input fence = .ok (projection, next)) :
    (∃ result, projection = .settled result ∧ Quiet db next) ∨ ∃ o a, db.order? input.orderId = some o ∧
      db.paymentAttempts.find? (fun a => a.id = input.attemptId ∧ a.orderId = input.orderId) = some a ∧
      findEvent db input.credentialVersionId input.providerEventId = none ∧ matchesContract o a input ∧
      projection = .applied o.paymentHold ∧ PaymentApplied db next o := by
  simp only [projectPayment, ok_iff] at h
  obtain ⟨_, -, o, ho, a, ha, h⟩ := h
  split at h
  · split at h
    · exact .inl (settleDuplicate_quiet h)
    · exact .inl (settleManualReview_quiet h)
  unfold projectBound at h
  split at h
  · exact .inl (settleDuplicate_quiet h)
  rename_i hevent
  split at h
  · rename_i hmatches
    obtain ⟨hprojection, happlied⟩ := applyPayment_inv h hmatches.2
    exact .inr ⟨o, a, ho, ha, hevent, hmatches.1, hprojection, happlied⟩
  · exact .inl (settleManualReview_quiet h)

theorem Quiet.sameBooks (h : Quiet db next) : SameBooks db next := by
  rw [h]
  exact ⟨rfl, fun _ => rfl⟩

theorem Quiet.frame (h : Quiet db next) : RecoveryFrame db next := by
  rw [h]
  exact ⟨rfl, rfl, rfl, rfl, rfl⟩

theorem PaymentApplied.sameBooks (h : PaymentApplied db next o) : SameBooks db next := by
  rcases h.orders with ⟨-, horders⟩ | horders
  · refine ⟨h.users, fun orderId => ?_⟩
    simp only [book, Database.order?, horders, Database.reward?, h.ledger, Database.recovery?, h.frame.recoveries]
  · exact SameBooks.of_orders _ h.users h.ledger h.frame.recoveries horders (fun _ => rfl)

theorem applyVerifiedPaymentInner_inv [Sha256] (db : Database) (input : ApplyProviderEventInput)
    (fence : Option ReconciliationFence) (thenFulfill : Bool) (now : Instant) (ids : FulfillmentIds)
    (h : (applyVerifiedPaymentInner db input fence thenFulfill now ids).2 = next) :
    Quiet db next ∨ ∃ o a applied, db.order? input.orderId = some o ∧
      db.paymentAttempts.find? (fun a => a.id = input.attemptId ∧ a.orderId = input.orderId) = some a ∧
      findEvent db input.credentialVersionId input.providerEventId = none ∧ matchesContract o a input ∧
      PaymentApplied db applied o ∧ (next = applied ∨
        ∃ time, fulfillPaidOrderInner applied input.orderId fence time ids = .ok next) := by
  unfold applyVerifiedPaymentInner at h
  split at h
  · exact .inl (h ▸ rfl)
  · rename_i result mid hproject
    simp only [ok_iff] at hproject
    obtain ⟨_, -, hproject⟩ := hproject
    rcases projectPayment_inv hproject with ⟨_, -, hquiet⟩ | ⟨_, _, _, _, _, _, hprojection, _⟩
    · exact .inl (h ▸ hquiet)
    · cases hprojection
  · rename_i hold mid hproject
    simp only [ok_iff] at hproject
    obtain ⟨_, -, hproject⟩ := hproject
    rcases projectPayment_inv hproject with ⟨_, hsettled, -⟩ | ⟨o, a, ho, ha, hevent, hmatches, -, happlied⟩
    · cases hsettled
    refine .inr ⟨o, a, mid, ho, ha, hevent, hmatches, happlied, ?_⟩
    split at h
    · exact .inl h.symm
    split at h
    · exact .inl h.symm
    · rename_i last hfulfill
      have hlast : last = next := h
      exact .inr ⟨_, hlast ▸ hfulfill⟩

end Monoize
