import Monoize.OrderAcceptance
import Monoize.StoreInvariant

/-! What fulfilment reads stays readable in every run: balances, the commission rate, the agents and the quotes. -/

namespace Monoize

open Fallible MachineInt Relational Transition Option Table

variable {db next : Database} {o : StoreOrder} {now : Instant} {ids : RecoveryIds} {refundId userId : String}
  {agent : SalesAgent}

def OrdersKept (orders next : Table StoreOrder) : Prop := ∀ o' ∈ next.rows, ∃ o ∈ orders.rows, o'.contract = o.contract

theorem OrdersKept.refl (orders : Table StoreOrder) : OrdersKept orders orders := fun o ho => ⟨o, ho, rfl⟩

theorem OrdersKept.update {orders : Table StoreOrder} {p : StoreOrder → Bool} {f : StoreOrder → StoreOrder}
    (hcontract : ∀ o, (f o).contract = o.contract := by exact fun _ => rfl)
    (hf : ∀ o, Keyed.key (f o) = Keyed.key o := by exact keyKept fun _ => rfl) : OrdersKept orders (orders.update p f hf) := by
  intro o' ho'
  obtain ⟨o, ho, rfl⟩ := mem_update.1 ho'
  refine ⟨o, ho, ?_⟩
  split
  · exact hcontract o
  · rfl

structure Kept (db next : Database) : Prop where
  users : UsersKept db.users next.users
  settings : next.systemSettings = db.systemSettings
  agents : AgentsKept db.salesAgents next.salesAgents
  orders : OrdersKept db.storeOrders next.storeOrders

theorem Kept.refl (db : Database) : Kept db db :=
  ⟨UsersKept.refl db.users, rfl, AgentsKept.refl db.salesAgents, OrdersKept.refl db.storeOrders⟩

theorem Kept.trans {db₁ db₂ db₃ : Database} (h₁ : Kept db₁ db₂) (h₂ : Kept db₂ db₃) : Kept db₁ db₃ := by
  refine ⟨?_, h₂.settings.trans h₁.settings, ?_, ?_⟩
  · intro u hu
    rcases h₂.users u hu with hu | hu
    · exact h₁.users u hu
    · exact .inr hu
  · intro a ha
    rcases h₂.agents a ha with ⟨b, hb, hab⟩ | hrange
    · rw [hab]
      exact h₁.agents b hb
    · exact .inr hrange
  · intro o ho
    obtain ⟨p, hp, hop⟩ := h₂.orders o ho
    obtain ⟨q, hq, hpq⟩ := h₁.orders p hp
    exact ⟨q, hq, hop.trans hpq⟩

theorem Kept.of_orders (husers : next.users = db.users) (hsettings : next.systemSettings = db.systemSettings)
    (hagents : next.salesAgents = db.salesAgents) (horders : OrdersKept db.storeOrders next.storeOrders) : Kept db next :=
  ⟨husers ▸ UsersKept.refl _, hsettings, hagents ▸ AgentsKept.refl _, horders⟩

structure Ready (db : Database) : Prop where
  balances : ∀ u ∈ db.users.rows, IsAmount u.balanceNanoUsd
  rate : ∃ rate, commissionRateForEntry db = .ok rate
  agents : ∀ a ∈ db.salesAgents.rows, -2 ^ 127 ≤ a.commissionBalanceFen ∧ a.commissionBalanceFen < 2 ^ 127
  orders : ∀ o ∈ db.storeOrders.rows, o.contract.productKind = .balance → Accepted o.contract

theorem Ready.kept (h : Ready db) (hk : Kept db next) : Ready next := by
  constructor
  · intro u hu
    rcases hk.users u hu with hu | hu
    · exact h.balances u hu
    · exact hu
  · rw [commissionRateForEntry, hk.settings]
    exact h.rate
  · intro a ha
    rcases hk.agents a ha with ⟨b, hb, hab⟩ | hrange
    · rw [hab]
      exact h.agents b hb
    · exact hrange
  · intro o ho hkind
    obtain ⟨p, hp, hop⟩ := hk.orders o ho
    rw [hop] at hkind ⊢
    exact h.orders p hp hkind

theorem Quiet.kept (h : Quiet db next) : Kept db next := by
  rw [h]
  exact Kept.of_orders rfl rfl rfl (OrdersKept.refl _)

theorem PaymentApplied.kept (h : PaymentApplied db next o) : Kept db next := by
  refine ⟨h.users ▸ UsersKept.refl _, h.settings, h.agents ▸ AgentsKept.refl _, ?_⟩
  rcases h.orders with ⟨-, horders⟩ | horders
  · rw [horders]
    exact OrdersKept.refl _
  · rw [horders]
    exact OrdersKept.update

theorem Fulfilled.kept (h : Fulfilled db next o) : Kept db next := by
  refine ⟨?_, h.settings, h.commissions.agentsKept, ?_⟩
  · rcases h.reward with ⟨-, husers, -⟩ | ⟨-, amount, hcredit⟩
    · rw [husers]
      exact UsersKept.refl _
    · obtain ⟨u, current, -, -, ⟨hlo, hhi⟩, husers⟩ := hcredit.balance
      rw [husers]
      exact setBalance_kept db o.contract.userId hlo hhi
  · rw [h.orders]
    exact OrdersKept.update

theorem MoneyFrame.kept (h : MoneyFrame db next) : Kept db next := by
  refine ⟨h.users, ?_, ?_, ?_⟩
  · rw [h.frame]
  · rw [h.frame]
    exact AgentsKept.refl _
  · rw [h.frame]
    exact OrdersKept.refl _

theorem RecoveryReserved.kept {ensured : Database} {r : RewardRecovery} (h : RecoveryReserved db ensured next o r) :
    Kept db next := by
  refine Kept.trans ?_ h.money.kept
  rw [h.frame]
  exact Kept.of_orders rfl rfl rfl (OrdersKept.refl _)

theorem MoneyFrame.settled_kept {claims : Table RecoveryClaim} (h : MoneyFrame { db with recoveryClaims := claims } next) :
    Kept db next := by
  refine Kept.trans ?_ h.kept
  exact Kept.of_orders rfl rfl rfl (OrdersKept.refl _)

theorem RefundOpened.kept {recoveryId key : String} (h : RefundOpened db next o recoveryId key) : Kept db next := by
  refine Kept.of_orders (by rw [h.frame]) (by rw [h.frame]) (by rw [h.frame]) ?_
  rw [h.orders]
  exact OrdersKept.update

theorem ClaimOpened.kept {recoveryId : String} {kind : RecoveryClaimKind} {now : Int}
    (h : ClaimOpened db next o recoveryId kind now) : Kept db next := by
  refine Kept.of_orders (by rw [h.frame]) (by rw [h.frame]) (by rw [h.frame]) ?_
  rw [h.orders]
  exact OrdersKept.update

theorem chargeUserBalanceNano_kept {charge : RequestCharge} {ledgerId : String}
    (h : chargeUserBalanceNano db charge ledgerId = .ok ((), next)) : Kept db next := by
  rcases chargeUserBalanceNano_inv h with rfl | ⟨u, balance, amount, -, -, hamount, -, hnext⟩
  · exact Kept.refl next
  · obtain ⟨rfl, hlo, hhi⟩ := checked_eq_some.1 hamount
    rw [hnext]
    exact ⟨setBalance_kept db charge.userId hlo hhi, rfl, AgentsKept.refl _, OrdersKept.refl _⟩

theorem OrderCreated.ready [Sha256] {request : CreatePaymentOrderRequest} (h : OrderCreated db next userId request o)
    (hready : Ready db) : Ready next := by
  have hframe := h.frame
  constructor
  · rw [hframe]
    exact hready.balances
  · rw [hframe]
    exact hready.rate
  · rw [hframe]
    exact hready.agents
  · intro p hp hkind
    rcases (mem_insert h.inserted).1 hp with hp | rfl
    · exact hready.orders p hp hkind
    · exact h.accepted hkind

theorem find?_putSetting (settings : Table SystemSetting) (key value : String) :
    ∃ row, (putSetting settings key value).find? (·.key = key) = some row ∧ row.value = value := by
  unfold putSetting
  cases hinsert : settings.insert? ⟨key, value⟩ with
  | some inserted =>
    have hnone : settings.find? (·.key = key) = none := by
      apply List.find?_eq_none.2
      intro row hrow hkey
      exact (insert?_eq_some.1 hinsert).1 row hrow (of_decide_eq_true hkey)
    refine ⟨⟨key, value⟩, ?_, rfl⟩
    rw [getD_some, find?_insert hinsert, hnone, none_or]
    exact if_pos (decide_eq_true rfl)
  | none =>
    rw [getD_none, find?_update _ (f := withValue value) fun _ => rfl]
    cases hfind : settings.find? (·.key = key) with
    | some row =>
      have hkey := of_find?_decide hfind
      refine ⟨withValue value row, ?_, rfl⟩
      rw [map_some, if_pos (decide_eq_true hkey)]
    | none =>
      -- without a row of that key the insertion would have succeeded
      have hfree : ∀ row ∈ settings.rows, ¬ Clashes row ⟨key, value⟩ := fun row hrow hclash =>
        List.find?_eq_none.1 hfind row hrow (decide_eq_true hclash)
      rw [insert?, dif_pos hfree] at hinsert
      cases hinsert

theorem commissionRateForEntry_put {rate : Int} (hrate : 0 ≤ rate ∧ rate ≤ maxCommissionRateBp) :
    commissionRateForEntry { db with
      systemSettings := putSetting db.systemSettings commissionRateKey (toString rate) } = .ok rate := by
  obtain ⟨row, hrow, hvalue⟩ := find?_putSetting db.systemSettings commissionRateKey (toString rate)
  have hchecked : checked 63 rate = some rate := by
    simp only [maxCommissionRateBp] at hrate
    exact checked_eq_some.2 ⟨rfl, by omega, by omega⟩
  unfold commissionRateForEntry
  rw [hrow]
  simp only [hvalue, signed?_toString, bind_some, hchecked, ok_iff]
  exact ⟨rate, rfl, (), hrate, rfl⟩

theorem setCommissionRateBp_inv {rateBp rate : Int} (h : setCommissionRateBp db rateBp = .ok (rate, next)) :
    (0 ≤ rateBp ∧ rateBp ≤ maxCommissionRateBp) ∧
      next = { db with systemSettings := putSetting db.systemSettings commissionRateKey (toString rateBp) } := by
  simp only [setCommissionRateBp, ok_iff] at h
  obtain ⟨_, hrate, _, -, -, rfl⟩ := h
  exact ⟨hrate, rfl⟩

theorem insertAgent_kept {code : String} {discountBp : Int}
    (h : insertAgent db userId code discountBp = .ok (agent, next)) : Kept db next := by
  simp only [insertAgent, ok_iff] at h
  obtain ⟨_, -, _, -, agents, hinsert, -, rfl⟩ := h
  refine ⟨UsersKept.refl _, rfl, ?_, OrdersKept.refl _⟩
  intro a ha
  rcases (mem_insert hinsert).1 ha with ha | rfl
  · exact .inl ⟨a, ha, rfl⟩
  · exact .inr (show -2 ^ 127 ≤ (0 : Int) ∧ (0 : Int) < 2 ^ 127 by decide)

theorem updateAgent_kept {f : SalesAgent → SalesAgent} {hf} (h : updateAgent db userId f hf = .ok (agent, next))
    (hbalance : ∀ a, (f a).commissionBalanceFen = a.commissionBalanceFen) : Kept db next := by
  simp only [updateAgent, ok_iff] at h
  obtain ⟨_, -, -, rfl⟩ := h
  refine ⟨UsersKept.refl _, rfl, ?_, OrdersKept.refl _⟩
  intro a' ha'
  simp only [mem_update] at ha'
  obtain ⟨a, ha, rfl⟩ := ha'
  refine .inl ⟨a, ha, ?_⟩
  split
  · exact hbalance a
  · rfl

theorem setOwnDiscount_kept {discountBp : Int} (h : setOwnDiscount db userId discountBp = .ok (agent, next)) :
    Kept db next := by
  simp only [setOwnDiscount, ok_iff] at h
  obtain ⟨_, -, _, -, h⟩ := h
  exact updateAgent_kept h (fun _ => rfl)

inductive StoreKept [Sha256] (db next : Database) : Prop
  | kept (h : Kept db next)
  | created (userId : String) (request : CreatePaymentOrderRequest) (o : StoreOrder)
      (h : OrderCreated db next userId request o)
  | rated (rateBp : Int) (hrate : 0 ≤ rateBp ∧ rateBp ≤ maxCommissionRateBp)
      (hnext : next = { db with
        systemSettings := putSetting db.systemSettings commissionRateKey (toString rateBp) })

theorem StoreKept.contract [Sha256] (h : StoreKept db next) {o' : StoreOrder} (ho' : o' ∈ next.storeOrders.rows) :
    (∃ o ∈ db.storeOrders.rows, o'.contract = o.contract) ∨
      ∃ userId request, OrderCreated db next userId request o' := by
  cases h with
  | kept h => exact .inl (h.orders o' ho')
  | created userId request o h =>
    rcases (mem_insert h.inserted).1 ho' with hold | rfl
    · exact .inl ⟨o', hold, rfl⟩
    · exact .inr ⟨userId, request, h⟩
  | rated rateBp hrate hnext =>
    rw [hnext] at ho'
    exact .inl ⟨o', ho', rfl⟩

theorem StoreKept.ready [Sha256] (h : StoreKept db next) (hready : Ready db) : Ready next := by
  cases h with
  | kept h => exact hready.kept h
  | created userId request o h => exact h.ready hready
  | rated rateBp hrate hnext =>
    rw [hnext]
    exact ⟨hready.balances, ⟨rateBp, commissionRateForEntry_put hrate⟩, hready.agents, hready.orders⟩

variable [Sha256]

theorem StoreDid.kept {e : StoreEvent} (hd : StoreDid db e next) : StoreKept db next := by
  cases hd with
  | nothing => exact .kept (Kept.refl _)
  | quiet hquiet => exact .kept hquiet.kept
  | paid happlied => exact .kept happlied.kept
  | credited happlied _ hfulfilled => exact .kept (happlied.kept.trans hfulfilled.kept)
  | fulfill _ hfulfilled => exact .kept hfulfilled.kept
  | beginRefund _ _ hreserved hopened | openClaim _ _ hreserved hopened =>
    exact .kept (hreserved.kept.trans hopened.kept)
  | markRefundPending | resolveClaim | attempts => exact .kept (Kept.of_orders rfl rfl rfl (OrdersKept.refl _))
  | rejectRefund hrejected hmoney =>
    rw [hrejected.result]
    exact .kept (hmoney.settled_kept.trans
      (Kept.of_orders rfl rfl rfl OrdersKept.update))
  | completeRefund hcompleted =>
    refine .kept ⟨?_, ?_, hcompleted.move.agentsKept, ?_⟩
    · rw [hcompleted.result]
      exact UsersKept.refl _
    · rw [hcompleted.result]
    · rw [hcompleted.result]
      exact OrdersKept.update
  | winClaim hwon hmoney =>
    rw [hwon.result]
    split
    · exact .kept (hmoney.settled_kept.trans
        (Kept.of_orders rfl rfl rfl OrdersKept.update))
    · exact .kept hmoney.settled_kept
  | loseClaim hlost hmoney _ =>
    rw [hlost.result]
    exact .kept (hmoney.kept.trans
      (Kept.of_orders rfl rfl rfl OrdersKept.update))
  | createOrder hcreated => exact .created _ _ _ hcreated
  | closeUnpaid hok =>
    obtain ⟨p, -, hnext⟩ := closeConfirmedUnpaidAdmin_inv hok
    rw [hnext]
    exact .kept (Kept.of_orders rfl rfl rfl OrdersKept.update)
  | charge hok => exact .kept (chargeUserBalanceNano_kept hok)
  | setCommissionRate hok =>
    obtain ⟨hrate, hnext⟩ := setCommissionRateBp_inv hok
    exact .rated _ hrate hnext
  | insertAgent hok => exact .kept (insertAgent_kept hok)
  | setAgentEnabled hok => exact .kept (updateAgent_kept hok fun _ => rfl)
  | setOwnDiscount hok => exact .kept (setOwnDiscount_kept hok)

end Monoize
