import Monoize.StoreInvariant

/-! What the events of the Store do to commission entries and agents' balances. -/

namespace Monoize

open Fallible MachineInt Relational

variable {db next : Database} {now : Instant} {ids : RecoveryIds} {refundId userId : String} {agent : SalesAgent}

/-- The administration of agents: a new agent starts with nothing, and edits leave balances alone. -/
inductive AgentsManaged (agents next : Table SalesAgent) : Prop
  | enroll (a : SalesAgent) (hzero : a.commissionBalanceFen = 0) (hinsert : agents.insert? a = some next)
  | edit (p : SalesAgent → Bool) (f : SalesAgent → SalesAgent) (hf : ∀ a, Keyed.key (f a) = Keyed.key a)
      (hbalance : ∀ a, (f a).commissionBalanceFen = a.commissionBalanceFen) (hupdate : next = agents.update p f hf)

def CommissionEvent (db next : Database) : Prop :=
  (∃ o ∈ db.storeOrders.rows, CommissionMove db next o.id o.contract) ∨
    next.commissionEntries = db.commissionEntries ∧
      (next.salesAgents = db.salesAgents ∨ AgentsManaged db.salesAgents next.salesAgents)

theorem CommissionEvent.same (hentries : next.commissionEntries = db.commissionEntries)
    (hagents : next.salesAgents = db.salesAgents) : CommissionEvent db next :=
  .inr ⟨hentries, .inl hagents⟩

theorem CommissionEvent.refl (db : Database) : CommissionEvent db db := .same rfl rfl

theorem PaymentApplied.contract {o o' : StoreOrder} (h : PaymentApplied db next o) (ho' : o' ∈ next.storeOrders.rows) :
    ∃ p ∈ db.storeOrders.rows, p.id = o'.id ∧ p.contract = o'.contract := by
  rcases h.orders with ⟨-, horders⟩ | horders
  · rw [horders] at ho'
    exact ⟨o', ho', rfl, rfl⟩
  rw [horders] at ho'
  obtain ⟨p, hp, rfl⟩ := Table.mem_update.1 ho'
  refine ⟨p, hp, ?_⟩
  split
  · exact ⟨rfl, rfl⟩
  · exact ⟨rfl, rfl⟩

theorem insertAgent_commissions {code : String} {discountBp : Int}
    (h : insertAgent db userId code discountBp = .ok (agent, next)) : CommissionEvent db next := by
  simp only [insertAgent, ok_iff] at h
  obtain ⟨_, -, _, -, agents, hinsert, -, rfl⟩ := h
  exact .inr ⟨rfl, .inr (.enroll _ rfl hinsert)⟩

theorem updateAgent_commissions {f : SalesAgent → SalesAgent} {hf} (h : updateAgent db userId f hf = .ok (agent, next))
    (hbalance : ∀ a, (f a).commissionBalanceFen = a.commissionBalanceFen) : CommissionEvent db next := by
  simp only [updateAgent, ok_iff] at h
  obtain ⟨_, -, -, rfl⟩ := h
  exact .inr ⟨rfl, .inr (.edit _ f hf hbalance rfl)⟩

theorem setOwnDiscount_commissions {discountBp : Int} (h : setOwnDiscount db userId discountBp = .ok (agent, next)) :
    CommissionEvent db next := by
  simp only [setOwnDiscount, ok_iff] at h
  obtain ⟨_, -, _, -, h⟩ := h
  exact updateAgent_commissions h (fun _ => rfl)

variable [Sha256]

theorem StoreDid.commissions {e : StoreEvent} (hd : StoreDid db e next) : CommissionEvent db next := by
  cases hd with
  | nothing => exact CommissionEvent.refl _
  | quiet hquiet =>
    rw [hquiet]
    exact .same rfl rfl
  | paid happlied => exact .same happlied.entries happlied.agents
  | credited happlied ho hfulfilled =>
    obtain ⟨p, hp, hid, hcontract⟩ := happlied.contract (Table.mem_of_find? ho)
    refine .inl ⟨p, hp, ?_⟩
    rw [hid, hcontract]
    exact hfulfilled.commissions.of_tables happlied.entries happlied.agents
  | fulfill ho hfulfilled => exact .inl ⟨_, Table.mem_of_find? ho, hfulfilled.commissions⟩
  | beginRefund _ _ hreserved hopened | openClaim _ _ hreserved hopened =>
    apply CommissionEvent.same <;> rw [hopened.frame, hreserved.money.frame, hreserved.frame]
  | markRefundPending | resolveClaim | attempts => exact .same rfl rfl
  | rejectRefund hrejected hmoney =>
    apply CommissionEvent.same <;> rw [hrejected.result, hmoney.frame]
  | completeRefund hcompleted =>
    exact .inl ⟨_, Table.mem_of_find? hcompleted.rows.order, hcompleted.move⟩
  | winClaim hwon hmoney =>
    rw [hwon.result]
    split
    · apply CommissionEvent.same <;> rw [endHold, hmoney.frame]
    · apply CommissionEvent.same <;> rw [hmoney.frame]
  | loseClaim hlost hmoney _ =>
    apply CommissionEvent.same <;> rw [hlost.result, hmoney.frame]
  | createOrder hcreated =>
    rw [hcreated.frame]
    exact .same rfl rfl
  | closeUnpaid hok =>
    obtain ⟨p, -, hnext⟩ := closeConfirmedUnpaidAdmin_inv hok
    rw [hnext]
    exact .same rfl rfl
  | charge hok =>
    rcases chargeUserBalanceNano_inv hok with rfl | ⟨u, balance, amount, -, -, -, -, hnext⟩
    · exact CommissionEvent.refl _
    · rw [hnext]
      exact .same rfl rfl
  | setCommissionRate hok =>
    simp only [setCommissionRateBp, ok_iff] at hok
    obtain ⟨_, -, _, -, -, rfl⟩ := hok
    exact .same rfl rfl
  | insertAgent hok => exact insertAgent_commissions hok
  | setAgentEnabled hok => exact updateAgent_commissions hok fun _ => rfl
  | setOwnDiscount hok => exact setOwnDiscount_commissions hok

end Monoize
