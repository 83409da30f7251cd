import Monoize.PaymentSteps

/-! What order creation, closing, request charges and the sales administration do to the tables. -/

namespace Monoize

open Fallible MachineInt Relational

variable {db next : Database} {userId : String} {request : CreatePaymentOrderRequest}
  {o : StoreOrder} {agent : SalesAgent}

variable {charge : RequestCharge} {ledgerId : String} {discountBp : Int}

structure OrderCreated [Sha256] (db next : Database) (userId : String)
    (request : CreatePaymentOrderRequest) (o : StoreOrder) : Prop where
  frame : next = { db with storeOrders := next.storeOrders }
  inserted : db.storeOrders.insert? o = some next.storeOrders
  state : o.paymentState = .unpaid ∧ o.fulfillmentState = .pending ∧ o.paymentHold = false
  quoted : ∃ sales settings rate product quoted snapshot now ids, resolveSales db userId request = .ok sales ∧
    ExchangeRateRational.parse snapshot = .ok rate ∧
    quotePayment product ⟨request.idempotencyKey, request.productId, request.paymentChannelId,
      request.paymentCurrency, request.customRechargeMinor, sales⟩ settings rate = .ok quoted ∧
    o.contract = orderContract userId ⟨request.idempotencyKey, request.productId, request.paymentChannelId,
      request.paymentCurrency, request.customRechargeMinor, sales⟩ product rate quoted.1 quoted.2 now ids

theorem mapMoneyError_eq_ok {α : Type} {x : Except MoneyError α} {a : α} : mapMoneyError x = .ok a ↔ x = .ok a := by
  cases x with
  | ok a => simp [mapMoneyError]
  | error e => cases e <;> simp [mapMoneyError]

theorem createStoreOrder_inv [Sha256] {shop : Checkout} {snapshot : ExchangeRateSnapshot} {now : Instant} {ids : OrderIds}
    {result : StoreOrder} (h : createStoreOrder shop db userId request snapshot now ids = .ok (result, next)) :
    next = db ∨ ∃ o, OrderCreated db next userId request o := by
  simp only [createStoreOrder, ok_iff] at h
  obtain ⟨sales, hsales, h⟩ := h
  split at h
  · rename_i created hcreate
    cases h
    simp only [createOrder, ok_iff] at hcreate
    obtain ⟨replayed, -, hcreate⟩ := hcreate
    split at hcreate
    · cases hcreate
      exact .inl rfl
    simp only [insertOrder, ok_iff] at hcreate
    obtain ⟨_, -, rate, hrate, settings, -, _, -, _, -, _, -, product, -, _, -, _, -, quoted, hquoted, _, -, _, -,
      orders, horders, rfl, rfl⟩ := hcreate
    exact .inr ⟨_, rfl, horders, ⟨rfl, rfl, rfl⟩, sales, settings, rate, product, quoted, _, now, ids, hsales,
      mapMoneyError_eq_ok.1 hrate, hquoted, rfl⟩
  · cases h

section

variable [Sha256] (h : OrderCreated db next userId request o)

include h

theorem OrderCreated.order? (orderId : String) :
    next.order? orderId = (db.order? orderId).or (if o.id = orderId then some o else none) := by
  have hfind := Table.find?_insert h.inserted (fun p => p.id = orderId)
  simp only [decide_eq_true_eq] at hfind
  exact hfind

theorem OrderCreated.fresh : db.order? o.id = none := by
  apply List.find?_eq_none.2
  intro p hp hid
  exact (Table.insert?_eq_some.1 h.inserted).1 p hp (.inl (of_decide_eq_true hid))

theorem OrderCreated.books :
    (book db o.id).order = none ∧ book next o.id = { book db o.id with order := some (o.contract, false) } ∧
      ∀ orderId, orderId ≠ o.id → book next orderId = book db orderId := by
  have hface : o.face = (o.contract, false) := by
    rw [StoreOrder.face, h.state.2.1]
    rfl
  have hreward (orderId : String) : next.reward? orderId = db.reward? orderId := by
    rw [h.frame]
    rfl
  have hrecovery (orderId : String) : next.recovery? orderId = db.recovery? orderId := by
    rw [h.frame]
    rfl
  refine ⟨by simp only [book, h.fresh, Option.map_none], ?_, ?_⟩
  · have hnew : next.order? o.id = some o := by
      rw [h.order?, h.fresh, Option.none_or, if_pos rfl]
    simp only [book, hnew, hreward, hrecovery, Option.map_some, hface]
  · intro orderId hne
    have hold : next.order? orderId = db.order? orderId := by
      rw [h.order?, if_neg (fun e => hne e.symm), Option.or_none]
    simp only [book, hold, hreward, hrecovery]

end

theorem closeConfirmedUnpaidAdmin_inv {orderId attemptId : String}
    (h : closeConfirmedUnpaidAdmin db orderId attemptId = .ok ((), next)) :
    ∃ p : StoreOrder → Bool, (∀ o, p o = true → o.paymentState = .unpaid) ∧ next = { db with
      paymentAttempts := next.paymentAttempts
      storeOrders := db.storeOrders.update p (StoreOrder.withPaymentState .closed) } := by
  simp only [closeConfirmedUnpaidAdmin, ok_iff] at h
  obtain ⟨o, -, a, -, _, -, _, -, _, -, attempts, -, orders, horders, -, rfl⟩ := h
  rw [← (Table.updateOne?_eq_some.1 horders).2]
  exact ⟨_, fun o hp => (of_decide_eq_true hp).2.1, rfl⟩

theorem chargeUserBalanceNano_inv (h : chargeUserBalanceNano db charge ledgerId = .ok ((), next)) :
    next = db ∨ ∃ u balance amount, db.users.find? (·.id = charge.userId) = some u ∧
      trimmed? 127 u.balanceNanoUsd = some balance ∧ checked 127 (balance - charge.amountNanoUsd) = some amount ∧
      db.billingLedger.insert? (requestChargeRow charge amount ledgerId) = some next.billingLedger ∧
      next = { setBalance db charge.userId amount with billingLedger := next.billingLedger } := by
  unfold chargeUserBalanceNano at h
  split at h
  · cases h
    exact .inl rfl
  simp only [chargeUserBalanceNanoInner, ok_iff] at h
  obtain ⟨_, -, u, hu, balance, hbalance, h⟩ := h
  split at h
  · cases h
    exact .inl rfl
  · simp only [ok_iff] at h
    obtain ⟨amount, hamount, ledger, hledger, -, rfl⟩ := h
    exact .inr ⟨u, balance, amount, hu, hbalance, hamount, hledger, rfl⟩

theorem chargeUserBalanceNano_books (h : chargeUserBalanceNano db charge ledgerId = .ok ((), next)) (orderId : String) :
    book next orderId = book db orderId := by
  rcases chargeUserBalanceNano_inv h with rfl | ⟨u, balance, amount, -, -, -, hledger, hnext⟩
  · rfl
  have hreward : next.reward? orderId = db.reward? orderId := reward?_insert hledger nofun orderId
  have horder : next.order? orderId = db.order? orderId := by
    rw [hnext]
    rfl
  have hrecovery : next.recovery? orderId = db.recovery? orderId := by
    rw [hnext]
    rfl
  simp only [book, hreward, horder, hrecovery]

def SalesFrame (db next : Database) : Prop :=
  next = { db with
    salesAgents := next.salesAgents
    systemSettings := next.systemSettings }

theorem setCommissionRateBp_frame {rateBp rate : Int} (h : setCommissionRateBp db rateBp = .ok (rate, next)) :
    SalesFrame db next := by
  simp only [setCommissionRateBp, ok_iff] at h
  obtain ⟨_, -, _, -, -, rfl⟩ := h
  rfl

theorem insertAgent_frame {code : String}
    (h : insertAgent db userId code discountBp = .ok (agent, next)) : SalesFrame db next := by
  simp only [insertAgent, ok_iff] at h
  obtain ⟨_, -, _, -, _, -, -, rfl⟩ := h
  rfl

theorem updateAgent_frame {f : SalesAgent → SalesAgent} {hf} (h : updateAgent db userId f hf = .ok (agent, next)) :
    SalesFrame db next := by
  simp only [updateAgent, ok_iff] at h
  obtain ⟨_, -, -, rfl⟩ := h
  rfl

theorem setOwnDiscount_frame (h : setOwnDiscount db userId discountBp = .ok (agent, next)) : SalesFrame db next := by
  simp only [setOwnDiscount, ok_iff] at h
  obtain ⟨_, -, _, -, h⟩ := h
  exact updateAgent_frame h

end Monoize
