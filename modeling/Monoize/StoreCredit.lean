import Monoize.StoreInvariant

/-! A balance order is paid for once and credited once, and recovery takes back at most what was credited. -/

namespace Monoize

open Fallible MachineInt Relational Transition Option

variable {db : Database} {orderId : String} {fence : Option ReconciliationFence} {now : Instant}
  {ids : FulfillmentIds} {o : StoreOrder}

variable {next : Database} {userId : String} {thenFulfill : Bool}

def CreditedBy (db next : Database) (orderId userId : String) : Prop :=
  ∃ before after, db.order? orderId = some before ∧ next.order? orderId = some after ∧
    after.contract = before.contract ∧ before.fulfillmentState ≠ .fulfilled ∧ after.fulfillmentState = .fulfilled ∧
    after.paymentState = .paid ∧ after.paymentHold = false ∧ after.contract.userId = userId ∧
    convertedAmount after.contract = .ok (storedBalance next userId - storedBalance db userId)

theorem fulfillPaidOrderInner_credits (h : fulfillPaidOrderInner db orderId fence now ids = .ok next)
    (hne : storedBalance next userId ≠ storedBalance db userId) : CreditedBy db next orderId userId := by
  rcases fulfillPaidOrderInner_inv h with rfl | ⟨o, ho, hfulfilled⟩
  · exact absurd rfl hne
  rcases hfulfilled.reward with ⟨-, husers, -⟩ | ⟨-, amount, hcredit⟩
  · exact absurd (by simp only [storedBalance, husers]) hne
  have hbalance := hcredit.storedBalance userId
  by_cases howner : o.contract.userId = userId
  · rw [if_pos (congrArg some howner)] at hbalance
    refine ⟨o, o.withFulfilled, ho, hfulfilled.order? ho, rfl, hfulfilled.unfulfilled, rfl, hfulfilled.paid,
      hfulfilled.unheld, howner, hcredit.converted.trans ?_⟩
    rw [hbalance]
    exact congrArg Except.ok (by omega)
  · rw [if_neg (fun e => howner (some.inj e)), Int.add_zero] at hbalance
    exact absurd hbalance hne

theorem PaymentApplied.order? (h : PaymentApplied db next o) (ho : db.order? orderId = some o) :
    ∃ o', next.order? orderId = some o' ∧ o'.contract = o.contract ∧
      o'.fulfillmentState = o.fulfillmentState := by
  rcases h.orders with ⟨-, horders⟩ | horders
  · refine ⟨o, ?_, rfl, rfl⟩
    rw [Database.order?, horders]
    exact ho
  · refine ⟨_, by rw [order?_update horders, ho, map_some], ?_⟩
    split
    · exact ⟨rfl, rfl⟩
    · exact ⟨rfl, rfl⟩

variable {input : ApplyProviderEventInput}

theorem applyVerifiedPaymentInner_credits [Sha256]
   
    (hne : storedBalance (applyVerifiedPaymentInner db input fence thenFulfill now ids).2 userId ≠
      storedBalance db userId) :
    CreditedBy db (applyVerifiedPaymentInner db input fence thenFulfill now ids).2 input.orderId userId := by
  rcases applyVerifiedPaymentInner_inv db input fence thenFulfill now ids rfl with
    hquiet | ⟨o, a, applied, ho, -, -, -, happlied, hnext | ⟨time, hfulfill⟩⟩
  · exact absurd (hquiet.sameBooks.storedBalance userId) hne
  · rw [hnext] at hne
    exact absurd (happlied.sameBooks.storedBalance userId) hne
  rw [← happlied.sameBooks.storedBalance userId] at hne
  obtain ⟨before, after, hbefore, hafter, hcontract, hunfulfilled, hrest⟩ := fulfillPaidOrderInner_credits hfulfill hne
  obtain ⟨o', ho', hcontract', hstate⟩ := happlied.order? ho
  have hsame : o' = before := some.inj (ho'.symm.trans hbefore)
  subst hsame
  rw [happlied.sameBooks.storedBalance userId] at hrest
  exact ⟨o, after, ho, hafter, hcontract.trans hcontract', hstate ▸ hunfulfilled, hrest⟩

theorem applyVerifiedPaymentInner_refuses [Sha256] {a : PaymentAttempt} (ho : db.order? input.orderId = some o)
    (ha : db.paymentAttempts.find? (fun a => a.id = input.attemptId ∧ a.orderId = input.orderId) = some a)
    (h : ¬ matchesContract o a input ∨ findEvent db input.credentialVersionId input.providerEventId ≠ none) :
    Quiet db (applyVerifiedPaymentInner db input fence thenFulfill now ids).2 := by
  rcases applyVerifiedPaymentInner_inv db input fence thenFulfill now ids rfl with
    hquiet | ⟨o', a', applied, ho', ha', hevent, hmatches, -⟩
  · exact hquiet
  have hsame : o' = o := some.inj (ho'.symm.trans ho)
  have hsame' : a' = a := some.inj (ha'.symm.trans ha)
  subst hsame hsame'
  rcases h with h | h
  · exact absurd hmatches h
  · exact absurd hevent h

theorem order?_of_mem (ho : o ∈ db.storeOrders.rows) : db.order? o.id = some o := by
  apply Table.find?_eq_some_of_mem ho
  · exact decide_eq_true rfl
  · intro p hp
    exact .inl (of_decide_eq_true hp)

theorem reward?_eq_none : db.reward? orderId = none ↔
    ¬ ∃ row ∈ db.billingLedger.rows, row.idempotencyKey = some (fulfillmentKey orderId) := by
  rw [Database.reward?, Table.find?, List.find?_eq_none]
  simp only [decide_eq_true_eq, not_exists, not_and]

section

variable [Sha256]

theorem paid_once_credited_once {s : StoreState} (h : Reachable StoreInitial StoreStep s) :
    (∀ o ∈ s.db.storeOrders.rows, o.contract.productKind = .balance →
      ((∃ row ∈ s.db.billingLedger.rows, row.idempotencyKey = some (fulfillmentKey o.id)) ↔
        o.fulfillmentState = .fulfilled) ∧
      (o.fulfillmentState ≠ .fulfilled → ∀ userId, s.credited o.id userId = 0) ∧
      (o.fulfillmentState = .fulfilled → ∃ amount, convertedAmount o.contract = .ok amount ∧
        ∀ userId, s.credited o.id userId = if userId = o.contract.userId then amount else 0)) ∧
    (∀ e orderId userId, e.paidOrder = some orderId →
      storedBalance (s.run e).db userId ≠ storedBalance s.db userId →
      CreditedBy s.db (s.run e).db orderId userId) ∧
    (∀ input fence thenFulfill now ids o a, s.db.order? input.orderId = some o →
      s.db.paymentAttempts.find? (fun a => a.id = input.attemptId ∧ a.orderId = input.orderId) = some a →
      ¬ matchesContract o a input ∨ findEvent s.db input.credentialVersionId input.providerEventId ≠ none →
      let next := (s.run (.payment input fence thenFulfill now ids)).db
      next.storeOrders = s.db.storeOrders ∧ next.paymentAttempts = s.db.paymentAttempts ∧ next.users = s.db.users) := by
  have hinv := reachable_books h
  refine ⟨?_, ?_, ?_⟩
  · intro o ho hbalance
    have hsound := hinv.sound o.id
    have horder := book_order (order?_of_mem ho)
    have hcredited := hinv.credited o.id
    by_cases hfulfilled : o.fulfillmentState = .fulfilled
    · have hface : o.face = (o.contract, true) := by
        rw [StoreOrder.face, decide_eq_true hfulfilled]
      obtain ⟨amount, hreward, hamount⟩ := hsound.rewarded o.contract (horder.trans (congrArg some hface)) hbalance
      refine ⟨?_, fun hne => absurd hfulfilled hne, fun _ => ⟨amount, hamount, ?_⟩⟩
      · refine iff_of_true ?_ hfulfilled
        by_contra hnone
        have hbook : (book s.db o.id).reward = none := by
          simp only [book, reward?_eq_none.2 hnone, map_none]
        rw [hbook] at hreward
        cases hreward
      · intro userId
        rw [hcredited, Book.credit, hreward]
    · have hface : o.face = (o.contract, false) := by
        rw [StoreOrder.face, decide_eq_false hfulfilled]
      have hreward := hsound.unrewarded o.contract false (horder.trans (congrArg some hface)) (.inr rfl)
      refine ⟨?_, fun _ userId => ?_, fun h => absurd h hfulfilled⟩
      · refine iff_of_false ?_ hfulfilled
        exact reward?_eq_none.1 (map_eq_none_iff.1 hreward)
      · rw [hcredited, Book.credit, hreward]
  · intro e orderId userId htarget hne
    cases e with
    | payment input fence thenFulfill now ids =>
      cases htarget
      exact applyVerifiedPaymentInner_credits hne
    | fulfill id fence now ids =>
      cases htarget
      cases hx : fulfillPaidOrderInner s.db orderId fence now ids with
      | error e =>
        simp only [StoreState.run, applyStoreEvent, fulfillOrder, hx, Except.map, commit] at hne
        exact absurd rfl hne
      | ok next =>
        simp only [StoreState.run, applyStoreEvent, fulfillOrder, hx, Except.map, commit] at hne ⊢
        exact fulfillPaidOrderInner_credits hx hne
    | _ => cases htarget
  · intro input fence thenFulfill now ids o a ho ha hrefused
    have hquiet : Quiet s.db (s.run (.payment input fence thenFulfill now ids)).db :=
      applyVerifiedPaymentInner_refuses ho ha hrefused
    rw [hquiet]
    exact ⟨rfl, rfl, rfl⟩

/-- `moved` sums the balance changes of the recovery operations on the order. -/
theorem recovery_conserves_reward {s : StoreState} (h : Reachable StoreInitial StoreStep s)
    {o : StoreOrder} (ho : o ∈ s.db.storeOrders.rows) (hkind : o.contract.productKind = .balance)
    (hfulfilled : o.fulfillmentState = .fulfilled) :
    ∃ reward, (∃ row ∈ s.db.billingLedger.rows, row.idempotencyKey = some (fulfillmentKey o.id) ∧
        row.userId = o.contract.userId ∧ row.deltaNanoUsd = reward) ∧
      ((∀ r ∈ s.db.rewardRecoveries.rows, r.orderId ≠ o.id) → ∀ userId, s.moved o.id userId = 0) ∧
      ∀ r ∈ s.db.rewardRecoveries.rows, r.orderId = o.id →
        (∀ userId, s.moved o.id userId =
          if userId = o.contract.userId then -(r.reservedNanoUsd + r.recoveredNanoUsd : Int) else 0) ∧
        (r.reservedNanoUsd = 0 ∨ r.recoveredNanoUsd = 0) ∧
        (r.reservedNanoUsd + r.recoveredNanoUsd : Int) ≤ reward := by
  have hinv := reachable_books h
  have hsound := hinv.sound o.id
  have hface : o.face = (o.contract, true) := by
    rw [StoreOrder.face, decide_eq_true hfulfilled]
  have horder := (book_order (order?_of_mem ho)).trans (congrArg some hface)
  obtain ⟨reward, hreward, hconverted⟩ := hsound.rewarded o.contract horder hkind
  obtain ⟨row, hrow, hpair⟩ := map_eq_some_iff.1 hreward
  have hkey := Table.of_find?_decide hrow
  refine ⟨reward, ⟨row, Table.mem_of_find? hrow, hkey, congrArg Prod.fst hpair, congrArg Prod.snd hpair⟩, ?_, ?_⟩
  · intro hnone userId
    have hescrow : (book s.db o.id).escrow = none := by
      apply map_eq_none_iff.2
      apply List.find?_eq_none.2
      intro r hr hid
      exact hnone r hr (of_decide_eq_true hid)
    rw [hinv.moved, Book.debit, hescrow]
  · intro r hr hid
    have hescrow : (book s.db o.id).escrow = some r.amounts := by
      simp only [book, ← hid, recovery?_of_mem hr, map_some]
    obtain ⟨hamounts, -, horiginal⟩ := hsound.escrow _ hescrow
    have hbounded : r.reservedNanoUsd + r.recoveredNanoUsd ≤ r.originalNanoUsd := hamounts.bounded
    have hle : (r.originalNanoUsd : Int) ≤ reward := by
      rcases horiginal with hzero | ⟨owner, howner⟩
      · have hzero' : r.originalNanoUsd = 0 := hzero
        rw [hzero']
        exact (convertedAmount_range hconverted).1
      · rw [hreward] at howner
        exact (congrArg Prod.snd (some.inj howner)).ge
    refine ⟨fun userId => ?_, hamounts.exclusive, by omega⟩
    have howner : (book s.db o.id).owner = some o.contract.userId := book_owner (order?_of_mem ho)
    rw [hinv.moved, Book.debit, hescrow, howner]
    by_cases huser : userId = o.contract.userId
    · rw [if_pos huser]
      exact if_pos (congrArg some huser.symm)
    · rw [if_neg huser]
      exact if_neg (fun e => huser (some.inj e).symm)

end

def sampleContract (orderNumber : String) : OrderContract where
  orderNumber := orderNumber
  userId := "user"
  productKind := .balance
  paymentChannelId := "channel"
  paymentCurrency := .cny
  paymentMinor := "700"
  cnyPerUsd := "7"
  rateNumerator := "7"
  rateDenominator := "1"
  quote := some ⟨⟨"balance", "Recharge", none, [], ⟨[], List.nodup_nil⟩, some ⟨"700", "0", "700"⟩⟩⟩
  contractVersion := 2
  salesCode := none
  salesDiscountBp := none
  creationIdempotencyKey := none
  creationRequestDigest := none
  createdAt := 0
  expiresAt := 0

def sampleOrder (id orderNumber : String) : StoreOrder where
  id := id
  contract := sampleContract orderNumber
  paymentState := .unpaid
  fulfillmentState := .pending
  disputeState := .none
  paymentHold := false
  stateRevision := 0

def sampleHex : String := "0000000000000000000000000000000000000000000000000000000000000000"

def sampleAttempt (id orderId : String) : PaymentAttempt where
  id := id
  orderId := orderId
  channelId := "channel"
  adapterKind := "stripe"
  credentialVersionId := "credential"
  merchantAccountIdentity := sampleHex
  state := .presented
  failureKind := none
  providerTransactionId := none
  providerObjectId := some "session"
  idempotencyKey := id
  paidAt := none

def samplePayment (eventRowId orderId attemptId orderNumber : String) : ApplyProviderEventInput where
  eventRowId := eventRowId
  credentialVersionId := "credential"
  verificationCredentialVersionId := "credential"
  providerEventId := eventRowId
  eventKind := "payment_query_succeeded"
  orderId := orderId
  attemptId := attemptId
  providerTransactionId := eventRowId
  providerObjectId := "session"
  orderNumber := orderNumber
  merchantAccountIdentity := sampleHex
  amountMinor := "700"
  currency := .cny
  bodyDigest := sampleHex
  parsedJson := []
  rawBody := none
  sourceIp := none
  userAgent := none
  receivedAt := 0

def sampleStore : StoreState where
  db :=
    { users := .single ⟨"user", "0", false, "buyer"⟩
      storeOrders := ⟨[sampleOrder "order-1" "LS-1", sampleOrder "order-2" "LS-2"], by decide⟩
      paymentAttempts := ⟨[sampleAttempt "attempt-1" "order-1", sampleAttempt "attempt-2" "order-2"], by decide⟩ }
  credited := fun _ _ => 0
  moved := fun _ _ => 0

theorem sampleStore_initial : StoreInitial sampleStore := by
  refine ⟨?_, nofun, rfl, rfl, rfl, rfl, rfl⟩
  decide

open SampleDigests

def samplePaid : StoreState :=
  [.payment (samplePayment "00000000000000000000000000000001" "order-1" "attempt-1" "LS-1") none true 0 ⟨"l1", "e1", "c1"⟩,
   .payment (samplePayment "00000000000000000000000000000001" "order-1" "attempt-1" "LS-1") none true 0 ⟨"l2", "e2", "c2"⟩,
   .payment (samplePayment "00000000000000000000000000000002" "order-2" "attempt-2" "LS-2") none true 0 ⟨"l3", "e3", "c3"⟩
  ].foldl StoreState.run sampleStore

theorem samplePaid_reachable : Reachable StoreInitial StoreStep samplePaid :=
  (Reachable.start sampleStore_initial).foldl (fun s e => StoreStep.run s e) _

theorem paid_once_credited_once_sample : ∃ o ∈ samplePaid.db.storeOrders.rows,
    (o.id = "order-1" ∧ o.fulfillmentState = .fulfilled) ∧
    (∃ row ∈ samplePaid.db.billingLedger.rows, row.idempotencyKey = some (fulfillmentKey o.id)) ∧
    ∃ amount, convertedAmount o.contract = .ok amount ∧ samplePaid.credited o.id o.contract.userId = amount := by
  have hpaid : ∃ o ∈ samplePaid.db.storeOrders.rows,
      (o.id = "order-1" ∧ o.fulfillmentState = .fulfilled) ∧ o.contract.productKind = .balance := by
    decide +kernel
  obtain ⟨o, ho, hfulfilled, hbalance⟩ := hpaid
  obtain ⟨hledger, -, hcredited⟩ := (paid_once_credited_once samplePaid_reachable).1 o ho hbalance
  obtain ⟨amount, hamount, hsum⟩ := hcredited hfulfilled.2
  exact ⟨o, ho, hfulfilled, hledger.2 hfulfilled.2, amount, hamount, (hsum _).trans (if_pos rfl)⟩

def sampleRecovered : StoreState :=
  [.beginRefund ⟨"order-1", "admin", "refund-1"⟩ 0 ⟨"r1", "l4", "f1", "k1"⟩, .completeRefund "f1" 0,
   .openClaim ⟨"order-2", "credential", "claim-2", none, .dispute⟩ 0 ⟨"r2", "l5", "f2", "k2"⟩
  ].foldl StoreState.run samplePaid

theorem sampleRecovered_reachable : Reachable StoreInitial StoreStep sampleRecovered :=
  samplePaid_reachable.foldl (fun s e => StoreStep.run s e) _

theorem recovery_conserves_reward_sample :
    (∃ o ∈ sampleRecovered.db.storeOrders.rows, o.id = "order-1" ∧ ∃ r ∈ sampleRecovered.db.rewardRecoveries.rows,
      r.orderId = "order-1" ∧ r.recoveredNanoUsd = 1000000000 ∧
      sampleRecovered.moved "order-1" o.contract.userId = -(r.reservedNanoUsd + r.recoveredNanoUsd : Int)) ∧
    ∃ o ∈ sampleRecovered.db.storeOrders.rows, o.id = "order-2" ∧ ∃ r ∈ sampleRecovered.db.rewardRecoveries.rows,
      r.orderId = "order-2" ∧ r.reservedNanoUsd = 1000000000 ∧
      sampleRecovered.moved "order-2" o.contract.userId = -(r.reservedNanoUsd + r.recoveredNanoUsd : Int) := by
  have hmoved {orderId : String} {p : RewardRecovery → Prop} (h : ∃ o ∈ sampleRecovered.db.storeOrders.rows, o.id = orderId ∧
      o.contract.productKind = .balance ∧ o.fulfillmentState = .fulfilled ∧
      ∃ r ∈ sampleRecovered.db.rewardRecoveries.rows, r.orderId = orderId ∧ p r) :
      ∃ o ∈ sampleRecovered.db.storeOrders.rows, o.id = orderId ∧ ∃ r ∈ sampleRecovered.db.rewardRecoveries.rows,
        r.orderId = orderId ∧ p r ∧
        sampleRecovered.moved orderId o.contract.userId = -(r.reservedNanoUsd + r.recoveredNanoUsd : Int) := by
    obtain ⟨o, ho, rfl, hkind, hfulfilled, r, hr, horder, hamount⟩ := h
    obtain ⟨_, -, -, hmoved⟩ := recovery_conserves_reward sampleRecovered_reachable ho hkind hfulfilled
    refine ⟨o, ho, rfl, r, hr, horder, hamount, ?_⟩
    rw [(hmoved r hr horder).1, if_pos rfl]
  exact ⟨hmoved (by decide +kernel), hmoved (by decide +kernel)⟩

end Monoize
