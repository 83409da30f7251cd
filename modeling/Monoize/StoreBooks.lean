import Monoize.Escrow
import Monoize.StoreRun

/-! The abstract book of one order: what has been credited for it and what is held back of the reward. A book only
moves in the ways below, and every call moves the book of one order. -/

namespace Monoize

open Escrow Fallible MachineInt Relational Option Table

variable {b b' : Book} {d : Int} {db next : Database} {p : StoreOrder → Bool} {f : StoreOrder → StoreOrder}

variable {orderId : String} {db₁ db₂ db₃ : Database}

structure Book where
  /-- The frozen contract and whether it has been fulfilled. -/
  order : Option (OrderContract × Bool)
  reward : Option (String × Int)
  escrow : Option Amounts

namespace Book

def owner (b : Book) : Option String := b.order.map (·.1.userId)

def credit (b : Book) (userId : String) : Int :=
  match b.reward with
  | some (owner, amount) => if userId = owner then amount else 0
  | none => 0

def debit (b : Book) (userId : String) : Int :=
  match b.escrow with
  | some a => if b.owner = some userId then -a.held else 0
  | none => 0

inductive Pays : Book → Book → Int → Prop
  | idle (b : Book) : Pays b b 0
  | starts {b : Book} {c : OrderContract} (ho : b.order = some (c, false)) (hk : c.productKind = .plan) :
      Pays b { b with order := some (c, true) } 0
  | credits {b : Book} {c : OrderContract} {amount : Int} (ho : b.order = some (c, false))
      (hk : c.productKind = .balance) (hn : b.reward = none) (ha : convertedAmount c = .ok amount) :
      Pays b { b with order := some (c, true), reward := some (c.userId, amount) } amount

inductive Recovers : Book → Book → Int → Prop
  | idle (b : Book) : Recovers b b 0
  | opens {b : Book} {original : Nat} (ho : b.order ≠ none) (he : b.escrow = none)
      (hr : original = 0 ∨ ∃ owner, b.reward = some (owner, (original : Int))) (hlt : (original : Int) < 2 ^ 127) :
      Recovers b { b with escrow := some (Amounts.fresh original) } 0
  | moves {b : Book} {a a' : Amounts} {d : Int} (he : b.escrow = some a) (hm : Move a a' d) :
      Recovers b { b with escrow := some a' } d
  | trans {b₁ b₂ b₃ : Book} {d e : Int} : Recovers b₁ b₂ d → Recovers b₂ b₃ e → Recovers b₁ b₃ (d + e)

structure Sound (b : Book) : Prop where
  absent : b.order = none → b.reward = none ∧ b.escrow = none
  rewarded : ∀ c, b.order = some (c, true) → c.productKind = .balance →
    ∃ amount, b.reward = some (c.userId, amount) ∧ convertedAmount c = .ok amount
  unrewarded : ∀ c f, b.order = some (c, f) → (c.productKind = .plan ∨ f = false) → b.reward = none
  escrow : ∀ a, b.escrow = some a → a.Sound ∧ (a.original : Int) < 2 ^ 127 ∧
    (a.original = 0 ∨ ∃ owner, b.reward = some (owner, (a.original : Int)))

theorem Pays.owner_eq (h : Pays b b' d) : b'.owner = b.owner := by
  cases h with
  | idle => rfl
  | starts ho _ | credits ho _ _ _ => simp only [owner, ho, map_some]

theorem Pays.debit_eq (h : Pays b b' d) : b'.debit = b.debit := by
  have howner := h.owner_eq
  have hescrow : b'.escrow = b.escrow := by cases h <;> rfl
  funext userId
  simp only [debit, hescrow, howner]

theorem Pays.credit_eq (h : Pays b b' d) (userId : String) :
    b'.credit userId = b.credit userId + if b.owner = some userId then d else 0 := by
  cases h with
  | idle => simp
  | starts ho hk => simp [credit]
  | credits ho hk hn ha =>
    simp only [credit, hn, owner, ho, map_some, some.injEq, Int.zero_add]
    exact if_congr eq_comm rfl rfl

theorem Pays.sound (h : Pays b b' d) (hs : b.Sound) : b'.Sound := by
  cases h with
  | idle => exact hs
  | @starts c ho hk =>
    refine ⟨nofun, ?_, ?_, hs.escrow⟩
    · intro c' hc' hk'
      cases hc'
      rw [hk] at hk'
      cases hk'
    · intro c' f hc' hf
      exact hs.unrewarded c false ho (.inr rfl)
  | @credits c _ ho hk hn ha =>
    refine ⟨nofun, ?_, ?_, ?_⟩
    · intro c' hc' hk'
      cases hc'
      exact ⟨_, rfl, ha⟩
    · intro c' f hc' hf
      cases hc'
      rcases hf with hf | hf
      · rw [hk] at hf
        cases hf
      · cases hf
    · intro a hea
      obtain ⟨hsound, hlt, horiginal⟩ := hs.escrow a hea
      refine ⟨hsound, hlt, .inl ?_⟩
      rcases horiginal with h0 | ⟨owner, how⟩
      · exact h0
      · rw [hn] at how
        cases how

variable (h : Recovers b b' d)

include h

theorem Recovers.order_eq : b'.order = b.order ∧ b'.reward = b.reward := by
  induction h with
  | idle | opens | moves => exact ⟨rfl, rfl⟩
  | trans _ _ ih₁ ih₂ => exact ⟨ih₂.1.trans ih₁.1, ih₂.2.trans ih₁.2⟩

theorem Recovers.owner_eq : b'.owner = b.owner := by
  simp only [owner, h.order_eq.1]

theorem Recovers.credit_eq : b'.credit = b.credit := by
  funext userId
  simp only [credit, h.order_eq.2]

theorem Recovers.sound (hs : b.Sound) : b'.Sound := by
  induction h with
  | idle => exact hs
  | opens ho he hr hlt =>
    refine ⟨fun h => absurd h ho, hs.rewarded, hs.unrewarded, ?_⟩
    intro a ha
    cases ha
    exact ⟨Amounts.Sound.of_fresh _, hlt, hr⟩
  | @moves b a a' d he hm =>
    obtain ⟨-, hlt, horiginal⟩ := hs.escrow a he
    refine ⟨fun h => ?_, hs.rewarded, hs.unrewarded, ?_⟩
    · rw [(hs.absent h).2] at he
      cases he
    · intro a'' ha
      cases ha
      rw [hm.original]
      exact ⟨hm.sound, hlt, horiginal⟩
  | trans _ _ ih₁ ih₂ => exact ih₂ (ih₁ hs)

theorem Recovers.debit_eq (hs : b.Sound) (userId : String) :
    b'.debit userId = b.debit userId + if b.owner = some userId then d else 0 := by
  induction h with
  | idle => simp
  | opens ho he hr hlt => simp [debit, he, Amounts.held, Amounts.fresh]
  | @moves b a a' d he hm =>
    have hchange := hm.change (hs.escrow a he).1
    simp only [debit, he]
    by_cases howner : b.owner = some userId
    · have howner' : ({ b with escrow := some a' } : Book).owner = some userId := howner
      rw [if_pos howner, if_pos howner, if_pos howner']
      omega
    · have howner' : ¬ ({ b with escrow := some a' } : Book).owner = some userId := howner
      rw [if_neg howner, if_neg howner, if_neg howner']
      rfl
  | @trans b₁ b₂ b₃ d e h₁ h₂ ih₁ ih₂ =>
    rw [ih₂ (h₁.sound hs), ih₁ hs, h₁.owner_eq]
    by_cases howner : b₁.owner = some userId
    · rw [if_pos howner, if_pos howner, if_pos howner]
      omega
    · rw [if_neg howner, if_neg howner, if_neg howner, Int.add_zero, Int.add_zero]

end Book

def StoreOrder.face (o : StoreOrder) : OrderContract × Bool := (o.contract, decide (o.fulfillmentState = .fulfilled))

def RewardRecovery.amounts (r : RewardRecovery) : Amounts := ⟨r.originalNanoUsd, r.reservedNanoUsd, r.recoveredNanoUsd⟩

def Database.order? (db : Database) (orderId : String) : Option StoreOrder := db.storeOrders.find? (·.id = orderId)

def Database.reward? (db : Database) (orderId : String) : Option BillingLedgerRow :=
  db.billingLedger.find? (·.idempotencyKey = some (fulfillmentKey orderId))

def Database.recovery? (db : Database) (orderId : String) : Option RewardRecovery :=
  db.rewardRecoveries.find? (·.orderId = orderId)

def book (db : Database) (orderId : String) : Book where
  order := (db.order? orderId).map StoreOrder.face
  reward := (db.reward? orderId).map fun row => (row.userId, row.deltaNanoUsd)
  escrow := (db.recovery? orderId).map RewardRecovery.amounts

/-- A call about one order moves its book by the relation, its owner's balance by the amount, and nothing else. -/
structure BookStep (rel : Book → Book → Int → Prop) (orderId : String) (db next : Database) : Prop where
  move : ∃ d, rel (book db orderId) (book next orderId) d ∧ ∀ userId,
    storedBalance next userId = storedBalance db userId + if (book db orderId).owner = some userId then d else 0
  frame : ∀ id, id ≠ orderId → book next id = book db id

/-- Tables that agree on what books and balances read. -/
structure SameBooks (db next : Database) : Prop where
  users : next.users = db.users
  books : ∀ orderId, book next orderId = book db orderId

theorem SameBooks.refl (db : Database) : SameBooks db db := ⟨rfl, fun _ => rfl⟩

theorem SameBooks.storedBalance (h : SameBooks db next) (userId : String) :
    storedBalance next userId = storedBalance db userId := by
  simp only [Monoize.storedBalance, h.users]

variable {rel : Book → Book → Int → Prop}

theorem SameBooks.step (hrel : ∀ b, rel b b 0) (h : SameBooks db next) (orderId : String) :
    BookStep rel orderId db next := by
  refine ⟨⟨0, ?_, ?_⟩, fun id _ => h.books id⟩
  · rw [h.books orderId]
    exact hrel _
  · intro userId
    rw [h.storedBalance, ite_self, Int.add_zero]

theorem BookStep.trans (h₁ : BookStep Book.Recovers orderId db₁ db₂)
    (h₂ : BookStep Book.Recovers orderId db₂ db₃) : BookStep Book.Recovers orderId db₁ db₃ := by
  obtain ⟨⟨d, hd, hbal₁⟩, hframe₁⟩ := h₁
  obtain ⟨⟨e, he, hbal₂⟩, hframe₂⟩ := h₂
  refine ⟨⟨d + e, hd.trans he, fun userId => ?_⟩, fun id hid => (hframe₂ id hid).trans (hframe₁ id hid)⟩
  rw [hbal₂, hbal₁, hd.owner_eq]
  by_cases howner : (book db₁ orderId).owner = some userId
  · rw [if_pos howner, if_pos howner, if_pos howner]
    omega
  · rw [if_neg howner, if_neg howner, if_neg howner, Int.add_zero, Int.add_zero]

theorem BookStep.after (h₁ : SameBooks db₁ db₂) (h₂ : BookStep rel orderId db₂ db₃) : BookStep rel orderId db₁ db₃ := by
  obtain ⟨⟨d, hd, hbal⟩, hframe⟩ := h₂
  rw [h₁.books orderId] at hd hbal
  exact ⟨⟨d, hd, fun userId => by rw [hbal, h₁.storedBalance]⟩, fun id hid => (hframe id hid).trans (h₁.books id)⟩

theorem BookStep.before (h₁ : BookStep rel orderId db₁ db₂) (h₂ : SameBooks db₂ db₃) : BookStep rel orderId db₁ db₃ := by
  obtain ⟨⟨d, hd, hbal⟩, hframe⟩ := h₁
  rw [← h₂.books orderId] at hd
  exact ⟨⟨d, hd, fun userId => by rw [h₂.storedBalance, hbal]⟩, fun id hid => (h₂.books id).trans (hframe id hid)⟩

theorem order?_update {hf} (h : next.storeOrders = db.storeOrders.update p f hf) (orderId : String) :
    next.order? orderId = (db.order? orderId).map fun o => if p o then f o else o := by
  rw [Database.order?, h]
  apply find?_update
  intro o
  have hid : (f o).id = o.id := congrArg Prod.fst (hf o)
  rw [hid]

theorem face_update {hf} (h : next.storeOrders = db.storeOrders.update p f hf) (hface : ∀ o, (f o).face = o.face)
    (orderId : String) : (next.order? orderId).map StoreOrder.face = (db.order? orderId).map StoreOrder.face := by
  rw [order?_update h, map_map]
  apply Option.map_congr
  intro o _
  simp only [Function.comp_apply]
  split
  · exact hface o
  · rfl

theorem SameBooks.of_orders (hf) (husers : next.users = db.users) (hledger : next.billingLedger = db.billingLedger)
    (hrecoveries : next.rewardRecoveries = db.rewardRecoveries)
    (horders : next.storeOrders = db.storeOrders.update p f hf) (hface : ∀ o, (f o).face = o.face) :
    SameBooks db next := by
  refine ⟨husers, fun orderId => ?_⟩
  simp only [book, face_update horders hface, Database.reward?, hledger, Database.recovery?, hrecoveries]

theorem recovery?_update {p : RewardRecovery → Bool} {f : RewardRecovery → RewardRecovery} {hf}
    (h : next.rewardRecoveries = db.rewardRecoveries.update p f hf) (orderId : String) :
    next.recovery? orderId = (db.recovery? orderId).map fun r => if p r then f r else r := by
  rw [Database.recovery?, h]
  apply find?_update
  intro r
  have hid : (f r).orderId = r.orderId := congrArg Prod.snd (hf r)
  rw [hid]

theorem reward?_insert {row : BillingLedgerRow} (h : db.billingLedger.insert? row = some next.billingLedger)
    (hrow : ∀ orderId, row.idempotencyKey ≠ some (fulfillmentKey orderId)) (orderId : String) :
    next.reward? orderId = db.reward? orderId :=
  find?_insert_of_neg h (decide_eq_false (hrow orderId))

theorem fulfillmentKey_injective {a b : String} (h : fulfillmentKey a = fulfillmentKey b) : a = b :=
  String.append_right_inj _ |>.1 h

theorem take_toList_append {head rest : String} {n : Nat} (h : n ≤ head.toList.length) :
    (head ++ rest).toList.take n = head.toList.take n :=
  (congrArg (List.take n) String.toList_append).trans (List.take_append_of_le_length h)

theorem recoveryKey_ne_fulfillmentKey (recoveryId step orderId : String) :
    recoveryKey recoveryId step ≠ fulfillmentKey orderId := by
  intro h
  have hassoc : recoveryKey recoveryId step = "store:recovery:" ++ (recoveryId ++ (":" ++ step)) :=
    (@String.append_assoc ("store:recovery:" ++ recoveryId) ":" step).trans
      (@String.append_assoc "store:recovery:" recoveryId (":" ++ step))
  have hrecovery : (recoveryKey recoveryId step).toList.take 7 = "store:r".toList :=
    hassoc ▸ (take_toList_append (by decide +kernel)).trans (by decide +kernel)
  have hfulfillment : (fulfillmentKey orderId).toList.take 7 = "store:f".toList :=
    (take_toList_append (by decide +kernel)).trans (by decide +kernel)
  rw [h, hfulfillment] at hrecovery
  exact absurd hrecovery (by decide)

end Monoize
