import Monoize.CommissionMoves

/-! The payment states of orders and the refunds that wait for the provider. -/

namespace Monoize

open Fallible MachineInt Relational Table

variable {next db : Database} {o : StoreOrder} {now : Instant} {ids : RecoveryIds} {refundId : String}

structure OrdersMoved (R : PaymentState → PaymentState → Prop) (orders next : Table StoreOrder) : Prop where
  stay : ∀ o ∈ orders.rows, ∃ o' ∈ next.rows, o'.id = o.id
  move : ∀ o' ∈ next.rows, (∃ o ∈ orders.rows, o.id = o'.id ∧
    (o.paymentState = o'.paymentState ∨ R o.paymentState o'.paymentState)) ∨
    ((∀ o ∈ orders.rows, o.id ≠ o'.id) ∧ o'.paymentState = .unpaid)

theorem OrdersMoved.refl (R : PaymentState → PaymentState → Prop) (orders : Table StoreOrder) :
    OrdersMoved R orders orders :=
  ⟨fun o ho => ⟨o, ho, rfl⟩, fun o ho => .inl ⟨o, ho, rfl, .inl rfl⟩⟩

variable {R : PaymentState → PaymentState → Prop} {input : VerifiedRecoveryClaimInput} {outcome : RefundRecord × Bool}

theorem OrdersMoved.update (orders : Table StoreOrder) {p : StoreOrder → Bool} {f : StoreOrder → StoreOrder} {hf}
    (hrel : ∀ o, p o = true → o.paymentState = (f o).paymentState ∨ R o.paymentState (f o).paymentState) :
    OrdersMoved R orders (orders.update p f hf) := by
  have hid (o : StoreOrder) : (f o).id = o.id := congrArg Prod.fst (hf o)
  constructor
  · intro o ho
    refine ⟨_, mem_update.2 ⟨o, ho, rfl⟩, ?_⟩
    split
    · exact hid o
    · rfl
  · intro o' ho'
    obtain ⟨o, ho, rfl⟩ := mem_update.1 ho'
    refine .inl ⟨o, ho, ?_⟩
    split
    · rename_i hp
      exact ⟨(hid o).symm, hrel o hp⟩
    · exact ⟨rfl, .inl rfl⟩

theorem OrdersMoved.still {orders mid next : Table StoreOrder}
    (h₁ : OrdersMoved R orders mid) (h₂ : OrdersMoved (fun _ _ => False) mid next) : OrdersMoved R orders next := by
  constructor
  · intro o ho
    obtain ⟨p, hp, hpo⟩ := h₁.stay o ho
    obtain ⟨q, hq, hqp⟩ := h₂.stay p hp
    exact ⟨q, hq, hqp.trans hpo⟩
  · intro q hq
    rcases h₂.move q hq with ⟨p, hp, hpq, hstate | hfalse⟩ | ⟨hfresh, hunpaid⟩
    · rw [← hpq, ← hstate]
      exact h₁.move p hp
    · exact absurd hfalse id
    refine .inr ⟨?_, hunpaid⟩
    intro o ho hoq
    obtain ⟨p, hp, hpo⟩ := h₁.stay o ho
    exact hfresh p hp (hpo.trans hoq)

theorem disputeOrder_moved (orders : Table StoreOrder) (orderId : String) (state : DisputeState) (hold : Bool) :
    OrdersMoved (fun _ _ => False) orders (disputeOrder orders orderId state hold) :=
  OrdersMoved.update orders fun _ _ => .inl rfl

theorem Fulfilled.moved (h : Fulfilled db next o) : OrdersMoved (fun _ _ => False) db.storeOrders next.storeOrders := by
  rw [h.orders]
  exact OrdersMoved.update _ fun _ _ => .inl rfl

theorem PaymentApplied.moved (h : PaymentApplied db next o) :
    OrdersMoved (fun old new => (old = .unpaid ∨ old = .closed) ∧ new = .paid) db.storeOrders next.storeOrders := by
  rcases h.orders with ⟨-, horders⟩ | horders
  · rw [horders]
    exact OrdersMoved.refl _ _
  rw [horders]
  apply OrdersMoved.update
  intro p hp
  obtain ⟨-, hstate, -⟩ := of_decide_eq_true hp
  rcases h.applicable with hunpaid | ⟨hclosed, -⟩ | hpaid
  · exact .inr ⟨.inl (hstate.trans hunpaid), rfl⟩
  · exact .inr ⟨.inr (hstate.trans hclosed), rfl⟩
  · exact .inl (hstate.trans hpaid)

structure ClaimsUntouched (db next : Database) : Prop where
  orders : next.storeOrders = db.storeOrders
  refunds : next.refunds = db.refunds
  claims : next.recoveryClaims = db.recoveryClaims

theorem MoneyFrame.untouched (h : MoneyFrame db next) : ClaimsUntouched db next := by
  refine ⟨?_, ?_, ?_⟩
  · rw [h.frame]
  · rw [h.frame]
  · rw [h.frame]

theorem ClaimsUntouched.trans {db₁ db₂ db₃ : Database} (h₁ : ClaimsUntouched db₁ db₂) (h₂ : ClaimsUntouched db₂ db₃) :
    ClaimsUntouched db₁ db₃ :=
  ⟨h₂.orders.trans h₁.orders, h₂.refunds.trans h₁.refunds, h₂.claims.trans h₁.claims⟩

def ClaimsKept (claims next : Table RecoveryClaim) : Prop :=
  ∀ c ∈ claims.rows, ∃ c' ∈ next.rows, c'.providerClaimId = c.providerClaimId ∧ c'.kind = c.kind

theorem ClaimsKept.refl (claims : Table RecoveryClaim) : ClaimsKept claims claims := fun c hc => ⟨c, hc, rfl, rfl⟩

theorem ClaimsKept.insert {claims next : Table RecoveryClaim} {c : RecoveryClaim} (h : claims.insert? c = some next) :
    ClaimsKept claims next :=
  fun c' hc' => ⟨c', (mem_insert h).2 (.inl hc'), rfl, rfl⟩

theorem ClaimsKept.settle (db : Database) (claimId : String) (state : RecoveryClaimState) :
    ClaimsKept db.recoveryClaims (settleClaim db claimId state) := by
  intro c hc
  refine ⟨_, mem_update.2 ⟨c, hc, rfl⟩, ?_⟩
  split
  · exact ⟨rfl, rfl⟩
  · exact ⟨rfl, rfl⟩

/-- Every refund has its claim and its order, and the order of an open refund waits for that refund alone. -/
structure RefundsOpen (db : Database) : Prop where
  claimed : ∀ f ∈ db.refunds.rows, ∃ c ∈ db.recoveryClaims.rows, c.providerClaimId = f.idempotencyKey ∧ c.kind = .refund
  ordered : ∀ f ∈ db.refunds.rows, ∃ o ∈ db.storeOrders.rows, o.id = f.orderId
  pending : ∀ f ∈ db.refunds.rows, f.isOpen → ∀ o ∈ db.storeOrders.rows, o.id = f.orderId →
    o.paymentState = .refundPending
  single : ∀ f ∈ db.refunds.rows, ∀ g ∈ db.refunds.rows, f.isOpen → g.isOpen → f.orderId = g.orderId → f = g

structure RefundsUnmoved (R : PaymentState → PaymentState → Prop) (db next : Database) : Prop where
  refunds : next.refunds = db.refunds
  claims : ClaimsKept db.recoveryClaims next.recoveryClaims
  orders : OrdersMoved R db.storeOrders next.storeOrders

theorem RefundsUnmoved.of_frame (h : RecoveryFrame db next)
    (horders : OrdersMoved R db.storeOrders next.storeOrders) : RefundsUnmoved R db next := by
  refine ⟨h.refunds, ?_, horders⟩
  rw [h.claims]
  exact ClaimsKept.refl _

theorem RefundsOpen.unmoved (h : RefundsOpen db) (hn : RefundsUnmoved R db next)
    (hR : ∀ new, ¬ R .refundPending new) : RefundsOpen next := by
  obtain ⟨hrefunds, hclaims, horders⟩ := hn
  constructor
  · rw [hrefunds]
    intro f hf
    obtain ⟨c, hc, hkey, hkind⟩ := h.claimed f hf
    obtain ⟨c', hc', hkey', hkind'⟩ := hclaims c hc
    exact ⟨c', hc', hkey'.trans hkey, hkind'.trans hkind⟩
  · rw [hrefunds]
    intro f hf
    obtain ⟨o, ho, hid⟩ := h.ordered f hf
    obtain ⟨o', ho', hid'⟩ := horders.stay o ho
    exact ⟨o', ho', hid'.trans hid⟩
  · rw [hrefunds]
    intro f hf hopen o' ho' hid'
    rcases horders.move o' ho' with ⟨o, ho, hid, hstate⟩ | ⟨hfresh, -⟩
    · have hpending := h.pending f hf hopen o ho (hid.trans hid')
      rcases hstate with hsame | hmove
      · exact hsame.symm.trans hpending
      · rw [hpending] at hmove
        exact absurd hmove (hR _)
    · obtain ⟨o, ho, hid⟩ := h.ordered f hf
      exact absurd (hid.trans hid'.symm) (hfresh o ho)
  · rw [hrefunds]
    exact h.single

theorem RefundsOpen.update {p : Refund → Bool} {g : Refund → Refund} {hg} (h : RefundsOpen db)
    (hrefunds : next.refunds = db.refunds.update p g hg) (hclaims : ClaimsKept db.recoveryClaims next.recoveryClaims)
    (hordered : ∀ o ∈ db.storeOrders.rows, ∃ o' ∈ next.storeOrders.rows, o'.id = o.id)
    (hlink : ∀ f, (g f).orderId = f.orderId) (hopen : ∀ f ∈ db.refunds.rows, p f = true → (g f).isOpen → f.isOpen)
    (hpending : ∀ f ∈ db.refunds.rows, f.isOpen → (p f = true → (g f).isOpen) → ∀ o ∈ next.storeOrders.rows,
      o.id = f.orderId → o.paymentState = .refundPending) : RefundsOpen next := by
  have hrow (f' : Refund) (hf' : f' ∈ next.refunds.rows) : ∃ f ∈ db.refunds.rows, (if p f then g f else f) = f' ∧
      f'.orderId = f.orderId ∧ f'.idempotencyKey = f.idempotencyKey ∧
      (f'.isOpen → f.isOpen ∧ (p f = true → (g f).isOpen)) := by
    rw [hrefunds] at hf'
    obtain ⟨f, hf, hif⟩ := mem_update.1 hf'
    refine ⟨f, hf, hif, ?_⟩
    rw [← hif]
    split
    · rename_i hp
      exact ⟨hlink f, congrArg Prod.snd (hg f), fun ho => ⟨hopen f hf hp ho, fun _ => ho⟩⟩
    · rename_i hp
      exact ⟨rfl, rfl, fun ho => ⟨ho, fun hp' => absurd hp' hp⟩⟩
  constructor
  · intro f' hf'
    obtain ⟨f, hf, -, -, hkey, -⟩ := hrow f' hf'
    obtain ⟨c, hc, hck, hkind⟩ := h.claimed f hf
    obtain ⟨c', hc', hkey', hkind'⟩ := hclaims c hc
    exact ⟨c', hc', (hkey'.trans hck).trans hkey.symm, hkind'.trans hkind⟩
  · intro f' hf'
    obtain ⟨f, hf, -, horder, -⟩ := hrow f' hf'
    obtain ⟨o, ho, hid⟩ := h.ordered f hf
    obtain ⟨o', ho', hid'⟩ := hordered o ho
    exact ⟨o', ho', (hid'.trans hid).trans horder.symm⟩
  · intro f' hf' ho' o hmem hid
    obtain ⟨f, hf, -, horder, -, hcase⟩ := hrow f' hf'
    obtain ⟨hfopen, hgopen⟩ := hcase ho'
    exact hpending f hf hfopen hgopen o hmem (hid.trans horder)
  · intro f₁' hf₁' f₂' hf₂' ho₁ ho₂ hsame
    obtain ⟨f₁, hf₁, hif₁, horder₁, -, hcase₁⟩ := hrow f₁' hf₁'
    obtain ⟨f₂, hf₂, hif₂, horder₂, -, hcase₂⟩ := hrow f₂' hf₂'
    have hf := h.single f₁ hf₁ f₂ hf₂ (hcase₁ ho₁).1 (hcase₂ ho₂).1 (horder₁.symm.trans (hsame.trans horder₂))
    rw [← hif₁, ← hif₂, hf]

theorem RefundsOpen.settle {f : Refund} (state : RefundState) (new : PaymentState) (h : RefundsOpen db)
    (hf : f ∈ db.refunds.rows) (hfopen : f.isOpen) (hstate : ∀ g : Refund, ¬ (g.withState state).isOpen)
    (hrefunds : next.refunds = settleRefund db f.id state) (hclaims : ClaimsKept db.recoveryClaims next.recoveryClaims)
    (horders : next.storeOrders = db.storeOrders.update (fun p => p.id = f.orderId ∧ p.paymentState = .refundPending)
      (StoreOrder.withPaymentState new)) : RefundsOpen next := by
  apply h.update hrefunds hclaims
  · intro o ho
    rw [horders]
    exact (OrdersMoved.update (R := fun _ _ => True) _ fun _ _ => .inr trivial).stay o ho
  · exact fun _ => rfl
  · intro g _ _ hopen
    exact absurd hopen (hstate g)
  · intro g hg hgopen hsettled o' ho' hid'
    have hne : g.id ≠ f.id := by
      intro hid
      exact hstate g (hsettled (decide_eq_true ⟨hid, hgopen⟩))
    have horder : g.orderId ≠ f.orderId := by
      intro hsame
      exact hne (congrArg Refund.id (h.single g hg f hf hgopen hfopen hsame))
    rw [horders] at ho'
    obtain ⟨o, ho, rfl⟩ := mem_update.1 ho'
    split at hid'
    · rename_i hp
      exact absurd (hid'.symm.trans (of_decide_eq_true hp).1) horder
    · rename_i hp
      rw [if_neg hp]
      exact h.pending g hg hgopen o ho hid'

theorem RefundRows.order_id {m : RefundMutation} (h : RefundRows db refundId m) :
    m.order.id = m.refund.orderId ∧ m.refund.id = refundId := by
  have hrefund := of_find?_decide h.refund
  exact ⟨order?_id h.order, hrefund⟩

theorem RefundsOpen.begins {recoveryId key : String} (h : RefundsOpen db)
    (hopened : RefundOpened db next o recoveryId key) (ho : o ∈ db.storeOrders.rows) (hpaid : o.paymentState = .paid) :
    RefundsOpen next := by
  obtain ⟨f, hforder, hfkey, -, hrefunds⟩ := hopened.refund
  obtain ⟨c, -, hckey, hckind, -, hclaims⟩ := hopened.claim
  have hordered : ∀ p ∈ db.storeOrders.rows, ∃ p' ∈ next.storeOrders.rows, p'.id = p.id := by
    rw [hopened.orders]
    exact (OrdersMoved.update (R := fun _ _ => True) _ fun _ _ => .inr trivial).stay
  -- the order is paid, so that no open refund is about it
  have hother : ∀ g ∈ db.refunds.rows, g.isOpen → g.orderId ≠ o.id := by
    intro g hg hgopen hgo
    have hpending := h.pending g hg hgopen o ho hgo.symm
    rw [hpaid] at hpending
    cases hpending
  have hwait : ∀ p' ∈ next.storeOrders.rows, p'.id = o.id → p'.paymentState = .refundPending := by
    intro p' hp' hid
    rw [hopened.orders] at hp'
    obtain ⟨p, hp, rfl⟩ := mem_update.1 hp'
    split at hid
    · rename_i hmatch
      rw [if_pos hmatch]
      rfl
    · rename_i hmatch
      have hsame := eq_of_clashes hp ho (.inl hid)
      subst hsame
      exact absurd (decide_eq_true ⟨rfl, hpaid, rfl⟩) hmatch
  constructor
  · intro g hg
    rcases (mem_insert hrefunds).1 hg with hg | rfl
    · obtain ⟨c', hc', hkey', hkind'⟩ := h.claimed g hg
      exact ⟨c', (mem_insert hclaims).2 (.inl hc'), hkey', hkind'⟩
    · exact ⟨c, (mem_insert hclaims).2 (.inr rfl), hckey.trans hfkey.symm, hckind⟩
  · intro g hg
    rcases (mem_insert hrefunds).1 hg with hg | rfl
    · obtain ⟨p, hp, hid⟩ := h.ordered g hg
      obtain ⟨p', hp', hid'⟩ := hordered p hp
      exact ⟨p', hp', hid'.trans hid⟩
    · obtain ⟨p', hp', hid'⟩ := hordered o ho
      exact ⟨p', hp', hid'.trans hforder.symm⟩
  · intro g hg hgopen p' hp' hid
    rcases (mem_insert hrefunds).1 hg with hg | rfl
    · rw [hopened.orders] at hp'
      obtain ⟨p, hp, rfl⟩ := mem_update.1 hp'
      split at hid
      · rename_i hmatch
        rw [if_pos hmatch]
        rfl
      · rename_i hmatch
        rw [if_neg hmatch]
        exact h.pending g hg hgopen p hp hid
    · exact hwait p' hp' (hid.trans hforder)
  · intro g₁ hg₁ g₂ hg₂ ho₁ ho₂ hsame
    rcases (mem_insert hrefunds).1 hg₁ with hg₁ | rfl
    · rcases (mem_insert hrefunds).1 hg₂ with hg₂ | rfl
      · exact h.single g₁ hg₁ g₂ hg₂ ho₁ ho₂ hsame
      · exact absurd (hsame.trans hforder) (hother g₁ hg₁ ho₁)
    · rcases (mem_insert hrefunds).1 hg₂ with hg₂ | rfl
      · exact absurd (hsame.symm.trans hforder) (hother g₂ hg₂ ho₂)
      · rfl

theorem RefundsOpen.untouched (h : RefundsOpen db) (hsame : ClaimsUntouched db next) : RefundsOpen next := by
  constructor
  · rw [hsame.refunds, hsame.claims]
    exact h.claimed
  · rw [hsame.refunds, hsame.orders]
    exact h.ordered
  · rw [hsame.refunds, hsame.orders]
    exact h.pending
  · rw [hsame.refunds]
    exact h.single

theorem OrderCreated.moved [Sha256] {userId : String} {request : CreatePaymentOrderRequest}
    (h : OrderCreated db next userId request o) : OrdersMoved (fun _ _ => False) db.storeOrders next.storeOrders := by
  constructor
  · intro p hp
    exact ⟨p, (mem_insert h.inserted).2 (.inl hp), rfl⟩
  · intro p hp
    rcases (mem_insert h.inserted).1 hp with hp | rfl
    · exact .inl ⟨p, hp, rfl, .inl rfl⟩
    · refine .inr ⟨?_, h.state.1⟩
      intro q hq hid
      exact (insert?_eq_some.1 h.inserted).1 q hq (.inl hid)

theorem SalesFrame.refundsOpen (hframe : SalesFrame db next) (h : RefundsOpen db) : RefundsOpen next := by
  rw [hframe]
  exact ⟨h.claimed, h.ordered, h.pending, h.single⟩

theorem RecoveryReserved.untouched {ensured : Database} {r : RewardRecovery} (h : RecoveryReserved db ensured next o r) :
    ClaimsUntouched db next := by
  have hensured : ClaimsUntouched db ensured := by
    rw [h.frame]
    exact ⟨rfl, rfl, rfl⟩
  exact hensured.trans h.money.untouched

theorem RefundsOpen.marks {f : Refund} {provider : Option String} (hopen : RefundsOpen db)
    (hf : db.refunds.find? (·.id = refundId) = some f) (hfopen : f.isOpen) : RefundsOpen (putPending db refundId provider) := by
  have hid := of_find?_decide hf
  have hrefunds : (putPending db refundId provider).refunds =
      db.refunds.update (·.id = refundId) (Refund.withPending provider) := rfl
  apply hopen.update hrefunds
  · exact ClaimsKept.refl _
  · exact fun o ho => ⟨o, ho, rfl⟩
  · exact fun _ => rfl
  · -- the row under the id is the open refund that was read
    intro g hg hgid _
    have hsame := eq_of_clashes hg (mem_of_find? hf) (.inl ((of_decide_eq_true hgid).trans hid.symm))
    rw [hsame]
    exact hfopen
  · intro g hg hgopen _ o ho hoid
    exact hopen.pending g hg hgopen o ho hoid

theorem StoreDid.refundsOpen [Sha256] {e : StoreEvent} (hd : StoreDid db e next) (h : RefundsOpen db) : RefundsOpen next := by
  have hpaid : ∀ new : PaymentState,
      ¬ ((PaymentState.refundPending = .unpaid ∨ PaymentState.refundPending = .closed) ∧ new = .paid) := by
    simp
  cases hd with
  | nothing => exact h
  | quiet hquiet =>
    refine h.unmoved (.of_frame hquiet.frame (R := fun _ _ => False) ?_) fun _ => id
    rw [hquiet]
    exact OrdersMoved.refl _ _
  | paid happlied => exact h.unmoved (.of_frame happlied.frame happlied.moved) hpaid
  | credited happlied _ hfulfilled =>
    exact h.unmoved (.of_frame (happlied.frame.trans hfulfilled.frame) (happlied.moved.still hfulfilled.moved)) hpaid
  | fulfill _ hfulfilled => exact h.unmoved (.of_frame hfulfilled.frame hfulfilled.moved) fun _ => id
  | beginRefund ho hrefundable hreserved hopened =>
    have hsame := hreserved.untouched
    apply (h.untouched hsame).begins hopened
    · rw [hsame.orders]
      exact mem_of_find? ho
    · exact hrefundable.1
  | markRefundPending hf hopen => exact h.marks hf hopen
  | rejectRefund hrejected hmoney =>
    obtain ⟨hm, hopen, -, rfl⟩ := hrejected
    have hsame := hmoney.untouched
    obtain ⟨horder, hid⟩ := hm.order_id
    apply h.settle .failed .paid (mem_of_find? hm.refund) hopen
    · rintro g (hcreated | hpending)
      · cases hcreated
      · cases hpending
    · rw [hid]
      simp only [settleRefund, hsame.refunds]
    · show ClaimsKept db.recoveryClaims _
      rw [hsame.claims]
      exact ClaimsKept.settle db _ .resolved
    · rw [← horder]
      simp only [hsame.orders]
  | completeRefund hcompleted =>
    obtain ⟨horder, hid⟩ := hcompleted.rows.order_id
    apply h.settle .succeeded .refunded (mem_of_find? hcompleted.rows.refund) hcompleted.isOpen
    · rintro g (hcreated | hpending)
      · cases hcreated
      · cases hpending
    · rw [hid, hcompleted.result]
    · rw [hcompleted.result]
      exact ClaimsKept.settle db _ .consumed
    · rw [← horder, hcompleted.result]
  | openClaim _ _ hreserved hopened =>
    have hsame := hreserved.untouched
    obtain ⟨c, -, -, -, hclaims⟩ := hopened.claim
    refine h.unmoved (R := fun _ _ => False) ⟨?_, ?_, ?_⟩ fun _ => id
    · rw [hopened.frame]
      exact hsame.refunds
    · rw [← hsame.claims]
      exact ClaimsKept.insert hclaims
    · rw [hopened.orders, hsame.orders]
      exact disputeOrder_moved _ _ _ _
  | resolveClaim =>
    exact h.unmoved (R := fun _ _ => False) ⟨rfl, ClaimsKept.settle db _ .resolved, OrdersMoved.refl _ _⟩ fun _ => id
  | winClaim hwon hmoney =>
    have hsame := hmoney.untouched
    rename_i claimId now ids m finalBalance released
    have hclaims : ClaimsKept db.recoveryClaims released.recoveryClaims := by
      rw [hsame.claims]
      exact ClaimsKept.settle db claimId .resolved
    rw [hwon.result]
    split
    · refine h.unmoved (R := fun _ _ => False) ⟨hsame.refunds, hclaims, ?_⟩ fun _ => id
      show OrdersMoved _ db.storeOrders (disputeOrder _ _ .won false)
      rw [hsame.orders]
      exact disputeOrder_moved _ _ _ _
    · refine h.unmoved (R := fun _ _ => False) ⟨hsame.refunds, hclaims, ?_⟩ fun _ => id
      rw [hsame.orders]
      exact OrdersMoved.refl _ _
  | loseClaim hlost hmoney _ =>
    have hsame := hmoney.untouched
    rw [hlost.result]
    refine h.unmoved (R := fun _ _ => False) ⟨hsame.refunds, ?_, ?_⟩ fun _ => id
    · rw [← hsame.claims]
      exact ClaimsKept.settle _ _ .consumed
    · show OrdersMoved _ db.storeOrders (disputeOrder _ _ .lost true)
      rw [hsame.orders]
      exact disputeOrder_moved _ _ _ _
  | attempts => exact ⟨h.claimed, h.ordered, h.pending, h.single⟩
  | createOrder hcreated =>
    refine h.unmoved (.of_frame ?_ hcreated.moved) fun _ => id
    rw [hcreated.frame]
    exact ⟨rfl, rfl, rfl, rfl, rfl⟩
  | closeUnpaid hok =>
    obtain ⟨p, hunpaid, hnext⟩ := closeConfirmedUnpaidAdmin_inv hok
    have horders : OrdersMoved (fun old _ => old = .unpaid) db.storeOrders next.storeOrders := by
      rw [hnext]
      dsimp only
      exact OrdersMoved.update _ fun o hp => .inr (hunpaid o hp)
    refine h.unmoved (.of_frame ?_ horders) (by simp)
    rw [hnext]
    exact ⟨rfl, rfl, rfl, rfl, rfl⟩
  | charge hok =>
    rcases chargeUserBalanceNano_inv hok with rfl | ⟨u, balance, amount, -, -, -, -, hnext⟩
    · exact h
    · rw [hnext]
      exact ⟨h.claimed, h.ordered, h.pending, h.single⟩
  | setCommissionRate hok => exact (setCommissionRateBp_frame hok).refundsOpen h
  | insertAgent hok => exact (insertAgent_frame hok).refundsOpen h
  | setAgentEnabled hok => exact (updateAgent_frame hok).refundsOpen h
  | setOwnDiscount hok => exact (setOwnDiscount_frame hok).refundsOpen h

end Monoize
