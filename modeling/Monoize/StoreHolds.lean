import Monoize.StoreCredit

/-! The user's hold and the order's hold while a dispute or chargeback is open. -/

namespace Monoize

open Fallible MachineInt Relational Transition Option Table

variable {db next : Database} {o : StoreOrder} {now : Instant} {ids : RecoveryIds} {claimId : String}

variable {recoveryId userId : String} {r : RewardRecovery} {m : ClaimMutation}

def Disputed (db : Database) (orderId : String) : Prop :=
  ∃ c ∈ db.recoveryClaims.rows, c.state = .opened ∧ c.kind ≠ .refund ∧
    ∃ r ∈ db.rewardRecoveries.rows, r.id = c.recoveryId ∧ r.orderId = orderId
  deriving Decidable

def OnHold (db : Database) (userId : String) : Prop := ∃ h ∈ db.balanceHolds.rows, h.userId = userId ∧ h.active = true
  deriving Decidable

/-- The property itself: whoever has an open dispute is on hold, and so is the order. -/
def HoldsCover (db : Database) : Prop :=
  ∀ o ∈ db.storeOrders.rows, Disputed db o.id → o.paymentHold = true ∧ OnHold db o.contract.userId

structure HoldsKept (db next : Database) : Prop where
  disputed : ∀ orderId, Disputed next orderId → Disputed db orderId
  orders : ∀ o' ∈ next.storeOrders.rows, Disputed next o'.id → ∃ o ∈ db.storeOrders.rows, o.id = o'.id ∧
    o.contract = o'.contract ∧ (o.paymentHold = true → o'.paymentHold = true)
  holds : ∀ userId, OnHold db userId → OnHold next userId

theorem HoldsCover.kept (h : HoldsCover db) (hk : HoldsKept db next) : HoldsCover next := by
  intro o' ho' hdisputed
  obtain ⟨o, ho, hid, hcontract, hhold⟩ := hk.orders o' ho' hdisputed
  obtain ⟨hheld, huser⟩ := h o ho (hid ▸ hk.disputed _ hdisputed)
  rw [← hcontract]
  exact ⟨hhold hheld, hk.holds _ huser⟩

def OrdersHeld (orders next : Table StoreOrder) : Prop :=
  ∀ o' ∈ next.rows, ∃ o ∈ orders.rows, o.id = o'.id ∧ o.contract = o'.contract ∧
    (o.paymentHold = true → o'.paymentHold = true)

theorem OrdersHeld.refl (orders : Table StoreOrder) : OrdersHeld orders orders := fun o ho => ⟨o, ho, rfl, rfl, id⟩

theorem OrdersHeld.update {orders : Table StoreOrder} {p : StoreOrder → Bool} {f : StoreOrder → StoreOrder}
    (hcolumns : ∀ o, (f o).contract = o.contract ∧ (o.paymentHold = true → (f o).paymentHold = true) := by
      exact fun _ => ⟨rfl, fun hhold => hhold⟩)
    (hf : ∀ o, Keyed.key (f o) = Keyed.key o := by exact keyKept fun _ => rfl) :
    OrdersHeld orders (orders.update p f hf) := by
  intro o' ho'
  obtain ⟨o, ho, rfl⟩ := mem_update.1 ho'
  refine ⟨o, ho, ?_⟩
  split
  · have hid : (f o).id = o.id := congrArg Prod.fst (hf o)
    exact ⟨hid.symm, (hcolumns o).1.symm, (hcolumns o).2⟩
  · exact ⟨rfl, rfl, id⟩

theorem HoldsKept.of_rows
    (hclaims : ∀ c' ∈ next.recoveryClaims.rows, ∃ c ∈ db.recoveryClaims.rows, c'.recoveryId = c.recoveryId ∧
      c'.kind = c.kind ∧ (c'.state = .opened → c.state = .opened))
    (hkeys : next.rewardRecoveries.rows.map Keyed.key = db.rewardRecoveries.rows.map Keyed.key)
    (horders : OrdersHeld db.storeOrders next.storeOrders) (hholds : ∀ userId, OnHold db userId → OnHold next userId) :
    HoldsKept db next := by
  refine ⟨?_, fun o ho _ => horders o ho, hholds⟩
  rintro orderId ⟨c', hc', hopened, hkind, r', hr', hid, horder⟩
  obtain ⟨c, hc, hcid, hckind, hcstate⟩ := hclaims c' hc'
  obtain ⟨r, hr, hkey⟩ := exists_of_map_eq hkeys hr'
  have hrid : r.id = r'.id := congrArg Prod.fst hkey
  have hrorder : r.orderId = r'.orderId := congrArg Prod.snd hkey
  exact ⟨c, hc, hcstate hopened, hckind ▸ hkind, r, hr, hrid.trans (hid.trans hcid), hrorder.trans horder⟩

theorem HoldsKept.of_frame (hframe : RecoveryFrame db next) (horders : OrdersHeld db.storeOrders next.storeOrders) :
    HoldsKept db next := by
  apply HoldsKept.of_rows
  · rw [hframe.claims]
    exact fun c hc => ⟨c, hc, rfl, rfl, id⟩
  · rw [hframe.recoveries]
  · exact horders
  · intro userId h
    rwa [OnHold, hframe.holds]

theorem HoldsKept.trans {db₁ db₂ db₃ : Database} (h₁ : HoldsKept db₁ db₂) (h₂ : HoldsKept db₂ db₃) :
    HoldsKept db₁ db₃ := by
  refine ⟨fun id h => h₁.disputed id (h₂.disputed id h), ?_, fun u h => h₂.holds u (h₁.holds u h)⟩
  intro o ho hdisputed
  obtain ⟨p, hp, hpid, hpcontract, hphold⟩ := h₂.orders o ho hdisputed
  obtain ⟨q, hq, hqid, hqcontract, hqhold⟩ := h₁.orders p hp (hpid ▸ h₂.disputed _ hdisputed)
  exact ⟨q, hq, hqid.trans hpid, hqcontract.trans hpcontract, fun h => hphold (hqhold h)⟩

theorem MoneyFrame.holdsKept (h : MoneyFrame db next) : HoldsKept db next := by
  apply HoldsKept.of_rows
  · rw [h.frame]
    exact fun c hc => ⟨c, hc, rfl, rfl, id⟩
  · exact h.keys
  · rw [h.frame]
    exact OrdersHeld.refl _
  · intro userId hhold
    rw [h.frame]
    exact hhold

theorem RecoveryStands.holdsKept (h : RecoveryStands db next o r) (hl : Linked db) : HoldsKept db next := by
  have hclaims : next.recoveryClaims = db.recoveryClaims := by rw [h.frame]
  have horders : next.storeOrders = db.storeOrders := by rw [h.frame]
  have hholds : next.balanceHolds = db.balanceHolds := by rw [h.frame]
  refine ⟨?_, ?_, ?_⟩
  · rintro orderId ⟨c, hc, hopened, hkind, r, hr, hid, horder⟩
    rw [hclaims] at hc
    refine ⟨c, hc, hopened, hkind, ?_⟩
    rcases h.inserted with hsame | hinsert
    · exact ⟨r, hsame ▸ hr, hid, horder⟩
    rcases (mem_insert hinsert).1 hr with hr | rfl
    · exact ⟨r, hr, hid, horder⟩
    · obtain ⟨q, hq, hqid⟩ := hl.claim_recovery c hc
      exact absurd (.inl (hqid.trans hid.symm)) ((insert?_eq_some.1 hinsert).1 q hq)
  · intro o ho _
    exact ⟨o, horders ▸ ho, rfl, rfl, id⟩
  · intro userId h
    rwa [OnHold, hholds]

theorem putHold_onHold {reason : String} {now : Int} (h : next.balanceHolds = putHold db.balanceHolds userId reason now) :
    OnHold next userId ∧ ∀ other, OnHold db other → OnHold next other := by
  rw [OnHold, h, putHold]
  cases hinsert : db.balanceHolds.insert? ⟨userId, true, reason, now, none⟩ with
  | some holds =>
    refine ⟨⟨_, (mem_insert hinsert).2 (.inr rfl), rfl, rfl⟩, ?_⟩
    rintro other ⟨hold, hmem, huser, hactive⟩
    rw [OnHold, h, putHold, hinsert]
    exact ⟨hold, (mem_insert hinsert).2 (.inl hmem), huser, hactive⟩
  | none =>
    have hexists : ∃ hold ∈ db.balanceHolds.rows, hold.userId = userId := by
      by_contra hnone
      have hfree : ∀ hold ∈ db.balanceHolds.rows, ¬ Clashes hold ⟨userId, true, reason, now, none⟩ :=
        fun hold hmem hclash => hnone ⟨hold, hmem, hclash⟩
      obtain ⟨_, hsome⟩ := exists_insert hfree
      cases hinsert.symm.trans hsome
    obtain ⟨hold, hmem, huser⟩ := hexists
    rw [getD_none]
    constructor
    · refine ⟨hold.withOpened reason now, mem_update.2 ⟨hold, hmem, ?_⟩, huser, rfl⟩
      exact if_pos (decide_eq_true huser)
    · rintro other ⟨hold', hmem', huser', hactive'⟩
      rw [OnHold, h, putHold, hinsert, getD_none]
      refine ⟨_, mem_update.2 ⟨hold', hmem', rfl⟩, ?_⟩
      split
      · exact ⟨huser', rfl⟩
      · exact ⟨huser', hactive'⟩

theorem openRefund_holdsKept {key : String} (h : RefundOpened db next o recoveryId key) : HoldsKept db next := by
  have hrecoveries : next.rewardRecoveries = db.rewardRecoveries := by rw [h.frame]
  have hholds : next.balanceHolds = db.balanceHolds := by rw [h.frame]
  obtain ⟨f, -, -, hfkind, -, hclaims⟩ := h.claim
  refine ⟨?_, ?_, ?_⟩
  · rintro orderId ⟨c, hc, hopened, hkind, r, hr, hid, horder⟩
    rcases (mem_insert hclaims).1 hc with hc | rfl
    · exact ⟨c, hc, hopened, hkind, r, hrecoveries ▸ hr, hid, horder⟩
    · exact absurd hfkind hkind
  · intro o' ho' _
    have hheld : OrdersHeld db.storeOrders next.storeOrders := by
      rw [h.orders]
      exact OrdersHeld.update
    exact hheld o' ho'
  · intro userId hhold
    rwa [OnHold, hholds]

theorem settleClaim_kept (claimId : String) (state : RecoveryClaimState) {c' : RecoveryClaim}
    (h : c' ∈ (settleClaim db claimId state).rows) : ∃ c ∈ db.recoveryClaims.rows, c'.recoveryId = c.recoveryId ∧
      c'.kind = c.kind ∧ (c'.state = .opened → c.state = .opened) := by
  obtain ⟨c, hc, hid, hkind, -, hstate⟩ := settleClaim_mem h
  exact ⟨c, hc, hid, hkind, hstate⟩

theorem settled_holdsKept (db : Database) (claimId : String) (state : RecoveryClaimState) :
    HoldsKept db { db with recoveryClaims := settleClaim db claimId state } :=
  HoldsKept.of_rows (fun _ hc => settleClaim_kept claimId state hc) rfl (OrdersHeld.refl _) (fun _ h => h)

theorem ClaimOpened.covers {kind : RecoveryClaimKind} {now : Int}
    (h : ClaimOpened db next o r.id kind now) (ho : db.order? o.id = some o) (hr : db.recovery? o.id = some r)
    (hcover : HoldsCover db) : HoldsCover next := by
  have hrecoveries : next.rewardRecoveries = db.rewardRecoveries := by rw [h.frame]
  obtain ⟨c, hcid, -, -, hclaims⟩ := h.claim
  obtain ⟨huser, hothers⟩ := putHold_onHold h.holds
  rintro p' hp' ⟨c', hc', hopened, hkind, r', hr', hid, horder⟩
  rw [h.orders] at hp'
  obtain ⟨p, hp, rfl⟩ := mem_update.1 hp'
  by_cases hpo : p.id = o.id
  · have hsame : p = o := some.inj ((order?_of_mem hp).symm.trans (hpo ▸ ho))
    subst hsame
    rw [if_pos (decide_eq_true rfl)]
    exact ⟨rfl, huser⟩
  · rw [if_neg (fun e => hpo (of_decide_eq_true e))] at horder ⊢
    rw [hrecoveries] at hr'
    have hdisputed : Disputed db p.id := by
      rcases (mem_insert hclaims).1 hc' with hc' | rfl
      · exact ⟨c', hc', hopened, hkind, r', hr', hid, horder⟩
      have hrid := of_find?_decide hr
      have hsame := eq_of_clashes hr' (mem_of_find? hr) (.inl (hid.trans hcid))
      rw [hsame] at horder
      exact absurd (horder.symm.trans hrid) hpo
    obtain ⟨hheld, hhold⟩ := hcover p hp hdisputed
    exact ⟨hheld, hothers _ hhold⟩

structure HoldEnds (db : Database) (claimId : String) (now : Instant) (ids : RecoveryIds) (m : ClaimMutation) : Prop where
  rows : ClaimRows db claimId m
  opened : m.claim.state = .opened
  last : otherOpenClaims (settleClaim db claimId .resolved) m.recovery.id claimId = 0
  solvent : ∃ finalBalance released, releaseWon { db with recoveryClaims := settleClaim db claimId .resolved } m.order
    m.recovery now ids.ledgerId = .ok (finalBalance, released) ∧ 0 ≤ finalBalance
  unrecovered : m.recovery.recoveredNanoUsd = 0

/-- No claim is won that ends the hold while another order of the user is disputed. -/
def HoldSafe (db : Database) : StoreEvent → Prop
  | .winClaim claimId now ids => ∀ m, HoldEnds db claimId now ids m → ∀ o ∈ db.storeOrders.rows,
    o.contract.userId = m.order.contract.userId → Disputed db o.id → o.id = m.order.id
  | _ => True

theorem not_disputed_of_last (hm : ClaimRows db claimId m)
    (hlast : otherOpenClaims (settleClaim db claimId .resolved) m.recovery.id claimId = 0)
    (hclaims : next.recoveryClaims = settleClaim db claimId .resolved)
    (hkeys : next.rewardRecoveries.rows.map Keyed.key = db.rewardRecoveries.rows.map Keyed.key) :
    ¬ Disputed next m.recovery.orderId := by
  rintro ⟨c', hc', hopened, -, r', hr', hid, horder⟩
  obtain ⟨r, hr, hkey⟩ := exists_of_map_eq hkeys hr'
  have hrid : r.id = r'.id := congrArg Prod.fst hkey
  have hrorder : r.orderId = r'.orderId := congrArg Prod.snd hkey
  have hsame := eq_of_clashes hr (mem_of_find? hm.recovery) (.inr (hrorder.trans horder))
  rw [hclaims] at hc'
  have hcid : c'.id = claimId := by
    by_contra hne
    have hcount := List.countP_eq_zero.1 hlast c' hc'
    exact hcount (decide_eq_true ⟨(hid.symm.trans hrid.symm).trans (congrArg RewardRecovery.id hsame), hne, hopened⟩)
  obtain ⟨c, -, hc⟩ := mem_update.1 hc'
  split at hc
  · rw [← hc] at hopened
    cases hopened
  · rename_i hp
    rw [← hc] at hcid hopened
    exact hp (decide_eq_true ⟨hcid, hopened⟩)

theorem endHold_covers {released : Database} (hends : HoldEnds db claimId now ids m)
    (hmoney : MoneyFrame { db with recoveryClaims := settleClaim db claimId .resolved } released)
    (hsafe : HoldSafe db (.winClaim claimId now ids)) (hcover : HoldsCover db) :
    HoldsCover (endHold released m.order now) := by
  have hclaims : released.recoveryClaims = settleClaim db claimId .resolved := by rw [hmoney.frame]
  have horders : released.storeOrders = db.storeOrders := by rw [hmoney.frame]
  have hkept := (settled_holdsKept db claimId .resolved).trans hmoney.holdsKept
  have hid := order?_id hends.rows.order
  intro p' hp' hdisputed
  have hp'' : p' ∈ (disputeOrder released.storeOrders m.order.id .won false).rows := hp'
  obtain ⟨p, hp, rfl⟩ := mem_update.1 hp''
  by_cases hpm : p.id = m.order.id
  · rw [if_pos (decide_eq_true hpm)] at hdisputed
    have hlast := not_disputed_of_last hends.rows hends.last hclaims hmoney.keys
    rw [← hid, ← hpm] at hlast
    exact absurd hdisputed hlast
  · rw [if_neg (fun e => hpm (of_decide_eq_true e))] at hdisputed ⊢
    rw [horders] at hp
    have hbefore : Disputed db p.id := hkept.disputed p.id hdisputed
    obtain ⟨hheld, huser⟩ := hcover p hp hbefore
    refine ⟨hheld, ?_⟩
    obtain ⟨hold, hmem, hholdUser, hactive⟩ := hkept.holds _ huser
    have hother : hold.userId ≠ m.order.contract.userId := by
      intro hsame
      exact hpm (hsafe m hends p hp (hholdUser.symm.trans hsame) hbefore)
    refine ⟨hold, ?_, hholdUser, hactive⟩
    have hrow : hold ∈ (clearHold released.balanceHolds m.order.contract.userId (timestamp now)).rows :=
      mem_update.2 ⟨hold, hmem, if_neg (fun e => hother (of_decide_eq_true e))⟩
    exact hrow

theorem Fulfilled.holdsKept (h : Fulfilled db next o) : HoldsKept db next := by
  apply HoldsKept.of_frame h.frame
  rw [h.orders]
  exact OrdersHeld.update

theorem PaymentApplied.holdsKept (h : PaymentApplied db next o) : HoldsKept db next := by
  apply HoldsKept.of_frame h.frame
  rcases h.orders with ⟨-, horders⟩ | horders
  · rw [horders]
    exact OrdersHeld.refl _
  · rw [horders]
    exact OrdersHeld.update

theorem OrderCreated.holdsKept [Sha256] {request : CreatePaymentOrderRequest}
    (h : OrderCreated db next userId request o) (hs : ∀ orderId, (book db orderId).Sound) : HoldsKept db next := by
  have hsame : ∀ orderId, Disputed next orderId → Disputed db orderId := by
    intro orderId hdisputed
    rw [h.frame] at hdisputed
    exact hdisputed
  refine ⟨hsame, ?_, ?_⟩
  · intro p hp hdisputed
    rcases (mem_insert h.inserted).1 hp with hp | rfl
    · exact ⟨p, hp, rfl, rfl, id⟩
    obtain ⟨_, -, -, -, r, hr, -, horder⟩ := hsame p.id hdisputed
    have hnone := ((hs p.id).absent h.books.1).2
    rw [← horder] at hnone
    simp only [book, recovery?_of_mem hr, map_some, reduceCtorEq] at hnone
  · intro other hhold
    rw [h.frame]
    exact hhold

inductive HoldSafeStep [Sha256] : StoreState → StoreState → Prop
  | run (s : StoreState) (e : StoreEvent) (h : HoldSafe s.db e) : HoldSafeStep s (s.run e)

theorem RecoveryReserved.holdsKept {ensured : Database} (h : RecoveryReserved db ensured next o r)
    (hl : Linked db) : HoldsKept db next :=
  (h.toRecoveryStands.holdsKept hl).trans h.money.holdsKept

theorem StoreDid.covers [Sha256] {e : StoreEvent} (hd : StoreDid db e next) (hs : ∀ orderId, (book db orderId).Sound)
    (hl : Linked db) (h : HoldsCover db) (hsafe : HoldSafe db e) : HoldsCover next := by
  cases hd with
  | nothing => exact h
  | quiet hquiet =>
    apply h.kept (HoldsKept.of_frame hquiet.frame _)
    rw [hquiet]
    exact OrdersHeld.refl _
  | paid happlied => exact h.kept happlied.holdsKept
  | credited happlied _ hfulfilled => exact h.kept (happlied.holdsKept.trans hfulfilled.holdsKept)
  | fulfill _ hfulfilled => exact h.kept hfulfilled.holdsKept
  | beginRefund _ _ hreserved hopened => exact h.kept ((hreserved.holdsKept hl).trans (openRefund_holdsKept hopened))
  | markRefundPending => exact h
  | rejectRefund hrejected hmoney =>
    rw [hrejected.result]
    apply h.kept (((settled_holdsKept db _ .resolved).trans hmoney.holdsKept).trans _)
    apply HoldsKept.of_rows
    · exact fun c hc => ⟨c, hc, rfl, rfl, id⟩
    · rfl
    · exact OrdersHeld.update
    · exact fun _ hhold => hhold
  | completeRefund hcompleted =>
    rw [hcompleted.result]
    apply h.kept (HoldsKept.of_rows _ _ _ _)
    · exact fun c hc => settleClaim_kept _ .consumed hc
    · exact keys_update
    · exact OrdersHeld.update
    · exact fun _ hhold => hhold
  | openClaim _ _ hreserved hopened =>
    obtain ⟨r', hr', hid⟩ := hreserved.money.recovery? hreserved.row
    rw [← hid] at hopened
    exact hopened.covers ((hreserved.money.order? _).trans hreserved.order) hr' (h.kept (hreserved.holdsKept hl))
  | resolveClaim => exact h.kept (settled_holdsKept db _ .resolved)
  | winClaim hwon hmoney =>
    obtain ⟨hm, hopened, hlast, hrelease, rfl⟩ := hwon
    split
    · rename_i hfinal
      have hends : HoldEnds db _ _ _ _ := ⟨hm, hopened, hlast, ⟨_, _, hrelease, hfinal.1⟩, hfinal.2⟩
      exact endHold_covers hends hmoney hsafe h
    · exact (h.kept (settled_holdsKept db _ .resolved)).kept hmoney.holdsKept
  | loseClaim hlost hmoney _ =>
    rw [hlost.result]
    apply h.kept (hmoney.holdsKept.trans _)
    apply HoldsKept.of_rows
    · exact fun c hc => settleClaim_kept _ .consumed hc
    · exact keys_update
    · exact OrdersHeld.update (by exact fun _ => ⟨rfl, fun _ => rfl⟩)
    · exact (putHold_onHold rfl).2
  | attempts => exact h
  | createOrder hcreated => exact h.kept (hcreated.holdsKept hs)
  | closeUnpaid hok =>
    obtain ⟨p, -, hnext⟩ := closeConfirmedUnpaidAdmin_inv hok
    apply h.kept
    rw [hnext]
    exact HoldsKept.of_frame ⟨rfl, rfl, rfl, rfl, rfl⟩
      OrdersHeld.update
  | charge hok =>
    rcases chargeUserBalanceNano_inv hok with rfl | ⟨u, balance, amount, -, -, -, -, hnext⟩
    · exact h
    · rw [hnext]
      exact h
  | setCommissionRate hok => exact setCommissionRateBp_frame hok ▸ h
  | insertAgent hok => exact insertAgent_frame hok ▸ h
  | setAgentEnabled hok => exact updateAgent_frame hok ▸ h
  | setOwnDiscount hok => exact setOwnDiscount_frame hok ▸ h

/-- In every run whose steps are all safe. -/
theorem holds_cover_disputes [Sha256] {s : StoreState} (h : Reachable StoreInitial HoldSafeStep s) : HoldsCover s.db := by
  have hinv : BooksInv s ∧ HoldsCover s.db := by
    apply h.invariant
    · intro s hs
      refine ⟨booksInv_initial hs, ?_⟩
      rintro o - ⟨c, hc, -⟩
      rw [hs.no_claim] at hc
      exact nomatch hc
    · rintro s t ⟨hbooks, hcover⟩ ⟨e, hsafe⟩
      exact ⟨storeStep_books hbooks (.run s e), (hbooks.did e).covers hbooks.sound hbooks.linked hcover hsafe⟩
  exact hinv.2

open SampleDigests

def disputeEvent (orderId claimId recoveryId ledgerId : String) : StoreEvent :=
  .openClaim ⟨orderId, "credential", claimId, none, .dispute⟩ 0 ⟨recoveryId, ledgerId, "", claimId⟩

theorem holds_cover_disputes_sample :
    ∃ o ∈ (samplePaid.run (disputeEvent "order-1" "k1" "r1" "l4")).db.storeOrders.rows,
      Disputed (samplePaid.run (disputeEvent "order-1" "k1" "r1" "l4")).db o.id ∧
      o.paymentHold = true ∧
      OnHold (samplePaid.run (disputeEvent "order-1" "k1" "r1" "l4")).db o.contract.userId := by
  obtain ⟨o, ho, hopen⟩ : ∃ o ∈ (samplePaid.run (disputeEvent "order-1" "k1" "r1" "l4")).db.storeOrders.rows,
      Disputed (samplePaid.run (disputeEvent "order-1" "k1" "r1" "l4")).db o.id := by
    decide +kernel
  refine ⟨o, ho, hopen, holds_cover_disputes ?_ o ho hopen⟩
  refine .next (.next (.next (.next (.start sampleStore_initial) (.run _ _ ?_)) (.run _ _ ?_)) (.run _ _ ?_)) (.run _ _ ?_)
  all_goals exact trivial

def sampleWon : StoreState :=
  [disputeEvent "order-1" "k1" "r1" "l4", disputeEvent "order-2" "k2" "r2" "l5", .winClaim "k1" 0 ⟨"", "l6", "", ""⟩
  ].foldl StoreState.run samplePaid

theorem holds_do_not_cover : Reachable StoreInitial StoreStep sampleWon ∧
    ∃ o ∈ sampleWon.db.storeOrders.rows, Disputed sampleWon.db o.id ∧ ¬ OnHold sampleWon.db o.contract.userId := by
  refine ⟨samplePaid_reachable.foldl (fun s e => StoreStep.run s e) _, ?_⟩
  decide +kernel

end Monoize
