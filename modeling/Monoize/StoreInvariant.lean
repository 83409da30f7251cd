import Monoize.OrderSteps
import Monoize.RecoveryLinks

/-! In every run the books stay sound, and what was credited and moved is what the books say. -/

namespace Monoize

open Fallible MachineInt Relational Transition

/-- What an event did: nothing, or what its successful call does. -/
inductive StoreDid [Sha256] (db : Database) : StoreEvent → Database → Prop
  | nothing (e : StoreEvent) : StoreDid db e db
  | quiet (h : Quiet db next) : StoreDid db (.payment input fence thenFulfill now ids) next
  | paid (h : PaymentApplied db next o) : StoreDid db (.payment input fence thenFulfill now ids) next
  | credited (h : PaymentApplied db applied o) (ho : applied.order? input.orderId = some o')
      (hfulfilled : Fulfilled applied next o') :
      StoreDid db (.payment input fence thenFulfill now ids) next
  | fulfill (ho : db.order? orderId = some o) (h : Fulfilled db next o) :
      StoreDid db (.fulfill orderId fence now ids) next
  | beginRefund (ho : db.order? input.orderId = some o) (hrefundable : o.refundable)
      (hreserved : RecoveryReserved db ensured reserved o r)
      (h : RefundOpened reserved next o r.id input.idempotencyKey) : StoreDid db (.beginRefund input now ids) next
  | markRefundPending (hf : db.refunds.find? (·.id = refundId) = some f) (hopen : f.isOpen) :
      StoreDid db (.markRefundPending refundId given) (putPending db refundId provider)
  | rejectRefund (h : RefundRejected db next refundId now ids m released)
      (hmoney : MoneyFrame { db with recoveryClaims := settleClaim db m.claim.id .resolved } released) :
      StoreDid db (.rejectRefund refundId now ids) next
  | completeRefund (h : RefundCompleted db next refundId m) : StoreDid db (.completeRefund refundId now) next
  | openClaim (ho : db.order? input.orderId = some o) (hkind : input.kind ≠ .refund)
      (hreserved : RecoveryReserved db ensured reserved o r)
      (h : ClaimOpened reserved next o r.id input.kind (timestamp now)) : StoreDid db (.openClaim input now ids) next
  | resolveClaim (hm : ClaimRows db claimId m)
      (hothers : otherOpenClaims (settleClaim db claimId .resolved) m.recovery.id claimId ≠ 0) :
      StoreDid db (.winClaim claimId now ids) { db with recoveryClaims := settleClaim db claimId .resolved }
  | winClaim (h : ClaimWon db next claimId now ids m finalBalance released)
      (hmoney : MoneyFrame { db with recoveryClaims := settleClaim db claimId .resolved } released) :
      StoreDid db (.winClaim claimId now ids) next
  | loseClaim (h : ClaimLost db next claimId now ids m debited) (hmoney : MoneyFrame db debited)
      (hrecoveries : debited.rewardRecoveries = db.rewardRecoveries) :
      StoreDid db (.loseClaim claimId now ids) next
  | attempts (table : Table PaymentAttempt) : StoreDid db (.attempts table) { db with paymentAttempts := table }
  | createOrder (h : OrderCreated db next userId request o) :
      StoreDid db (.createOrder shop userId request snapshot now ids) next
  | closeUnpaid (h : closeConfirmedUnpaidAdmin db orderId attemptId = .ok (r, next)) :
      StoreDid db (.closeUnpaid orderId attemptId) next
  | charge (h : chargeUserBalanceNano db charge ledgerId = .ok (r, next)) : StoreDid db (.charge charge ledgerId) next
  | setCommissionRate (h : setCommissionRateBp db rateBp = .ok (r, next)) :
      StoreDid db (.setCommissionRate rateBp) next
  | insertAgent (h : insertAgent db userId code discountBp = .ok (r, next)) :
      StoreDid db (.insertAgent userId code discountBp) next
  | setAgentEnabled (h : setAgentEnabled db userId enabled = .ok (r, next)) :
      StoreDid db (.setAgentEnabled userId enabled) next
  | setOwnDiscount (h : setOwnDiscount db userId discountBp = .ok (r, next)) :
      StoreDid db (.setOwnDiscount userId discountBp) next

variable {db next : Database} {orderId : String} {s : StoreState}

structure BooksInv (s : StoreState) : Prop where
  sound : ∀ orderId, (book s.db orderId).Sound
  credited : ∀ orderId userId, s.credited orderId userId = (book s.db orderId).credit userId
  moved : ∀ orderId userId, s.moved orderId userId = (book s.db orderId).debit userId
  linked : Linked s.db

theorem record_none (sums : String → String → Int) (db next : Database) : record sums none db next = sums := by
  funext orderId userId
  exact if_neg nofun

theorem SameBooks.record (h : SameBooks db next) (sums : String → String → Int) (target : Option String) :
    record sums target db next = sums := by
  funext orderId userId
  simp only [Monoize.record, h.storedBalance, Int.sub_self, Int.add_zero, ite_self]

theorem record_of_ne {sums : String → String → Int} {target : String} (h : orderId ≠ target) :
    record sums (some target) db next orderId = sums orderId := by
  funext userId
  exact if_neg fun e => h (Option.some.inj e).symm

theorem record_of_eq (sums : String → String → Int) (orderId : String) (db next : Database) (userId : String) :
    record sums (some orderId) db next orderId userId =
      sums orderId userId + (storedBalance next userId - storedBalance db userId) :=
  if_pos rfl

variable {t : StoreState}

theorem StoreDid.call [Sha256] {ε α : Type} {x : Except ε (α × Database)} {e : StoreEvent}
    (h : ∀ a next, x = .ok (a, next) → StoreDid db e next) : StoreDid db e (commit db x) := by
  cases x with
  | error _ => exact .nothing e
  | ok r => exact h r.1 r.2 rfl

theorem chargeUserBalanceNano_frame {charge : RequestCharge} {ledgerId : String}
    (h : chargeUserBalanceNano db charge ledgerId = .ok ((), next)) : RecoveryFrame db next := by
  rcases chargeUserBalanceNano_inv h with rfl | ⟨u, balance, amount, -, -, -, -, hnext⟩
  · exact RecoveryFrame.refl _
  · rw [hnext]
    exact ⟨rfl, rfl, rfl, rfl, rfl⟩

variable (h : BooksInv s)

include h

theorem BooksInv.same (hbooks : ∀ orderId, book next orderId = book s.db orderId) (hl : Linked next) :
    BooksInv ⟨next, s.credited, s.moved⟩ := by
  refine ⟨fun id => ?_, fun id userId => ?_, fun id userId => ?_, hl⟩
  · show (book next id).Sound
    rw [hbooks]
    exact h.sound id
  · show s.credited id userId = (book next id).credit userId
    rw [hbooks]
    exact h.credited id userId
  · show s.moved id userId = (book next id).debit userId
    rw [hbooks]
    exact h.moved id userId

theorem BooksInv.change {credited moved : String → String → Int} (hl : Linked next)
    (hother : ∀ id, id ≠ orderId → book next id = book s.db id ∧ credited id = s.credited id ∧ moved id = s.moved id)
    (hsound : (book next orderId).Sound) (hcredited : ∀ userId, credited orderId userId = (book next orderId).credit userId)
    (hmoved : ∀ userId, moved orderId userId = (book next orderId).debit userId) : BooksInv ⟨next, credited, moved⟩ := by
  have hcases (id : String) : (book next id).Sound ∧ (∀ userId, credited id userId = (book next id).credit userId) ∧
      ∀ userId, moved id userId = (book next id).debit userId := by
    by_cases hid : id = orderId
    · exact hid ▸ ⟨hsound, hcredited, hmoved⟩
    · obtain ⟨hbook, hc, hm⟩ := hother id hid
      rw [hbook, hc, hm]
      exact ⟨h.sound id, h.credited id, h.moved id⟩
  exact ⟨fun id => (hcases id).1, fun id => (hcases id).2.1, fun id => (hcases id).2.2, hl⟩

theorem BooksInv.quiet (hbooks : SameBooks s.db next) (hl : Linked next) (target target' : Option String) :
    BooksInv ⟨next, record s.credited target s.db next, record s.moved target' s.db next⟩ := by
  rw [hbooks.record, hbooks.record]
  exact h.same hbooks.books hl

theorem BooksInv.stay (target target' : Option String) :
    BooksInv ⟨s.db, record s.credited target s.db s.db, record s.moved target' s.db s.db⟩ :=
  h.quiet (SameBooks.refl s.db) h.linked target target'

theorem BooksInv.pays (hstep : BookStep Book.Pays orderId s.db next) (hl : Linked next) :
    BooksInv ⟨next, record s.credited (some orderId) s.db next, record s.moved none s.db next⟩ := by
  obtain ⟨⟨d, hd, hbalance⟩, hframe⟩ := hstep
  rw [record_none]
  refine h.change hl (fun id hid => ⟨hframe id hid, ?_, rfl⟩) (hd.sound (h.sound _)) (fun userId => ?_) fun userId => ?_
  · exact record_of_ne hid
  · rw [record_of_eq, hd.credit_eq, h.credited, hbalance]
    omega
  · rw [h.moved, hd.debit_eq]

theorem BooksInv.recovers (hstep : BookStep Book.Recovers orderId s.db next) (hl : Linked next) :
    BooksInv ⟨next, record s.credited none s.db next, record s.moved (some orderId) s.db next⟩ := by
  obtain ⟨⟨d, hd, hbalance⟩, hframe⟩ := hstep
  rw [record_none]
  refine h.change hl (fun id hid => ⟨hframe id hid, rfl, ?_⟩) (hd.sound (h.sound _)) (fun userId => ?_) fun userId => ?_
  · exact record_of_ne hid
  · rw [h.credited, hd.credit_eq]
  · rw [record_of_eq, hd.debit_eq (h.sound orderId), h.moved, hbalance]
    omega

theorem BooksInv.neutral (hbooks : ∀ orderId, book next orderId = book s.db orderId) (hframe : RecoveryFrame s.db next) :
    BooksInv ⟨next, record s.credited none s.db next, record s.moved none s.db next⟩ := by
  rw [record_none, record_none]
  exact h.same hbooks (h.linked.of_frame hframe)

theorem BooksInv.creates [Sha256] {userId : String} {request : CreatePaymentOrderRequest}
    {o : StoreOrder} (hcreated : OrderCreated s.db next userId request o) :
    BooksInv ⟨next, record s.credited none s.db next, record s.moved none s.db next⟩ := by
  rw [record_none, record_none]
  obtain ⟨hnone, hnew, hother⟩ := hcreated.books
  obtain ⟨hreward, hescrow⟩ := (h.sound o.id).absent hnone
  have hframe : RecoveryFrame s.db next := by
    rw [hcreated.frame]
    exact ⟨rfl, rfl, rfl, rfl, rfl⟩
  refine h.change (h.linked.of_frame hframe) (fun id hid => ⟨hother id hid, rfl, rfl⟩) ?_ (fun userId => ?_) fun userId => ?_
  · rw [hnew]
    refine ⟨nofun, ?_, fun _ _ _ _ => hreward, fun a ha => ?_⟩
    · intro c hc
      cases hc
    · cases hescrow.symm.trans ha
  · rw [h.credited, hnew]
    rfl
  · rw [h.moved, hnew]
    simp only [Book.debit, hescrow]

theorem BooksInv.recovered {target : Option String} (htarget : target = some orderId)
    (hstep : BookStep Book.Recovers orderId s.db next) (hl : Linked next) :
    BooksInv ⟨next, record s.credited none s.db next, record s.moved target s.db next⟩ :=
  htarget ▸ h.recovers hstep hl

theorem BooksInv.sales (hframe : SalesFrame s.db next) :
    BooksInv ⟨next, record s.credited none s.db next, record s.moved none s.db next⟩ := by
  rw [hframe]
  exact h.neutral (fun _ => rfl) ⟨rfl, rfl, rfl, rfl, rfl⟩

theorem BooksInv.did [Sha256] (e : StoreEvent) : StoreDid s.db e (applyStoreEvent s.db e) := by
  cases e with
  | payment input fence thenFulfill now ids =>
    rcases applyVerifiedPaymentInner_inv s.db input fence thenFulfill now ids rfl with
      hquiet | ⟨o, a, applied, -, -, -, -, happlied, hnext | ⟨time, hfulfill⟩⟩
    · exact .quiet hquiet
    · exact .paid (hnext ▸ happlied)
    · rcases fulfillPaidOrderInner_inv hfulfill with hsame | ⟨o', ho', hfulfilled⟩
      · exact .paid (hsame ▸ happlied)
      · exact .credited happlied ho' hfulfilled
  | fulfill orderId fence now ids =>
    apply StoreDid.call
    intro a next hok
    obtain ⟨next', hnext, heq⟩ := map_eq_ok.1 hok
    cases heq
    rcases fulfillPaidOrderInner_inv hnext with rfl | ⟨o, ho, hfulfilled⟩
    · exact .nothing _
    · exact .fulfill ho hfulfilled
  | createOrder shop userId request snapshot now ids =>
    apply StoreDid.call
    intro a next hok
    rcases createStoreOrder_inv hok with rfl | ⟨o, hcreated⟩
    · exact .nothing _
    · exact .createOrder hcreated
  | attempts table => exact .attempts table
  | beginRefund input now ids =>
    apply StoreDid.call
    intro a next hok
    rcases beginRefundWithOutcome_inv hok with rfl | ⟨o, r, ensured, reserved, ho, hrefundable, hreserved, hopened⟩
    · exact .nothing _
    · exact .beginRefund ho hrefundable hreserved hopened
  | markRefundPending refundId given =>
    apply StoreDid.call
    intro a next hok
    simp only [markRefundPendingOutcome, ok_iff] at hok
    obtain ⟨_, -, hmark⟩ := hok
    rcases markRefundPendingOutcomeIn_inv hmark with rfl | ⟨f, provider, hf, hopen, rfl⟩
    · exact .nothing _
    · exact .markRefundPending hf hopen
  | rejectRefund refundId now ids =>
    apply StoreDid.call
    intro a next hok
    rcases rejectRefund_inv hok with rfl | ⟨m, released, hrejected⟩
    · exact .nothing _
    · exact .rejectRefund hrejected (hrejected.spec h.linked).1
  | completeRefund refundId now =>
    apply StoreDid.call
    intro a next hok
    rcases completeRefund_inv hok with ⟨rfl, -⟩ | ⟨m, hcompleted⟩
    · exact .nothing _
    · exact .completeRefund hcompleted
  | openClaim input now ids =>
    apply StoreDid.call
    intro a next hok
    rcases openClaim_inv hok with rfl | ⟨o, r, ensured, reserved, ho, hkind, hreserved, hopened⟩
    · exact .nothing _
    · exact .openClaim ho hkind hreserved hopened
  | winClaim claimId now ids =>
    apply StoreDid.call
    intro a next hok
    rcases winClaim_inv hok with rfl | ⟨m, hm, hothers, rfl⟩ | ⟨m, finalBalance, released, hwon⟩
    · exact .nothing _
    · exact .resolveClaim hm hothers
    · exact .winClaim hwon (hwon.spec h.sound).1
  | loseClaim claimId now ids =>
    apply StoreDid.call
    intro a next hok
    rcases loseClaim_inv hok with rfl | ⟨m, debited, hlost⟩
    · exact .nothing _
    · exact .loseClaim hlost (hlost.spec h.sound).1.1 (hlost.spec h.sound).1.2
  | closeUnpaid => exact .call fun _ _ => .closeUnpaid
  | charge => exact .call fun _ _ => .charge
  | setCommissionRate => exact .call fun _ _ => .setCommissionRate
  | insertAgent => exact .call fun _ _ => .insertAgent
  | setAgentEnabled => exact .call fun _ _ => .setAgentEnabled
  | setOwnDiscount => exact .call fun _ _ => .setOwnDiscount

theorem StoreDid.books [Sha256] {e : StoreEvent} (hd : StoreDid s.db e next) :
    BooksInv ⟨next, record s.credited e.paidOrder s.db next, record s.moved (e.recoveredOrder s.db) s.db next⟩ := by
  cases hd with
  | nothing => exact h.stay _ _
  | quiet hquiet => exact h.pays (hquiet.sameBooks.step Book.Pays.idle _) (h.linked.of_frame hquiet.frame)
  | paid happlied => exact h.pays (happlied.sameBooks.step Book.Pays.idle _) (h.linked.of_frame happlied.frame)
  | credited happlied ho hfulfilled =>
    exact h.pays ((hfulfilled.bookStep ho).after happlied.sameBooks)
      (h.linked.of_frame (happlied.frame.trans hfulfilled.frame))
  | fulfill ho hfulfilled => exact h.pays (hfulfilled.bookStep ho) (h.linked.of_frame hfulfilled.frame)
  | beginRefund ho _ hreserved hopened =>
    obtain ⟨hlinked, r', hr', hid⟩ := hreserved.linked h.linked
    rw [← hid] at hopened
    exact h.recovers (hreserved.bookStep ho hopened.sameBooks) (hlinked.openRefund hopened hr')
  | markRefundPending =>
    refine h.quiet ?_ ?_ _ _
    · exact ⟨rfl, fun _ => rfl⟩
    · exact h.linked.updateRefunds (f := Refund.withPending _) (fun _ => rfl) (fun _ => ⟨rfl, rfl⟩) rfl rfl rfl
  | rejectRefund hrejected _ =>
    exact h.recovered hrejected.rows.refundOrder (hrejected.spec h.linked).2 (hrejected.linked h.linked)
  | completeRefund hcompleted =>
    exact h.recovered hcompleted.rows.refundOrder (hcompleted.bookStep h.linked) (hcompleted.linked h.linked)
  | openClaim ho hkind hreserved hopened =>
    obtain ⟨hlinked, r', hr', hid⟩ := hreserved.linked h.linked
    rw [← hid] at hopened
    exact h.recovers (hreserved.bookStep ho hopened.sameBooks) (hlinked.openClaim hopened hkind hr')
  | resolveClaim =>
    refine h.quiet ?_ ?_ _ _
    · exact ⟨rfl, fun _ => rfl⟩
    · exact h.linked.settleClaim _ .resolved
  | winClaim hwon _ => exact h.recovered hwon.rows.claimOrder (hwon.spec h.sound).2 (hwon.linked h.sound h.linked)
  | loseClaim hlost _ _ => exact h.recovered hlost.rows.claimOrder (hlost.spec h.sound).2 (hlost.linked h.sound h.linked)
  | attempts => exact h.neutral (fun _ => rfl) ⟨rfl, rfl, rfl, rfl, rfl⟩
  | createOrder hcreated => exact h.creates hcreated
  | closeUnpaid hok =>
    obtain ⟨p, -, hnext⟩ := closeConfirmedUnpaidAdmin_inv hok
    rw [hnext]
    refine h.neutral (SameBooks.books ?_) ⟨rfl, rfl, rfl, rfl, rfl⟩
    exact SameBooks.of_orders (f := StoreOrder.withPaymentState .closed) (fun _ => rfl) rfl rfl rfl rfl
      (withPaymentState_face .closed)
  | charge hok => exact h.neutral (chargeUserBalanceNano_books hok) (chargeUserBalanceNano_frame hok)
  | setCommissionRate hok => exact h.sales (setCommissionRateBp_frame hok)
  | insertAgent hok => exact h.sales (insertAgent_frame hok)
  | setAgentEnabled hok => exact h.sales (updateAgent_frame hok)
  | setOwnDiscount hok => exact h.sales (setOwnDiscount_frame hok)

theorem storeStep_books [Sha256] (hst : StoreStep s t) : BooksInv t := by
  obtain ⟨e⟩ := hst
  exact StoreDid.books h (h.did e)

omit h

def StoreEvent.isRecovery : StoreEvent → Prop
  | .beginRefund .. => True
  | .markRefundPending .. => True
  | .rejectRefund .. => True
  | .completeRefund .. => True
  | .openClaim .. => True
  | .winClaim .. => True
  | .loseClaim .. => True
  | _ => False

structure SoundStore (db : Database) : Prop where
  books : ∀ orderId, (book db orderId).Sound
  linked : Linked db

def bookedState (db : Database) : StoreState where
  db := db
  credited := fun orderId userId => (book db orderId).credit userId
  moved := fun orderId userId => (book db orderId).debit userId

theorem SoundStore.booksInv (h : SoundStore db) : BooksInv (bookedState db) :=
  ⟨h.books, fun _ _ => rfl, fun _ _ => rfl, h.linked⟩

theorem applyStoreEvent_sound [Sha256] (h : SoundStore db) (e : StoreEvent) : SoundStore (applyStoreEvent db e) := by
  have hstep : StoreStep (bookedState db) ((bookedState db).run e) := .run _ e
  have hnext := storeStep_books h.booksInv hstep
  exact ⟨hnext.sound, hnext.linked⟩

theorem SalesFrame.recoveryFrame (h : SalesFrame db next) : RecoveryFrame db next := by
  rw [h]
  exact ⟨rfl, rfl, rfl, rfl, rfl⟩

theorem StoreDid.recoveryFrame [Sha256] {e : StoreEvent} (hd : StoreDid db e next) (h : ¬ e.isRecovery) :
    RecoveryFrame db next := by
  cases hd with
  | nothing => exact RecoveryFrame.refl _
  | quiet hquiet => exact hquiet.frame
  | paid happlied => exact happlied.frame
  | credited happlied _ hfulfilled => exact happlied.frame.trans hfulfilled.frame
  | fulfill _ hfulfilled => exact hfulfilled.frame
  | attempts => exact ⟨rfl, rfl, rfl, rfl, rfl⟩
  | createOrder hcreated =>
    rw [hcreated.frame]
    exact ⟨rfl, rfl, rfl, rfl, rfl⟩
  | closeUnpaid hok =>
    obtain ⟨p, -, hnext⟩ := closeConfirmedUnpaidAdmin_inv hok
    rw [hnext]
    exact ⟨rfl, rfl, rfl, rfl, rfl⟩
  | charge hok => exact chargeUserBalanceNano_frame hok
  | setCommissionRate hok => exact (setCommissionRateBp_frame hok).recoveryFrame
  | insertAgent hok => exact (insertAgent_frame hok).recoveryFrame
  | setAgentEnabled hok => exact (updateAgent_frame hok).recoveryFrame
  | setOwnDiscount hok => exact (setOwnDiscount_frame hok).recoveryFrame
  | _ => exact absurd trivial h

theorem booksInv_initial (h : StoreInitial s) : BooksInv s := by
  have hreward (orderId : String) : s.db.reward? orderId = none :=
    List.find?_eq_none.2 fun row hrow hkey => h.ledger_key row hrow orderId (of_decide_eq_true hkey)
  have hrecovery (orderId : String) : s.db.recovery? orderId = none := by
    rw [Database.recovery?, h.no_recovery]
    rfl
  have hbook (orderId : String) : (book s.db orderId).reward = none ∧ (book s.db orderId).escrow = none := by
    simp only [book, hreward, hrecovery, Option.map_none, and_self]
  refine ⟨fun orderId => ⟨fun _ => hbook orderId, ?_, fun _ _ _ _ => (hbook orderId).1, ?_⟩, ?_, ?_, ?_⟩
  · intro c hc
    obtain ⟨o, ho, hface⟩ := Option.map_eq_some_iff.1 hc
    have hfulfilled := (Prod.mk.injEq .. ▸ hface).2
    exact absurd (of_decide_eq_true hfulfilled) (h.unfulfilled o (Table.mem_of_find? ho))
  · intro a ha
    cases (hbook orderId).2.symm.trans ha
  · intro orderId userId
    rw [h.credited, Book.credit, (hbook orderId).1]
  · intro orderId userId
    rw [h.moved, Book.debit, (hbook orderId).2]
  · constructor
    · rw [h.no_claim]
      intro _ hc
      cases hc
    · rw [h.no_claim]
      intro _ hc
      cases hc

theorem reachable_books [Sha256] (h : Reachable StoreInitial StoreStep s) : BooksInv s :=
  h.invariant (fun _ => booksInv_initial) (fun _ _ h => storeStep_books h)

end Monoize
