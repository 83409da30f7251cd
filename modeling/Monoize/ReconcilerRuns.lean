import Monoize.CommissionMoves
import Monoize.Reconciler

/-! Runs of the reconciler side by side. Only an acquisition writes the lease, a transaction whose fence is lost changes
nothing, and every path through a run carries the fence of its own lease. -/

namespace Monoize

open Concurrent Fallible MachineInt Relational Transition Fallibly.Follows

variable {s t : ReconcilerStore} {candidate : RefundReconciliationCandidate} {fence : ReconciliationFence}
  {db next : Database} {refundId orderId : String} {providerRefundId : Option String} {now : Instant} {done : Bool}
  {input : ApplyProviderEventInput} {a : ReconcilerAct} {answer : a.Answer}

def settle {ε α : Type} (s : ReconcilerStore) : Except ε (α × ReconcilerStore) → Except ε α × ReconcilerStore
  | .ok (value, t) => (.ok value, t)
  | .error e => (.error e, s)

def ReadsUpTo {α : Type} (candidate : α → Prop) (answer : Except ReconciliationError (List α)) : Prop :=
  ∃ found, answer = .ok found ∧ found.length ≤ batchSize ∧ ∀ a ∈ found, candidate a

def ReconcilerAct.Performs [Sha256] :
    (a : ReconcilerAct) → ReconcilerStore → a.Answer → ReconcilerStore → Prop
  | acquireLease ownerId now, s, answer, t => (answer, t) = Monoize.acquireLease s ownerId now
  | expiredPaymentCandidates now, s, answer, t => t = s ∧ ReadsUpTo (PaymentCandidate s now) answer
  | refundQueryCandidates now, s, answer, t => t = s ∧ ReadsUpTo (RefundQueryCandidate s now) answer
  | refundAlertCandidates now, s, answer, t => t = s ∧ ReadsUpTo (RefundAlertCandidate s now) answer
  | fulfillmentCandidates now, s, answer, t => t = s ∧ ReadsUpTo (FulfillmentCandidate s now) answer
  | elapsedSeconds, s, _, t => t = s
  | newUuid, s, _, t => t = s
  | queryAttempt _, s, _, t => t = s
  | queryRefund .., s, _, t => t = s
  | openRefundPendingCase candidate fence, s, answer, t =>
    (answer, t) = settle s (Monoize.openRefundPendingCase s candidate fence)
  | scheduleRefundQuery candidate projectPending providerRefundId errorCategory fence, s, answer, t =>
    (answer, t) = settle s
      (Monoize.scheduleRefundQuery s candidate projectPending providerRefundId errorCategory fence)
  | completeRefundQuery candidate projection fence, s, answer, t =>
    ∃ ids, (answer, t) = settle s (Monoize.completeRefundQuery s candidate projection fence ids)
  | releaseUnpresentedAttempt attemptId fence, s, answer, t =>
    (answer, t) = settle s (Monoize.releaseUnpresentedAttempt s attemptId fence)
  | expireAttempt attemptId fence, s, answer, t => (answer, t) = settle s (Monoize.expireAttempt s attemptId fence)
  | scheduleFulfillmentRetry orderId fence, s, answer, t =>
    (answer, t) = settle s (Monoize.scheduleFulfillmentRetry s orderId fence)
  | applyVerifiedPayment input fence, s, answer, t =>
    ∃ ids, (answer, t) = applyVerifiedPaymentFenced s input fence ids
  | fulfillPaidOrder orderId fence, s, answer, t =>
    ∃ ids, (answer, t) = settle s (fulfillPaidOrderFenced s orderId fence ids)
  | upsertPaymentQueryCase attemptId orderId channelId category severity now, s, answer, t =>
    answer = .ok () ∧ t = Monoize.upsertPaymentQueryCase s attemptId orderId channelId category severity now
  | closePaymentQueryCase attemptId now, s, answer, t =>
    answer = .ok () ∧ t = Monoize.closePaymentQueryCase s attemptId now

def ReconcilerAct.Fails : (a : ReconcilerAct) → a.Answer → Prop
  | acquireLease .., answer | expiredPaymentCandidates _, answer | refundQueryCandidates _, answer
  | refundAlertCandidates _, answer | fulfillmentCandidates _, answer | openRefundPendingCase .., answer
  | scheduleRefundQuery .., answer | completeRefundQuery .., answer | releaseUnpresentedAttempt .., answer
  | expireAttempt .., answer | scheduleFulfillmentRetry .., answer | applyVerifiedPayment .., answer
  | fulfillPaidOrder .., answer | upsertPaymentQueryCase .., answer | closePaymentQueryCase .., answer =>
    ∃ message, answer = .error (.storage message)
  | elapsedSeconds, _ | newUuid, _ | queryAttempt _, _ | queryRefund .., _ => False

structure RunPosition where
  elapsed : Nat := 0
  lease : Option ReconciliationLease := none

def takenLease (ownerId : String) (epoch : Int) (now : Instant) : ReconciliationLease :=
  ⟨leaseName, ownerId, epoch, timestamp (now + seconds leaseSeconds)⟩

def RunPosition.Advance (p : RunPosition) : (a : ReconcilerAct) → a.Answer → RunPosition → Prop
  | .elapsedSeconds, elapsed, q => p.elapsed ≤ elapsed ∧ q = { p with elapsed := elapsed }
  | .acquireLease ownerId now, answer, q => q = { p with
      lease := match answer with
        | .ok epoch => some (takenLease ownerId epoch now)
        | .error _ => p.lease }
  | _, _, q => q = p

structure ReconcilerRun where
  ownerId : String
  now : Instant
  position : RunPosition := {}
  rest : Process ReconcilerAct.Answer (Except ReconciliationError ReconciliationOutcome)

structure Reconcilers where
  store : ReconcilerStore
  runs : List ReconcilerRun

def Reconcilers.Acts [Sha256] (i : Nat) (s t : Reconcilers) : Prop :=
  ∃ run a next answer store position, s.runs[i]? = some run ∧ run.rest = .act a next ∧
    a.Performs s.store answer store ∧ run.position.Advance a answer position ∧
    t = ⟨store, s.runs.set i { run with
      position := position
      rest := next answer }⟩

def Reconcilers.Errs (i : Nat) (s t : Reconcilers) : Prop :=
  ∃ run a next answer, s.runs[i]? = some run ∧ run.rest = .act a next ∧ a.Fails answer ∧
    t = ⟨s.store, s.runs.set i { run with rest := next answer }⟩

/-- Any number of runs start, act, fail and pause; everyone else may change anything but the leases. -/
inductive ReconcilersStep [Sha256] : Reconcilers → Reconcilers → Prop
  | start (s : Reconcilers) (reconciler : StoreReconciler) (ownerId : String) (now : Instant) :
      ReconcilersStep s ⟨s.store, s.runs ++ [⟨ownerId, now, {}, runOnce reconciler ownerId now⟩]⟩
  | act (i : Nat) {s t : Reconcilers} : s.Acts i t → ReconcilersStep s t
  | err (i : Nat) {s t : Reconcilers} : s.Errs i t → ReconcilersStep s t
  | other (s : Reconcilers) (store : ReconcilerStore) :
      store.db.reconciliationLeases = s.store.db.reconciliationLeases → ReconcilersStep s ⟨store, s.runs⟩

abbrev Reconcilers.Reached [Sha256] : Reconcilers → Prop := Reachable (fun s => s.runs = []) ReconcilersStep

def Reconcilers.epoch (s : Reconcilers) : Int := ((lease? s.store.db).map (·.epoch)).getD 0

def ReconcilerAct.fence? : ReconcilerAct → Option ReconciliationFence
  | openRefundPendingCase _ fence => some fence
  | scheduleRefundQuery _ _ _ _ fence => some fence
  | completeRefundQuery _ _ fence => some fence
  | releaseUnpresentedAttempt _ fence => some fence
  | expireAttempt _ fence => some fence
  | scheduleFulfillmentRetry _ fence => some fence
  | applyVerifiedPayment _ fence => some fence
  | fulfillPaidOrder _ fence => some fence
  | _ => none

def ReconcilerAct.isAcquisition : ReconcilerAct → Bool
  | acquireLease .. => true
  | _ => false

def SameLeases (s t : ReconcilerStore) : Prop := t.db.reconciliationLeases = s.db.reconciliationLeases

theorem settle_sameLeases {ε α : Type} {x : Except ε (α × ReconcilerStore)} {answer : Except ε α}
    (h : (answer, t) = settle s x) (hx : ∀ value next, x = .ok (value, next) → SameLeases s next) : SameLeases s t := by
  cases x with
  | error e =>
    cases h
    rfl
  | ok result =>
    cases h
    exact hx result.1 result.2 rfl

theorem openRefundPendingCase_sameLeases {opened : Bool} (h : openRefundPendingCase s candidate fence = .ok (opened, t)) :
    SameLeases s t := by
  simp only [openRefundPendingCase, ok_iff] at h
  obtain ⟨_, -, row, -, pending, -, alertDueAt, -, h⟩ := h
  split at h
  · cases h
    rfl
  split at h
  · cases h
    rfl
  simp only [ok_iff] at h
  obtain ⟨retries, -, h⟩ := h
  cases h
  rfl

theorem markRefundPendingOutcomeIn_leases {record : RefundRecord}
    (h : markRefundPendingOutcomeIn db refundId providerRefundId = .ok (record, next)) :
    next.reconciliationLeases = db.reconciliationLeases := by
  rcases markRefundPendingOutcomeIn_inv h with rfl | ⟨_, _, -, -, rfl⟩ <;> rfl

theorem liftRecovery_eq_ok {α : Type} {x : Except RecoveryError α} {value : α} :
    liftRecovery x = .ok value ↔ x = .ok value := by
  cases x <;> simp [liftRecovery]

theorem scheduleRefundQuery_sameLeases {projectPending : Bool} {errorCategory : Option String}
    (h : scheduleRefundQuery s candidate projectPending providerRefundId errorCategory fence = .ok ((), t)) :
    SameLeases s t := by
  simp only [scheduleRefundQuery, ok_iff] at h
  obtain ⟨_, -, row, -, h⟩ := h
  split at h
  · cases h
    rfl
  simp only [ok_iff] at h
  obtain ⟨db, hdb, attemptCount, -, nextAttemptAt, -, alertDueAt, -, h⟩ := h
  have hleases : db.reconciliationLeases = s.db.reconciliationLeases := by
    split at hdb
    · simp only [ok_iff, liftRecovery_eq_ok] at hdb
      obtain ⟨⟨record, next⟩, hmark, rfl⟩ := hdb
      exact markRefundPendingOutcomeIn_leases hmark
    · cases hdb
      rfl
  split at h
  · cases h
    exact hleases
  · cases h
    exact hleases

theorem markIfGiven_leases (h : markIfGiven db refundId providerRefundId = .ok next) :
    next.reconciliationLeases = db.reconciliationLeases := by
  cases providerRefundId with
  | none =>
    cases h
    rfl
  | some provider =>
    simp only [markIfGiven, ok_iff, liftRecovery_eq_ok] at h
    obtain ⟨⟨record, marked⟩, hmark, rfl⟩ := h
    exact markRefundPendingOutcomeIn_leases hmark

theorem RewardReleased.leases {o : StoreOrder} {recovery : RewardRecovery} {delta : Int} {ledgerId : String}
    (h : RewardReleased db next o recovery delta now ledgerId) : next.reconciliationLeases = db.reconciliationLeases := by
  obtain ⟨-, balance, -, h⟩ := h
  simp only [releaseReward, applyRecoveryDelta, ok_iff] at h
  obtain ⟨credited, ⟨total, -, ledger, -, rfl⟩, rfl⟩ := h
  rfl

variable {projection : RefundQueryProjection}

theorem projectRefundQuery_leases {ids : RecoveryIds} (h : projectRefundQuery db refundId now ids projection = .ok next) :
    next.reconciliationLeases = db.reconciliationLeases := by
  cases projection with
  | alreadyTerminal => cases h
  | pending provider => cases h
  | succeeded provider =>
    simp only [projectRefundQuery, ok_iff, liftRecovery_eq_ok] at h
    obtain ⟨marked, hmarked, ⟨_, completed⟩, hcomplete, rfl⟩ := h
    rw [← markIfGiven_leases hmarked]
    rcases completeRefund_inv hcomplete with ⟨rfl, -⟩ | ⟨m, -, -, -, hframe, -⟩
    · rfl
    · rw [hframe]
  | failed provider =>
    simp only [projectRefundQuery, ok_iff, liftRecovery_eq_ok] at h
    obtain ⟨marked, hmarked, ⟨_, rejected⟩, hreject, rfl⟩ := h
    rw [← markIfGiven_leases hmarked]
    rcases rejectRefund_inv hreject with rfl | ⟨m, released, -, -, hreleased, rfl⟩
    · rfl
    rcases releaseIfLast_inv hreleased with ⟨rfl, -⟩ | hrelease
    · rfl
    · have hleases := hrelease.leases
      exact hleases

theorem closeCase_sameLeases (s : ReconcilerStore) (caseId : String) (now : Instant) :
    SameLeases s (closeCase s caseId now) := by
  unfold closeCase
  split <;> rfl

theorem completeRefundQuery_sameLeases {ids : RecoveryIds}
    (h : completeRefundQuery s candidate projection fence ids = .ok (done, t)) : SameLeases s t := by
  simp only [completeRefundQuery, ok_iff] at h
  obtain ⟨_, -, refund, -, order, -, _, -, terminal, hterminal, h⟩ := h
  cases terminal with
  | none =>
    cases h
    rfl
  | some db =>
    have hleases : db.reconciliationLeases = s.db.reconciliationLeases := by
      unfold terminalRefund at hterminal
      split at hterminal
      · cases hterminal
        rfl
      split at hterminal
      · cases hterminal
      split at hterminal
      · cases hterminal
      · simp only [map_eq_ok, Option.some.injEq, exists_eq_right] at hterminal
        exact projectRefundQuery_leases hterminal
    cases h
    exact (closeCase_sameLeases _ _ _).trans hleases

theorem releaseUnpresentedAttempt_sameLeases {attemptId : String}
    (h : releaseUnpresentedAttempt s attemptId fence = .ok (done, t)) : SameLeases s t := by
  simp only [releaseUnpresentedAttempt, ok_iff] at h
  obtain ⟨_, -, ⟨attempt, order⟩, -, h⟩ := h
  split at h
  · cases h
    rfl
  simp only [ok_iff] at h
  obtain ⟨attempts, -, h⟩ := h
  cases h
  rfl

theorem expireAttempt_sameLeases {attemptId : String} (h : expireAttempt s attemptId fence = .ok (done, t)) :
    SameLeases s t := by
  simp only [expireAttempt, ok_iff] at h
  obtain ⟨_, -, ⟨attempt, order⟩, -, h⟩ := h
  split at h
  · cases h
    rfl
  simp only [ok_iff] at h
  obtain ⟨expiry, -, h⟩ := h
  split at h
  · cases h
    rfl
  simp only [ok_iff] at h
  obtain ⟨attempts, -, orders, -, h⟩ := h
  cases h
  rfl

theorem scheduleFulfillmentRetry_sameLeases (h : scheduleFulfillmentRetry s orderId fence = .ok ((), t)) :
    SameLeases s t := by
  simp only [scheduleFulfillmentRetry, ok_iff] at h
  obtain ⟨_, -, order, -, h⟩ := h
  split at h
  · cases h
    rfl
  simp only [ok_iff] at h
  obtain ⟨_, -, attemptCount, -, h⟩ := h
  cases h
  rfl

theorem applyVerifiedPaymentInner_projection [Sha256] (db : Database)
    (input : ApplyProviderEventInput) (fence : Option ReconciliationFence) (now : Instant) (ids : FulfillmentIds) :
    (applyVerifiedPaymentInner db input fence false now ids).2 = db ∨
      ∃ projection, projectPayment db input fence =
        .ok (projection, (applyVerifiedPaymentInner db input fence false now ids).2) := by
  cases hproject : validateInput input >>= fun _ => projectPayment db input fence with
  | error e =>
    left
    rw [applyVerifiedPaymentInner, hproject]
  | ok result =>
    right
    have hvalue := hproject
    rw [bind_eq_ok] at hvalue
    obtain ⟨_, -, hvalue⟩ := hvalue
    obtain ⟨projection, next⟩ := result
    refine ⟨projection, ?_⟩
    rw [hvalue, applyVerifiedPaymentInner, hproject]
    cases projection with
    | settled result => rfl
    | applied hold => simp only [or_true, if_true]

theorem applyVerifiedPaymentFenced_sameLeases [Sha256] {ids : FulfillmentIds}
    {answer : Except CallbackStoreError CallbackApplyResult}
    (h : (answer, t) = applyVerifiedPaymentFenced s input fence ids) : SameLeases s t := by
  unfold applyVerifiedPaymentFenced at h
  split at h
  · cases h
    rfl
  cases h
  rcases applyVerifiedPaymentInner_projection s.db input (some fence) fence.now ids with
    hsame | ⟨projection, hproject⟩
  · exact congrArg Database.reconciliationLeases hsame
  · rcases projectPayment_inv hproject with ⟨_, -, hquiet⟩ | ⟨_, _, -, -, -, -, -, happlied⟩
    · exact hquiet.frame.leases
    · exact happlied.frame.leases

theorem ReconcilerAct.Performs.sameLeases [Sha256] (h : a.Performs s answer t) (ha : a.isAcquisition = false) :
    SameLeases s t := by
  cases a with
  | acquireLease ownerId now => cases ha
  | expiredPaymentCandidates _ | refundQueryCandidates _ | refundAlertCandidates _ | fulfillmentCandidates _ =>
    exact congrArg (·.db.reconciliationLeases) h.1
  | elapsedSeconds | newUuid | queryAttempt _ | queryRefund _ _ => exact congrArg (·.db.reconciliationLeases) h
  | openRefundPendingCase candidate fence =>
    exact settle_sameLeases h fun _ _ hok => openRefundPendingCase_sameLeases hok
  | scheduleRefundQuery candidate projectPending providerRefundId errorCategory fence =>
    exact settle_sameLeases h fun _ _ hok => scheduleRefundQuery_sameLeases hok
  | completeRefundQuery candidate projection fence =>
    obtain ⟨ids, h⟩ := h
    exact settle_sameLeases h fun _ _ hok => completeRefundQuery_sameLeases hok
  | releaseUnpresentedAttempt attemptId fence =>
    exact settle_sameLeases h fun _ _ hok => releaseUnpresentedAttempt_sameLeases hok
  | expireAttempt attemptId fence => exact settle_sameLeases h fun _ _ hok => expireAttempt_sameLeases hok
  | scheduleFulfillmentRetry orderId fence =>
    exact settle_sameLeases h fun _ _ hok => scheduleFulfillmentRetry_sameLeases hok
  | applyVerifiedPayment input fence =>
    obtain ⟨ids, h⟩ := h
    exact applyVerifiedPaymentFenced_sameLeases h
  | fulfillPaidOrder orderId fence =>
    obtain ⟨ids, h⟩ := h
    apply settle_sameLeases h
    intro _ next hok
    simp only [fulfillPaidOrderFenced, ok_iff] at hok
    obtain ⟨db, hdb, -, rfl⟩ := hok
    rcases fulfillPaidOrderInner_inv hdb with rfl | ⟨o, -, hfulfilled⟩
    · rfl
    · exact hfulfilled.frame.leases
  | upsertPaymentQueryCase attemptId orderId channelId category severity now =>
    rw [h.2]
    rfl
  | closePaymentQueryCase attemptId now =>
    rw [h.2]
    exact closeCase_sameLeases s _ now

def Superseded (l row : ReconciliationLease) : Prop := l.epoch ≤ row.epoch ∧ (row.epoch = l.epoch → row = l)

theorem Superseded.refl (l : ReconciliationLease) : Superseded l l := ⟨le_refl _, fun _ => rfl⟩

theorem Superseded.trans {l row row' : ReconciliationLease} (h : Superseded l row) (h' : Superseded row row') :
    Superseded l row' := by
  refine ⟨h.1.trans h'.1, fun heq => ?_⟩
  have hrow : row.epoch = l.epoch := by
    have := h.1
    have := h'.1
    omega
  rw [h'.2 (heq.trans hrow.symm), h.2 hrow]

def Held (db : Database) (l : ReconciliationLease) : Prop := ∃ row ∈ lease? db, Superseded l row

structure LeaseGrows (db next : Database) : Prop where
  held : ∀ row ∈ lease? db, Held next row
  fresh : lease? db = none → ∀ row ∈ lease? next, 0 ≤ row.epoch

theorem LeaseGrows.of_leases (h : next.reconciliationLeases = db.reconciliationLeases) : LeaseGrows db next := by
  have hlease : lease? next = lease? db := by rw [lease?, lease?, h]
  constructor
  · intro row hrow
    exact ⟨row, hlease ▸ hrow, .refl row⟩
  · intro hnone row hrow
    rw [hlease, hnone] at hrow
    cases hrow

theorem LeaseGrows.held_of (h : LeaseGrows db next) {l : ReconciliationLease} (hl : Held db l) : Held next l := by
  obtain ⟨row, hrow, hsuperseded⟩ := hl
  obtain ⟨row', hrow', hnext⟩ := h.held row hrow
  exact ⟨row', hrow', hsuperseded.trans hnext⟩

theorem find?_inserted_lease (leases : Table ReconciliationLease) :
    ((leases.insert? defaultLease).getD leases).find? (·.name = leaseName) =
      (leases.find? (·.name = leaseName)).or (some defaultLease) := by
  cases hinsert : leases.insert? defaultLease with
  | some inserted => exact Table.find?_insert hinsert _
  | none =>
    cases hfind : leases.find? (·.name = leaseName) with
    | some row => exact hfind
    | none =>
      have hfresh : ∀ row ∈ leases.rows, ¬ Clashes row defaultLease := by
        intro row hrow hclash
        have hname : row.name = leaseName := hclash
        exact List.find?_eq_none.1 hfind row hrow (decide_eq_true hname)
      obtain ⟨inserted, hsome⟩ := Table.exists_insert hfresh
      cases hinsert.symm.trans hsome

theorem lease?_inserted (s : ReconcilerStore) :
    ∃ found, ((s.db.reconciliationLeases.insert? defaultLease).getD s.db.reconciliationLeases).find?
        (·.name = leaseName) = some found ∧ found.name = leaseName ∧
      (lease? s.db = some found ∨ lease? s.db = none ∧ found = defaultLease) := by
  rw [find?_inserted_lease]
  cases hlease : s.db.reconciliationLeases.find? (·.name = leaseName) with
  | some row =>
    have hname := Table.of_find?_decide hlease
    exact ⟨row, rfl, hname, .inl hlease⟩
  | none => exact ⟨defaultLease, rfl, rfl, .inr ⟨hlease, rfl⟩⟩

theorem LeaseGrows.of_found {found row' : ReconciliationLease}
    (hfound : lease? db = some found ∨ lease? db = none ∧ found = defaultLease) (hnext : lease? next = some row')
    (h : Superseded found row') : LeaseGrows db next := by
  constructor
  · intro row hrow
    rcases hfound with hfound | ⟨hnone, -⟩
    · cases hfound.symm.trans hrow
      exact ⟨row', hnext, h⟩
    · cases hnone.symm.trans hrow
  · intro hnone row hrow
    rcases hfound with hfound | ⟨-, rfl⟩
    · cases hnone.symm.trans hfound
    · cases hnext.symm.trans hrow
      exact h.1

theorem acquireLease_inv {ownerId : String} {answer : Except ReconciliationError Int}
    (h : (answer, t) = acquireLease s ownerId now) :
    LeaseGrows s.db t.db ∧ ∀ epoch, answer = .ok epoch → lease? t.db = some (takenLease ownerId epoch now) := by
  obtain ⟨found, hfound, hname, hcase⟩ := lease?_inserted s
  unfold acquireLease at h
  simp only [hfound] at h
  split at h
  · cases h
    exact ⟨.of_found hcase hfound (.refl found), fun _ hok => by cases hok⟩
  split at h
  · cases h
    exact ⟨.of_leases rfl, fun _ hok => by cases hok⟩
  rename_i epoch hepoch
  cases h
  obtain ⟨rfl, -⟩ := checked_eq_some.1 hepoch
  have htaken : found.take ownerId (found.epoch + 1) now = takenLease ownerId (found.epoch + 1) now := by
    rw [ReconciliationLease.take, takenLease, hname]
  have hnext : lease? (withLeases s (((s.db.reconciliationLeases.insert? defaultLease).getD
      s.db.reconciliationLeases).update (·.name = leaseName)
      (ReconciliationLease.take ownerId (found.epoch + 1) now))).db =
      some (takenLease ownerId (found.epoch + 1) now) := by
    dsimp only [lease?, withLeases]
    rw [Table.find?_update, hfound, Option.map_some, if_pos (decide_eq_true hname), htaken]
    exact fun _ => rfl
  refine ⟨.of_found hcase hnext ⟨?_, fun heq => ?_⟩, fun epoch hok => ?_⟩
  · simp only [takenLease]
    omega
  · simp only [takenLease] at heq
    omega
  · cases hok
    exact hnext

theorem ReconcilerAct.Performs.leaseGrows [Sha256] (h : a.Performs s answer t) : LeaseGrows s.db t.db := by
  cases ha : a.isAcquisition with
  | false => exact .of_leases (h.sameLeases ha)
  | true =>
    cases a with
    | acquireLease ownerId now => exact (acquireLease_inv h).1
    | _ => cases ha

def FenceLost (db : Database) (fence : ReconciliationFence) : Prop :=
  ∀ row ∈ lease? db, ¬ (row.ownerId = fence.ownerId ∧ row.epoch = fence.epoch ∧ timestamp fence.now < row.expiresAt)

theorem FenceLost.validateLease (h : FenceLost db fence) : validateLease db fence = .error .leaseLost := by
  unfold Monoize.validateLease
  cases hlease : lease? db with
  | none => rfl
  | some row =>
    rw [orError_some, ok_bind]
    exact require_eq_error.2 ⟨h row hlease, rfl⟩

theorem FenceLost.validateFence (h : FenceLost db fence) : ∃ e, validateFence db (some fence) = .error e := by
  rw [Monoize.validateFence, validateReconciliationFence]
  cases hlease : db.reconciliationLeases.find? (·.name = "store_reconciler") with
  | none => exact ⟨_, rfl⟩
  | some row =>
    rw [orError_some, ok_bind]
    exact ⟨_, require_eq_error.2 ⟨h row hlease, rfl⟩⟩

theorem ReconcilerAct.Performs.of_fenceLost [Sha256] (h : a.Performs s answer t) (hfence : a.fence? = some fence)
    (hlost : FenceLost s.db fence) : t = s := by
  have hlease := hlost.validateLease
  obtain ⟨e, hcallback⟩ := hlost.validateFence
  cases a with
  | openRefundPendingCase _ _ | scheduleRefundQuery _ _ _ _ _ | releaseUnpresentedAttempt _ _ | expireAttempt _ _
  | scheduleFulfillmentRetry _ _ =>
    cases hfence
    simp only [ReconcilerAct.Performs, Monoize.openRefundPendingCase, Monoize.scheduleRefundQuery,
      Monoize.releaseUnpresentedAttempt, Monoize.expireAttempt, Monoize.scheduleFulfillmentRetry, hlease] at h
    cases h
    rfl
  | completeRefundQuery candidate projection f =>
    cases hfence
    obtain ⟨ids, h⟩ := h
    rw [Monoize.completeRefundQuery, hlease] at h
    cases h
    rfl
  | applyVerifiedPayment input f =>
    cases hfence
    obtain ⟨ids, h⟩ := h
    rw [applyVerifiedPaymentFenced] at h
    split at h
    · cases h
      rfl
    cases h
    rcases applyVerifiedPaymentInner_projection s.db input (some fence) fence.now ids with
      hsame | ⟨projection, hproject⟩
    · rw [hsame]
    · rw [projectPayment, hcallback] at hproject
      cases hproject
  | fulfillPaidOrder orderId f =>
    cases hfence
    obtain ⟨ids, h⟩ := h
    rw [fulfillPaidOrderFenced, fulfillPaidOrderInner, hcallback] at h
    cases h
    rfl
  | _ => cases hfence

/-- A run takes one lease, and its fences name the epoch of that lease and the last reading of its clock. -/
def Allowed (now : Instant) (p : RunPosition) (a : ReconcilerAct) : Prop :=
  (a.isAcquisition = true → p.lease = none) ∧
    ∀ fence ∈ a.fence?, ∃ l ∈ p.lease, fence.epoch = l.epoch ∧ fence.now = now + seconds p.elapsed

def Holding (session : ReconcilerSession) (p : RunPosition) : Prop := ∃ l ∈ p.lease, l.epoch = session.epoch

def FenceAt (session : ReconcilerSession) (p : RunPosition) (fence : ReconciliationFence) : Prop :=
  Holding session p ∧ fence.epoch = session.epoch ∧ fence.now = session.now + seconds p.elapsed

abbrev Follows (now : Instant) {ρ : Type} (post : RunPosition → ρ → Prop) (p : RunPosition) (program : Reconciling ρ) :
    Prop :=
  Fallibly.Follows (Allowed now) RunPosition.Advance post p program

abbrev KeepsHolding {ρ : Type} (session : ReconcilerSession) (p : RunPosition) (program : Reconciling ρ) : Prop :=
  Follows session.now (fun q _ => Holding session q) p program

section

variable {session : ReconcilerSession} {p : RunPosition} {ρ : Type}

theorem FenceAt.allowed (h : FenceAt session p fence) (ha : a.fence? = some fence) (hplain : a.isAcquisition = false) :
    Allowed session.now p a := by
  refine ⟨fun hacquire => absurd hacquire (hplain ▸ Bool.false_ne_true), fun f hf => ?_⟩
  cases ha.symm.trans hf
  obtain ⟨⟨l, hl, hepoch⟩, hfence, hnow⟩ := h
  exact ⟨l, hl, hfence.trans hepoch.symm, hnow⟩

theorem allowed_of_unfenced (ha : a.fence? = none) (hplain : a.isAcquisition = false) : Allowed now p a := by
  refine ⟨fun hacquire => absurd hacquire (hplain ▸ Bool.false_ne_true), fun f hf => ?_⟩
  cases ha.symm.trans hf

/-- A transaction that fails ends the run. -/
theorem transact_follows {α : Type} {post : RunPosition → ρ → Prop} {f : α → Reconciling ρ}
    {cast : a.Answer → Except ReconciliationError α} (ha : Allowed now p a)
    (hstay : ∀ answer q, p.Advance a answer q → q = p) (hf : ∀ value, Follows now post p (f value)) :
    Follows now post p (Fallibly.ask a >>= fun answer => Fallibly.attempt (cast answer) >>= f) := by
  apply ask_bind ha
  intro answer q hq
  rw [hstay answer q hq]
  exact .attempt_bind fun value _ => hf value

variable (h : Holding session p)

include h

theorem currentFence_follows : Follows session.now (FenceAt session) p (currentFence session) := by
  apply ask_bind (allowed_of_unfenced rfl rfl)
  rintro elapsed q ⟨-, rfl⟩
  apply attempt_bind
  intro fenceNow hnow
  apply Fallibly.Follows.pure
  simp only [reconciliationNow, ok_iff] at hnow
  obtain ⟨_, -, rfl⟩ := hnow
  exact ⟨h, rfl, rfl⟩

theorem fenced_follows {post : RunPosition → ρ → Prop} {f : ReconciliationFence → Reconciling ρ}
    (hf : ∀ q fence, FenceAt session q fence → Follows session.now post q (f fence)) :
    Follows session.now post p (currentFence session >>= f) :=
  .bind ((currentFence_follows h).mono hf)

variable (outcome : ReconciliationOutcome)

theorem reconcileFulfillment_follows (orderId : String) :
    KeepsHolding session p (reconcileFulfillment session outcome orderId) := by
  apply fenced_follows h
  intro q fence hfence
  apply ask_bind (hfence.allowed rfl rfl)
  rintro answer _ rfl
  split
  · exact .pure hfence.1
  · apply fenced_follows hfence.1
    intro r retryFence hretry
    exact transact_follows (hretry.allowed rfl rfl) (fun _ _ => id) fun _ => .pure hretry.1
  · exact .attempt nofun

theorem upsertCaseOf_follows (query : PaymentQueryOutcome) (attemptId category severity : String) (now : Instant) :
    KeepsHolding session p (upsertCaseOf query attemptId category severity now outcome) :=
  transact_follows (allowed_of_unfenced rfl rfl) (fun _ _ => id) fun _ => .pure h

theorem closeCaseOf_follows (attemptId : String) (now : Instant) :
    KeepsHolding session p (closeCaseOf attemptId now outcome) :=
  transact_follows (allowed_of_unfenced rfl rfl) (fun _ _ => id) fun _ => .pure h

omit h in
theorem reconcilePaid_follows [Sha256] (h : FenceAt session p fence)
    (query : PaymentQueryOutcome) (attemptId providerTransactionId : String) :
    KeepsHolding session p (reconcilePaid session query attemptId providerTransactionId fence outcome) := by
  apply ask_bind (allowed_of_unfenced rfl rfl)
  rintro eventRowId _ rfl
  apply ask_bind (h.allowed rfl rfl)
  rintro answer _ rfl
  split
  · refine .bind ((closeCaseOf_follows h.1 _ attemptId fence.now).mono fun q closed hq => ?_)
    split
    · exact .pure hq
    · exact reconcileFulfillment_follows hq closed query.orderId
  · exact closeCaseOf_follows h.1 outcome attemptId fence.now
  · exact upsertCaseOf_follows h.1 outcome query attemptId _ _ fence.now
  · exact .attempt nofun

omit h in
theorem reconcileNotPaid_follows (h : FenceAt session p fence) (query : PaymentQueryOutcome) (attemptId : String) :
    KeepsHolding session p (reconcileNotPaid query attemptId fence outcome) := by
  unfold reconcileNotPaid
  split
  · refine transact_follows (h.allowed rfl rfl) (fun _ _ => id) fun expired => ?_
    split
    · exact closeCaseOf_follows h.1 _ attemptId fence.now
    · exact .pure h.1
  · split
    · exact upsertCaseOf_follows h.1 outcome query attemptId _ _ fence.now
    refine transact_follows (h.allowed rfl rfl) (fun _ _ => id) fun released => ?_
    split
    · exact closeCaseOf_follows h.1 _ attemptId fence.now
    · exact upsertCaseOf_follows h.1 outcome query attemptId _ _ fence.now

theorem reconcilePayment_follows [Sha256] (attemptId : String) :
    KeepsHolding session p (reconcilePayment session outcome attemptId) := by
  apply ask_bind (allowed_of_unfenced rfl rfl)
  rintro answer _ rfl
  split
  · exact .attempt nofun
  · exact transact_follows (allowed_of_unfenced rfl rfl) (fun _ _ => id) fun _ => .pure h
  apply fenced_follows h
  intro q fence hfence
  split
  · exact reconcilePaid_follows _ hfence _ attemptId _
  · exact upsertCaseOf_follows hfence.1 _ _ attemptId _ _ fence.now
  · exact reconcileNotPaid_follows _ hfence _ attemptId

theorem reconcileRefund_follows (candidate : RefundReconciliationCandidate) :
    KeepsHolding session p (reconcileRefund session outcome candidate) := by
  apply ask_bind (allowed_of_unfenced rfl rfl)
  rintro result _ rfl
  apply fenced_follows h
  intro q fence hfence
  split
  · exact transact_follows (hfence.allowed rfl rfl) (fun _ _ => id) fun _ => .pure hfence.1
  · refine transact_follows (hfence.allowed rfl rfl) (fun _ _ => id) fun terminal => ?_
    split
    · exact .pure hfence.1
    · exact .pure hfence.1
  · exact .attempt nofun
  · exact transact_follows (hfence.allowed rfl rfl) (fun _ _ => id) fun _ => .pure hfence.1

theorem reconcileAlert_follows (candidate : RefundReconciliationCandidate) :
    KeepsHolding session p (reconcileAlert session outcome candidate) := by
  apply fenced_follows h
  intro q fence hfence
  exact transact_follows (hfence.allowed rfl rfl) (fun _ _ => id) fun _ => .pure hfence.1

omit h

theorem readIf_follows {α : Type} {enabled : Bool} {cast : a.Answer → Except ReconciliationError (List α)}
    {f : List α → Reconciling ρ} {post : RunPosition → ρ → Prop} (ha : Allowed now p a)
    (hstay : ∀ answer q, p.Advance a answer q → q = p) (hf : ∀ found, Follows now post p (f found)) :
    Follows now post p ((if enabled then (do
      let answer ← Fallibly.ask a
      Fallibly.attempt (cast answer)) else pure [] : Reconciling (List α)) >>= f) := by
  apply Fallibly.Follows.bind
  split
  · refine ask_bind ha ?_
    intro answer q hq
    rw [hstay answer q hq]
    exact .attempt fun found _ => hf found
  · exact .pure (hf [])

theorem reconcile_follows [Sha256] (reconciler : StoreReconciler) (h : Holding session p) :
    KeepsHolding session p (reconcile reconciler session) := by
  refine readIf_follows (allowed_of_unfenced rfl rfl) (fun _ _ => id) fun payments => ?_
  refine readIf_follows (allowed_of_unfenced rfl rfl) (fun _ _ => id) fun refunds => ?_
  refine transact_follows (allowed_of_unfenced rfl rfl) (fun _ _ => id) fun alerts => ?_
  refine transact_follows (allowed_of_unfenced rfl rfl) (fun _ _ => id) fun orders => ?_
  refine .bind ((foldlM (fun _ outcome candidate hq =>
    reconcileAlert_follows hq outcome candidate) alerts _ h).mono fun q alerted hq => ?_)
  refine .bind ((foldlM (fun _ outcome attemptId hq =>
    reconcilePayment_follows hq outcome attemptId) payments alerted hq).mono fun q paid hq => ?_)
  refine .bind ((foldlM (fun _ outcome candidate hq =>
    reconcileRefund_follows hq outcome candidate) refunds paid hq).mono fun q refunded hq => ?_)
  exact foldlM (fun _ outcome orderId hq =>
    reconcileFulfillment_follows hq outcome orderId) orders refunded hq

end

theorem runOnce_follows [Sha256] (reconciler : StoreReconciler) (ownerId : String)
    (now : Instant) : Follows now (fun _ _ => True) {} (runOnce reconciler ownerId now) := by
  apply attempt_bind
  intro _ _
  refine ask_bind ⟨fun _ => rfl, nofun⟩ ?_
  rintro answer _ rfl
  apply attempt_bind
  intro epoch hepoch
  have hholding : Holding ⟨ownerId, epoch, now⟩ { lease := some (takenLease ownerId epoch now) } :=
    ⟨_, rfl, rfl⟩
  rw [hepoch]
  exact (reconcile_follows reconciler hholding).mono fun _ _ _ => trivial

end Monoize
