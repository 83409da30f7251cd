import Monoize.ReconcilerRuns

/-! What a run of the reconciler can still change once another run has taken the lease with a higher epoch, or once
its own lease has expired. -/

namespace Monoize

open Concurrent Fallible MachineInt Relational Transition List Option Table Function

variable {s t : Reconcilers} {run : ReconcilerRun} {a : ReconcilerAct} {answer : a.Answer} {i : Nat}

variable {p q : RunPosition} {fence : ReconciliationFence} {now : Instant} {l : ReconciliationLease}

/-- A run with a higher epoch has the lease or had it, or the run's own fence time has reached its expiry. -/
def Reconcilers.Stale (s : Reconcilers) (run : ReconcilerRun) : Prop :=
  ∃ lease ∈ run.position.lease, (∃ other ∈ s.runs, ∃ newer ∈ other.position.lease, lease.epoch < newer.epoch) ∨
    lease.expiresAt ≤ timestamp (run.now + seconds run.position.elapsed)

def CaseStands (s : ReconcilerStore) (run : ReconcilerRun) : Prop :=
  match run.rest with
  | .act (.upsertPaymentQueryCase attemptId orderId channelId category severity now) _ =>
    (∃ c ∈ s.db.reconciliationCases.rows,
      c = { paymentQueryCase attemptId orderId channelId category severity with kind := c.kind }) ∧
    ∃ times ∈ s.caseTimes (paymentQueryCaseId attemptId),
      times.updatedAt = timestamp now ∧ times.closedAt = none
  | .act (.closePaymentQueryCase attemptId _) _ =>
    ∀ c ∈ s.db.reconciliationCases.rows, c.id = paymentQueryCaseId attemptId → c.state = "closed"
  | _ => True

structure RunSound (s : ReconcilerStore) (run : ReconcilerRun) : Prop where
  follows : run.rest.Follows (Allowed run.now) RunPosition.Advance (fun _ _ => True) run.position
  held : ∀ l ∈ run.position.lease, Held s.db l

theorem RunSound.grow {s t : ReconcilerStore} (h : RunSound s run) (hgrows : LeaseGrows s.db t.db) : RunSound t run :=
  ⟨h.follows, fun l hl => hgrows.held_of (h.held l hl)⟩

theorem RunPosition.Advance.held [Sha256] (h : p.Advance a answer q)
    {s t : ReconcilerStore} (hperforms : a.Performs s answer t) (hheld : ∀ l ∈ p.lease, Held s.db l) :
    ∀ l ∈ q.lease, Held t.db l := by
  have hgrows := hperforms.leaseGrows
  cases a with
  | acquireLease ownerId now =>
    intro l hl
    rw [h] at hl
    cases answer with
    | error e => exact hgrows.held_of (hheld l hl)
    | ok epoch =>
      cases hl
      exact ⟨_, (acquireLease_inv hperforms).2 epoch rfl, .refl _⟩
  | elapsedSeconds =>
    rw [h.2]
    exact fun l hl => hgrows.held_of (hheld l hl)
  | _ =>
    cases h
    exact fun l hl => hgrows.held_of (hheld l hl)

theorem ReconcilerAct.Fails.advance (h : a.Fails answer) (p : RunPosition) : p.Advance a answer p := by
  cases a with
  | acquireLease ownerId now =>
    obtain ⟨message, rfl⟩ := h
    rfl
  | elapsedSeconds => exact h.elim
  | _ => rfl

def Reconcilers.Sound (s : Reconcilers) : Prop := ∀ run ∈ s.runs, RunSound s.store run

theorem Reconcilers.Acts.leaseGrows [Sha256] (h : s.Acts i t) : LeaseGrows s.store.db t.store.db := by
  obtain ⟨run, a, next, answer, store, position, -, -, hperforms, -, rfl⟩ := h
  exact hperforms.leaseGrows

theorem ReconcilersStep.leaseGrows [Sha256] (h : ReconcilersStep s t) : LeaseGrows s.store.db t.store.db := by
  cases h with
  | start _ reconciler ownerId now => exact .of_leases rfl
  | act i h => exact h.leaseGrows
  | err i h =>
    obtain ⟨run, a, next, answer, -, -, -, rfl⟩ := h
    exact .of_leases rfl
  | other _ store hsame => exact .of_leases hsame

theorem LeaseGrows.epoch (h : LeaseGrows s.store.db t.store.db) : s.epoch ≤ t.epoch := by
  unfold Reconcilers.epoch
  cases hs : lease? s.store.db with
  | some row =>
    obtain ⟨row', hrow', hle, -⟩ := h.held row hs
    rw [hrow']
    exact hle
  | none =>
    cases ht : lease? t.store.db with
    | none => exact le_refl _
    | some row' => exact h.fresh hs row' ht

theorem ReconcilersStep.sound [Sha256] (hs : s.Sound) (h : ReconcilersStep s t) : t.Sound := by
  have hgrows := h.leaseGrows
  intro run' hrun'
  cases h with
  | start _ reconciler ownerId now =>
    rcases mem_append.1 hrun' with hrun | hrun
    · exact hs run' hrun
    · rw [mem_singleton.1 hrun]
      refine ⟨?_, nofun⟩
      exact Process.Follows.mono (fun _ _ _ => trivial) (runOnce_follows reconciler ownerId now)
  | act i h =>
    obtain ⟨run, a, next, answer, store, position, hrun, hrest, hperforms, hadvance, rfl⟩ := h
    rcases mem_or_eq_of_mem_set hrun' with hold | rfl
    · exact (hs run' hold).grow hgrows
    have hsound := hs run (mem_of_getElem? hrun)
    have hfollows := hsound.follows
    rw [hrest] at hfollows
    exact ⟨hfollows.2 answer position hadvance, hadvance.held hperforms hsound.held⟩
  | err i h =>
    obtain ⟨run, a, next, answer, hrun, hrest, hfails, rfl⟩ := h
    rcases mem_or_eq_of_mem_set hrun' with hold | rfl
    · exact hs run' hold
    have hsound := hs run (mem_of_getElem? hrun)
    have hfollows := hsound.follows
    rw [hrest] at hfollows
    exact ⟨hfollows.2 answer run.position (hfails.advance run.position), hsound.held⟩
  | other _ store hsame => exact (hs run' hrun').grow hgrows

theorem Reconcilers.Reached.sound [Sha256] (h : s.Reached) : s.Sound := by
  apply h.invariant
  · intro s hnone run hrun
    rw [hnone] at hrun
    cases hrun
  · exact fun s t hs hstep => hstep.sound hs

theorem Reconcilers.Stale.fenceLost (hs : s.Sound) (hrun : run ∈ s.runs) (h : s.Stale run)
    (ha : Allowed run.now run.position a) (hfence : a.fence? = some fence) : FenceLost s.store.db fence := by
  obtain ⟨l, hl, hstale⟩ := h
  obtain ⟨l', hl', hepoch, hnow⟩ := ha.2 fence hfence
  cases hl.symm.trans hl'
  obtain ⟨row, hrow, -, hsame⟩ := (hs run hrun).held l hl
  intro row' hrow' hvalid
  cases hrow.symm.trans hrow'
  have hrowEpoch : row.epoch = l.epoch := hvalid.2.1.trans hepoch
  rcases hstale with ⟨other, hother, newer, hnewer, hlt⟩ | hexpired
  · obtain ⟨row', hrow', hle, -⟩ := (hs other hother).held newer hnewer
    cases hrow.symm.trans hrow'
    omega
  · have hlive := hvalid.2.2
    rw [hsame hrowEpoch, hnow] at hlive
    omega

theorem upsertCases_eq_self (cases : Table ReconciliationCase) (case : ReconciliationCase) :
    (cases.insert? case).getD (cases.update (·.id = case.id) (mergePaymentQueryCase case)) = cases ↔
    ∃ c ∈ cases.rows, c = { case with kind := c.kind } := by
  cases hinsert : cases.insert? case with
  | some inserted =>
    obtain ⟨hfresh, hrows⟩ := insert?_eq_some.1 hinsert
    constructor
    · intro h
      have hlength := congrArg (fun t : Table ReconciliationCase => t.rows.length) h
      simp only [getD_some, hrows, length_append, length_singleton] at hlength
      omega
    · rintro ⟨c, hc, heq⟩
      have hid : c.id = case.id := by rw [heq]
      exact absurd hid (hfresh c hc)
  | none =>
    rw [Option.getD_none, Table.update_eq_self]
    constructor
    · intro h
      by_contra hnone
      have hfresh : ∀ c ∈ cases.rows, ¬ Clashes c case := by
        intro c hc hclash
        have hid : c.id = case.id := hclash
        have hmerge := h c hc (decide_eq_true hid)
        rw [mergePaymentQueryCase, hid] at hmerge
        exact hnone ⟨c, hc, hmerge.symm⟩
      obtain ⟨inserted, hsome⟩ := exists_insert hfresh
      cases hinsert.symm.trans hsome
    · rintro ⟨c, hc, heq⟩ row hrow hid
      have hcid : c.id = case.id := by rw [heq]
      have hclash : Clashes row c := (of_decide_eq_true hid).trans hcid.symm
      rw [eq_of_clashes hrow hc hclash, mergePaymentQueryCase, hcid]
      exact heq.symm

theorem upsertPaymentQueryCase_eq_self (s : ReconcilerStore) (attemptId : String) (orderId channelId : Option String)
    (category severity : String) (now : Instant) :
    upsertPaymentQueryCase s attemptId orderId channelId category severity now = s ↔
      (∃ c ∈ s.db.reconciliationCases.rows,
        c = { paymentQueryCase attemptId orderId channelId category severity with kind := c.kind }) ∧
      ∃ times ∈ s.caseTimes (paymentQueryCaseId attemptId),
        times.updatedAt = timestamp now ∧ times.closedAt = none := by
  rw [← upsertCases_eq_self]
  constructor
  · intro h
    refine ⟨congrArg (·.db.reconciliationCases) h, ?_⟩
    have htimes := congrFun (congrArg (·.caseTimes) h) (paymentQueryCaseId attemptId)
    have hupdated : s.caseTimes (paymentQueryCaseId attemptId) = some
        ⟨((s.caseTimes (paymentQueryCaseId attemptId)).map (·.createdAt)).getD (timestamp now), timestamp now, none⟩ :=
      htimes.symm.trans (update_self ..)
    exact ⟨_, hupdated, rfl, rfl⟩
  · rintro ⟨hcases, times, htimes, hupdated, hclosed⟩
    have htimes' : s.caseTimes (paymentQueryCaseId attemptId) = some times := htimes
    have hrow : (⟨((s.caseTimes (paymentQueryCaseId attemptId)).map (·.createdAt)).getD (timestamp now),
        timestamp now, none⟩ : CaseTimes) = times := by
      rw [htimes', map_some, getD_some, ← hupdated, ← hclosed]
    have hsame : update s.caseTimes (paymentQueryCaseId attemptId) (some
        ⟨((s.caseTimes (paymentQueryCaseId attemptId)).map (·.createdAt)).getD (timestamp now), timestamp now, none⟩) =
        s.caseTimes := by
      rw [hrow, ← htimes', Function.update_eq_self]
    unfold upsertPaymentQueryCase upsertCase
    simp only [paymentQueryCase] at hcases ⊢
    rw [hcases, hsame]

theorem closeCase_eq_self (s : ReconcilerStore) (caseId : String) (now : Instant) :
    closeCase s caseId now = s ↔ ∀ c ∈ s.db.reconciliationCases.rows, c.id = caseId → c.state = "closed" := by
  unfold closeCase
  split
  · rename_i hcount
    have hnone := countP_eq_zero.1 hcount
    simp only [true_iff]
    intro c hc hid
    by_contra hopen
    exact hnone c hc (decide_eq_true ⟨hid, hopen⟩)
  · rename_i hcount
    constructor
    · intro h c hc hid
      by_contra hopen
      have hcases : s.db.reconciliationCases.update (fun c => c.id = caseId ∧ c.state ≠ "closed")
          ReconciliationCase.close = s.db.reconciliationCases := congrArg (·.db.reconciliationCases) h
      have hclosed := update_eq_self.1 hcases c hc (decide_eq_true ⟨hid, hopen⟩)
      exact hopen (congrArg ReconciliationCase.state hclosed).symm
    · intro h
      exfalso
      apply hcount
      apply countP_eq_zero.2
      intro c hc hopen
      obtain ⟨hid, hne⟩ := of_decide_eq_true hopen
      exact hne (h c hc hid)

theorem ReconcilerAct.Performs.of_unfenced [Sha256] {s t : ReconcilerStore}
    (h : a.Performs s answer t) (hfence : a.fence? = none) (ha : a.isAcquisition = false) {next}
    (hrest : run.rest = .act a next) : t = s ↔ CaseStands s run := by
  unfold CaseStands
  rw [hrest]
  cases a with
  | acquireLease ownerId now => cases ha
  | expiredPaymentCandidates _ | refundQueryCandidates _ | refundAlertCandidates _ | fulfillmentCandidates _ =>
    exact iff_of_true h.1 trivial
  | elapsedSeconds | newUuid | queryAttempt _ | queryRefund _ _ => exact iff_of_true h trivial
  | upsertPaymentQueryCase attemptId orderId channelId category severity now =>
    rw [h.2]
    exact upsertPaymentQueryCase_eq_self s attemptId orderId channelId category severity now
  | closePaymentQueryCase attemptId now =>
    rw [h.2]
    exact closeCase_eq_self s _ now
  | _ => cases hfence

theorem caseStands_of_fenced (hfence : a.fence? = some fence) (s : ReconcilerStore) {next}
    (hrest : run.rest = .act a next) : CaseStands s run := by
  unfold CaseStands
  rw [hrest]
  cases a with
  | upsertPaymentQueryCase attemptId orderId channelId category severity now => cases hfence
  | closePaymentQueryCase attemptId now => cases hfence
  | _ => trivial

theorem Reconcilers.Stale.acts_iff [Sha256] (hs : s.Sound) (hrun : s.runs[i]? = some run) (hstale : s.Stale run)
    (h : s.Acts i t) : t.store = s.store ↔ CaseStands s.store run := by
  obtain ⟨run', a, next, answer, store, position, hrun', hrest, hperforms, -, rfl⟩ := h
  cases hrun.symm.trans hrun'
  have hmem := mem_of_getElem? hrun
  have hallowed : Allowed run.now run.position a := by
    have hfollows := (hs run hmem).follows
    rw [hrest] at hfollows
    exact hfollows.1
  cases hfence : a.fence? with
  | some fence =>
    have hlost := hstale.fenceLost hs hmem hallowed hfence
    exact iff_of_true (hperforms.of_fenceLost hfence hlost) (caseStands_of_fenced hfence s.store hrest)
  | none =>
    have hplain : a.isAcquisition = false := by
      cases ha : a.isAcquisition with
      | false => rfl
      | true =>
        obtain ⟨l, hl, -⟩ := hstale
        cases (hallowed.1 ha).symm.trans hl
    exact hperforms.of_unfenced hfence hplain hrest

theorem RunPosition.Advance.later (h : p.Advance a answer q)
    (hallowed : Allowed now p a) (hl : l ∈ p.lease) : l ∈ q.lease ∧ p.elapsed ≤ q.elapsed := by
  cases a with
  | acquireLease ownerId time => cases (hallowed.1 rfl).symm.trans hl
  | elapsedSeconds =>
    obtain ⟨hle, rfl⟩ := h
    exact ⟨hl, hle⟩
  | _ =>
    cases h
    exact ⟨hl, le_refl _⟩

theorem ReconcilersStep.run_later [Sha256] (hs : s.Sound) (h : ReconcilersStep s t) (hrun : s.runs[i]? = some run) :
    ∃ run', t.runs[i]? = some run' ∧ run'.now = run.now ∧
      ∀ l ∈ run.position.lease, l ∈ run'.position.lease ∧ run.position.elapsed ≤ run'.position.elapsed := by
  have hlt : i < s.runs.length := (List.getElem?_eq_some_iff.1 hrun).1
  cases h with
  | start _ reconciler ownerId now =>
    exact ⟨run, by rw [getElem?_append_left hlt, hrun], rfl, fun l hl => ⟨hl, le_refl _⟩⟩
  | act j h =>
    obtain ⟨acting, a, next, answer, store, position, hacting, hrest, -, hadvance, rfl⟩ := h
    by_cases hij : j = i
    · subst hij
      cases hrun.symm.trans hacting
      refine ⟨_, getElem?_set_self hlt, rfl, fun l hl => ?_⟩
      have hfollows := (hs run (mem_of_getElem? hrun)).follows
      rw [hrest] at hfollows
      exact hadvance.later hfollows.1 hl
    · exact ⟨run, by rw [getElem?_set_ne hij, hrun], rfl, fun l hl => ⟨hl, le_refl _⟩⟩
  | err j h =>
    obtain ⟨acting, a, next, answer, hacting, -, -, rfl⟩ := h
    by_cases hij : j = i
    · subst hij
      cases hrun.symm.trans hacting
      exact ⟨_, getElem?_set_self hlt, rfl, fun l hl => ⟨hl, le_refl _⟩⟩
    · exact ⟨run, by rw [getElem?_set_ne hij, hrun], rfl, fun l hl => ⟨hl, le_refl _⟩⟩
  | other _ store hsame => exact ⟨run, hrun, rfl, fun l hl => ⟨hl, le_refl _⟩⟩

theorem timestamp_mono {a b : Int} (h : a ≤ b) : timestamp a ≤ timestamp b := by
  unfold timestamp
  omega

theorem ReconcilersStep.stale [Sha256] (hs : s.Sound) (h : ReconcilersStep s t) (hrun : s.runs[i]? = some run)
    (hstale : s.Stale run) : ∃ run', t.runs[i]? = some run' ∧ t.Stale run' := by
  obtain ⟨run', hrun', hnow, hlater⟩ := h.run_later hs hrun
  obtain ⟨l, hl, hcase⟩ := hstale
  refine ⟨run', hrun', l, (hlater l hl).1, ?_⟩
  rcases hcase with ⟨other, hother, newer, hnewer, hlt⟩ | hexpired
  · left
    obtain ⟨j, hj⟩ := getElem?_of_mem hother
    obtain ⟨other', hother', -, hkept⟩ := h.run_later hs hj
    exact ⟨other', mem_of_getElem? hother', newer, (hkept newer hnewer).1, hlt⟩
  · right
    apply hexpired.trans
    have hle := (hlater l hl).2
    have hseconds : seconds run.position.elapsed ≤ seconds run'.position.elapsed := by
      unfold seconds
      omega
    rw [hnow]
    exact timestamp_mono (Int.add_le_add_left hseconds run.now)

/-- Along every run of the system the epoch never decreases, a stale run stays stale, and its next action leaves the
store as it is exactly when it writes no payment-query case, or a case that already stands so. -/
theorem staleRun_changes_nothing_iff [Sha256] (s t : Reconcilers) (hs : s.Reached) :
    (ReconcilersStep s t → s.epoch ≤ t.epoch ∧ ∀ (i : Nat) run, s.runs[i]? = some run → s.Stale run →
      ∃ run', t.runs[i]? = some run' ∧ t.Stale run') ∧
    ∀ (i : Nat) run, s.runs[i]? = some run → s.Stale run →
      (s.Acts i t → (t.store = s.store ↔ CaseStands s.store run)) ∧ (s.Errs i t → t.store = s.store) := by
  have hsound := hs.sound
  refine ⟨fun hstep => ⟨hstep.leaseGrows.epoch, fun i run hrun hstale => hstep.stale hsound hrun hstale⟩, ?_⟩
  intro i run hrun hstale
  refine ⟨fun hacts => hstale.acts_iff hsound hrun hacts, ?_⟩
  rintro ⟨_, _, _, _, -, -, -, rfl⟩
  rfl

def sampleReconciledContract : OrderContract where
  orderNumber := "n"
  userId := "u"
  productKind := .balance
  paymentChannelId := "c"
  paymentCurrency := .cny
  paymentMinor := "1"
  cnyPerUsd := "7"
  rateNumerator := "7"
  rateDenominator := "1"
  quote := none
  contractVersion := 2
  salesCode := none
  salesDiscountBp := none
  creationIdempotencyKey := none
  creationRequestDigest := none
  createdAt := 0
  expiresAt := 0

def sampleReconcilerStore : ReconcilerStore where
  db :=
    { storeOrders := .single ⟨"o", sampleReconciledContract, .unpaid, .pending, .none, false, 0⟩
      paymentAttempts := .single ⟨"p", "o", "c", "stripe", "v", "m", .presented, none, none, some "x", "k", none⟩ }
  providerExpiresAt := fun _ => some 0

def sampleReconciler : StoreReconciler := ⟨true, false⟩

def sampleTakenOnce : ReconcilerStore := (acquireLease sampleReconcilerStore "a" 0).2

def sampleTakenTwice : ReconcilerStore := (acquireLease sampleTakenOnce "b" (seconds 90)).2

theorem acquireLease_once : acquireLease sampleReconcilerStore "a" 0 = (.ok 1, sampleTakenOnce) := by
  rfl

theorem acquireLease_twice : acquireLease sampleTakenOnce "b" (seconds 90) = (.ok 2, sampleTakenTwice) := by
  rfl

theorem sample_candidates : ∀ attemptId ∈ ["p"], PaymentCandidate sampleTakenOnce 0 attemptId := by
  intro attemptId hid
  rw [mem_singleton.1 hid]
  refine ⟨_, mem_singleton.2 rfl, _, mem_singleton.2 rfl, rfl, rfl, rfl, nofun, .inl ⟨rfl, nofun, 0, rfl, ?_⟩⟩
  decide

theorem sample_overtaken [Sha256] : ∃ s : Reconcilers, s.Reached ∧ s.store = sampleTakenTwice ∧
    ∃ run next, s.runs[0]? = some run ∧ s.Stale run ∧
      run.rest = .act (.upsertPaymentQueryCase "p" none none "provider_transport_ambiguous" "high" 0) next := by
  have h₀ : Reconcilers.Reached ⟨sampleReconcilerStore, []⟩ := .start rfl
  have h₁ := h₀.next (.start _ sampleReconciler "a" 0)
  have h₂ := h₁.next (.start _ sampleReconciler "b" (seconds 90))
  have h₃ := h₂.next (.act 0 ⟨_, .acquireLease "a" 0, _, .ok 1, sampleTakenOnce, _, rfl, rfl, acquireLease_once.symm,
    rfl, rfl⟩)
  have h₄ := h₃.next (.act 0 ⟨_, .expiredPaymentCandidates 0, _, .ok ["p"], sampleTakenOnce, _, rfl, rfl,
    ⟨rfl, ["p"], rfl, by decide, sample_candidates⟩, rfl, rfl⟩)
  have h₅ := h₄.next (.act 0 ⟨_, .refundAlertCandidates 0, _, .ok [], sampleTakenOnce, _, rfl, rfl,
    ⟨rfl, [], rfl, by decide, nofun⟩, rfl, rfl⟩)
  have h₆ := h₅.next (.act 0 ⟨_, .fulfillmentCandidates 0, _, .ok [], sampleTakenOnce, _, rfl, rfl,
    ⟨rfl, [], rfl, by decide, nofun⟩, rfl, rfl⟩)
  have h₇ := h₆.next (.act 1 ⟨_, .acquireLease "b" (seconds 90), _, .ok 2, sampleTakenTwice, _, rfl, rfl,
    acquireLease_twice.symm, rfl, rfl⟩)
  have h₈ := h₇.next (.act 0 ⟨_, .queryAttempt "p", _, .error (.provider .ambiguous), sampleTakenTwice, _, rfl, rfl,
    rfl, rfl, rfl⟩)
  refine ⟨_, h₈, rfl, _, _, rfl, ?_, rfl⟩
  refine ⟨takenLease "a" 1 0, rfl, .inl ⟨_, mem_cons_of_mem _ (mem_singleton.2 rfl),
    takenLease "b" 2 (seconds 90), rfl, ?_⟩⟩
  decide

open SampleDigests

theorem sampleTakenTwice_cases : sampleTakenTwice.db.reconciliationCases.rows = [] := rfl

theorem staleRun_opens_case : ∃ s t : Reconcilers, s.Reached ∧ (∃ run, s.runs[0]? = some run ∧ s.Stale run) ∧ s.Acts 0 t ∧
    s.store.db.reconciliationCases.rows = [] ∧ t.store.db.reconciliationCases.rows =
      [paymentQueryCase "p" none none "provider_transport_ambiguous" "high"] := by
  obtain ⟨s, hreached, hstore, run, next, hrun, hstale, hrest⟩ := sample_overtaken
  refine ⟨s, _, hreached, ⟨run, hrun, hstale⟩, ⟨run, _, next, .ok (), _, run.position, hrun, hrest, ⟨rfl, rfl⟩, rfl, rfl⟩,
    ?_, ?_⟩
  · rw [hstore]
    exact sampleTakenTwice_cases
  · rw [hstore]
    rfl

theorem staleRun_changes_nothing_iff_overtaken : ∃ s t : Reconcilers, s.Acts 0 t ∧ t.store ≠ s.store := by
  obtain ⟨s, hreached, hstore, run, next, hrun, hstale, hrest⟩ := sample_overtaken
  have hacts : s.Acts 0 ⟨_, _⟩ :=
    ⟨run, _, next, .ok (), _, run.position, hrun, hrest, ⟨rfl, rfl⟩, rfl, rfl⟩
  refine ⟨s, _, hacts, fun hsame => ?_⟩
  have hstands := (((staleRun_changes_nothing_iff s _ hreached).2 0 run hrun hstale).1 hacts).1 hsame
  rw [CaseStands, hrest, hstore] at hstands
  obtain ⟨⟨c, hc, -⟩, -⟩ := hstands
  rw [sampleTakenTwice_cases] at hc
  cases hc

theorem acquireLease_epoch {s t : ReconcilerStore} {ownerId : String} {epoch : Int}
    (h : (.ok epoch, t) = acquireLease s ownerId now) (hl : Held s.db l) : l.epoch < epoch := by
  obtain ⟨found, hfound, -, hcase⟩ := lease?_inserted s
  obtain ⟨row, hrow, hle, -⟩ := hl
  have hsame : found = row := by
    rcases hcase with hcase | ⟨hnone, -⟩
    · exact Option.some.inj (hcase.symm.trans hrow)
    · cases hnone.symm.trans hrow
  unfold acquireLease at h
  simp only [hfound] at h
  split at h
  · cases h
  split at h
  · cases h
  rename_i hepoch
  cases h
  have hnext := (checked_eq_some.1 hepoch).1
  rw [hsame] at hnext
  omega

theorem pairwise_set {α : Type} {R : α → α → Prop} (hR : ∀ {a b}, R a b → R b a) {l : List α} (hl : l.Pairwise R) {a b : α}
    (ha : l[i]? = some a) (hb : ∀ c ∈ l, R a c → R b c) : (l.set i b).Pairwise R := by
  obtain ⟨hi, rfl⟩ := List.getElem?_eq_some_iff.1 ha
  rw [set_eq_take_append_cons_drop, if_pos hi, pairwise_middle hR]
  rw [← take_append_drop i l, ← getElem_cons_drop hi, pairwise_middle hR, pairwise_cons] at hl
  refine pairwise_cons.2 ⟨fun c hc => hb c ?_ (hl.1 c hc), hl.2⟩
  exact (mem_append.1 hc).elim mem_of_mem_take mem_of_mem_drop

def EpochsApart (run other : ReconcilerRun) : Prop :=
  ∀ l ∈ run.position.lease, ∀ l' ∈ other.position.lease, l.epoch ≠ l'.epoch

theorem EpochsApart.symm {other : ReconcilerRun} (h : EpochsApart run other) : EpochsApart other run :=
  fun l hl l' hl' => (h l' hl' l hl).symm

section

variable [Sha256]

theorem ReconcilersStep.epochsApart (hs : s.Sound) (h : ReconcilersStep s t)
    (hapart : s.runs.Pairwise EpochsApart) : t.runs.Pairwise EpochsApart := by
  cases h with
  | start _ reconciler ownerId now =>
    refine pairwise_append.2 ⟨hapart, pairwise_singleton .., fun run _ new hnew l _ l' hl' => ?_⟩
    rw [mem_singleton.1 hnew] at hl'
    cases hl'
  | act i h =>
    obtain ⟨run, a, next, answer, store, position, hrun, -, hperforms, hadvance, rfl⟩ := h
    apply pairwise_set EpochsApart.symm hapart hrun
    intro other hother hold
    cases a with
    | acquireLease ownerId now =>
      cases hadvance
      cases answer with
      | error e => exact hold
      | ok epoch =>
        rintro _ ⟨⟩ l' hl'
        exact (acquireLease_epoch hperforms ((hs other hother).held l' hl')).ne'
    | elapsedSeconds =>
      cases hadvance.2
      exact hold
    | _ =>
      cases hadvance
      exact hold
  | err i h =>
    obtain ⟨run, a, next, answer, hrun, -, -, rfl⟩ := h
    exact pairwise_set EpochsApart.symm hapart hrun fun _ _ => id
  | other _ store hsame => exact hapart

/-- No two runs are ever given one epoch, so at most one of them passes the fence. -/
theorem lease_epochs_unique (h : s.Reached) : s.runs.Pairwise EpochsApart := by
  induction h with
  | start hnone => simp [hnone]
  | next hs hstep ih => exact hstep.epochsApart (Reconcilers.Reached.sound hs) ih

end

theorem lease_epochs_unique_overtaken : ∃ s : Reconcilers, s.Reached ∧
    (∃ run ∈ s.runs, ∃ l, l ∈ run.position.lease) ∧ s.runs.Pairwise EpochsApart := by
  obtain ⟨s, hreached, -, run, -, hrun, ⟨l, hl, -⟩, -⟩ := sample_overtaken
  exact ⟨s, hreached, ⟨run, mem_of_getElem? hrun, l, hl⟩, lease_epochs_unique hreached⟩

end Monoize
