import Monoize.Retention

/-! What a retention run removes, read off the state it starts in. -/

namespace Monoize

open CivilTime Fallible Relational List Table Function

variable {s next : RetentionStore} {now : Instant} {f : ProviderEvent → ProviderEvent} {changed : Nat}
  {ownerId : String} {ids : RetentionIds}

def selects (roots : List FinancialCandidate) (table : FinancialTable) (id : String) : Bool :=
  roots.any fun c => c.table = table ∧ id = c.id

theorem selects_append (xs ys : List FinancialCandidate) (table : FinancialTable) (id : String) :
    selects (xs ++ ys) table id = (selects xs table id || selects ys table id) := any_append

section Reached

variable (s : RetentionStore) (now : Int) (roots : List FinancialCandidate)

def unheld (id : String) : Bool := !s.held .financialRecords now id

def refundReached (f : Refund) : Bool :=
  selects roots .refunds f.id || (selects roots .orders f.orderId && unheld s now f.id)

def recoveryReached (r : RewardRecovery) : Bool := selects roots .orders r.orderId && unheld s now r.id

def claimReached (c : RecoveryClaim) : Bool :=
  selects roots .recoveryClaims c.id ||
    (unheld s now c.id && s.db.rewardRecoveries.rows.any fun r => r.id = c.recoveryId ∧ selects roots .orders r.orderId)

def lineReached (l : SettlementLine) : Bool := selects roots .settlementReports l.reportId && unheld s now l.id

def reportReached (r : SettlementReport) : Bool :=
  selects roots .settlementReports r.id &&
    !s.settlementLines.rows.any fun l => l.reportId = r.id ∧ unheld s now l.id = false

end Reached

theorem claimReached_of_no_order {now : Int} {roots : List FinancialCandidate}
    (h : ∀ id, selects roots .orders id = false) (c : RecoveryClaim) :
    claimReached s now roots c = selects roots .recoveryClaims c.id := by
  have hnone : (s.db.rewardRecoveries.rows.any fun r => r.id = c.recoveryId ∧ selects roots .orders r.orderId) = false := by
    simp [h]
  rw [claimReached, hnone, Bool.and_false, Bool.or_false]

structure Pruned (s next : RetentionStore) (now : Int) (roots : List FinancialCandidate) : Prop where
  frame : next = { s with
    db := { s.db with
      storeOrders := next.db.storeOrders
      paymentAttempts := next.db.paymentAttempts
      providerEvents := next.db.providerEvents
      orderEventApplications := next.db.orderEventApplications
      billingLedger := next.db.billingLedger
      refunds := next.db.refunds
      rewardRecoveries := next.db.rewardRecoveries
      recoveryClaims := next.db.recoveryClaims }
    accessAudits := next.accessAudits
    settlementReports := next.settlementReports
    settlementLines := next.settlementLines
    refundQueryRetries := next.refundQueryRetries }
  orders : next.db.storeOrders.rows = s.db.storeOrders.rows.filter fun o => !selects roots .orders o.id
  events : next.db.providerEvents.rows = s.db.providerEvents.rows.filter fun e => !selects roots .providerEvents e.id
  ledger : next.db.billingLedger.rows = s.db.billingLedger.rows.filter fun r => !selects roots .billingLedger r.id
  refunds : next.db.refunds.rows = s.db.refunds.rows.filter fun f => !refundReached s now roots f
  recoveries : next.db.rewardRecoveries.rows = s.db.rewardRecoveries.rows.filter fun r => !recoveryReached s now roots r
  claims : next.db.recoveryClaims.rows = s.db.recoveryClaims.rows.filter fun c => !claimReached s now roots c
  reports : next.settlementReports.rows = s.settlementReports.rows.filter fun r => !reportReached s now roots r
  lines : next.settlementLines.rows = s.settlementLines.rows.filter fun l => !lineReached s now roots l
  audits : next.accessAudits.rows = s.accessAudits.rows.filter fun a => !selects roots .accessAudits a.id

theorem Pruned.held {now : Int} {roots : List FinancialCandidate} (h : Pruned s next now roots) : next.held = s.held := by
  rw [h.frame]
  rfl

theorem Pruned.refl (s : RetentionStore) (now : Int) : Pruned s s now [] := by
  have hnone (table : FinancialTable) (id : String) : selects [] table id = false := rfl
  constructor <;>
    simp [hnone, refundReached, recoveryReached, claimReached_of_no_order (hnone .orders), reportReached, lineReached]

section Compose

variable {s mid next : RetentionStore} {now : Int} {xs ys : List FinancialCandidate}

theorem Pruned.unheld (h : Pruned s mid now xs) (id : String) : unheld mid now id = Monoize.unheld s now id := by
  rw [Monoize.unheld, Monoize.unheld, h.held]

theorem filter_selects {α : Type} (rows : List α) (xs ys : List FinancialCandidate) (table : FinancialTable)
    (id : α → String) :
    (rows.filter fun a => !selects xs table (id a)).filter (fun a => !selects ys table (id a)) =
      rows.filter fun a => !selects (xs ++ ys) table (id a) := by
  rw [filter_filter]
  apply filter_congr
  intro a _
  rw [selects_append, Bool.not_or, Bool.and_comm]

theorem Pruned.claim_append (h : Pruned s mid now xs) (c : RecoveryClaim) :
    claimReached s now (xs ++ ys) c = (claimReached s now xs c || claimReached mid now ys c) := by
  rw [Bool.eq_iff_iff]
  simp only [claimReached, selects_append, h.unheld, Bool.or_eq_true, Bool.and_eq_true, any_eq_true, decide_eq_true_eq,
    h.recoveries, mem_filter, Bool.not_eq_true']
  constructor
  · rintro ((hx | hy) | ⟨hc, r, hr, hid, hx | hy⟩)
    · exact .inl (.inl hx)
    · exact .inr (.inl hy)
    · exact .inl (.inr ⟨hc, r, hr, hid, hx⟩)
    · cases hreached : recoveryReached s now xs r with
      | true => exact .inl (.inr ⟨hc, r, hr, hid, (Bool.and_eq_true_iff.1 hreached).1⟩)
      | false => exact .inr (.inr ⟨hc, r, ⟨hr, hreached⟩, hid, hy⟩)
  · rintro ((hx | ⟨hc, r, hr, hid, hx⟩) | hy | ⟨hc, r, ⟨hr, -⟩, hid, hy⟩)
    · exact .inl (.inl hx)
    · exact .inr ⟨hc, r, hr, hid, .inl hx⟩
    · exact .inl (.inr hy)
    · exact .inr ⟨hc, r, hr, hid, .inr hy⟩

theorem Pruned.report_append (h : Pruned s mid now xs) (r : SettlementReport) :
    reportReached s now (xs ++ ys) r = (reportReached s now xs r || reportReached mid now ys r) := by
  have hlines : (mid.settlementLines.rows.any fun l => l.reportId = r.id ∧ Monoize.unheld mid now l.id = false) =
      s.settlementLines.rows.any fun l => l.reportId = r.id ∧ Monoize.unheld s now l.id = false := by
    rw [Bool.eq_iff_iff]
    simp only [any_eq_true, decide_eq_true_eq, h.unheld, h.lines, mem_filter, Bool.not_eq_true']
    constructor
    · rintro ⟨l, ⟨hl, -⟩, hheld⟩
      exact ⟨l, hl, hheld⟩
    · rintro ⟨l, hl, hreport, hheld⟩
      exact ⟨l, ⟨hl, by rw [lineReached, hheld, Bool.and_false]⟩, hreport, hheld⟩
  rw [reportReached, reportReached, reportReached, hlines, selects_append, Bool.and_or_distrib_right]

theorem Pruned.append (h : Pruned s mid now xs) (h' : Pruned mid next now ys) : Pruned s next now (xs ++ ys) where
  frame := by
    have hmid := h.frame
    have hnext := h'.frame
    rw [hmid] at hnext
    exact hnext
  orders := by rw [h'.orders, h.orders, filter_selects]
  events := by rw [h'.events, h.events, filter_selects]
  ledger := by rw [h'.ledger, h.ledger, filter_selects]
  audits := by rw [h'.audits, h.audits, filter_selects]
  refunds := by
    rw [h'.refunds, h.refunds, filter_filter]
    apply filter_congr
    intro f _
    simp only [refundReached, selects_append, h.unheld]
    cases selects xs .refunds f.id <;> cases selects xs .orders f.orderId <;> cases Monoize.unheld s now f.id <;> simp
  recoveries := by
    rw [h'.recoveries, h.recoveries, filter_filter]
    apply filter_congr
    intro r _
    simp only [recoveryReached, selects_append, h.unheld]
    cases selects xs .orders r.orderId <;> cases Monoize.unheld s now r.id <;> simp
  lines := by
    rw [h'.lines, h.lines, filter_filter]
    apply filter_congr
    intro l _
    simp only [lineReached, selects_append, h.unheld]
    cases selects xs .settlementReports l.reportId <;> cases Monoize.unheld s now l.id <;> simp
  claims := by
    rw [h'.claims, h.claims, filter_filter]
    apply filter_congr
    intro c _
    rw [h.claim_append, Bool.not_or, Bool.and_comm]
  reports := by
    rw [h'.reports, h.reports, filter_filter]
    apply filter_congr
    intro r _
    rw [h.report_append, Bool.not_or, Bool.and_comm]

end Compose

theorem selects_singleton (c : FinancialCandidate) (table : FinancialTable) (id : String) :
    selects [c] table id = decide (c.table = table ∧ id = c.id) := by
  rw [selects, any_cons, any_nil, Bool.or_false]

section Root

variable (s : RetentionStore) (id retentionAt : String) (now : Int)

theorem deleteOrderChildren_claims : (deleteOrderChildren s id now).db.recoveryClaims.rows =
    s.db.recoveryClaims.rows.filter fun c => !claimReached s now [⟨.orders, id, retentionAt⟩] c := by
  rw [deleteOrderChildren, removeEach_rows]
  apply filter_congr
  intro c _
  rw [Bool.not_inj_iff, Bool.eq_iff_iff]
  simp only [claimReached, selects_singleton, any_map, any_filter, any_eq_true, comp,
    Bool.and_eq_true, Bool.or_eq_true, decide_eq_true_eq, reduceCtorEq, false_and, false_or, true_and]
  constructor
  · rintro ⟨r, hr, horder, hrecovery, hc⟩
    exact ⟨hc, r, hr, hrecovery.symm, horder⟩
  · rintro ⟨hc, r, hr, hrecovery, horder⟩
    exact ⟨r, hr, horder, hrecovery.symm, hc⟩

theorem deleteFinancialRoot_order :
    Pruned s (deleteFinancialRoot s ⟨.orders, id, retentionAt⟩ now).2 now [⟨.orders, id, retentionAt⟩] := by
  refine ⟨rfl, ?_, ?_, ?_, ?_, ?_, deleteOrderChildren_claims s id retentionAt now, ?_, ?_, ?_⟩ <;>
    simp [deleteFinancialRoot, deleteOrderChildren, selects_singleton, refundReached, recoveryReached, reportReached,
      lineReached, unheld]

theorem unheldLines_count :
    ((s.settlementLines.remove fun l => l.reportId = id ∧ !s.held .financialRecords now l.id).count
      (·.reportId = id) ≠ 0) ↔ (s.settlementLines.rows.any fun l => l.reportId = id ∧ unheld s now l.id = false) = true := by
  rw [← Nat.pos_iff_ne_zero, Table.count, List.countP_pos_iff, List.any_eq_true]
  constructor
  · rintro ⟨l, hl, hreport⟩
    refine ⟨l, (mem_filter.1 hl).1, ?_⟩
    simp_all [unheld]
  · rintro ⟨l, hl, hheld⟩
    refine ⟨l, mem_filter.2 ⟨hl, ?_⟩, ?_⟩ <;> simp_all [unheld]

theorem deleteFinancialRoot_report :
    Pruned s (deleteFinancialRoot s ⟨.settlementReports, id, retentionAt⟩ now).2 now
      [⟨.settlementReports, id, retentionAt⟩] := by
  have hreport (r : SettlementReport) : reportReached s now [⟨.settlementReports, id, retentionAt⟩] r =
      (decide (r.id = id) && !s.settlementLines.rows.any fun l => l.reportId = id ∧ unheld s now l.id = false) := by
    by_cases hr : r.id = id <;> simp [reportReached, selects_singleton, hr]
  rw [deleteFinancialRoot]
  cases hheld : s.settlementLines.rows.any fun l => l.reportId = id ∧ unheld s now l.id = false with
  | true =>
    rw [if_pos ((unheldLines_count s id now).2 hheld)]
    simp only [hheld] at hreport
    constructor <;>
      simp [hreport, selects_singleton, refundReached, recoveryReached, claimReached_of_no_order, lineReached, unheld]
  | false =>
    rw [if_neg (fun h => Bool.false_ne_true (hheld.symm.trans ((unheldLines_count s id now).1 h)))]
    simp only [hheld] at hreport
    constructor <;>
      simp [hreport, selects_singleton, refundReached, recoveryReached, claimReached_of_no_order, lineReached, unheld]

theorem deleteFinancialRoot_pruned (c : FinancialCandidate) : Pruned s (deleteFinancialRoot s c now).2 now [c] := by
  obtain ⟨table, id, retentionAt⟩ := c
  cases table with
  | orders => exact deleteFinancialRoot_order s id retentionAt now
  | settlementReports => exact deleteFinancialRoot_report s id retentionAt now
  | providerEvents | billingLedger | refunds | recoveryClaims | accessAudits =>
    constructor <;>
      simp [deleteFinancialRoot, selects_singleton, refundReached, recoveryReached, claimReached_of_no_order, reportReached,
        lineReached]

end Root

theorem deleteFinancialRoots_pruned (s : RetentionStore) (now : Int) (roots : List FinancialCandidate) :
    Pruned s (deleteFinancialRoots s now roots).2 now roots := by
  have hfold (step : Nat × RetentionStore → FinancialCandidate → Nat × RetentionStore)
      (hstep : ∀ p c, (step p c).2 = (deleteFinancialRoot p.2 c now).2) (roots : List FinancialCandidate)
      (p : Nat × RetentionStore) : Pruned p.2 (roots.foldl step p).2 now roots := by
    induction roots generalizing p with
    | nil => exact .refl p.2 now
    | cons c roots ih =>
      have hnext := ih (step p c)
      rw [hstep] at hnext
      exact (deleteFinancialRoot_pruned p.2 now c).append hnext
  exact hfold _ (fun _ _ => rfl) roots (0, s)

structure Clears (s : RetentionStore) (now : Int) (f : ProviderEvent → ProviderEvent) : Prop where
  rest : ∀ e, f e = { e with
    rawBody := (f e).rawBody
    sourceIp := (f e).sourceIp
    userAgent := (f e).userAgent }
  raw : ∀ e, s.held .rawCallbackBodies now e.id = true → (f e).rawBody = e.rawBody
  network : ∀ e, s.held .networkMetadata now e.id = true →
    (f e).sourceIp = e.sourceIp ∧ (f e).userAgent = e.userAgent

theorem Clears.id {now : Int} (h : Clears s now f) (e : ProviderEvent) : (f e).id = e.id := by rw [h.rest e]

theorem Clears.receivedAt {now : Int} (h : Clears s now f) (e : ProviderEvent) :
    (f e).receivedAt = e.receivedAt := by rw [h.rest e]

theorem Clears.comp {now : Int} {g : ProviderEvent → ProviderEvent} (hf : Clears s now f) (hg : Clears s now g) :
    Clears s now (g ∘ f) where
  rest e := by
    have he := hg.rest (f e)
    rw [hf.rest e] at he
    rw [Function.comp, hf.rest e]
    exact he
  raw e hheld := (hg.raw (f e) (by rw [hf.id]; exact hheld)).trans (hf.raw e hheld)
  network e hheld := by
    have h := hf.network e hheld
    have h' := hg.network (f e) (by rw [hf.id]; exact hheld)
    exact ⟨h'.1.trans h.1, h'.2.trans h.2⟩

structure Cleared (s next : RetentionStore) (now : Int) (f : ProviderEvent → ProviderEvent) : Prop where
  clears : Clears s now f
  frame : next = { s with db := { s.db with providerEvents := next.db.providerEvents } }
  rows : next.db.providerEvents.rows = s.db.providerEvents.rows.map f

theorem Cleared.held {now : Int} (h : Cleared s next now f) : next.held = s.held := by
  rw [h.frame]
  rfl

theorem Cleared.trans {s mid next : RetentionStore} {now : Int} {f g : ProviderEvent → ProviderEvent}
    (h : Cleared s mid now f) (h' : Cleared mid next now g) : Cleared s next now (g ∘ f) where
  clears := by
    apply h.clears.comp
    exact ⟨h'.clears.rest, fun e hheld => h'.clears.raw e (h.held ▸ hheld),
      fun e hheld => h'.clears.network e (h.held ▸ hheld)⟩
  frame := by
    have hmid := h.frame
    have hnext := h'.frame
    rw [hmid] at hnext
    exact hnext
  rows := by rw [h'.rows, h.rows, map_map]

theorem mem_retentionBatch {β κ : Type} [LT κ] [DecidableLT κ] [DecidableEq κ] {key : β → κ × String} {rows : List β}
    {b : β} (h : b ∈ retentionBatch key rows) : b ∈ rows :=
  (mem_insertionSort _).1 (mem_of_mem_take h)

theorem clearRawCallbacks_inv (h : clearRawCallbacks s now = .ok (changed, next)) :
    ∃ f, Cleared s next (timestamp now) f := by
  simp only [clearRawCallbacks, ok_iff] at h
  obtain ⟨cutoff, -, -, rfl⟩ := h
  refine ⟨_, ?_, rfl, updateEach_rows ?_ _⟩
  · constructor
    · intro e
      split <;> rfl
    · intro e hheld
      rw [if_neg]
      simp only [rawCallbackIds, any_map, any_eq_true, comp, decide_eq_true_eq, not_exists, not_and]
      intro e' he' hid
      have hfree := (mem_filter.1 (mem_retentionBatch he')).2
      rw [← hid, hheld] at hfree
      simp at hfree
    · intro e _
      split <;> exact ⟨rfl, rfl⟩
  · simp [ProviderEvent.withoutRawBody]

theorem clearNetworkMetadata_inv (h : clearNetworkMetadata s now = .ok (changed, next)) :
    ∃ f, Cleared s next (timestamp now) f := by
  simp only [clearNetworkMetadata, ok_iff] at h
  obtain ⟨cutoff, -, -, rfl⟩ := h
  refine ⟨_, ?_, rfl, updateEach_rows ?_ _⟩
  · constructor
    · intro e
      split <;> rfl
    · intro e _
      split <;> rfl
    · intro e hheld
      rw [if_neg]
      · exact ⟨rfl, rfl⟩
      simp only [networkMetadataIds, any_map, any_eq_true, comp, decide_eq_true_eq, not_exists, not_and]
      intro e' he' hid
      have hfree := (mem_filter.1 (mem_retentionBatch he')).2
      rw [← hid, hheld] at hfree
      simp at hfree
  · simp [ProviderEvent.withoutNetwork, ProviderEvent.hasNetwork]

theorem Cleared.financialCandidates {now : Int} (h : Cleared s next now f) (time : Int) (cutoff eventCutoff : String) :
    financialCandidates next time cutoff eventCutoff = Monoize.financialCandidates s time cutoff eventCutoff := by
  have hevents : (next.db.providerEvents.rows.map fun e =>
      (⟨.providerEvents, e.id, storedText e.receivedAt⟩ : FinancialCandidate)) =
      s.db.providerEvents.rows.map fun e => ⟨.providerEvents, e.id, storedText e.receivedAt⟩ := by
    rw [h.rows, map_map]
    apply map_congr_left
    intro e _
    rw [comp, h.clears.id, h.clears.receivedAt]
  have hroots : financialRoots next = financialRoots s := by
    rw [financialRoots, hevents, h.frame]
    rfl
  rw [Monoize.financialCandidates, Monoize.financialCandidates, financialUnion, financialUnion, hroots, h.held]

structure Swept (s next : RetentionStore) (now : Int) : Prop where
  frame : next = { s with
    accessAudits := next.accessAudits
    reauthGrants := next.reauthGrants }
  audits : ∀ a ∈ s.accessAudits.rows, a.isRedemption = false ∨ s.held .redemptionAudits now a.id = true →
    a ∈ next.accessAudits.rows
  grants : ∀ g ∈ s.reauthGrants.rows, s.held .expiredReauthGrants now g.id = true → g ∈ next.reauthGrants.rows

theorem deleteRedemptionAudits_inv (h : deleteRedemptionAudits s now = .ok (changed, next)) :
    Swept s next (timestamp now) := by
  simp only [deleteRedemptionAudits, ok_iff] at h
  obtain ⟨cutoff, -, -, rfl⟩ := h
  refine ⟨rfl, ?_, fun g hg _ => hg⟩
  intro a ha hkept
  rw [removeEach_rows, mem_filter]
  refine ⟨ha, ?_⟩
  simp only [redemptionAuditIds, any_map, Bool.not_eq_true', any_eq_false, comp, decide_eq_true_eq]
  intro a' ha' hid
  have hrow := mem_filter.1 (mem_retentionBatch ha')
  have hsame : a = a' := eq_of_clashes ha hrow.1 hid
  rw [← hsame] at hrow
  rcases hkept with hkept | hkept <;> simp [hkept] at hrow

theorem deleteReauthGrants_inv {grantHours : Int} (h : deleteReauthGrants s now grantHours = .ok (changed, next)) :
    Swept s next (timestamp now) := by
  simp only [deleteReauthGrants, ok_iff] at h
  obtain ⟨cutoff, -, -, rfl⟩ := h
  refine ⟨rfl, fun a ha _ => ha, ?_⟩
  intro g hg hheld
  rw [removeEach_rows, mem_filter]
  refine ⟨hg, ?_⟩
  simp only [reauthGrantIds, any_map, Bool.not_eq_true', any_eq_false, comp, decide_eq_true_eq]
  intro g' hg' hid
  have hrow := mem_filter.1 (mem_retentionBatch hg')
  rw [← hid, hheld] at hrow
  simp at hrow

theorem Swept.held {now : Int} (h : Swept s next now) : next.held = s.held := by
  rw [h.frame]
  rfl

theorem Swept.trans {s mid next : RetentionStore} {now : Int} (h : Swept s mid now) (h' : Swept mid next now) :
    Swept s next now where
  frame := by
    have hmid := h.frame
    have hnext := h'.frame
    rw [hmid] at hnext
    exact hnext
  audits a ha hkept := by
    apply h'.audits a (h.audits a ha hkept)
    rw [h.held]
    exact hkept
  grants g hg hheld := h'.grants g (h.grants g hg hheld) (h.held ▸ hheld)

/-- The roots that a run deletes: of the rows that the policy lets go (events not before 90 days) and that are not held as
financial records, the 500 oldest. -/
def runCandidates (s : RetentionStore) (now : Instant) (policy : StorePrivacyRetention) : List FinancialCandidate :=
  let kept (c : FinancialCandidate) : Int :=
    if c.table = .providerEvents then max policy.financialRecordsDays 90 else policy.financialRecordsDays
  (((financialRoots s).filter fun c => ¬ rfc3339 6 (now - days (kept c)) < c.retentionAt ∧
    ¬ s.held .financialRecords (timestamp now) c.id).insertionSort fun a b =>
      olderFirst (a.retentionAt, a.id) (b.retentionAt, b.id)).take 500

variable {policy : StorePrivacyRetention}

theorem runCandidates_eq : runCandidates s now policy = financialCandidates s (timestamp now)
    (rfc3339 6 (now - days policy.financialRecordsDays))
    (rfc3339 6 (now - days (max policy.financialRecordsDays networkMetadataRetentionDays))) := by
  simp only [runCandidates, financialCandidates, financialUnion, retentionBatch, networkMetadataRetentionDays,
    apply_ite (fun kept => rfc3339 6 (now - days kept))]
  rfl

theorem applyRetention_inv {counts : StoreRetentionCounts}
    (h : applyRetention s now policy = .ok (counts, next)) : ∃ cleared f pruned, Cleared s cleared (timestamp now) f ∧
      Pruned cleared pruned (timestamp now) (runCandidates s now policy) ∧ Swept pruned next (timestamp now) := by
  simp only [applyRetention, ok_iff, Prod.exists] at h
  obtain ⟨_, noRaw, hraw, _, cleared, hnetwork, deleted, pruned, hfinancial, _, noAudits, haudits, _, _, hgrants, -, rfl⟩ := h
  obtain ⟨f, hf⟩ := clearRawCallbacks_inv hraw
  obtain ⟨g, hg⟩ := clearNetworkMetadata_inv hnetwork
  have hcleared := hf.trans hg
  simp only [deleteFinancialRecords, checkedSub, ok_iff, exists_const] at hfinancial
  obtain ⟨_, ⟨-, rfl⟩, _, ⟨-, rfl⟩, hroots⟩ := hfinancial
  have hpruned := deleteFinancialRoots_pruned cleared (timestamp now) (runCandidates s now policy)
  rw [runCandidates_eq] at hpruned ⊢
  rw [← hcleared.financialCandidates, hroots, hcleared.financialCandidates] at hpruned
  exact ⟨cleared, _, pruned, hcleared, hpruned, (deleteRedemptionAudits_inv haudits).trans (deleteReauthGrants_inv hgrants)⟩

structure Grown (s next : RetentionStore) : Prop where
  frame : next = { s with
    accessAudits := next.accessAudits
    retentionRuns := next.retentionRuns
    retentionAlerts := next.retentionAlerts
    retentionState := next.retentionState }
  audits : ∀ a ∈ s.accessAudits.rows, a ∈ next.accessAudits.rows

theorem Grown.trans {s mid next : RetentionStore} (h : Grown s mid) (h' : Grown mid next) : Grown s next where
  frame := by
    have hmid := h.frame
    have hnext := h'.frame
    rw [hmid] at hnext
    exact hnext
  audits a ha := h'.audits a (h.audits a ha)

theorem Grown.held (h : Grown s next) : next.held = s.held := by
  rw [h.frame]
  rfl

theorem insertAccessAudit_grown {id actorId actorRole action reason result : String}
    (h : insertAccessAudit s id actorId actorRole action reason result now = .ok next) : Grown s next := by
  simp only [insertAccessAudit, ok_iff] at h
  obtain ⟨audits, hinsert, rfl⟩ := h
  exact ⟨rfl, fun a ha => (mem_insert hinsert).2 (.inl ha)⟩

theorem incrementFailureLocked_grown {runId alertId : String} (h : incrementFailureLocked s runId now alertId = .ok next) :
    Grown s next := by
  simp only [incrementFailureLocked, ok_iff] at h
  obtain ⟨_, -, _, -, h⟩ := h
  split at h
  · simp only [ok_iff] at h
    obtain ⟨alerts, -, rfl⟩ := h
    exact ⟨rfl, fun _ ha => ha⟩
  · rw [pure_eq_ok] at h
    exact h ▸ ⟨rfl, fun _ ha => ha⟩

theorem closeInterrupted_grown (h : closeInterrupted s ownerId now ids = .ok next) : Grown s next := by
  simp only [closeInterrupted, ok_iff] at h
  obtain ⟨owner, -, _, -, interruptedId, -, counted, hcounted, haudit⟩ := h
  have hclosed := incrementFailureLocked_grown hcounted
  exact Grown.trans ⟨hclosed.frame, hclosed.audits⟩ (insertAccessAudit_grown haudit)

theorem claimRunLocked_grown {policyVersion : String} (h : claimRunLocked s ownerId policyVersion now ids = .ok next) :
    Grown s next := by
  simp only [claimRunLocked, ok_iff] at h
  obtain ⟨mid, hmid, runs, -, rfl⟩ := h
  have hgrown : Grown s mid := by
    split at hmid
    · exact closeInterrupted_grown hmid
    · rw [pure_eq_ok] at hmid
      exact hmid ▸ ⟨rfl, fun _ ha => ha⟩
  exact hgrown.trans ⟨rfl, fun _ ha => ha⟩

theorem finalizeFailure_grown {category : String} {actor : RetentionRunActor}
    (h : finalizeFailure s ownerId category now actor ids = .ok next) : Grown s next := by
  simp only [finalizeFailure, ok_iff] at h
  obtain ⟨runs, -, counted, hcounted, haudit⟩ := h
  have hfailed := incrementFailureLocked_grown hcounted
  have hended := insertAccessAudit_grown haudit
  exact Grown.trans ⟨hfailed.frame, hfailed.audits⟩ ⟨hended.frame, hended.audits⟩

theorem executeSuccess_inv {parseTime : String → Option Instant}
    {actor : RetentionRunActor} (h : executeSuccess parseTime s ownerId now policy actor ids = .ok next) :
    ∃ counts applied, applyRetention s now policy = .ok (counts, applied) ∧ Grown applied next := by
  simp only [executeSuccess, ok_iff, Prod.exists] at h
  obtain ⟨counts, applied, happlied, oldest, -, runs, -, haudit⟩ := h
  have hended := insertAccessAudit_grown haudit
  exact ⟨counts, applied, happlied, hended.frame, hended.audits⟩

section Run

variable (parseTime : String → Option Instant) (s : RetentionStore) (ownerId : String) (clock : Instant)
  (actor : RetentionRunActor) (ids : RetentionIds)

def claimRun : Except StoreRetentionError (RetentionStore × PolicyLookup) := do
  let policy := currentPolicy parseTime ((s.privacyRecords.rows.filter (·.accepted)).insertionSort newestFirst)
    (canonicalTime clock)
  validateActor actor
  let claimed ← claimRunLocked s ownerId policy.version (canonicalTime clock) ids
  pure (claimed, policy)

/-- A run that does not claim its slot, has no current policy or does not commit deletes nothing. -/
def deletedRoots : List FinancialCandidate :=
  match claimRun parseTime s ownerId clock actor ids with
  | .ok (claimed, .current version retention) =>
    if (runPolicy parseTime claimed ownerId (canonicalTime clock) (.current version retention) actor ids).isOk then
      runCandidates claimed (canonicalTime clock) retention
    else []
  | _ => []

theorem runAt_eq : runAt parseTime s ownerId clock actor ids =
    match claimRun parseTime s ownerId clock actor ids with
    | .error error => (s, .error error)
    | .ok (claimed, policy) =>
      match runPolicy parseTime claimed ownerId (canonicalTime clock) policy actor ids with
      | .ok next => (next, runById next ids.runId)
      | .error category =>
        match finalizeFailure claimed ownerId category (canonicalTime clock) actor ids with
        | .ok next => (next, runById next ids.runId)
        | .error error => (claimed, .error error) := by
  rw [runAt, claimRun]
  cases validateActor actor with
  | error error => rfl
  | ok _ =>
    cases claimRunLocked s ownerId (currentPolicy parseTime
      ((s.privacyRecords.rows.filter (·.accepted)).insertionSort newestFirst) (canonicalTime clock)).version
      (canonicalTime clock) ids with
    | error error => rfl
    | ok claimed => rfl

variable {parseTime s ownerId clock actor ids}

theorem claimRun_grown {claimed : RetentionStore} {policy : PolicyLookup}
    (h : claimRun parseTime s ownerId clock actor ids = .ok (claimed, policy)) : Grown s claimed := by
  simp only [claimRun, ok_iff] at h
  obtain ⟨_, -, claimed', hclaimed, rfl, -⟩ := h
  exact claimRunLocked_grown hclaimed

theorem runPolicy_inv {policy : PolicyLookup} (h : runPolicy parseTime s ownerId now policy actor ids = .ok next) :
    ∃ version retention counts applied, policy = .current version retention ∧ validRetention retention = true ∧
      applyRetention s now retention = .ok (counts, applied) ∧ Grown applied next := by
  cases policy with
  | current version retention =>
    rw [runPolicy] at h
    split at h
    · rename_i hvalid
      split at h
      · rename_i success hsuccess
        cases h
        obtain ⟨counts, applied, happlied, hgrown⟩ := executeSuccess_inv hsuccess
        exact ⟨version, retention, counts, applied, rfl, hvalid, happlied, hgrown⟩
      · cases h
    · cases h
  | invalid version => cases h
  | unavailable => cases h

variable (parseTime s ownerId clock actor ids)

theorem runAt_cases :
    (deletedRoots parseTime s ownerId clock actor ids = [] ∧ Grown s (runAt parseTime s ownerId clock actor ids).1) ∨
    ∃ claimed policy counts applied, Grown s claimed ∧ validRetention policy = true ∧
      applyRetention claimed (canonicalTime clock) policy = .ok (counts, applied) ∧
      Grown applied (runAt parseTime s ownerId clock actor ids).1 ∧
      deletedRoots parseTime s ownerId clock actor ids = runCandidates claimed (canonicalTime clock) policy := by
  rw [runAt_eq, deletedRoots]
  cases hclaim : claimRun parseTime s ownerId clock actor ids with
  | error error => exact .inl ⟨rfl, rfl, fun _ ha => ha⟩
  | ok result =>
    obtain ⟨claimed, policy⟩ := result
    have hgrown := claimRun_grown hclaim
    cases hrun : runPolicy parseTime claimed ownerId (canonicalTime clock) policy actor ids with
    | ok next =>
      obtain ⟨version, retention, counts, applied, rfl, hvalid, happlied, hnext⟩ := runPolicy_inv hrun
      refine .inr ⟨claimed, retention, counts, applied, hgrown, hvalid, happlied, ?_, ?_⟩
      · simp only [hrun]
        exact hnext
      · simp only [hrun]
        rfl
    | error category =>
      refine .inl ⟨?_, ?_⟩
      · cases policy with
        | current version retention => simp only [hrun]; rfl
        | invalid version => rfl
        | unavailable => rfl
      · simp only [hrun]
        cases hfinal : finalizeFailure claimed ownerId category (canonicalTime clock) actor ids with
        | ok next => exact hgrown.trans (finalizeFailure_grown hfinal)
        | error error => exact hgrown

end Run

end Monoize
