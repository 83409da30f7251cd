import Monoize.RetentionReach

/-! Legal holds against a whole retention run. -/

namespace Monoize

open Fallible Relational List

variable {d : RetainedDatum} {s next : RetentionStore}

/-- A record under the retention rules; an event's raw body and network metadata are data of their own. -/
inductive RetainedDatum
  | rawBody (e : ProviderEvent)
  | network (e : ProviderEvent)
  | event (e : ProviderEvent)
  | order (o : StoreOrder)
  | ledgerRow (r : BillingLedgerRow)
  | refund (f : Refund)
  | claim (c : RecoveryClaim)
  | report (r : SettlementReport)
  | line (l : SettlementLine)
  | audit (a : AccessAudit)
  | grant (g : ReauthGrant)

namespace RetainedDatum

def dataClass : RetainedDatum → StoreRetentionDataClass
  | rawBody _ => .rawCallbackBodies
  | network _ => .networkMetadata
  | audit a => if a.isRedemption then .redemptionAudits else .financialRecords
  | grant _ => .expiredReauthGrants
  | _ => .financialRecords

def identifier : RetainedDatum → String
  | rawBody e => e.id
  | network e => e.id
  | event e => e.id
  | order o => o.id
  | ledgerRow r => r.id
  | refund f => f.id
  | claim c => c.id
  | report r => r.id
  | line l => l.id
  | audit a => a.id
  | grant g => g.id

def In (s : RetentionStore) : RetainedDatum → Prop
  | rawBody e => e ∈ s.db.providerEvents.rows ∧ e.rawBody.isSome = true
  | network e => e ∈ s.db.providerEvents.rows ∧ e.hasNetwork = true
  | event e => e ∈ s.db.providerEvents.rows
  | order o => o ∈ s.db.storeOrders.rows
  | ledgerRow r => r ∈ s.db.billingLedger.rows
  | refund f => f ∈ s.db.refunds.rows
  | claim c => c ∈ s.db.recoveryClaims.rows
  | report r => r ∈ s.settlementReports.rows
  | line l => l ∈ s.settlementLines.rows
  | audit a => a ∈ s.accessAudits.rows
  | grant g => g ∈ s.reauthGrants.rows

def Unchanged (s : RetentionStore) : RetainedDatum → Prop
  | rawBody e => ∃ e' ∈ s.db.providerEvents.rows, e'.id = e.id ∧ e'.rawBody = e.rawBody
  | network e => ∃ e' ∈ s.db.providerEvents.rows, e'.id = e.id ∧ e'.sourceIp = e.sourceIp ∧ e'.userAgent = e.userAgent
  | event e => ∃ e' ∈ s.db.providerEvents.rows, e' = { e with
      rawBody := e'.rawBody
      sourceIp := e'.sourceIp
      userAgent := e'.userAgent }
  | d => d.In s

end RetainedDatum

def HeldEvidence (s : RetentionStore) (now : Int) (e : ProviderEvent) : Prop :=
  (e.rawBody.isSome = true ∧ s.held .rawCallbackBodies now e.id = true) ∨
    (e.hasNetwork = true ∧ s.held .networkMetadata now e.id = true)

theorem selects_iff {roots : List FinancialCandidate} {table : FinancialTable} {id : String} :
    selects roots table id = true ↔ ∃ c ∈ roots, c.table = table ∧ id = c.id := by
  simp only [selects, any_eq_true, decide_eq_true_eq]

section Pass

variable {s : RetentionStore} {now : Instant} {policy : StorePrivacyRetention} {id : String}

theorem runCandidates_unheld {table : FinancialTable} (h : selects (runCandidates s now policy) table id = true) :
    s.held .financialRecords (timestamp now) id = false := by
  obtain ⟨c, hc, -, rfl⟩ := selects_iff.1 h
  have hfree := (mem_filter.1 (mem_retentionBatch hc)).2
  simp only [decide_eq_true_eq] at hfree
  exact Bool.eq_false_iff.2 hfree.2

theorem runCandidates_root {c : FinancialCandidate} (h : c ∈ runCandidates s now policy) : c ∈ financialRoots s :=
  mem_of_mem_filter (mem_retentionBatch h)

theorem runCandidates_audit {a : AccessAudit} (ha : a ∈ s.accessAudits.rows) (hredemption : a.isRedemption = true) :
    selects (runCandidates s now policy) .accessAudits a.id = false := by
  rw [Bool.eq_false_iff]
  intro h
  obtain ⟨c, hc, htable, hid⟩ := selects_iff.1 h
  have hroot := runCandidates_root hc
  simp only [financialRoots, mem_append, mem_map] at hroot
  rcases hroot with (((((⟨_, _, rfl⟩ | ⟨_, _, rfl⟩) | ⟨_, _, rfl⟩) | ⟨_, _, rfl⟩) | ⟨_, _, rfl⟩) | ⟨_, _, rfl⟩) | ⟨a', ha', rfl⟩
  all_goals try cases htable
  have hsame : a = a' := Table.eq_of_clashes ha (mem_filter.1 ha').1 hid
  have hother := (mem_filter.1 ha').2
  rw [← hsame, hredemption] at hother
  cases hother

variable {cleared pruned next : RetentionStore} {f : ProviderEvent → ProviderEvent}

theorem event_survives (hcleared : Cleared s cleared (timestamp now) f)
    (hpruned : Pruned cleared pruned (timestamp now) (runCandidates s now policy))
    (hswept : Swept pruned next (timestamp now)) {e : ProviderEvent} (he : e ∈ s.db.providerEvents.rows)
    (hkept : selects (runCandidates s now policy) .providerEvents e.id = false) : f e ∈ next.db.providerEvents.rows := by
  rw [hswept.frame, hpruned.events, mem_filter, hcleared.rows]
  refine ⟨mem_map_of_mem he, ?_⟩
  rw [hcleared.clears.id, hkept]
  rfl

theorem applyRetention_unchanged (hcleared : Cleared s cleared (timestamp now) f)
    (hpruned : Pruned cleared pruned (timestamp now) (runCandidates s now policy))
    (hswept : Swept pruned next (timestamp now))
    (hevidence : ∀ e ∈ s.db.providerEvents.rows, selects (runCandidates s now policy) .providerEvents e.id = true →
      ¬ HeldEvidence s (timestamp now) e) (hd : d.In s) (hheld : s.held d.dataClass (timestamp now) d.identifier = true) :
    d.Unchanged next := by
  have hroot (table : FinancialTable) (id : String) (h : s.held .financialRecords (timestamp now) id = true) :
      selects (runCandidates s now policy) table id = false := by
    rw [Bool.eq_false_iff]
    intro hselects
    rw [runCandidates_unheld hselects] at h
    cases h
  have hchild (id : String) (h : s.held .financialRecords (timestamp now) id = true) :
      unheld cleared (timestamp now) id = false := by
    rw [unheld, hcleared.held, h]
    rfl
  have hcarrier {e : ProviderEvent} (he : e ∈ s.db.providerEvents.rows) (h : HeldEvidence s (timestamp now) e) :
      selects (runCandidates s now policy) .providerEvents e.id = false := by
    rw [Bool.eq_false_iff]
    exact fun hselects => hevidence e he hselects h
  cases d with
  | rawBody e =>
    refine ⟨f e, event_survives hcleared hpruned hswept hd.1 (hcarrier hd.1 (.inl ⟨hd.2, hheld⟩)), ?_, ?_⟩
    · exact hcleared.clears.id e
    · exact hcleared.clears.raw e hheld
  | network e =>
    refine ⟨f e, event_survives hcleared hpruned hswept hd.1 (hcarrier hd.1 (.inr ⟨hd.2, hheld⟩)), ?_, ?_⟩
    · exact hcleared.clears.id e
    · exact hcleared.clears.network e hheld
  | event e => exact ⟨f e, event_survives hcleared hpruned hswept hd (hroot _ _ hheld), hcleared.clears.rest e⟩
  | order o =>
    show o ∈ next.db.storeOrders.rows
    rw [hswept.frame, hpruned.orders, mem_filter, hroot _ o.id hheld, hcleared.frame]
    exact ⟨hd, rfl⟩
  | ledgerRow r =>
    show r ∈ next.db.billingLedger.rows
    rw [hswept.frame, hpruned.ledger, mem_filter, hroot _ r.id hheld, hcleared.frame]
    exact ⟨hd, rfl⟩
  | refund r =>
    show r ∈ next.db.refunds.rows
    rw [hswept.frame, hpruned.refunds, mem_filter, refundReached, hroot _ r.id hheld, hchild r.id hheld, hcleared.frame]
    exact ⟨hd, by rw [Bool.and_false]; rfl⟩
  | claim c =>
    show c ∈ next.db.recoveryClaims.rows
    rw [hswept.frame, hpruned.claims, mem_filter, claimReached, hroot _ c.id hheld, hchild c.id hheld, hcleared.frame]
    exact ⟨hd, rfl⟩
  | report r =>
    show r ∈ next.settlementReports.rows
    rw [hswept.frame, hpruned.reports, mem_filter, reportReached, hroot _ r.id hheld, hcleared.frame]
    exact ⟨hd, rfl⟩
  | line l =>
    show l ∈ next.settlementLines.rows
    rw [hswept.frame, hpruned.lines, mem_filter, lineReached, hchild l.id hheld, hcleared.frame]
    exact ⟨hd, by rw [Bool.and_false]; rfl⟩
  | audit a =>
    have hpresent (h : selects (runCandidates s now policy) .accessAudits a.id = false) : a ∈ pruned.accessAudits.rows := by
      rw [hpruned.audits, mem_filter, h, hcleared.frame]
      exact ⟨hd, rfl⟩
    cases hredemption : a.isRedemption with
    | false =>
      rw [RetainedDatum.dataClass, hredemption] at hheld
      exact hswept.audits a (hpresent (hroot _ _ hheld)) (.inl hredemption)
    | true =>
      rw [RetainedDatum.dataClass, hredemption] at hheld
      apply hswept.audits a (hpresent (runCandidates_audit hd hredemption)) (.inr _)
      rw [hpruned.held, hcleared.held]
      exact hheld
  | grant g =>
    apply hswept.grants g
    · rw [hpruned.frame, hcleared.frame]
      exact hd
    · rw [hpruned.held, hcleared.held]
      exact hheld

end Pass

theorem Grown.datum_in (h : Grown s next) (hd : d.In s) : d.In next := by
  cases d with
  | audit a => exact h.audits a hd
  | _ =>
    rw [h.frame]
    exact hd

theorem Grown.datum_unchanged (h : Grown s next) (hd : d.Unchanged s) : d.Unchanged next := by
  cases d with
  | audit a => exact h.audits a hd
  | _ =>
    rw [h.frame]
    exact hd

theorem RetainedDatum.In.unchanged (hd : d.In s) : d.Unchanged s := by
  cases d with
  | rawBody e => exact ⟨e, hd.1, rfl, rfl⟩
  | network e => exact ⟨e, hd.1, rfl, rfl, rfl⟩
  | event e => exact ⟨e, hd, rfl⟩
  | _ => exact hd

theorem deleted_event {claimed cleared pruned applied : RetentionStore} {now : Instant} {policy : StorePrivacyRetention}
    (hpruned : Pruned cleared pruned (timestamp now) (runCandidates claimed now policy))
    (hswept : Swept pruned applied (timestamp now)) (hgrown : Grown applied next) {id : String}
    (hselects : selects (runCandidates claimed now policy) .providerEvents id = true) :
    ∀ e ∈ next.db.providerEvents.rows, e.id ≠ id := by
  intro e he hid
  rw [hgrown.frame, hswept.frame, hpruned.events, mem_filter, hid, hselects] at he
  cases he.2

/-- Holds are honoured exactly by the runs that delete no event whose raw body or network metadata is held. -/
theorem runAt_honours_holds (parseTime : String → Option Instant) (s : RetentionStore) (ownerId : String)
    (clock : Instant) (actor : RetentionRunActor) (ids : RetentionIds) :
    (∀ d : RetainedDatum, d.In s → s.held d.dataClass (timestamp (canonicalTime clock)) d.identifier = true →
      d.Unchanged (runAt parseTime s ownerId clock actor ids).1) ↔
    ∀ e ∈ s.db.providerEvents.rows, selects (deletedRoots parseTime s ownerId clock actor ids) .providerEvents e.id = true →
      ¬ HeldEvidence s (timestamp (canonicalTime clock)) e := by
  rcases runAt_cases parseTime s ownerId clock actor ids with
    ⟨hnone, hgrown⟩ | ⟨claimed, policy, counts, applied, hclaimed, -, happlied, hgrown, hroots⟩
  · rw [hnone]
    constructor
    · intro _ e _ hselects
      cases hselects
    · intro _ d hd _
      exact hgrown.datum_unchanged hd.unchanged
  · rw [hroots]
    have hevents : claimed.db.providerEvents = s.db.providerEvents := by rw [hclaimed.frame]
    obtain ⟨cleared, f, pruned, hcleared, hpruned, hswept⟩ := applyRetention_inv happlied
    constructor
    · intro hkept e he hselects hevidence
      have hgone := deleted_event hpruned hswept hgrown hselects
      rcases hevidence with ⟨hraw, hheld⟩ | ⟨hnetwork, hheld⟩
      · obtain ⟨e', he', hid, -⟩ := hkept (.rawBody e) ⟨he, hraw⟩ hheld
        exact hgone e' he' hid
      · obtain ⟨e', he', hid, -⟩ := hkept (.network e) ⟨he, hnetwork⟩ hheld
        exact hgone e' he' hid
    · intro hsafe d hd hheld
      apply hgrown.datum_unchanged
      apply applyRetention_unchanged hcleared hpruned hswept _ (hclaimed.datum_in hd)
      · rw [hclaimed.held]
        exact hheld
      · intro e he hselects hevidence
        rw [hevents] at he
        apply hsafe e he hselects
        simp only [HeldEvidence, hclaimed.held] at hevidence
        exact hevidence

section Sample

-- An event of 1 January whose raw body is held, and a run on 1 June with a policy of one day.
def sampleReadTime (text : String) : Option Instant :=
  if text = "2026-01-01T00:00:00Z" then some (seconds 1767225600)
  else if text = "2027-01-01T00:00:00Z" then some (seconds 1798761600)
  else none

def sampleHeldEvent : ProviderEvent :=
  { id := "e1"
    credentialVersionId := "k1"
    providerEventId := "p1"
    eventKind := "payment"
    bodyDigest := "d1"
    parsedJson := []
    projectionState := .applied
    rawBody := some ⟨1, "key", "nonce", "body"⟩
    sourceIp := none
    userAgent := none
    receivedAt := timestamp (seconds 1767225600) }

def sampleRetentionStore : RetentionStore :=
  { db := { providerEvents := .single sampleHeldEvent }
    legalHolds := .single ⟨"h1", timestamp (seconds 1767225600), timestamp (seconds 1798761600)⟩
    legalHoldItems := .single ⟨"h1", .rawCallbackBodies, "e1"⟩
    privacyRecords := .single ⟨"r1", "v1", some ⟨30, 90, 1, 730, 1⟩, "2026-01-01T00:00:00Z", "2027-01-01T00:00:00Z", true⟩ }

def sampleRetentionActor : RetentionRunActor := ⟨retentionSystemActor, "system", "scheduled_retention"⟩

def sampleRetentionIds : RetentionIds := ⟨"run1", "a1", "a2", "l1", "l2"⟩

theorem runAt_deletes_held_body :
    (RetainedDatum.rawBody sampleHeldEvent).In sampleRetentionStore ∧
    sampleRetentionStore.held .rawCallbackBodies (timestamp (canonicalTime (seconds 1780272000))) sampleHeldEvent.id = true ∧
    ¬ (RetainedDatum.rawBody sampleHeldEvent).Unchanged (runAt sampleReadTime sampleRetentionStore "owner"
      (seconds 1780272000) sampleRetentionActor sampleRetentionIds).1 := by
  have hrows : (runAt sampleReadTime sampleRetentionStore "owner" (seconds 1780272000) sampleRetentionActor
      sampleRetentionIds).1.db.providerEvents.rows = [] := by decide +kernel
  refine ⟨⟨mem_singleton.2 rfl, rfl⟩, by decide +kernel, ?_⟩
  rintro ⟨e, he, -⟩
  rw [hrows] at he
  cases he

end Sample

end Monoize
