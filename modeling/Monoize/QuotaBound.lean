import Mathlib.Algebra.Group.End
import Monoize.IntervalLoad
import Monoize.QuotaConservation

namespace Monoize

open Fallible MachineInt Relational Transition IntervalLoad List Table QuotaBucket

variable {bd : BucketBinding} {b : QuotaBucket} {db db' : Database}

theorem append_separator_inj {xs xs' ys ys' : List Char} {c : Char} (hy : c ∉ ys) (hy' : c ∉ ys')
    (h : xs ++ c :: ys = xs' ++ c :: ys') : xs = xs' ∧ ys = ys' := by
  rcases append_eq_append_iff.1 h with ⟨zs, rfl, hz⟩ | ⟨zs, rfl, hz⟩
  · cases zs with
    | nil => simpa using hz
    | cons z zs =>
      simp only [cons_append, cons.injEq] at hz
      exact absurd (by simp [hz.2]) hy
  · cases zs with
    | nil => simpa using hz.symm
    | cons z zs =>
      simp only [cons_append, cons.injEq] at hz
      exact absurd (by simp [hz.2]) hy'

theorem nul_not_mem_toString (v : Int) : '\x00' ∉ (toString v).toList := by
  have hdigits (n : Nat) : '\x00' ∉ Nat.toDigits 10 n := fun h =>
    absurd (Nat.isDigit_of_mem_toDigits (by omega) (by omega) h) (by decide)
  rw [toList_toString]
  split
  · simp [hdigits]
  · exact hdigits _

theorem toString_inj {v v' : Int} (h : (toString v).toList = (toString v').toList) : v = v' := by
  have hv := congrArg signed? h
  simpa only [signed?_toString, Option.some.injEq] using hv

theorem bucketPayload_inj {e r r' : String} {g s s' t t' : Int}
    (h : bucketPayload e g r s t = bucketPayload e g r' s' t') : r = r' ∧ s = s' ∧ t = t' := by
  have hlist := congrArg String.toList h
  simp only [bucketPayload, String.toList_append, append_assoc, append_cancel_left_eq] at hlist
  have hsep : ("\x00" : String).toList = ['\x00'] := rfl
  simp only [hsep, singleton_append] at hlist
  rw [← cons_append, ← append_assoc, ← cons_append, ← append_assoc] at hlist
  obtain ⟨hleft, ht⟩ := append_separator_inj (nul_not_mem_toString t) (nul_not_mem_toString t') hlist
  obtain ⟨hr, hs⟩ := append_separator_inj (nul_not_mem_toString s) (nul_not_mem_toString s') hleft
  exact ⟨String.toList_inj.1 hr, toString_inj hs, toString_inj ht⟩

def OfRule (g : EntitlementGenerationRow) (rule : PlanQuota) (b : QuotaBucket) : Prop :=
  b.entitlementId = g.id ∧ b.generation = g.generation ∧ b.quotaRuleId = rule.id
  deriving Decidable

def ruleBuckets (buckets : Table QuotaBucket) (g : EntitlementGenerationRow) (rule : PlanQuota) :
    List QuotaBucket := buckets.rows.filter fun b => OfRule g rule b

def ruleLoad (buckets : Table QuotaBucket) (g : EntitlementGenerationRow) (rule : PlanQuota) (u : Instant) : Int :=
  loadAt QuotaBucket.windowStart QuotaBucket.windowEnd bucketUse (ruleBuckets buckets g rule) (timestamp u)

def NoneViolated (db : Database) : Prop := ∀ r ∈ db.quotaReservations.rows, r.state ≠ .violated

structure BucketOrigins [Sha256] (db : Database) : Prop where
  digest : ∀ b ∈ db.quotaBuckets.rows, b.id = "quota-bucket-" ++
    sha256 (bucketPayload b.entitlementId b.generation b.quotaRuleId b.windowStart b.windowEnd)
  generation : ∀ b ∈ db.quotaBuckets.rows, ∃ g ∈ db.entitlementGenerations.rows, g.id = b.entitlementId

structure WithinQuota (db : Database) : Prop where
  rolling : ∀ g ∈ db.entitlementGenerations.rows, ∀ rule ∈ g.quotas.rules, isRolling rule.windowKind = true →
    ∀ q, parseCanonical rule.quotaFenCny = .ok q → ∀ u, ruleLoad db.quotaBuckets g rule u ≤ q
  bucket : ∀ g ∈ db.entitlementGenerations.rows, ∀ rule ∈ g.quotas.rules,
    ∀ q, parseCanonical rule.quotaFenCny = .ok q → ∀ b ∈ ruleBuckets db.quotaBuckets g rule, bucketUse b ≤ q

theorem mem_ruleBuckets {buckets : Table QuotaBucket} {g : EntitlementGenerationRow} {rule : PlanQuota} :
    b ∈ ruleBuckets buckets g rule ↔ b ∈ buckets.rows ∧ OfRule g rule b := by
  rw [ruleBuckets, mem_filter, decide_eq_true_eq]

theorem chargedBucket_columns (fen : Int) (now : Instant) (ids : List String) (b : QuotaBucket) :
    (chargedBucket fen now ids b).id = b.id ∧ (chargedBucket fen now ids b).entitlementId = b.entitlementId ∧
    (chargedBucket fen now ids b).generation = b.generation ∧
    (chargedBucket fen now ids b).quotaRuleId = b.quotaRuleId ∧
    (chargedBucket fen now ids b).windowStart = b.windowStart ∧
    (chargedBucket fen now ids b).windowEnd = b.windowEnd := by
  unfold chargedBucket
  split <;> exact ⟨rfl, rfl, rfl, rfl, rfl, rfl⟩

theorem bucketUse_charged (fen : Int) (now : Instant) (ids : List String) (b : QuotaBucket) :
    bucketUse (chargedBucket fen now ids b) = bucketUse b + if b.id ∈ ids then fen else 0 := by
  unfold chargedBucket bucketUse
  split
  · simp only
    omega
  · omega

theorem activeUse_eq_liveLoad (buckets : Table QuotaBucket) (g : EntitlementGenerationRow) (now : Instant)
    (rule : PlanQuota) : activeUse buckets g now rule.id =
      liveLoad windowEnd bucketUse (ruleBuckets buckets g rule) (timestamp now) := by
  rw [liveLoad, ruleBuckets, filter_filter]
  refine congrArg (fun l => (map bucketUse l).sum) (filter_congr fun b _ => ?_)
  rw [Bool.eq_iff_iff]
  simp only [Bool.and_eq_true, decide_eq_true_eq]
  unfold Active OfRule
  tauto

section Admission

variable [Sha256] {g : EntitlementGenerationRow} {now : Instant}
  {row : QuotaReservationRow} {bindings : List BucketBinding} {buckets : Table QuotaBucket}

variable (ha : Admission db db' g now row bindings buckets) (hinj : Function.Injective sha256) (ho : BucketOrigins db)

include ha

theorem Admission.binding_spec :
    (∀ rule ∈ g.quotas.rules, ∃ bd ∈ bindings, bd.rule = rule) ∧ ∀ bd ∈ bindings,
      bd.rule ∈ g.quotas.rules ∧ quotaWindow bd.rule.windowKind bd.rule.windowSeconds now = .ok bd.window ∧
      bd.id = bucketId g.id g.generation bd.rule bd.window := by
  obtain ⟨unsorted, hunsorted, hperm⟩ := ha.bindings_perm
  obtain ⟨hrules, hspec⟩ := bucketBindings_spec hunsorted
  constructor
  · intro rule hrule
    rw [← hrules, mem_map] at hrule
    obtain ⟨bd, hbd, rfl⟩ := hrule
    exact ⟨bd, hperm.mem_iff.2 hbd, rfl⟩
  · intro bd hbd
    have hmem := hperm.mem_iff.1 hbd
    obtain ⟨hwindow, hid⟩ := hspec bd hmem
    refine ⟨?_, hwindow, hid⟩
    rw [← hrules]
    exact mem_map_of_mem hmem

theorem Admission.eq_of_rule_id {bd' : BucketBinding}
    (hbd : bd ∈ bindings) (hbd' : bd' ∈ bindings) (h : bd.rule.id = bd'.rule.id) :
    bd.rule = bd'.rule ∧ bd.id = bd'.id ∧ bd.window = bd'.window := by
  obtain ⟨hmem, hw, hid⟩ := ha.binding_spec.2 bd hbd
  obtain ⟨hmem', hw', hid'⟩ := ha.binding_spec.2 bd' hbd'
  have hrule : bd.rule = bd'.rule := inj_on_of_nodup_map g.quotas.distinct hmem hmem' h
  rw [← hrule, hw, Except.ok.injEq] at hw'
  exact ⟨hrule, by rw [hid, hid', hrule, hw'], hw'⟩

theorem ruleBuckets_admission (g' : EntitlementGenerationRow) (rule : PlanQuota) :
    ruleBuckets db'.quotaBuckets g' rule = (ruleBuckets buckets g' rule).map
      (chargedBucket row.reservedFenCny now (bindings.map (·.id))) := by
  rw [ruleBuckets, ha.charged, filter_map]
  refine congrArg _ (filter_congr fun b _ => ?_)
  obtain ⟨-, h₂, h₃, h₄, -, -⟩ := chargedBucket_columns row.reservedFenCny now (bindings.map (·.id)) b
  refine decide_eq_decide.2 ?_
  rw [OfRule, h₂, h₃, h₄, OfRule]

theorem ruleLoad_inserted (g' : EntitlementGenerationRow) (rule : PlanQuota) (u : Instant) :
    ruleLoad buckets g' rule u = ruleLoad db.quotaBuckets g' rule u := by
  obtain ⟨added, hadded, hfresh⟩ := ha.inserted
  have hzero : loadAt windowStart windowEnd bucketUse
      (added.filter fun b => OfRule g' rule b) (timestamp u) = 0 := by
    refine loadAt_eq_zero fun b hb => ?_
    obtain ⟨bd, -, rfl, -⟩ := hfresh b (mem_of_mem_filter hb)
    rfl
  rw [ruleLoad, ruleBuckets, hadded, filter_append, loadAt_append, hzero, Int.add_zero]
  rfl

theorem ruleLoad_admission (g' : EntitlementGenerationRow) (rule : PlanQuota) (u : Instant) :
    ruleLoad db'.quotaBuckets g' rule u = loadAt windowStart windowEnd
      (fun b => bucketUse b + if b.id ∈ bindings.map (·.id) then row.reservedFenCny else 0)
      (ruleBuckets buckets g' rule) (timestamp u) := by
  have hcols (b : QuotaBucket) := chargedBucket_columns row.reservedFenCny now (bindings.map (·.id)) b
  rw [ruleLoad, ruleBuckets_admission ha, loadAt_map]
  simp only [(hcols _).2.2.2.2.1, (hcols _).2.2.2.2.2, bucketUse_charged]

theorem Admission.ruleBuckets_nonneg
    (rule : PlanQuota) : ∀ b ∈ ruleBuckets buckets g rule, timestamp now < b.windowEnd → 0 ≤ bucketUse b := by
  intro b hb hlive
  rw [mem_ruleBuckets] at hb
  have hn := ha.nonneg b hb.1 ⟨hb.2.1, hb.2.2.1, hlive⟩
  exact Int.add_nonneg hn.1 hn.2

theorem Admission.room (hbd : bd ∈ bindings) {q : Int} (hq : parseCanonical bd.rule.quotaFenCny = .ok q) :
    liveLoad windowEnd bucketUse (ruleBuckets buckets g bd.rule) (timestamp now) +
      row.reservedFenCny ≤ q := by
  obtain ⟨q', hq', hle⟩ := ha.within bd hbd
  rw [hq, Except.ok.injEq] at hq'
  rw [← activeUse_eq_liveLoad, hq']
  exact hle

include ho

theorem Admission.digest
    : ∀ b ∈ buckets.rows,
      b.id = "quota-bucket-" ++
        sha256 (bucketPayload b.entitlementId b.generation b.quotaRuleId b.windowStart b.windowEnd) := by
  intro b hb
  obtain ⟨added, hadded, hfresh⟩ := ha.inserted
  rw [hadded, mem_append] at hb
  rcases hb with hb | hb
  · exact ho.digest b hb
  · obtain ⟨bd, hbd, rfl, -⟩ := hfresh b hb
    exact (ha.binding_spec.2 bd hbd).2.2

theorem bucketOrigins_admission : BucketOrigins db' := by
  have hgen : db'.entitlementGenerations = db.entitlementGenerations := by rw [ha.frame]
  constructor
  · intro b hb
    rw [ha.charged, mem_map] at hb
    obtain ⟨b₀, hb₀, rfl⟩ := hb
    obtain ⟨h₁, h₂, h₃, h₄, h₅, h₆⟩ := chargedBucket_columns row.reservedFenCny now (bindings.map (·.id)) b₀
    rw [h₁, h₂, h₃, h₄, h₅, h₆]
    exact ha.digest ho b₀ hb₀
  · intro b hb
    rw [ha.charged, mem_map] at hb
    obtain ⟨b₀, hb₀, rfl⟩ := hb
    rw [hgen, (chargedBucket_columns row.reservedFenCny now (bindings.map (·.id)) b₀).2.1]
    obtain ⟨added, hadded, hfresh⟩ := ha.inserted
    rw [hadded, mem_append] at hb₀
    rcases hb₀ with hb₀ | hb₀
    · exact ho.generation b₀ hb₀
    · obtain ⟨bd, -, rfl, -⟩ := hfresh b₀ hb₀
      exact ⟨g, ha.generation_mem, rfl⟩

include hinj

theorem Admission.charged_spec (hb : b ∈ buckets.rows) (hbd : bd ∈ bindings)
    (hid : b.id = bd.id) : Active g now b ∧ b.quotaRuleId = bd.rule.id ∧ b.windowStart = timestamp bd.window.start ∧
      b.windowEnd = timestamp bd.window.stop := by
  obtain ⟨b', hb', hid', hactive⟩ := ha.bound bd hbd
  have heq : b' = b := eq_of_clashes hb' hb (clashes_of_id (hid'.trans hid.symm))
  subst heq
  have hdigest := ha.digest ho b' hb'
  rw [hid, (ha.binding_spec.2 bd hbd).2.2, bucketId, String.append_right_inj] at hdigest
  have hpayload := hinj hdigest
  rw [hactive.1, hactive.2.1] at hpayload
  obtain ⟨hrule, hstart, hstop⟩ := bucketPayload_inj hpayload
  exact ⟨hactive, hrule.symm, hstart.symm, hstop.symm⟩

theorem Admission.generation_of_charged {g' : EntitlementGenerationRow}
    (hg' : g' ∈ db.entitlementGenerations.rows) (hb : b ∈ buckets.rows) (hent : b.entitlementId = g'.id)
    (hid : b.id ∈ bindings.map (·.id)) : g' = g := by
  obtain ⟨bd, hbd, hbdid⟩ := mem_map.1 hid
  obtain ⟨hactive, -⟩ := ha.charged_spec hinj ho hb hbd hbdid.symm
  exact eq_of_clashes hg' ha.generation_mem (.inl (hent.symm.trans hactive.1))

theorem withinQuota_admission (hw : WithinQuota db) : WithinQuota db' := by
  have hgen : db'.entitlementGenerations = db.entitlementGenerations := by rw [ha.frame]
  have hnodup : buckets.rows.Nodup :=
    buckets.distinct.imp fun {a b} h (e : a = b) => h (clashes_of_id (congrArg _ e))
  constructor
  · intro g' hg' rule hrule hrolling q hq u
    rw [hgen] at hg'
    have hbefore : ruleLoad buckets g' rule u ≤ q :=
      (ruleLoad_inserted ha g' rule u).symm ▸ hw.rolling g' hg' rule hrule hrolling q hq u
    rw [ruleLoad_admission ha]
    by_cases hgg : g' = g
    · subst hgg
      obtain ⟨bd, hbd, rfl⟩ := ha.binding_spec.1 rule hrule
      obtain ⟨b, hb, hid, -⟩ := ha.bound bd hbd
      obtain ⟨hactive, hbrule, hstart, -⟩ := ha.charged_spec hinj ho hb hbd hid
      have hmem : b ∈ ruleBuckets buckets g' bd.rule := by
        rw [mem_ruleBuckets]
        exact ⟨hb, hactive.1, hactive.2.1, hbrule⟩
      have hwindow := quotaWindow_rolling hrolling (ha.binding_spec.2 bd hbd).2.1
      have hcharge : ∀ c ∈ ruleBuckets buckets g' bd.rule, (c.id ∈ bindings.map (·.id) ↔ c = b) := by
        intro c hc
        rw [mem_ruleBuckets] at hc
        constructor
        · intro hcid
          obtain ⟨bd', hbd', hbdid⟩ := mem_map.1 hcid
          obtain ⟨-, hcrule, -, -⟩ := ha.charged_spec hinj ho hc.1 hbd' hbdid.symm
          have hsame := ha.eq_of_rule_id hbd' hbd (hcrule.symm.trans hc.2.2.2)
          have hcb : c.id = b.id := hbdid.symm.trans (hsame.2.1.trans hid.symm)
          exact eq_of_clashes hc.1 hb (clashes_of_id hcb)
        · rintro rfl
          exact mem_map.2 ⟨bd, hbd, hid.symm⟩
      have hsum : loadAt windowStart windowEnd
          (fun c => bucketUse c + if c.id ∈ bindings.map (·.id) then row.reservedFenCny else 0)
          (ruleBuckets buckets g' bd.rule) (timestamp u) =
          loadAt windowStart windowEnd
            (fun c => bucketUse c + if c = b then row.reservedFenCny else 0)
            (ruleBuckets buckets g' bd.rule) (timestamp u) :=
        loadAt_congr fun c hc => by simp only [hcharge c hc]
      rw [hsum]
      refine loadAt_charge_le (hnodup.filter _) hmem ?_ hbefore (ha.room hbd hq) (ha.ruleBuckets_nonneg _)
      rw [hstart, hwindow]
    · have hsame : ∀ b ∈ ruleBuckets buckets g' rule,
          bucketUse b + (if b.id ∈ bindings.map (·.id) then row.reservedFenCny else 0) = bucketUse b := by
        intro b hb
        rw [mem_ruleBuckets] at hb
        have hne : b.id ∉ bindings.map (·.id) := fun hid =>
          hgg (ha.generation_of_charged hinj ho hg' hb.1 hb.2.1 hid)
        rw [if_neg hne, Int.add_zero]
      rw [loadAt_congr hsame]
      exact hbefore
  · intro g' hg' rule hrule q hq b' hb'
    rw [hgen] at hg'
    rw [ruleBuckets_admission ha, mem_map] at hb'
    obtain ⟨b, hb, rfl⟩ := hb'
    rw [bucketUse_charged]
    have hbr := hb
    rw [mem_ruleBuckets] at hb
    by_cases hid : b.id ∈ bindings.map (·.id)
    · have hgg := ha.generation_of_charged hinj ho hg' hb.1 hb.2.1 hid
      subst hgg
      rw [if_pos hid]
      obtain ⟨bd, hbd, hbdid⟩ := mem_map.1 hid
      obtain ⟨hactive, hbrule, -, -⟩ := ha.charged_spec hinj ho hb.1 hbd hbdid.symm
      have hrules : bd.rule = rule := inj_on_of_nodup_map g'.quotas.distinct
        (ha.binding_spec.2 bd hbd).1 hrule (hbrule.symm.trans hb.2.2.2)
      subst hrules
      have hone := le_liveLoad hbr hactive.2.2 (ha.ruleBuckets_nonneg bd.rule)
      have hroom := ha.room hbd hq
      omega
    · rw [if_neg hid, Int.add_zero]
      obtain ⟨added, hadded, hfresh⟩ := ha.inserted
      have hold : b ∈ db.quotaBuckets.rows := by
        have hbmem := hb.1
        rw [hadded, mem_append] at hbmem
        rcases hbmem with hbmem | hbmem
        · exact hbmem
        · obtain ⟨bd, hbd, rfl, -⟩ := hfresh b hbmem
          exact absurd (mem_map.2 ⟨bd, hbd, rfl⟩) hid
      refine hw.bucket g' hg' rule hrule q hq b ?_
      rw [mem_ruleBuckets]
      exact ⟨hold, hb.2⟩

end Admission

section Termination

variable {row : QuotaReservationRow} {actualNano actualFen : Option Int} {now : Instant}

theorem settledBucket_columns (actualFen : Option Int) (now : Instant) (links : List LinkedBucket) (b : QuotaBucket) :
    (settledBucket actualFen now links b).entitlementId = b.entitlementId ∧
    (settledBucket actualFen now links b).generation = b.generation ∧
    (settledBucket actualFen now links b).quotaRuleId = b.quotaRuleId ∧
    (settledBucket actualFen now links b).windowStart = b.windowStart ∧
    (settledBucket actualFen now links b).windowEnd = b.windowEnd := by
  unfold settledBucket
  split <;> exact ⟨rfl, rfl, rfl, rfl, rfl⟩

variable (ht : Termination db db' row actualNano actualFen now)

include ht

theorem ruleBuckets_termination (g : EntitlementGenerationRow) (rule : PlanQuota) :
    ruleBuckets db'.quotaBuckets g rule = (ruleBuckets db.quotaBuckets g rule).map
      (settledBucket actualFen now (linkedBuckets db row.id)) := by
  rw [ruleBuckets, ht.buckets, filter_map]
  refine congrArg _ (filter_congr fun b _ => ?_)
  obtain ⟨h₁, h₂, h₃, -, -⟩ :=
    settledBucket_columns actualFen now (linkedBuckets db row.id) b
  refine decide_eq_decide.2 ?_
  rw [OfRule, h₁, h₂, h₃, OfRule]

theorem noneViolated_termination (hv : NoneViolated db') : NoneViolated db ∧ actualFen.getD 0 ≤ row.reservedFenCny := by
  have hmem (r : QuotaReservationRow) (hr : r ∈ db.quotaReservations.rows) :
      (if r.id = row.id ∧ r.state = .reserved then terminatedRow actualNano actualFen now r else r) ∈
        db'.quotaReservations.rows := by
    rw [ht.reservations]
    exact mem_map.2 ⟨r, hr, by simp only [decide_eq_true_eq]⟩
  constructor
  · intro r hr hviolated
    have h := hv _ (hmem r hr)
    rw [if_neg (by simp [hviolated])] at h
    exact h hviolated
  · have h := hv _ (hmem row ht.row_mem)
    rw [if_pos ⟨rfl, ht.row_state⟩] at h
    cases actualFen with
    | none => exact ht.row_nonneg
    | some a =>
      by_contra hlt
      refine h ?_
      simp only [Option.getD_some] at hlt
      simp [terminatedRow, terminalState, hlt]

theorem bucketUse_termination (hc : QuotaConserved db)
    (hfen : actualFen.getD 0 ≤ row.reservedFenCny) (hb : b ∈ db.quotaBuckets.rows) :
    bucketUse (settledBucket actualFen now (linkedBuckets db row.id) b) ≤ bucketUse b := by
  by_cases hlinked : LinkedTo db.quotaReservationBuckets row.id b.id
  · obtain ⟨l, hl, hrid, hbid⟩ := hlinked
    obtain ⟨r, hr, hid, hamount⟩ := hc.link_reservation l hl
    have hrow : r = row := eq_of_clashes hr ht.row_mem
      (QuotaReservationRow.clashes_of_id (hid.trans hrid))
    subst hrow
    rw [settledBucket_linked hb hl hrid hbid]
    simp only [bucketUse]
    omega
  · rw [settledBucket_unlinked hlinked]

theorem withinQuota_termination (hc : QuotaConserved db) (hw : WithinQuota db) (hfen : actualFen.getD 0 ≤ row.reservedFenCny) :
    WithinQuota db' := by
  have hgen : db'.entitlementGenerations = db.entitlementGenerations := by rw [ht.frame]
  have hcols (b : QuotaBucket) := settledBucket_columns actualFen now (linkedBuckets db row.id) b
  constructor
  · intro g hg rule hrule hrolling q hq u
    rw [hgen] at hg
    refine le_trans ?_ (hw.rolling g hg rule hrule hrolling q hq u)
    rw [ruleLoad, ruleBuckets_termination ht, loadAt_map]
    simp only [(hcols _).2.2.2.1, (hcols _).2.2.2.2]
    exact loadAt_le fun b hb => bucketUse_termination ht hc hfen (mem_of_mem_filter hb)
  · intro g hg rule hrule q hq b' hb'
    rw [hgen] at hg
    rw [ruleBuckets_termination ht, mem_map] at hb'
    obtain ⟨b, hb, rfl⟩ := hb'
    have hle := bucketUse_termination ht hc hfen (mem_of_mem_filter hb)
    exact hle.trans (hw.bucket g hg rule hrule q hq b hb)

theorem bucketOrigins_termination [Sha256] (ho : BucketOrigins db) : BucketOrigins db' := by
  have hgen : db'.entitlementGenerations = db.entitlementGenerations := by rw [ht.frame]
  constructor
  · intro b' hb'
    rw [ht.buckets, mem_map] at hb'
    obtain ⟨b, hb, rfl⟩ := hb'
    obtain ⟨h₁, h₂, h₃, h₄, h₅⟩ :=
      settledBucket_columns actualFen now (linkedBuckets db row.id) b
    rw [settledBucket_id, h₁, h₂, h₃, h₄, h₅]
    exact ho.digest b hb
  · intro b' hb'
    rw [ht.buckets, mem_map] at hb'
    obtain ⟨b, hb, rfl⟩ := hb'
    rw [hgen, (settledBucket_columns actualFen now (linkedBuckets db row.id) b).1]
    exact ho.generation b hb

end Termination

section

variable [Sha256]

theorem withinQuota_replacement {row : EntitlementGenerationRow} (ho : BucketOrigins db) (hw : WithinQuota db)
    (hr : Replacement db db' row) : WithinQuota db' := by
  have hbuckets : db'.quotaBuckets = db.quotaBuckets := by rw [hr.frame]
  have hempty (rule : PlanQuota) : ruleBuckets db.quotaBuckets row rule = [] := by
    refine filter_eq_nil_iff.2 fun b hb hof => ?_
    obtain ⟨g, hg, hid⟩ := ho.generation b hb
    exact hr.row_fresh g hg (hid.trans (of_decide_eq_true hof).1)
  constructor
  · intro g hg rule hrule hrolling q hq u
    rw [hr.generations, mem_append, mem_singleton] at hg
    rw [hbuckets]
    rcases hg with hg | rfl
    · exact hw.rolling g hg rule hrule hrolling q hq u
    · rw [ruleLoad, hempty]
      exact (parseCanonical_bounds hq).1
  · intro g hg rule hrule q hq b hb
    rw [hr.generations, mem_append, mem_singleton] at hg
    rw [hbuckets] at hb
    rcases hg with hg | rfl
    · exact hw.bucket g hg rule hrule q hq b hb
    · rw [hempty] at hb
      cases hb

structure QuotaBounded (db : Database) : Prop where
  conserved : QuotaConserved db
  origins : BucketOrigins db
  within : NoneViolated db → WithinQuota db

theorem quotaBounded_initial (h : QuotaInitial db) : QuotaBounded db := by
  obtain ⟨hb, hr, hl⟩ := h
  refine ⟨quotaConserved_initial ⟨hb, hr, hl⟩, ?_, fun _ => ?_⟩
  · constructor <;> simp [hb]
  · constructor
    · intro g _ rule _ _ q hq u
      rw [hb]
      exact (parseCanonical_bounds hq).1
    · intro g _ rule _ q _ b hb'
      rw [hb] at hb'
      cases hb'

theorem quotaBounded_frame (h : QuotaBounded db) (hf : QuotaFrame db db') : QuotaBounded db' := by
  obtain ⟨hc, ⟨hd, hg⟩, hw⟩ := h
  refine ⟨quotaConserved_frame hc hf, ⟨?_, ?_⟩, fun hv => ?_⟩
  · rwa [hf.buckets]
  · rwa [hf.buckets, hf.generations]
  · obtain ⟨h₁, h₂⟩ := hw (by rwa [NoneViolated, hf.reservations] at hv)
    refine ⟨?_, ?_⟩
    · rwa [hf.buckets, hf.generations]
    · rwa [hf.buckets, hf.generations]

theorem quotaBounded_step (hinj : Function.Injective sha256) (h : QuotaBounded db) (hs : QuotaStep db db') :
    QuotaBounded db' := by
  have hconserved := quotaConserved_step h.conserved hs
  cases hs with
  | other hf => exact quotaBounded_frame h hf
  | call c =>
    cases c with
    | reserve input expected id =>
      simp only [QuotaCall.run] at hconserved ⊢
      cases hr : reserveTx db input expected id with
      | error e => exact h
      | ok out =>
        rw [hr] at hconserved
        rcases reserveTx_inv hr with ⟨rfl, -⟩ | ⟨g, row, bindings, buckets, -, ha⟩
        · exact h
        refine ⟨hconserved, bucketOrigins_admission ha h.origins, fun hv => ?_⟩
        have hbefore : NoneViolated db := fun r hr => hv r (by
          rw [commit, ha.reservations]
          exact mem_append_left _ hr)
        exact withinQuota_admission ha hinj h.origins (h.within hbefore)
    | terminal rid actual now vid =>
      simp only [QuotaCall.run] at hconserved ⊢
      cases hr : terminalTx db rid actual now vid with
      | error e => exact h
      | ok out =>
        rw [hr] at hconserved
        rcases terminalTx_inv hr with ⟨rfl, -⟩ | ⟨row, actualFen, -, ht⟩
        · exact h
        · refine ⟨hconserved, bucketOrigins_termination ht h.origins, fun hv => ?_⟩
          obtain ⟨hbefore, hfen⟩ := noneViolated_termination ht hv
          exact withinQuota_termination ht h.conserved (h.within hbefore) hfen
    | replaceEntitlement input id createdAt =>
      simp only [QuotaCall.run] at hconserved ⊢
      cases hr : replaceEntitlementTx db input id createdAt with
      | error e => exact h
      | ok out =>
        obtain ⟨g, db'⟩ := out
        rw [hr] at hconserved
        rcases replaceEntitlementTx_inv hr with rfl | ⟨row, hrep⟩
        · exact h
        have hbuckets : db'.quotaBuckets = db.quotaBuckets := by rw [hrep.frame]
        have hreservations : db'.quotaReservations = db.quotaReservations := by rw [hrep.frame]
        refine ⟨hconserved, ⟨?_, ?_⟩, fun hv => ?_⟩
        · rw [commit, hbuckets]
          exact h.origins.digest
        · rw [commit, hbuckets, hrep.generations]
          intro b hb
          obtain ⟨g, hg, hid⟩ := h.origins.generation b hb
          exact ⟨g, mem_append_left _ hg, hid⟩
        · rw [NoneViolated, commit, hreservations] at hv
          exact withinQuota_replacement h.origins (h.within hv) hrep

/-- The clock need not be monotone and the instant need not be past: the bound holds at every instant. -/
theorem quota_never_over_admitted (hinj : Function.Injective sha256)
    (db : Database) (h : Reachable QuotaInitial QuotaStep db) (hv : NoneViolated db)
    (g : EntitlementGenerationRow) (hg : g ∈ db.entitlementGenerations.rows) (rule : PlanQuota)
    (hrule : rule ∈ g.quotas.rules) (quota : Int) (hquota : parseCanonical rule.quotaFenCny = .ok quota) (u : Instant) :
    (isRolling rule.windowKind = true → ruleLoad db.quotaBuckets g rule u ≤ quota) ∧
    (isRolling rule.windowKind = false → ∀ b ∈ ruleBuckets db.quotaBuckets g rule,
      b.windowStart ≤ timestamp u → timestamp u < b.windowEnd → b.settledFenCny + b.reservedFenCny ≤ quota) := by
  have hb : QuotaBounded db :=
    h.invariant (fun _ => quotaBounded_initial) fun _ _ => quotaBounded_step hinj
  have hw := hb.within hv
  constructor
  · intro hrolling
    exact hw.rolling g hg rule hrule hrolling quota hquota u
  · intro _ b hbucket _ _
    exact hw.bucket g hg rule hrule quota hquota b hbucket

end

-- A permutation of texts with the true digests of the texts that the sample hashes.
def sampleSha256 : Equiv.Perm String :=
  Equiv.swap "ent\x001\x00rule-5h\x005000000\x0018005000000"
    "ab8ab5e9d2fc39170f176fc15a6940c5914931795bf7d89b168b827a659f08c6" *
  Equiv.swap "ent\x001\x00rule-day\x00-28800000000\x0057600000000"
    "adf1b4a4982a278f112f3e66c85db4eddd25c92cf8a9bff195ef550413200e95" *
  Equiv.swap "ent\x001\x00rule-5h\x007000000\x0018007000000"
    "756b7a538304d7663117352e5b29edd6974a221aa23b48b163a18c2c892d5b36"

local instance sampleDigests : Sha256 := ⟨sampleSha256, fun _ => "", fun _ => ""⟩

def sampleQuotaRun : Database := runQuotaCalls samplePlanDatabase sampleQuotaCalls

theorem quota_never_over_admitted_sample :
    ruleLoad sampleQuotaRun.quotaBuckets sampleGeneration ⟨"rule-5h", .fiveHours, 18000, "10", 1⟩ 7000000000 = 10 ∧
    ruleLoad sampleQuotaRun.quotaBuckets sampleGeneration ⟨"rule-5h", .fiveHours, 18000, "10", 1⟩ 7000000000 ≤ 10 :=
  ⟨by decide +kernel, (quota_never_over_admitted sampleSha256.injective _
    (runQuotaCalls_reachable sampleQuotaCalls (.start ⟨rfl, rfl, rfl⟩)) (by unfold NoneViolated; decide +kernel)
    sampleGeneration (by decide +kernel) _ (by decide) 10 (by decide +kernel) 7000000000).1 rfl⟩

end Monoize
