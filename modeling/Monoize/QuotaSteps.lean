import Monoize.QuotaStore

/-! What one admission and one terminal transaction do to the quota tables. -/

namespace Monoize

open Fallible MachineInt Relational List Option Table Function

variable {g : EntitlementGeneration} {now : Instant} {bs : List BucketBinding} {t t' : Table QuotaBucket} {fen : Int}
  {rid id : String} {db db' : Database} {input : QuotaReservationInput}
  {r : QuotaReservation}

theorem insertBuckets_spec (h : insertBuckets g now t bs = .ok t') : ∃ added, t'.rows = t.rows ++ added ∧
      ∀ b ∈ added, ∃ bd ∈ bs, b = freshBucket g now bd ∧ ∀ a ∈ t.rows, a.id ≠ bd.id := by
  induction bs generalizing t with
  | nil =>
    simp only [insertBuckets, pure_eq_ok] at h
    exact ⟨[], by simp [h], by simp⟩
  | cons bd bs ih =>
    simp only [insertBuckets, ok_iff] at h
    obtain ⟨next, hnext, hrest⟩ := h
    obtain ⟨added, hrows, hadded⟩ := ih hrest
    unfold insertBucket at hnext
    split at hnext
    · simp only [pure_eq_ok] at hnext
      subst hnext
      refine ⟨added, hrows, fun b hb => ?_⟩
      obtain ⟨bd', hbd', heq, hfresh⟩ := hadded b hb
      exact ⟨bd', mem_cons_of_mem _ hbd', heq, hfresh⟩
    · rename_i hnone
      rw [orError_eq_ok, insert?_eq_some] at hnext
      rw [hnext.2] at hrows hadded
      refine ⟨freshBucket g now bd :: added, by simp [hrows], fun b hb => ?_⟩
      rcases mem_cons.1 hb with rfl | hb
      · refine ⟨bd, mem_cons_self .., rfl, fun a ha hid => hnone ?_⟩
        rw [Table.find?, List.find?_isSome]
        exact ⟨a, ha, decide_eq_true hid⟩
      · obtain ⟨bd', hbd', heq, hfresh⟩ := hadded b hb
        exact ⟨bd', mem_cons_of_mem _ hbd', heq,
          fun a ha => hfresh a (mem_append_left _ ha)⟩

theorem bucketUsage_spec {bs : List QuotaBucket} {u u' : BucketUsage} (h : bucketUsage bs u = .ok u') :
    (∀ rule, u'.usedByRule rule = u.usedByRule rule +
      (bs.map fun b => if b.quotaRuleId = rule then b.settledFenCny + b.reservedFenCny else 0).sum) ∧
    (∀ id v, u'.reservedByBucket id = some v →
      u.reservedByBucket id = some v ∨ ∃ b ∈ bs, b.id = id ∧ b.reservedFenCny = v) ∧
    ∀ b ∈ bs, 0 ≤ b.settledFenCny ∧ 0 ≤ b.reservedFenCny := by
  induction bs generalizing u with
  | nil =>
    simp only [bucketUsage, pure_eq_ok] at h
    subst h
    simp +contextual
  | cons b bs ih =>
    simp only [bucketUsage, ok_iff, parseCanonical_toString, checked_eq_some] at h
    obtain ⟨_, ⟨rfl, hs, -⟩, _, ⟨rfl, hr, -⟩, _, ⟨rfl, -⟩, _, ⟨rfl, -⟩, hrest⟩ := h
    obtain ⟨hused, hres, hnonneg⟩ := ih hrest
    refine ⟨fun rule => ?_, fun id v hv => ?_, ?_⟩
    · rw [hused, map_cons, sum_cons]
      by_cases hrule : b.quotaRuleId = rule
      · subst hrule
        simp only [update_self, if_true]
        omega
      · simp [update_of_ne (Ne.symm hrule), hrule]
    · rcases hres id v hv with hv | ⟨b', hb', hid, hv⟩
      · by_cases hid : id = b.id
        · subst hid
          simp only [update_self, some.injEq] at hv
          exact .inr ⟨b, mem_cons_self .., rfl, hv⟩
        · simp only [update_of_ne hid] at hv
          exact .inl hv
      · exact .inr ⟨b', mem_cons_of_mem _ hb', hid, hv⟩
    · rintro b' hb'
      rcases mem_cons.1 hb' with rfl | hb'
      · exact ⟨hs, hr⟩
      · exact hnonneg b' hb'

def reservedBucket (usage : BucketUsage) (fen : Int) (now : Instant) (ids : List String)
    (b : QuotaBucket) : QuotaBucket :=
  if b.id ∈ ids then
    { b with reservedFenCny := (usage.reservedByBucket b.id).getD 0 + fen, updatedAt := timestamp now }
  else b

theorem reserveBuckets_spec {usage : BucketUsage} (h : reserveBuckets usage fen now t bs = .ok t') :
    t'.rows = t.rows.map (reservedBucket usage fen now (bs.map (·.id))) ∧
      ∀ bd ∈ bs, (∃ q, parseCanonical bd.rule.quotaFenCny = .ok q ∧ usage.usedByRule bd.rule.id + fen ≤ q) ∧
        (usage.reservedByBucket bd.id).isSome := by
  induction bs generalizing t with
  | nil =>
    simp only [reserveBuckets, pure_eq_ok] at h
    subst h
    have hid : reservedBucket usage fen now [] = id := by
      funext b
      simp [reservedBucket]
    simp [hid]
  | cons bd bs ih =>
    simp only [reserveBuckets, ok_iff, checked_eq_some] at h
    obtain ⟨q, hq, _, ⟨rfl, -⟩, _, hle, r, hr, _, ⟨rfl, -⟩, hrest⟩ := h
    obtain ⟨hrows, hbds⟩ := ih hrest
    refine ⟨?_, fun bd' hbd' => ?_⟩
    · rw [hrows, Table.update_rows, List.map_map]
      refine map_congr_left fun b _ => ?_
      by_cases hid : b.id = bd.id
      · by_cases hmem : bd.id ∈ bs.map (·.id) <;> simp [reservedBucket, hid, hr]
      · simp [reservedBucket, hid]
    · rcases mem_cons.1 hbd' with rfl | hbd'
      · exact ⟨⟨q, hq, hle⟩, by simp [hr]⟩
      · exact hbds bd' hbd'

theorem insertLinks_spec {t t' : Table QuotaReservationBucket} (h : insertLinks rid fen t bs = .ok t') :
    t'.rows = t.rows ++ bs.map fun bd => ⟨rid, bd.id, fen⟩ := by
  induction bs generalizing t with
  | nil =>
    simp only [insertLinks, pure_eq_ok] at h
    simp [h]
  | cons bd bs ih =>
    simp only [insertLinks, ok_iff, insert?_eq_some] at h
    obtain ⟨next, ⟨-, hrows⟩, hrest⟩ := h
    rw [ih hrest, hrows]
    simp

theorem insertLinks_nodup {t t' : Table QuotaReservationBucket} (h : insertLinks rid fen t bs = .ok t') :
    (bs.map (·.id)).Nodup := by
  have hd := t'.distinct
  rw [insertLinks_spec h, pairwise_append, pairwise_map] at hd
  rw [List.Nodup, pairwise_map]
  refine hd.2.1.imp fun {a b} hne hid => hne ?_
  exact QuotaReservationBucket.clashes_iff.2 ⟨rfl, hid⟩

def settledBucket (actualFen : Option Int) (now : Instant) (links : List LinkedBucket) (b : QuotaBucket) : QuotaBucket :=
  match links.find? (·.bucketId = b.id) with
  | some l => { b with
      settledFenCny := l.settledFenCny + actualFen.getD 0
      reservedFenCny := l.reservedFenCny - l.linkedReservedFenCny
      updatedAt := timestamp now }
  | none => b

theorem settledBucket_id (actualFen : Option Int) (now : Instant) (links : List LinkedBucket)
    (b : QuotaBucket) : (settledBucket actualFen now links b).id = b.id := by
  unfold settledBucket
  split <;> rfl

theorem settleBuckets_spec {actualFen : Option Int} {links : List LinkedBucket} (hn : (links.map (·.bucketId)).Nodup)
    (h : settleBuckets actualFen now t links = .ok t') : t'.rows = t.rows.map (settledBucket actualFen now links) := by
  induction links generalizing t with
  | nil =>
    simp only [settleBuckets, pure_eq_ok] at h
    subst h
    have hid : settledBucket actualFen now [] = id := rfl
    simp [hid]
  | cons l links ih =>
    simp only [settleBuckets, ok_iff, parseCanonical_toString, checked_eq_some] at h
    obtain ⟨_, ⟨rfl, -⟩, _, ⟨rfl, -⟩, _, ⟨rfl, -⟩, _, ⟨rfl, -⟩, _, ⟨rfl, -⟩, hrest⟩ := h
    rw [map_cons, nodup_cons] at hn
    rw [ih hn.2 hrest, Table.update_rows, List.map_map]
    refine map_congr_left fun b _ => ?_
    by_cases hid : b.id = l.bucketId
    · have hnone : links.find? (fun x => x.bucketId = l.bucketId) = none :=
        find?_eq_none.2 fun x hx => by
          have hne : x.bucketId ≠ l.bucketId := fun e => hn.1 (e ▸ mem_map_of_mem hx)
          simpa using hne
      simp [settledBucket, hid, hnone]
    · simp [settledBucket, hid, Ne.symm hid]

theorem mem_linkedBuckets {x : LinkedBucket} (hx : x ∈ linkedBuckets db rid) :
    ∃ l ∈ db.quotaReservationBuckets.rows, l.reservationId = rid ∧
      ∃ b ∈ db.quotaBuckets.rows, b.id = l.bucketId ∧
        x = ⟨b.id, l.reservedFenCny, b.settledFenCny, b.reservedFenCny⟩ := by
  simp only [linkedBuckets, mem_filterMap, mem_filter, decide_eq_true_eq,
    map_eq_some_iff] at hx
  obtain ⟨l, ⟨hl, hrid⟩, b, hb, rfl⟩ := hx
  exact ⟨l, hl, hrid, b, mem_of_find? hb, by simpa using of_find? hb, rfl⟩

theorem linkedBuckets_nodup (db : Database) (rid : String) : ((linkedBuckets db rid).map (·.bucketId)).Nodup := by
  rw [List.Nodup, pairwise_map, linkedBuckets, pairwise_filterMap, pairwise_filter]
  refine db.quotaReservationBuckets.distinct.imp fun {l m} hne hl hm x hx y hy hxy => hne ?_
  simp only [decide_eq_true_eq] at hl hm
  simp only [map_eq_some_iff] at hx hy
  obtain ⟨b, hb, rfl⟩ := hx
  obtain ⟨c, hc, rfl⟩ := hy
  have hb := of_find? hb
  have hc := of_find? hc
  simp only [decide_eq_true_eq] at hb hc hxy
  exact QuotaReservationBucket.clashes_iff.2 ⟨hl.trans hm.symm, hb.symm.trans (hxy.trans hc)⟩

def chargedBucket (fen : Int) (now : Instant) (ids : List String) (b : QuotaBucket) : QuotaBucket :=
  if b.id ∈ ids then { b with reservedFenCny := b.reservedFenCny + fen, updatedAt := timestamp now } else b

def Active (g : EntitlementGenerationRow) (now : Instant) (b : QuotaBucket) : Prop :=
  b.entitlementId = g.id ∧ b.generation = g.generation ∧ timestamp now < b.windowEnd
  deriving Decidable

def bucketUse (b : QuotaBucket) : Int := b.settledFenCny + b.reservedFenCny

def activeUse (buckets : Table QuotaBucket) (g : EntitlementGenerationRow) (now : Instant) (ruleId : String) : Int :=
  ((buckets.rows.filter fun b => Active g now b ∧ b.quotaRuleId = ruleId).map bucketUse).sum

/-- An admission: `bindings` are the buckets of generation `g` at `now`, `buckets` the bucket table
once missing buckets are inserted. -/
structure Admission [Sha256] (db db' : Database) (g : EntitlementGenerationRow)
    (now : Instant) (row : QuotaReservationRow) (bindings : List BucketBinding) (buckets : Table QuotaBucket) : Prop where
  frame : db' = { db with
    quotaBuckets := db'.quotaBuckets
    quotaReservations := db'.quotaReservations
    quotaReservationBuckets := db'.quotaReservationBuckets }
  generation_mem : g ∈ db.entitlementGenerations.rows
  bindings_perm : ∃ unsorted, bucketBindings (generationFromRow g) now g.quotas.rules = .ok unsorted ∧
    bindings.Perm unsorted
  bindings_nodup : (bindings.map (·.id)).Nodup
  inserted : ∃ added, buckets.rows = db.quotaBuckets.rows ++ added ∧
    ∀ b ∈ added, ∃ bd ∈ bindings, b = freshBucket (generationFromRow g) now bd ∧
      ∀ a ∈ db.quotaBuckets.rows, a.id ≠ bd.id
  charged : db'.quotaBuckets.rows =
    buckets.rows.map (chargedBucket row.reservedFenCny now (bindings.map (·.id)))
  bound : ∀ bd ∈ bindings, ∃ b ∈ buckets.rows, b.id = bd.id ∧ Active g now b
  within : ∀ bd ∈ bindings, ∃ q, parseCanonical bd.rule.quotaFenCny = .ok q ∧
    activeUse buckets g now bd.rule.id + row.reservedFenCny ≤ q
  nonneg : ∀ b ∈ buckets.rows, Active g now b → 0 ≤ b.settledFenCny ∧ 0 ≤ b.reservedFenCny
  row_state : row.state = .reserved
  row_fresh : ∀ r ∈ db.quotaReservations.rows, r.id ≠ row.id
  reservations : db'.quotaReservations.rows = db.quotaReservations.rows ++ [row]
  links : db'.quotaReservationBuckets.rows = db.quotaReservationBuckets.rows ++
    bindings.map fun bd => ⟨row.id, bd.id, row.reservedFenCny⟩

theorem sum_filter_ite {α : Type} (p q : α → Prop) [DecidablePred p] [DecidablePred q] (w : α → Int)
    (l : List α) : ((l.filter fun a => p a).map fun a => if q a then w a else 0).sum =
      ((l.filter fun a => p a ∧ q a).map w).sum := by
  induction l with
  | nil => rfl
  | cons a l ih =>
    by_cases hp : p a
    · by_cases hq : q a <;> simp [hp, hq, ih]
    · simp [hp, ih]

theorem admissibleEntitlement_inv {e : EntitlementGeneration} (h : admissibleEntitlement db input = .ok e) :
    ∃ g ∈ db.entitlementGenerations.rows, e = generationFromRow g := by
  simp only [admissibleEntitlement, ok_iff] at h
  obtain ⟨_, -, _, -, _, -, ⟨g, lifecycle⟩, hcurrent, _, -, _, -, rfl⟩ := h
  simp only [currentEntitlement, Option.bind_eq_bind, Option.bind_eq_some_iff, Option.pure_def,
    some.injEq, Prod.mk.injEq] at hcurrent
  obtain ⟨_, -, _, hg, _, -, rfl, -⟩ := hcurrent
  exact ⟨_, mem_of_find? hg, rfl⟩

theorem admitNew_inv [Sha256] (h : admitNew db input id = .ok (r, db')) :
    ∃ g row bindings buckets, row.id = r.id ∧ Admission db db' g input.now row bindings buckets := by
  simp only [admitNew, ok_iff, Prod.mk.injEq] at h
  obtain ⟨_, hg, fen, -, unsorted, hunsorted, buckets, hinsert, usage, husage, charged, hcharge,
    reservations, hres, links, hlinks, rfl, rfl⟩ := h
  obtain ⟨g, hmem, rfl⟩ := admissibleEntitlement_inv hg
  obtain ⟨hfresh, hreservations⟩ := insert?_eq_some.1 hres
  obtain ⟨hused, hsnapshot, hnonneg⟩ := bucketUsage_spec husage
  obtain ⟨hrows, hchecks⟩ := reserveBuckets_spec hcharge
  have hactive (b : QuotaBucket) : b ∈ activeBuckets buckets (generationFromRow g) input.now ↔
      b ∈ buckets.rows ∧ Active g input.now b := by
    simp only [activeBuckets, mem_filter, decide_eq_true_eq]
    exact Iff.rfl
  have hbound : ∀ bd ∈ unsorted.insertionSort bindingLe, ∃ b ∈ buckets.rows, b.id = bd.id ∧
      Active g input.now b ∧ usage.reservedByBucket bd.id = some b.reservedFenCny := by
    intro bd hbd
    obtain ⟨v, hv⟩ := isSome_iff_exists.1 (hchecks bd hbd).2
    rcases hsnapshot _ _ hv with hnone | ⟨b, hb, hid, rfl⟩
    · cases hnone
    · rw [hactive] at hb
      exact ⟨b, hb.1, hid, hb.2, hv⟩
  refine ⟨g, reservationRow (generationFromRow g) input fen id, unsorted.insertionSort bindingLe, buckets,
    rfl, ?_⟩
  constructor
  · rfl
  · exact hmem
  · exact ⟨unsorted, hunsorted, perm_insertionSort bindingLe unsorted⟩
  · exact insertLinks_nodup hlinks
  · exact insertBuckets_spec hinsert
  · rw [hrows]
    refine map_congr_left fun b hb => ?_
    unfold reservedBucket chargedBucket
    by_cases hid : b.id ∈ (unsorted.insertionSort bindingLe).map (·.id)
    · obtain ⟨bd, hbd, hbdid⟩ := mem_map.1 hid
      obtain ⟨b', hb', hid', -, hv⟩ := hbound bd hbd
      have : b' = b := eq_of_clashes hb' hb (QuotaBucket.clashes_of_id (hid'.trans hbdid))
      subst this
      rw [hbdid] at hv
      simp only [hid, if_true, hv, getD_some, reservationRow]
    · simp only [hid, if_false]
  · intro bd hbd
    obtain ⟨b, hb, hid, ha, -⟩ := hbound bd hbd
    exact ⟨b, hb, hid, ha⟩
  · intro bd hbd
    obtain ⟨⟨q, hq, hle⟩, -⟩ := hchecks bd hbd
    refine ⟨q, hq, ?_⟩
    rw [hused, Int.zero_add] at hle
    rw [activeUse, ← sum_filter_ite]
    exact hle
  · exact fun b hb ha => hnonneg b ((hactive b).2 ⟨hb, ha⟩)
  · rfl
  · exact fun r hr hid => hfresh r hr (QuotaReservationRow.clashes_of_id hid)
  · exact hreservations
  · exact insertLinks_spec hlinks

theorem reservationFromRow_inv {row : QuotaReservationRow} (h : reservationFromRow db row = .ok r) :
    r.id = row.id ∧ r.state = row.state ∧ r.reservedFenCny = row.reservedFenCny ∧
      0 ≤ row.reservedFenCny ∧ r.rateNumerator = row.rateNumerator ∧ r.rateDenominator = row.rateDenominator := by
  simp only [reservationFromRow, ok_iff, parseCanonical_toString] at h
  obtain ⟨_, ⟨rfl, -⟩, _, ⟨rfl, hnonneg, -⟩, _, -, _, -, rfl⟩ := h
  exact ⟨rfl, rfl, rfl, hnonneg, rfl, rfl⟩

theorem reserveTx_inv [Sha256] {expected : Option (String × Int)} (h : reserveTx db input expected id = .ok (r, db')) :
    (db' = db ∧ ∃ row ∈ db.quotaReservations.rows, row.id = r.id) ∨
      ∃ g row bindings buckets, row.id = r.id ∧ Admission db db' g input.now row bindings buckets := by
  simp only [reserveTx, ok_iff] at h
  obtain ⟨-, -, h⟩ := h
  split at h
  · rename_i row hrow
    simp only [ok_iff] at h
    obtain ⟨_, hexisting, _, -, rfl, rfl⟩ := h
    exact .inl ⟨rfl, row, mem_of_find? hrow, (reservationFromRow_inv hexisting).1.symm⟩
  · exact .inr (admitNew_inv h)

structure Termination (db db' : Database) (row : QuotaReservationRow) (actualNano actualFen : Option Int)
    (now : Instant) : Prop where
  frame : db' = { db with
    quotaBuckets := db'.quotaBuckets
    quotaReservations := db'.quotaReservations
    quotaViolations := db'.quotaViolations
    quotaAdmissionBlocks := db'.quotaAdmissionBlocks }
  row_mem : row ∈ db.quotaReservations.rows
  row_state : row.state = .reserved
  row_nonneg : 0 ≤ row.reservedFenCny
  buckets : db'.quotaBuckets.rows =
    db.quotaBuckets.rows.map (settledBucket actualFen now (linkedBuckets db row.id))
  reservations : db'.quotaReservations = db.quotaReservations.update
    (fun r => r.id = row.id ∧ r.state = .reserved) (terminatedRow actualNano actualFen now)
  priced : ∃ e, e.rateNumerator = row.rateNumerator ∧ e.rateDenominator = row.rateDenominator ∧
    actualFenCny e actualNano = .ok actualFen

theorem recordViolation_frame {existing : QuotaReservation} {actualFen : Option Int} {vid : String}
    (h : recordViolation db existing actualFen now vid = .ok db') : db' = { db with
      quotaViolations := db'.quotaViolations
      quotaAdmissionBlocks := db'.quotaAdmissionBlocks } := by
  unfold recordViolation at h
  split at h
  · simp only [pure_eq_ok] at h
    subst h
    rfl
  split at h
  · simp only [ok_iff] at h
    obtain ⟨_, -, _, -, rfl⟩ := h
    rfl
  · simp only [pure_eq_ok] at h
    subst h
    rfl

theorem terminalTx_inv {actual : Option Int} {vid : String} (h : terminalTx db rid actual now vid = .ok (r, db')) :
    (db' = db ∧ ∃ row ∈ db.quotaReservations.rows, row.id = rid ∧ row.state ≠ .reserved) ∨
      ∃ row actualFen, row.id = rid ∧ Termination db db' row actual actualFen now := by
  simp only [terminalTx, ok_iff] at h
  obtain ⟨row, hrow, existing, hexisting, h⟩ := h
  obtain ⟨-, hstate, -, hnonneg, hnum, hden⟩ := reservationFromRow_inv hexisting
  have hmem := mem_of_find? hrow
  have hid : row.id = rid := by simpa using of_find? hrow
  split at h
  · rename_i hreserved
    simp only [ok_iff] at h
    obtain ⟨_, -, -, rfl⟩ := h
    exact .inl ⟨rfl, row, hmem, hid, hstate ▸ hreserved⟩
  · rename_i hreserved
    simp only [ok_iff] at h
    obtain ⟨actualFen, hfen, _, -, buckets, hbuckets, next, hnext, -, rfl⟩ := h
    have hrows := settleBuckets_spec (linkedBuckets_nodup db rid) hbuckets
    have hframe := recordViolation_frame hnext
    subst hid
    refine .inr ⟨row, actualFen, rfl, ?_, hmem, ?_, hnonneg, ?_, ?_, existing, hnum, hden, hfen⟩
    · rw [hframe]
    · rw [← hstate]
      simpa using hreserved
    · rw [hframe]
      exact hrows
    · rw [hframe]

structure Replacement (db db' : Database) (row : EntitlementGenerationRow) : Prop where
  frame : db' = { db with
    entitlementGenerations := db'.entitlementGenerations
    entitlementLifecycle := db'.entitlementLifecycle
    entitlementCurrent := db'.entitlementCurrent }
  generations : db'.entitlementGenerations.rows = db.entitlementGenerations.rows ++ [row]
  row_fresh : ∀ g ∈ db.entitlementGenerations.rows, g.id ≠ row.id

theorem replaceEntitlementTx_inv {input : EntitlementGenerationInput} {createdAt : Int}
    (h : replaceEntitlementTx db input id createdAt = .ok (g, db')) : db' = db ∨ ∃ row, Replacement db db' row := by
  simp only [replaceEntitlementTx, ok_iff] at h
  obtain ⟨_, -, _, -, h⟩ := h
  split at h
  · simp only [ok_iff] at h
    obtain ⟨_, -, -, rfl⟩ := h
    exact .inl rfl
  simp only [ok_iff, Prod.mk.injEq] at h
  obtain ⟨_, -, generation, -, generations, hgen, _, -, _, -, -, rfl⟩ := h
  obtain ⟨hfresh, hrows⟩ := insert?_eq_some.1 hgen
  refine .inr ⟨generationRow input generation id createdAt, rfl, hrows, fun g hg hid => ?_⟩
  exact hfresh g hg (.inl hid)

theorem bucketBindings_spec [Sha256] {rules : List PlanQuota} (h : bucketBindings g now rules = .ok bs) :
    bs.map (·.rule) = rules ∧ ∀ bd ∈ bs,
      quotaWindow bd.rule.windowKind bd.rule.windowSeconds now = .ok bd.window ∧
      bd.id = bucketId g.id g.generation bd.rule bd.window := by
  induction rules generalizing bs with
  | nil =>
    simp only [bucketBindings, pure_eq_ok] at h
    subst h
    simp
  | cons rule rules ih =>
    simp only [bucketBindings, ok_iff] at h
    obtain ⟨window, hwindow, rest, hrest, rfl⟩ := h
    obtain ⟨hrules, hspec⟩ := ih hrest
    refine ⟨by simp [hrules], fun bd hbd => ?_⟩
    rcases mem_cons.1 hbd with rfl | hbd
    · exact ⟨hwindow, rfl⟩
    · exact hspec bd hbd

end Monoize
