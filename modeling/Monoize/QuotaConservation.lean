import Monoize.QuotaErrors
import Monoize.Transition

namespace Monoize

open Fallible MachineInt Relational Transition List Table

variable {db : Database}

inductive QuotaCall
  | reserve (input : QuotaReservationInput) (expected : Option (String × Int)) (id : String)
  | terminal (reservationId : String) (actualNanoUsd : Option Int) (now : Instant) (violationId : String)
  | replaceEntitlement (input : EntitlementGenerationInput) (id : String) (createdAt : Int)

def QuotaCall.run [Sha256] (db : Database) : QuotaCall → Database
  | reserve input expected id => commit db (reserveTx db input expected id)
  | terminal rid actual now vid => commit db (terminalTx db rid actual now vid)
  | replaceEntitlement input id createdAt => commit db (replaceEntitlementTx db input id createdAt)

structure QuotaFrame (db db' : Database) : Prop where
  generations : db'.entitlementGenerations = db.entitlementGenerations
  buckets : db'.quotaBuckets = db.quotaBuckets
  reservations : db'.quotaReservations = db.quotaReservations
  links : db'.quotaReservationBuckets = db.quotaReservationBuckets

/-- One serialized transaction: a call of the quota store, or one that writes none of its tables. -/
inductive QuotaStep [Sha256] : Database → Database → Prop
  | call (db : Database) (c : QuotaCall) : QuotaStep db (c.run db)
  | other {db db' : Database} : QuotaFrame db db' → QuotaStep db db'

def QuotaInitial (db : Database) : Prop :=
  db.quotaBuckets = .empty ∧ db.quotaReservations = .empty ∧ db.quotaReservationBuckets = .empty

def StillReserved (reservations : Table QuotaReservationRow) (reservationId : String) : Prop :=
  ∃ r ∈ reservations.rows, r.id = reservationId ∧ r.state = .reserved
  deriving Decidable

def LinkedTo (links : Table QuotaReservationBucket) (reservationId bucketId : String) : Prop :=
  ∃ l ∈ links.rows, l.reservationId = reservationId ∧ l.bucketId = bucketId
  deriving Decidable

def heldFen (links : Table QuotaReservationBucket) (reservations : Table QuotaReservationRow) (bucketId : String) : Int :=
  links.total fun l =>
    if l.bucketId = bucketId ∧ StillReserved reservations l.reservationId then l.reservedFenCny else 0

def spentFen (links : Table QuotaReservationBucket) (reservations : Table QuotaReservationRow)
    (bucketId : String) : Int :=
  reservations.total fun r =>
    if (r.state = .settled ∨ r.state = .violated) ∧ LinkedTo links r.id bucketId
    then r.actualFenCny.getD 0 else 0

structure QuotaConserved (db : Database) : Prop where
  link_reservation : ∀ l ∈ db.quotaReservationBuckets.rows,
    ∃ r ∈ db.quotaReservations.rows, r.id = l.reservationId ∧ r.reservedFenCny = l.reservedFenCny
  link_bucket : ∀ l ∈ db.quotaReservationBuckets.rows, ∃ b ∈ db.quotaBuckets.rows, b.id = l.bucketId
  reserved : ∀ b ∈ db.quotaBuckets.rows,
    b.reservedFenCny = heldFen db.quotaReservationBuckets db.quotaReservations b.id
  settled : ∀ b ∈ db.quotaBuckets.rows,
    b.settledFenCny = spentFen db.quotaReservationBuckets db.quotaReservations b.id

theorem quotaConserved_initial (h : QuotaInitial db) : QuotaConserved db := by
  obtain ⟨hb, -, hl⟩ := h
  constructor <;> simp [hb, hl]

theorem quotaConserved_frame {db' : Database} (h : QuotaConserved db) (hf : QuotaFrame db db') : QuotaConserved db' := by
  obtain ⟨h₁, h₂, h₃, h₄⟩ := h
  constructor
  · rwa [hf.links, hf.reservations]
  · rwa [hf.links, hf.buckets]
  · rwa [hf.links, hf.reservations, hf.buckets]
  · rwa [hf.links, hf.reservations, hf.buckets]

theorem sum_ite_eq_of_nodup {ids : List String} (hn : ids.Nodup) (x : String) (c : Int) :
    (ids.map fun i => if i = x then c else 0).sum = if x ∈ ids then c else 0 := by
  induction ids with
  | nil => rfl
  | cons i ids ih =>
    rw [nodup_cons] at hn
    rw [map_cons, sum_cons, ih hn.2]
    by_cases hi : i = x
    · subst hi
      simp [hn.1]
    · simp [hi, Ne.symm hi]

section Admission

variable {db db' : Database} {g : EntitlementGenerationRow} {now : Instant}
  {row : QuotaReservationRow} {bindings : List BucketBinding} {buckets : Table QuotaBucket}

theorem heldFen_admission [Sha256] (h : QuotaConserved db) (ha : Admission db db' g now row bindings buckets) (bid : String) :
    heldFen db'.quotaReservationBuckets db'.quotaReservations bid =
      heldFen db.quotaReservationBuckets db.quotaReservations bid +
        if bid ∈ bindings.map (·.id) then row.reservedFenCny else 0 := by
  have hold : ∀ l ∈ db.quotaReservationBuckets.rows,
      (StillReserved db'.quotaReservations l.reservationId ↔
        StillReserved db.quotaReservations l.reservationId) := by
    intro l hl
    obtain ⟨r, hr, hid, -⟩ := h.link_reservation l hl
    have hne : row.id ≠ l.reservationId := fun e => ha.row_fresh r hr (hid.trans e.symm)
    simp [StillReserved, ha.reservations, or_and_right, exists_or, hne]
  have hnew : StillReserved db'.quotaReservations row.id :=
    ⟨row, by simp [ha.reservations], rfl, ha.row_state⟩
  rw [heldFen, total, ha.links, map_append, sum_append, map_map,
    ← sum_ite_eq_of_nodup ha.bindings_nodup, map_map]
  congr 1
  · refine congrArg sum (map_congr_left fun l hl => ?_)
    simp only [hold l hl]
  · simp only [Function.comp_def, hnew, and_true]

theorem spentFen_admission [Sha256] (ha : Admission db db' g now row bindings buckets) (bid : String) :
    spentFen db'.quotaReservationBuckets db'.quotaReservations bid =
      spentFen db.quotaReservationBuckets db.quotaReservations bid := by
  have hold : ∀ r ∈ db.quotaReservations.rows,
      (LinkedTo db'.quotaReservationBuckets r.id bid ↔ LinkedTo db.quotaReservationBuckets r.id bid) := by
    intro r hr
    have hne : row.id ≠ r.id := Ne.symm (ha.row_fresh r hr)
    simp [LinkedTo, ha.links, or_and_right, exists_or, hne]
  rw [spentFen, total, ha.reservations, map_append, sum_append]
  simp only [map_cons, map_nil, sum_singleton, ha.row_state, reduceCtorEq, or_self,
    false_and, if_false, Int.add_zero]
  refine congrArg sum (map_congr_left fun r hr => ?_)
  simp only [hold r hr]

theorem quotaConserved_admission [Sha256] (h : QuotaConserved db)
    (ha : Admission db db' g now row bindings buckets) : QuotaConserved db' := by
  obtain ⟨added, hadded, hfresh⟩ := ha.inserted
  have hcharged : ∀ b ∈ db'.quotaBuckets.rows, ∃ b₀ ∈ buckets.rows,
      b = chargedBucket row.reservedFenCny now (bindings.map (·.id)) b₀ := by
    intro b hb
    rw [ha.charged, mem_map] at hb
    obtain ⟨b₀, hb₀, rfl⟩ := hb
    exact ⟨b₀, hb₀, rfl⟩
  have hid (b : QuotaBucket) :
      (chargedBucket row.reservedFenCny now (bindings.map (·.id)) b).id = b.id := by
    unfold chargedBucket
    split <;> rfl
  have hunlinked : ∀ b ∈ added, ∀ l ∈ db.quotaReservationBuckets.rows, l.bucketId ≠ b.id := by
    intro b hb l hl e
    obtain ⟨bd, -, rfl, hne⟩ := hfresh b hb
    obtain ⟨b', hb', hid'⟩ := h.link_bucket l hl
    exact hne b' hb' (hid'.trans e)
  constructor
  · intro l hl
    rw [ha.links, mem_append, mem_map] at hl
    rw [ha.reservations]
    rcases hl with hl | ⟨bd, -, rfl⟩
    · obtain ⟨r, hr, hrid⟩ := h.link_reservation l hl
      exact ⟨r, mem_append_left _ hr, hrid⟩
    · exact ⟨row, by simp, rfl, rfl⟩
  · intro l hl
    rw [ha.links, mem_append, mem_map] at hl
    have hmem : ∃ b ∈ buckets.rows, b.id = l.bucketId := by
      rcases hl with hl | ⟨bd, hbd, rfl⟩
      · obtain ⟨b, hb, hbid⟩ := h.link_bucket l hl
        exact ⟨b, by rw [hadded]; exact mem_append_left _ hb, hbid⟩
      · obtain ⟨b, hb, hbid, -⟩ := ha.bound bd hbd
        exact ⟨b, hb, hbid⟩
    obtain ⟨b, hb, hbid⟩ := hmem
    exact ⟨_, by rw [ha.charged]; exact mem_map_of_mem hb, (hid b).trans hbid⟩
  · intro b hb
    obtain ⟨b₀, hb₀, rfl⟩ := hcharged b hb
    rw [hid, heldFen_admission h ha]
    have hbefore : b₀.reservedFenCny = heldFen db.quotaReservationBuckets db.quotaReservations b₀.id := by
      rw [hadded, mem_append] at hb₀
      rcases hb₀ with hb₀ | hb₀
      · exact h.reserved b₀ hb₀
      have hz : heldFen db.quotaReservationBuckets db.quotaReservations b₀.id = 0 :=
        total_eq_zero fun l hl => by simp [hunlinked b₀ hb₀ l hl]
      obtain ⟨bd, -, rfl, -⟩ := hfresh b₀ hb₀
      exact hz.symm
    rw [← hbefore, chargedBucket]
    split
    · rfl
    · exact (Int.add_zero _).symm
  · intro b hb
    obtain ⟨b₀, hb₀, rfl⟩ := hcharged b hb
    have hsettled : (chargedBucket row.reservedFenCny now (bindings.map (·.id)) b₀).settledFenCny =
        b₀.settledFenCny := by
      unfold chargedBucket
      split <;> rfl
    rw [hid, spentFen_admission ha, hsettled]
    rw [hadded, mem_append] at hb₀
    rcases hb₀ with hb₀ | hb₀
    · exact h.settled b₀ hb₀
    have hz : spentFen db.quotaReservationBuckets db.quotaReservations b₀.id = 0 := by
      refine total_eq_zero fun r _ => if_neg ?_
      rintro ⟨-, l, hl, -, hbid⟩
      exact hunlinked b₀ hb₀ l hl hbid
    obtain ⟨bd, -, rfl, -⟩ := hfresh b₀ hb₀
    exact hz.symm

end Admission

section Termination

variable {db db' : Database} {row : QuotaReservationRow} {actualNano actualFen : Option Int} {now : Instant}

theorem settledBucket_linked {b : QuotaBucket} {l : QuotaReservationBucket} {rid : String}
    (hb : b ∈ db.quotaBuckets.rows) (hl : l ∈ db.quotaReservationBuckets.rows)
    (hrid : l.reservationId = rid) (hbid : l.bucketId = b.id) :
    settledBucket actualFen now (linkedBuckets db rid) b =
      { b with
        settledFenCny := b.settledFenCny + actualFen.getD 0
        reservedFenCny := b.reservedFenCny - l.reservedFenCny
        updatedAt := timestamp now } := by
  have hfind : db.quotaBuckets.find? (fun x => x.id = l.bucketId) = some b :=
    find?_eq_some_of_mem hb (by simp [hbid]) fun c hc =>
      QuotaBucket.clashes_of_id ((of_decide_eq_true hc).trans hbid)
  have hmem : (⟨b.id, l.reservedFenCny, b.settledFenCny, b.reservedFenCny⟩ : LinkedBucket) ∈
      linkedBuckets db rid := by
    simp only [linkedBuckets, mem_filterMap, mem_filter, decide_eq_true_eq]
    exact ⟨l, ⟨hl, hrid⟩, by rw [hfind]; rfl⟩
  unfold settledBucket
  split
  · rename_i x hx
    obtain ⟨l', hl', hrid', b', hb', hbid', rfl⟩ := mem_linkedBuckets (mem_of_find?_eq_some hx)
    have hxid : b'.id = b.id := by simpa using find?_some hx
    have hbb : b' = b := eq_of_clashes hb' hb (QuotaBucket.clashes_of_id hxid)
    have hll : l' = l := eq_of_clashes hl' hl
      (QuotaReservationBucket.clashes_iff.2 ⟨hrid'.trans hrid.symm, hbid'.symm.trans (hxid.trans hbid.symm)⟩)
    subst hbb hll
    rfl
  · rename_i hnone
    have hno := find?_eq_none.1 hnone _ hmem
    simp at hno

theorem settledBucket_unlinked {b : QuotaBucket} {rid : String} (h : ¬ LinkedTo db.quotaReservationBuckets rid b.id) :
    settledBucket actualFen now (linkedBuckets db rid) b = b := by
  unfold settledBucket
  split
  · rename_i x hx
    obtain ⟨l, hl, hrid, b', -, hbid, rfl⟩ := mem_linkedBuckets (mem_of_find?_eq_some hx)
    have hxid : b'.id = b.id := by simpa using find?_some hx
    exact absurd ⟨l, hl, hrid, hbid.symm.trans hxid⟩ h
  · rfl

variable (ht : Termination db db' row actualNano actualFen now)

include ht

theorem stillReserved_termination (rid : String) :
    StillReserved db'.quotaReservations rid ↔ StillReserved db.quotaReservations rid ∧ rid ≠ row.id := by
  have hstate (r : QuotaReservationRow) : (terminatedRow actualNano actualFen now r).state ≠ .reserved := by
    unfold terminatedRow terminalState
    split
    · simp
    · simp only
      split <;> simp
  rw [ht.reservations]
  constructor
  · rintro ⟨r, hr, hid, hres⟩
    rw [update_rows, mem_map] at hr
    obtain ⟨r₀, hr₀, rfl⟩ := hr
    split at hid
    · rename_i hsel
      rw [if_pos hsel] at hres
      exact absurd hres (hstate r₀)
    · rename_i hsel
      rw [if_neg hsel] at hres
      refine ⟨⟨r₀, hr₀, hid, hres⟩, fun e => hsel ?_⟩
      simp [hid.trans e, hres]
  · rintro ⟨⟨r, hr, hid, hres⟩, hne⟩
    refine ⟨r, ?_, hid, hres⟩
    rw [update_rows, mem_map]
    refine ⟨r, hr, if_neg ?_⟩
    simp [hid, hne]

theorem heldFen_termination (bid : String) :
    heldFen db.quotaReservationBuckets db.quotaReservations bid =
      heldFen db'.quotaReservationBuckets db'.quotaReservations bid +
        db.quotaReservationBuckets.total fun l =>
          if l.reservationId = row.id ∧ l.bucketId = bid then l.reservedFenCny else 0 := by
  have hlinks : db'.quotaReservationBuckets = db.quotaReservationBuckets := by rw [ht.frame]
  have hrow : StillReserved db.quotaReservations row.id := ⟨row, ht.row_mem, rfl, ht.row_state⟩
  rw [hlinks, heldFen, heldFen, ← total_add]
  refine total_congr fun l _ => ?_
  simp only [stillReserved_termination ht]
  by_cases hrid : l.reservationId = row.id
  · by_cases hbid : l.bucketId = bid <;> simp [hrid, hbid, hrow]
  · simp [hrid]

theorem spentFen_termination (bid : String) :
    spentFen db'.quotaReservationBuckets db'.quotaReservations bid =
      spentFen db.quotaReservationBuckets db.quotaReservations bid +
        if LinkedTo db.quotaReservationBuckets row.id bid then actualFen.getD 0 else 0 := by
  have hlinks : db'.quotaReservationBuckets = db.quotaReservationBuckets := by rw [ht.frame]
  rw [hlinks, ht.reservations, spentFen, total_update ht.row_mem (by simp [ht.row_state])
    (fun r _ hr => QuotaReservationRow.clashes_of_id (of_decide_eq_true hr).1), spentFen]
  simp only [ht.row_state, reduceCtorEq, or_self, false_and, if_false, Int.sub_zero]
  congr 1
  cases actualFen with
  | none => simp [terminatedRow, terminalState]
  | some a =>
    have hstate : (terminatedRow actualNano (some a) now row).state = .settled ∨
        (terminatedRow actualNano (some a) now row).state = .violated := by
      by_cases hlt : row.reservedFenCny < a <;> simp [terminatedRow, terminalState, hlt]
    simp only [hstate, true_and]
    rfl

omit ht

theorem quotaConserved_termination (h : QuotaConserved db)
    (ht : Termination db db' row actualNano actualFen now) : QuotaConserved db' := by
  have hlinks : db'.quotaReservationBuckets = db.quotaReservationBuckets := by rw [ht.frame]
  constructor
  · intro l hl
    rw [hlinks] at hl
    obtain ⟨r, hr, hid, hfen⟩ := h.link_reservation l hl
    rw [ht.reservations, update_rows]
    refine ⟨_, mem_map_of_mem hr, ?_⟩
    split
    · exact ⟨hid, hfen⟩
    · exact ⟨hid, hfen⟩
  · intro l hl
    rw [hlinks] at hl
    obtain ⟨b, hb, hid⟩ := h.link_bucket l hl
    rw [ht.buckets]
    exact ⟨_, mem_map_of_mem hb, (settledBucket_id ..).trans hid⟩
  all_goals
    intro b' hb'
    rw [ht.buckets, mem_map] at hb'
    obtain ⟨b, hb, rfl⟩ := hb'
    rw [settledBucket_id]
    by_cases hlinked : LinkedTo db.quotaReservationBuckets row.id b.id
  · obtain ⟨l, hl, hrid, hbid⟩ := hlinked
    have hsingle := total_single (p := fun m => decide (m.reservationId = row.id ∧ m.bucketId = b.id))
      hl (by simp [hrid, hbid]) (fun m _ hm => QuotaReservationBucket.clashes_iff.2
        ⟨(of_decide_eq_true hm).1.trans hrid.symm, (of_decide_eq_true hm).2.trans hbid.symm⟩)
      (fun m => m.reservedFenCny)
    simp only [decide_eq_true_eq] at hsingle
    have hheld := heldFen_termination ht b.id
    rw [hsingle, ← h.reserved b hb] at hheld
    rw [settledBucket_linked hb hl hrid hbid]
    simp only
    omega
  · have hzero : db.quotaReservationBuckets.total (fun l =>
        if l.reservationId = row.id ∧ l.bucketId = b.id then l.reservedFenCny else 0) = 0 :=
      total_eq_zero fun l hl => if_neg fun e => hlinked ⟨l, hl, e.1, e.2⟩
    have hheld := heldFen_termination ht b.id
    rw [hzero, ← h.reserved b hb] at hheld
    rw [settledBucket_unlinked hlinked]
    omega
  · rw [spentFen_termination ht, if_pos hlinked, ← h.settled b hb]
    obtain ⟨l, hl, hrid, hbid⟩ := hlinked
    rw [settledBucket_linked hb hl hrid hbid]
  · rw [spentFen_termination ht, if_neg hlinked, ← h.settled b hb, settledBucket_unlinked hlinked]
    omega

end Termination

theorem quotaConserved_step [Sha256] {db' : Database} (h : QuotaConserved db) (hs : QuotaStep db db') : QuotaConserved db' := by
  cases hs with
  | other hf => exact quotaConserved_frame h hf
  | call c =>
    cases c with
    | reserve input expected id =>
      simp only [QuotaCall.run]
      cases hr : reserveTx db input expected id with
      | error e => exact h
      | ok out =>
        obtain ⟨r, db'⟩ := out
        rcases reserveTx_inv hr with ⟨rfl, -⟩ | ⟨g, row, bindings, buckets, -, ha⟩
        · exact h
        · exact quotaConserved_admission h ha
    | terminal rid actual now vid =>
      simp only [QuotaCall.run]
      cases hr : terminalTx db rid actual now vid with
      | error e => exact h
      | ok out =>
        obtain ⟨r, db'⟩ := out
        rcases terminalTx_inv hr with ⟨rfl, -⟩ | ⟨row, actualFen, -, ht⟩
        · exact h
        · exact quotaConserved_termination h ht
    | replaceEntitlement input id createdAt =>
      simp only [QuotaCall.run]
      cases hr : replaceEntitlementTx db input id createdAt with
      | error e => exact h
      | ok out =>
        obtain ⟨g, db'⟩ := out
        rcases replaceEntitlementTx_inv hr with rfl | ⟨row, hf⟩
        · exact h
        · rw [commit, hf.frame]
          exact ⟨h.link_reservation, h.link_bucket, h.reserved, h.settled⟩

theorem quotaConserved_reachable [Sha256] (h : Reachable QuotaInitial QuotaStep db) : QuotaConserved db :=
  h.invariant (fun _ => quotaConserved_initial) fun _ _ => quotaConserved_step

def conservationFailed : QuotaError := .storage "quota reservation conservation failed"

theorem terminalTx_ne_conservationFailed (db : Database) (rid : String) (actual : Option Int) (now : Instant)
    (vid : String) : terminalTx db rid actual now vid ≠ .error conservationFailed := by
  intro h
  rcases terminalTx_error h with h | ⟨h, -⟩
  · revert h
    decide
  · cases h

theorem quota_buckets_conserved [Sha256] (db : Database) (h : Reachable QuotaInitial QuotaStep db) :
    (∀ b ∈ db.quotaBuckets.rows,
      b.reservedFenCny = heldFen db.quotaReservationBuckets db.quotaReservations b.id ∧
      b.settledFenCny = spentFen db.quotaReservationBuckets db.quotaReservations b.id) ∧
    ∀ rid actual now vid, terminalTx db rid actual now vid ≠ .error conservationFailed := by
  have hc := quotaConserved_reachable h
  refine ⟨fun b hb => ⟨hc.reserved b hb, hc.settled b hb⟩, ?_⟩
  intro rid actual now vid
  exact terminalTx_ne_conservationFailed db rid actual now vid

def sampleRules : PlanQuotas where
  rules := [⟨"rule-day", .day, 86400, "100", 0⟩, ⟨"rule-5h", .fiveHours, 18000, "10", 1⟩]
  distinct := by decide

def sampleGeneration : EntitlementGenerationRow where
  id := "ent"
  userId := "user"
  generation := 1
  productId := "product"
  productName := "plan"
  startsAt := 0
  endsAt := 1000000000000
  rateNumerator := "7"
  rateDenominator := "1"
  groupIds := []
  quotas := sampleRules
  sourceKind := "order"
  sourceId := "order-1"
  createdAt := 0

def samplePlanDatabase : Database where
  planFeaturesEnabled := true
  entitlementGenerations := .single sampleGeneration
  entitlementLifecycle := .single ⟨"ent", none, none, none, none, 0⟩
  entitlementCurrent := .single ⟨"user", "ent", 1, 0⟩

def sampleQuotaCalls : List QuotaCall :=
  [.reserve ⟨"user", "request-1", 10000000, "rev", 5000000000⟩ none "res-1",
   .terminal "res-1" (some 6000000) 6000000000 "vio-1",
   .reserve ⟨"user", "request-2", 8000000, "rev", 7000000000⟩ none "res-2"]

def runQuotaCalls [Sha256] (db : Database) (calls : List QuotaCall) : Database :=
  calls.foldl QuotaCall.run db

theorem runQuotaCalls_reachable [Sha256] (calls : List QuotaCall) (h : Reachable QuotaInitial QuotaStep db) :
    Reachable QuotaInitial QuotaStep (runQuotaCalls db calls) :=
  h.foldl (fun db c => .call db c) calls

open SampleDigests

theorem quota_buckets_conserved_sample :
    ((runQuotaCalls samplePlanDatabase sampleQuotaCalls).quotaBuckets.rows.map
      fun b => (b.settledFenCny, b.reservedFenCny)) = [(4, 0), (4, 6), (0, 6)] ∧
    ∀ b ∈ (runQuotaCalls samplePlanDatabase sampleQuotaCalls).quotaBuckets.rows,
      b.reservedFenCny = heldFen (runQuotaCalls samplePlanDatabase sampleQuotaCalls).quotaReservationBuckets
        (runQuotaCalls samplePlanDatabase sampleQuotaCalls).quotaReservations b.id :=
  ⟨by decide +kernel, fun b hb => ((quota_buckets_conserved _
    (runQuotaCalls_reachable sampleQuotaCalls (.start ⟨rfl, rfl, rfl⟩))).1 b hb).1⟩

end Monoize
