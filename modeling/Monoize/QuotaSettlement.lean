import Monoize.QuotaBound

/-! Settling a reservation within its maximum. -/

namespace Monoize

open Fallible IntervalLoad MachineInt Relational Transition List Option Table Int

variable {db db' : Database} {row : QuotaReservationRow} {v m n d fen : Int}

variable {now : Instant} {input : QuotaReservationInput} {id : String}

theorem ceilProductRatio_eq_ok (hd : 0 < d) (hv : 0 ≤ v) (hn : 0 ≤ n) (h : ceilProductRatio v n d = .ok fen) :
    v * n < 2 ^ 127 ∧ fen = (v * n + d - 1) / d ∧ 0 ≤ fen ∧ fen < 2 ^ 127 := by
  have hpos : 0 ≤ v * n := mul_nonneg hv hn
  simp only [ceilProductRatio, ok_iff, checked_eq_some, div?, ne_of_gt hd, if_false] at h
  obtain ⟨_, ⟨rfl, -, hlt⟩, _, ⟨rfl, -⟩, rfl, -, hfen⟩ := h
  rw [tdiv_eq_ediv_of_nonneg hpos, tmod_eq_emod_of_nonneg hpos] at hfen ⊢
  have hdiv := mul_ediv_add_emod (v * n) d
  have hquot := ediv_nonneg hpos (le_of_lt hd)
  have hmod := emod_nonneg (v * n) (ne_of_gt hd)
  have hmodlt := emod_lt_of_pos (v * n) hd
  generalize (v * n) / d = q at *
  generalize (v * n) % d = r at *
  refine ⟨hlt, ?_, by split <;> omega, hfen⟩
  symm
  by_cases hr : r = 0
  · rw [if_neg (by simpa using hr), ediv_eq_iff_of_pos hd]
    constructor <;> nlinarith
  · rw [if_pos hr, ediv_eq_iff_of_pos hd]
    have hrpos : 0 < r := by omega
    constructor <;> nlinarith

theorem round_le_ceil {x y : Int} (hd : 0 < d) (h : x ≤ y) : (2 * x + d) / (2 * d) ≤ (y + d - 1) / d := by
  have hround := Int.ediv_mul_le (2 * x + d) (show 2 * d ≠ 0 by omega)
  apply Int.le_ediv_of_mul_le hd
  rw [mul_left_comm] at hround
  omega

theorem roundProductRatio_eq_ok (hd : 0 < d) (hv : 0 ≤ v) (hn : 0 ≤ n) : roundProductRatio v n d = .ok fen ↔
    v * n < 2 ^ 127 ∧ v * n % d * 2 < 2 ^ 127 ∧ fen < 2 ^ 127 ∧ fen = (2 * (v * n) + d) / (2 * d) := by
  have hpos : 0 ≤ v * n := mul_nonneg hv hn
  have hround : (2 * (v * n) + d) / (2 * d) = v * n / d + if d ≤ v * n % d * 2 then 1 else 0 := by
    have hdiv := mul_ediv_add_emod (v * n) d
    have hmod := emod_nonneg (v * n) (ne_of_gt hd)
    have hmodlt := emod_lt_of_pos (v * n) hd
    rw [ediv_eq_iff_of_pos (by omega)]
    split <;> constructor <;> nlinarith
  have hquot := ediv_nonneg hpos (le_of_lt hd)
  have hquotle := ediv_le_self d hpos
  have hmod := emod_nonneg (v * n) (ne_of_gt hd)
  have htdiv := tdiv_eq_ediv_of_nonneg hpos (b := d)
  have htmod := tmod_eq_emod_of_nonneg hpos (b := d)
  simp only [roundProductRatio, ok_iff, checked_eq_some, div?, ne_of_gt hd, if_false, hround]
  constructor
  · rintro ⟨_, ⟨rfl, -, hprod⟩, _, ⟨rfl, -⟩, _, ⟨rfl, -, hdouble⟩, rfl, -, hfen⟩
    rw [htdiv, htmod] at *
    exact ⟨hprod, hdouble, hfen, rfl⟩
  · rintro ⟨hprod, hdouble, hfen, rfl⟩
    refine ⟨_, ⟨rfl, by omega, hprod⟩, _, ⟨htdiv, by omega, by omega⟩, _, ⟨congrArg (· * 2) htmod, ?_, ?_⟩, rfl, ?_, hfen⟩
    · omega
    · omega
    · split <;> omega

/-- The reservation is stored, and its buckets have room for the whole of it. -/
structure Settleable (db : Database) (row : QuotaReservationRow) : Prop where
  stored : db.quotaReservations.find? (·.id = row.id) = some row
  amounts : 0 ≤ row.reservedFenCny ∧ row.reservedFenCny < 2 ^ 127
  linked : ∀ l ∈ db.quotaReservationBuckets.rows, l.reservationId = row.id → l.reservedFenCny = row.reservedFenCny ∧
    ∃ b ∈ db.quotaBuckets.rows, b.id = l.bucketId ∧ 0 ≤ b.settledFenCny ∧ 0 ≤ b.reservedFenCny ∧
      b.reservedFenCny < 2 ^ 127 ∧ b.settledFenCny + row.reservedFenCny < 2 ^ 127

theorem settleBuckets_ok (links : List LinkedBucket) (t : Table QuotaBucket) (hfen : 0 ≤ fen)
    (h : ∀ l ∈ links, 0 ≤ l.linkedReservedFenCny ∧ l.linkedReservedFenCny < 2 ^ 127 ∧ 0 ≤ l.settledFenCny ∧
      0 ≤ l.reservedFenCny ∧ l.reservedFenCny < 2 ^ 127 ∧ l.settledFenCny + fen < 2 ^ 127) :
    ∃ t', settleBuckets (some fen) now t links = .ok t' := by
  induction links generalizing t with
  | nil => exact ⟨t, rfl⟩
  | cons l links ih =>
    obtain ⟨hlinked, hlinkedlt, hsettled, hreserved, hreservedlt, hroom⟩ := h l (mem_cons_self ..)
    simp only [settleBuckets, parseCanonical_toString.2 ⟨rfl, hlinked, hlinkedlt⟩,
      parseCanonical_toString.2 ⟨rfl, hreserved, hreservedlt⟩,
      parseCanonical_toString.2 ⟨rfl, hsettled, by omega⟩, ok_bind,
      checked_sub_of_nonneg hreserved hreservedlt hlinked hlinkedlt, orError_some, getD_some,
      checked_eq_some.2 ⟨rfl, by omega, hroom⟩]
    exact ih _ fun l hl => h l (mem_cons_of_mem _ hl)

theorem Settleable.links_length (h : Settleable db row) :
    (linkedBuckets db row.id).length = db.quotaReservationBuckets.count (·.reservationId = row.id) := by
  rw [linkedBuckets, length_filterMap_eq_countP, countP_filter]
  refine countP_congr fun l hl => ?_
  simp only [isSome_map, Bool.and_eq_true, decide_eq_true_eq, and_iff_right_iff_imp]
  intro hid
  obtain ⟨-, b, hb, hbid, -⟩ := h.linked l hl hid
  exact find?_isSome.2 ⟨b, hb, decide_eq_true hbid⟩

theorem Settleable.buckets_ok (h : Settleable db row) (hfen : 0 ≤ fen) (hle : fen ≤ row.reservedFenCny) (now : Instant) :
    ∃ t', settleBuckets (some fen) now db.quotaBuckets (linkedBuckets db row.id) = .ok t' := by
  apply settleBuckets_ok _ _ hfen
  intro x hx
  obtain ⟨l, hl, hid, b, hb, hbid, rfl⟩ := mem_linkedBuckets hx
  obtain ⟨hamount, b', hb', hbid', hsettled, hreserved, hreservedlt, hroom⟩ := h.linked l hl hid
  obtain rfl : b' = b := eq_of_clashes hb' hb (QuotaBucket.clashes_of_id (hbid'.trans hbid.symm))
  dsimp only
  rw [hamount]
  exact ⟨h.amounts.1, h.amounts.2, hsettled, hreserved, hreservedlt, by omega⟩

/-- The database once a reservation is settled: its row, and the buckets that hold its reserve. -/
def settledIn (db : Database) (row : QuotaReservationRow) (actual fen : Int) (now : Instant) : Database :=
  { db with
    quotaBuckets := db.quotaBuckets.update (fun b => LinkedTo db.quotaReservationBuckets row.id b.id) fun b =>
      { b with
        settledFenCny := b.settledFenCny + fen
        reservedFenCny := b.reservedFenCny - row.reservedFenCny
        updatedAt := timestamp now }
    quotaReservations := db.quotaReservations.update (·.id = row.id) fun r =>
      { r with
        actualNanoUsd := some actual
        actualFenCny := some fen
        state := .settled
        terminalAt := some (timestamp now)
        updatedAt := timestamp now } }

/-- A row as `reserve_tx` writes it, and as settlements within the maximum leave it. -/
structure Priced (x : QuotaReservationRow) (n d : Int) : Prop where
  numerator : parseCanonical x.rateNumerator = .ok n
  denominator : parseCanonical x.rateDenominator = .ok d
  denominator_pos : 0 < d
  maximum : 0 ≤ x.maximumNanoUsd ∧ x.maximumNanoUsd * n < 2 ^ 127
  reserve : x.reservedFenCny = (x.maximumNanoUsd * n + d * 10 ^ 7 - 1) / (d * 10 ^ 7)
  amount : 0 ≤ x.reservedFenCny ∧ x.reservedFenCny < 2 ^ 127
  untouched : x.state = .reserved → x.actualNanoUsd = none ∧ x.actualFenCny = none
  actual : 0 ≤ x.actualFenCny.getD 0
  unviolated : x.state ≠ .violated

theorem Priced.round_le (h : Priced row n d) (hv : 0 ≤ v) (hvm : v ≤ row.maximumNanoUsd) :
    0 ≤ (2 * (v * n) + d * 10 ^ 7) / (2 * (d * 10 ^ 7)) ∧
      (2 * (v * n) + d * 10 ^ 7) / (2 * (d * 10 ^ 7)) ≤ row.reservedFenCny := by
  have hn := (parseCanonical_bounds h.numerator).1
  have hd := h.denominator_pos
  have hvn : 0 ≤ v * n := mul_nonneg hv hn
  refine ⟨ediv_nonneg (by omega) (by omega), ?_⟩
  rw [h.reserve]
  exact round_le_ceil (by omega) (mul_le_mul_of_nonneg_right hvm hn)

theorem Priced.terminated (h : Priced row n d) {e : QuotaReservation} {nano actualFen : Option Int}
    (hnum : e.rateNumerator = row.rateNumerator) (hden : e.rateDenominator = row.rateDenominator)
    (hfen : actualFenCny e nano = .ok actualFen) (hwithin : ∀ v ∈ nano, 0 ≤ v ∧ v ≤ row.maximumNanoUsd) (now : Instant) :
    Priced (terminatedRow nano actualFen now row) n d ∧ actualFen.getD 0 ≤ row.reservedFenCny := by
  have hbounds : 0 ≤ actualFen.getD 0 ∧ actualFen.getD 0 ≤ row.reservedFenCny := by
    cases nano with
    | none =>
      cases hfen
      exact ⟨le_rfl, h.amount.1⟩
    | some v =>
      obtain ⟨hv, hvm⟩ := hwithin v rfl
      simp only [actualFenCny, hnum, hden, h.numerator, h.denominator, ok_bind, ok_iff, checked_eq_some, map_eq_ok] at hfen
      obtain ⟨_, ⟨rfl, -⟩, fen, hround, rfl⟩ := hfen
      obtain ⟨-, -, -, rfl⟩ := (roundProductRatio_eq_ok (mul_pos h.denominator_pos (by decide)) hv
        (parseCanonical_bounds h.numerator).1).1 hround
      exact h.round_le hv hvm
  have hstate : terminalState actualFen row.reservedFenCny ≠ .reserved ∧
      terminalState actualFen row.reservedFenCny ≠ .violated := by
    unfold terminalState
    cases actualFen with
    | none => simp
    | some fen => simp [not_lt.2 (show fen ≤ _ from hbounds.2)]
  exact ⟨⟨h.numerator, h.denominator, h.denominator_pos, h.maximum, h.reserve, h.amount, fun hr => absurd hr hstate.1,
    hbounds.1, hstate.2⟩, hbounds.2⟩

theorem terminalTx_settles (h : Settleable db row) (hp : Priced row n d) (hstate : row.state = .reserved) (hn : 0 < n)
    (hscale : d ≤ 10 ^ 18) (hv : 0 ≤ v) (hvm : v ≤ row.maximumNanoUsd) (now : Instant) (vid : String)
    (hfen : fen = (2 * (v * n) + d * 10 ^ 7) / (2 * (d * 10 ^ 7))) :
    ∃ r, terminalTx db row.id (some v) now vid = .ok (r, settledIn db row v fen now) ∧ r.state = .settled ∧
      r.reservedFenCny = row.reservedFenCny ∧ r.actualFenCny = some fen := by
  have hd := hp.denominator_pos
  have hmax : row.maximumNanoUsd < 2 ^ 127 := by nlinarith [hp.maximum.1, hp.maximum.2]
  obtain ⟨hnonneg, hle⟩ := hfen ▸ hp.round_le hv hvm
  obtain ⟨t', ht'⟩ := h.buckets_ok hnonneg hle now
  have hround : roundProductRatio v n (d * 10 ^ 7) = .ok fen := by
    have hmod := emod_lt_of_pos (v * n) (show 0 < d * 10 ^ 7 by omega)
    refine (roundProductRatio_eq_ok (by omega) hv (le_of_lt hn)).2 ⟨?_, by omega, by have := h.amounts.2; omega, hfen⟩
    exact (mul_le_mul_of_nonneg_right hvm (le_of_lt hn)).trans_lt hp.maximum.2
  have hscaled : checked 127 (d * nanoUsdPerCent) = some (d * 10 ^ 7) := by
    rw [show nanoUsdPerCent = 10 ^ 7 from rfl, checked_eq_some]
    exact ⟨rfl, by omega, by omega⟩
  obtain ⟨e, he, hereserved, hestate, henum, heden, hecount⟩ : ∃ e, reservationFromRow db row = .ok e ∧
      e.reservedFenCny = row.reservedFenCny ∧ e.state = .reserved ∧ e.rateNumerator = row.rateNumerator ∧
      e.rateDenominator = row.rateDenominator ∧
        e.bucketCount = db.quotaReservationBuckets.count (·.reservationId = row.id) := by
    simp only [reservationFromRow, parseCanonical_toString.2 ⟨rfl, hp.maximum.1, hmax⟩,
      parseCanonical_toString.2 ⟨rfl, h.amounts⟩, hp.untouched hstate, parseAmount?, pure_bind, ok_bind, pure_eq_ok]
    exact ⟨_, rfl, rfl, hstate, rfl, rfl, rfl⟩
  have hactualFen : actualFenCny e (some v) = .ok (some fen) := by
    simp only [actualFenCny, henum, heden, hp.numerator, hp.denominator, ok_bind, hscaled, orError_some, map_eq_ok]
    exact ⟨_, hround, rfl⟩
  have hnot : ¬ row.reservedFenCny < fen := not_lt.2 hle
  have hbuckets : t' = (settledIn db row v fen now).quotaBuckets := by
    refine ext_rows ?_
    rw [settleBuckets_spec (linkedBuckets_nodup db row.id) ht', settledIn, update_rows]
    refine map_congr_left fun b hb => ?_
    by_cases hlinked : LinkedTo db.quotaReservationBuckets row.id b.id
    · obtain ⟨l, hl, hrid, hbid⟩ := hlinked
      rw [settledBucket_linked hb hl hrid hbid, if_pos (decide_eq_true ⟨l, hl, hrid, hbid⟩), (h.linked l hl hrid).1]
      rfl
    · rw [settledBucket_unlinked hlinked, if_neg (by simpa using hlinked)]
  have hreservations : db.quotaReservations.update (fun r => r.id = row.id ∧ r.state = .reserved)
      (terminatedRow (some v) (some fen) now) = (settledIn db row v fen now).quotaReservations := by
    refine ext_rows ?_
    rw [settledIn, update_rows, update_rows]
    refine map_congr_left fun r hr => ?_
    by_cases hid : r.id = row.id
    · obtain rfl : r = row := eq_of_clashes hr (mem_of_find? h.stored) (QuotaReservationRow.clashes_of_id hid)
      simp [hstate, terminatedRow, terminalState, hnot]
    · simp [hid]
  simp only [terminalTx, h.stored, orError_some, ok_bind, he, hestate, ne_eq, not_true, if_false, hactualFen,
    require_of (h.links_length.trans hecount.symm), ht', recordViolation, hereserved, hnot, pure_bind, terminalState,
    hreservations, hbuckets]
  exact ⟨_, rfl, rfl, rfl, rfl⟩

theorem reserveTx_row [Sha256] {expected : Option (String × Int)} {r : QuotaReservation}
    (hnew : db.quotaReservations.find? (·.requestId = input.requestId) = none)
    (h : reserveTx db input expected id = .ok (r, db')) :
    ∃ e fen, r.id = id ∧ r.reservedFenCny = fen ∧ reservedFen e input.maximumNanoUsd = .ok fen ∧ ∃ g bindings buckets,
      Admission db db' g input.now (reservationRow e input fen id) bindings buckets := by
  simp only [reserveTx, hnew, ok_iff] at h
  obtain ⟨-, -, h⟩ := h
  obtain ⟨g, row, bindings, buckets, -, ha⟩ := admitNew_inv h
  simp only [admitNew, ok_iff, Prod.mk.injEq] at h
  obtain ⟨e, -, fen, hfen, _, -, _, -, _, -, _, -, _, hres, _, -, rfl, rfl⟩ := h
  have hrows := ha.reservations
  rw [(insert?_eq_some.1 hres).2, append_cancel_left_eq, cons.injEq] at hrows
  exact ⟨e, fen, rfl, rfl, hfen, g, bindings, buckets, hrows.1 ▸ ha⟩

theorem reservationRow_priced {e : EntitlementGeneration}
    (hmax : 0 ≤ input.maximumNanoUsd) (h : reservedFen e input.maximumNanoUsd = .ok fen) :
    ∃ n d, Priced (reservationRow e input fen id) n d := by
  simp only [reservedFen, ok_iff, checked_eq_some] at h
  obtain ⟨n, hn, d, hd, _, ⟨rfl, -⟩, hceil⟩ := h
  have hpos : 0 < d := by
    refine (parseCanonical_bounds hd).1.lt_of_ne ?_
    rintro rfl
    simp [ceilProductRatio, div?, orError] at hceil
  obtain ⟨hprod, heq, hamount⟩ := ceilProductRatio_eq_ok (mul_pos hpos (by decide)) hmax (parseCanonical_bounds hn).1 hceil
  refine ⟨n, d, hn, hd, hpos, ⟨hmax, hprod⟩, heq, hamount, fun _ => ⟨rfl, rfl⟩, le_rfl, ?_⟩
  rintro ⟨⟩

/-- Positive maxima and amounts within the maximum, as `reserve_bound` and `settle` pass them on. -/
def QuotaCall.Within (db : Database) : QuotaCall → Prop
  | reserve input .. => 0 ≤ input.maximumNanoUsd
  | terminal rid actual .. =>
    ∀ v ∈ actual, 0 ≤ v ∧ ∀ x ∈ db.quotaReservations.rows, x.id = rid → v ≤ x.maximumNanoUsd
  | replaceEntitlement .. => True

/-- A step of the quota store in which a settlement keeps within the maximum of its reservation. -/
inductive WithinStep [Sha256] : Database → Database → Prop
  | call (db : Database) {c : QuotaCall} : c.Within db → WithinStep db (c.run db)
  | other {db db' : Database} : QuotaFrame db db' → WithinStep db db'

theorem WithinStep.quotaStep [Sha256] (h : WithinStep db db') : QuotaStep db db' := by
  cases h with
  | call _ => exact .call ..
  | other hf => exact .other hf

structure SettlementInv [Sha256] (db : Database) : Prop where
  bounded : QuotaBounded db
  rows : ∀ x ∈ db.quotaReservations.rows, ∃ n d, Priced x n d
  use : ∀ b ∈ db.quotaBuckets.rows, bucketUse b < 2 ^ 127

theorem Admission.bucketUse_lt [Sha256] {g : EntitlementGenerationRow} {bindings : List BucketBinding}
    {buckets : Table QuotaBucket} (hinj : Function.Injective sha256) (h : SettlementInv db)
    (ha : Admission db db' g now row bindings buckets) : ∀ b ∈ db'.quotaBuckets.rows, bucketUse b < 2 ^ 127 := by
  rw [ha.charged, List.forall_mem_map]
  intro b hb
  rw [bucketUse_charged]
  split
  · rename_i hid
    obtain ⟨bd, hbd, hbid⟩ := mem_map.1 hid
    obtain ⟨hactive, hrule, -⟩ := ha.charged_spec hinj h.bounded.origins hb hbd hbid.symm
    obtain ⟨q, hq, -⟩ := ha.within bd hbd
    have huse : bucketUse b ≤ liveLoad QuotaBucket.windowEnd bucketUse (ruleBuckets buckets g bd.rule) (timestamp now) :=
      le_liveLoad (mem_ruleBuckets.2 ⟨hb, hactive.1, hactive.2.1, hrule⟩) hactive.2.2 (ha.ruleBuckets_nonneg bd.rule)
    have hroom := ha.room hbd hq
    have hqlt := (parseCanonical_bounds hq).2
    omega
  · obtain ⟨added, hadded, hfresh⟩ := ha.inserted
    rw [hadded, mem_append] at hb
    rcases hb with hb | hb
    · simpa using h.use b hb
    · obtain ⟨bd, -, rfl, -⟩ := hfresh b hb
      norm_num [bucketUse, freshBucket]

theorem SettlementInv.step [Sha256] (hinj : Function.Injective sha256) (h : SettlementInv db)
    (hs : WithinStep db db') : SettlementInv db' := by
  have hbounded := quotaBounded_step hinj h.bounded hs.quotaStep
  cases hs with
  | other hf => exact ⟨hbounded, hf.reservations ▸ h.rows, hf.buckets ▸ h.use⟩
  | @call c hc =>
    cases c with
    | reserve input expected id =>
      simp only [QuotaCall.run] at hbounded ⊢
      cases hr : reserveTx db input expected id with
      | error e => exact h
      | ok out =>
        obtain ⟨r, db'⟩ := out
        rw [hr] at hbounded
        cases hfind : db.quotaReservations.find? (·.requestId = input.requestId) with
        | some x =>
          simp only [reserveTx, hfind, ok_iff] at hr
          obtain ⟨-, -, _, -, -, -, -, rfl⟩ := hr
          exact h
        | none =>
          obtain ⟨e, fen, -, -, hfen, g, bindings, buckets, ha⟩ := reserveTx_row hfind hr
          refine ⟨hbounded, fun x hx => ?_, ha.bucketUse_lt hinj h⟩
          rw [commit, ha.reservations, mem_append, mem_singleton] at hx
          rcases hx with hx | rfl
          · exact h.rows x hx
          · exact reservationRow_priced hc hfen
    | terminal rid actual now vid =>
      simp only [QuotaCall.run] at hbounded ⊢
      cases hr : terminalTx db rid actual now vid with
      | error e => exact h
      | ok out =>
        rw [hr] at hbounded
        rcases terminalTx_inv hr with ⟨rfl, -⟩ | ⟨row, actualFen, rfl, ht⟩
        · exact h
        obtain ⟨n, d, hp⟩ := h.rows row ht.row_mem
        obtain ⟨e, hnum, hden, hfen⟩ := ht.priced
        obtain ⟨hterminated, hle⟩ := hp.terminated hnum hden hfen
          (fun v hv => ⟨(hc v hv).1, (hc v hv).2 row ht.row_mem rfl⟩) now
        refine ⟨hbounded, ?_, ?_⟩
        · rw [commit, ht.reservations, update_rows, List.forall_mem_map]
          intro x hx
          split
          · rename_i hsel
            obtain rfl : x = row := eq_of_clashes hx ht.row_mem
              (QuotaReservationRow.clashes_of_id (of_decide_eq_true hsel).1)
            exact ⟨n, d, hterminated⟩
          · exact h.rows x hx
        · rw [commit, ht.buckets, List.forall_mem_map]
          exact fun b hb => (bucketUse_termination ht h.bounded.conserved hle hb).trans_lt (h.use b hb)
    | replaceEntitlement input id createdAt =>
      simp only [QuotaCall.run] at hbounded ⊢
      cases hr : replaceEntitlementTx db input id createdAt with
      | error e => exact h
      | ok out =>
        obtain ⟨g, db'⟩ := out
        rw [hr] at hbounded
        rcases replaceEntitlementTx_inv hr with rfl | ⟨row, hrep⟩
        · exact h
        · refine ⟨hbounded, ?_, ?_⟩ <;> rw [commit, hrep.frame]
          · exact h.rows
          · exact h.use

theorem settlementInv_reachable [Sha256] (hinj : Function.Injective sha256) (h : Reachable QuotaInitial WithinStep db) :
    SettlementInv db := by
  refine h.invariant (fun db hdb => ⟨quotaBounded_initial hdb, ?_, ?_⟩) fun _ _ h hs => h.step hinj hs
  · simp [hdb.2.1]
  · simp [hdb.1]

theorem SettlementInv.settleable [Sha256] (h : SettlementInv db) (hrow : row ∈ db.quotaReservations.rows)
    (hstate : row.state = .reserved) : Settleable db row := by
  obtain ⟨n, d, hp⟩ := h.rows row hrow
  refine ⟨find?_eq_some_of_mem hrow (by simp) fun r hr => QuotaReservationRow.clashes_of_id (of_decide_eq_true hr),
    hp.amount, fun l hl hid => ?_⟩
  have hlink (l) (hl : l ∈ db.quotaReservationBuckets.rows) : 0 ≤ l.reservedFenCny := by
    obtain ⟨x, hx, -, hamount⟩ := h.bounded.conserved.link_reservation l hl
    obtain ⟨_, _, hx⟩ := h.rows x hx
    exact hamount ▸ hx.amount.1
  obtain ⟨x, hx, hxid, hamount⟩ := h.bounded.conserved.link_reservation l hl
  obtain rfl : x = row := eq_of_clashes hx hrow (QuotaReservationRow.clashes_of_id (hxid.trans hid))
  obtain ⟨b, hb, hbid⟩ := h.bounded.conserved.link_bucket l hl
  have hsettled : 0 ≤ b.settledFenCny := by
    rw [h.bounded.conserved.settled b hb]
    refine List.sum_nonneg (List.forall_mem_map.2 fun x hx => ?_)
    obtain ⟨_, _, hx⟩ := h.rows x hx
    split
    · exact hx.actual
    · exact le_rfl
  have hheld : l.reservedFenCny ≤ b.reservedFenCny := by
    rw [h.bounded.conserved.reserved b hb]
    refine List.single_le_sum (List.forall_mem_map.2 fun l hl => ?_) _
      (mem_map.2 ⟨l, hl, if_pos ⟨hbid.symm, x, hx, hxid, hstate⟩⟩)
    split
    · exact hlink l hl
    · exact le_rfl
  have huse := h.use b hb
  have hnonneg := hlink l hl
  unfold bucketUse at huse
  exact ⟨hamount.symm, b, hb, hbid, hsettled, by omega, by omega, by omega⟩

open SampleDigests

def sampleRun : Database := runQuotaCalls samplePlanDatabase sampleQuotaCalls

end Monoize
