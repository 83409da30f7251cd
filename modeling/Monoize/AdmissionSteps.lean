import Monoize.AdmissionProtocol
import Monoize.QuotaErrors

/-! What each transaction of the primary and each write of the replica does. -/

namespace Monoize

open Fallible MachineInt Relational List Option Table

variable {db db' : Database} {input : TerminalApplyInput} {store store' : ClaimStore}
  {tokenId : String}

variable {tid vid : String} {now : Instant} {m : ClaimMarker}

structure TokenIssued (db db' : Database) (t : AdmissionToken) : Prop where
  tokens : db'.admissionTokens.rows = db.admissionTokens.rows ++ [t]
  fresh : ∀ u ∈ db.admissionTokens.rows, u.tokenId ≠ t.tokenId ∧ u.reservationId ≠ t.reservationId
  unconfirmed : t.confirmedAt = none
  receipts : db'.terminalReceipts = db.terminalReceipts
  reservations : (db'.quotaReservations = db.quotaReservations ∧
      ∃ r ∈ db.quotaReservations.rows, r.id = t.reservationId) ∨
    ∃ r : QuotaReservationRow, r.id = t.reservationId ∧ r.state = .reserved ∧
      db'.quotaReservations.rows = db.quotaReservations.rows ++ [r]

structure TokenConfirmation (db db' : Database) (tokenId : String) (confirmedAt : Instant) : Prop where
  mem : ∃ t ∈ db.admissionTokens.rows, t.tokenId = tokenId
  no_receipt : ∀ c ∈ db.terminalReceipts.rows, c.tokenId ≠ tokenId
  tokens : db'.admissionTokens = db.admissionTokens.update
    (fun t => t.tokenId = tokenId ∧ t.confirmedAt = none) (confirmedToken confirmedAt)
  receipts : db'.terminalReceipts = db.terminalReceipts
  reservations : db'.quotaReservations = db.quotaReservations

structure TerminalApplied (db db' : Database) (input : TerminalApplyInput) : Prop where
  token : ∃ t ∈ db.admissionTokens.rows, t.tokenId = input.tokenId ∧ t.reservationId = input.reservationId ∧
    t.requestId = input.requestId ∧ t.audience = input.audience ∧
    (input.kind = .settlement → t.confirmedAt ≠ none)
  no_receipt : ∀ c ∈ db.terminalReceipts.rows, c.tokenId ≠ input.tokenId
  frame : db' = { db with
    quotaBuckets := db'.quotaBuckets
    quotaReservations := db'.quotaReservations
    quotaViolations := db'.quotaViolations
    quotaAdmissionBlocks := db'.quotaAdmissionBlocks
    terminalReceipts := db'.terminalReceipts }
  receipts : db'.terminalReceipts.rows = db.terminalReceipts.rows ++ [receiptRow input]
  reservations : (db'.quotaReservations = db.quotaReservations ∧
      ∃ r ∈ db.quotaReservations.rows, r.id = input.reservationId ∧ r.state ≠ .reserved) ∨
    ∃ fen, db'.quotaReservations = db.quotaReservations.update
      (fun r => r.id = input.reservationId ∧ r.state = .reserved)
      (terminatedRow input.actualNanoUsd fen input.appliedAt)

theorem TerminalApplied.tokens (h : TerminalApplied db db' input) : db'.admissionTokens = db.admissionTokens := by
  rw [h.frame]

theorem liftQuota_eq_ok {α : Type} {x : Except QuotaError α} {a : α} : liftQuota x = .ok a ↔ x = .ok a := by
  cases x <;> simp [liftQuota]

theorem issueTx_inv [Sha256] {ring : Except AdmissionRuntimeError SigningRing} {input : IssueAdmissionInput} {rid : String}
    {d : AdmissionDecision} (h : issueTx ring db input rid tid = .ok (d, db')) :
    db' = db ∨ ∃ t, TokenIssued db db' t := by
  unfold issueTx at h
  split at h
  · simp only [ok_iff] at h
    obtain ⟨_, -, _, -, -, rfl⟩ := h
    exact .inl rfl
  split at h
  · cases h
    exact .inl rfl
  split at h
  · simp only [ok_iff, liftQuota_eq_ok] at h
    obtain ⟨key, -, ⟨reservation, reserved⟩, hreserve, jws, -, tokens, htokens, -, rfl⟩ := h
    obtain ⟨hfresh, hrows⟩ := insert?_eq_some.1 htokens
    have hframe : reserved.admissionTokens = db.admissionTokens ∧
        reserved.terminalReceipts = db.terminalReceipts := by
      rcases reserveTx_inv hreserve with ⟨rfl, -⟩ | ⟨g, row, bindings, buckets, -, ha⟩
      · exact ⟨rfl, rfl⟩
      · rw [ha.frame]
        exact ⟨rfl, rfl⟩
    rw [hframe.1] at hfresh hrows
    refine .inr ⟨_, hrows, ?_, rfl, hframe.2, ?_⟩
    · intro u hu
      exact ⟨fun e => hfresh u hu (AdmissionToken.clashes_of_tokenId e),
        fun e => hfresh u hu (AdmissionToken.clashes_of_reservationId e)⟩
    · rcases reserveTx_inv hreserve with ⟨rfl, hr⟩ | ⟨g, row, bindings, buckets, hid, ha⟩
      · exact .inl ⟨rfl, hr⟩
      · exact .inr ⟨row, hid, ha.row_state, ha.reservations⟩
  · cases h
    exact .inl rfl

theorem confirmTx_inv {input : ConfirmAdmissionInput} {b : Bool} (h : confirmTx db input = .ok (b, db')) :
    (db' = db ∧ ∃ t ∈ db.admissionTokens.rows, t.tokenId = input.tokenId ∧ t.confirmedAt ≠ none) ∨
      TokenConfirmation db db' input.tokenId input.confirmedAt := by
  simp only [confirmTx, bind_eq_ok, orError_eq_ok, require_eq_ok] at h
  obtain ⟨t, ht, _, -, _, hreceipt, reservation, -, _, -, h⟩ := h
  have hmem := mem_of_find? ht
  have hid : t.tokenId = input.tokenId := by simpa using of_find? ht
  split at h
  · rename_i hsome
    simp only [pair_eq_ok] at h
    exact .inl ⟨h.2.symm, t, hmem, hid, isSome_iff_ne_none.1 hsome⟩
  simp only [bind_eq_ok, pair_eq_ok] at h
  obtain ⟨_, -, -, rfl⟩ := h
  refine .inr ⟨⟨t, hmem, hid⟩, ?_, rfl, rfl, rfl⟩
  intro c hc hcid
  simpa [hcid] using find?_eq_none.1 hreceipt c hc

theorem applyTerminalTx_inv {r : TerminalApplyResult} (h : applyTerminalTx db input vid = .ok (r, db')) :
    db' = db ∨ TerminalApplied db db' input := by
  simp only [applyTerminalTx, ok_iff] at h
  obtain ⟨t, ht, h⟩ := h
  split at h
  · simp only [ok_iff] at h
    obtain ⟨_, -, -, rfl⟩ := h
    exact .inl rfl
  rename_i hreceipt
  simp only [ok_iff, Prod.mk.injEq] at h
  obtain ⟨_, ⟨hres, hreq, haud⟩, _, hsettle, next, hnext, receipts, hreceipts, -, rfl⟩ := h
  have hrun : ∃ q, terminalTx db input.reservationId input.actualNanoUsd input.appliedAt vid = .ok (q, next) := by
    unfold runTerminal at hnext
    split at hnext
    · rename_i q n hq
      cases hnext
      exact ⟨q, hq⟩
    · cases hnext
  obtain ⟨q, hq⟩ := hrun
  have hframe : next = { db with
      quotaBuckets := next.quotaBuckets
      quotaReservations := next.quotaReservations
      quotaViolations := next.quotaViolations
      quotaAdmissionBlocks := next.quotaAdmissionBlocks } := by
    rcases terminalTx_inv hq with ⟨rfl, -⟩ | ⟨row, fen, -, hterm⟩
    · rfl
    · exact hterm.frame
  have hrows := (insert?_eq_some.1 hreceipts).2
  rw [hframe] at hrows
  have hid : t.tokenId = input.tokenId := by simpa using of_find? ht
  refine .inr ⟨⟨t, mem_of_find? ht, hid, hres, hreq, haud, hsettle⟩, ?_, ?_, hrows, ?_⟩
  · intro c hc hcid
    simpa [hcid] using find?_eq_none.1 hreceipt c hc
  · rw [hframe]
  · rcases terminalTx_inv hq with ⟨rfl, hr⟩ | ⟨row, fen, hrow, hterm⟩
    · exact .inl ⟨rfl, hr⟩
    · have hreservations := hterm.reservations
      rw [hrow] at hreservations
      exact .inr ⟨fen, hreservations⟩

theorem applyTerminals_invariant {P : Database → Prop} {inputs : List TerminalApplyInput}
    {acks : List PlanTerminalAcknowledgement} (h : applyTerminals db vid inputs = .ok (acks, db'))
    (hstep : ∀ {input next last}, TerminalApplied next last input → P next → P last) (hdb : P db) : P db' := by
  induction inputs generalizing db acks with
  | nil =>
    simp only [applyTerminals, pair_eq_ok] at h
    exact h.2 ▸ hdb
  | cons input inputs ih =>
    simp only [applyTerminals, bind_eq_ok, pair_eq_ok] at h
    obtain ⟨⟨r, next⟩, hnext, ⟨rest, last⟩, hlast, -, rfl⟩ := h
    apply ih hlast
    rcases applyTerminalTx_inv hnext with rfl | ha
    · exact hdb
    · exact hstep ha hdb

theorem recoverUnconfirmedTx_inv [Sha256] {r : Option TerminalApplyResult}
    (h : recoverUnconfirmedTx db tid now vid = .ok (r, db')) :
    db' = db ∨ ∃ t ∈ db.admissionTokens.rows, t.confirmedAt = none ∧ ∃ digest,
      terminalDigest (releaseInput t now) = .ok digest ∧
      TerminalApplied db db' { releaseInput t now with canonicalDigest := digest } := by
  unfold recoverUnconfirmedTx at h
  split at h
  · cases h
    exact .inl rfl
  rename_i t ht
  split at h
  · cases h
    exact .inl rfl
  rename_i hnone
  simp only [ok_iff] at h
  obtain ⟨expiry, -, h⟩ := h
  split at h
  · cases h
    exact .inl rfl
  simp only [ok_iff] at h
  obtain ⟨digest, hdigest, ⟨result, next⟩, happly, -, rfl⟩ := h
  rcases applyTerminalTx_inv happly with rfl | ha
  · exact .inl rfl
  · exact .inr ⟨t, mem_of_find? ht, by simpa using hnone, digest, hdigest, ha⟩

theorem terminalApplyInput_inv [Sha256] {p : TerminalSpoolRecord} (h : terminalApplyInput p.wire = .ok input) :
    input = ⟨p.input.tokenId, p.input.reservationId, p.input.requestId, p.input.audience, p.input.kind,
      p.input.actualNanoUsd, p.canonicalDigest, p.input.createdAt⟩ := by
  simp only [terminalApplyInput, ok_iff] at h
  obtain ⟨_, -, actual, hactual, _, -, _, -, rfl⟩ := h
  suffices hp : actual = p.input.actualNanoUsd by
    subst hp
    rfl
  simp only [TerminalSpoolRecord.wire] at hactual
  cases hv : p.input.actualNanoUsd with
  | none =>
    simp only [hv, map_none, parseActual, ok_iff] at hactual
    obtain ⟨_, -, rfl⟩ := hactual
    rfl
  | some v =>
    simp only [hv, map_some, parseActual, ok_iff, map_eq_ok, canonical?_toString, checked_eq_some] at hactual
    obtain ⟨_, -, digits, hdigits, a, ⟨rfl, -⟩, rfl⟩ := hactual
    split at hdigits
    · cases hdigits
    · cases hdigits
      congr 1
      omega

theorem readClaim_inv (h : readClaim store tokenId = .ok m) : m ∈ store.claims.rows ∧ m.tokenId = tokenId := by
  simp only [readClaim, ok_iff] at h
  obtain ⟨m', hm', _, -, rfl⟩ := h
  exact ⟨mem_of_find? hm', by simpa using of_find? hm'⟩

theorem claim_inv {a : VerifiedAdmission} (h : claim store a = .ok store') :
    store'.claims.rows = store.claims.rows ++ [claimMarker a] ∧ store'.terminals = store.terminals := by
  simp only [claim, ok_iff] at h
  obtain ⟨_, -, claims, hclaims, rfl⟩ := h
  exact ⟨(insert?_eq_some.1 hclaims).2, rfl⟩

structure Published [Sha256] (store store' : ClaimStore) (input : TerminalSpoolInput) : Prop where
  claim : ∃ m ∈ store.claims.rows, m.tokenId = input.tokenId ∧ m.reservationId = input.reservationId ∧
    m.requestId = input.requestId ∧ m.audience = input.audience ∧ m.acknowledgedAt = none
  actual : actualIsValid input.kind input.actualNanoUsd
  fresh : ∀ p ∈ store.terminals.rows, p.input.tokenId ≠ input.tokenId
  claims : store'.claims = store.claims
  terminals : store'.terminals.rows = store.terminals.rows ++ [spoolRecord input]

variable {record : TerminalSpoolRecord}

theorem spoolTerminal_inv [Sha256] {input : TerminalSpoolInput}
    (h : spoolTerminal store input = .ok (record, store')) : (record ∈ store.terminals.rows ∧ store' = store) ∨
      (record = spoolRecord input ∧ Published store store' input) := by
  simp only [spoolTerminal, ok_iff] at h
  obtain ⟨_, hvalid, m, hm, _, ⟨hack, hres, hreq, haud⟩, h⟩ := h
  obtain ⟨hmem, hid⟩ := readClaim_inv hm
  split at h
  · rename_i terminals hterminals
    simp only [ok_iff] at h
    obtain ⟨rfl, rfl⟩ := h
    obtain ⟨hfresh, hrows⟩ := insert?_eq_some.1 hterminals
    exact .inr ⟨rfl, ⟨m, hmem, hid, hres, hreq, haud, hack⟩, hvalid.2.2.2.2, hfresh, rfl, hrows⟩
  · simp only [ok_iff] at h
    obtain ⟨existing, hexisting, _, -, rfl, rfl⟩ := h
    exact .inl ⟨mem_of_find? hexisting, rfl⟩

theorem recoverClaim_inv [Sha256] {createdAt : Instant}
    (hm : m ∈ abandonedClaims store) (h : recoverClaim store m createdAt = some (record, store')) :
    ∃ input, input = terminalFromClaim m (if m.state = .routed then .settlement else .release) createdAt ∧
      record = spoolRecord input ∧ Published store store' input := by
  simp only [abandonedClaims, mem_filter, decide_eq_true_eq] at hm
  simp only [recoverClaim, bind_eq_bind, bind_eq_some_iff, guard_eq_some',
    Option.pure_def, Option.some.injEq, Prod.mk.injEq] at h
  obtain ⟨_, hvalid, terminals, hterminals, rfl, rfl⟩ := h
  obtain ⟨hfresh, hrows⟩ := insert?_eq_some.1 hterminals
  exact ⟨_, rfl, rfl, ⟨m, hm.1, rfl, rfl, rfl, rfl, hm.2.1⟩, hvalid.2.2.2.2, hfresh, rfl, hrows⟩

/-- Markers are rewritten in place: a claim keeps its identity and stays acknowledged. -/
structure ClaimsRewritten (store store' : ClaimStore) : Prop where
  back : ∀ m' ∈ store'.claims.rows, ∃ m ∈ store.claims.rows, m'.tokenId = m.tokenId ∧
    m'.reservationId = m.reservationId ∧ m'.requestId = m.requestId ∧ m'.audience = m.audience
  forth : ∀ m ∈ store.claims.rows, ∃ m' ∈ store'.claims.rows, m'.tokenId = m.tokenId ∧
    (m.acknowledgedAt ≠ none → m'.acknowledgedAt ≠ none)

theorem claimsRewritten_map {f : ClaimMarker → ClaimMarker} (hrows : store'.claims.rows = store.claims.rows.map f)
    (hf : ∀ m, (f m).tokenId = m.tokenId ∧ (f m).reservationId = m.reservationId ∧
      (f m).requestId = m.requestId ∧ (f m).audience = m.audience ∧
      (m.acknowledgedAt ≠ none → (f m).acknowledgedAt ≠ none)) : ClaimsRewritten store store' := by
  constructor
  · intro m' hm'
    rw [hrows] at hm'
    obtain ⟨m, hm, rfl⟩ := mem_map.1 hm'
    obtain ⟨h₁, h₂, h₃, h₄, -⟩ := hf m
    exact ⟨m, hm, h₁, h₂, h₃, h₄⟩
  · intro m hm
    obtain ⟨h₁, -, -, -, h₅⟩ := hf m
    exact ⟨f m, by rw [hrows]; exact mem_map_of_mem hm, h₁, h₅⟩

theorem markAcknowledged_inv {digest : String} (h : markAcknowledged store tokenId digest now = .ok store') :
    ClaimsRewritten store store' ∧ store'.terminals = store.terminals ∧
      (∀ m' ∈ store'.claims.rows, ∃ m ∈ store.claims.rows, m'.tokenId = m.tokenId ∧ m'.state = m.state) ∧
      ∀ m' ∈ store'.claims.rows, m'.tokenId = tokenId → m'.acknowledgedAt ≠ none := by
  simp only [markAcknowledged, ok_iff] at h
  obtain ⟨_, -, _, -, m, hm, h⟩ := h
  obtain ⟨hmem, hid⟩ := readClaim_inv hm
  split at h
  · simp only [ok_iff] at h
    obtain ⟨_, hack, rfl⟩ := h
    refine ⟨claimsRewritten_map (map_id _).symm fun m => ⟨rfl, rfl, rfl, rfl, id⟩, rfl,
      fun m hm => ⟨m, hm, rfl, rfl⟩, ?_⟩
    intro m' hm' hid'
    rwa [eq_of_clashes hm' hmem (hid'.trans hid.symm)]
  · simp only [ok_iff] at h
    obtain ⟨_, -, rfl⟩ := h
    refine ⟨claimsRewritten_map rfl fun m => ?_, rfl, ?_, ?_⟩
    · split <;> simp [acknowledgedMarker]
    · intro m' hm'
      obtain ⟨m, hm, rfl⟩ := mem_map.1 hm'
      refine ⟨m, hm, ?_⟩
      split <;> simp [acknowledgedMarker]
    · intro m' hm' hid'
      obtain ⟨m, hm, rfl⟩ := mem_map.1 hm'
      split at hid' <;> rename_i hp
      · rw [if_pos hp]
        simp [acknowledgedMarker]
      · rw [if_neg hp]
        simp only [decide_eq_true_eq, not_and] at hp
        exact hp hid'

theorem replaceClaimState_inv {mutate : ClaimMarker → Except AdmissionError (ClaimState × Option Instant)}
    (h : replaceClaimState store tokenId mutate = .ok store') :
    ClaimsRewritten store store' ∧ store'.terminals = store.terminals ∧
      ∃ m ∈ store.claims.rows, m.tokenId = tokenId ∧ ∃ state routedAt, mutate m = .ok (state, routedAt) ∧
        ∀ m' ∈ store'.claims.rows, (m'.tokenId = tokenId ∧ m'.state = state) ∨ m' ∈ store.claims.rows := by
  simp only [replaceClaimState, ok_iff] at h
  obtain ⟨_, -, m, hm, ⟨state, routedAt⟩, hmutate, _, -, rfl⟩ := h
  obtain ⟨hmem, hid⟩ := readClaim_inv hm
  refine ⟨claimsRewritten_map rfl fun m => ?_, rfl, m, hmem, hid, state, routedAt, hmutate, ?_⟩
  · split <;> simp [markedAs]
  · intro m' hm'
    obtain ⟨m₀, hm₀, rfl⟩ := mem_map.1 hm'
    split
    · rename_i hp
      exact .inl ⟨by simpa [markedAs] using hp, rfl⟩
    · exact .inr hm₀

end Monoize
