import Monoize.AdmissionSteps

/-! The primary's part of the admission invariant: a token without a receipt holds its reservation,
and a receipt comes from a published record or from the release of an unconfirmed token. -/

namespace Monoize

open Fallible Relational List Table

def TokenBound (db : Database) (tokenId reservationId requestId audience : String) : Prop :=
  ∃ t ∈ db.admissionTokens.rows, t.tokenId = tokenId ∧ t.reservationId = reservationId ∧
    t.requestId = requestId ∧ t.audience = audience

def TokenConfirmed (db : Database) (tokenId : String) : Prop :=
  ∃ t ∈ db.admissionTokens.rows, t.tokenId = tokenId ∧ t.confirmedAt ≠ none

structure TokensGrow (db db' : Database) : Prop where
  bound : ∀ {tokenId reservationId requestId audience}, TokenBound db tokenId reservationId requestId audience →
    TokenBound db' tokenId reservationId requestId audience
  confirmed : ∀ {tokenId}, TokenConfirmed db tokenId → TokenConfirmed db' tokenId

def Agrees (p : TerminalSpoolRecord) (c : TerminalReceipt) : Prop :=
  c.tokenId = p.input.tokenId ∧ c.terminalKind = p.input.kind ∧ c.actualNanoUsd = p.input.actualNanoUsd ∧
    c.canonicalDigest = p.canonicalDigest

def Reaped [Sha256] (db : Database) (c : TerminalReceipt) : Prop :=
  ¬ TokenConfirmed db c.tokenId ∧ c.terminalKind = .release ∧ c.actualNanoUsd = none ∧
    ∃ reservationId requestId audience, TokenBound db c.tokenId reservationId requestId audience ∧
      c.canonicalDigest = sha256 (canonicalTerminal c.tokenId reservationId requestId audience .release none)

structure PrimaryInv [Sha256] (db : Database) (published : List TerminalSpoolRecord) : Prop where
  token_of_reservation : ∀ r ∈ db.quotaReservations.rows, ∃ t ∈ db.admissionTokens.rows, t.reservationId = r.id
  reserved_of_token : ∀ t ∈ db.admissionTokens.rows, (∀ c ∈ db.terminalReceipts.rows, c.tokenId ≠ t.tokenId) →
    ∃ r ∈ db.quotaReservations.rows, r.id = t.reservationId ∧ r.state = .reserved
  receipt_source : ∀ c ∈ db.terminalReceipts.rows, (∃ p ∈ published, Agrees p c) ∨ Reaped db c

theorem tokensGrow_of_eq {db db' : Database} (h : db'.admissionTokens = db.admissionTokens) : TokensGrow db db' := by
  constructor
  · intro _ _ _ _ hb
    rwa [TokenBound, h]
  · intro _ hc
    rwa [TokenConfirmed, h]

theorem tokensGrow_issued {db db' : Database} {t : AdmissionToken} (h : TokenIssued db db' t) : TokensGrow db db' := by
  have hmem : ∀ u ∈ db.admissionTokens.rows, u ∈ db'.admissionTokens.rows := by
    intro u hu
    rw [h.tokens]
    exact mem_append_left _ hu
  exact ⟨fun ⟨u, hu, hb⟩ => ⟨u, hmem u hu, hb⟩, fun ⟨u, hu, hc⟩ => ⟨u, hmem u hu, hc⟩⟩

section Confirmation

variable {db db' : Database} {tokenId : String} {confirmedAt : Instant}

variable (h : TokenConfirmation db db' tokenId confirmedAt)

include h

theorem TokenConfirmation.row {u : AdmissionToken}
    (hu : u ∈ db.admissionTokens.rows) : ∃ u' ∈ db'.admissionTokens.rows, u'.tokenId = u.tokenId ∧
      u'.reservationId = u.reservationId ∧ u'.requestId = u.requestId ∧ u'.audience = u.audience ∧
      (u.confirmedAt ≠ none → u'.confirmedAt ≠ none) ∧ (u.tokenId = tokenId → u'.confirmedAt ≠ none) := by
  refine ⟨_, by rw [h.tokens]; exact mem_map_of_mem hu, ?_⟩
  by_cases hp : u.tokenId = tokenId ∧ u.confirmedAt = none
  · rw [if_pos (by simpa using hp)]
    simp [confirmedToken]
  · rw [if_neg (by simpa using hp)]
    exact ⟨rfl, rfl, rfl, rfl, id, fun hid => fun hn => hp ⟨hid, hn⟩⟩

theorem tokensGrow_confirmation : TokensGrow db db' := by
  constructor
  · rintro _ _ _ _ ⟨u, hu, rfl, rfl, rfl, rfl⟩
    obtain ⟨u', hu', h₁, h₂, h₃, h₄, -⟩ := h.row hu
    exact ⟨u', hu', h₁, h₂, h₃, h₄⟩
  · rintro _ ⟨u, hu, rfl, hc⟩
    obtain ⟨u', hu', h₁, -, -, -, h₅, -⟩ := h.row hu
    exact ⟨u', hu', h₁, h₅ hc⟩

theorem TokenConfirmation.confirms : TokenConfirmed db' tokenId := by
  obtain ⟨u, hu, hid⟩ := h.mem
  obtain ⟨u', hu', h₁, -, -, -, -, h₆⟩ := h.row hu
  exact ⟨u', hu', h₁.trans hid, h₆ hid⟩

theorem TokenConfirmation.confirmed_only {other : String}
    (hc : TokenConfirmed db' other) (hne : other ≠ tokenId) : TokenConfirmed db other := by
  obtain ⟨u', hu', hid, hsome⟩ := hc
  rw [h.tokens, update_rows] at hu'
  obtain ⟨u, hu, rfl⟩ := mem_map.1 hu'
  by_cases hp : u.tokenId = tokenId ∧ u.confirmedAt = none
  · rw [if_pos (by simpa using hp)] at hid
    exact absurd (hid.symm.trans hp.1) hne
  · rw [if_neg (by simpa using hp)] at hid hsome
    exact ⟨u, hu, hid, hsome⟩

end Confirmation

section Preservation

variable [Sha256] {db db' : Database} {published published' : List TerminalSpoolRecord}

theorem Reaped.grow {c : TerminalReceipt} (h : Reaped db c) (hg : TokensGrow db db')
    (hc : TokenConfirmed db' c.tokenId → TokenConfirmed db c.tokenId) : Reaped db' c := by
  obtain ⟨hun, hkind, hactual, res, req, aud, hb, hd⟩ := h
  exact ⟨fun h => hun (hc h), hkind, hactual, res, req, aud, hg.bound hb, hd⟩

variable (h : PrimaryInv db published)

include h

theorem PrimaryInv.mono (hp : ∀ p ∈ published, p ∈ published') : PrimaryInv db published' := by
  refine ⟨h.token_of_reservation, h.reserved_of_token, fun c hc => ?_⟩
  rcases h.receipt_source c hc with ⟨p, hmem, ha⟩ | hr
  · exact .inl ⟨p, hp p hmem, ha⟩
  · exact .inr hr

theorem primaryInv_frame (hf : AdmissionFrame db db') : PrimaryInv db' published := by
  constructor
  · rw [hf.reservations, hf.tokens]
    exact h.token_of_reservation
  · rw [hf.reservations, hf.tokens, hf.receipts]
    exact h.reserved_of_token
  · intro c hc
    rw [hf.receipts] at hc
    refine (h.receipt_source c hc).imp_right fun hr => hr.grow (tokensGrow_of_eq hf.tokens) ?_
    exact (tokensGrow_of_eq hf.tokens.symm).confirmed

theorem primaryInv_issued {t : AdmissionToken} (hi : TokenIssued db db' t) : PrimaryInv db' published := by
  have hnew : ∃ r : QuotaReservationRow, r.id = t.reservationId ∧ r.state = .reserved ∧
      db'.quotaReservations.rows = db.quotaReservations.rows ++ [r] := by
    rcases hi.reservations with ⟨-, r, hr, hid⟩ | hnew
    · obtain ⟨u, hu, hres⟩ := h.token_of_reservation r hr
      exact absurd (hres.trans hid) (hi.fresh u hu).2
    · exact hnew
  obtain ⟨r, hid, hstate, hrows⟩ := hnew
  constructor
  · intro r' hr'
    rw [hrows, mem_append, mem_singleton] at hr'
    rw [hi.tokens]
    rcases hr' with hr' | rfl
    · obtain ⟨u, hu, hres⟩ := h.token_of_reservation r' hr'
      exact ⟨u, mem_append_left _ hu, hres⟩
    · exact ⟨t, by simp, hid.symm⟩
  · intro u hu hno
    rw [hi.tokens, mem_append, mem_singleton] at hu
    rw [hi.receipts] at hno
    rw [hrows]
    rcases hu with hu | rfl
    · obtain ⟨r', hr', hres⟩ := h.reserved_of_token u hu hno
      exact ⟨r', mem_append_left _ hr', hres⟩
    · exact ⟨r, by simp, hid, hstate⟩
  · intro c hc
    rw [hi.receipts] at hc
    refine (h.receipt_source c hc).imp_right fun hr => hr.grow (tokensGrow_issued hi) ?_
    rintro ⟨u, hu, hid, hsome⟩
    rw [hi.tokens, mem_append, mem_singleton] at hu
    rcases hu with hu | rfl
    · exact ⟨u, hu, hid, hsome⟩
    · exact absurd hi.unconfirmed hsome

theorem primaryInv_confirmation {tokenId : String} {confirmedAt : Instant}
    (hc : TokenConfirmation db db' tokenId confirmedAt) : PrimaryInv db' published := by
  constructor
  · intro r hr
    rw [hc.reservations] at hr
    obtain ⟨u, hu, hres⟩ := h.token_of_reservation r hr
    obtain ⟨u', hu', -, h₂, -⟩ := hc.row hu
    exact ⟨u', hu', h₂.trans hres⟩
  · intro u' hu' hno
    rw [hc.tokens, update_rows] at hu'
    obtain ⟨u, hu, rfl⟩ := mem_map.1 hu'
    rw [hc.receipts] at hno
    rw [hc.reservations]
    have hcols : ∀ p : Prop, [Decidable p] → (if p then confirmedToken confirmedAt u else u).tokenId = u.tokenId ∧
        (if p then confirmedToken confirmedAt u else u).reservationId = u.reservationId := by
      intro p _
      split <;> exact ⟨rfl, rfl⟩
    rw [(hcols _).1] at hno
    rw [(hcols _).2]
    exact h.reserved_of_token u hu hno
  · intro c hmem
    rw [hc.receipts] at hmem
    refine (h.receipt_source c hmem).imp_right fun hr => hr.grow (tokensGrow_confirmation hc) ?_
    exact fun hconf => hc.confirmed_only hconf (hc.no_receipt c hmem)

theorem TerminalApplied.updated {input : TerminalApplyInput}
    (ha : TerminalApplied db db' input) : ∃ fen, db'.quotaReservations = db.quotaReservations.update
      (fun r => r.id = input.reservationId ∧ r.state = .reserved)
      (terminatedRow input.actualNanoUsd fen input.appliedAt) := by
  rcases ha.reservations with ⟨-, r, hr, hid, hstate⟩ | hupdate
  · obtain ⟨t, ht, htok, hres, -⟩ := ha.token
    obtain ⟨r', hr', hid', hreserved⟩ := h.reserved_of_token t ht (fun c hc => htok ▸ ha.no_receipt c hc)
    have : r' = r := eq_of_clashes hr' hr
      (QuotaReservationRow.clashes_of_id (hid'.trans (hres.trans hid.symm)))
    exact absurd (this ▸ hreserved) hstate
  · exact hupdate

theorem primaryInv_applied {input : TerminalApplyInput} (ha : TerminalApplied db db' input)
    (hsource : (∃ p ∈ published, Agrees p (receiptRow input)) ∨ Reaped db (receiptRow input)) :
    PrimaryInv db' published := by
  obtain ⟨fen, hupdate⟩ := ha.updated h
  obtain ⟨t, ht, htok, hres, -⟩ := ha.token
  have hid (r : QuotaReservationRow) (p : Prop) [Decidable p] :
      (if p then terminatedRow input.actualNanoUsd fen input.appliedAt r else r).id = r.id := by
    split <;> rfl
  constructor
  · intro r' hr'
    rw [hupdate, update_rows] at hr'
    obtain ⟨r, hr, rfl⟩ := mem_map.1 hr'
    rw [ha.tokens, hid]
    exact h.token_of_reservation r hr
  · intro u hu hno
    rw [ha.tokens] at hu
    rw [ha.receipts] at hno
    obtain ⟨r, hr, hrid, hstate⟩ := h.reserved_of_token u hu fun c hc => hno c (mem_append_left _ hc)
    have hne : r.id ≠ input.reservationId := by
      intro he
      have : u = t := eq_of_clashes hu ht
        (AdmissionToken.clashes_of_reservationId (hrid.symm.trans (he.trans hres.symm)))
      exact hno (receiptRow input) (by simp) (this ▸ htok.symm)
    refine ⟨r, ?_, hrid, hstate⟩
    rw [hupdate, update_rows]
    exact mem_map.2 ⟨r, hr, by simp [hne]⟩
  · intro c hc
    rw [ha.receipts, mem_append, mem_singleton] at hc
    have hg := tokensGrow_of_eq ha.tokens
    have hback : TokenConfirmed db' c.tokenId → TokenConfirmed db c.tokenId :=
      (tokensGrow_of_eq ha.tokens.symm).confirmed
    rcases hc with hc | rfl
    · exact (h.receipt_source c hc).imp_right fun hr => hr.grow hg hback
    · exact hsource.imp_right fun hr => hr.grow hg hback

end Preservation

end Monoize
