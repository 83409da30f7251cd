import Monoize.AdmissionPrimary

/-! The replica's part of the admission invariant: one terminal record per claim, forever, and
settlements only of tokens that the primary has confirmed. -/

namespace Monoize

open Fallible Relational List

variable {tokenId : String}

structure StoreInv [Sha256] (db : Database) (store : ClaimStore) (published : List TerminalSpoolRecord) : Prop where
  claim_bound : ∀ m ∈ store.claims.rows, TokenBound db m.tokenId m.reservationId m.requestId m.audience
  claim_confirmed : ∀ m ∈ store.claims.rows, m.state = .confirmed ∨ m.state = .routed →
    TokenConfirmed db m.tokenId
  terminal_published : ∀ p ∈ store.terminals.rows, p ∈ published
  record : ∀ p ∈ published, p = spoolRecord p.input ∧ actualIsValid p.input.kind p.input.actualNanoUsd ∧
    TokenBound db p.input.tokenId p.input.reservationId p.input.requestId p.input.audience ∧
    (p.input.kind = .settlement → TokenConfirmed db p.input.tokenId)
  kept : ∀ p ∈ published, ∃ m ∈ store.claims.rows, m.tokenId = p.input.tokenId ∧
    (p ∈ store.terminals.rows ∨ m.acknowledgedAt ≠ none)
  unique : ∀ p ∈ published, ∀ q ∈ published, p.input.tokenId = q.input.tokenId → p = q

def LifecycleInv (db : Database) (l : Lifecycle) : Prop :=
  TokenBound db l.admission.tokenId l.admission.reservationId l.admission.requestId l.admission.audience ∧
    (l.phase = .confirmed ∨ l.phase = .active → TokenConfirmed db l.admission.tokenId)

def MessageInv (db : Database) (published : List TerminalSpoolRecord) : Message → Prop
  | .issued a => TokenBound db a.tokenId a.reservationId a.requestId a.audience
  | .confirmed tokenId => TokenConfirmed db tokenId
  | .batch terminals => ∀ w ∈ terminals, ∃ p ∈ published, w = p.wire
  | .confirm _ | .acknowledged _ => True

variable {db db' : Database} {store store' : ClaimStore}
  {published published' : List TerminalSpoolRecord}

theorem LifecycleInv.grow {l : Lifecycle} (h : LifecycleInv db l) (hg : TokensGrow db db') : LifecycleInv db' l :=
  ⟨hg.bound h.1, fun hp => hg.confirmed (h.2 hp)⟩

theorem MessageInv.grow {m : Message} (h : MessageInv db published m) (hg : TokensGrow db db')
    (hp : ∀ p ∈ published, p ∈ published') : MessageInv db' published' m := by
  cases m with
  | issued a => exact hg.bound h
  | confirm a => trivial
  | confirmed tokenId => exact hg.confirmed h
  | batch terminals =>
    intro w hw
    obtain ⟨p, hmem, rfl⟩ := h w hw
    exact ⟨p, hp p hmem, rfl⟩
  | acknowledged acks => trivial

variable [Sha256] (h : StoreInv db store published)

include h

theorem StoreInv.grow (hg : TokensGrow db db') : StoreInv db' store published := by
  constructor
  · exact fun m hm => hg.bound (h.claim_bound m hm)
  · exact fun m hm hs => hg.confirmed (h.claim_confirmed m hm hs)
  · exact h.terminal_published
  · intro p hp
    obtain ⟨h₁, h₂, h₃, h₄⟩ := h.record p hp
    exact ⟨h₁, h₂, hg.bound h₃, fun hk => hg.confirmed (h₄ hk)⟩
  · exact h.kept
  · exact h.unique

theorem storeInv_claim {a : VerifiedAdmission} (hc : claim store a = .ok store')
    (hb : TokenBound db a.tokenId a.reservationId a.requestId a.audience) : StoreInv db store' published := by
  obtain ⟨hclaims, hterminals⟩ := claim_inv hc
  constructor
  · intro m hm
    rw [hclaims, mem_append, mem_singleton] at hm
    rcases hm with hm | rfl
    · exact h.claim_bound m hm
    · exact hb
  · intro m hm hs
    rw [hclaims, mem_append, mem_singleton] at hm
    rcases hm with hm | rfl
    · exact h.claim_confirmed m hm hs
    · rcases hs with hs | hs <;> cases hs
  · rw [hterminals]
    exact h.terminal_published
  · exact h.record
  · intro p hp
    obtain ⟨m, hm, hid, hkept⟩ := h.kept p hp
    rw [hclaims, hterminals]
    exact ⟨m, mem_append_left _ hm, hid, hkept⟩
  · exact h.unique

theorem storeInv_published {input : TerminalSpoolInput} (hp : Published store store' input)
    (hconf : input.kind = .settlement → TokenConfirmed db input.tokenId) :
    StoreInv db store' (published ++ [spoolRecord input]) := by
  obtain ⟨m, hm, hid, hres, hreq, haud, hack⟩ := hp.claim
  have hfresh : ∀ p ∈ published, p.input.tokenId ≠ input.tokenId := by
    intro p hmem he
    obtain ⟨m', hm', hid', hkept⟩ := h.kept p hmem
    rcases hkept with hkept | hacked
    · exact hp.fresh p hkept he
    · have : m' = m := Table.eq_of_clashes hm' hm (hid'.trans (he.trans hid.symm))
      exact hacked (this ▸ hack)
  have hbound : TokenBound db input.tokenId input.reservationId input.requestId input.audience := by
    have := h.claim_bound m hm
    rwa [hid, hres, hreq, haud] at this
  constructor
  · rw [hp.claims]
    exact h.claim_bound
  · rw [hp.claims]
    exact h.claim_confirmed
  · intro p hmem
    rw [hp.terminals, mem_append] at hmem
    rw [mem_append]
    exact hmem.imp_left (h.terminal_published p)
  · intro p hmem
    rw [mem_append, mem_singleton] at hmem
    rcases hmem with hmem | rfl
    · exact h.record p hmem
    · exact ⟨rfl, hp.actual, hbound, hconf⟩
  · intro p hmem
    rw [mem_append, mem_singleton] at hmem
    rw [hp.claims, hp.terminals]
    rcases hmem with hmem | rfl
    · obtain ⟨m', hm', hid', hkept⟩ := h.kept p hmem
      exact ⟨m', hm', hid', hkept.imp_left (mem_append_left _)⟩
    · exact ⟨m, hm, hid, .inl (by simp)⟩
  · intro p hmem q hmem' he
    rw [mem_append, mem_singleton] at hmem hmem'
    rcases hmem with hmem | rfl <;> rcases hmem' with hmem' | rfl
    · exact h.unique p hmem q hmem' he
    · exact absurd he (hfresh p hmem)
    · exact absurd he.symm (hfresh q hmem')
    · rfl

theorem storeInv_republished {record : TerminalSpoolRecord}
    (hr : record ∈ store.terminals.rows) : StoreInv db store (published ++ [record]) := by
  have hmem : ∀ p ∈ published ++ [record], p ∈ published := by
    intro p hp
    rw [mem_append, mem_singleton] at hp
    rcases hp with hp | rfl
    · exact hp
    · exact h.terminal_published p hr
  refine ⟨h.claim_bound, h.claim_confirmed, ?_, ?_, ?_, ?_⟩
  · exact fun p hp => mem_append_left _ (h.terminal_published p hp)
  · exact fun p hp => h.record p (hmem p hp)
  · exact fun p hp => h.kept p (hmem p hp)
  · exact fun p hp q hq => h.unique p (hmem p hp) q (hmem q hq)

theorem storeInv_rewritten (hr : ClaimsRewritten store store') (ht : store'.terminals = store.terminals)
    (hconf : ∀ m ∈ store'.claims.rows, m.state = .confirmed ∨ m.state = .routed → TokenConfirmed db m.tokenId) :
    StoreInv db store' published := by
  refine ⟨?_, hconf, ht ▸ h.terminal_published, h.record, ?_, h.unique⟩
  · intro m' hm'
    obtain ⟨m, hm, h₁, h₂, h₃, h₄⟩ := hr.back m' hm'
    rw [h₁, h₂, h₃, h₄]
    exact h.claim_bound m hm
  · intro p hp
    obtain ⟨m, hm, hid, hkept⟩ := h.kept p hp
    obtain ⟨m', hm', hid', hack⟩ := hr.forth m hm
    rw [ht]
    exact ⟨m', hm', hid'.trans hid, hkept.imp_right hack⟩

theorem storeInv_marked {digest : String} {now : Instant}
    (hm : markAcknowledged store tokenId digest now = .ok store') : StoreInv db store' published := by
  obtain ⟨hr, ht, hstate, -⟩ := markAcknowledged_inv hm
  refine storeInv_rewritten h hr ht fun m' hm' hs => ?_
  obtain ⟨m, hmem, hid, hst⟩ := hstate m' hm'
  rw [hst] at hs
  rw [hid]
  exact h.claim_confirmed m hmem hs

theorem storeInv_acknowledged {digest : String} {now : Instant}
    (ha : acknowledgeTerminal store tokenId digest now = .ok store') : StoreInv db store' published := by
  simp only [acknowledgeTerminal, ok_iff] at ha
  obtain ⟨marked, hmarked, rfl⟩ := ha
  have h' := storeInv_marked h hmarked
  obtain ⟨-, -, -, hack⟩ := markAcknowledged_inv hmarked
  refine ⟨h'.claim_bound, h'.claim_confirmed, ?_, h'.record, ?_, h'.unique⟩
  · intro p hp
    exact h'.terminal_published p (mem_of_mem_filter hp)
  · intro p hp
    obtain ⟨m, hm, hid, hkept⟩ := h'.kept p hp
    refine ⟨m, hm, hid, ?_⟩
    by_cases he : p.input.tokenId = tokenId
    · exact .inr (hack m hm (hid.trans he))
    · exact hkept.imp_left fun hmem => mem_filter.2 ⟨hmem, by simp [he]⟩

theorem storeInv_replaced {mutate : ClaimMarker → Except AdmissionError (ClaimState × Option Instant)}
    (hr : replaceClaimState store tokenId mutate = .ok store')
    (hconf : ∀ m ∈ store.claims.rows, m.tokenId = tokenId → ∀ state routedAt,
      mutate m = .ok (state, routedAt) → state = .confirmed ∨ state = .routed → TokenConfirmed db tokenId) :
    StoreInv db store' published := by
  obtain ⟨hrew, ht, m, hm, hid, state, routedAt, hmutate, hrows⟩ := replaceClaimState_inv hr
  refine storeInv_rewritten h hrew ht fun m' hm' hs => ?_
  rcases hrows m' hm' with ⟨hid', rfl⟩ | hm'
  · rw [hid']
    exact hconf m hm hid _ routedAt hmutate hs
  · exact h.claim_confirmed m' hm' hs

theorem storeInv_markConfirmed (hr : markConfirmed store tokenId = .ok store')
    (hc : TokenConfirmed db tokenId) : StoreInv db store' published :=
  storeInv_replaced h hr fun _ _ _ _ _ _ _ => hc

theorem storeInv_markRouted {routedAt : Instant}
    (hr : markRouted store tokenId routedAt = .ok store') : StoreInv db store' published := by
  apply storeInv_replaced h hr
  intro m hm hid state at' hmutate hs
  rw [← hid]
  apply h.claim_confirmed m hm
  cases hstate : m.state with
  | claimed => simp [ClaimMarker.route, hstate] at hmutate
  | confirmed => exact .inl rfl
  | routed => exact .inr rfl
  | releasePending => simp [ClaimMarker.route, hstate] at hmutate

theorem storeInv_markReleasePending
    (hr : markReleasePending store tokenId = .ok store') : StoreInv db store' published := by
  apply storeInv_replaced h hr
  intro m hm hid state routedAt hmutate hs
  cases hstate : m.state <;> simp [ClaimMarker.releaseLater, hstate] at hmutate <;> simp [← hmutate.1] at hs

end Monoize
