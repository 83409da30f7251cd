import Monoize.SalesConservation

/-! Whether an agent can earn commission on an order of their own. -/

namespace Monoize

open Fallible MachineInt Relational Transition

variable {db next : Database} {s t : SalesDesk}

def NoSelfReferral (db : Database) : Prop := ∀ e ∈ db.commissionEntries.rows, e.agentUserId ≠ e.buyerUserId

def CodesReferred (db : Database) : Prop :=
  ∀ o ∈ db.storeOrders.rows, ∀ code, o.contract.salesCode = some code →
    ∃ a ∈ db.salesAgents.rows, a.code = code ∧ a.userId ≠ o.contract.userId

theorem resolveCode_agent {input : String} {resolved : ResolvedSalesCode} (h : resolveCode db input = .ok resolved) :
    ∃ a ∈ db.salesAgents.rows, a.code = resolved.code ∧ a.userId = resolved.agentUserId := by
  simp only [resolveCode, ok_iff] at h
  obtain ⟨_, -, _, -, a, ha, _, -, rfl⟩ := h
  exact ⟨a, Table.mem_of_find? ha, rfl, rfl⟩

variable {request : CreatePaymentOrderRequest}

theorem resolveSales_referred {userId : String} {applied : AppliedSalesCode}
    (h : resolveSales db userId request = .ok (some applied)) :
    ∃ a ∈ db.salesAgents.rows, a.code = applied.code ∧ a.userId ≠ userId := by
  unfold resolveSales at h
  split at h
  · cases h
  · cases h
  split at h
  · cases h
  rename_i resolved hresolved
  simp only [ok_iff, Option.some.injEq] at h
  obtain ⟨_, hother, _, -, rfl⟩ := h
  obtain ⟨a, ha, hcode, huser⟩ := resolveCode_agent hresolved
  exact ⟨a, ha, hcode, huser ▸ hother⟩

theorem OrderCreated.referred [Sha256] {userId : String}
    {o : StoreOrder} (h : OrderCreated db next userId request o) {code : String}
    (hcode : o.contract.salesCode = some code) :
    ∃ a ∈ db.salesAgents.rows, a.code = code ∧ a.userId ≠ o.contract.userId := by
  obtain ⟨sales, settings, rate, product, quoted, snapshot, now, ids, hsales, -, -, hcontract⟩ := h.quoted
  rw [hcontract] at hcode ⊢
  obtain ⟨applied, rfl, rfl⟩ := Option.map_eq_some_iff.1 hcode
  exact resolveSales_referred hsales

theorem CodesReferred.mono (h : CodesReferred db) (hagents : AgentsStay db.salesAgents next.salesAgents)
    (horders : ∀ o' ∈ next.storeOrders.rows, (∃ o ∈ db.storeOrders.rows, o'.contract = o.contract) ∨
      ∀ code, o'.contract.salesCode = some code → ∃ a ∈ db.salesAgents.rows, a.code = code ∧ a.userId ≠ o'.contract.userId) :
    CodesReferred next := by
  intro o' ho' code hcode
  have hagent : ∃ a ∈ db.salesAgents.rows, a.code = code ∧ a.userId ≠ o'.contract.userId := by
    rcases horders o' ho' with ⟨o, ho, hcontract⟩ | hnew
    · rw [hcontract] at hcode ⊢
      exact h o ho code hcode
    · exact hnew code hcode
  obtain ⟨a, ha, hacode, hother⟩ := hagent
  obtain ⟨a', ha', huser, hcode'⟩ := hagents a ha
  exact ⟨a', ha', hcode'.trans hacode, huser ▸ hother⟩

theorem NoSelfReferral.event (h : NoSelfReferral db) (hcodes : CodesReferred db) (he : CommissionEvent db next) :
    NoSelfReferral next := by
  intro e' he'
  rcases he with ⟨o, ho, hmove⟩ | ⟨hentries, -⟩
  · cases hmove with
    | idle hentries _ =>
      rw [hentries] at he'
      exact h e' he'
    | accrue e a haccrued hcoded =>
      rcases (Table.mem_insert haccrued.entries).1 he' with he' | rfl
      · exact h e' he'
      obtain ⟨-, hbuyer, hcode⟩ := hcoded
      obtain ⟨b, hb, hbcode, hother⟩ := hcodes o ho a.code hcode
      have hsame : b = a := Table.eq_of_clashes hb haccrued.agent.1 (.inr hbcode)
      rw [← haccrued.agent.2, hbuyer, ← hsame]
      exact hother
    | reverse e a now hreversed _ =>
      rw [hreversed.entries] at he'
      obtain ⟨e₀, he₀, rfl⟩ := Table.mem_update.1 he'
      split
      · exact h e₀ he₀
      · exact h e₀ he₀
  · rw [hentries] at he'
    exact h e' he'

structure Referred (s : SalesDesk) : Prop where
  store : SoundStore s.db
  entries : NoSelfReferral s.db
  codes : CodesReferred s.db

theorem Referred.frame (h : Referred s) (hframe : CommissionsFrame s.db t.db)
    (hagents : AgentsStay s.db.salesAgents t.db.salesAgents) (hentries : NoSelfReferral t.db) : Referred t := by
  refine ⟨hframe.sound h.store, hentries, h.codes.mono hagents ?_⟩
  rw [hframe]
  exact fun o ho => .inl ⟨o, ho, rfl⟩

theorem Referred.credit {a : SalesAgent} {d : Int} (h : Referred s)
    (hdb : t.db = { s.db with salesAgents := credited s.db.salesAgents a d }) : Referred t := by
  apply h.frame
  · rw [hdb]
    rfl
  · exact AgentsStay.credited (by rw [hdb])
  · rw [hdb]
    exact h.entries

theorem Referred.close {w : SalesWithdrawal} {f : SalesWithdrawal → SalesWithdrawal} (h : Referred s)
    (hclosed : RequestClosed s t w f) : Referred t := by
  rcases hclosed.db with ⟨-, hdb⟩ | ⟨-, a, -, -, hdb⟩
  · exact ⟨hdb ▸ h.store, hdb ▸ h.entries, hdb ▸ h.codes⟩
  · exact h.credit hdb

theorem Referred.call {α : Type} {x : Except SalesStoreError (α × SalesDesk)} (h : Referred s)
    (hok : ∀ a t, x = .ok (a, t) → Referred t) : Referred (s.commit x) := by
  cases x with
  | error e => exact h
  | ok r => exact hok r.1 r.2 rfl

def SalesEvent.ClaimsOthers (s : SalesDesk) : SalesEvent → Prop
  | .claim agentUserId orderNumber submitted rateBp now entryId =>
    (∃ r, s.claim agentUserId orderNumber submitted rateBp now entryId = .ok r) →
      resolveBuyerIdentifier s.db submitted ≠ agentUserId
  | _ => True

section

variable [Sha256]

inductive ReferralStep : SalesDesk → SalesDesk → Prop
  | run (s : SalesDesk) (e : SalesEvent) (h : e.ClaimsOthers s) : ReferralStep s (s.run e)

end

section

variable [Sha256]

theorem referralStep_referred (h : Referred s) (hst : ReferralStep s t) : Referred t := by
  obtain ⟨e, hothers⟩ := hst
  cases e with
  | store e =>
    have hevent : CommissionEvent s.db (applyStoreEvent s.db e) :=
      (h.store.booksInv.did e).commissions
    refine ⟨applyStoreEvent_sound h.store e, h.entries.event h.codes hevent, ?_⟩
    apply h.codes.mono (fun a ha => hevent.agentsStay ha)
    intro o' ho'
    rcases (h.store.booksInv.did e).kept.contract ho' with hold | ⟨userId, request, hcreated⟩
    · exact .inl hold
    · exact .inr fun code hcode => hcreated.referred hcode
  | claim agentUserId orderNumber submitted rateBp now entryId =>
    apply h.call
    intro e t hok
    obtain ⟨hclaim, -⟩ := SalesDesk.claim_inv hok
    obtain ⟨hagent, hbuyer, hframe, a, haccrued⟩ := claimOrderInner_inv hclaim
    apply h.frame hframe (AgentsStay.credited haccrued.agents)
    intro e' he'
    rcases (Table.mem_insert haccrued.entries).1 he' with he' | rfl
    · exact h.entries e' he'
    · rw [hagent, hbuyer]
      exact (hothers ⟨_, hok⟩).symm
  | recordAttempt agentUserId succeeded now id =>
    apply h.call
    intro _ t hok
    simp only [recordClaimAttempt, ok_iff] at hok
    obtain ⟨_, -, -, rfl⟩ := hok
    exact ⟨h.store, h.entries, h.codes⟩
  | requestWithdrawal agentUserId amountMinor now id =>
    apply h.call
    intro w t hok
    obtain ⟨-, a, hfiled⟩ := requestWithdrawal_inv hok
    exact h.credit hfiled.db
  | decideWithdrawal withdrawalId adminUserId paid note now =>
    apply h.call
    intro _ t hok
    obtain ⟨w, hclosed⟩ := decideWithdrawal_inv hok
    exact h.close hclosed
  | cancelWithdrawal withdrawalId agentUserId now =>
    apply h.call
    intro _ t hok
    obtain ⟨w, hclosed⟩ := cancelWithdrawal_inv hok
    exact h.close hclosed

/-- A sound Store before the first commission, whose orders carry no code of their own buyer. -/
structure ReferralOpening (s : SalesDesk) : Prop where
  store : SoundStore s.db
  no_entry : s.db.commissionEntries = .empty
  codes : CodesReferred s.db

/-- Nobody earns on their own order as long as no agent's claim resolves to that agent. -/
theorem no_self_referral {s : SalesDesk} (h : Reachable ReferralOpening ReferralStep s) :
    ∀ e ∈ s.db.commissionEntries.rows, e.agentUserId ≠ e.buyerUserId := by
  have href : Referred s := by
    apply h.invariant
    · intro s hs
      refine ⟨hs.store, ?_, hs.codes⟩
      rw [NoSelfReferral, hs.no_entry]
      exact fun e he => absurd he List.not_mem_nil
    · exact fun _ _ => referralStep_referred
  exact href.entries

end

open SampleDigests

def uncodedSale (agentUserId : String) : List SalesEvent :=
  [.store (.insertAgent agentUserId "ABCDEFGH" 0), .store (sampleCreate none), .store (samplePaidEvent "700"),
    .store (.fulfill "order-1" none 0 ⟨"l2", "e2", "c2"⟩)]

def sampleClaimEvent (agentUserId : String) : SalesEvent := .claim agentUserId "LS-1" "buyer" 500 0 "c3"

theorem sampleDesk_referralOpening : ReferralOpening ⟨sampleOpening.db, .empty, .empty⟩ := by
  have hbooks := booksInv_initial sampleOpening_opening.initial
  exact ⟨⟨hbooks.sound, hbooks.linked⟩, rfl, fun _ ho => (nomatch ho)⟩

theorem no_self_referral_sample :
    ∃ e ∈ (runSales (uncodedSale "agent" ++ [sampleClaimEvent "agent"])).db.commissionEntries.rows,
      e.agentUserId = "agent" ∧ e.agentUserId ≠ e.buyerUserId := by
  have hothers : (sampleClaimEvent "agent").ClaimsOthers (runSales (uncodedSale "agent")) := by
    intro _
    decide +kernel
  have hrun := ((((Reachable.start sampleDesk_referralOpening).next
    (.run _ (.store (.insertAgent "agent" "ABCDEFGH" 0)) trivial)).next (.run _ (.store (sampleCreate none)) trivial)).next
    (.run _ (.store (samplePaidEvent "700")) trivial)).next
    (ReferralStep.run _ (.store (.fulfill "order-1" none 0 ⟨"l2", "e2", "c2"⟩)) trivial)
  have hclaimed := hrun.next (.run _ (sampleClaimEvent "agent") hothers)
  have hrow : ∃ e ∈ (runSales (uncodedSale "agent" ++ [sampleClaimEvent "agent"])).db.commissionEntries.rows,
      e.agentUserId = "agent" := by
    decide +kernel
  obtain ⟨e, he, hagent⟩ := hrow
  exact ⟨e, he, hagent, no_self_referral hclaimed e he⟩

theorem self_referral_by_username : Reachable ReferralOpening SalesStep
      (runSales (uncodedSale "user" ++ [sampleClaimEvent "user"])) ∧
    ∃ e ∈ (runSales (uncodedSale "user" ++ [sampleClaimEvent "user"])).db.commissionEntries.rows,
      e.agentUserId = e.buyerUserId := by
  refine ⟨(Reachable.start sampleDesk_referralOpening).foldl (fun s e => SalesStep.run s e) _, ?_⟩
  decide +kernel

end Monoize
