import Monoize.AdmissionInvariant
import Monoize.QuotaConservation

namespace Monoize

open Fallible Relational Transition List Table ReplicaEvent

variable {db db' : Database} {replicaId : String}

section

variable [Sha256] {s : AdmissionState}

variable (h : AdmissionInv s)

include h

theorem admissionInv_issue {ring : Except AdmissionRuntimeError SigningRing} {input : IssueAdmissionInput}
    {rid tid : String} {d : AdmissionDecision}
    (hi : issue ring s.db input rid tid = .ok (d, db)) : AdmissionInv { s with db := db } := by
  simp only [issue, ok_iff] at hi
  obtain ⟨_, -, hi⟩ := hi
  rcases issueTx_inv hi with rfl | ⟨t, ht⟩
  · exact h
  · exact h.write (primaryInv_issued h.primary ht) (tokensGrow_issued ht)

theorem admissionInv_sendIssued {issued : IssuedAdmission} : AdmissionInv (sendIssued s issued) := by
  unfold sendIssued
  split
  · rename_i t ht
    exact h.send ⟨t, mem_of_find? ht, rfl, rfl, rfl, rfl⟩
  · exact h

theorem admissionInv_confirm {input : ConfirmAdmissionInput} {b : Bool} (hc : confirm s.db input = .ok (b, db)) :
    AdmissionInv (send { s with db := db } (.confirmed input.tokenId)) := by
  simp only [confirm, ok_iff] at hc
  obtain ⟨_, -, hc⟩ := hc
  rcases confirmTx_inv hc with ⟨rfl, hconf⟩ | hc
  · exact h.send hconf
  · have h' := h.write (primaryInv_confirmation h.primary hc) (tokensGrow_confirmation hc)
    exact h'.send hc.confirms

theorem admissionInv_recoverUnconfirmed {tid : String} {now : Instant} {vid : String} {r : Option TerminalApplyResult}
    (hr : recoverUnconfirmedTx s.db tid now vid = .ok (r, db)) : AdmissionInv { s with db := db } := by
  rcases recoverUnconfirmedTx_inv hr with rfl | ⟨t, ht, hun, digest, hdigest, ha⟩
  · exact h
  refine h.write (primaryInv_applied h.primary ha (.inr ?_)) (tokensGrow_of_eq ha.tokens)
  simp only [terminalDigest, ok_iff] at hdigest
  obtain ⟨_, -, rfl⟩ := hdigest
  refine ⟨?_, rfl, rfl, t.reservationId, t.requestId, t.audience, ⟨t, ht, rfl, rfl, rfl, rfl⟩, rfl⟩
  rintro ⟨u, hu, hid, hsome⟩
  have : u = t := eq_of_clashes hu ht (AdmissionToken.clashes_of_tokenId hid)
  exact hsome (this ▸ hun)

theorem admissionInv_primary (e : PrimaryEvent) : AdmissionInv (e.run s) := by
  cases e with
  | issue ring input rid tid =>
    simp only [PrimaryEvent.run]
    split
    · rename_i hi
      exact admissionInv_sendIssued (admissionInv_issue h hi)
    · rename_i hi
      exact admissionInv_issue h hi
    · exact h
  | confirm a confirmedAt =>
    simp only [PrimaryEvent.run]
    split
    · split
      · rename_i hc
        exact admissionInv_confirm h hc
      · exact h
    · exact h
  | recoverUnconfirmed tid now vid =>
    simp only [PrimaryEvent.run]
    cases hr : recoverUnconfirmedTx s.db tid now vid with
    | error e => exact h
    | ok out => exact admissionInv_recoverUnconfirmed h hr
  | applyBatch terminals vid =>
    simp only [PrimaryEvent.run]
    split
    · rename_i hmem
      have hsource := h.message _ hmem
      obtain ⟨ps, hps, rfl⟩ : ∃ ps : List TerminalSpoolRecord, (∀ p ∈ ps, p ∈ s.published) ∧
          terminals = ps.map TerminalSpoolRecord.wire := by
        clear hmem
        induction terminals with
        | nil => exact ⟨[], by simp, rfl⟩
        | cons w ws ih =>
          obtain ⟨ps, hps, hws⟩ := ih fun w' hw' => hsource w' (mem_cons_of_mem _ hw')
          obtain ⟨p, hp, hw⟩ := hsource w (mem_cons_self ..)
          exact ⟨p :: ps, by simpa [hp] using hps, by rw [map_cons, ← hws, hw]⟩
      split
      · rename_i hr
        exact ((h.applyBatch hps).2 _ _ hr).send trivial
      · exact h
    · exact h

theorem admissionInv_replica (e : ReplicaEvent) : AdmissionInv (e.run replicaId s) := by
  cases e with
  | claim a =>
    simp only [run]
    split
    · rename_i hg
      have hbound := h.message _ hg.2.1
      split
      · rename_i store hc
        have hclaimed := h.replaceStore (storeInv_claim h.store hc hbound)
        refine ⟨hclaimed.primary, hclaimed.store, fun l hl => ?_, hclaimed.message⟩
        rcases mem_cons.1 hl with rfl | hl
        · exact ⟨hbound, fun hp => by rcases hp with hp | hp <;> cases hp⟩
        · exact h.lifecycle l hl
      · exact h
    · exact h
  | sendConfirm l =>
    simp only [run]
    split
    · split
      · rename_i hg
        apply AdmissionInv.send
        · apply h.advance
          exact ⟨(h.lifecycle l hg.1).1, fun hp => by rcases hp with hp | hp <;> cases hp⟩
        · trivial
      · exact h
    · exact h
  | confirmAnswered l =>
    simp only [run]
    split
    · split
      · rename_i hg
        exact h.advance ⟨(h.lifecycle l hg.1).1, fun _ => h.message _ hg.2⟩
      · exact h
    · exact h
  | confirmFailed l =>
    simp only [run]
    split
    · split
      · rename_i hg
        refine h.advance ⟨(h.lifecycle l hg).1, fun hp => ?_⟩
        rcases hp with hp | hp <;> cases hp
      · exact h
    · exact h
  | markConfirmed l =>
    simp only [run]
    split
    · rename_i hg
      obtain ⟨hbound, hconf⟩ := h.lifecycle l hg.1
      have hc := hconf (.inl hg.2)
      split
      · rename_i store hm
        apply AdmissionInv.replaceStore
        · exact h.advance ⟨hbound, fun _ => hc⟩
        · exact storeInv_markConfirmed h.store hm hc
      · exact h.advance ⟨hbound, fun _ => hc⟩
    · exact h
  | markConfirmedFailed l =>
    simp only [run]
    split
    · rename_i hg
      obtain ⟨hbound, hconf⟩ := h.lifecycle l hg.1
      exact h.advance ⟨hbound, fun _ => hconf (.inl hg.2)⟩
    · exact h
  | markRouted l routedAt =>
    simp only [run]
    split
    · rename_i hg
      split
      · rename_i store hm
        apply AdmissionInv.replaceStore
        · exact h.advance (h.lifecycle l hg.1)
        · exact storeInv_markRouted h.store hm
      · exact h
    · exact h
  | settle l actual createdAt =>
    simp only [run]
    split
    · rename_i hg
      exact h.spool fun _ => (h.lifecycle l hg.1).2 (.inr hg.2.1)
    · exact h
  | markReleasePending l =>
    simp only [run]
    split
    · rename_i hg
      split
      · rename_i store hm
        apply AdmissionInv.replaceStore
        · exact h.advance (h.lifecycle l hg.1)
        · exact storeInv_markReleasePending h.store hm
      · exact h
    · exact h
  | release _ _ | publishReleasePending _ _ =>
    simp only [run]
    split
    · apply h.spool
      intro hk
      cases hk
    · exact h
  | ship records =>
    simp only [run]
    split
    · rename_i hg
      apply h.send
      intro w hw
      obtain ⟨p, hp, rfl⟩ := mem_map.1 hw
      exact ⟨p, h.store.terminal_published p (hg.2 p hp).1, rfl⟩
    · exact h
  | acknowledge shipped acks w now =>
    simp only [run]
    split
    · split
      · rename_i store ha
        exact h.replaceStore (storeInv_acknowledged h.store ha)
      · exact h
    · exact h
  | acknowledgeCrash shipped acks w now =>
    simp only [run]
    split
    · split
      · rename_i store ha
        exact (h.replaceStore (storeInv_marked h.store ha)).crash
      · exact h
    · exact h
  | crash => exact h.crash
  | recover m createdAt =>
    simp only [run]
    split
    · rename_i hg
      split
      · rename_i record store hr
        obtain ⟨input, rfl, rfl, hp⟩ := recoverClaim_inv hg.2 hr
        refine h.publish (storeInv_published h.store hp fun hk => ?_)
        have hm := (mem_filter.1 hg.2).1
        apply h.store.claim_confirmed m hm
        by_cases hrouted : m.state = .routed
        · exact .inr hrouted
        · simp [terminalFromClaim, hrouted] at hk
      · exact h
    · exact h
  | restart =>
    simp only [run]
    split
    · exact ⟨h.primary, h.store, h.lifecycle, h.message⟩
    · exact h

omit h

theorem admissionInv_reachable (h : Reachable AdmissionInitial (AdmissionStep replicaId) s) : AdmissionInv s := by
  apply h.invariant
  · intro s hs
    exact admissionInv_initial hs
  · intro s s' hs hstep
    cases hstep with
    | primary e => exact admissionInv_primary hs e
    | replica e => exact admissionInv_replica hs e
    | other hf => exact hs.write (primaryInv_frame hs.primary hf) (tokensGrow_of_eq hf.tokens)

end

def TerminatedKept (db db' : Database) : Prop :=
  ∀ r ∈ db.quotaReservations.rows, r.state ≠ .reserved → r ∈ db'.quotaReservations.rows

theorem terminatedKept_of_eq (h : db'.quotaReservations = db.quotaReservations) : TerminatedKept db db' := by
  intro r hr _
  rwa [h]

theorem TerminatedKept.trans {a b c : Database} (h : TerminatedKept a b) (h' : TerminatedKept b c) : TerminatedKept a c :=
  fun r hr hs => h' r (h r hr hs) hs

theorem terminatedKept_issued {t : AdmissionToken} (h : TokenIssued db db' t) : TerminatedKept db db' := by
  rcases h.reservations with ⟨hr, -⟩ | ⟨r', -, -, hrows⟩
  · exact terminatedKept_of_eq hr
  · intro r hr _
    rw [hrows]
    exact mem_append_left _ hr

theorem terminatedKept_applied {input : TerminalApplyInput} (h : TerminalApplied db db' input) : TerminatedKept db db' := by
  rcases h.reservations with ⟨hr, -⟩ | ⟨fen, hr⟩
  · exact terminatedKept_of_eq hr
  · intro r hmem hs
    rw [hr, update_rows]
    exact mem_map.2 ⟨r, hmem, by simp [hs]⟩

theorem sendIssued_db (s : AdmissionState) (issued : IssuedAdmission) : (sendIssued s issued).db = s.db := by
  unfold sendIssued
  split <;> rfl

theorem terminatedKept_primary [Sha256] (s : AdmissionState) (e : PrimaryEvent) : TerminatedKept s.db (e.run s).db := by
  have hself : TerminatedKept s.db s.db := terminatedKept_of_eq rfl
  cases e with
  | issue ring input rid tid =>
    have hissue {d : AdmissionDecision} {db : Database} (hi : issue ring s.db input rid tid = .ok (d, db)) :
        TerminatedKept s.db db := by
      simp only [issue, ok_iff] at hi
      obtain ⟨_, -, hi⟩ := hi
      rcases issueTx_inv hi with rfl | ⟨t, ht⟩
      · exact hself
      · exact terminatedKept_issued ht
    simp only [PrimaryEvent.run]
    split
    · rename_i hi
      rw [sendIssued_db]
      exact hissue hi
    · rename_i hi
      exact hissue hi
    · exact hself
  | confirm a confirmedAt =>
    simp only [PrimaryEvent.run]
    split
    · split
      · rename_i hc
        simp only [confirm, ok_iff] at hc
        obtain ⟨_, -, hc⟩ := hc
        rcases confirmTx_inv hc with ⟨rfl, -⟩ | hc
        · exact hself
        · exact terminatedKept_of_eq hc.reservations
      · exact hself
    · exact hself
  | recoverUnconfirmed tid now vid =>
    simp only [PrimaryEvent.run]
    cases hr : recoverUnconfirmedTx s.db tid now vid with
    | error e => exact hself
    | ok out =>
      rcases recoverUnconfirmedTx_inv hr with hdb | ⟨t, -, -, digest, -, ha⟩
      · exact terminatedKept_of_eq (by rw [commit, hdb])
      · exact terminatedKept_applied ha
  | applyBatch terminals vid =>
    simp only [PrimaryEvent.run]
    split
    · split
      · rename_i hb
        simp only [applyTerminalBatch, ok_iff] at hb
        obtain ⟨inputs, -, hb⟩ := hb
        exact applyTerminals_invariant hb (fun ha hkept => hkept.trans (terminatedKept_applied ha)) hself
      · exact hself
    · exact hself

theorem ReplicaEvent.run_db [Sha256] (replicaId : String) (s : AdmissionState)
    (e : ReplicaEvent) : (e.run replicaId s).db = s.db := by
  have hspool (input : TerminalSpoolInput) : (spool s input).db = s.db := by
    unfold spool
    split <;> rfl
  cases e <;> simp only [run] <;> (repeat' split) <;> first | rfl | exact hspool _

theorem terminatedKept_run [Sha256] {s s' : AdmissionState}
    (h : Relation.ReflTransGen (AdmissionStep replicaId) s s') : TerminatedKept s.db s'.db := by
  induction h with
  | refl => exact terminatedKept_of_eq rfl
  | tail _ hstep ih =>
    apply ih.trans
    cases hstep with
    | primary e => exact terminatedKept_primary _ e
    | replica e => exact terminatedKept_of_eq (by rw [run_db])
    | other hf => exact terminatedKept_of_eq hf.reservations

theorem admission_protocol_agrees [Sha256] (replicaId : String) (s : AdmissionState)
    (h : Reachable AdmissionInitial (AdmissionStep replicaId) s) :
    (∀ c ∈ s.db.terminalReceipts.rows, ∀ c' ∈ s.db.terminalReceipts.rows, c.tokenId = c'.tokenId → c = c') ∧
    (∀ s', Relation.ReflTransGen (AdmissionStep replicaId) s s' →
      ∀ r ∈ s.db.quotaReservations.rows, r.state ≠ .reserved → r ∈ s'.db.quotaReservations.rows) ∧
    (∀ p ∈ s.published, ∀ c ∈ s.db.terminalReceipts.rows, c.tokenId = p.input.tokenId →
      c.canonicalDigest = p.canonicalDigest ∧ c.terminalKind = p.input.kind ∧
        c.actualNanoUsd = p.input.actualNanoUsd) ∧
    (∀ p ∈ s.published, ∀ violationId,
      applyTerminalTx s.db (applyInput p) violationId ≠ .error .terminalConflict) ∧
    ∀ ps : List TerminalSpoolRecord, (∀ p ∈ ps, p ∈ s.published) → ∀ violationId,
      applyTerminalBatch s.db violationId (ps.map TerminalSpoolRecord.wire) ≠ .error .terminalConflict := by
  have hinv := admissionInv_reachable h
  refine ⟨?_, ?_, ?_, ?_, ?_⟩
  · intro c hc c' hc' hid
    exact eq_of_clashes hc hc' hid
  · intro s' hrun
    exact terminatedKept_run hrun
  · intro p hp c hc hid
    obtain ⟨-, hkind, hactual, hdigest⟩ := hinv.agrees hp hc hid
    exact ⟨hdigest, hkind, hactual⟩
  · intro p hp violationId
    exact hinv.apply_ne_conflict hp violationId
  · intro ps hps violationId
    exact (hinv.applyBatch hps).1

def sampleAdmissionGeneration : EntitlementGenerationRow :=
  { sampleGeneration with
    groupIds := ["team"]
    quotas := ⟨[⟨"rule-day", .day, 86400, "100", 0⟩], by decide⟩ }

def sampleAdmissionDatabase : Database :=
  { samplePlanDatabase with entitlementGenerations := .single sampleAdmissionGeneration }

def sampleAdmission : VerifiedAdmission := ⟨"replica", "tok-1", "res-1", "request-1", 10000000, seconds 31⟩

def sampleLifecycle (phase : LifecyclePhase) (routedAt : Option Instant) : Lifecycle :=
  { admission := sampleAdmission, phase := phase, routedAt := routedAt }

open SampleSpool

def sampleAdmissionRun : List (PrimaryEvent ⊕ ReplicaEvent) :=
  [.inl (.issue (.ok ⟨"key", fun t => some t.tokenId⟩)
      ⟨"replica", "user", "request-1", ["team"], 10000000, "rev", seconds 1⟩ "res-1" "tok-1"),
   .inr (.claim sampleAdmission),
   .inr (.sendConfirm (sampleLifecycle (.confirming 0) none)),
   .inl (.confirm sampleAdmission (seconds 2)),
   .inr (.sendConfirm (sampleLifecycle (.confirming 1) none)),
   .inr (.confirmAnswered (sampleLifecycle (.confirming 2) none)),
   .inr (.markConfirmed (sampleLifecycle .confirmed none)),
   .inr (.markRouted (sampleLifecycle .active none) (seconds 3)),
   .inr .crash,
   .inl (.recoverUnconfirmed "tok-1" (seconds 100) "vio-1"),
   .inr (.recover ⟨"tok-1", "res-1", "request-1", "replica", 10000000, seconds 31, .routed, some (seconds 3), none⟩
      (seconds 4)),
   .inr .restart,
   .inr (.ship [⟨⟨"tok-1", "res-1", "request-1", "replica", .settlement, some 10000000, seconds 4⟩, sha256 ""⟩]),
   .inl (.applyBatch [⟨1, "tok-1", "res-1", "request-1", "replica", .settlement, some "10000000", sha256 "",
      seconds 4⟩] "vio-1")]

def runAdmission [Sha256] (replicaId : String) (s : AdmissionState)
    (events : List (PrimaryEvent ⊕ ReplicaEvent)) : AdmissionState :=
  events.foldl (fun s e => e.elim (PrimaryEvent.run s) (ReplicaEvent.run replicaId s)) s

theorem runAdmission_reachable [Sha256] {s : AdmissionState}
    (events : List (PrimaryEvent ⊕ ReplicaEvent)) (h : Reachable AdmissionInitial (AdmissionStep replicaId) s) :
    Reachable AdmissionInitial (AdmissionStep replicaId) (runAdmission replicaId s events) := by
  apply h.foldl
  intro s e
  cases e with
  | inl e => exact .primary s e
  | inr e => exact .replica s e

theorem admission_protocol_agrees_sample :
    (runAdmission "replica" { db := sampleAdmissionDatabase } sampleAdmissionRun).published.map
      (fun p => (p.input.kind, p.input.actualNanoUsd)) = [(.settlement, some 10000000)] ∧
    (runAdmission "replica" { db := sampleAdmissionDatabase } sampleAdmissionRun).db.terminalReceipts.rows.map
      (fun c => (c.tokenId, c.terminalKind, c.actualNanoUsd)) = [("tok-1", .settlement, some 10000000)] ∧
    ∀ p ∈ (runAdmission "replica" { db := sampleAdmissionDatabase } sampleAdmissionRun).published,
      ∀ violationId, applyTerminalTx (runAdmission "replica" { db := sampleAdmissionDatabase }
        sampleAdmissionRun).db (applyInput p) violationId ≠ .error .terminalConflict := by
  refine ⟨by decide +kernel, by decide +kernel, ?_⟩
  have hstart : AdmissionInitial { db := sampleAdmissionDatabase } := ⟨_, rfl, rfl, rfl, rfl⟩
  exact (admission_protocol_agrees "replica" _
    (runAdmission_reachable sampleAdmissionRun (.start hstart))).2.2.2.1

end Monoize
