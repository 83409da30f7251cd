import Monoize.AdmissionReplica

namespace Monoize

open Fallible Relational Transition List Table

variable {s : AdmissionState} {db : Database} {p : TerminalSpoolRecord} {vid : String} {ps : List TerminalSpoolRecord}

structure AdmissionInv [Sha256] (s : AdmissionState) : Prop where
  primary : PrimaryInv s.db s.published
  store : StoreInv s.db s.store s.published
  lifecycle : ∀ l ∈ s.lifecycles, LifecycleInv s.db l
  message : ∀ m ∈ s.network, MessageInv s.db s.published m

variable [Sha256]

theorem admissionInv_initial (h : AdmissionInitial s) : AdmissionInv s := by
  obtain ⟨db, rfl, hr, ht, hc⟩ := h
  constructor
  · constructor <;> simp [hr, ht, hc]
  · constructor <;> simp
  · simp
  · simp

def applyInput (p : TerminalSpoolRecord) : TerminalApplyInput :=
  ⟨p.input.tokenId, p.input.reservationId, p.input.requestId, p.input.audience, p.input.kind,
    p.input.actualNanoUsd, p.canonicalDigest, p.input.createdAt⟩

omit [Sha256] in
theorem runTerminal_conflict {input : TerminalApplyInput} (h : runTerminal db input vid = .error .terminalConflict) :
    ∃ r ∈ db.quotaReservations.rows, r.id = input.reservationId ∧ r.state ≠ .reserved := by
  unfold runTerminal at h
  split at h
  · cases h
  rename_i e he
  injection h with h
  rcases terminalTx_error he with hmem | ⟨-, r, hr, hstate⟩
  · simp only [terminalFailures, mem_cons, not_mem_nil, or_false] at hmem
    rcases hmem with rfl | rfl | rfl | rfl | rfl <;>
      simp [terminalFailure, QuotaError.errorCode, overflow, storageConflict] at h
  · exact ⟨r, mem_of_find? hr, by simpa using of_find? hr, hstate⟩

theorem terminalInputs_published {inputs : List TerminalApplyInput}
    (h : (ps.map TerminalSpoolRecord.wire).mapM (terminalApplyInput) = .ok inputs) : inputs = ps.map applyInput := by
  induction ps generalizing inputs with
  | nil =>
    simp only [map_nil, mapM_nil, pure_eq_ok] at h
    exact h.symm
  | cons p ps ih =>
    simp only [map_cons, mapM_cons, ok_iff] at h
    obtain ⟨input, hinput, rest, hrest, rfl⟩ := h
    rw [map_cons, ← ih hrest]
    exact congrArg (· :: rest) (terminalApplyInput_inv hinput)

theorem terminalApplyInput_ne_conflict (w : PlanTerminalWire) : terminalApplyInput w ≠ .error .terminalConflict := by
  have hactual : parseActual w.kind w.actualNanoUsd ≠ .error .terminalConflict := by
    intro h
    cases hv : w.actualNanoUsd with
    | none => simp [hv, parseActual, map_eq_error, require_eq_error] at h
    | some v => simp [hv, parseActual, bind_eq_error, map_eq_error, require_eq_error, orError_eq_error] at h
  intro h
  simp [terminalApplyInput, terminalDigest, bind_eq_error, map_eq_error, require_eq_error, hactual] at h

variable (h : AdmissionInv s)

include h

theorem AdmissionInv.write (hp : PrimaryInv db s.published) (hg : TokensGrow s.db db) :
    AdmissionInv { s with db := db } :=
  ⟨hp, h.store.grow hg, fun l hl => (h.lifecycle l hl).grow hg,
    fun m hm => (h.message m hm).grow hg fun _ => id⟩

theorem AdmissionInv.send {m : Message} (hm : MessageInv s.db s.published m) : AdmissionInv (send s m) := by
  refine ⟨h.primary, h.store, h.lifecycle, fun m' hm' => ?_⟩
  rcases mem_append.1 hm' with hm' | hm'
  · exact h.message m' hm'
  · rw [mem_singleton] at hm'
    exact hm' ▸ hm

theorem AdmissionInv.advance {l l' : Lifecycle} (hl : LifecycleInv s.db l') : AdmissionInv (advance s l l') := by
  refine ⟨h.primary, h.store, fun k hk => ?_, h.message⟩
  rcases mem_cons.1 hk with rfl | hk
  · exact hl
  · exact h.lifecycle k (mem_of_mem_erase hk)

theorem AdmissionInv.replaceStore {store : ClaimStore}
    (hs : StoreInv s.db store s.published) : AdmissionInv { s with store := store } :=
  ⟨h.primary, hs, h.lifecycle, h.message⟩

theorem AdmissionInv.publish {record : TerminalSpoolRecord} {store : ClaimStore}
    (hs : StoreInv s.db store (s.published ++ [record])) : AdmissionInv (publish s record store) := by
  have hmono : ∀ p ∈ s.published, p ∈ s.published ++ [record] := fun p hp => mem_append_left _ hp
  exact ⟨h.primary.mono hmono, hs, h.lifecycle,
    fun m hm => (h.message m hm).grow (tokensGrow_of_eq rfl) hmono⟩

theorem AdmissionInv.crash : AdmissionInv (crashed s) := by
  refine ⟨h.primary, h.store, fun l hl => ?_, h.message⟩
  simp [crashed] at hl

theorem AdmissionInv.spool {input : TerminalSpoolInput} (hc : input.kind = .settlement → TokenConfirmed s.db input.tokenId) :
    AdmissionInv (spool s input) := by
  unfold Monoize.spool
  split
  · rename_i record store hspool
    apply h.publish
    rcases spoolTerminal_inv hspool with ⟨hmem, rfl⟩ | ⟨rfl, hp⟩
    · exact storeInv_republished h.store hmem
    · exact storeInv_published h.store hp hc
  · exact h

theorem AdmissionInv.agrees (hp : p ∈ s.published) {c : TerminalReceipt}
    (hc : c ∈ s.db.terminalReceipts.rows) (hid : c.tokenId = p.input.tokenId) : Agrees p c := by
  obtain ⟨hrecord, hactual, ⟨t, ht, htok, hres, hreq, haud⟩, hconf⟩ := h.store.record p hp
  rcases h.primary.receipt_source c hc with ⟨q, hq, ha⟩ | ⟨hun, hkind, hnone, res, req, aud, hb, hd⟩
  · rwa [h.store.unique p hp q hq (hid.symm.trans ha.1)]
  have hrelease : p.input.kind = .release := by
    cases hk : p.input.kind with
    | settlement => exact absurd (hid ▸ hconf hk) hun
    | release => rfl
  have hnil : p.input.actualNanoUsd = none := by
    cases hv : p.input.actualNanoUsd with
    | none => rfl
    | some v => simp [actualIsValid, hrelease, hv] at hactual
  obtain ⟨u, hu, hutok, rfl, rfl, rfl⟩ := hb
  have : u = t := eq_of_clashes hu ht
    (AdmissionToken.clashes_of_tokenId (hutok.trans (hid.trans htok.symm)))
  subst this
  refine ⟨hid, hkind.trans hrelease.symm, hnone.trans hnil.symm, ?_⟩
  rw [hd, hrecord]
  simp only [spoolRecord, hid, hres, hreq, haud, hrelease, hnil]

theorem AdmissionInv.apply_ne_conflict (hp : p ∈ s.published) (vid : String) :
    applyTerminalTx s.db (applyInput p) vid ≠ .error .terminalConflict := by
  intro he
  obtain ⟨-, -, ⟨t, ht, htok, hres, -⟩, hconf⟩ := h.store.record p hp
  simp only [applyTerminalTx, bind_eq_error, orError_eq_error, ok_iff] at he
  rcases he with ⟨-, he⟩ | ⟨t', ht', he⟩
  · cases he
  have hfound := of_find? ht'
  have ht'id : t'.tokenId = p.input.tokenId := of_decide_eq_true hfound
  have : t' = t := eq_of_clashes (mem_of_find? ht') ht
    (AdmissionToken.clashes_of_tokenId (ht'id.trans htok.symm))
  subst this
  split at he
  · rename_i c hc
    have hfound := of_find? hc
    have hid : c.tokenId = p.input.tokenId := of_decide_eq_true hfound
    have ha := h.agrees hp (mem_of_find? hc) hid
    simp only [bind_eq_error, require_eq_error, pure_ne_error, and_false, exists_false, or_false] at he
    exact he.1 ha.2.2.2
  · rename_i hnone
    simp only [bind_eq_error, require_eq_error, orError_eq_error, pure_ne_error, and_false, exists_false,
      or_false] at he
    rcases he with ⟨-, he⟩ | ⟨_, -, ⟨hun, -⟩ | ⟨_, -, he | ⟨_, -, -, he⟩⟩⟩
    · cases he
    · apply hun
      intro hk
      obtain ⟨u, hu, hutok, hsome⟩ := hconf hk
      have : u = t' := eq_of_clashes hu ht (AdmissionToken.clashes_of_tokenId (hutok.trans htok.symm))
      exact this ▸ hsome
    · obtain ⟨r, hr, hrid, hstate⟩ := runTerminal_conflict he
      obtain ⟨r', hr', hrid', hreserved⟩ := h.primary.reserved_of_token t' ht (by
        intro c hc hcid
        simpa [applyInput, hcid, htok] using find?_eq_none.1 hnone c hc)
      have : r' = r := eq_of_clashes hr' hr
        (QuotaReservationRow.clashes_of_id (hrid'.trans (hres.trans hrid.symm)))
      exact hstate (this ▸ hreserved)
    · cases he

theorem AdmissionInv.apply {r : TerminalApplyResult} (hp : p ∈ s.published)
    (ha : applyTerminalTx s.db (applyInput p) vid = .ok (r, db)) : AdmissionInv { s with db := db } := by
  rcases applyTerminalTx_inv ha with rfl | ha
  · exact h
  · refine h.write ?_ (tokensGrow_of_eq ha.tokens)
    exact primaryInv_applied h.primary ha (.inl ⟨p, hp, rfl, rfl, rfl, rfl⟩)

theorem AdmissionInv.applyAll (hp : ∀ p ∈ ps, p ∈ s.published) :
    applyTerminals s.db vid (ps.map applyInput) ≠ .error .terminalConflict ∧
      ∀ acks db, applyTerminals s.db vid (ps.map applyInput) = .ok (acks, db) →
        AdmissionInv { s with db := db } := by
  induction ps generalizing s with
  | nil =>
    refine ⟨pure_ne_error, fun acks db hr => ?_⟩
    simp only [map_nil, applyTerminals, pair_eq_ok] at hr
    rw [← hr.2]
    exact h
  | cons p ps ih =>
    have hhead := hp p (mem_cons_self ..)
    have htail : ∀ q ∈ ps, q ∈ s.published := fun q hq => hp q (mem_cons_of_mem _ hq)
    constructor
    · intro he
      simp only [map_cons, applyTerminals, bind_eq_error, pure_ne_error, and_false, exists_false,
        or_false] at he
      rcases he with he | ⟨⟨r, db⟩, hr, he⟩
      · exact h.apply_ne_conflict hhead vid he
      · exact (ih (h.apply hhead hr) htail).1 he
    · intro acks db hr
      simp only [map_cons, applyTerminals, bind_eq_ok, pair_eq_ok] at hr
      obtain ⟨⟨r, next⟩, hnext, ⟨rest, last⟩, hlast, -, rfl⟩ := hr
      exact (ih (h.apply hhead hnext) htail).2 rest last hlast

theorem AdmissionInv.applyBatch (hp : ∀ p ∈ ps, p ∈ s.published) :
    applyTerminalBatch s.db vid (ps.map TerminalSpoolRecord.wire) ≠ .error .terminalConflict ∧
      ∀ acks db, applyTerminalBatch s.db vid (ps.map TerminalSpoolRecord.wire) = .ok (acks, db) →
        AdmissionInv { s with db := db } := by
  constructor
  · intro he
    simp only [applyTerminalBatch, bind_eq_error] at he
    rcases he with he | ⟨inputs, hinputs, he⟩
    · clear h hp
      induction ps with
      | nil => exact absurd he pure_ne_error
      | cons p ps ih =>
        simp only [map_cons, mapM_cons, bind_eq_error, pure_ne_error, and_false, exists_false,
          or_false] at he
        rcases he with he | ⟨_, -, he⟩
        · exact terminalApplyInput_ne_conflict _ he
        · exact ih he
    · rw [terminalInputs_published hinputs] at he
      exact (h.applyAll hp).1 he
  · intro acks db hr
    simp only [applyTerminalBatch, ok_iff] at hr
    obtain ⟨inputs, hinputs, hr⟩ := hr
    rw [terminalInputs_published hinputs] at hr
    exact (h.applyAll hp).2 acks db hr

end Monoize
