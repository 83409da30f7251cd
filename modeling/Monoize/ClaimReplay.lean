import Monoize.KeyRingLifetime
import Monoize.SpoolAccounting

/-! Replays of a token against the claims of one replica, and the terminals it publishes for it. -/

namespace Monoize

open Fallible Relational Transition List Table
open AdmissionSpool

variable {now : Instant} {events : List DiskEvent} {store s t : ClaimStore} {e : DiskEvent} {tokenId : String}
  {published : List TerminalSpoolRecord}

structure AdmissionVerificationBinding where
  (audience tokenId reservationId requestId : String)
  maximumNanoUsd : Int
  pricingRevision : String
  (issuedAt expiresAt : Instant)

structure VerifierEntry (Key : Type) where
  keyId : String
  key : Key
  verifyUntil : Option Instant

instance (Key : Type) : Keyed (VerifierEntry Key) := .on (·.keyId)

structure AdmissionVerifierRing (Key : Type) where
  keys : Table (VerifierEntry Key)

def admissionIssuer : String := "lynshen-primary"

variable {Key Signature : Type}

def AdmissionVerifierRing.verify (scheme : SignatureScheme Key (TokenHeader × TokenClaims) Signature)
    (ring : AdmissionVerifierRing Key) (token : CompactToken Signature) (binding : AdmissionVerificationBinding)
    (now : Instant) : Except AdmissionError VerifiedToken := do
  let keyId ← verifyHeader token
  let entry ← orError .unknownKey (ring.keys.find? (·.keyId = keyId))
  require (¬ ∃ t ∈ entry.verifyUntil, t ≤ now) .unknownKey
  let (maximumNanoUsd, reservedFenCny) ← verifySigned scheme entry.key admissionIssuer binding.audience token now
  require (token.claims.jti = binding.tokenId ∧ token.claims.reservationId = binding.reservationId ∧
    token.claims.requestId = binding.requestId ∧ maximumNanoUsd = binding.maximumNanoUsd ∧
    token.claims.pricingRevision = binding.pricingRevision ∧ unixTime token.claims.iat = binding.issuedAt ∧
    unixTime token.claims.exp = binding.expiresAt) .bindingMismatch
  pure (verifiedToken token maximumNanoUsd reservedFenCny)

def VerifiedToken.admission (v : VerifiedToken) : VerifiedAdmission :=
  ⟨v.audience, v.tokenId, v.reservationId, v.requestId, v.maximumNanoUsd, v.expiresAt⟩

variable {scheme : SignatureScheme Key (TokenHeader × TokenClaims) Signature}

variable {binding : AdmissionVerificationBinding}

variable {ring : AdmissionVerifierRing Key} {token : CompactToken Signature} {v : VerifiedToken} {call : SpoolCall}
  {m : ClaimMarker}

theorem AdmissionVerifierRing.verify_inv
    (h : ring.verify scheme token binding now = .ok v) :
    now < seconds (token.claims.exp + 5) ∧ v.tokenId = token.claims.jti ∧ v.expiresAt = unixTime token.claims.exp := by
  simp only [verify, verifySigned, ok_iff] at h
  obtain ⟨-, -, -, -, -, -, amounts, ⟨-, -, -, -, -, -, -, -, -, -, -, hlt, -⟩, -, -, rfl⟩ := h
  exact ⟨(unixSeconds_lt_iff _ _).1 hlt, rfl, rfl⟩

/-- A replica's store, the time of its last operation, the claims of tokens it was asked for and those that it made,
and the terminals it has ever published. -/
structure Replica where
  spool : AdmissionSpool
  now : Instant
  asked : List (String × Instant) := []
  claimed : List (String × Instant) := []
  published : List TerminalSpoolRecord := []

def newTerminals (before after : ClaimStore) : List TerminalSpoolRecord :=
  after.terminals.rows.filter (· ∉ before.terminals.rows)

/-- The operations other than claims, a cleanup with the time at which it happens. -/
def SpoolCall.At (now : Instant) : SpoolCall → Prop
  | claim _ _ => False
  | cleanupAcknowledged at_ _ => at_ = now
  | _ => True

def Replica.claim (s : Replica) (tokenId : String) (v : VerifiedToken) (faults : PublishFaults) (now : Instant) :
    Replica :=
  { s with
    spool := (s.spool.claim v.admission faults).2
    now := now
    asked := s.asked ++ [(tokenId, now)]
    claimed := if (s.spool.claim v.admission faults).1 = .ok () then s.claimed ++ [(tokenId, now)] else s.claimed }

def Replica.perform [Sha256] (s : Replica) (call : SpoolCall) (now : Instant) : Replica :=
  { s with
    spool := call.run s.spool
    now := now
    published := s.published ++ newTerminals s.spool.store (call.run s.spool).store }

/-- The operations of a replica at times that never go back. A token id names one token, which has been verified at
some time when it is claimed. -/
inductive ReplicaStep (scheme : SignatureScheme Key (TokenHeader × TokenClaims) Signature) [Sha256]
    (tokenOf : String → CompactToken Signature) (s : Replica) : Replica → Prop
  | claim (now verifiedAt : Instant) (tokenId : String) (ring : AdmissionVerifierRing Key)
      (binding : AdmissionVerificationBinding) (v : VerifiedToken) (faults : PublishFaults) (later : s.now ≤ now)
      (verified : ring.verify scheme (tokenOf tokenId) binding verifiedAt = .ok v) :
      ReplicaStep scheme tokenOf s (s.claim tokenId v faults now)
  | perform (now : Instant) (call : SpoolCall) (later : s.now ≤ now) (at_ : call.At now) :
      ReplicaStep scheme tokenOf s (s.perform call now)

def ReplicaOpened (s : Replica) : Prop := ∃ maxBytes now, s = { spool := { maxBytes := maxBytes }, now := now }

def Accepts (scheme : SignatureScheme Key (TokenHeader × TokenClaims) Signature) (token : CompactToken Signature)
    (now : Instant) : Prop :=
  ∃ (ring : AdmissionVerifierRing Key) (binding : AdmissionVerificationBinding) (v : VerifiedToken),
    ring.verify scheme token binding now = .ok v

def cleanable (token : CompactToken Signature) : Instant := unixTime token.claims.exp + seconds 300

theorem Accepts.lt_cleanable (h : Accepts scheme token now) : now < cleanable token := by
  obtain ⟨ring, binding, v, h⟩ := h
  refine lt_of_lt_of_le (AdmissionVerifierRing.verify_inv h).1 ?_
  rw [seconds_add]
  exact Int.add_le_add_left (by decide) _

def DiskEvent.records : DiskEvent → List TerminalSpoolRecord
  | terminated r => [r]
  | claimed _ | rewritten _ _ | retired _ | cleaned _ => []

theorem newTerminals_subset [Sha256] {next : ClaimStore} (h : DiskRun events store next) :
    ∀ r ∈ newTerminals store next, r ∈ events.flatMap DiskEvent.records := by
  have hrows : ∀ r ∈ next.terminals.rows, r ∈ store.terminals.rows ∨ r ∈ events.flatMap DiskEvent.records := by
    induction h with
    | nil => exact fun r hr => .inl hr
    | cons step _ ih =>
      intro r hr
      rcases ih r hr with hr | hr
      · cases step with
        | terminate m r' terminals _ _ _ _ hins =>
          rcases (mem_insert hins).1 hr with hr | rfl
          · exact .inl hr
          · exact .inr (mem_append_left _ (mem_singleton_self _))
        | retire => exact .inl (mem_of_mem_filter hr)
        | claim | rewrite | clean => exact .inl hr
      · exact .inr (mem_append_right _ hr)
  intro r hr
  obtain ⟨hmem, hnew⟩ := mem_filter.1 hr
  exact (hrows r hmem).resolve_left (of_decide_eq_true hnew)

/-- Where the terminals published for a token are: on disk, acknowledged, or gone with the claim. -/
structure Tracked (tokenOf : String → CompactToken Signature) (tokenId : String) (store : ClaimStore)
    (published : List TerminalSpoolRecord) (now : Instant) : Prop where
  place : ∀ r ∈ published, r.input.tokenId = tokenId →
    findTerminal store tokenId = some r ∨ (∃ m ∈ store.claims.rows, m.tokenId = tokenId ∧ m.acknowledgedAt ≠ none) ∨
      (∀ m ∈ store.claims.rows, m.tokenId ≠ tokenId) ∧ cleanable (tokenOf tokenId) ≤ now
  agree : ∀ r ∈ published, ∀ r' ∈ published, r.input.tokenId = tokenId → r'.input.tokenId = tokenId → r = r'

def Dated (tokenOf : String → CompactToken Signature) (store : ClaimStore) : Prop :=
  ∀ m ∈ store.claims.rows, m.expiresAt = unixTime (tokenOf m.tokenId).claims.exp

variable {tokenOf : String → CompactToken Signature}

theorem DiskStep.dated [Sha256] (h : DiskStep e s t) (hs : Dated tokenOf s) (he : ∀ m, e ≠ .claimed m) : Dated tokenOf t := by
  cases h with
  | claim => exact absurd rfl (he _)
  | terminate => exact hs
  | rewrite m f hf hm same =>
    intro n hn
    have hn : n ∈ (s.claims.update (·.tokenId = m.tokenId) f hf).rows := hn
    obtain ⟨k, hk, rfl⟩ := mem_update.1 hn
    split
    · rename_i hid
      rw [claims_unique hk hm (of_decide_eq_true hid), same.expiresAt, same.tokenId]
      exact hs m hm
    · exact hs k hk
  | retire => exact hs
  | clean => exact fun n hn => hs n (mem_of_mem_filter hn)

theorem findTerminal_insert_ne {terminals : Table TerminalSpoolRecord} {r : TerminalSpoolRecord}
    (hins : store.terminals.insert? r = some terminals) (hne : r.input.tokenId ≠ tokenId) :
    findTerminal { store with terminals := terminals } tokenId = findTerminal store tokenId :=
  find?_insert_of_neg hins (decide_eq_false hne)

theorem DiskStep.tracked [Sha256] (h : DiskStep e s t) (hdated : Dated tokenOf s)
    (hs : Tracked tokenOf tokenId s published now) (he : e.Quiet ∨ ∃ m, e = .cleaned m ∧ m.expiresAt + seconds 300 ≤ now) :
    Tracked tokenOf tokenId t (published ++ e.records) now := by
  cases h with
  | claim =>
    rcases he with h | ⟨m, h, -⟩
    · exact h.elim
    · cases h
  | terminate m r terminals hm hopen hof _ hins =>
    by_cases hid : r.input.tokenId = tokenId
    · -- nothing has been published for this token before
      have hnone : ∀ r' ∈ published, r'.input.tokenId ≠ tokenId := by
        intro r' hr' hid'
        rcases hs.place r' hr' hid' with hfound | ⟨n, hn, hnid, hack⟩ | ⟨hgone, -⟩
        · obtain ⟨hmem, hfound⟩ := findTerminal_mem hfound
          exact (insert?_eq_some.1 hins).1 r' hmem (hfound.trans hid.symm)
        · rw [claims_unique hn hm (hnid.trans (hid.symm.trans hof.tokenId.symm))] at hack
          exact hack hopen
        · exact hgone m hm (hof.tokenId.trans hid)
      have hlast : ∀ r' ∈ published ++ [r], r'.input.tokenId = tokenId → r' = r := by
        intro r' hr' hid'
        rcases mem_append.1 hr' with hr' | hr'
        · exact absurd hid' (hnone r' hr')
        · exact mem_singleton.1 hr'
      have hfound : findTerminal { s with terminals := terminals } tokenId = some r := by
        have hmem : r ∈ terminals.rows := (mem_insert hins).2 (.inr rfl)
        rw [← hid]
        exact findTerminal_of_mem (r := r) hmem
      refine ⟨fun r' hr' hid' => ?_, fun r' hr' r'' hr'' hid' hid'' => ?_⟩
      · rw [hlast r' hr' hid']
        exact .inl hfound
      · rw [hlast r' hr' hid', hlast r'' hr'' hid'']
    · have hold : ∀ r' ∈ published ++ [r], r'.input.tokenId = tokenId → r' ∈ published := by
        intro r' hr' hid'
        rcases mem_append.1 hr' with hr' | hr'
        · exact hr'
        · rw [mem_singleton.1 hr'] at hid'
          exact absurd hid' hid
      refine ⟨fun r' hr' hid' => ?_, fun r' hr' r'' hr'' hid' hid'' =>
        hs.agree r' (hold r' hr' hid') r'' (hold r'' hr'' hid'') hid' hid''⟩
      rw [findTerminal_insert_ne hins hid]
      exact hs.place r' (hold r' hr' hid') hid'
  | rewrite m f hf hm same _ hack =>
    rw [DiskEvent.records, append_nil]
    refine ⟨fun r hr hid => ?_, hs.agree⟩
    rcases hs.place r hr hid with hfound | ⟨n, hn, hnid, hacked⟩ | ⟨hgone, hover⟩
    · exact .inl hfound
    · have hkept : (if decide (n.tokenId = m.tokenId) then f n else n) ∈
          (s.claims.update (·.tokenId = m.tokenId) f hf).rows := mem_update.2 ⟨n, hn, rfl⟩
      refine .inr (.inl ⟨_, hkept, ?_⟩)
      split
      · rename_i hsame
        have hnm := claims_unique hn hm (of_decide_eq_true hsame)
        rw [hnm] at hnid hacked ⊢
        refine ⟨same.tokenId.trans hnid, ?_⟩
        rcases hack with hack | ⟨hopen, -⟩
        · rwa [hack]
        · exact absurd hopen hacked
      · exact ⟨hnid, hacked⟩
    · refine .inr (.inr ⟨fun n hn => ?_, hover⟩)
      have hn : n ∈ (s.claims.update (·.tokenId = m.tokenId) f hf).rows := hn
      obtain ⟨k, hk, rfl⟩ := mem_update.1 hn
      split
      · rename_i hsame
        rw [claims_unique hk hm (of_decide_eq_true hsame), same.tokenId]
        exact hgone m hm
      · exact hgone k hk
  | retire m r hm hack hr =>
    rw [DiskEvent.records, append_nil]
    refine ⟨fun r' hr' hid => ?_, hs.agree⟩
    by_cases hsame : tokenId = m.tokenId
    · exact .inr (.inl ⟨m, hm, hsame.symm, hack⟩)
    · rw [findTerminal_remove_ne hsame]
      exact hs.place r' hr' hid
  | clean m hm hack hnone =>
    rw [DiskEvent.records, append_nil]
    refine ⟨fun r hr hid => ?_, hs.agree⟩
    have hover : m.expiresAt + seconds 300 ≤ now := by
      rcases he with h | ⟨n, h, hover⟩
      · exact h.elim
      · cases h
        exact hover
    have hkept (n : ClaimMarker) (h : n ∈ (s.claims.remove (·.tokenId = m.tokenId)).rows) :
        n ∈ s.claims.rows ∧ n.tokenId ≠ m.tokenId := by
      rw [remove_rows, mem_filter] at h
      exact ⟨h.1, by simpa using h.2⟩
    by_cases hsame : tokenId = m.tokenId
    · refine .inr (.inr ⟨fun n hn => ?_, ?_⟩)
      · rw [hsame]
        exact (hkept n hn).2
      · rw [hsame, cleanable, ← hdated m hm]
        exact hover
    · rcases hs.place r hr hid with hfound | ⟨n, hn, hnid, hacked⟩ | ⟨hgone, hlate⟩
      · exact .inl hfound
      · refine .inr (.inl ⟨n, mem_filter.2 ⟨hn, ?_⟩, hnid, hacked⟩)
        have : n.tokenId ≠ m.tokenId := fun e => hsame (hnid.symm.trans e)
        simpa using this
      · exact .inr (.inr ⟨fun n hn => hgone n (hkept n hn).1, hlate⟩)

theorem SpoolCall.At.emits (h : call.At now) (he : call.Emits e) :
    e.Quiet ∨ ∃ m, e = .cleaned m ∧ m.expiresAt + seconds 300 ≤ now := by
  cases call with
  | claim => exact h.elim
  | cleanupAcknowledged at_ faults =>
    obtain ⟨m, rfl, hover⟩ := he
    exact .inr ⟨m, rfl, h ▸ hover⟩
  | _ => exact .inl he

theorem DiskRun.tracked [Sha256] (h : DiskRun events s t)
    (he : ∀ e ∈ events, e.Quiet ∨ ∃ m, e = .cleaned m ∧ m.expiresAt + seconds 300 ≤ now) (hdated : Dated tokenOf s) :
    Dated tokenOf t ∧ ∀ tokenId published, Tracked tokenOf tokenId s published now →
      Tracked tokenOf tokenId t (published ++ events.flatMap DiskEvent.records) now := by
  induction h with
  | nil =>
    refine ⟨hdated, fun tokenId published hs => ?_⟩
    rwa [flatMap_nil, append_nil]
  | @cons e events store next last step _ ih =>
    obtain ⟨hfirst, hrest⟩ := forall_mem_cons.1 he
    have hnot : ∀ m, e ≠ .claimed m := by
      rintro m rfl
      rcases hfirst with h | ⟨n, h, -⟩
      · exact h
      · cases h
    obtain ⟨hlast, htracked⟩ := ih hrest (step.dated hdated hnot)
    refine ⟨hlast, fun tokenId published hs => ?_⟩
    rw [flatMap_cons, ← append_assoc]
    exact htracked tokenId _ (step.tracked hdated hs hfirst)

theorem Tracked.mono {some_ : List TerminalSpoolRecord} {later : Instant}
    (h : Tracked tokenOf tokenId store published now) (hsub : ∀ r ∈ some_, r ∈ published) (hlater : now ≤ later) :
    Tracked tokenOf tokenId store some_ later := by
  refine ⟨fun r hr hid => ?_, fun r hr r' hr' => h.agree r (hsub r hr) r' (hsub r' hr')⟩
  rcases h.place r (hsub r hr) hid with hfound | hacked | ⟨hgone, hover⟩
  · exact .inl hfound
  · exact .inr (.inl hacked)
  · exact .inr (.inr ⟨hgone, le_trans hover hlater⟩)

theorem Tracked.claim {claims : Table ClaimMarker} (h : Tracked tokenOf tokenId store published now)
    (hins : store.claims.insert? m = some claims) (hearly : m.tokenId = tokenId → now < cleanable (tokenOf tokenId)) :
    Tracked tokenOf tokenId { store with claims := claims } published now := by
  refine ⟨fun r hr hid => ?_, h.agree⟩
  rcases h.place r hr hid with hfound | ⟨n, hn, hnid, hacked⟩ | ⟨hgone, hover⟩
  · exact .inl hfound
  · exact .inr (.inl ⟨n, (mem_insert hins).2 (.inl hn), hnid, hacked⟩)
  refine .inr (.inr ⟨fun n hn => ?_, hover⟩)
  rcases (mem_insert hins).1 hn with hn | rfl
  · exact hgone n hn
  · exact fun e => absurd (hearly e) (not_lt.2 hover)

structure Remembered (scheme : SignatureScheme Key (TokenHeader × TokenClaims) Signature)
    (tokenOf : String → CompactToken Signature) (s : Replica) : Prop where
  kept : ∀ c ∈ s.claimed, (∃ m ∈ s.spool.store.claims.rows, m.tokenId = c.1) ∨ cleanable (tokenOf c.1) ≤ s.now
  once : s.claimed.Pairwise fun c d => c.1 = d.1 → ¬ (Accepts scheme (tokenOf c.1) c.2 ∧ Accepts scheme (tokenOf d.1) d.2)

structure ReplicaSound [Sha256] (scheme : SignatureScheme Key (TokenHeader × TokenClaims) Signature)
    (tokenOf : String → CompactToken Signature) (s : Replica) : Prop where
  store : StoreSound s.spool.store
  dated : Dated tokenOf s.spool.store
  remembered : Remembered scheme tokenOf s
  tracked : ∀ tokenId, (∀ at_, (tokenId, at_) ∈ s.asked → Accepts scheme (tokenOf tokenId) at_) →
    Tracked tokenOf tokenId s.spool.store s.published s.now

theorem DiskRun.kept [Sha256] (h : DiskRun events s t)
    (he : ∀ e ∈ events, e.Quiet ∨ ∃ m, e = .cleaned m ∧ m.expiresAt + seconds 300 ≤ now) (hdated : Dated tokenOf s)
    (hs : ∃ m ∈ s.claims.rows, m.tokenId = tokenId) :
    (∃ m ∈ t.claims.rows, m.tokenId = tokenId) ∨ cleanable (tokenOf tokenId) ≤ now := by
  induction h with
  | nil => exact .inl hs
  | @cons e events store next last step _ ih =>
    obtain ⟨hfirst, hrest⟩ := forall_mem_cons.1 he
    have hnot : ∀ m, e ≠ .claimed m := by
      rintro m rfl
      rcases hfirst with h | ⟨n, h, -⟩
      · exact h
      · cases h
    have hdated' := step.dated hdated hnot
    obtain ⟨n, hn, hid⟩ := hs
    cases step with
    | claim => exact absurd rfl (hnot _)
    | terminate | retire => exact ih hrest hdated' ⟨n, hn, hid⟩
    | rewrite m f hf hm same =>
      have hkept : (if decide (n.tokenId = m.tokenId) then f n else n) ∈
          (store.claims.update (·.tokenId = m.tokenId) f hf).rows := mem_update.2 ⟨n, hn, rfl⟩
      refine ih hrest hdated' ⟨_, hkept, ?_⟩
      split
      · rename_i hsame
        have hnm := claims_unique hn hm (of_decide_eq_true hsame)
        rw [hnm, same.tokenId, ← hnm]
        exact hid
      · exact hid
    | clean m hm =>
      by_cases hsame : n.tokenId = m.tokenId
      · right
        rcases hfirst with h | ⟨k, h, hover⟩
        · exact h.elim
        · cases h
          rw [← hid, hsame, cleanable, ← hdated m hm]
          exact hover
      · refine ih hrest hdated' ⟨n, mem_filter.2 ⟨hn, ?_⟩, hid⟩
        simpa using hsame

theorem ReplicaSound.perform [Sha256] {s : Replica} (hs : ReplicaSound scheme tokenOf s)
    (later : s.now ≤ now) (at_ : call.At now) : ReplicaSound scheme tokenOf (s.perform call now) := by
  obtain ⟨events, hrun, hemits, -⟩ := call.effect hs.store
  have hevents : ∀ e ∈ events, e.Quiet ∨ ∃ m, e = .cleaned m ∧ m.expiresAt + seconds 300 ≤ now :=
    fun e he => at_.emits (hemits e he)
  obtain ⟨hdated, htracked⟩ := hrun.tracked hevents hs.dated
  refine ⟨hrun.sound hs.store, hdated, ⟨fun c hc => ?_, hs.remembered.once⟩, fun tokenId hasked => ?_⟩
  · rcases hs.remembered.kept c hc with hkept | hover
    · exact hrun.kept hevents hs.dated hkept
    · exact .inr (le_trans hover later)
  · have hbefore := (hs.tracked tokenId hasked).mono (fun r hr => hr) later
    apply (htracked tokenId _ hbefore).mono _ le_rfl
    intro r hr
    rcases mem_append.1 hr with hr | hr
    · exact mem_append_left _ hr
    · exact mem_append_right _ (newTerminals_subset hrun r hr)

theorem DiskRun.of_nil [Sha256] (h : DiskRun [] s t) : t = s := by
  cases h
  rfl

theorem DiskRun.of_claimed [Sha256] (h : DiskRun [.claimed m] s t) :
    ∃ claims, s.claims.insert? m = some claims ∧ t = { s with claims := claims } := by
  cases h with
  | cons step rest =>
    cases rest
    cases step with
    | claim a claims _ hins => exact ⟨claims, hins, rfl⟩

theorem ReplicaSound.claim [Sha256] {s : Replica} (hs : ReplicaSound scheme tokenOf s)
    (hids : ∀ tokenId, (tokenOf tokenId).claims.jti = tokenId) {verifiedAt : Instant}
    {faults : PublishFaults} (later : s.now ≤ now)
    (verified : ring.verify scheme (tokenOf tokenId) binding verifiedAt = .ok v) :
    ReplicaSound scheme tokenOf (s.claim tokenId v faults now) := by
  obtain ⟨-, hid, hexpires⟩ := AdmissionVerifierRing.verify_inv verified
  have hid : v.tokenId = tokenId := hid.trans (hids tokenId)
  have haskedBefore {x : String} (h : ∀ at_, (x, at_) ∈ s.asked ++ [(tokenId, now)] → Accepts scheme (tokenOf x) at_) :
      ∀ at_, (x, at_) ∈ s.asked → Accepts scheme (tokenOf x) at_ := fun at_ hat => h at_ (mem_append_left _ hat)
  have hkept (c : String × Instant) (hc : c ∈ s.claimed) :
      (∃ m ∈ s.spool.store.claims.rows, m.tokenId = c.1) ∨ cleanable (tokenOf c.1) ≤ now := by
    rcases hs.remembered.kept c hc with h | h
    · exact .inl h
    · exact .inr (le_trans h later)
  rcases claim_effect s.spool v.admission faults with ⟨heffect, hfailed⟩ | heffect
  · have hstore := heffect.run.of_nil
    rw [Replica.claim, if_neg hfailed]
    refine ⟨?_, ?_, ⟨?_, hs.remembered.once⟩, ?_⟩
    · rw [hstore]
      exact hs.store
    · rw [hstore]
      exact hs.dated
    · rw [hstore]
      exact hkept
    · intro x hasked
      rw [hstore]
      exact (hs.tracked x (haskedBefore hasked)).mono (fun r hr => hr) later
  · obtain ⟨claims, hins, hstore⟩ := heffect.run.of_claimed
    have hmem (m : ClaimMarker) (hm : m ∈ s.spool.store.claims.rows) : m ∈ claims.rows :=
      (mem_insert hins).2 (.inl hm)
    have hnew : claimMarker v.admission ∈ claims.rows := (mem_insert hins).2 (.inr rfl)
    unfold Replica.claim
    refine ⟨heffect.run.sound hs.store, ?_, ⟨?_, ?_⟩, ?_⟩
    · rw [hstore]
      intro m hm
      rcases (mem_insert hins).1 hm with hm | rfl
      · exact hs.dated m hm
      · show v.expiresAt = unixTime (tokenOf v.tokenId).claims.exp
        rw [hid]
        exact hexpires
    · rw [hstore]
      intro c hc
      have hcases : c ∈ s.claimed ∨ c = (tokenId, now) := by
        split at hc
        · simpa using hc
        · exact .inl hc
      rcases hcases with hc | rfl
      · rcases hkept c hc with ⟨m, hm, hmid⟩ | h
        · exact .inl ⟨m, hmem m hm, hmid⟩
        · exact .inr h
      · exact .inl ⟨_, hnew, hid⟩
    · split
      · rw [pairwise_append]
        refine ⟨hs.remembered.once, pairwise_singleton _ _, fun c hc d hd hsame => ?_⟩
        rw [mem_singleton.1 hd] at hsame ⊢
        rintro ⟨-, haccepts⟩
        rcases hkept c hc with ⟨m, hm, hmid⟩ | hover
        · exact (insert?_eq_some.1 hins).1 m hm ((hmid.trans hsame).trans hid.symm)
        · rw [hsame] at hover
          exact absurd haccepts.lt_cleanable (not_lt.2 hover)
      · exact hs.remembered.once
    · intro x hasked
      rw [hstore]
      refine ((hs.tracked x (haskedBefore hasked)).mono (fun r hr => hr) later).claim hins fun hx => ?_
      have hx : tokenId = x := hid.symm.trans hx
      exact (hasked now (mem_append_right _ (by rw [hx]; exact mem_singleton_self _))).lt_cleanable

theorem replica_sound [Sha256] (hids : ∀ tokenId, (tokenOf tokenId).claims.jti = tokenId) {s : Replica}
    (h : Reachable ReplicaOpened (ReplicaStep scheme tokenOf) s) : ReplicaSound scheme tokenOf s := by
  induction h with
  | start hopened =>
    obtain ⟨maxBytes, now, rfl⟩ := hopened
    exact ⟨storeSound_empty, forall_mem_nil _, ⟨forall_mem_nil _, .nil⟩,
      fun _ _ => ⟨forall_mem_nil _, forall_mem_nil _⟩⟩
  | next _ hstep ih =>
    cases hstep with
    | claim now verifiedAt tokenId ring binding v faults later verified => exact ih.claim hids later verified
    | perform now call later at_ => exact ih.perform later at_

/-- No token is claimed twice while it is accepted, and the terminals published for a token that is only claimed
while it is accepted are equal. -/
theorem replica_claims_once [Sha256] (hids : ∀ tokenId, (tokenOf tokenId).claims.jti = tokenId) {s : Replica}
    (h : Reachable ReplicaOpened (ReplicaStep scheme tokenOf) s) :
    (s.claimed.Pairwise fun c d =>
        c.1 = d.1 → ¬ (Accepts scheme (tokenOf c.1) c.2 ∧ Accepts scheme (tokenOf d.1) d.2)) ∧
      ∀ tokenId, (∀ at_, (tokenId, at_) ∈ s.asked → Accepts scheme (tokenOf tokenId) at_) →
        ∀ r ∈ s.published, ∀ r' ∈ s.published, r.input.tokenId = tokenId → r'.input.tokenId = tokenId → r = r' := by
  have hsound := replica_sound hids h
  exact ⟨hsound.remembered.once, fun tokenId hasked => (hsound.tracked tokenId hasked).agree⟩

def sampleReplayClaims (tokenId : String) : TokenClaims :=
  signedClaims admissionIssuer ⟨"a", tokenId, "r", "q", "e", 1, 5, 7, "p", 0⟩

def sampleTokenOf (tokenId : String) : CompactToken (String × TokenHeader × TokenClaims) :=
  ⟨signedHeader "k", sampleReplayClaims tokenId, "s", signedHeader "k", sampleReplayClaims tokenId⟩

def sampleVerifierRing : AdmissionVerifierRing String := ⟨.single ⟨"k", "s", none⟩⟩

def sampleVerificationBinding : AdmissionVerificationBinding := ⟨"a", "t", "r", "q", 5, "p", 0, seconds 30⟩

theorem sampleToken_verified :
    sampleVerifierRing.verify sampleScheme (sampleTokenOf "t") sampleVerificationBinding 0 =
      .ok (verifiedToken (sampleTokenOf "t") 5 7) := by
  decide +kernel

def sampleReplayReplica : Replica := { spool := { maxBytes := 1048576 }, now := 0 }

open SampleSpool

def sampleReleased : Replica :=
  ((sampleReplayReplica.claim "t" (verifiedToken (sampleTokenOf "t") 5 7) {} 0).perform
    (.spoolTerminal ⟨"t", "r", "q", "a", .release, none, 0⟩ {}) 0).perform
      (.acknowledgeTerminal "t" (sha256 "") 0 {}) 0

def sampleReclaimed : Replica :=
  ((sampleReleased.perform (.cleanupAcknowledged (seconds 330) {}) (seconds 330)).claim "t"
    (verifiedToken (sampleTokenOf "t") 5 7) {} (seconds 330)).perform
      (.spoolTerminal ⟨"t", "r", "q", "a", .settlement, some 5, seconds 330⟩ {}) (seconds 330)

theorem sampleReleased_reachable : Reachable ReplicaOpened (ReplicaStep sampleScheme sampleTokenOf) sampleReleased := by
  have hopened : ReplicaOpened sampleReplayReplica := ⟨_, _, rfl⟩
  exact (((Reachable.start hopened).next
    (.claim 0 0 "t" sampleVerifierRing sampleVerificationBinding _ {} le_rfl sampleToken_verified)).next
    (.perform 0 _ le_rfl trivial)).next (.perform 0 _ le_rfl trivial)

theorem sampleReclaimed_reachable : Reachable ReplicaOpened (ReplicaStep sampleScheme sampleTokenOf) sampleReclaimed := by
  have hlater : (0 : Int) ≤ seconds 330 := by decide
  have hat : (SpoolCall.cleanupAcknowledged (seconds 330) {}).At (seconds 330) := Eq.refl _
  exact ((sampleReleased_reachable.next (.perform (seconds 330) _ hlater hat)).next
    (.claim (seconds 330) 0 "t" sampleVerifierRing sampleVerificationBinding _ {} le_rfl sampleToken_verified)).next
      (.perform (seconds 330) _ le_rfl trivial)

theorem late_claim_publishes_again :
    Reachable ReplicaOpened (ReplicaStep sampleScheme sampleTokenOf) sampleReclaimed ∧
      (∀ tokenId, (sampleTokenOf tokenId).claims.jti = tokenId) ∧
      ∃ r ∈ sampleReclaimed.published, ∃ r' ∈ sampleReclaimed.published,
        r.input.tokenId = "t" ∧ r'.input.tokenId = "t" ∧ r ≠ r' :=
  ⟨sampleReclaimed_reachable, fun _ => rfl, by decide +kernel⟩

theorem replica_claims_once_released :
    sampleReleased.published.length = 1 ∧ sampleReleased.claimed = [("t", 0)] ∧
      ∀ r ∈ sampleReleased.published, ∀ r' ∈ sampleReleased.published,
        r.input.tokenId = "t" → r'.input.tokenId = "t" → r = r' := by
  refine ⟨by decide +kernel, by decide +kernel,
    (replica_claims_once (fun _ => rfl) sampleReleased_reachable).2 "t" fun at_ hat => ?_⟩
  have hat : at_ = 0 := (Prod.mk.inj (mem_singleton.1 hat)).2
  rw [hat]
  exact ⟨_, _, _, sampleToken_verified⟩

end Monoize
