import Monoize.AdmissionDisk
import Monoize.Transition

/-! The bytes the claim store accounts for against the bytes of its files. -/

namespace Monoize

open Fallible Relational Transition List Table
open AdmissionSpool

variable {s t : AdmissionSpool} {m : ClaimMarker}

def DiskEvent.Quiet : DiskEvent → Prop
  | claimed _ | cleaned _ => False
  | terminated _ | rewritten _ _ | retired _ => True

structure Effect [Sha256] (s t : AdmissionSpool) (events : List DiskEvent) : Prop where
  run : DiskRun events s.store t.store
  accounted : t.accounted = s.accounted + eventBytes events

theorem Effect.idle [Sha256] (hstore : t.store = s.store) (haccounted : t.accounted = s.accounted) : Effect s t [] := by
  refine ⟨?_, ?_⟩
  · rw [hstore]
    exact .nil
  · rw [haccounted, eventBytes]
    simp

theorem Effect.append [Sha256] {u : AdmissionSpool} {events more : List DiskEvent} (h : Effect s t events)
    (h' : Effect t u more) : Effect s u (events ++ more) := by
  refine ⟨h.run.append h'.run, ?_⟩
  rw [h'.accounted, h.accounted, eventBytes, eventBytes, eventBytes, map_append, sum_append]
  omega

theorem Effect.single [Sha256] {e : DiskEvent} (h : DiskStep e s.store t.store)
    (haccounted : t.accounted = s.accounted + e.bytes) : Effect s t [e] :=
  ⟨.single h, by simpa [eventBytes] using haccounted⟩

/-- The store changed by events that neither claim nor clean, and the spool accounts for them. -/
def QuietEffect [Sha256] (s t : AdmissionSpool) : Prop :=
  ∃ events, Effect s t events ∧ ∀ e ∈ events, e.Quiet

theorem QuietEffect.idle [Sha256] (hstore : t.store = s.store) (haccounted : t.accounted = s.accounted) :
    QuietEffect s t :=
  ⟨[], .idle hstore haccounted, forall_mem_nil _⟩

theorem QuietEffect.single [Sha256] {e : DiskEvent} (h : DiskStep e s.store t.store)
    (haccounted : t.accounted = s.accounted + e.bytes) (he : e.Quiet) : QuietEffect s t :=
  ⟨_, .single h haccounted, forall_mem_singleton.2 he⟩

theorem QuietEffect.trans [Sha256] {u : AdmissionSpool} (h : QuietEffect s t) (h' : QuietEffect t u) :
    QuietEffect s u := by
  obtain ⟨events, heffect, hquiet⟩ := h
  obtain ⟨more, hmore, hquiet'⟩ := h'
  exact ⟨_, heffect.append hmore, forall_mem_append.2 ⟨hquiet, hquiet'⟩⟩

/-- As a quiet effect, but the bytes, counted from a start, are right under a condition only. -/
def QuietRun [Sha256] (s t : AdmissionSpool) (start : Int) (settles : Prop) : Prop :=
  ∃ events, DiskRun events s.store t.store ∧ (∀ e ∈ events, e.Quiet) ∧
    (t.accounted = start + eventBytes events ↔ settles)

theorem QuietRun.idle [Sha256] {settles : Prop} (hstore : t.store = s.store) (haccounted : t.accounted = s.accounted)
    (h : settles) : QuietRun s t s.accounted settles :=
  have heffect : Effect s t [] := .idle hstore haccounted
  ⟨[], heffect.run, forall_mem_nil _, iff_of_true heffect.accounted h⟩

theorem durablePublishNew_published {present : Bool} {faults : PublishFaults} :
    durablePublishNew present faults = .published ↔ present = false ∧ faults.write = false ∧ faults.link = false := by
  cases present <;> cases hw : faults.write <;> cases hl : faults.link <;> simp [durablePublishNew, hw, hl]

namespace AdmissionSpool

theorem claim_effect [Sha256] (s : AdmissionSpool) (a : VerifiedAdmission) (faults : PublishFaults) :
    Effect s (s.claim a faults).2 [] ∧ (s.claim a faults).1 ≠ .ok () ∨
      Effect s (s.claim a faults).2 [.claimed (claimMarker a)] := by
  unfold claim
  dsimp only
  split
  · exact .inl ⟨.idle rfl rfl, nofun⟩
  split
  · exact .inl ⟨.idle rfl rfl, nofun⟩
  split
  · rename_i hvalid _ _ _ claims hins _
    exact .inr (.single (.claim a claims (not_not.1 hvalid) hins) rfl)
  · exact .inl ⟨.idle rfl rfl, nofun⟩
  · exact .inl ⟨.idle rfl rfl, nofun⟩

theorem spoolTerminal_effect [Sha256] (s : AdmissionSpool) (input : TerminalSpoolInput) (faults : PublishFaults) :
    Effect s (s.spoolTerminal input faults).2 [] ∨
      Effect s (s.spoolTerminal input faults).2 [.terminated (spoolRecord input)] := by
  unfold spoolTerminal
  dsimp only
  split
  · exact .inl (.idle rfl rfl)
  split
  · exact .inl (.idle rfl rfl)
  split
  · exact .inl (.idle rfl rfl)
  split
  · exact .inl (.idle rfl rfl)
  split
  · rename_i hvalid hsize _ m hread hmatch _ _ terminals hins _
    obtain ⟨hm, hid, -⟩ := readClaim_ok hread
    simp only [not_or, not_not] at hmatch
    obtain ⟨hopen, hres, hreq, haud⟩ := hmatch
    exact .inr (.single (.terminate m _ terminals hm hopen ⟨hid, hres, hreq, haud⟩
      ⟨not_lt.1 hsize, not_not.1 hvalid, rfl⟩ hins) rfl)
  · split
    · exact .inl (.idle rfl rfl)
    · split_ifs
      all_goals exact .inl (.idle rfl rfl)
  · exact .inl (.idle rfl rfl)

theorem retireTerminal_effect [Sha256] {terminal : TerminalSpoolRecord} (faults : AcknowledgeFaults)
    (hm : m ∈ s.store.claims.rows)
    (hack : m.acknowledgedAt ≠ none) (hterminal : findTerminal s.store m.tokenId = some terminal) :
    QuietEffect s (s.retireTerminal terminal faults).2 := by
  unfold retireTerminal
  split
  · exact .idle rfl rfl
  · have hid := (findTerminal_mem hterminal).2
    rw [hid]
    exact .single (.retire m terminal hm hack hterminal) (sub_eq_add_neg _ _) trivial

theorem acknowledgeTerminal_effect [Sha256] (s : AdmissionSpool) (tokenId digest : String) (now : Instant)
    (faults : AcknowledgeFaults) : QuietEffect s (s.acknowledgeTerminal tokenId digest now faults).2 := by
  unfold acknowledgeTerminal
  split
  · exact .idle rfl rfl
  split
  · exact .idle rfl rfl
  split
  · exact .idle rfl rfl
  rename_i m hread
  obtain ⟨hm, rfl, hvalid⟩ := readClaim_ok hread
  split
  · split <;> exact .idle rfl rfl
  rename_i terminal hterminal
  split
  · exact .idle rfl rfl
  split
  · exact .idle rfl rfl
  split
  · rename_i hack
    exact retireTerminal_effect faults hm hack hterminal
  rename_i hack
  split
  · -- the marker is acknowledged first, and its bytes are accounted for before the sync
    have hrewrite : QuietEffect s
        { s.rewrite m.tokenId (acknowledgedMarker now) with
          accounted := s.accounted + (claimBytes (acknowledgedMarker now m) - claimBytes m) } :=
      .single (.rewrite m (acknowledgedMarker now) _ hm ⟨rfl, rfl, rfl, rfl, rfl⟩ hvalid
        (.inr ⟨not_not.1 hack, terminal, hterminal⟩)) rfl trivial
    split
    · exact hrewrite
    have hm' : acknowledgedMarker now m ∈
        (s.store.claims.update (·.tokenId = m.tokenId) (acknowledgedMarker now)).rows := by
      rw [mem_update]
      exact ⟨m, hm, by simp⟩
    exact hrewrite.trans (retireTerminal_effect faults hm' (Option.some_ne_none now) hterminal)
  · exact .idle rfl rfl

theorem publishReleases_effect [Sha256] (createdAt : Instant) (faults : Nat → PublishFaults) (pending : List ClaimMarker) :
    ∀ (s : AdmissionSpool) (i : Nat),
      QuietEffect s (s.publishReleases createdAt faults i pending).2 := by
  induction pending with
  | nil => exact fun s i => .idle rfl rfl
  | cons m rest ih =>
    intro s i
    have hfirst : QuietEffect s
        (s.spoolTerminal (terminalFromClaim m .release createdAt) (faults i)).2 := by
      rcases spoolTerminal_effect s (terminalFromClaim m .release createdAt) (faults i) with h | h
      · exact ⟨_, h, forall_mem_nil _⟩
      · exact ⟨_, h, forall_mem_singleton.2 trivial⟩
    rw [publishReleases]
    split
    · rename_i t ht
      rwa [ht] at hfirst
    · rename_i t ht
      rw [ht] at hfirst
      exact hfirst.trans (ih t (i + 1))

theorem publishReleasePending_effect [Sha256] (s : AdmissionSpool) (createdAt : Instant) (faults : Nat → PublishFaults) :
    QuietEffect s (s.publishReleasePending createdAt faults).2 := by
  unfold publishReleasePending
  split
  · exact .idle rfl rfl
  have heffect := publishReleases_effect createdAt faults s.pendingReleases s 0
  split
  all_goals
    rename_i t ht
    rwa [ht] at heffect

def RestateSettles (s : AdmissionSpool) (tokenId : String)
    (mutate : ClaimMarker → Except AdmissionError (ClaimState × Option Instant)) (faults : ReplaceFaults) : Prop :=
  ∀ m state routedAt, identifierIsValid tokenId → readClaim s.store tokenId = .ok m →
    mutate m = .ok (state, routedAt) → claimIsValid (markedAs state routedAt m) → faults.replaces = true →
      faults.sync = true → claimBytes (markedAs state routedAt m) = claimBytes m

theorem eventBytes_nil : eventBytes [] = 0 := rfl

theorem eventBytes_cons (e : DiskEvent) (events : List DiskEvent) :
    eventBytes (e :: events) = e.bytes + eventBytes events := by
  rw [eventBytes, map_cons, sum_cons, eventBytes]

theorem replaceClaimState_effect [Sha256] (s : AdmissionSpool) (tokenId : String)
    (mutate : ClaimMarker → Except AdmissionError (ClaimState × Option Instant)) (faults : ReplaceFaults) :
    QuietRun s (s.replaceClaimState tokenId mutate faults).2 s.accounted
      (s.RestateSettles tokenId mutate faults) := by
  unfold replaceClaimState
  dsimp only
  split
  · rename_i hid
    exact .idle rfl rfl fun _ _ _ h => absurd h hid
  rename_i hid
  split
  · rename_i e hread
    refine .idle rfl rfl fun m _ _ _ h => ?_
    rw [hread] at h
    cases h
  rename_i m hread
  split
  · rename_i e hmutate
    refine .idle rfl rfl fun n _ _ _ h h' => ?_
    rw [hread] at h
    cases h
    rw [hmutate] at h'
    cases h'
  rename_i state routedAt hmutate
  -- the operation reads one claim and writes one
  have hsettles : s.RestateSettles tokenId mutate faults ↔ (claimIsValid (markedAs state routedAt m) →
      faults.replaces = true → faults.sync = true → claimBytes (markedAs state routedAt m) = claimBytes m) := by
    constructor
    · exact fun h => h m state routedAt (not_not.1 hid) hread hmutate
    · intro h n state' routedAt' _ hread' hmutate'
      rw [hread] at hread'
      cases hread'
      rw [hmutate] at hmutate'
      cases hmutate'
      exact h
  split
  · rename_i hvalid
    exact .idle rfl rfl (hsettles.2 fun h => absurd h hvalid)
  rename_i hvalid
  split
  · rename_i hsame
    exact .idle rfl rfl (hsettles.2 fun _ _ _ => by rw [hsame])
  split
  · rename_i hreplaces
    obtain ⟨hm, rfl, -⟩ := readClaim_ok hread
    have hrun : DiskRun [.rewritten m (markedAs state routedAt m)] s.store
        (s.rewrite m.tokenId (markedAs state routedAt)).store :=
      .single (.rewrite m (markedAs state routedAt) _ hm ⟨rfl, rfl, rfl, rfl, rfl⟩ (not_not.1 hvalid) (.inl rfl))
    have hquiet : ∀ e ∈ [DiskEvent.rewritten m (markedAs state routedAt m)], e.Quiet :=
      forall_mem_singleton.2 trivial
    rw [hsettles]
    split
    · rename_i hsync
      refine ⟨_, hrun, hquiet, ?_⟩
      rw [eventBytes_cons, eventBytes_nil, DiskEvent.bytes]
      show s.accounted = _ ↔ _
      constructor
      · omega
      · intro h
        have := h (not_not.1 hvalid) hreplaces hsync
        omega
    · rename_i hsync
      refine ⟨_, hrun, hquiet, iff_of_true ?_ fun _ _ h => absurd h hsync⟩
      rw [eventBytes_cons, eventBytes_nil, DiskEvent.bytes]
      show s.accounted + _ = _
      omega
  · rename_i hreplaces
    exact .idle rfl rfl (hsettles.2 fun _ h => absurd h hreplaces)

theorem claimBytes_pos (m : ClaimMarker) : 0 < claimBytes m := by
  have hbrace : ("\x7b" : String).utf8ByteSize = 1 := by decide
  unfold claimBytes claimJson jsonObject
  rw [String.utf8ByteSize_append, String.utf8ByteSize_append]
  omega

theorem totalBytes_pos {claims : List ClaimMarker} (h : claims ≠ []) : 0 < totalBytes claims := by
  obtain ⟨m, rest, rfl⟩ := exists_cons_of_ne_nil h
  have hrest : 0 ≤ (rest.map claimBytes).sum :=
    sum_nonneg (forall_mem_map.2 fun n _ => (claimBytes_pos n).le)
  have := claimBytes_pos m
  rw [totalBytes, map_cons, sum_cons]
  omega

theorem removeClaims_run [Sha256] (faults : Nat → Bool) (claims : List ClaimMarker) :
    ∀ (s : AdmissionSpool) (i : Nat), (claims.map (·.tokenId)).Nodup →
      (∀ m ∈ claims, m ∈ s.store.claims.rows ∧ m.acknowledgedAt ≠ none ∧ findTerminal s.store m.tokenId = none) →
      ∃ removed rest, claims = removed ++ rest ∧
        DiskRun (removed.map .cleaned) s.store (s.removeClaims faults i claims).2.store ∧
        (s.removeClaims faults i claims).2.accounted = s.accounted ∧
        (∀ j < removed.length, faults (i + j) = false) ∧
        ((s.removeClaims faults i claims).1 = .ok () ∧ rest = [] ∨
          (∃ e, (s.removeClaims faults i claims).1 = .error e) ∧ faults (i + removed.length) = true ∧ rest ≠ []) := by
  induction claims with
  | nil => exact fun s i _ _ => ⟨[], [], rfl, .nil, rfl, nofun, .inl ⟨rfl, rfl⟩⟩
  | cons m claims ih =>
    intro s i hnodup hmem
    rw [map_cons, nodup_cons] at hnodup
    rw [removeClaims]
    split
    · rename_i hfault
      exact ⟨[], _, rfl, .nil, rfl, nofun, .inr ⟨⟨_, rfl⟩, hfault, cons_ne_nil _ _⟩⟩
    rename_i hfault
    have hothers : ∀ n ∈ claims, n ∈ (s.removeClaim m).store.claims.rows ∧ n.acknowledgedAt ≠ none ∧
        findTerminal (s.removeClaim m).store n.tokenId = none := by
      intro n hn
      obtain ⟨hrow, hack, hnone⟩ := hmem n (mem_cons_of_mem _ hn)
      have hne : n.tokenId ≠ m.tokenId := fun e => hnodup.1 (mem_map.2 ⟨n, hn, e⟩)
      exact ⟨mem_filter.2 ⟨hrow, by simpa using hne⟩, hack, hnone⟩
    obtain ⟨removed, rest, rfl, hrun, haccounted, hclean, hresult⟩ := ih (s.removeClaim m) (i + 1) hnodup.2 hothers
    obtain ⟨hrow, hack, hnone⟩ := hmem m mem_cons_self
    refine ⟨m :: removed, rest, rfl, .cons (.clean m hrow hack hnone) hrun, haccounted, ?_, ?_⟩
    · intro j hj
      cases j with
      | zero => simpa using hfault
      | succ j =>
        have hj' : j < removed.length := by simpa using hj
        have := hclean j hj'
        rwa [Nat.add_right_comm] at this
    · rcases hresult with h | ⟨he, h, hrest⟩
      · exact .inl h
      · refine .inr ⟨he, ?_, hrest⟩
        rw [length_cons, ← Nat.add_assoc, Nat.add_right_comm]
        exact h

theorem eventBytes_cleaned (claims : List ClaimMarker) : eventBytes (claims.map .cleaned) = - totalBytes claims := by
  induction claims with
  | nil => rfl
  | cons m claims ih =>
    rw [map_cons, eventBytes_cons, ih, totalBytes, totalBytes, map_cons, sum_cons, DiskEvent.bytes]
    omega

theorem claims_nodup (store : ClaimStore) : (store.claims.rows.map (·.tokenId)).Nodup := by
  rw [List.Nodup, pairwise_map]
  exact store.claims.distinct

def CleanupSettles (s : AdmissionSpool) (now : Instant) (faults : CleanupFaults) : Prop :=
  s.finished now = [] ∨ faults.remove 0 = true ∨
    (∀ i < (s.finished now).length, faults.remove i = false) ∧ faults.sync = false

theorem cleanupAcknowledged_effect [Sha256] {s : AdmissionSpool} (hs : StoreSound s.store) (now : Instant)
    (faults : CleanupFaults) :
    ∃ events, DiskRun events s.store (s.cleanupAcknowledged now faults).2.store ∧
      (∀ e ∈ events, ∃ m, e = .cleaned m ∧ m.expiresAt + seconds 300 ≤ now) ∧
      ((s.cleanupAcknowledged now faults).2.accounted = s.accounted + eventBytes events ↔
        s.CleanupSettles now faults) := by
  have hfinished : ∀ m ∈ s.finished now, m ∈ s.store.claims.rows ∧ m.acknowledgedAt ≠ none ∧
      m.expiresAt + seconds 300 ≤ now ∧ findTerminal s.store m.tokenId = none := by
    intro m hm
    obtain ⟨hrow, h⟩ := mem_filter.1 hm
    exact ⟨hrow, of_decide_eq_true h⟩
  have hnodup : ((s.finished now).map (·.tokenId)).Nodup :=
    (claims_nodup s.store).sublist (filter_sublist.map _)
  obtain ⟨removed, rest, hsplit, hrun, haccounted, hclean, hresult⟩ := removeClaims_run faults.remove
    (s.finished now) s 0 hnodup fun m hm => ⟨(hfinished m hm).1, (hfinished m hm).2.1, (hfinished m hm).2.2.2⟩
  have hevents : ∀ e ∈ removed.map DiskEvent.cleaned, ∃ m, e = .cleaned m ∧ m.expiresAt + seconds 300 ≤ now := by
    intro e he
    obtain ⟨m, hm, rfl⟩ := mem_map.1 he
    refine ⟨m, rfl, (hfinished m ?_).2.2.1⟩
    rw [hsplit]
    exact mem_append_left _ hm
  have hbytes := eventBytes_cleaned removed
  simp only [Nat.zero_add] at hclean hresult
  unfold cleanupAcknowledged
  have hreadable : s.claimsReadable := hs.claims
  rw [if_neg (not_not.2 hreadable)]
  dsimp only
  split
  · -- a removal failed: nothing is given back
    rename_i e t ht
    rw [ht] at hrun haccounted hresult
    refine ⟨_, hrun, hevents, ?_⟩
    rw [haccounted, hbytes]
    obtain ⟨hfault, hrest⟩ : faults.remove removed.length = true ∧ rest ≠ [] := by
      rcases hresult with ⟨h, -⟩ | ⟨-, h⟩
      · cases h
      · exact h
    constructor
    · intro h
      have hnil : removed = [] := by
        by_contra hne
        have := totalBytes_pos hne
        omega
      rw [hnil] at hfault
      exact .inr (.inl hfault)
    · intro h
      have hnil : removed = [] := by
        rcases h with h | h | ⟨h, -⟩
        · rw [h] at hsplit
          exact (append_eq_nil_iff.1 hsplit.symm).1
        · by_contra hne
          rw [hclean 0 (length_pos_iff.2 hne)] at h
          cases h
        have hlt : removed.length < (s.finished now).length := by
          rw [hsplit, length_append]
          have := length_pos_iff.2 hrest
          omega
        rw [h _ hlt] at hfault
        cases hfault
      rw [hnil, totalBytes]
      simp
  · rename_i t ht
    rw [ht] at hrun haccounted hresult
    have hrest : rest = [] := by
      rcases hresult with ⟨-, h⟩ | ⟨⟨e, h⟩, -⟩
      · exact h
      · cases h
    rw [hrest, append_nil] at hsplit
    rw [← hsplit] at hrun hevents hbytes hclean
    split
    · rename_i hnil
      refine ⟨_, hrun, hevents, iff_of_true ?_ (.inl hnil)⟩
      rw [haccounted, hbytes, hnil, totalBytes]
      simp
    rename_i hne
    have hpos := totalBytes_pos hne
    split
    · rename_i hsync
      refine ⟨_, hrun, hevents, ?_⟩
      rw [haccounted]
      refine iff_of_false (by omega) ?_
      rintro (h | h | ⟨-, h⟩)
      · exact hne h
      · rw [hclean 0 (length_pos_iff.2 hne)] at h
        cases h
      · rw [hsync] at h
        cases h
    · rename_i hsync
      refine ⟨_, hrun, hevents, iff_of_true ?_ (.inr (.inr ⟨hclean, ?_⟩))⟩
      · have haccounted : t.accounted = s.accounted := haccounted
        show t.accounted - totalBytes (s.finished now) = _
        omega
      · simpa using hsync

theorem recoveryRecord_of [Sha256] (createdAt : Instant) (m : ClaimMarker) : TerminalOf m (recoveryRecord createdAt m) :=
  ⟨rfl, rfl, rfl, rfl⟩

theorem recoveryRecord_valid [Sha256] (h : claimIsValid m) (createdAt : Instant) :
    inputIsValid (recoveryRecord createdAt m).input := by
  obtain ⟨htoken, hreservation, hrequest, haudience, hpos, -⟩ := h
  refine ⟨htoken, hreservation, hrequest, haudience, ?_⟩
  dsimp only [recoveryRecord]
  split
  · exact hpos.le
  · trivial

def recoveryLoses [Sha256] (createdAt : Instant) (faults : Nat → PublishFaults) :
    Nat → List ClaimMarker → Prop
  | _, [] => False
  | i, m :: rest =>
    terminalBytes (recoveryRecord createdAt m) ≤ terminalReservedBytes ∧ (faults i).write = false ∧
      (faults i).link = false ∧
      if (faults i).sync then terminalBytes (recoveryRecord createdAt m) ≠ terminalReservedBytes
      else recoveryLoses createdAt faults (i + 1) rest

theorem recoverClaim_effect [Sha256] {s : AdmissionSpool} (hm : m ∈ s.store.claims.rows) (hvalid : claimIsValid m)
    (hopen : m.acknowledgedAt = none) (hnone : findTerminal s.store m.tokenId = none) (createdAt : Instant)
    (faults : PublishFaults) : let record := recoveryRecord createdAt m
    let result := s.recoverClaim m createdAt faults
    (¬ (terminalBytes record ≤ terminalReservedBytes ∧ faults.write = false ∧ faults.link = false) ∧
        (∃ e, result.1 = .error e) ∧ Effect s result.2 []) ∨
      (terminalBytes record ≤ terminalReservedBytes ∧ faults.write = false ∧ faults.link = false) ∧
        DiskRun [.terminated record] s.store result.2.store ∧
        ((∃ e, result.1 = .error e) ∧ faults.sync = true ∧ result.2.accounted = s.accounted ∨
          result.1 = .ok () ∧ faults.sync = false ∧
            result.2.accounted = s.accounted + (terminalBytes record - terminalReservedBytes)) := by
  have hrecord := recoveryRecord_valid hvalid createdAt
  obtain ⟨terminals, hins⟩ : ∃ terminals, s.store.terminals.insert? (recoveryRecord createdAt m) =
      some terminals := by
    apply exists_insert
    intro r hr he
    exact findTerminal_none.1 hnone r hr he
  unfold recoverClaim
  dsimp only
  rw [if_neg (not_not.2 hrecord)]
  split
  · rename_i hsize
    exact .inl ⟨fun h => absurd hsize (not_lt.2 h.1), ⟨_, rfl⟩, .idle rfl rfl⟩
  rename_i hsize
  rw [hins]
  have unpublished (h : durablePublishNew (some terminals).isNone faults ≠ .published) :
      ¬ (terminalBytes (recoveryRecord createdAt m) ≤ terminalReservedBytes ∧ faults.write = false ∧
        faults.link = false) :=
    fun hclean => h (durablePublishNew_published.2 ⟨rfl, hclean.2⟩)
  cases hpublish : durablePublishNew (some terminals).isNone faults with
  | published =>
    obtain ⟨-, hwrite, hlink⟩ := durablePublishNew_published.1 hpublish
    refine .inr ⟨⟨not_lt.1 hsize, hwrite, hlink⟩, ?_⟩
    have hstep : DiskStep (.terminated (recoveryRecord createdAt m)) s.store
        { s.store with terminals := terminals } :=
      .terminate m _ terminals hm hopen (recoveryRecord_of createdAt m) ⟨not_lt.1 hsize, hrecord, rfl⟩ hins
    cases hsync : faults.sync with
    | true => exact ⟨.single hstep, .inl ⟨⟨_, rfl⟩, rfl, rfl⟩⟩
    | false => exact ⟨.single hstep, .inr ⟨rfl, rfl, rfl⟩⟩
  | present | failed =>
    exact .inl ⟨unpublished fun h => Publication.noConfusion (hpublish.symm.trans h), ⟨_, rfl⟩, .idle rfl rfl⟩

theorem terminated_rows [Sha256] {r : TerminalSpoolRecord} {store next : ClaimStore}
    (h : DiskRun [.terminated r] store next) :
    next.claims = store.claims ∧ next.terminals.rows = store.terminals.rows ++ [r] := by
  cases h with
  | cons step rest =>
    cases rest
    cases step with
    | terminate _ _ terminals _ _ _ _ hins => exact ⟨rfl, (insert?_eq_some.1 hins).2⟩

theorem recoverClaims_effect [Sha256] (createdAt : Instant) (faults : Nat → PublishFaults) (claims : List ClaimMarker) :
    ∀ (s : AdmissionSpool) (i : Nat), (claims.map (·.tokenId)).Nodup →
      (∀ m ∈ claims, m ∈ s.store.claims.rows ∧ claimIsValid m ∧ m.acknowledgedAt = none ∧
        findTerminal s.store m.tokenId = none) →
      QuietRun s (s.recoverClaims createdAt faults i claims).2 s.accounted
        (¬ recoveryLoses createdAt faults i claims) := by
  induction claims with
  | nil => exact fun s i _ _ => .idle rfl rfl not_false
  | cons m claims ih =>
    intro s i hnodup hmem
    rw [map_cons, nodup_cons] at hnodup
    obtain ⟨hm, hvalid, hopen, hnone⟩ := hmem m mem_cons_self
    have hround := recoverClaim_effect hm hvalid hopen hnone createdAt (faults i)
    rw [recoverClaims]
    cases hresult : s.recoverClaim m createdAt (faults i) with
    | mk outcome t =>
    rw [hresult] at hround
    rcases hround with ⟨hfault, ⟨e, he⟩, heffect⟩ | ⟨⟨hsize, hwrite, hlink⟩, hrun, hround⟩
    · subst he
      exact ⟨[], heffect.run, forall_mem_nil _, iff_of_true heffect.accounted fun h => hfault ⟨h.1, h.2.1, h.2.2.1⟩⟩
    have hquiet : ∀ e ∈ [DiskEvent.terminated (recoveryRecord createdAt m)], e.Quiet :=
      forall_mem_singleton.2 trivial
    rcases hround with ⟨⟨e, he⟩, hsync, haccounted⟩ | ⟨hok, hsync, haccounted⟩
    · have haccounted : t.accounted = s.accounted := haccounted
      subst he
      refine ⟨_, hrun, hquiet, ?_⟩
      rw [recoveryLoses, hsync, eventBytes_cons, eventBytes_nil, DiskEvent.bytes]
      show t.accounted = _ ↔ _
      constructor
      · intro h hloses
        exact hloses.2.2.2 (by omega)
      · intro h
        have : terminalBytes (recoveryRecord createdAt m) = terminalReservedBytes := by
          by_contra hne
          exact h ⟨hsize, hwrite, hlink, hne⟩
        omega
    · subst hok
      have hclaims : t.store.claims = s.store.claims ∧
          t.store.terminals.rows = s.store.terminals.rows ++ [recoveryRecord createdAt m] :=
        terminated_rows hrun
      have hothers : ∀ n ∈ claims, n ∈ t.store.claims.rows ∧ claimIsValid n ∧ n.acknowledgedAt = none ∧
          findTerminal t.store n.tokenId = none := by
        intro n hn
        obtain ⟨hrow, hv, ho, hnone⟩ := hmem n (mem_cons_of_mem _ hn)
        rw [hclaims.1]
        refine ⟨hrow, hv, ho, findTerminal_none.2 ?_⟩
        intro r hr he
        rw [hclaims.2] at hr
        rcases mem_append.1 hr with hr | hr
        · exact findTerminal_none.1 hnone r hr he
        · rw [mem_singleton.1 hr] at he
          exact hnodup.1 (mem_map.2 ⟨n, hn, he.symm⟩)
      obtain ⟨events, hrun', hquiet', hsettles⟩ := ih t (i + 1) hnodup.2 hothers
      refine ⟨_, hrun.append hrun', forall_mem_append.2 ⟨hquiet, hquiet'⟩, ?_⟩
      have hloses : recoveryLoses createdAt faults i (m :: claims) ↔
          recoveryLoses createdAt faults (i + 1) claims := by
        rw [recoveryLoses, hsync]
        exact ⟨fun h => h.2.2.2, fun h => ⟨hsize, hwrite, hlink, h⟩⟩
      rw [hloses, ← hsettles, singleton_append, eventBytes_cons, haccounted, DiskEvent.bytes]
      show (t.recoverClaims createdAt faults (i + 1) claims).2.accounted = _ ↔ _
      constructor
      · omega
      · omega

theorem restarted_frame (s : AdmissionSpool) (faults : OpenFaults) :
    (s.restarted faults).2.store = s.store ∧ (s.restarted faults).2.accounted = 0 := by
  unfold restarted
  dsimp only
  split <;> exact ⟨rfl, rfl⟩

theorem validateAndMeasure_eq [Sha256] {s : AdmissionSpool} (hs : StoreSound s.store) :
    s.validateAndMeasure =
      if measuredBytes s.store < 2 ^ 64 then .ok (measuredBytes s.store) else .error .spoolCorrupt := by
  have hclaims : s.claimsReadable := hs.claims
  have hclaimed : ∀ r ∈ s.store.terminals.rows, TerminalClaimed s.store r := by
    intro r hr
    obtain ⟨m, hm, hof⟩ := hs.claimed r hr
    exact ⟨m, hm, hof.tokenId, hof.reservationId, hof.requestId, hof.audience⟩
  unfold validateAndMeasure require
  rw [if_pos hclaims, if_pos hs.terminals, if_pos hclaimed]
  split <;> rfl

/-- The bytes of a reopened store: none if it could not be measured, and those of the files unless a round of the
recovery loses them. -/
def OpenSettles [Sha256] (s : AdmissionSpool) (createdAt : Instant) (faults : OpenFaults) : Prop :=
  if (s.restarted faults).1 = true ∧ measuredBytes s.store < 2 ^ 64 then
    ¬ recoveryLoses createdAt faults.recover 0 (abandonedClaims s.store)
  else s.store.claims.rows = []

theorem measuredBytes_eq_zero {store : ClaimStore} : measuredBytes store = 0 ↔ store.claims.rows = [] := by
  constructor
  · intro h
    by_contra hne
    have hreserved (m : ClaimMarker) : 0 ≤ reservedBytes store m := by
      unfold reservedBytes
      split
      · exact Int.natCast_nonneg _
      · split
        · decide
        · exact le_rfl
    have hpos := totalBytes_pos hne
    have hle : store.claims.total claimBytes ≤ measuredBytes store :=
      total_le fun m _ => by
        have := hreserved m
        omega
    have heq : store.claims.total claimBytes = totalBytes store.claims.rows := rfl
    omega
  · intro h
    rw [measuredBytes, total, h]
    rfl

theorem openWithCapacity_effect [Sha256] {s : AdmissionSpool} (hs : StoreSound s.store) (createdAt : Instant)
    (faults : OpenFaults) :
    QuietRun s (s.openWithCapacity createdAt faults).2 (measuredBytes s.store)
      (OpenSettles s createdAt faults) := by
  obtain ⟨hstore, hzero⟩ := restarted_frame s faults
  have closed (t : AdmissionSpool) (hstore : t.store = s.store) (hzero : t.accounted = 0)
      (h : ¬ ((s.restarted faults).1 = true ∧ measuredBytes s.store < 2 ^ 64)) :
      QuietRun s t (measuredBytes s.store) (OpenSettles s createdAt faults) := by
    refine ⟨[], ?_, forall_mem_nil _, ?_⟩
    · rw [hstore]
      exact .nil
    · rw [OpenSettles, if_neg h, ← measuredBytes_eq_zero, eventBytes_nil]
      omega
  unfold openWithCapacity
  cases hrestarted : s.restarted faults with
  | mk opened t =>
  rw [hrestarted] at hstore hzero
  cases opened with
  | false =>
    refine closed t hstore hzero ?_
    rw [hrestarted]
    exact fun h => absurd h.1 Bool.false_ne_true
  | true =>
    have hmeasured : t.validateAndMeasure =
        if measuredBytes s.store < 2 ^ 64 then .ok (measuredBytes s.store) else .error .spoolCorrupt := by
      have h := validateAndMeasure_eq (s := t) (hstore ▸ hs)
      rwa [hstore] at h
    dsimp only
    rw [hmeasured]
    by_cases hfits : measuredBytes s.store < 2 ^ 64
    · rw [if_pos hfits]
      have habandoned : ∀ m ∈ abandonedClaims t.store, m ∈ t.store.claims.rows ∧ claimIsValid m ∧
          m.acknowledgedAt = none ∧ findTerminal t.store m.tokenId = none := by
        intro m hm
        obtain ⟨hrow, h⟩ := mem_filter.1 hm
        obtain ⟨hopen, hnone⟩ := of_decide_eq_true h
        exact ⟨hrow, hs.claims m (hstore ▸ hrow), hopen, hnone⟩
      have hnodup : ((abandonedClaims t.store).map (·.tokenId)).Nodup :=
        (claims_nodup t.store).sublist (filter_sublist.map _)
      obtain ⟨events, hrun, hquiet, hsettles⟩ := recoverClaims_effect createdAt faults.recover
        (abandonedClaims t.store) { t with accounted := measuredBytes s.store } 0 hnodup habandoned
      refine ⟨events, hstore ▸ hrun, hquiet, ?_⟩
      rw [OpenSettles, hrestarted, if_pos ⟨rfl, hfits⟩, ← hstore]
      rw [← hstore] at hsettles
      exact hsettles
    · rw [if_neg hfits]
      exact closed t hstore hzero fun h => hfits h.2

def Exact (s : AdmissionSpool) : Prop := s.accounted = measuredBytes s.store
  deriving Decidable

end AdmissionSpool

inductive SpoolCall
  | claim (a : VerifiedAdmission) (faults : PublishFaults)
  | spoolTerminal (input : TerminalSpoolInput) (faults : PublishFaults)
  | acknowledgeTerminal (tokenId digest : String) (now : Instant) (faults : AcknowledgeFaults)
  | markConfirmed (tokenId : String) (faults : ReplaceFaults)
  | markRouted (tokenId : String) (routedAt : Instant) (faults : ReplaceFaults)
  | markReleasePending (tokenId : String) (faults : ReplaceFaults)
  | publishReleasePending (createdAt : Instant) (faults : Nat → PublishFaults)
  | cleanupAcknowledged (now : Instant) (faults : CleanupFaults)
  | reopen (createdAt : Instant) (faults : OpenFaults)
  | others (elsewhere : Int)

namespace SpoolCall

def run [Sha256] (s : AdmissionSpool) : SpoolCall → AdmissionSpool
  | claim a faults => (s.claim a faults).2
  | spoolTerminal input faults => (s.spoolTerminal input faults).2
  | acknowledgeTerminal tokenId digest now faults => (s.acknowledgeTerminal tokenId digest now faults).2
  | markConfirmed tokenId faults => (s.markConfirmed tokenId faults).2
  | markRouted tokenId routedAt faults => (s.markRouted tokenId routedAt faults).2
  | markReleasePending tokenId faults => (s.markReleasePending tokenId faults).2
  | publishReleasePending createdAt faults => (s.publishReleasePending createdAt faults).2
  | cleanupAcknowledged now faults => (s.cleanupAcknowledged now faults).2
  | reopen createdAt faults => (s.openWithCapacity createdAt faults).2
  | others elsewhere => { s with elsewhere := elsewhere }

/-- The condition on the state and the failing steps under which a call keeps the bytes exact. -/
def Settles [Sha256] (s : AdmissionSpool) : SpoolCall → Prop
  | claim _ _ | spoolTerminal _ _ | acknowledgeTerminal _ _ _ _ | publishReleasePending _ _ | others _ => True
  | markConfirmed tokenId faults => s.RestateSettles tokenId ClaimMarker.confirm faults
  | markRouted tokenId routedAt faults => s.RestateSettles tokenId (ClaimMarker.route routedAt) faults
  | markReleasePending tokenId faults => s.RestateSettles tokenId ClaimMarker.releaseLater faults
  | cleanupAcknowledged now faults => s.CleanupSettles now faults
  | reopen createdAt faults => OpenSettles s createdAt faults

def Emits : SpoolCall → DiskEvent → Prop
  | claim a _, e => e = .claimed (claimMarker a)
  | cleanupAcknowledged now _, e => ∃ m, e = .cleaned m ∧ m.expiresAt + seconds 300 ≤ now
  | _, e => e.Quiet

def base (s : AdmissionSpool) : SpoolCall → Int
  | reopen _ _ => measuredBytes s.store
  | _ => s.accounted

theorem effect [Sha256] (hs : StoreSound s.store) (call : SpoolCall) :
    ∃ events, DiskRun events s.store (call.run s).store ∧ (∀ e ∈ events, call.Emits e) ∧
      ((call.run s).accounted = call.base s + eventBytes events ↔ call.Settles s) := by
  cases call with
  | claim a faults =>
    rcases claim_effect s a faults with ⟨h, -⟩ | h
    · exact ⟨_, h.run, forall_mem_nil _, iff_of_true h.accounted trivial⟩
    · exact ⟨_, h.run, forall_mem_singleton.2 rfl, iff_of_true h.accounted trivial⟩
  | spoolTerminal input faults =>
    rcases spoolTerminal_effect s input faults with h | h
    · exact ⟨_, h.run, forall_mem_nil _, iff_of_true h.accounted trivial⟩
    · exact ⟨_, h.run, forall_mem_singleton.2 trivial, iff_of_true h.accounted trivial⟩
  | acknowledgeTerminal tokenId digest now faults =>
    obtain ⟨events, h, hquiet⟩ := acknowledgeTerminal_effect s tokenId digest now faults
    exact ⟨events, h.run, hquiet, iff_of_true h.accounted trivial⟩
  | markConfirmed tokenId faults => exact replaceClaimState_effect s tokenId ClaimMarker.confirm faults
  | markRouted tokenId routedAt faults => exact replaceClaimState_effect s tokenId (ClaimMarker.route routedAt) faults
  | markReleasePending tokenId faults => exact replaceClaimState_effect s tokenId ClaimMarker.releaseLater faults
  | publishReleasePending createdAt faults =>
    obtain ⟨events, h, hquiet⟩ := publishReleasePending_effect s createdAt faults
    exact ⟨events, h.run, hquiet, iff_of_true h.accounted trivial⟩
  | cleanupAcknowledged now faults => exact cleanupAcknowledged_effect hs now faults
  | reopen createdAt faults => exact openWithCapacity_effect hs createdAt faults
  | others elsewhere => exact ⟨[], .nil, forall_mem_nil _, iff_of_true (by simp [run, base, eventBytes]) trivial⟩

theorem sound [Sha256] (hs : StoreSound s.store) (call : SpoolCall) : StoreSound (call.run s).store := by
  obtain ⟨events, hrun, -⟩ := effect hs call
  exact hrun.sound hs

theorem exact_iff [Sha256] (hs : StoreSound s.store) (hexact : s.Exact) (call : SpoolCall) :
    (call.run s).Exact ↔ call.Settles s := by
  obtain ⟨events, hrun, -, hsettles⟩ := effect hs call
  have hbase : call.base s = measuredBytes s.store := by
    cases call
    case reopen => rfl
    all_goals exact hexact
  rw [← hsettles, Exact, hrun.measured hs, hbase]

end SpoolCall

def Opened (maxBytes : Int) (s : AdmissionSpool) : Prop := s = { maxBytes := maxBytes }

def SpoolStep [Sha256] (s t : AdmissionSpool) : Prop := ∃ call : SpoolCall, t = call.run s

def SettledStep [Sha256] (s t : AdmissionSpool) : Prop :=
  ∃ call : SpoolCall, call.Settles s ∧ t = call.run s

theorem storeSound_empty [Sha256] : StoreSound {} := ⟨forall_mem_nil _, forall_mem_nil _, forall_mem_nil _⟩

theorem spool_sound [Sha256] {maxBytes : Int} (h : Reachable (Opened maxBytes) SpoolStep s) : StoreSound s.store := by
  induction h with
  | start hopened =>
    rw [hopened]
    exact storeSound_empty
  | next _ hstep ih =>
    obtain ⟨call, rfl⟩ := hstep
    exact call.sound ih

/-- After a call that settles, and after no other, the accounted bytes are those of the files. -/
theorem spool_exact_iff [Sha256] {maxBytes : Int} {s : AdmissionSpool} (h : Reachable (Opened maxBytes) SpoolStep s) :
    (s.Exact → ∀ call : SpoolCall, (call.run s).Exact ↔ call.Settles s) ∧
      (Reachable (Opened maxBytes) SettledStep s → s.Exact) ∧
      (measuredBytes s.store < 2 ^ 64 → s.validateAndMeasure = .ok (measuredBytes s.store)) := by
  refine ⟨fun hexact call => call.exact_iff (spool_sound h) hexact, ?_, ?_⟩
  · intro hsettled
    have hinv : StoreSound s.store ∧ s.Exact := by
      clear h
      induction hsettled with
      | start hopened =>
        rw [hopened]
        exact ⟨storeSound_empty, rfl⟩
      | next _ hstep ih =>
        obtain ⟨call, hsettles, rfl⟩ := hstep
        exact ⟨call.sound ih.1, (call.exact_iff ih.1 ih.2).2 hsettles⟩
    exact hinv.2
  · intro hfits
    rw [validateAndMeasure_eq (spool_sound h), if_pos hfits]

def sampleSpoolAdmission : VerifiedAdmission := ⟨"a", "t", "r", "q", 1, 0⟩

open SampleDigests

def sampleSpool : AdmissionSpool := (SpoolCall.claim sampleSpoolAdmission {}).run { maxBytes := 1048576 }

theorem sampleSpool_reachable : Reachable (Opened 1048576) SpoolStep sampleSpool := by
  have hopened : Opened 1048576 { maxBytes := 1048576 } := Eq.refl _
  exact (Reachable.start hopened).next ⟨_, rfl⟩

theorem confirmation_loses_bytes :
    sampleSpool.Exact ∧ ¬ ((SpoolCall.markConfirmed "t" { sync := true }).run sampleSpool).Exact := by
  decide +kernel

theorem spool_exact_iff_claimed :
    Reachable (Opened 1048576) SpoolStep sampleSpool ∧ sampleSpool.Exact ∧
      ((SpoolCall.markConfirmed "t" {}).run sampleSpool).Exact := by
  have hexact : sampleSpool.Exact := by decide +kernel
  refine ⟨sampleSpool_reachable, hexact, ?_⟩
  rw [(spool_exact_iff sampleSpool_reachable).1 hexact]
  exact fun _ _ _ _ _ _ _ _ h => absurd h Bool.false_ne_true

end Monoize
