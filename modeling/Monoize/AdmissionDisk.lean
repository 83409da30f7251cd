import Monoize.AdmissionSpool

/-! What the operations of the claim store can do to its directories, file by file. -/

namespace Monoize

variable {next last : ClaimStore} {n : ClaimMarker}

open Fallible Relational List Table
open AdmissionSpool

variable {e : DiskEvent} {store s t : ClaimStore} {events : List DiskEvent} {m : ClaimMarker} {tokenId : String}
  {r : TerminalSpoolRecord}

inductive DiskEvent
  | claimed (m : ClaimMarker)
  | terminated (r : TerminalSpoolRecord)
  | rewritten (m next : ClaimMarker)
  | retired (r : TerminalSpoolRecord)
  | cleaned (m : ClaimMarker)

def DiskEvent.bytes : DiskEvent → Int
  | claimed m => claimBytes m + terminalReservedBytes
  | terminated r => terminalBytes r - terminalReservedBytes
  | rewritten m next => claimBytes next - claimBytes m
  | retired r => - terminalBytes r
  | cleaned m => - claimBytes m

def eventBytes (events : List DiskEvent) : Int := (events.map DiskEvent.bytes).sum

structure SameClaim (m next : ClaimMarker) : Prop where
  tokenId : next.tokenId = m.tokenId
  reservationId : next.reservationId = m.reservationId
  requestId : next.requestId = m.requestId
  audience : next.audience = m.audience
  expiresAt : next.expiresAt = m.expiresAt

structure TerminalOf (m : ClaimMarker) (r : TerminalSpoolRecord) : Prop where
  tokenId : m.tokenId = r.input.tokenId
  reservationId : m.reservationId = r.input.reservationId
  requestId : m.requestId = r.input.requestId
  audience : m.audience = r.input.audience

inductive DiskStep [Sha256] : DiskEvent → ClaimStore → ClaimStore → Prop
  | claim {store : ClaimStore} (a : VerifiedAdmission) (claims : Table ClaimMarker)
      (valid : claimIsValid (claimMarker a)) (hins : store.claims.insert? (claimMarker a) = some claims) :
      DiskStep (.claimed (claimMarker a)) store { store with claims := claims }
  | terminate {store : ClaimStore} (m : ClaimMarker) (r : TerminalSpoolRecord) (terminals : Table TerminalSpoolRecord)
      (hm : m ∈ store.claims.rows) (open_ : m.acknowledgedAt = none) (of : TerminalOf m r)
      (readable : terminalIsReadable r) (hins : store.terminals.insert? r = some terminals) :
      DiskStep (.terminated r) store { store with terminals := terminals }
  | rewrite {store : ClaimStore} (m : ClaimMarker) (f : ClaimMarker → ClaimMarker)
      (hf : ∀ m, Keyed.key (f m) = Keyed.key m) (hm : m ∈ store.claims.rows) (same : SameClaim m (f m))
      (valid : claimIsValid (f m))
      (acknowledged : (f m).acknowledgedAt = m.acknowledgedAt ∨
        m.acknowledgedAt = none ∧ ∃ r, findTerminal store m.tokenId = some r) :
      DiskStep (.rewritten m (f m)) store
        { store with claims := store.claims.update (·.tokenId = m.tokenId) f hf }
  | retire {store : ClaimStore} (m : ClaimMarker) (r : TerminalSpoolRecord) (hm : m ∈ store.claims.rows)
      (acknowledged : m.acknowledgedAt ≠ none) (hr : findTerminal store m.tokenId = some r) :
      DiskStep (.retired r) store
        { store with terminals := store.terminals.remove (·.input.tokenId = m.tokenId) }
  | clean {store : ClaimStore} (m : ClaimMarker) (hm : m ∈ store.claims.rows) (acknowledged : m.acknowledgedAt ≠ none)
      (hnone : findTerminal store m.tokenId = none) :
      DiskStep (.cleaned m) store
        { store with claims := store.claims.remove (·.tokenId = m.tokenId) }

inductive DiskRun [Sha256] : List DiskEvent → ClaimStore → ClaimStore → Prop
  | nil {store : ClaimStore} : DiskRun [] store store
  | cons {e : DiskEvent} {events : List DiskEvent} {store next last : ClaimStore} (step : DiskStep e store next)
      (run : DiskRun events next last) : DiskRun (e :: events) store last

theorem DiskRun.single [Sha256] (h : DiskStep e store next) :
    DiskRun [e] store next := .cons h .nil

theorem DiskRun.append [Sha256] {more : List DiskEvent} (h : DiskRun events store next)
    (h' : DiskRun more next last) : DiskRun (events ++ more) store last := by
  induction h with
  | nil => exact h'
  | cons step _ ih => exact .cons step (ih h')

theorem DiskRun.invariant [Sha256] {P : ClaimStore → Prop} (h : DiskRun events store last)
    (hstep : ∀ e s t, DiskStep e s t → P s → P t) (h₀ : P store) : P last := by
  induction h with
  | nil => exact h₀
  | cons step _ ih => exact ih (hstep _ _ _ step h₀)

structure StoreSound [Sha256] (store : ClaimStore) : Prop where
  claims : ∀ m ∈ store.claims.rows, claimIsValid m
  terminals : ∀ r ∈ store.terminals.rows, terminalIsReadable r
  claimed : ∀ r ∈ store.terminals.rows, ∃ m ∈ store.claims.rows, TerminalOf m r

theorem claims_unique (hm : m ∈ store.claims.rows) (hn : n ∈ store.claims.rows) (h : m.tokenId = n.tokenId) : m = n :=
  eq_of_clashes hm hn h

theorem findTerminal_mem (h : findTerminal store tokenId = some r) :
    r ∈ store.terminals.rows ∧ r.input.tokenId = tokenId := by
  have hid := of_find?_decide h
  exact ⟨mem_of_find? h, hid⟩

theorem findTerminal_none :
    findTerminal store tokenId = none ↔ ∀ r ∈ store.terminals.rows, r.input.tokenId ≠ tokenId := by
  simp [findTerminal, Table.find?]

theorem findTerminal_of_mem (h : r ∈ store.terminals.rows) : findTerminal store r.input.tokenId = some r :=
  find?_eq_some_of_mem h (decide_eq_true rfl) fun b hb =>
    show b.input.tokenId = r.input.tokenId from of_decide_eq_true hb

theorem findTerminal_remove_ne {removed : String} (hne : tokenId ≠ removed) :
    findTerminal { store with terminals := store.terminals.remove (·.input.tokenId = removed) } tokenId =
      findTerminal store tokenId := by
  rw [findTerminal, findTerminal, Table.find?, Table.find?, Table.remove_rows, List.find?_filter]
  congr 1
  funext r
  by_cases h : r.input.tokenId = tokenId
  · simp [h, hne]
  · simp [h]

theorem readClaim_ok (h : readClaim store tokenId = .ok m) :
    m ∈ store.claims.rows ∧ m.tokenId = tokenId ∧ claimIsValid m := by
  simp only [readClaim, ok_iff] at h
  obtain ⟨n, hn, _, hvalid, rfl⟩ := h
  have hid := of_find?_decide hn
  exact ⟨mem_of_find? hn, hid, hvalid⟩

/-- A change of a claim's state that the disk reports as done is the change of the store. -/
theorem replaceClaimState_refines {s : AdmissionSpool} {faults : ReplaceFaults}
    {mutate : ClaimMarker → Except AdmissionError (ClaimState × Option Instant)}
    (h : (s.replaceClaimState tokenId mutate faults).1 = .ok ()) :
    Monoize.replaceClaimState s.store tokenId mutate = .ok (s.replaceClaimState tokenId mutate faults).2.store := by
  unfold AdmissionSpool.replaceClaimState at h ⊢
  by_cases hid : identifierIsValid tokenId
  case neg => simp [hid] at h
  cases hread : readClaim s.store tokenId with
  | error e => simp [hid, hread] at h
  | ok m =>
    cases hmutate : mutate m with
    | error e => simp [hid, hread, hmutate] at h
    | ok target =>
      obtain ⟨state, routedAt⟩ := target
      by_cases hvalid : claimIsValid (markedAs state routedAt m)
      case neg => simp [hid, hread, hmutate, hvalid] at h
      obtain ⟨hm, rfl, -⟩ := readClaim_ok hread
      have hstore : Monoize.replaceClaimState s.store m.tokenId mutate =
          .ok (s.rewrite m.tokenId (markedAs state routedAt)).store := by
        simp only [Monoize.replaceClaimState, ok_iff]
        exact ⟨(), hid, m, hread, (state, routedAt), hmutate, (), hvalid, rfl⟩
      rw [hstore]
      by_cases hsame : markedAs state routedAt m = m
      · -- the claim of the token is rewritten by itself
        have hclaims : s.store.claims.update (·.tokenId = m.tokenId) (markedAs state routedAt) = s.store.claims := by
          rw [update_eq_self]
          intro n hn hid
          rw [claims_unique hn hm (of_decide_eq_true hid), hsame]
        rw [hsame] at hvalid
        simp [hid, hmutate, hvalid, hsame, AdmissionSpool.rewrite, hclaims]
      · cases hreplaces : faults.replaces <;> cases hsync : faults.sync <;>
          simp_all [AdmissionSpool.rewrite]

theorem DiskStep.sound [Sha256] (h : DiskStep e s t) (hs : StoreSound s) : StoreSound t := by
  cases h with
  | claim a claims valid hins =>
    refine ⟨fun m hm => ?_, hs.terminals, fun r hr => ?_⟩
    · rcases (mem_insert hins).1 hm with hm | rfl
      · exact hs.claims m hm
      · exact valid
    · obtain ⟨m, hm, hof⟩ := hs.claimed r hr
      exact ⟨m, (mem_insert hins).2 (.inl hm), hof⟩
  | terminate m r terminals hm _ of readable hins =>
    refine ⟨hs.claims, fun r' hr => ?_, fun r' hr => ?_⟩
    · rcases (mem_insert hins).1 hr with hr | rfl
      · exact hs.terminals r' hr
      · exact readable
    · rcases (mem_insert hins).1 hr with hr | rfl
      · exact hs.claimed r' hr
      · exact ⟨m, hm, of⟩
  | rewrite m f hf hm same valid _ =>
    have hnext (n : ClaimMarker) (hn : n ∈ s.claims.rows) (h : n.tokenId = m.tokenId) : n = m := claims_unique hn hm h
    refine ⟨fun n hn => ?_, hs.terminals, fun r hr => ?_⟩
    · have hn : n ∈ (s.claims.update (·.tokenId = m.tokenId) f hf).rows := hn
      obtain ⟨k, hk, rfl⟩ := mem_update.1 hn
      split
      · rename_i h
        rw [hnext k hk (of_decide_eq_true h)]
        exact valid
      · exact hs.claims k hk
    · obtain ⟨n, hn, hof⟩ := hs.claimed r hr
      have hkept : (if decide (n.tokenId = m.tokenId) then f n else n) ∈
          (s.claims.update (·.tokenId = m.tokenId) f hf).rows := mem_update.2 ⟨n, hn, rfl⟩
      refine ⟨_, hkept, ?_⟩
      split
      · rename_i h
        rw [hnext n hn (of_decide_eq_true h)] at hof ⊢
        exact ⟨same.tokenId.trans hof.tokenId, same.reservationId.trans hof.reservationId,
          same.requestId.trans hof.requestId, same.audience.trans hof.audience⟩
      · exact hof
  | retire m r hm _ hr =>
    exact ⟨hs.claims, fun r' h => hs.terminals r' (mem_of_mem_filter h),
      fun r' h => hs.claimed r' (mem_of_mem_filter h)⟩
  | clean m hm _ hnone =>
    refine ⟨fun n hn => hs.claims n (mem_of_mem_filter hn), hs.terminals, fun r hr => ?_⟩
    obtain ⟨n, hn, hof⟩ := hs.claimed r hr
    refine ⟨n, mem_filter.2 ⟨hn, ?_⟩, hof⟩
    have hne : n.tokenId ≠ m.tokenId := fun e => findTerminal_none.1 hnone r hr (hof.tokenId.symm.trans e)
    simpa using hne

theorem DiskRun.sound [Sha256] (h : DiskRun events s t) (hs : StoreSound s) : StoreSound t :=
  h.invariant (fun _ _ _ step => step.sound) hs

theorem reservedBytes_congr (h : findTerminal t n.tokenId = findTerminal s m.tokenId)
    (ha : n.acknowledgedAt = m.acknowledgedAt) : reservedBytes t n = reservedBytes s m := by
  rw [reservedBytes, reservedBytes, h, ha]

theorem reservedBytes_terminal (h : findTerminal s m.tokenId = some r) : reservedBytes s m = terminalBytes r := by
  rw [reservedBytes, h]

theorem measuredBytes_terminals (hclaims : t.claims = s.claims) (hm : m ∈ s.claims.rows)
    (h : ∀ n ∈ s.claims.rows, n.tokenId ≠ m.tokenId →
      findTerminal t n.tokenId = findTerminal s n.tokenId) :
    measuredBytes t = measuredBytes s + (reservedBytes t m - reservedBytes s m) := by
  have hsum (store : ClaimStore) (h : store.claims = s.claims) : measuredBytes store =
      s.claims.total claimBytes + s.claims.total (reservedBytes store) := by
    rw [measuredBytes, h, total_add]
  have hdiff : s.claims.total (reservedBytes t) =
      s.claims.total fun n =>
        reservedBytes s n + if n.tokenId = m.tokenId then reservedBytes t m - reservedBytes s m else 0 := by
    apply total_congr
    intro n hn
    split
    · rename_i he
      rw [claims_unique hn hm he]
      omega
    · rename_i he
      rw [reservedBytes_congr (h n hn he) rfl]
      omega
  have hone : (s.claims.total fun n => if n.tokenId = m.tokenId then reservedBytes t m - reservedBytes s m else 0) =
      reservedBytes t m - reservedBytes s m := by
    have h := total_single hm (p := fun n => decide (n.tokenId = m.tokenId)) (decide_eq_true rfl)
      (fun n _ hn => show n.tokenId = m.tokenId from of_decide_eq_true hn) fun _ => reservedBytes t m - reservedBytes s m
    simpa using h
  rw [hsum t hclaims, hsum s rfl, hdiff, total_add, hone]
  omega

theorem DiskStep.measured [Sha256] (h : DiskStep e s t) (hs : StoreSound s) :
    measuredBytes t = measuredBytes s + e.bytes := by
  cases h with
  | claim a claims valid hins =>
    have hfresh : findTerminal s (claimMarker a).tokenId = none := by
      rw [findTerminal_none]
      intro r hr he
      obtain ⟨m, hm, hof⟩ := hs.claimed r hr
      exact (insert?_eq_some.1 hins).1 m hm (hof.tokenId.trans he)
    have hreserved : reservedBytes s (claimMarker a) = terminalReservedBytes := by
      rw [reservedBytes, hfresh]
      rfl
    have htotal := total_insert hins fun m => claimBytes m + reservedBytes s m
    rw [hreserved] at htotal
    exact htotal
  | terminate m r terminals hm open_ of readable hins =>
    have hnone : findTerminal s m.tokenId = none := by
      rw [findTerminal_none]
      intro r' hr he
      exact (insert?_eq_some.1 hins).1 r' hr (he.trans of.tokenId)
    have hmem : r ∈ terminals.rows := (mem_insert hins).2 (.inr rfl)
    have hnow : findTerminal { s with terminals := terminals } m.tokenId = some r := by
      rw [of.tokenId]
      exact findTerminal_of_mem (r := r) hmem
    have hbefore : reservedBytes s m = terminalReservedBytes := by
      rw [reservedBytes, hnone]
      exact if_pos open_
    have hothers : ∀ n ∈ s.claims.rows, n.tokenId ≠ m.tokenId →
        findTerminal { s with terminals := terminals } n.tokenId = findTerminal s n.tokenId := by
      intro n hn hne
      exact find?_insert_of_neg hins (decide_eq_false fun e => hne (e.symm.trans of.tokenId.symm))
    have hdiff := measuredBytes_terminals (s := s) (t := { s with terminals := terminals }) rfl hm hothers
    rw [reservedBytes_terminal hnow, hbefore] at hdiff
    exact hdiff
  | rewrite m f hf hm same valid acknowledged =>
    have hreserved : reservedBytes s (f m) = reservedBytes s m := by
      rcases acknowledged with h | ⟨-, r, hr⟩
      · exact reservedBytes_congr (by rw [same.tokenId]) h
      · rw [reservedBytes_terminal hr, reservedBytes_terminal (r := r) (by rw [same.tokenId]; exact hr)]
    have hgoal : measuredBytes { s with claims := s.claims.update (·.tokenId = m.tokenId) f hf } =
        measuredBytes s - (claimBytes m + reservedBytes s m) + (claimBytes (f m) + reservedBytes s (f m)) :=
      @Table.total_update _ _ s.claims (fun n => decide (n.tokenId = m.tokenId)) f m hm hf (decide_eq_true rfl)
        (fun n _ hn => show n.tokenId = m.tokenId from of_decide_eq_true hn) fun n => claimBytes n + reservedBytes s n
    rw [hreserved] at hgoal
    rw [hgoal, DiskEvent.bytes]
    omega
  | retire m r hm acknowledged hr =>
    have hnow : reservedBytes { s with terminals := s.terminals.remove (·.input.tokenId = m.tokenId) } m = 0 := by
      have hnone : findTerminal { s with terminals := s.terminals.remove (·.input.tokenId = m.tokenId) } m.tokenId = none := by
        rw [findTerminal_none]
        intro r' hr'
        simpa using of_mem_filter hr'
      rw [reservedBytes, hnone]
      exact if_neg acknowledged
    have hothers : ∀ n ∈ s.claims.rows, n.tokenId ≠ m.tokenId →
        findTerminal { s with terminals := s.terminals.remove (·.input.tokenId = m.tokenId) } n.tokenId =
          findTerminal s n.tokenId := by
      intro n hn hne
      exact findTerminal_remove_ne hne
    have hdiff := measuredBytes_terminals (s := s)
        (t := { s with terminals := s.terminals.remove (·.input.tokenId = m.tokenId) })
      rfl hm hothers
    rw [hnow, reservedBytes_terminal hr] at hdiff
    rw [hdiff, DiskEvent.bytes]
    omega
  | clean m hm acknowledged hnone =>
    have hreserved : reservedBytes s m = 0 := by
      rw [reservedBytes, hnone]
      exact if_neg acknowledged
    have hone := total_single hm (p := fun n => decide (n.tokenId = m.tokenId)) (decide_eq_true rfl)
      (fun n _ hn => show n.tokenId = m.tokenId from of_decide_eq_true hn) fun n => claimBytes n + reservedBytes s n
    have hremove := total_remove s.claims (fun n => decide (n.tokenId = m.tokenId))
      fun n => claimBytes n + reservedBytes s n
    rw [hone, hreserved] at hremove
    have hgoal : measuredBytes { s with claims := s.claims.remove (·.tokenId = m.tokenId) } =
        measuredBytes s - (claimBytes m + 0) := hremove
    rw [hgoal, DiskEvent.bytes]
    omega

theorem DiskRun.measured [Sha256] (h : DiskRun events s t) (hs : StoreSound s) :
    measuredBytes t = measuredBytes s + eventBytes events := by
  induction h with
  | nil => simp [eventBytes]
  | cons step _ ih =>
    rw [ih (step.sound hs), step.measured hs, eventBytes, eventBytes, map_cons, sum_cons]
    omega

end Monoize
