import Monoize.RefundCompletion
import Monoize.SalesClaims
import Monoize.StoreFulfillable

/-! An agent's stored balance against the entries and withdrawals it sums up. -/

namespace Monoize

open Fallible MachineInt Relational Transition List Option Table SalesDesk

variable {s t : SalesDesk} {a : SalesAgent} {db next : Database} {e : CommissionEntry} {now : Instant}
  {agentUserId : String} {w : SalesWithdrawal} {f : SalesWithdrawal → SalesWithdrawal} {i n k : Nat}

variable {d rateBp : Int} {orderNumber submitted entryId withdrawalId : String} {w' : SalesWithdrawal}

def commissionOf (userId : String) (e : CommissionEntry) : Int :=
  if e.agentUserId = userId ∧ e.reversedAt = none then e.commissionFen else 0

def withdrawalOf (state : WithdrawalState) (userId : String) (w : SalesWithdrawal) : Int :=
  if w.agentUserId = userId ∧ w.state = state then w.amountFen else 0

def earned (entries : Table CommissionEntry) (userId : String) : Int := entries.total (commissionOf userId)

def withdrawn (withdrawals : Table SalesWithdrawal) (state : WithdrawalState) (userId : String) : Int :=
  withdrawals.total (withdrawalOf state userId)

def SalesDesk.owed (s : SalesDesk) (userId : String) : Int :=
  earned s.db.commissionEntries userId - withdrawn s.withdrawals .requested userId - withdrawn s.withdrawals .paid userId

structure DeskCredited (s t : SalesDesk) (a : SalesAgent) (d : Int) : Prop where
  agent : a ∈ s.db.salesAgents.rows
  agents : t.db.salesAgents = credited s.db.salesAgents a d
  owed : ∀ userId, t.owed userId = s.owed userId + if a.userId = userId then d else 0

def BalancesMatch (s : SalesDesk) : Prop :=
  ∀ a ∈ s.db.salesAgents.rows, a.commissionBalanceFen = wrapping 127 (s.owed a.userId)

theorem BalancesMatch.moved (h : BalancesMatch s) (hm : DeskCredited s t a d) : BalancesMatch t := by
  intro b' hb'
  rw [hm.agents] at hb'
  obtain ⟨b, hb, rfl⟩ := mem_update.1 hb'
  by_cases huser : b.userId = a.userId
  · rw [if_pos (decide_eq_true huser)]
    have hsum := hm.owed b.userId
    rw [if_pos huser.symm] at hsum
    calc wrapping 127 (a.commissionBalanceFen + d)
        = wrapping 127 (wrapping 127 (s.owed a.userId) + d) := by rw [h a hm.agent]
      _ = wrapping 127 (t.owed b.userId) := by rw [wrapping_add, hsum, huser]
  · rw [if_neg (fun hp => huser (of_decide_eq_true hp)), h b hb, hm.owed, if_neg (Ne.symm huser), Int.add_zero]

theorem BalancesMatch.managed (h : BalancesMatch s)
    (hagents : t.db.salesAgents = s.db.salesAgents ∨ AgentsManaged s.db.salesAgents t.db.salesAgents)
    (howed : ∀ userId, t.owed userId = s.owed userId)
    (hnew : ∀ userId, (∀ a ∈ s.db.salesAgents.rows, a.userId ≠ userId) → s.owed userId = 0) : BalancesMatch t := by
  intro b' hb'
  rcases hagents with hsame | hmanaged
  · rw [hsame] at hb'
    rw [h b' hb', howed]
  cases hmanaged with
  | enroll a hzero hinsert =>
    rcases (mem_insert hinsert).1 hb' with hb' | rfl
    · rw [h b' hb', howed]
    have hnone : ∀ a ∈ s.db.salesAgents.rows, a.userId ≠ b'.userId := by
      intro a ha hsame
      exact (insert?_eq_some.1 hinsert).1 a ha (.inl hsame)
    rw [hzero, howed, hnew _ hnone]
    rfl
  | edit p f hf hbalance hupdate =>
    rw [hupdate] at hb'
    obtain ⟨b, hb, rfl⟩ := mem_update.1 hb'
    split
    · have huser : (f b).userId = b.userId := congrArg Prod.fst (hf b)
      rw [hbalance, huser, howed]
      exact h b hb
    · rw [howed]
      exact h b hb

theorem EntryAccrued.earned (h : EntryAccrued db next e a) (userId : String) : earned next.commissionEntries userId =
      earned db.commissionEntries userId + if a.userId = userId then e.commissionFen else 0 := by
  rw [Monoize.earned, total_insert h.entries, Monoize.earned, commissionOf, h.agent.2]
  simp only [h.open_entry, and_true]

theorem EntryReversed.earned {now : Int} (h : EntryReversed db next e a now) (userId : String) :
    earned next.commissionEntries userId =
      earned db.commissionEntries userId + if a.userId = userId then -e.commissionFen else 0 := by
  have huniq : ∀ b ∈ db.commissionEntries.rows, decide (b.id = e.id ∧ b.reversedAt = none) = true → Clashes b e :=
    fun b _ hb => .inl (of_decide_eq_true hb).1
  rw [Monoize.earned, h.entries, total_update h.entry.1 (decide_eq_true ⟨rfl, h.entry.2⟩) huniq, Monoize.earned]
  simp only [commissionOf, withReversedAt, h.agent.2, h.entry.2, and_true, reduceCtorEq, and_false, if_false, Int.add_zero]
  split
  · rfl
  · rw [Int.sub_zero, Int.add_zero]

theorem DeskCredited.accrued (h : EntryAccrued s.db t.db e a) (hw : t.withdrawals = s.withdrawals) :
    DeskCredited s t a e.commissionFen := by
  refine ⟨h.agent.1, h.agents, ?_⟩
  intro userId
  rw [SalesDesk.owed, SalesDesk.owed, hw, h.earned]
  omega

theorem DeskCredited.reversed {now : Int} (h : EntryReversed s.db t.db e a now) (hw : t.withdrawals = s.withdrawals) :
    DeskCredited s t a (-e.commissionFen) := by
  refine ⟨h.agent.1, h.agents, ?_⟩
  intro userId
  rw [SalesDesk.owed, SalesDesk.owed, hw, h.earned]
  omega

theorem setAgentBalance_credited (d : Int) (ha : a.userId = agentUserId) :
    setAgentBalance db agentUserId (wrapping 127 (a.commissionBalanceFen + d)) =
      { db with salesAgents := credited db.salesAgents a d } := by
  rw [setAgentBalance, credited, ha]

theorem creditAgent_inv {delta : Int} (h : creditAgent db agentUserId delta = .ok next) :
    ∃ a ∈ db.salesAgents.rows, a.userId = agentUserId ∧
      next = { db with salesAgents := credited db.salesAgents a delta } := by
  simp only [creditAgent, ok_iff, checked_eq_some] at h
  obtain ⟨a, ha, _, ⟨rfl, -⟩, rfl⟩ := h
  have huser := of_find?_decide ha
  refine ⟨a, mem_of_find? ha, huser, ?_⟩
  rw [credited, huser]

theorem claimCommission_range {base rate commission : Int} (h : claimCommission base rate = .ok commission) :
    0 ≤ commission ∧ commission < 2 ^ 127 := by
  unfold claimCommission at h
  split at h
  · rename_i amounts hamounts
    cases h
    exact computeAmounts_commission hamounts
  · cases h

def CommissionsFrame (db next : Database) : Prop :=
  next = { db with
    commissionEntries := next.commissionEntries
    salesAgents := next.salesAgents }

theorem claimOrderInner_inv
    (h : claimOrderInner db agentUserId orderNumber submitted rateBp now entryId = .ok (e, next)) :
    e.agentUserId = agentUserId ∧ e.buyerUserId = resolveBuyerIdentifier db submitted ∧ CommissionsFrame db next ∧
      ∃ a, EntryAccrued db next e a := by
  simp only [claimOrderInner, ok_iff] at h
  obtain ⟨_, -, o, -, _, -, base, -, commission, hcommission, _, -, entries, hentries, next', hcredit, rfl, rfl⟩ := h
  obtain ⟨a, ha, huser, hnext⟩ := creditAgent_inv hcredit
  subst hnext
  exact ⟨rfl, rfl, rfl, a, ⟨ha, huser⟩, rfl, claimCommission_range hcommission, hentries, rfl⟩

theorem SalesDesk.claim_inv (h : s.claim agentUserId orderNumber submitted rateBp now entryId = .ok (e, t)) :
    claimOrderInner s.db agentUserId orderNumber submitted rateBp now entryId = .ok (e, t.db) ∧ t = { s with db := t.db } := by
  obtain ⟨⟨e', next⟩, hclaim, heq⟩ := map_eq_ok.1 h
  cases heq
  exact ⟨hclaim, rfl⟩

structure RequestFiled (s t : SalesDesk) (w : SalesWithdrawal) (a : SalesAgent) : Prop where
  agent : a ∈ s.db.salesAgents.rows ∧ a.userId = w.agentUserId
  requested : w.state = .requested
  amount : 0 < w.amountFen ∧ w.amountFen ≤ a.commissionBalanceFen ∧ a.commissionBalanceFen < 2 ^ 127
  none_pending : s.withdrawals.count (fun v => v.agentUserId = w.agentUserId ∧ v.state = .requested) = 0
  withdrawals : s.withdrawals.insert? w = some t.withdrawals
  db : t.db = { s.db with salesAgents := credited s.db.salesAgents a (-w.amountFen) }

theorem requestWithdrawal_inv {amountMinor : Int} {id : String}
    (h : requestWithdrawal s agentUserId amountMinor now id = .ok (w, t)) :
    w.agentUserId = agentUserId ∧ ∃ a, RequestFiled s t w a := by
  simp only [requestWithdrawal, ok_iff, checked_eq_some] at h
  obtain ⟨_, hmin, _, hnone, a, ha, _, ⟨rfl, -, hlt⟩, _, hcovers, withdrawals, hinsert, rfl, rfl⟩ := h
  have huser := of_find?_decide ha
  have hpos : 0 < amountMinor := hmin
  refine ⟨rfl, a, ⟨mem_of_find? ha, huser⟩, rfl, ⟨hpos, hcovers, hlt⟩, hnone, hinsert, ?_⟩
  exact setAgentBalance_credited (-amountMinor) huser

theorem RequestFiled.deskCredited (h : RequestFiled s t w a) : DeskCredited s t a (-w.amountFen) := by
  refine ⟨h.agent.1, by rw [h.db], ?_⟩
  intro userId
  have hentries : t.db.commissionEntries = s.db.commissionEntries := by rw [h.db]
  rw [owed, owed, hentries, withdrawn, withdrawn, withdrawn, withdrawn,
    total_insert h.withdrawals, total_insert h.withdrawals]
  simp only [withdrawalOf, h.requested, h.agent.2, and_true, reduceCtorEq, and_false, if_false]
  split <;> omega

theorem RequestFiled.nonneg (h : RequestFiled s t w a) :
    ∀ b ∈ t.db.salesAgents.rows, b.userId = w.agentUserId → 0 ≤ b.commissionBalanceFen := by
  intro b' hb' huser
  have hagents : t.db.salesAgents = credited s.db.salesAgents a (-w.amountFen) := by rw [h.db]
  rw [hagents] at hb'
  obtain ⟨b, hb, rfl⟩ := mem_update.1 hb'
  have hamount := h.amount
  split
  · rw [withCommissionBalance]
    dsimp only
    rw [wrapping_eq_self (by omega) (by omega)]
    omega
  · rename_i hother
    rw [if_neg hother, ← h.agent.2] at huser
    exact absurd (decide_eq_true huser) hother

structure RequestClosed (s t : SalesDesk) (w : SalesWithdrawal) (f : SalesWithdrawal → SalesWithdrawal) : Prop where
  request : w ∈ s.withdrawals.rows ∧ w.state = .requested
  columns : ∀ v, (f v).agentUserId = v.agentUserId ∧ (f v).amountFen = v.amountFen
  ended : ∀ v, (f v).state ≠ .requested
  withdrawals : ∃ hf, t.withdrawals = s.withdrawals.update (fun v => v.id = w.id ∧ v.state = .requested) f hf
  db : ((f w).state = .paid ∧ t.db = s.db) ∨ ((f w).state ≠ .paid ∧ ∃ a ∈ s.db.salesAgents.rows,
    a.userId = w.agentUserId ∧ t.db = { s.db with salesAgents := credited s.db.salesAgents a w.amountFen })

theorem returnHeld_inv {amount : Int} (h : returnHeld db agentUserId amount = .ok next) :
    ∃ a ∈ db.salesAgents.rows, a.userId = agentUserId ∧
      next = { db with salesAgents := credited db.salesAgents a amount } := by
  simp only [returnHeld, ok_iff, checked_eq_some] at h
  obtain ⟨a, ha, _, ⟨rfl, -⟩, rfl⟩ := h
  have huser := of_find?_decide ha
  exact ⟨a, mem_of_find? ha, huser, setAgentBalance_credited amount huser⟩

theorem decideWithdrawal_inv {adminUserId note : String} {paid : Bool}
    (h : decideWithdrawal s withdrawalId adminUserId paid note now = .ok (w', t)) :
    ∃ w, RequestClosed s t w (SalesWithdrawal.withDecision paid (timestamp now) adminUserId note) := by
  simp only [decideWithdrawal, ok_iff] at h
  obtain ⟨w, hw, _, hstate, amount, hamount, db, hdb, -, rfl⟩ := h
  have hid := of_find?_decide hw
  obtain ⟨rfl, -⟩ := salesParseMinor_eq_ok hamount
  subst hid
  refine ⟨w, ⟨mem_of_find? hw, hstate⟩, fun _ => ⟨rfl, rfl⟩, ?_, ⟨(fun _ => rfl), rfl⟩, ?_⟩
  · cases paid <;> simp [SalesWithdrawal.withDecision]
  · cases paid with
    | true =>
      cases hdb
      exact .inl ⟨rfl, rfl⟩
    | false => exact .inr ⟨by simp [SalesWithdrawal.withDecision], returnHeld_inv hdb⟩

theorem cancelWithdrawal_inv (h : cancelWithdrawal s withdrawalId agentUserId now = .ok (w', t)) :
    ∃ w, RequestClosed s t w (SalesWithdrawal.withCancelled (timestamp now)) := by
  simp only [cancelWithdrawal, ok_iff] at h
  obtain ⟨w, hw, _, hstate, amount, hamount, db, hdb, -, rfl⟩ := h
  obtain ⟨hid, huser⟩ := of_find?_decide hw
  obtain ⟨rfl, -⟩ := salesParseMinor_eq_ok hamount
  subst hid huser
  exact ⟨w, ⟨mem_of_find? hw, hstate⟩, fun _ => ⟨rfl, rfl⟩, by simp [SalesWithdrawal.withCancelled],
    ⟨(fun _ => rfl), rfl⟩, .inr ⟨by simp [SalesWithdrawal.withCancelled], returnHeld_inv hdb⟩⟩

theorem RequestClosed.withdrawn (h : RequestClosed s t w f) (state : WithdrawalState) (userId : String) :
    withdrawn t.withdrawals state userId =
      withdrawn s.withdrawals state userId - withdrawalOf state userId w + withdrawalOf state userId (f w) := by
  obtain ⟨hf, hw⟩ := h.withdrawals
  rw [Monoize.withdrawn, hw]
  exact total_update h.request.1 (decide_eq_true ⟨rfl, h.request.2⟩) (fun v _ hv => (of_decide_eq_true hv).1) _

theorem RequestClosed.owed (h : RequestClosed s t w f) (hentries : t.db.commissionEntries = s.db.commissionEntries)
    (userId : String) :
    t.owed userId = s.owed userId + if w.agentUserId = userId ∧ (f w).state ≠ .paid then w.amountFen else 0 := by
  rw [SalesDesk.owed, SalesDesk.owed, hentries, h.withdrawn, h.withdrawn]
  simp only [withdrawalOf, h.request.2, h.columns, h.ended]
  by_cases huser : w.agentUserId = userId
  · by_cases hpaid : (f w).state = .paid <;> simp [hpaid] <;> omega
  · simp [huser]

structure AgentsKnown (s : SalesDesk) : Prop where
  entries : ∀ e ∈ s.db.commissionEntries.rows, ∃ a ∈ s.db.salesAgents.rows, a.userId = e.agentUserId
  withdrawals : ∀ w ∈ s.withdrawals.rows, ∃ a ∈ s.db.salesAgents.rows, a.userId = w.agentUserId

theorem AgentsKnown.owed (h : AgentsKnown s) {userId : String} (hnone : ∀ a ∈ s.db.salesAgents.rows, a.userId ≠ userId) :
    s.owed userId = 0 := by
  have hentries : earned s.db.commissionEntries userId = 0 := by
    apply total_eq_zero
    intro e he
    obtain ⟨a, ha, huser⟩ := h.entries e he
    exact if_neg fun hcase => hnone a ha (huser.trans hcase.1)
  have hwithdrawals (state : WithdrawalState) : withdrawn s.withdrawals state userId = 0 := by
    apply total_eq_zero
    intro w hw
    obtain ⟨a, ha, huser⟩ := h.withdrawals w hw
    exact if_neg fun hcase => hnone a ha (huser.trans hcase.1)
  rw [SalesDesk.owed, hentries, hwithdrawals, hwithdrawals]
  rfl

def AgentsStay (agents next : Table SalesAgent) : Prop :=
  ∀ a ∈ agents.rows, ∃ a' ∈ next.rows, a'.userId = a.userId ∧ a'.code = a.code

theorem AgentsStay.refl (agents : Table SalesAgent) : AgentsStay agents agents := fun a ha => ⟨a, ha, rfl, rfl⟩

theorem AgentsStay.credited {agents next : Table SalesAgent} {b : SalesAgent}
    (h : next = credited agents b d) : AgentsStay agents next := by
  intro a ha
  rw [h]
  exact agents_update_mem _ ha

theorem AgentsKnown.mono (h : AgentsKnown s) (hagents : AgentsStay s.db.salesAgents t.db.salesAgents)
    (hentries : ∀ e' ∈ t.db.commissionEntries.rows, (∃ e ∈ s.db.commissionEntries.rows, e'.agentUserId = e.agentUserId) ∨
      ∃ a ∈ s.db.salesAgents.rows, a.userId = e'.agentUserId)
    (hwithdrawals : ∀ w' ∈ t.withdrawals.rows, (∃ w ∈ s.withdrawals.rows, w'.agentUserId = w.agentUserId) ∨
      ∃ a ∈ s.db.salesAgents.rows, a.userId = w'.agentUserId) : AgentsKnown t := by
  have hstay (userId : String) (hknown : ∃ a ∈ s.db.salesAgents.rows, a.userId = userId) :
      ∃ a ∈ t.db.salesAgents.rows, a.userId = userId := by
    obtain ⟨a, ha, rfl⟩ := hknown
    obtain ⟨a', ha', huser, -⟩ := hagents a ha
    exact ⟨a', ha', huser⟩
  constructor
  · intro e' he'
    apply hstay
    rcases hentries e' he' with ⟨e, he, huser⟩ | hknown
    · rw [huser]
      exact h.entries e he
    · exact hknown
  · intro w' hw'
    apply hstay
    rcases hwithdrawals w' hw' with ⟨w, hw, huser⟩ | hknown
    · rw [huser]
      exact h.withdrawals w hw
    · exact hknown

def OneRequest (withdrawals : Table SalesWithdrawal) : Prop :=
  ∀ userId, withdrawals.count (fun w => w.agentUserId = userId ∧ w.state = .requested) ≤ 1

theorem RequestFiled.one (h : RequestFiled s t w a) (hone : OneRequest s.withdrawals) : OneRequest t.withdrawals := by
  intro userId
  rw [count_insert h.withdrawals]
  by_cases huser : w.agentUserId = userId
  · subst huser
    rw [h.none_pending]
    split <;> omega
  · rw [if_neg (fun hp => huser (of_decide_eq_true hp).1)]
    exact hone userId

theorem RequestClosed.one (h : RequestClosed s t w f) (hone : OneRequest s.withdrawals) : OneRequest t.withdrawals := by
  intro userId
  obtain ⟨hf, hw⟩ := h.withdrawals
  rw [hw]
  refine le_trans (count_update_le ?_) (hone userId)
  intro v hv
  exact absurd (of_decide_eq_true hv).2 (h.ended v)

structure DeskSound (s : SalesDesk) : Prop where
  store : SoundStore s.db
  balances : BalancesMatch s
  known : AgentsKnown s
  one : OneRequest s.withdrawals

theorem CommissionsFrame.sound (h : CommissionsFrame db next) (hs : SoundStore db) : SoundStore next := by
  rw [h]
  exact ⟨hs.books, hs.linked.of_frame ⟨rfl, rfl, rfl, rfl, rfl⟩⟩

variable (h : DeskSound s)

include h

theorem DeskSound.claim (hframe : CommissionsFrame s.db t.db) (haccrued : EntryAccrued s.db t.db e a)
    (hw : t.withdrawals = s.withdrawals) : DeskSound t := by
  refine ⟨hframe.sound h.store, h.balances.moved (.accrued haccrued hw), ?_, ?_⟩
  · apply h.known.mono (AgentsStay.credited haccrued.agents)
    · intro e' he'
      rcases (mem_insert haccrued.entries).1 he' with he' | rfl
      · exact .inl ⟨e', he', rfl⟩
      · exact .inr ⟨a, haccrued.agent⟩
    · rw [hw]
      exact fun w hw => .inl ⟨w, hw, rfl⟩
  · rw [hw]
    exact h.one

theorem DeskSound.request (hfiled : RequestFiled s t w a) : DeskSound t := by
  refine ⟨?_, h.balances.moved hfiled.deskCredited, ?_, hfiled.one h.one⟩
  · have hframe : CommissionsFrame s.db t.db := by
      rw [hfiled.db]
      rfl
    exact hframe.sound h.store
  · apply h.known.mono (AgentsStay.credited hfiled.deskCredited.agents)
    · rw [hfiled.db]
      exact fun e he => .inl ⟨e, he, rfl⟩
    · intro w' hw'
      rcases (mem_insert hfiled.withdrawals).1 hw' with hw' | rfl
      · exact .inl ⟨w', hw', rfl⟩
      · exact .inr ⟨a, hfiled.agent⟩

theorem DeskSound.close (hclosed : RequestClosed s t w f) : DeskSound t := by
  have hwithdrawals : ∀ w' ∈ t.withdrawals.rows, (∃ v ∈ s.withdrawals.rows, w'.agentUserId = v.agentUserId) ∨
      ∃ a ∈ s.db.salesAgents.rows, a.userId = w'.agentUserId := by
    intro w' hw'
    obtain ⟨hf, hw⟩ := hclosed.withdrawals
    rw [hw] at hw'
    obtain ⟨v, hv, rfl⟩ := mem_update.1 hw'
    refine .inl ⟨v, hv, ?_⟩
    split
    · exact (hclosed.columns v).1
    · rfl
  rcases hclosed.db with ⟨hpaid, hdb⟩ | ⟨hunpaid, a, ha, huser, hdb⟩
  · have howed (userId : String) : t.owed userId = s.owed userId := by
      rw [hclosed.owed (by rw [hdb]), if_neg (fun hcase => hcase.2 hpaid), Int.add_zero]
    refine ⟨hdb ▸ h.store, h.balances.managed (.inl (by rw [hdb])) howed (fun _ => h.known.owed), ?_, hclosed.one h.one⟩
    exact h.known.mono (by rw [hdb]; exact AgentsStay.refl _) (by rw [hdb]; exact fun e he => .inl ⟨e, he, rfl⟩)
      hwithdrawals
  · have hcredited : DeskCredited s t a w.amountFen := by
      refine ⟨ha, by rw [hdb], ?_⟩
      intro userId
      rw [hclosed.owed (by rw [hdb]), huser]
      simp only [hunpaid, ne_eq, not_false_eq_true, and_true]
    have hframe : CommissionsFrame s.db t.db := by
      rw [hdb]
      rfl
    refine ⟨hframe.sound h.store, h.balances.moved hcredited, ?_, hclosed.one h.one⟩
    exact h.known.mono (AgentsStay.credited hcredited.agents) (by rw [hdb]; exact fun e he => .inl ⟨e, he, rfl⟩) hwithdrawals

theorem DeskSound.event (hstore : SoundStore t.db) (he : CommissionEvent s.db t.db)
    (hw : t.withdrawals = s.withdrawals) : DeskSound t := by
  have hknown : AgentsKnown t := by
    apply h.known.mono (fun a ha => he.agentsStay ha)
    · intro e' he'
      rcases he.entry he' with ⟨e, hmem, huser, -⟩ | ⟨-, hagent⟩
      · exact .inl ⟨e, hmem, huser⟩
      · exact .inr hagent
    · rw [hw]
      exact fun w hw => .inl ⟨w, hw, rfl⟩
  refine ⟨hstore, ?_, hknown, hw ▸ h.one⟩
  have hstill (hentries : t.db.commissionEntries = s.db.commissionEntries) (userId : String) :
      t.owed userId = s.owed userId := by
    rw [owed, owed, hentries, hw]
  rcases he with ⟨o, -, hmove⟩ | ⟨hentries, hagents⟩
  · cases hmove with
    | idle hentries hagents => exact h.balances.managed (.inl hagents) (hstill hentries) fun _ => h.known.owed
    | accrue e a haccrued _ => exact h.balances.moved (.accrued haccrued hw)
    | reverse e a now hreversed _ => exact h.balances.moved (.reversed hreversed hw)
  · exact h.balances.managed hagents (hstill hentries) fun _ => h.known.owed

theorem DeskSound.call {α : Type} {x : Except SalesStoreError (α × SalesDesk)}
    (hok : ∀ a t, x = .ok (a, t) → DeskSound t) : DeskSound (s.commit x) := by
  cases x with
  | error e => exact h
  | ok r => exact hok r.1 r.2 rfl

omit h

theorem salesStep_sound [Sha256] (h : DeskSound s) (hst : SalesStep s t) : DeskSound t := by
  obtain ⟨e⟩ := hst
  cases e with
  | store e => exact h.event (applyStoreEvent_sound h.store e) (h.store.booksInv.did e).commissions rfl
  | claim agentUserId orderNumber submitted rateBp now entryId =>
    apply h.call
    intro e t hok
    obtain ⟨hclaim, ht⟩ := SalesDesk.claim_inv hok
    obtain ⟨-, -, hframe, a, haccrued⟩ := claimOrderInner_inv hclaim
    exact h.claim hframe haccrued (by rw [ht])
  | recordAttempt agentUserId succeeded now id =>
    apply h.call
    intro _ t hok
    simp only [recordClaimAttempt, ok_iff] at hok
    obtain ⟨_, -, -, rfl⟩ := hok
    exact ⟨h.store, h.balances, ⟨h.known.entries, h.known.withdrawals⟩, h.one⟩
  | requestWithdrawal agentUserId amountMinor now id =>
    apply h.call
    intro w t hok
    obtain ⟨-, a, hfiled⟩ := requestWithdrawal_inv hok
    exact h.request hfiled
  | decideWithdrawal withdrawalId adminUserId paid note now =>
    apply h.call
    intro _ t hok
    obtain ⟨w, hclosed⟩ := decideWithdrawal_inv hok
    exact h.close hclosed
  | cancelWithdrawal withdrawalId agentUserId now =>
    apply h.call
    intro _ t hok
    obtain ⟨w, hclosed⟩ := cancelWithdrawal_inv hok
    exact h.close hclosed

structure SalesOpening (s : SalesDesk) : Prop where
  store : SoundStore s.db
  no_entry : s.db.commissionEntries = .empty
  no_withdrawal : s.withdrawals = .empty
  balances : ∀ a ∈ s.db.salesAgents.rows, a.commissionBalanceFen = 0

theorem SalesOpening.sound (h : SalesOpening s) : DeskSound s := by
  refine ⟨h.store, ?_, ⟨?_, ?_⟩, ?_⟩
  · intro a ha
    rw [h.balances a ha, owed, h.no_entry, h.no_withdrawal]
    rfl
  · rw [h.no_entry]
    exact fun e he => absurd he not_mem_nil
  · rw [h.no_withdrawal]
    exact fun w hw => absurd hw not_mem_nil
  · rw [h.no_withdrawal]
    exact fun _ => Nat.zero_le 1

theorem commission_conserved [Sha256] {s : SalesDesk} (h : Reachable SalesOpening SalesStep s) :
    (∀ a ∈ s.db.salesAgents.rows, a.commissionBalanceFen = wrapping 127 (s.owed a.userId) ∧
      (-2 ^ 127 ≤ s.owed a.userId → s.owed a.userId < 2 ^ 127 → a.commissionBalanceFen = s.owed a.userId)) ∧
    (∀ orderId, s.db.commissionEntries.count (·.orderId = orderId) ≤ 1) ∧
    (∀ userId, s.withdrawals.count (fun w => w.agentUserId = userId ∧ w.state = .requested) ≤ 1) ∧
    ∀ agentUserId amountMinor now id w t, requestWithdrawal s agentUserId amountMinor now id = .ok (w, t) →
      ∀ a ∈ t.db.salesAgents.rows, a.userId = agentUserId → 0 ≤ a.commissionBalanceFen := by
  have hsound : DeskSound s := h.invariant (fun _ hs => hs.sound) fun _ _ => salesStep_sound
  refine ⟨?_, ?_, hsound.one, ?_⟩
  · intro a ha
    have hbalance := hsound.balances a ha
    refine ⟨hbalance, ?_⟩
    intro hlo hhi
    rw [hbalance, wrapping_eq_self hlo hhi]
  · intro orderId
    apply count_le_one
    intro e e' he he'
    exact .inr ((of_decide_eq_true he).trans (of_decide_eq_true he').symm)
  · intro agentUserId amountMinor now id w t hok a ha huser
    obtain ⟨hagent, b, hfiled⟩ := requestWithdrawal_inv hok
    exact hfiled.nonneg a ha (huser.trans hagent.symm)

def sampleSales : List SalesEvent :=
  [.store (.insertAgent "agent" "ABCDEFGH" 0), .store (sampleCreate (some "ABCDEFGH")), .store (samplePaidEvent "700"),
    .store (.fulfill "order-1" none 0 ⟨"l2", "e2", "c2"⟩), .requestWithdrawal "agent" 20 0 "w1"]

open SampleDigests

def runSales (events : List SalesEvent) : SalesDesk := events.foldl SalesDesk.run ⟨sampleOpening.db, .empty, .empty⟩

theorem runSales_reachable (events : List SalesEvent) : Reachable SalesOpening SalesStep (runSales events) := by
  have hbooks := booksInv_initial sampleOpening_opening.initial
  have hopening : SalesOpening ⟨sampleOpening.db, .empty, .empty⟩ :=
    ⟨⟨hbooks.sound, hbooks.linked⟩, rfl, rfl, fun _ ha => (nomatch ha)⟩
  exact (Reachable.start hopening).foldl (fun s e => SalesStep.run s e) events

theorem commission_conserved_sample : ∃ a ∈ (runSales sampleSales).db.salesAgents.rows, a.commissionBalanceFen = 15 ∧
    a.commissionBalanceFen = (runSales sampleSales).owed a.userId := by
  have hrow : ∃ a ∈ (runSales sampleSales).db.salesAgents.rows, a.commissionBalanceFen = 15 ∧
      (-2 ^ 127 ≤ (runSales sampleSales).owed a.userId ∧ (runSales sampleSales).owed a.userId < 2 ^ 127) := by
    decide +kernel
  obtain ⟨a, ha, hbalance, hlo, hhi⟩ := hrow
  exact ⟨a, ha, hbalance, ((commission_conserved (runSales_reachable sampleSales)).1 a ha).2 hlo hhi⟩

def bulkId (i : Nat) : String := String.ofList (List.replicate i 'a')

theorem bulkId_injective {j : Nat} (h : bulkId i = bulkId j) : i = j := by
  have hlength := congrArg (fun s => s.toList.length) h
  simpa only [bulkId, String.toList_ofList, length_replicate] using hlength

theorem bulkId_ne_seller (i : Nat) : "seller" ≠ bulkId i := by
  intro h
  have hmem : 's' ∈ (bulkId i).toList := h ▸ (by decide)
  rw [bulkId, String.toList_ofList] at hmem
  exact absurd (eq_of_mem_replicate hmem) (by decide)

def bulkOrder (i : Nat) : StoreOrder where
  id := bulkId i
  contract := { sampleContract (bulkId i) with
    userId := bulkId i
    paymentMinor := "1267650600228229401496703205376"
    quote := some ⟨⟨"balance", "Recharge", none, [], ⟨[], List.nodup_nil⟩,
      some ⟨"1267650600228229401496703205376", "0", "1267650600228229401496703205376"⟩⟩⟩ }
  paymentState := .paid
  fulfillmentState := .fulfilled
  disputeState := .none
  paymentHold := false
  stateRevision := 2

def bulkReward : Int := 1810929428897470573566718864822857143

theorem bulkOrder_reward (i : Nat) : convertedAmount (bulkOrder i).contract = .ok bulkReward := by
  have hsame : convertedAmount (bulkOrder i).contract = convertedAmount (bulkOrder 0).contract := rfl
  rw [hsame]
  decide +kernel

def bulkEntry (i : Nat) : CommissionEntry :=
  claimEntry (bulkOrder i) "seller" (bulkId i) (bulkId i) (2 ^ 100) (2 ^ 100 / 20) 500 0 (bulkId i)

def bulkOrders (n : Nat) : Table StoreOrder := .tabulate n bulkOrder fun i j hij => by
  rintro (h | h | ⟨-, h, -⟩)
  · exact hij.ne (bulkId_injective h)
  · exact hij.ne (bulkId_injective h)
  · exact h rfl

def bulkLedger (n : Nat) : Table BillingLedgerRow :=
  .tabulate n (fun i => rechargeRow (bulkOrder i) bulkReward bulkReward 0 (bulkId i)) fun i j hij => by
    rintro (h | ⟨-, h⟩)
    · exact hij.ne (bulkId_injective h)
    · exact hij.ne (bulkId_injective (fulfillmentKey_injective (Option.some.inj h)))

theorem mem_bulkOrders {o : StoreOrder} : o ∈ (bulkOrders n).rows ↔ ∃ i < n, bulkOrder i = o :=
  mem_tabulate

theorem mem_bulkLedger {row : BillingLedgerRow} : row ∈ (bulkLedger n).rows ↔
    ∃ i < n, rechargeRow (bulkOrder i) bulkReward bulkReward 0 (bulkId i) = row :=
  mem_tabulate

def bulkBuyers (n : Nat) : Table User :=
  .tabulate n (fun i => ⟨bulkId i, toString bulkReward, false, bulkId i⟩) fun _ _ hij h => hij.ne (bulkId_injective h)

def bulkEntries (k : Nat) : Table CommissionEntry := .tabulate k bulkEntry fun i j hij => by
  rintro (h | h)
  · exact hij.ne (bulkId_injective h)
  · exact hij.ne (bulkId_injective h)

def bulkSeller (balance : Int) : SalesAgent := ⟨"seller", "ABCDEFGH", 0, balance, true⟩

/-- `n` past orders of as many buyers, of which an agent has claimed the first `k`. -/
def bulkDesk (n k : Nat) : SalesDesk where
  db :=
    { users := bulkBuyers n
      storeOrders := bulkOrders n
      billingLedger := bulkLedger n
      commissionEntries := bulkEntries k
      salesAgents := .single (bulkSeller (wrapping 127 (k * (2 ^ 100 / 20)))) }

theorem bulkDesk_order (hi : i < n) : (bulkDesk n k).db.order? (bulkId i) = some (bulkOrder i) := by
  have hmem : bulkOrder i ∈ (bulkDesk n k).db.storeOrders.rows := mem_bulkOrders.2 ⟨i, hi, rfl⟩
  exact order?_of_mem hmem

theorem bulkDesk_reward (hi : i < n) : (bulkDesk n k).db.reward? (bulkId i) =
    some (rechargeRow (bulkOrder i) bulkReward bulkReward 0 (bulkId i)) := by
  have hmem : rechargeRow (bulkOrder i) bulkReward bulkReward 0 (bulkId i) ∈ (bulkDesk n k).db.billingLedger.rows :=
    mem_bulkLedger.2 ⟨i, hi, rfl⟩
  apply find?_eq_some_of_mem hmem (decide_eq_true rfl)
  intro row hrow
  exact BillingLedgerRow.clashes_of_idempotencyKey (of_decide_eq_true hrow) rfl

theorem bulkDesk_opening (n : Nat) : SalesOpening (bulkDesk n 0) := by
  refine ⟨⟨?_, fun _ hc => (by cases hc), fun _ hc => (by cases hc)⟩, rfl, rfl, ?_⟩
  · intro orderId
    by_cases hknown : ∃ i < n, bulkId i = orderId
    · obtain ⟨i, hi, rfl⟩ := hknown
      have horder : (book (bulkDesk n 0).db (bulkId i)).order = some ((bulkOrder i).contract, true) :=
        book_order (bulkDesk_order hi)
      have hreward : (book (bulkDesk n 0).db (bulkId i)).reward = some (bulkId i, bulkReward) := by
        simp only [book, bulkDesk_reward hi]
        rfl
      refine ⟨?_, ?_, ?_, fun _ hc => by cases hc⟩
      · intro hnone
        rw [horder] at hnone
        cases hnone
      · intro c hc _
        rw [horder] at hc
        cases hc
        exact ⟨bulkReward, hreward, bulkOrder_reward i⟩
      · intro c f hc hcase
        rw [horder] at hc
        cases hc
        rcases hcase with hkind | hfulfilled
        · cases hkind
        · cases hfulfilled
    · have hreward : (book (bulkDesk n 0).db orderId).reward = none := by
        rw [book, map_eq_none_iff]
        apply find?_eq_none.2
        intro row hrow hkey
        obtain ⟨i, hi, rfl⟩ := mem_bulkLedger.1 hrow
        exact hknown ⟨i, hi, fulfillmentKey_injective (some.inj (of_decide_eq_true hkey))⟩
      have horder : (book (bulkDesk n 0).db orderId).order = none := by
        rw [book, map_eq_none_iff]
        apply find?_eq_none.2
        intro o ho hid
        obtain ⟨i, hi, rfl⟩ := mem_bulkOrders.1 ho
        exact hknown ⟨i, hi, of_decide_eq_true hid⟩
      refine ⟨fun _ => ⟨hreward, rfl⟩, ?_, fun _ _ _ _ => hreward, fun _ hc => by cases hc⟩
      intro c hc
      rw [horder] at hc
      cases hc
  · intro a ha
    cases mem_singleton.1 ha
    rfl

theorem bulkDesk_buyer (n k i : Nat) : resolveBuyerIdentifier (bulkDesk n k).db (bulkId i) = bulkId i := by
  unfold resolveBuyerIdentifier
  cases hfind : (bulkDesk n k).db.users.find? fun u => u.id = bulkId i ∨ u.username = bulkId i with
  | none => rfl
  | some u =>
    have hmem : u ∈ (bulkBuyers n).rows := mem_of_find? hfind
    have hnamed := of_find?_decide hfind
    obtain ⟨j, -, rfl⟩ := mem_tabulate.1 hmem
    exact hnamed.elim id id

theorem bulkSeller_credit (db : Database) (k : Nat) (c : Int)
    (ha : db.salesAgents = .single (bulkSeller (wrapping 127 (k * c)))) :
    creditAgent db "seller" c = .ok { db with
      salesAgents := .single (bulkSeller (wrapping 127 ((k + 1 : Nat) * c))) } := by
  have hfind : db.salesAgents.find? (·.userId = "seller") = some (bulkSeller (wrapping 127 (k * c))) := by
    rw [ha]
    rfl
  have hchecked : checked 127 (wrapping 127 (k * c)) = some (wrapping 127 (k * c)) :=
    checked_eq_some.2 ⟨rfl, wrapping_range _ _⟩
  have hsum : wrapping 127 (wrapping 127 (k * c) + c) = wrapping 127 ((k + 1 : Nat) * c) := by
    rw [wrapping_add, Nat.cast_succ, Int.add_mul, Int.one_mul]
  have hupdate : db.salesAgents.update (·.userId = "seller")
      (withCommissionBalance (wrapping 127 ((k + 1 : Nat) * c))) =
        .single (bulkSeller (wrapping 127 ((k + 1 : Nat) * c))) := by
    rw [ha]
    rfl
  rw [creditAgent, hfind, orError_some, ok_bind, bulkSeller]
  dsimp only
  rw [hchecked, orError_some, ok_bind, hsum, hupdate]
  rfl

theorem bulkDesk_claim (hk : k < n) :
    (bulkDesk n k).claim "seller" (bulkId k) (bulkId k) 500 0 (bulkId k) = .ok (bulkEntry k, bulkDesk n (k + 1)) := by
  have horder : (bulkDesk n k).db.storeOrders.find? (·.contract.orderNumber = bulkId k) = some (bulkOrder k) := by
    have hmem : bulkOrder k ∈ (bulkDesk n k).db.storeOrders.rows := mem_bulkOrders.2 ⟨k, hk, rfl⟩
    apply find?_eq_some_of_mem hmem (decide_eq_true rfl)
    intro o ho
    exact .inr (.inl (of_decide_eq_true ho))
  have hface : faceValueMinor (bulkOrder k).contract.quote = .ok (2 ^ 100) := by
    have hsame : faceValueMinor (bulkOrder k).contract.quote = faceValueMinor (bulkOrder 0).contract.quote := rfl
    rw [hsame]
    decide +kernel
  have hcommission : claimCommission (2 ^ 100) 500 = .ok (2 ^ 100 / 20) := by decide +kernel
  have hfresh : (bulkDesk n k).db.commissionEntries.count (·.orderId = (bulkOrder k).id) = 0 := by
    apply countP_eq_zero.2
    intro e he hsame
    have hmem : e ∈ (bulkEntries k).rows := he
    obtain ⟨i, hi, rfl⟩ := mem_tabulate.1 hmem
    exact hi.ne (bulkId_injective (of_decide_eq_true hsame))
  have hinsert : (bulkDesk n k).db.commissionEntries.insert? (claimEntry (bulkOrder k) "seller" (bulkId k) (bulkId k)
      (2 ^ 100) (2 ^ 100 / 20) 500 0 (bulkId k)) = some (bulkEntries (k + 1)) :=
    insert?_tabulate k bulkEntry _
  have hcredit := bulkSeller_credit { (bulkDesk n k).db with commissionEntries := bulkEntries (k + 1) } k (2 ^ 100 / 20) rfl
  rw [SalesDesk.claim, claimOrderInner, require_of (bulkId_ne_seller k), ok_bind]
  dsimp only
  rw [bulkDesk_buyer, horder, orError_some, ok_bind, require_of ⟨rfl, rfl, rfl, rfl⟩, ok_bind, hface, ok_bind, hcommission,
    ok_bind, require_of hfresh, ok_bind, hinsert, orError_some, ok_bind, hcredit]
  rfl

theorem bulkDesk_reachable (hk : k ≤ n) : Reachable SalesOpening SalesStep (bulkDesk n k) := by
  induction k with
  | zero => exact .start (bulkDesk_opening n)
  | succ k ih =>
    have hstep := SalesStep.run (bulkDesk n k) (.claim "seller" (bulkId k) (bulkId k) 500 0 (bulkId k))
    rw [run, bulkDesk_claim hk] at hstep
    exact (ih (Nat.le_of_succ_le hk)).next hstep

theorem bulkDesk_owed (n k : Nat) : (bulkDesk n k).owed "seller" = k * (2 ^ 100 / 20) := by
  have hearned : earned (bulkEntries k) "seller" = k * (2 ^ 100 / 20) := total_tabulate fun _ _ => rfl
  have hsum : (bulkDesk n k).owed "seller" = earned (bulkEntries k) "seller" - 0 - 0 := rfl
  rw [hsum, hearned, Int.sub_zero, Int.sub_zero]

theorem commission_not_conserved : ∃ s, Reachable SalesOpening SalesStep s ∧
    ∃ a ∈ s.db.salesAgents.rows, a.commissionBalanceFen ≠ s.owed a.userId := by
  refine ⟨bulkDesk (2 ^ 32) (2 ^ 32), bulkDesk_reachable le_rfl, _, mem_singleton.2 rfl, ?_⟩
  rw [show (bulkSeller _).userId = "seller" from rfl, bulkDesk_owed]
  have hrange := (wrapping_range 127 ((2 ^ 32 : Nat) * (2 ^ 100 / 20))).2
  intro hsame
  have hbalance : wrapping 127 ((2 ^ 32 : Nat) * (2 ^ 100 / 20)) = (2 ^ 32 : Nat) * (2 ^ 100 / 20) := hsame
  rw [hbalance] at hrange
  exact absurd hrange (by decide)

end Monoize
