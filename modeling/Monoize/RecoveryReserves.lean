import Monoize.StoreInvariant

/-! A reserve is held for an open claim: the last claim to end gives it back or consumes it. -/

namespace Monoize

open Fallible MachineInt Relational Table RewardRecovery

variable {db next : Database} {recoveryId ledgerId claimId : String} {o : StoreOrder} {now : Instant} {original : Nat}
  {r : RewardRecovery} {ids : RecoveryIds}

variable {ensured : Database} {c claim : RecoveryClaim} {state : RecoveryClaimState} {r' : RewardRecovery}
  {refundId : String}

def ReservesHeld (db : Database) : Prop :=
  ∀ r ∈ db.rewardRecoveries.rows, r.reservedNanoUsd ≠ 0 → ∃ c ∈ db.recoveryClaims.rows, c.recoveryId = r.id ∧
    c.state = .opened

theorem ReservesHeld.of_tables (h : ReservesHeld db) (hrecoveries : next.rewardRecoveries = db.rewardRecoveries)
    (hclaims : next.recoveryClaims = db.recoveryClaims) : ReservesHeld next := by
  unfold ReservesHeld
  rw [hrecoveries, hclaims]
  exact h

variable {f : RewardRecovery → RewardRecovery}

theorem RecoveryReserved.one_db (h : RecoveryReserved db ensured next o r) :
    OneRecovery r.id db next ∧ next.recoveryClaims = db.recoveryClaims := by
  refine ⟨OneRecovery.trans ?_ h.one, by rw [h.money.frame, h.frame]⟩
  rcases h.inserted with hsame | hinsert
  · exact OneRecovery.of_eq hsame
  intro q hq
  rcases (mem_insert hinsert).1 hq with hq | rfl
  · exact .inr hq
  · exact .inl rfl

theorem ReservesHeld.opens (h : ReservesHeld db) (hrecoveries : OneRecovery c.recoveryId db next)
    (hclaims : db.recoveryClaims.insert? c = some next.recoveryClaims) (hopened : c.state = .opened) : ReservesHeld next := by
  intro r hr hreserved
  rcases hrecoveries r hr with hid | hr
  · exact ⟨c, (mem_insert hclaims).2 (.inr rfl), hid.symm, hopened⟩
  · obtain ⟨c', hc', hid, hstate⟩ := h r hr hreserved
    exact ⟨c', (mem_insert hclaims).2 (.inl hc'), hid, hstate⟩

theorem ReservesHeld.settle (h : ReservesHeld db)
    (hclaim : claim ∈ db.recoveryClaims.rows) (hclaims : next.recoveryClaims = settleClaim db claim.id state)
    (hrecoveries : OneRecovery claim.recoveryId db next)
    (hown : ∀ r ∈ next.rewardRecoveries.rows, r.id = claim.recoveryId → r.reservedNanoUsd ≠ 0 →
      ∃ c ∈ next.recoveryClaims.rows, c.recoveryId = claim.recoveryId ∧ c.state = .opened) : ReservesHeld next := by
  intro r hr hreserved
  by_cases hid : r.id = claim.recoveryId
  · rw [hid]
    exact hown r hr hid hreserved
  rcases hrecoveries r hr with hid' | hr'
  · exact absurd hid' hid
  obtain ⟨c, hc, hcid, hstate⟩ := h r hr' hreserved
  have hne : c.id ≠ claim.id := by
    intro hsame
    have heq := eq_of_clashes hc hclaim (.inl hsame)
    rw [heq] at hcid
    exact hid hcid.symm
  refine ⟨c, ?_, hcid, hstate⟩
  rw [hclaims]
  exact mem_update.2 ⟨c, hc, if_neg fun e => hne (of_decide_eq_true e).1⟩

theorem exists_of_otherOpenClaims {claims : Table RecoveryClaim} (h : otherOpenClaims claims recoveryId claimId ≠ 0) :
    ∃ c ∈ claims.rows, c.recoveryId = recoveryId ∧ c.state = .opened := by
  obtain ⟨c, hc, hp⟩ := List.countP_pos_iff.1 (Nat.pos_of_ne_zero h)
  obtain ⟨hid, -, hstate⟩ := of_decide_eq_true hp
  exact ⟨c, hc, hid, hstate⟩

theorem RewardReleased.recoveries {delta : Int} (h : RewardReleased db next o r delta now ledgerId) :
    next.rewardRecoveries = db.rewardRecoveries.update (fun q => q.id = r.id ∧ q.recoveredNanoUsd = 0)
      (withRelease (recoveryKey r.id "release")) := by
  obtain ⟨-, balance, -, h⟩ := h
  simp only [releaseReward, ok_iff] at h
  obtain ⟨credited, hcredit, rfl⟩ := h
  rw [applyRecoveryDelta_recoveries hcredit]

variable (hs : ∀ orderId, (book db orderId).Sound)

include hs

theorem reserved_of_recovered (hr : r ∈ db.rewardRecoveries.rows) (h : r.recoveredNanoUsd ≠ 0) : r.reservedNanoUsd = 0 := by
  have hescrow : (book db r.orderId).escrow = some r.amounts := by
    simp only [book, recovery?_of_mem hr, Option.map_some]
  rcases ((hs r.orderId).escrow _ hescrow).1.exclusive with hreserved | hrecovered
  · exact hreserved
  · exact absurd hrecovered h

theorem reserved_of_ended {p : RewardRecovery → Bool} {hf}
    (h : next.rewardRecoveries = db.rewardRecoveries.update p f hf) (hr : r ∈ db.rewardRecoveries.rows)
    (hp : r.recoveredNanoUsd = 0 → p r = true) (hended : (f r).reservedNanoUsd = 0)
    (hr' : r' ∈ next.rewardRecoveries.rows) (hid : r'.id = r.id) : r'.reservedNanoUsd = 0 := by
  rw [h] at hr'
  obtain ⟨q, hq, rfl⟩ := mem_update.1 hr'
  have hqid : q.id = r.id := by
    split at hid
    · have hkey : (f q).id = q.id := congrArg Prod.fst (hf q)
      exact hkey.symm.trans hid
    · exact hid
  have hsame := eq_of_clashes hq hr (.inl hqid)
  subst hsame
  split
  · exact hended
  · rename_i hpq
    exact reserved_of_recovered hs hq fun hzero => hpq (hp hzero)

theorem reserved_of_kept (hr : r ∈ db.rewardRecoveries.rows) (hkept : r.recoveredNanoUsd ≠ 0 ∨ r.reservedNanoUsd = 0)
    (hr' : r' ∈ db.rewardRecoveries.rows) (hid : r'.id = r.id) : r'.reservedNanoUsd = 0 := by
  have hsame := eq_of_clashes hr' hr (.inl hid)
  subst hsame
  rcases hkept with hrecovered | hzero
  · exact reserved_of_recovered hs hr hrecovered
  · exact hzero

omit hs

theorem ReservesHeld.ends (h : ReservesHeld db) (hclaim : claim ∈ db.recoveryClaims.rows) (hid : r.id = claim.recoveryId)
    (hclaims : next.recoveryClaims = settleClaim db claim.id state) (hrecoveries : OneRecovery r.id db next)
    (hended : (∀ r' ∈ next.rewardRecoveries.rows, r'.id = r.id → r'.reservedNanoUsd = 0) ∨
      otherOpenClaims (settleClaim db claim.id state) r.id claim.id ≠ 0) : ReservesHeld next := by
  rw [hid] at hrecoveries hended
  apply h.settle hclaim hclaims hrecoveries
  intro r' hr' hid' hreserved
  rcases hended with hzero | hothers
  · exact absurd (hzero r' hr' hid') hreserved
  · rw [hclaims]
    exact exists_of_otherOpenClaims hothers

theorem ReservesHeld.opened {reserved : Database} (hheld : ReservesHeld db)
    (h : RecoveryReserved db ensured reserved o r) (hcid : c.recoveryId = r.id) (hstate : c.state = .opened)
    (hinsert : reserved.recoveryClaims.insert? c = some next.recoveryClaims)
    (hrecoveries : next.rewardRecoveries = reserved.rewardRecoveries) : ReservesHeld next := by
  obtain ⟨hone, hsame⟩ := h.one_db
  rw [hsame] at hinsert
  refine hheld.opens ?_ hinsert hstate
  rw [hcid]
  exact hone.trans (OneRecovery.of_eq hrecoveries)

theorem RefundRejected.reserves {m : RefundMutation} {released : Database}
    (h : RefundRejected db next refundId now ids m released)
    (hmoney : MoneyFrame { db with recoveryClaims := settleClaim db m.claim.id .resolved } released)
    (hs : ∀ orderId, (book db orderId).Sound) (hheld : ReservesHeld db) : ReservesHeld next := by
  obtain ⟨hm, -, hreleased, rfl⟩ := h
  have hr := mem_of_find? hm.recovery
  have hid := of_find?_decide hm.recovery
  have hclaims : released.recoveryClaims = settleClaim db m.claim.id .resolved := by rw [hmoney.frame]
  refine hheld.ends hm.claim.1 hid hclaims ?_ ?_
  · rcases releaseIfLast_inv hreleased with ⟨rfl, -⟩ | hrelease
    · exact OneRecovery.of_eq rfl
    · exact OneRecovery.update _ hrelease.recoveries fun q hq => (of_decide_eq_true hq).1
  · rcases releaseIfLast_inv hreleased with ⟨rfl, hothers | hkept⟩ | hrelease
    · exact .inr hothers
    · exact .inl fun r' hr' hid' => reserved_of_kept hs hr hkept hr' hid'
    · exact .inl fun r' hr' hid' => reserved_of_ended hs hrelease.recoveries hr (fun hzero => decide_eq_true ⟨rfl, hzero⟩) rfl
        hr' hid'

theorem RefundCompleted.reserves {m : RefundMutation} (h : RefundCompleted db next refundId m)
    (hs : ∀ orderId, (book db orderId).Sound) (hheld : ReservesHeld db) : ReservesHeld next := by
  have hr := mem_of_find? h.rows.recovery
  have hid := of_find?_decide h.rows.recovery
  have hrecoveries : next.rewardRecoveries = db.rewardRecoveries.update
      (fun q => q.id = m.recovery.id ∧ q.recoveredNanoUsd = 0) withRecovered := by
    rw [h.result]
  have hclaims : next.recoveryClaims = settleClaim db m.claim.id .consumed := by rw [h.result]
  refine hheld.ends h.rows.claim.1 hid hclaims ?_ ?_
  · exact OneRecovery.update _ hrecoveries fun q hq => (of_decide_eq_true hq).1
  · exact .inl fun r' hr' hid' => reserved_of_ended hs hrecoveries hr (fun hzero => decide_eq_true ⟨rfl, hzero⟩) rfl
      hr' hid'

variable {m : ClaimMutation} {finalBalance : Int} {released debited : Database}

theorem ClaimRows.ends (h : ClaimRows db claimId m) (hheld : ReservesHeld db)
    (hclaims : next.recoveryClaims = settleClaim db claimId state) (hone : OneRecovery m.recovery.id db next)
    (hended : (∀ r' ∈ next.rewardRecoveries.rows, r'.id = m.recovery.id → r'.reservedNanoUsd = 0) ∨
      otherOpenClaims (settleClaim db claimId state) m.recovery.id claimId ≠ 0) : ReservesHeld next := by
  have hclaimId := of_find?_decide h.claim
  have hid := of_find?_decide h.recovery
  rw [← hclaimId] at hclaims hended
  exact hheld.ends (mem_of_find? h.claim) hid hclaims hone hended

theorem ClaimWon.reserves (h : ClaimWon db next claimId now ids m finalBalance released)
    (hmoney : MoneyFrame { db with recoveryClaims := settleClaim db claimId .resolved } released)
    (hs : ∀ orderId, (book db orderId).Sound) (hheld : ReservesHeld db) : ReservesHeld next := by
  obtain ⟨hm, -, -, hrelease, rfl⟩ := h
  have hr := mem_of_find? hm.recovery
  have hclaims : released.recoveryClaims = settleClaim db claimId .resolved := by rw [hmoney.frame]
  have hreleased : ReservesHeld released := by
    refine hm.ends hheld hclaims ?_ (.inl ?_)
    · rcases releaseWon_inv hrelease with ⟨rfl, -⟩ | hrelease
      · exact OneRecovery.of_eq rfl
      · exact OneRecovery.update _ hrelease.recoveries fun q hq => (of_decide_eq_true hq).1
    · intro r' hr' hid'
      rcases releaseWon_inv hrelease with ⟨rfl, hkept⟩ | hrelease
      · exact reserved_of_kept hs hr hkept hr' hid'
      · exact reserved_of_ended hs hrelease.recoveries hr (fun hzero => decide_eq_true ⟨rfl, hzero⟩) rfl hr' hid'
  split
  · exact hreleased.of_tables rfl rfl
  · exact hreleased

theorem ClaimLost.reserves (h : ClaimLost db next claimId now ids m debited) (hmoney : MoneyFrame db debited)
    (hrecoveries : debited.rewardRecoveries = db.rewardRecoveries) (hs : ∀ orderId, (book db orderId).Sound)
    (hheld : ReservesHeld db) : ReservesHeld next := by
  obtain ⟨hm, -, -, rfl⟩ := h
  have hr := mem_of_find? hm.recovery
  have hclaims : settleClaim debited claimId .consumed = settleClaim db claimId .consumed := by
    simp only [settleClaim]
    rw [hmoney.frame]
  have hupdated : debited.rewardRecoveries.update (·.id = m.recovery.id) withRecovered =
      db.rewardRecoveries.update (·.id = m.recovery.id) withRecovered := by rw [hrecoveries]
  refine hm.ends hheld hclaims ?_ (.inl ?_)
  · exact OneRecovery.update _ hupdated fun q hq => of_decide_eq_true hq
  · exact fun r' hr' hid' => reserved_of_ended hs hupdated hr (fun _ => decide_eq_true rfl) rfl hr' hid'

variable [Sha256]

theorem StoreDid.reserves {e : StoreEvent} (hd : StoreDid db e next) (hs : ∀ orderId, (book db orderId).Sound)
    (h : ReservesHeld db) : ReservesHeld next := by
  by_cases hrecovery : e.isRecovery
  · cases hd with
    | nothing => exact h
    | beginRefund _ _ hreserved hopened =>
      obtain ⟨c, hcid, -, -, hstate, hinsert⟩ := hopened.claim
      exact h.opened hreserved hcid hstate hinsert (by rw [hopened.frame])
    | markRefundPending => exact h.of_tables rfl rfl
    | rejectRefund hrejected hmoney => exact hrejected.reserves hmoney hs h
    | completeRefund hcompleted => exact hcompleted.reserves hs h
    | openClaim _ _ hreserved hopened =>
      obtain ⟨c, hcid, -, hstate, hinsert⟩ := hopened.claim
      exact h.opened hreserved hcid hstate hinsert (by rw [hopened.frame])
    | resolveClaim hm hothers => exact hm.ends h rfl (OneRecovery.of_eq rfl) (.inr hothers)
    | winClaim hwon hmoney => exact hwon.reserves hmoney hs h
    | loseClaim hlost hmoney hrecoveries => exact hlost.reserves hmoney hrecoveries hs h
    | _ => exact absurd hrecovery id
  · have hframe := hd.recoveryFrame hrecovery
    exact h.of_tables hframe.recoveries hframe.claims

end Monoize
