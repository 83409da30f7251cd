import Monoize.RecoveryCalls

/-! Claims, recoveries and refunds stay linked through every recovery operation. -/

namespace Monoize

open Fallible MachineInt Relational List Table

variable {db next : Database} {claimId refundId : String} {r : RewardRecovery} {o : StoreOrder} {now : Instant}
  {ids : RecoveryIds}

theorem exists_of_map_eq {α β : Type} {g : α → β} {l l' : List α} (h : l'.map g = l.map g) {a : α} (ha : a ∈ l') :
    ∃ b ∈ l, g b = g a :=
  mem_map.1 (h ▸ mem_map_of_mem ha)

theorem settleClaim_mem {state : RecoveryClaimState} {c' : RecoveryClaim} (h : c' ∈ (settleClaim db claimId state).rows) :
    ∃ c ∈ db.recoveryClaims.rows, c'.recoveryId = c.recoveryId ∧
      c'.kind = c.kind ∧ c'.providerClaimId = c.providerClaimId ∧ (c'.state = .opened → c.state = .opened) := by
  obtain ⟨c, hc, rfl⟩ := mem_update.1 h
  refine ⟨c, hc, ?_⟩
  split
  · rename_i hp
    exact ⟨rfl, rfl, rfl, fun _ => (of_decide_eq_true hp).2⟩
  · exact ⟨rfl, rfl, rfl, id⟩

theorem refunds_update_mem {refunds : Table Refund} {p : Refund → Bool} {f : Refund → Refund} (hf)
    (hlink : ∀ r, (f r).idempotencyKey = r.idempotencyKey ∧ (f r).orderId = r.orderId) {r : Refund}
    (hr : r ∈ refunds.rows) : ∃ r' ∈ (refunds.update p f hf).rows, r'.idempotencyKey = r.idempotencyKey ∧
      r'.orderId = r.orderId := by
  refine ⟨_, mem_update.2 ⟨r, hr, rfl⟩, ?_⟩
  split
  · exact hlink r
  · exact ⟨rfl, rfl⟩

variable (h : Linked db)

include h

theorem Linked.of_frame (hf : RecoveryFrame db next) : Linked next := by
  constructor
  · rw [hf.claims, hf.recoveries]
    exact h.claim_recovery
  · rw [hf.claims, hf.recoveries, hf.refunds]
    exact h.claim_refund

theorem Linked.mono (hr : next.rewardRecoveries.rows.map Keyed.key = db.rewardRecoveries.rows.map Keyed.key)
    (hc : ∀ c' ∈ next.recoveryClaims.rows, ∃ c ∈ db.recoveryClaims.rows, c'.recoveryId = c.recoveryId ∧
      c'.kind = c.kind ∧ c'.providerClaimId = c.providerClaimId)
    (hf : ∀ f ∈ db.refunds.rows, ∃ f' ∈ next.refunds.rows, f'.idempotencyKey = f.idempotencyKey ∧
      f'.orderId = f.orderId) : Linked next := by
  constructor
  · intro c' hc'
    obtain ⟨c, hcmem, hid, -, -⟩ := hc c' hc'
    obtain ⟨r, hrmem, hrid⟩ := h.claim_recovery c hcmem
    obtain ⟨r', hr'mem, hkey⟩ := exists_of_map_eq hr.symm hrmem
    have hr'id : r'.id = r.id := congrArg Prod.fst hkey
    exact ⟨r', hr'mem, hr'id.trans (hrid.trans hid.symm)⟩
  · intro c' hc' hkind
    obtain ⟨c, hcmem, hid, hk, hp⟩ := hc c' hc'
    obtain ⟨f, hfmem, hfkey, hforder⟩ := h.claim_refund c hcmem (hk ▸ hkind)
    obtain ⟨f', hf'mem, hf'key, hf'order⟩ := hf f hfmem
    refine ⟨f', hf'mem, hf'key.trans (hfkey.trans hp.symm), ?_⟩
    intro r' hr'mem hr'id
    obtain ⟨r, hrmem, hkey⟩ := exists_of_map_eq hr hr'mem
    have hrid : r.id = r'.id := congrArg Prod.fst hkey
    have hrorder : r.orderId = r'.orderId := congrArg Prod.snd hkey
    rw [← hrorder, hf'order]
    exact hforder r hrmem (hrid.trans (hr'id.trans hid))

theorem Linked.of_money (hm : MoneyFrame db next) : Linked next := by
  have hclaims : next.recoveryClaims = db.recoveryClaims := by rw [hm.frame]
  have hrefunds : next.refunds = db.refunds := by rw [hm.frame]
  apply h.mono hm.keys
  · intro c hc
    exact ⟨c, hclaims ▸ hc, rfl, rfl, rfl⟩
  · intro f hf
    exact ⟨f, hrefunds ▸ hf, rfl, rfl⟩

theorem Linked.insert_recovery (hframe : next = { db with rewardRecoveries := next.rewardRecoveries })
    (hinsert : db.rewardRecoveries.insert? r = some next.rewardRecoveries) : Linked next := by
  have hclaims : next.recoveryClaims = db.recoveryClaims := by rw [hframe]
  have hrefunds : next.refunds = db.refunds := by rw [hframe]
  obtain ⟨hfresh, hrows⟩ := insert?_eq_some.1 hinsert
  constructor
  · rw [hclaims, hrows]
    intro c hc
    obtain ⟨q, hq, hid⟩ := h.claim_recovery c hc
    exact ⟨q, mem_append_left _ hq, hid⟩
  · rw [hclaims, hrows, hrefunds]
    intro c hc hkind
    obtain ⟨f, hf, hkey, horder⟩ := h.claim_refund c hc hkind
    refine ⟨f, hf, hkey, ?_⟩
    intro q hq hid
    rcases mem_append.1 hq with hq | hq
    · exact horder q hq hid
    · obtain ⟨q', hq', hid'⟩ := h.claim_recovery c hc
      have hqr : q = r := mem_singleton.1 hq
      exact absurd (.inl (hid'.trans (hid.symm.trans (hqr ▸ rfl)))) (hfresh q' hq')

theorem Linked.ensure (hstands : RecoveryStands db next o r) : Linked next := by
  rcases hstands.inserted with hsame | hinsert
  · rw [hstands.frame, hsame]
    exact ⟨h.claim_recovery, h.claim_refund⟩
  · exact h.insert_recovery hstands.frame hinsert

theorem Linked.openRefund {key : String} (hopened : RefundOpened db next o r.id key)
    (hr : db.recovery? o.id = some r) : Linked next := by
  have hrecoveries : next.rewardRecoveries = db.rewardRecoveries := by rw [hopened.frame]
  obtain ⟨f, hforder, hfkey, -, hrefunds⟩ := hopened.refund
  obtain ⟨c, hcid, hckey, -, -, hclaims⟩ := hopened.claim
  have hrmem := mem_of_find? hr
  have hrorder := of_find?_decide hr
  constructor
  · rw [hrecoveries]
    intro c' hc'
    rcases (mem_insert hclaims).1 hc' with hc' | rfl
    · exact h.claim_recovery c' hc'
    · exact ⟨r, hrmem, hcid.symm⟩
  · rw [hrecoveries]
    intro c' hc' hkind
    rcases (mem_insert hclaims).1 hc' with hc' | rfl
    · obtain ⟨f', hf', hkey', horder'⟩ := h.claim_refund c' hc' hkind
      exact ⟨f', (mem_insert hrefunds).2 (.inl hf'), hkey', horder'⟩
    refine ⟨f, (mem_insert hrefunds).2 (.inr rfl), hfkey.trans hckey.symm, ?_⟩
    intro q hq hid
    have hqr := eq_of_clashes hq hrmem (.inl (hid.trans hcid))
    rw [hqr, hforder]
    exact hrorder

theorem Linked.openClaim {kind : RecoveryClaimKind} {now : Int}
    (hopened : ClaimOpened db next o r.id kind now) (hkind : kind ≠ .refund) (hr : db.recovery? o.id = some r) :
    Linked next := by
  have hrecoveries : next.rewardRecoveries = db.rewardRecoveries := by rw [hopened.frame]
  have hrefunds : next.refunds = db.refunds := by rw [hopened.frame]
  obtain ⟨c, hcid, hck, -, hclaims⟩ := hopened.claim
  constructor
  · rw [hrecoveries]
    intro c' hc'
    rcases (mem_insert hclaims).1 hc' with hc' | rfl
    · exact h.claim_recovery c' hc'
    · exact ⟨r, mem_of_find? hr, hcid.symm⟩
  · rw [hrecoveries, hrefunds]
    intro c' hc' hk
    rcases (mem_insert hclaims).1 hc' with hc' | rfl
    · exact h.claim_refund c' hc' hk
    · exact absurd (hck.symm.trans hk) hkind

omit h

theorem MoneyFrame.recovery? (h : MoneyFrame db next) {orderId : String} (hr : db.recovery? orderId = some r) :
    ∃ r', next.recovery? orderId = some r' ∧ r'.id = r.id := by
  obtain ⟨r', hr'mem, hkey⟩ := exists_of_map_eq h.keys.symm (mem_of_find? hr)
  have hid : r'.id = r.id := congrArg Prod.fst hkey
  have horder : r'.orderId = r.orderId := congrArg Prod.snd hkey
  have horderId := of_find?_decide hr
  have hfind := recovery?_of_mem hr'mem
  rw [horder, horderId] at hfind
  exact ⟨r', hfind, hid⟩

theorem RecoveryReserved.linked {ensured : Database} (h : RecoveryReserved db ensured next o r) (hl : Linked db) :
    Linked next ∧ ∃ r', next.recovery? o.id = some r' ∧ r'.id = r.id :=
  ⟨(hl.ensure h.toRecoveryStands).of_money h.money, h.money.recovery? h.row⟩

theorem Linked.settleClaim (hl : Linked db) (claimId : String) (state : RecoveryClaimState) :
    Linked { db with recoveryClaims := settleClaim db claimId state } := by
  refine hl.mono rfl ?_ ?_
  · intro c' hc'
    obtain ⟨c, hc, hid, hkind, hkey, -⟩ := settleClaim_mem hc'
    exact ⟨c, hc, hid, hkind, hkey⟩
  · intro f hf
    exact ⟨f, hf, rfl, rfl⟩

theorem Linked.updateRefunds {p : Refund → Bool} {f : Refund → Refund} (hf) (hl : Linked db)
    (hlink : ∀ r, (f r).idempotencyKey = r.idempotencyKey ∧ (f r).orderId = r.orderId)
    (hrefunds : next.refunds = db.refunds.update p f hf) (hclaims : next.recoveryClaims = db.recoveryClaims)
    (hrecoveries : next.rewardRecoveries = db.rewardRecoveries) : Linked next := by
  apply hl.mono (by rw [hrecoveries])
  · intro c hc
    exact ⟨c, hclaims ▸ hc, rfl, rfl, rfl⟩
  · intro r hr
    rw [hrefunds]
    exact refunds_update_mem hf hlink hr

theorem RefundRejected.linked {m : RefundMutation} {released : Database}
    (h : RefundRejected db next refundId now ids m released) (hl : Linked db) : Linked next := by
  have hmoney := (h.spec hl).1
  rw [h.result]
  exact ((hl.settleClaim m.claim.id .resolved).of_money hmoney).updateRefunds (f := Refund.withState .failed) (fun _ => rfl)
    (fun _ => ⟨rfl, rfl⟩) rfl rfl rfl

theorem RefundCompleted.linked {m : RefundMutation} (h : RefundCompleted db next refundId m) (hl : Linked db) :
    Linked next := by
  have hconsumed : Linked { db with
      recoveryClaims := settleClaim db m.claim.id .consumed
      refunds := settleRefund db refundId .succeeded } :=
    (hl.settleClaim m.claim.id .consumed).updateRefunds (f := Refund.withState .succeeded) (fun _ => rfl) (fun _ => ⟨rfl, rfl⟩)
      rfl rfl rfl
  rw [h.result]
  apply hconsumed.mono
  · exact keys_update
  · intro c hc
    exact ⟨c, hc, rfl, rfl, rfl⟩
  · intro f hf
    exact ⟨f, hf, rfl, rfl⟩

variable {m : ClaimMutation} {finalBalance : Int} {released debited : Database}

theorem ClaimWon.linked (h : ClaimWon db next claimId now ids m finalBalance released)
    (hs : ∀ orderId, (book db orderId).Sound) (hl : Linked db) : Linked next := by
  have hreleased := (hl.settleClaim claimId .resolved).of_money (h.spec hs).1
  rw [h.result]
  split
  · exact ⟨hreleased.claim_recovery, hreleased.claim_refund⟩
  · exact hreleased

theorem ClaimLost.linked (h : ClaimLost db next claimId now ids m debited) (hs : ∀ orderId, (book db orderId).Sound)
    (hl : Linked db) : Linked next := by
  have hmoney := (h.spec hs).1.1
  rw [h.result]
  apply ((hl.of_money hmoney).settleClaim claimId .consumed).mono
  · exact keys_update
  · intro c hc
    exact ⟨c, hc, rfl, rfl, rfl⟩
  · intro f hf
    exact ⟨f, hf, rfl, rfl⟩

end Monoize
