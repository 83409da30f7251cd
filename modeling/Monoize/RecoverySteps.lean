import Monoize.PaymentSteps

/-! What the recovery operations do to the books. -/

namespace Monoize

open Escrow Fallible MachineInt Relational Option Table RewardRecovery

variable {n : Nat} {v balance : Int} {db next : Database} {orderId ledgerId : String} {r : RewardRecovery} {u : User}
  {o : StoreOrder} {now : Instant}

variable {change : BalanceChange} {p : RewardRecovery → Bool} {id : String} {d finalBalance : Int}
  {otherOpen amount : Nat}

theorem parseNonnegative_toString {m : Nat} (h : parseNonnegative (toString n) = .ok m) : m = n := by
  simp only [parseNonnegative, ok_iff] at h
  obtain ⟨v, hv, _, -, rfl⟩ := h
  have hdigits : (toString n).toList = Nat.toDigits 10 n := Nat.toList_repr
  rw [hdigits, canonical?_toDigits] at hv
  exact (some.inj hv).symm

theorem parseNonnegative_ok (h : n < 2 ^ 128) : parseNonnegative (toString n) = .ok n := by
  have hdigits : (toString n).toList = Nat.toDigits 10 n := Nat.toList_repr
  simp only [parseNonnegative, hdigits, canonical?_toDigits, ok_iff]
  exact ⟨n, rfl, (), h, rfl⟩

theorem parseSigned_eq_ok {value : String} (h : parseSigned value = .ok v) :
    signedCanonical? value.toList = some v ∧ -2 ^ 127 ≤ v ∧ v < 2 ^ 127 := by
  simp only [parseSigned, ok_iff, checked_eq_some] at h
  obtain ⟨w, hw, rfl, hrange⟩ := h
  exact ⟨hw, hrange⟩

theorem parseSigned_toString {w : Int} (h : parseSigned (toString v) = .ok w) : w = v := by
  have hsigned := (parseSigned_eq_ok h).1
  rw [signedCanonical?_toString] at hsigned
  exact (some.inj hsigned).symm

theorem parseSigned_ok (h : -2 ^ 127 ≤ v ∧ v < 2 ^ 127) : parseSigned (toString v) = .ok v := by
  simp only [parseSigned, signedCanonical?_toString, ok_iff, checked_eq_some]
  exact ⟨v, rfl, rfl, h⟩

theorem recovery_of_id {recoveries : Table RewardRecovery} (hr : r ∈ recoveries.rows) :
    recoveries.find? (·.id = r.id) = some r := by
  apply find?_eq_some_of_mem hr (decide_eq_true rfl)
  intro q hq
  exact .inl (of_decide_eq_true hq)

theorem recovery_bounds (hs : (book db orderId).Sound) (hr : db.recovery? orderId = some r) :
    r.reservedNanoUsd + r.recoveredNanoUsd ≤ r.originalNanoUsd ∧ (r.originalNanoUsd : Int) < 2 ^ 127 := by
  have hescrow : (book db orderId).escrow = some r.amounts := by
    simp only [book, hr, map_some]
  obtain ⟨hsound, hlt, -⟩ := hs.escrow _ hescrow
  exact ⟨hsound.bounded, hlt⟩

theorem lockUserBalance_inv {userId : String} (h : lockUserBalance db userId = .ok balance) :
    ∃ u, db.users.find? (·.id = userId) = some u ∧
      signedCanonical? u.balanceNanoUsd.toList = some balance ∧ -2 ^ 127 ≤ balance ∧ balance < 2 ^ 127 := by
  simp only [lockUserBalance, ok_iff] at h
  obtain ⟨u, hu, hbalance⟩ := h
  exact ⟨u, hu, parseSigned_eq_ok hbalance⟩

theorem checkedI128_eq_ok (h : checkedI128 n = .ok v) : v = n ∧ (n : Int) < 2 ^ 127 := by
  obtain ⟨rfl, -, hlt⟩ := checked_eq_some.1 (orError_eq_ok.1 h)
  exact ⟨rfl, hlt⟩

structure MoneyFrame (db next : Database) : Prop where
  frame : next = { db with
    users := next.users
    billingLedger := next.billingLedger
    rewardRecoveries := next.rewardRecoveries }
  keys : next.rewardRecoveries.rows.map Keyed.key = db.rewardRecoveries.rows.map Keyed.key
  reward : ∀ orderId, next.reward? orderId = db.reward? orderId
  users : UsersKept db.users next.users

theorem MoneyFrame.refl (db : Database) : MoneyFrame db db := ⟨rfl, rfl, fun _ => rfl, UsersKept.refl db.users⟩

theorem MoneyFrame.order? (h : MoneyFrame db next) (orderId : String) : next.order? orderId = db.order? orderId := by
  rw [h.frame]
  rfl

structure BalanceMoved (db next : Database) (userId : String) (delta : Int) : Prop where
  money : MoneyFrame db next
  recoveries : next.rewardRecoveries = db.rewardRecoveries
  balance : ∀ other, storedBalance next other =
    storedBalance db other + if some userId = some other then delta else 0

theorem BalanceMoved.refl (db : Database) (userId : String) : BalanceMoved db db userId 0 := by
  refine ⟨MoneyFrame.refl db, rfl, fun other => ?_⟩
  rw [ite_self, Int.add_zero]

theorem applyRecoveryDelta_moved (h : applyRecoveryDelta db change ledgerId = .ok next)
    (hkey : ∀ orderId, change.ledgerKey ≠ fulfillmentKey orderId) (hu : db.users.find? (·.id = change.userId) = some u)
    (hcurrent : signedCanonical? u.balanceNanoUsd.toList = some change.current) :
    BalanceMoved db next change.userId change.delta := by
  simp only [applyRecoveryDelta, ok_iff] at h
  obtain ⟨balance, hbalance, ledger, hledger, rfl⟩ := h
  obtain ⟨rfl, hlo, hhi⟩ := checked_eq_some.1 hbalance
  refine ⟨⟨rfl, rfl, reward?_insert hledger ?_, setBalance_kept db change.userId hlo hhi⟩, rfl, ?_⟩
  · intro orderId hrow
    exact hkey orderId (some.inj hrow)
  · intro other
    rw [← storedBalance_credit hu hcurrent change.delta other]
    rfl

variable {f : RewardRecovery → RewardRecovery}

theorem recovery?_update_ne {hf}
    (h : next.rewardRecoveries = db.rewardRecoveries.update p f hf) (hr : db.recovery? orderId = some r)
    (hp : ∀ q, p q = true → q.id = r.id) (hid : id ≠ orderId) : next.recovery? id = db.recovery? id := by
  rw [recovery?_update h]
  cases hq : db.recovery? id with
  | none => rfl
  | some q =>
    rw [map_some, if_neg]
    intro hpq
    have hsame := eq_of_clashes (mem_of_find? hq) (mem_of_find? hr) (.inl (hp q hpq))
    have hqid := of_find?_decide hq
    have hrid := of_find?_decide hr
    exact hid (hqid.symm.trans (hsame ▸ hrid))

theorem bookStep_moves {a : Amounts} (ho : db.order? orderId = some o) (hr : db.recovery? orderId = some r)
    (hmove : Move r.amounts a d) (hframe : MoneyFrame db next) (hnew : (next.recovery? orderId).map amounts = some a)
    (hother : ∀ id, id ≠ orderId → next.recovery? id = db.recovery? id) (hbalance : ∀ userId, storedBalance next userId =
      storedBalance db userId + if some o.contract.userId = some userId then d else 0) :
    BookStep Book.Recovers orderId db next := by
  refine ⟨⟨d, ?_, ?_⟩, ?_⟩
  · have hbook : book next orderId = { book db orderId with escrow := some a } := by
      simp only [book, hframe.order?, hframe.reward, hnew]
    have hescrow : (book db orderId).escrow = some r.amounts := by
      simp only [book, hr, map_some]
    rw [hbook]
    exact Book.Recovers.moves hescrow hmove
  · rw [book_owner ho]
    exact hbalance
  · intro id hid
    simp only [book, hframe.order?, hframe.reward, hother id hid]

theorem fulfilledReward_inv (h : fulfilledReward db orderId = .ok n) :
    ∃ row, db.reward? orderId = some row ∧ row.deltaNanoUsd = n := by
  simp only [fulfilledReward, ok_iff] at h
  obtain ⟨row, hrow, value, hvalue, _, hnonneg, rfl⟩ := h
  refine ⟨row, hrow, ?_⟩
  rw [← parseSigned_toString hvalue]
  omega

theorem originalReward_inv (h : originalReward db o = .ok n) :
    n = 0 ∨ ∃ owner, (book db o.id).reward = some (owner, (n : Int)) := by
  unfold originalReward at h
  split at h
  · obtain ⟨row, hrow, hn⟩ := fulfilledReward_inv h
    refine .inr ⟨row.userId, ?_⟩
    simp only [book, hrow, map_some, hn]
  · exact .inl (pure_eq_ok.1 h).symm

theorem originalReward_lt (h : originalReward db o = .ok n) : (n : Int) < 2 ^ 127 := by
  unfold originalReward at h
  split at h
  · simp only [fulfilledReward, ok_iff] at h
    obtain ⟨row, -, value, hvalue, _, hnonneg, rfl⟩ := h
    have hlt := (parseSigned_eq_ok hvalue).2.2
    omega
  · rw [← pure_eq_ok.1 h]
    decide

abbrev RecoveryMoves (orderId : String) (db next : Database) : Prop :=
  MoneyFrame db next ∧ BookStep Book.Recovers orderId db next

theorem RecoveryMoves.stay (orderId : String) : RecoveryMoves orderId db db :=
  ⟨MoneyFrame.refl db, (SameBooks.refl db).step Book.Recovers.idle orderId⟩

theorem recovery_by_id (hr : db.recovery? orderId = some r) : db.rewardRecoveries.find? (·.id = r.id) = some r := by
  apply find?_eq_some_of_mem (mem_of_find? hr)
  · exact decide_eq_true rfl
  · intro q hq
    exact .inl (of_decide_eq_true hq)

/-- The reserved reward goes back to the user. -/
structure RewardReleased (db next : Database) (o : StoreOrder) (r : RewardRecovery) (delta : Int) (now : Instant)
    (ledgerId : String) : Prop where
  unrecovered : r.recoveredNanoUsd = 0
  released : ∃ balance, lockUserBalance db o.contract.userId = .ok balance ∧
    releaseReward db o r.id balance delta now ledgerId = .ok next

theorem releaseIfLast_inv (h : releaseIfLast db o r otherOpen now ledgerId = .ok next) :
    (next = db ∧ (otherOpen ≠ 0 ∨ r.recoveredNanoUsd ≠ 0 ∨ r.reservedNanoUsd = 0)) ∨
      RewardReleased db next o r r.reservedNanoUsd now ledgerId := by
  simp only [releaseIfLast, ok_iff] at h
  obtain ⟨reserved, hreserved, recovered, hrecovered, h⟩ := h
  rw [parseNonnegative_toString hreserved, parseNonnegative_toString hrecovered] at h
  split at h
  · rename_i hcase
    simp only [ok_iff] at h
    obtain ⟨balance, hbalance, delta, hdelta, h⟩ := h
    exact .inr ⟨hcase.2.1, balance, hbalance, (checkedI128_eq_ok hdelta).1 ▸ h⟩
  · rename_i hcase
    refine .inl ⟨(pure_eq_ok.1 h).symm, ?_⟩
    by_contra hnone
    simp only [not_or, not_not] at hnone
    exact hcase hnone

theorem releaseWon_inv (h : releaseWon db o r now ledgerId = .ok (finalBalance, next)) :
    (next = db ∧ (r.recoveredNanoUsd ≠ 0 ∨ r.reservedNanoUsd = 0)) ∨
      RewardReleased db next o r (wrapping 127 r.reservedNanoUsd) now ledgerId := by
  simp only [releaseWon, bind_eq_ok] at h
  obtain ⟨reserved, hreserved, recovered, hrecovered, balance, hbalance, h⟩ := h
  rw [parseNonnegative_toString hreserved, parseNonnegative_toString hrecovered] at h
  split at h
  · rename_i hcase
    simp only [bind_eq_ok, pair_eq_ok] at h
    obtain ⟨_, hrelease, -, rfl⟩ := h
    exact .inr ⟨hcase.2, balance, hbalance, hrelease⟩
  · rename_i hcase
    simp only [pair_eq_ok] at h
    refine .inl ⟨h.2.symm, ?_⟩
    by_contra hnone
    simp only [not_or, not_not] at hnone
    exact hcase hnone.symm

section Moves

variable (ho : db.order? orderId = some o) (hr : db.recovery? orderId = some r)

include ho hr

theorem BalanceMoved.record {mid : Database} (hf) (h : BalanceMoved db mid o.contract.userId d)
    (hpr : p r = true) (hp : ∀ q, p q = true → q.id = r.id) (hmove : Move r.amounts (f r).amounts d)
    (hnext : next = { mid with rewardRecoveries := mid.rewardRecoveries.update p f hf }) :
    RecoveryMoves orderId db next := by
  have hrecoveries : next.rewardRecoveries = db.rewardRecoveries.update p f hf := by
    rw [hnext, h.recoveries]
  have hframe : MoneyFrame db next := by
    refine ⟨?_, ?_, fun id => ?_, ?_⟩
    · rw [hnext, h.money.frame]
    · rw [hrecoveries]
      exact keys_update hf
    · rw [hnext]
      exact h.money.reward id
    · rw [hnext]
      exact h.money.users
  refine ⟨hframe, bookStep_moves ho hr hmove hframe ?_ ?_ ?_⟩
  · rw [recovery?_update hrecoveries, hr, map_some, map_some, if_pos hpr]
  · intro id hid
    exact recovery?_update_ne hrecoveries hr hp hid
  · rw [hnext]
    exact h.balance

theorem reserveReward_spec (h : reserveReward db o r.id balance amount (-amount) now ledgerId = .ok next)
    (hreserved : r.reservedNanoUsd = 0) (hrecovered : r.recoveredNanoUsd = 0) (hamount : amount ≤ r.originalNanoUsd)
    (hu : db.users.find? (·.id = o.contract.userId) = some u)
    (hbalance : signedCanonical? u.balanceNanoUsd.toList = some balance) : RecoveryMoves orderId db next := by
  simp only [reserveReward, ok_iff] at h
  obtain ⟨debited, hdebit, hnext⟩ := h
  have hmoved := applyRecoveryDelta_moved hdebit (recoveryKey_ne_fulfillmentKey r.id "reserve") hu hbalance
  have hamounts : (r.withReserve amount (recoveryKey r.id "reserve")).amounts = ⟨r.originalNanoUsd, amount, 0⟩ := by
    simp only [amounts, withReserve, hrecovered]
  have hmove : Move r.amounts (r.withReserve amount (recoveryKey r.id "reserve")).amounts (-amount) := by
    rw [hamounts]
    exact Move.reserve amount hamount hreserved hrecovered
  refine hmoved.record ho hr _ ?_ ?_ hmove hnext.symm
  · exact decide_eq_true ⟨rfl, hreserved, hrecovered⟩
  · intro q hq
    exact (of_decide_eq_true hq).1

theorem releaseReward_spec (h : releaseReward db o r.id balance r.reservedNanoUsd now ledgerId = .ok next)
    (hrecovered : r.recoveredNanoUsd = 0) (hu : db.users.find? (·.id = o.contract.userId) = some u)
    (hbalance : signedCanonical? u.balanceNanoUsd.toList = some balance) : RecoveryMoves orderId db next := by
  simp only [releaseReward, ok_iff] at h
  obtain ⟨credited, hcredit, hnext⟩ := h
  have hmoved := applyRecoveryDelta_moved hcredit (recoveryKey_ne_fulfillmentKey r.id "release") hu hbalance
  have hamounts : (r.withRelease (recoveryKey r.id "release")).amounts = ⟨r.originalNanoUsd, 0, 0⟩ := by
    simp only [amounts, withRelease, hrecovered]
  have hmove : Move r.amounts (r.withRelease (recoveryKey r.id "release")).amounts r.reservedNanoUsd := by
    rw [hamounts]
    exact Move.release hrecovered
  refine hmoved.record ho hr _ ?_ ?_ hmove hnext.symm
  · exact decide_eq_true ⟨rfl, hrecovered⟩
  · intro q hq
    exact (of_decide_eq_true hq).1

theorem refundReserve_spec (h : refundReserve db o r.id r.originalNanoUsd now ledgerId = .ok next) :
    RecoveryMoves orderId db next := by
  simp only [refundReserve, ok_iff, recovery_by_id hr, some.injEq] at h
  obtain ⟨_, rfl, reserved, hreserved, recovered, hrecovered, _, hzero, h⟩ := h
  rw [parseNonnegative_toString hrecovered] at hzero
  have hres := parseNonnegative_toString hreserved
  split at h
  · rename_i hcase
    simp only [ok_iff] at h
    obtain ⟨balance, hbalance, delta, hdelta, _, -, h⟩ := h
    obtain ⟨u, hu, hparse, -⟩ := lockUserBalance_inv hbalance
    rw [(checkedI128_eq_ok hdelta).1] at h
    exact reserveReward_spec ho hr h (hres ▸ hcase.2) hzero le_rfl hu hparse
  · split at h
    · cases h
    · rw [← pure_eq_ok.1 h]
      exact RecoveryMoves.stay orderId

theorem claimReserve_spec (h : claimReserve db o r.id r.originalNanoUsd now ledgerId = .ok next) :
    RecoveryMoves orderId db next := by
  simp only [claimReserve, ok_iff, recovery_by_id hr, some.injEq] at h
  obtain ⟨_, rfl, reserved, hreserved, recovered, hrecovered, h⟩ := h
  split at h
  · rename_i hcase
    rw [parseNonnegative_toString hreserved, parseNonnegative_toString hrecovered] at hcase
    simp only [ok_iff] at h
    obtain ⟨balance, hbalance, h⟩ := h
    obtain ⟨u, hu, hparse, -, hlt⟩ := lockUserBalance_inv hbalance
    split at h
    · have hle : (min r.originalNanoUsd balance.toNat : Int) < 2 ^ 127 := by omega
      have hwrap : wrapping 127 (-((min r.originalNanoUsd balance.toNat : Nat) : Int)) =
          -((min r.originalNanoUsd balance.toNat : Nat) : Int) := by
        apply wrapping_eq_self <;> omega
      rw [hwrap] at h
      exact reserveReward_spec ho hr h hcase.2.1 hcase.2.2 (Nat.min_le_left _ _) hu hparse
    · rw [← pure_eq_ok.1 h]
      exact RecoveryMoves.stay orderId
  · rw [← pure_eq_ok.1 h]
    exact RecoveryMoves.stay orderId

theorem RewardReleased.spec (h : RewardReleased db next o r r.reservedNanoUsd now ledgerId) :
    RecoveryMoves orderId db next := by
  obtain ⟨hzero, balance, hbalance, hrelease⟩ := h
  obtain ⟨u, hu, hparse, -⟩ := lockUserBalance_inv hbalance
  exact releaseReward_spec ho hr hrelease hzero hu hparse

end Moves

theorem releaseIfLast_spec (h : releaseIfLast db o r otherOpen now ledgerId = .ok next)
    (ho : db.order? orderId = some o) (hr : db.recovery? orderId = some r) : RecoveryMoves orderId db next := by
  rcases releaseIfLast_inv h with ⟨rfl, -⟩ | h
  · exact RecoveryMoves.stay orderId
  · exact h.spec ho hr

theorem releaseWon_spec (h : releaseWon db o r now ledgerId = .ok (finalBalance, next))
    (ho : db.order? orderId = some o) (hr : db.recovery? orderId = some r) (hlt : (r.reservedNanoUsd : Int) < 2 ^ 127) :
    RecoveryMoves orderId db next := by
  have hwrap : wrapping 127 (r.reservedNanoUsd : Int) = r.reservedNanoUsd := by
    apply wrapping_eq_self <;> omega
  rcases releaseWon_inv h with ⟨rfl, -⟩ | h
  · exact RecoveryMoves.stay orderId
  · rw [hwrap] at h
    exact h.spec ho hr

theorem ensureRecovery_spec {original : Nat} {recoveryId : String}
    (h : ensureRecovery db o.id original id = .ok (recoveryId, next)) (ho : db.order? o.id = some o)
    (horiginal : original = 0 ∨ ∃ owner, (book db o.id).reward = some (owner, (original : Int)))
    (hlt : (original : Int) < 2 ^ 127) :
    (∃ r, next.recovery? o.id = some r ∧ r.id = recoveryId ∧ r.originalNanoUsd = original) ∧
      BookStep Book.Recovers o.id db next ∧ next = { db with rewardRecoveries := next.rewardRecoveries } ∧
      (next.rewardRecoveries = db.rewardRecoveries ∨
        db.rewardRecoveries.insert? ⟨recoveryId, o.id, original, 0, 0, none, none, .opened⟩ =
          some next.rewardRecoveries) := by
  unfold ensureRecovery at h
  split at h
  · rename_i r hr
    simp only [ok_iff] at h
    obtain ⟨stored, hstored, _, rfl, rfl, rfl⟩ := h
    have hsame := parseNonnegative_toString hstored
    exact ⟨⟨r, hr, rfl, hsame.symm⟩, (SameBooks.refl db).step Book.Recovers.idle o.id, rfl, .inl rfl⟩
  · rename_i hnone
    simp only [ok_iff] at h
    obtain ⟨recoveries, hinsert, rfl, rfl⟩ := h
    have hfind (orderId : String) : recoveries.find? (·.orderId = orderId) = (db.recovery? orderId).or
        (if decide (o.id = orderId) then some ⟨id, o.id, original, 0, 0, none, none, .opened⟩ else none) :=
      find?_insert hinsert _
    have hnew : recoveries.find? (·.orderId = o.id) = some ⟨id, o.id, original, 0, 0, none, none, .opened⟩ := by
      rw [hfind, show db.recovery? o.id = none from hnone, none_or, if_pos (decide_eq_true rfl)]
    refine ⟨⟨_, hnew, rfl, rfl⟩, ⟨⟨0, ?_, ?_⟩, ?_⟩, rfl, .inr hinsert⟩
    · have hbook : book { db with rewardRecoveries := recoveries } o.id =
          { book db o.id with escrow := some (Amounts.fresh original) } := by
        simp only [book, Database.recovery?, hnew, map_some]
        rfl
      rw [hbook]
      apply Book.Recovers.opens
      · rw [book_order ho]
        exact some_ne_none _
      · simp only [book, show db.recovery? o.id = none from hnone, map_none]
      · exact horiginal
      · exact hlt
    · intro userId
      rw [ite_self, Int.add_zero]
      rfl
    · intro orderId hid
      have hother : recoveries.find? (·.orderId = orderId) = db.recovery? orderId := by
        rw [hfind, if_neg (fun e => hid (of_decide_eq_true e).symm), or_none]
      simp only [book, Database.recovery?, hother]
      rfl

/-- The order's recovery row is there, as it was or new, and nothing else has changed. -/
structure RecoveryStands (db next : Database) (o : StoreOrder) (r : RewardRecovery) : Prop where
  order : next.order? o.id = some o
  row : next.recovery? o.id = some r
  step : BookStep Book.Recovers o.id db next
  frame : next = { db with rewardRecoveries := next.rewardRecoveries }
  inserted : next.rewardRecoveries = db.rewardRecoveries ∨
    db.rewardRecoveries.insert? ⟨r.id, o.id, r.originalNanoUsd, 0, 0, none, none, .opened⟩ = some next.rewardRecoveries

theorem ensureRecovery_stands {recoveryId : String} {original : Nat} (ho : db.order? orderId = some o)
    (horiginal : originalReward db o = .ok original)
    (h : ensureRecovery db orderId original id = .ok (recoveryId, next)) :
    ∃ r, r.id = recoveryId ∧ r.originalNanoUsd = original ∧ RecoveryStands db next o r := by
  rw [← order?_id ho] at h ho
  obtain ⟨⟨r, hr, rfl, rfl⟩, hstep, hframe, hcase⟩ :=
    ensureRecovery_spec h ho (originalReward_inv horiginal) (originalReward_lt horiginal)
  refine ⟨r, rfl, rfl, ?_, hr, hstep, hframe, hcase⟩
  rw [hframe]
  exact ho

def OneRecovery (recoveryId : String) (db next : Database) : Prop :=
  ∀ r ∈ next.rewardRecoveries.rows, r.id = recoveryId ∨ r ∈ db.rewardRecoveries.rows

variable {recoveryId : String} {original : Nat}

theorem OneRecovery.of_eq (h : next.rewardRecoveries = db.rewardRecoveries) : OneRecovery recoveryId db next := by
  intro r hr
  rw [h] at hr
  exact .inr hr

theorem OneRecovery.trans {db₁ db₂ db₃ : Database} (h₁ : OneRecovery recoveryId db₁ db₂)
    (h₂ : OneRecovery recoveryId db₂ db₃) : OneRecovery recoveryId db₁ db₃ := by
  intro r hr
  rcases h₂ r hr with hid | hr
  · exact .inl hid
  · exact h₁ r hr

theorem OneRecovery.update (hf)
    (h : next.rewardRecoveries = db.rewardRecoveries.update p f hf) (hp : ∀ r, p r = true → r.id = recoveryId) :
    OneRecovery recoveryId db next := by
  intro r' hr'
  rw [h] at hr'
  obtain ⟨r, hr, rfl⟩ := mem_update.1 hr'
  split
  · rename_i hpr
    have hid : (f r).id = r.id := congrArg Prod.fst (hf r)
    exact .inl (hid.trans (hp r hpr))
  · exact .inr hr

theorem applyRecoveryDelta_recoveries (h : applyRecoveryDelta db change ledgerId = .ok next) :
    next.rewardRecoveries = db.rewardRecoveries := by
  simp only [applyRecoveryDelta, ok_iff] at h
  obtain ⟨_, -, _, -, rfl⟩ := h
  rfl

theorem reserveReward_one {balance delta : Int}
    (h : reserveReward db o recoveryId balance amount delta now ledgerId = .ok next) :
    OneRecovery recoveryId db next := by
  simp only [reserveReward, ok_iff] at h
  obtain ⟨debited, hdebit, rfl⟩ := h
  refine (OneRecovery.of_eq (applyRecoveryDelta_recoveries hdebit)).trans
    (OneRecovery.update (f := withReserve _ _) (fun _ => rfl) rfl ?_)
  intro r hr
  exact (of_decide_eq_true hr).1

theorem refundReserve_one (h : refundReserve db o recoveryId original now ledgerId = .ok next) :
    OneRecovery recoveryId db next := by
  simp only [refundReserve, ok_iff] at h
  obtain ⟨_, -, _, -, _, -, _, -, h⟩ := h
  split at h
  · simp only [ok_iff] at h
    obtain ⟨_, -, _, -, _, -, h⟩ := h
    exact reserveReward_one h
  · split at h
    · cases h
    · rw [← pure_eq_ok.1 h]
      exact OneRecovery.of_eq rfl

theorem claimReserve_one (h : claimReserve db o recoveryId original now ledgerId = .ok next) :
    OneRecovery recoveryId db next := by
  simp only [claimReserve, ok_iff] at h
  obtain ⟨_, -, _, -, _, -, h⟩ := h
  split at h
  · simp only [ok_iff] at h
    obtain ⟨_, -, h⟩ := h
    split at h
    · exact reserveReward_one h
    · rw [← pure_eq_ok.1 h]
      exact OneRecovery.of_eq rfl
  · rw [← pure_eq_ok.1 h]
    exact OneRecovery.of_eq rfl

/-- What a refund and a claim do before they are recorded: the recovery stands, and its reward is reserved. -/
structure RecoveryReserved (db ensured next : Database) (o : StoreOrder) (r : RewardRecovery) : Prop
    extends RecoveryStands db ensured o r where
  money : MoneyFrame ensured next
  booked : BookStep Book.Recovers o.id ensured next
  one : OneRecovery r.id ensured next

theorem RecoveryStands.refundReserve (h : RecoveryStands db ensured o r)
    (hreserve : refundReserve ensured o r.id r.originalNanoUsd now ledgerId = .ok next) :
    RecoveryReserved db ensured next o r := by
  obtain ⟨hmoney, hbooked⟩ := refundReserve_spec h.order h.row hreserve
  exact ⟨h, hmoney, hbooked, refundReserve_one hreserve⟩

theorem RecoveryStands.claimReserve (h : RecoveryStands db ensured o r)
    (hreserve : claimReserve ensured o r.id r.originalNanoUsd now ledgerId = .ok next) :
    RecoveryReserved db ensured next o r := by
  obtain ⟨hmoney, hbooked⟩ := claimReserve_spec h.order h.row hreserve
  exact ⟨h, hmoney, hbooked, claimReserve_one hreserve⟩

theorem RecoveryReserved.bookStep (h : RecoveryReserved db ensured reserved o r) (ho : db.order? orderId = some o)
    (hsame : SameBooks reserved next) : BookStep Book.Recovers orderId db next := by
  rw [← order?_id ho]
  exact (h.step.trans h.booked).before hsame

theorem remainingReward_inv (h : remainingReward r = .ok n) :
    n = r.originalNanoUsd - r.reservedNanoUsd - r.recoveredNanoUsd ∧
      r.reservedNanoUsd + r.recoveredNanoUsd ≤ r.originalNanoUsd := by
  simp only [remainingReward, ok_iff] at h
  obtain ⟨original, horiginal, reserved, hreserved, recovered, hrecovered, _, hle, rfl⟩ := h
  rw [parseNonnegative_toString horiginal, parseNonnegative_toString hreserved,
    parseNonnegative_toString hrecovered] at hle ⊢
  exact ⟨rfl, by omega⟩

theorem debitLoss_spec (h : debitLoss db o r now ledgerId = .ok next) (hlt : (r.originalNanoUsd : Int) < 2 ^ 127) :
    r.reservedNanoUsd + r.recoveredNanoUsd ≤ r.originalNanoUsd ∧ BalanceMoved db next o.contract.userId
      (-(r.originalNanoUsd - r.reservedNanoUsd - r.recoveredNanoUsd : Nat)) := by
  simp only [debitLoss, ok_iff] at h
  obtain ⟨remaining, hremaining, h⟩ := h
  obtain ⟨rfl, hle⟩ := remainingReward_inv hremaining
  refine ⟨hle, ?_⟩
  split at h
  · simp only [ok_iff] at h
    obtain ⟨balance, hbalance, h⟩ := h
    obtain ⟨u, hu, hparse, -⟩ := lockUserBalance_inv hbalance
    have hwrap : wrapping 127 (-((r.originalNanoUsd - r.reservedNanoUsd - r.recoveredNanoUsd : Nat) : Int)) =
        -((r.originalNanoUsd - r.reservedNanoUsd - r.recoveredNanoUsd : Nat) : Int) := by
      apply wrapping_eq_self <;> omega
    rw [hwrap] at h
    exact applyRecoveryDelta_moved h (recoveryKey_ne_fulfillmentKey r.id "loss") hu hparse
  · rename_i hzero
    rw [← pure_eq_ok.1 h, not_not.1 hzero]
    exact BalanceMoved.refl db _

end Monoize
