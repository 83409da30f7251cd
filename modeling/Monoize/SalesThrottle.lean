import Monoize.SalesClaims

/-! The pace at which an agent can guess the buyers of orders. -/

namespace Monoize

open Fallible Relational Transition Table

variable {s : SalesDesk}

def Throttled (s : SalesDesk) : Prop :=
  ∀ agentUserId start,
    s.claimAttempts.count (fun a => a.agentUserId = agentUserId ∧ start ≤ a.attemptedAt ∧
      a.attemptedAt ≤ start + timestamp (minutes 1)) ≤ claimAttemptsPerMinute ∧
    s.claimAttempts.count (fun a => a.agentUserId = agentUserId ∧ start ≤ a.attemptedAt ∧
      a.attemptedAt ≤ start + timestamp (minutes claimFailureWindowMinutes) ∧ a.succeeded = false) ≤
        claimFailuresBeforeCooldown

theorem timestamp_sub_minutes (now n : Int) : timestamp (now - minutes n) = timestamp now - timestamp (minutes n) := by
  unfold timestamp minutes seconds
  omega

theorem SalesDesk.claim_attempts {agentUserId orderNumber submitted entryId : String} {rateBp : Int} {now : Instant} :
    (s.commit (s.claim agentUserId orderNumber submitted rateBp now entryId)).claimAttempts = s.claimAttempts := by
  unfold SalesDesk.claim
  cases claimOrderInner s.db agentUserId orderNumber submitted rateBp now entryId <;> rfl

theorem Throttled.claimOrder (h : Throttled s) (agentUserId orderNumber submitted : String) (now : Instant)
    (entryId attemptId : String) :
    Throttled (s.claimOrder agentUserId orderNumber submitted now entryId attemptId).2 := by
  unfold SalesDesk.claimOrder
  split
  · exact h
  · exact h
  rename_i rateBp hrate _
  dsimp only
  split
  · rw [Throttled, SalesDesk.claim_attempts]
    exact h
  rename_i next hrecord
  simp only [recordClaimAttempt, SalesDesk.claim_attempts, ok_iff] at hrecord
  obtain ⟨attempts, hinsert, -, rfl⟩ := hrecord
  simp only [checkClaimRate, require_eq_ok, not_or, Nat.not_le, timestamp_sub_minutes] at hrate
  obtain ⟨hrecent, hfailures⟩ := hrate
  -- An earlier attempt in a window that holds the new one was counted by the check.
  intro agent start
  constructor
  · refine count_insert_le hinsert ?_ hrecent (h agent start).1
    simp only [decide_eq_true_eq]
    rintro ⟨rfl, -, hnew⟩ b - ⟨hagent, hold, -⟩
    exact ⟨hagent, by omega⟩
  · refine count_insert_le hinsert ?_ hfailures (h agent start).2
    simp only [decide_eq_true_eq]
    rintro ⟨rfl, -, hnew, -⟩ b - ⟨hagent, hold, -, hfailed⟩
    exact ⟨hagent, by omega, hfailed⟩

inductive ClaimStep : SalesDesk → SalesDesk → Prop
  | claim (s : SalesDesk) (agentUserId orderNumber submitted : String) (now : Instant) (entryId attemptId : String) :
      ClaimStep s (s.claimOrder agentUserId orderNumber submitted now entryId attemptId).2
  | other {s t : SalesDesk} : t.claimAttempts = s.claimAttempts → ClaimStep s t

theorem claim_attempts_throttled (h : Reachable (·.claimAttempts = .empty) ClaimStep s) : Throttled s := by
  apply h.invariant
  · intro s hs agent start
    simp [hs, count]
  · intro s t hs hstep
    cases hstep with
    | claim agentUserId orderNumber submitted now entryId attemptId =>
      exact hs.claimOrder agentUserId orderNumber submitted now entryId attemptId
    | other hsame =>
      rw [Throttled, hsame]
      exact hs

theorem claim_attempts_throttled_once : ∃ s : SalesDesk, s.claimAttempts.rows.length = 1 ∧ Throttled s :=
  ⟨(SalesDesk.claimOrder { db := {} } "agent" "order" "buyer" 0 "e" "a").2, by decide,
    claim_attempts_throttled (.next (.start rfl) (.claim ..))⟩

end Monoize
