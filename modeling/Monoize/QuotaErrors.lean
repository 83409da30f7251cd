import Monoize.QuotaSteps

/-! The errors of a terminal transaction. -/

namespace Monoize

open Fallible MachineInt Relational

variable {e : QuotaError} {db : Database} {now : Instant}

variable {actualFen actual : Option Int} {existing : QuotaReservation} {vid : String}

theorem parseCanonical_error {value : String} (h : parseCanonical value = .error e) : e = overflow := by
  simp only [parseCanonical, bind_eq_error, orError_eq_error] at h
  rcases h with ⟨-, rfl⟩ | ⟨_, -, -, rfl⟩ <;> rfl

theorem reservationFromRow_error {row : QuotaReservationRow} (h : reservationFromRow db row = .error e) : e = overflow := by
  have hamount {a : Option Int} (ha : parseAmount? a = .error e) : e = overflow := by
    cases a with
    | none => exact absurd ha pure_ne_error
    | some a => exact parseCanonical_error (map_eq_error.1 ha)
  simp only [reservationFromRow, bind_eq_error, pure_ne_error, and_false, exists_false, or_false] at h
  rcases h with h | ⟨_, -, h | ⟨_, -, h | ⟨_, -, h⟩⟩⟩
  · exact parseCanonical_error h
  · exact parseCanonical_error h
  · exact hamount h
  · exact hamount h

theorem settleBuckets_error {links : List LinkedBucket} {t : Table QuotaBucket}
    (h : settleBuckets actualFen now t links = .error e) : e = overflow := by
  induction links generalizing t with
  | nil => exact absurd h pure_ne_error
  | cons l links ih =>
    simp only [settleBuckets, bind_eq_error, orError_eq_error, ok_iff] at h
    rcases h with h | ⟨linked, hlinked, h | ⟨current, hcurrent, h | ⟨_, -, h | ⟨_, -, h | ⟨_, -, h⟩⟩⟩⟩⟩
    · exact parseCanonical_error h
    · exact parseCanonical_error h
    · have hl := parseCanonical_bounds hlinked
      have hc := parseCanonical_bounds hcurrent
      rw [checked_sub_of_nonneg hc.1 hc.2 hl.1 hl.2] at h
      cases h.1
    · exact parseCanonical_error h
    · exact h.2.symm
    · exact ih h

theorem actualFenCny_error (h : actualFenCny existing actual = .error e) : e = overflow ∨ e = .aborted := by
  cases actual with
  | none => exact absurd h pure_ne_error
  | some a =>
    simp only [actualFenCny, bind_eq_error, map_eq_error, orError_eq_error, roundProductRatio] at h
    rcases h with h | ⟨_, -, h | ⟨_, -, ⟨-, rfl⟩ | ⟨_, -, ⟨-, rfl⟩ | ⟨_, -, ⟨-, rfl⟩ | ⟨_, -, ⟨-, rfl⟩ | ⟨_, -, -, rfl⟩⟩⟩⟩⟩⟩
    · exact .inl (parseCanonical_error h)
    · exact .inl (parseCanonical_error h)
    · exact .inl rfl
    · exact .inl rfl
    · exact .inr rfl
    · exact .inl rfl
    · exact .inl rfl

theorem recordViolation_error (h : recordViolation db existing actualFen now vid = .error e) : e = storageConflict := by
  unfold recordViolation at h
  split at h
  · exact absurd h pure_ne_error
  split at h
  · simp only [bind_eq_error, orError_eq_error, pure_ne_error, and_false, exists_false, or_false] at h
    rcases h with ⟨-, rfl⟩ | ⟨_, -, -, rfl⟩ <;> rfl
  · exact absurd h pure_ne_error

def terminalFailures : List QuotaError :=
  [.code "quota_reservation_not_found", overflow, .aborted, storageConflict,
    .storage "quota reservation bucket links changed"]

theorem terminalTx_error {rid : String}
    (h : terminalTx db rid actual now vid = .error e) : e ∈ terminalFailures ∨ e = .code "quota_terminal_conflict" ∧
      ∃ row, db.quotaReservations.find? (·.id = rid) = some row ∧ row.state ≠ .reserved := by
  simp only [terminalTx, bind_eq_error, orError_eq_error, ok_iff] at h
  rcases h with ⟨-, rfl⟩ | ⟨row, hrow, h | ⟨existing, hexisting, h⟩⟩
  · exact .inl (by decide)
  · exact .inl (reservationFromRow_error h ▸ by decide)
  split at h
  · rename_i hstate
    rw [(reservationFromRow_inv hexisting).2.1] at hstate
    simp only [bind_eq_error, require_eq_error, pure_ne_error, and_false, exists_false, or_false] at h
    exact .inr ⟨h.2.symm, row, hrow, hstate⟩
  · left
    simp only [bind_eq_error, require_eq_error, pure_ne_error, and_false, exists_false, or_false] at h
    rcases h with h | ⟨_, -, ⟨-, rfl⟩ | ⟨_, -, h | ⟨_, -, h⟩⟩⟩
    · rcases actualFenCny_error h with rfl | rfl <;> decide
    · decide
    · exact settleBuckets_error h ▸ by decide
    · exact recordViolation_error h ▸ by decide

end Monoize
