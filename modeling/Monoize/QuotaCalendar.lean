import Mathlib.Order.Monotone.Basic
import Monoize.QuotaWindow

/-! The windows of a calendar kind cut time into days, weeks and months. -/

namespace Monoize

open Fallible

/-- A family of half-open windows, one for each point, that cuts the line into pieces. -/
structure Tiles (window : Int → Int × Int) : Prop where
  mem : ∀ d, (window d).1 ≤ d ∧ d < (window d).2
  same : ∀ d e, (window d).1 ≤ e → e < (window d).2 → window e = window d

theorem Tiles.next {window : Int → Int × Int} (h : Tiles window) (d : Int) : (window (window d).2).1 = (window d).2 := by
  have hd := h.mem d
  have hstop := h.mem (window d).2
  -- Otherwise the last point of the window lies in both windows, so they are one, and it does not hold its end.
  by_contra hne
  have hlast := h.same d ((window d).2 - 1) (by omega) (by omega)
  have hboth := h.same (window d).2 ((window d).2 - 1) (by omega) (by omega)
  rw [← hlast, hboth] at hd
  rw [← hboth, hlast] at hstop
  omega

theorem Tiles.eq_or_disjoint {window : Int → Int × Int} (h : Tiles window) (d e : Int) :
    window e = window d ∨ (window e).2 ≤ (window d).1 ∨ (window d).2 ≤ (window e).1 := by
  by_contra hno
  push Not at hno
  obtain ⟨hne, hlow, hhigh⟩ := hno
  rcases le_total (window d).1 (window e).1 with hle | hle
  · exact hne ((h.same e _ le_rfl (by have := h.mem e; omega)).symm.trans (h.same d _ hle hhigh))
  · exact hne ((h.same e _ hle hlow).symm.trans (h.same d _ le_rfl (by have := h.mem d; omega)))

/-- The days from the 1st of March of year 0 to that of year `y`. -/
def marchDays (y : Int) : Int := 365 * y + y / 4 - y / 100 + y / 400

theorem marchDays_mono {y y' : Int} (h : y ≤ y') : marchDays y ≤ marchDays y' := by
  unfold marchDays
  omega

theorem marchDays_succ (y : Int) : marchDays y + 365 ≤ marchDays (y + 1) ∧ marchDays (y + 1) ≤ marchDays y + 366 := by
  unfold marchDays
  omega

def yearOfEra (day : Int) : Int := (day - day / 1460 + day / 36524 - day / 146096) / 365

theorem yearOfEra_mono {a b : Int} (h : a ≤ b) (ha : 0 ≤ a) (hb : b < 146097) : yearOfEra a ≤ yearOfEra b := by
  induction b, h using Int.leInduction with
  | base => exact le_rfl
  | succ b hab ih =>
    refine (ih (by omega)).trans ?_
    unfold yearOfEra
    omega

theorem yearOfEra_corners : ∀ y : Nat, y < 400 →
    yearOfEra (marchDays y) = y ∧ yearOfEra (marchDays (y + 1 : Nat) - 1) = y := by
  decide +kernel

theorem yearOfEra_spec {day : Int} (h0 : 0 ≤ day) (h1 : day < 146097) : (0 ≤ yearOfEra day ∧ yearOfEra day < 400) ∧
    marchDays (yearOfEra day) ≤ day ∧ day < marchDays (yearOfEra day + 1) := by
  have hbounds : 0 ≤ yearOfEra day ∧ yearOfEra day < 400 := by unfold yearOfEra; omega
  refine ⟨hbounds, ?_⟩
  obtain ⟨y, hy⟩ := Int.eq_ofNat_of_zero_le hbounds.1
  rw [hy] at hbounds ⊢
  constructor
  · by_contra hbefore
    cases y with
    | zero => exact hbefore h0
    | succ y =>
      have hcorner := (yearOfEra_corners y (by omega)).2
      have hle := yearOfEra_mono (show day ≤ marchDays (y + 1 : Nat) - 1 by omega) h0 (by unfold marchDays; omega)
      omega
  · by_contra hafter
    by_cases hend : y = 399
    · subst hend
      exact hafter h1
    · have hcorner := (yearOfEra_corners (y + 1) (by omega)).1
      have hle := yearOfEra_mono (show marchDays (y + 1 : Nat) ≤ day by push_cast; omega) (by unfold marchDays; omega) h1
      omega

/-- The day `z`, counted from the 1st of March of year 0, is in the `m`th month of the year `y` that starts in March. -/
structure InMonth (z y m : Int) : Prop where
  month : 0 ≤ m ∧ m < 12
  lower : marchDays y + (153 * m + 2) / 5 ≤ z
  upper : z < min (marchDays y + (153 * (m + 1) + 2) / 5) (marchDays (y + 1))

variable {date y m : Int}

theorem exists_inMonth (date : Int) : ∃ y m, InMonth (date + 719468) y m ∧ civilFromDays date =
    (y + if m < 10 then 0 else 1, if m < 10 then m + 3 else m - 9, date + 719468 - marchDays y - (153 * m + 2) / 5 + 1) := by
  obtain ⟨era, day, hday, h0, h1⟩ : ∃ era day, date + 719468 = era * 146097 + day ∧ 0 ≤ day ∧ day < 146097 :=
    ⟨(date + 719468) / 146097, (date + 719468) % 146097, by omega, by omega, by omega⟩
  have hera : (date + 719468) / 146097 = era := by omega
  have hdoe : (date + 719468) % 146097 = day := by omega
  have hyoe : (day - day / 1460 + day / 36524 - day / 146096) / 365 = yearOfEra day := rfl
  obtain ⟨hbounds, hlow, hup⟩ := yearOfEra_spec h0 h1
  generalize yearOfEra day = yoe at *
  have hyear : marchDays yoe = 365 * yoe + yoe / 4 - yoe / 100 := by unfold marchDays; omega
  have h366 := marchDays_succ yoe
  have hshift (k : Int) : marchDays (yoe + era * 400 + k) = era * 146097 + marchDays (yoe + k) := by unfold marchDays; omega
  have h₀ := hshift 0
  have h₁ := hshift 1
  rw [add_zero, add_zero] at h₀
  refine ⟨yoe + era * 400, (5 * (day - marchDays yoe) + 2) / 153, ⟨by omega, by omega, by omega⟩, ?_⟩
  simp only [civilFromDays, CivilTime.ofDays, hera, hdoe, hyoe, ← hyear]
  refine Prod.ext ?_ (Prod.ext rfl ?_)
  · dsimp only
    split_ifs <;> omega
  · dsimp only
    omega

theorem InMonth.unique {z y' m' : Int} (h : InMonth z y m) (h' : InMonth z y' m') : y = y' ∧ m = m' := by
  obtain ⟨hm, hlow, hup⟩ := h
  obtain ⟨hm', hlow', hup'⟩ := h'
  have hy : y = y' := by
    rcases lt_trichotomy y y' with hlt | heq | hlt
    · have := marchDays_mono (show y + 1 ≤ y' from hlt)
      omega
    · exact heq
    · have := marchDays_mono (show y' + 1 ≤ y from hlt)
      omega
  subst hy
  exact ⟨rfl, by omega⟩

theorem InMonth.civilFromDays (h : InMonth (date + 719468) y m) : civilFromDays date =
    (y + if m < 10 then 0 else 1, if m < 10 then m + 3 else m - 9, date + 719468 - marchDays y - (153 * m + 2) / 5 + 1) := by
  obtain ⟨y', m', h', heq⟩ := exists_inMonth date
  obtain ⟨rfl, rfl⟩ := h.unique h'
  exact heq

theorem daysFromCivil_first (y : Int) {m : Int} (hm : 0 ≤ m ∧ m < 12) :
    daysFromCivil (y + if m < 10 then 0 else 1) (if m < 10 then m + 3 else m - 9) 1 =
      marchDays y + (153 * m + 2) / 5 - 719468 := by
  have hdays : marchDays y = y / 400 * 146097 + ((y - y / 400 * 400) * 365 + (y - y / 400 * 400) / 4 -
      (y - y / 400 * 400) / 100) := by
    unfold marchDays
    omega
  rw [hdays, daysFromCivil]
  by_cases hlate : m < 10
  · rw [if_pos hlate, if_pos hlate, if_neg (by omega), if_pos (by omega), add_zero]
    omega
  · rw [if_neg hlate, if_neg hlate, if_pos (by omega), if_neg (by omega), add_sub_cancel_right]
    omega

theorem InMonth.windowDates (h : InMonth (date + 719468) y m) : windowDates .month date =
    (marchDays y + (153 * m + 2) / 5 - 719468, min (marchDays y + (153 * (m + 1) + 2) / 5) (marchDays (y + 1)) - 719468) := by
  have hm := h.month
  have hyear := marchDays_succ y
  simp only [Monoize.windowDates, h.civilFromDays]
  refine Prod.ext ?_ ?_
  · dsimp only
    omega
  dsimp only
  -- December and February end a year, one of the calendar and one that starts in March.
  by_cases hlast : m = 11
  · have hnext := daysFromCivil_first (y + 1) (m := 0) (by omega)
    subst hlast
    norm_num at hnext ⊢
    omega
  · have hnext := daysFromCivil_first y (m := m + 1) (by omega)
    have hstop : min (marchDays y + (153 * (m + 1) + 2) / 5) (marchDays (y + 1)) =
        marchDays y + (153 * (m + 1) + 2) / 5 := by omega
    rw [hstop, ← hnext]
    by_cases hdecember : m = 9
    · subst hdecember
      norm_num
    have hsame : m < 10 ↔ m + 1 < 10 := by omega
    rw [if_neg (by split_ifs <;> omega)]
    simp only [← hsame]
    congr 1
    split_ifs <;> omega

variable {kind : WindowKind} (hk : isRolling kind = false)

include hk

theorem windowDates_tiles : Tiles (windowDates kind) := by
  cases kind with
  | fiveHours | twelveHours | custom => cases hk
  | day | week =>
    constructor
    · intro d
      simp only [windowDates, numDaysFromMonday]
      omega
    · intro d e
      simp only [windowDates, numDaysFromMonday, Prod.mk.injEq]
      omega
  | month =>
    constructor
    · intro d
      obtain ⟨y, m, ⟨hm, hlow, hup⟩, -⟩ := exists_inMonth d
      rw [InMonth.windowDates ⟨hm, hlow, hup⟩]
      omega
    · intro d e
      obtain ⟨y, m, h, -⟩ := exists_inMonth d
      rw [h.windowDates]
      intro hlow hup
      exact InMonth.windowDates ⟨h.month, by omega, by omega⟩

theorem windowDates_starts (date : Int) : (date - 31 ≤ (windowDates kind date).1 ∧ (windowDates kind date).2 ≤ date + 31) ∧
    (kind = .week → numDaysFromMonday (windowDates kind date).1 = 0) ∧
    (kind = .month → (civilFromDays (windowDates kind date).1).2.2 = 1) := by
  cases kind with
  | fiveHours | twelveHours | custom => cases hk
  | day =>
    simp [windowDates]
  | week =>
    simp [windowDates, numDaysFromMonday]
    omega
  | month =>
    obtain ⟨y, m, ⟨hm, hlow, hup⟩, -⟩ := exists_inMonth date
    have hstart : InMonth (marchDays y + (153 * m + 2) / 5 - 719468 + 719468) y m := ⟨hm, by omega, by omega⟩
    rw [InMonth.windowDates ⟨hm, hlow, hup⟩]
    refine ⟨by omega, nofun, fun _ => ?_⟩
    rw [hstart.civilFromDays]
    dsimp only
    omega

variable {windowSeconds : Int} {now : Instant} {w : QuotaWindow}

theorem quotaWindow_calendar : quotaWindow kind windowSeconds now = .ok w ↔
    (shanghaiDate now ≤ maxDate ∧ minDate ≤ (windowDates kind (shanghaiDate now)).1) ∧
    (windowDates kind (shanghaiDate now)).2 ≤ maxDate ∧ minInstant ≤ shanghaiMidnight (windowDates kind (shanghaiDate now)).1 ∧
    ⟨shanghaiMidnight (windowDates kind (shanghaiDate now)).1,
      shanghaiMidnight (windowDates kind (shanghaiDate now)).2⟩ = w := by
  simp only [quotaWindow, hk, Bool.false_eq_true, if_false, bind_eq_ok, require_eq_ok, pure_eq_ok, exists_const]

omit hk

theorem midnight_le {date : Int} : shanghaiMidnight date ≤ now ↔ date ≤ shanghaiDate now := by
  rw [shanghaiDate, Int.le_ediv_iff_mul_le (by decide), shanghaiMidnight]
  exact sub_le_iff_le_add

theorem shanghaiDate_midnight {date : Int} : shanghaiDate (shanghaiMidnight date) = date := by
  rw [shanghaiDate, shanghaiMidnight, Int.sub_add_cancel, Int.mul_ediv_cancel _ (by decide)]

/-- The windows of a calendar kind cut the representable time into days, weeks from Monday on and months from their
first day on. Only the last days of that time have none. -/
theorem quotaWindow_partitions (kind : WindowKind) (windowSeconds : Int) :
    (isRolling kind = false →
      (∀ now, minInstant + seconds (32 * 86400) ≤ now → now ≤ maxInstant - seconds (32 * 86400) →
        ∃ w, quotaWindow kind windowSeconds now = .ok w) ∧
      ∀ now w, quotaWindow kind windowSeconds now = .ok w → w.start ≤ now ∧ now < w.stop ∧
        (∀ now' w', quotaWindow kind windowSeconds now' = .ok w' → w' = w ∨ w'.stop ≤ w.start ∨ w.stop ≤ w'.start) ∧
        (∀ w', quotaWindow kind windowSeconds w.stop = .ok w' → w'.start = w.stop) ∧
        w.start = shanghaiMidnight (shanghaiDate w.start) ∧
        (kind = .week → numDaysFromMonday (shanghaiDate w.start) = 0) ∧
        (kind = .month → (civilFromDays (shanghaiDate w.start)).2.2 = 1)) ∧
    (isRolling kind = true → ∀ now w, quotaWindow kind windowSeconds now = .ok w ↔
      windowSeconds = expectedWindowSeconds kind windowSeconds ∧ 0 < windowSeconds ∧
      (kind = .custom → windowSeconds ≤ 31536000 ∧ windowSeconds % 3600 = 0) ∧ now + seconds windowSeconds ≤ maxInstant ∧
      ⟨now, now + seconds windowSeconds⟩ = w) := by
  constructor
  · intro hk
    have htiles := windowDates_tiles hk
    constructor
    · intro now hlow hup
      have hnear := (windowDates_starts hk (shanghaiDate now)).1
      have hfirst : minDate + 32 ≤ shanghaiDate now := midnight_le.mp (le_trans (by decide +kernel) hlow)
      have hlast : ¬ maxDate - 30 ≤ shanghaiDate now := fun h => absurd ((midnight_le.mpr h).trans hup) (by decide +kernel)
      refine ⟨_, (quotaWindow_calendar hk).mpr ⟨by omega, by omega, ?_, rfl⟩⟩
      have hstart : minInstant ≤ shanghaiMidnight (minDate + 1) := by decide +kernel
      exact hstart.trans (midnight_le.mpr (by rw [shanghaiDate_midnight]; omega))
    · intro now w hw
      obtain ⟨-, -, -, rfl⟩ := (quotaWindow_calendar hk).mp hw
      have hmem := htiles.mem (shanghaiDate now)
      have hstarts := (windowDates_starts hk (shanghaiDate now)).2
      refine ⟨midnight_le.mpr hmem.1, not_le.mp fun h => ?_, fun now' w' hw' => ?_, fun w' hw' => ?_, ?_, ?_⟩
      · exact absurd (midnight_le.mp h) (not_le.mpr hmem.2)
      · obtain ⟨-, -, -, rfl⟩ := (quotaWindow_calendar hk).mp hw'
        rcases htiles.eq_or_disjoint (shanghaiDate now) (shanghaiDate now') with heq | hle | hle
        · exact .inl (by rw [heq])
        · exact .inr (.inl (midnight_le.mpr (by rw [shanghaiDate_midnight]; exact hle)))
        · exact .inr (.inr (midnight_le.mpr (by rw [shanghaiDate_midnight]; exact hle)))
      · obtain ⟨-, -, -, rfl⟩ := (quotaWindow_calendar hk).mp hw'
        dsimp only
        rw [shanghaiDate_midnight, htiles.next]
      · rw [shanghaiDate_midnight]
      · rw [shanghaiDate_midnight]
        exact hstarts
  · intro hk now w
    simp only [quotaWindow, hk, if_true, bind_eq_ok, require_eq_ok, pure_eq_ok, exists_const]
    constructor
    · rintro ⟨hvalid, hrange, rfl⟩
      refine ⟨?_, ?_, ?_, hrange, rfl⟩
      all_goals grind
    · rintro ⟨hseconds, hpos, hcustom, hrange, rfl⟩
      exact ⟨by grind, hrange, rfl⟩

/-- The month of the last day of the date library has no end that the library can represent. -/
theorem lastMonth_unrepresentable : quotaWindow .month 0 maxInstant = .error .aborted ∧
    quotaWindow .month 0 (maxInstant - seconds 86400) = .error (.code "invalid_quota_window") := by decide +kernel

theorem quotaWindow_partitions_sample : ∃ w, quotaWindow .month 0 0 = .ok w ∧ w.start ≤ 0 ∧ 0 < w.stop := by
  obtain ⟨hexists, hwindow⟩ := (quotaWindow_partitions .month 0).1 rfl
  obtain ⟨w, hw⟩ := hexists 0 (by decide) (by decide)
  exact ⟨w, hw, (hwindow 0 w hw).1, (hwindow 0 w hw).2.1⟩

end Monoize
