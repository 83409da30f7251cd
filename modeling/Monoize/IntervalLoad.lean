import Mathlib.Algebra.Order.BigOperators.Group.List
import Mathlib.Data.List.Nodup

/-! Weighted half-open intervals: the load at an instant and its bound under admission control. -/

namespace IntervalLoad

open List

variable {ι T W : Type} [LinearOrder T] [AddCommMonoid W]

def loadAt (start stop : ι → T) (w : ι → W) (l : List ι) (u : T) : W :=
  ((l.filter fun i => start i ≤ u ∧ u < stop i).map w).sum

def liveLoad (stop : ι → T) (w : ι → W) (l : List ι) (now : T) : W :=
  ((l.filter fun i => now < stop i).map w).sum

variable {start stop : ι → T} {w v : ι → W} {l : List ι} {u now : T}

theorem loadAt_cons (i : ι) : loadAt start stop w (i :: l) u =
    (if start i ≤ u ∧ u < stop i then w i else 0) + loadAt start stop w l u := by
  unfold loadAt
  by_cases h : start i ≤ u ∧ u < stop i
  · simp [h]
  · simp [h]

theorem liveLoad_cons (i : ι) : liveLoad stop w (i :: l) now =
    (if now < stop i then w i else 0) + liveLoad stop w l now := by
  unfold liveLoad
  by_cases h : now < stop i
  · simp [h]
  · simp [h]

theorem loadAt_add : loadAt start stop (fun i => w i + v i) l u =
    loadAt start stop w l u + loadAt start stop v l u := sum_map_add

theorem loadAt_congr (h : ∀ i ∈ l, w i = v i) : loadAt start stop w l u = loadAt start stop v l u :=
  congrArg sum (map_congr_left fun i hi => h i (mem_of_mem_filter hi))

theorem loadAt_append (m : List ι) :
    loadAt start stop w (l ++ m) u = loadAt start stop w l u + loadAt start stop w m u := by
  simp [loadAt]

theorem loadAt_map {κ : Type} (f : κ → ι) (m : List κ) : loadAt start stop w (m.map f) u =
    loadAt (fun k => start (f k)) (fun k => stop (f k)) (fun k => w (f k)) m u := by
  simp [loadAt, filter_map, Function.comp_def]

theorem loadAt_eq_zero (h : ∀ i ∈ l, w i = 0) : loadAt start stop w l u = 0 := by
  refine sum_eq_zero fun x hx => ?_
  obtain ⟨i, hi, rfl⟩ := mem_map.1 hx
  exact h i (mem_of_mem_filter hi)

theorem loadAt_single [DecidableEq ι] (hn : l.Nodup) {i : ι} (hi : i ∈ l) (c : W) :
    loadAt start stop (fun j => if j = i then c else 0) l u = if start i ≤ u ∧ u < stop i then c else 0 := by
  induction l with
  | nil => cases hi
  | cons j l ih =>
    rw [nodup_cons] at hn
    rw [loadAt_cons]
    by_cases hj : j = i
    · subst hj
      have hz : loadAt start stop (fun k => if k = j then c else 0) l u = 0 :=
        loadAt_eq_zero fun k hk => if_neg (ne_of_mem_of_not_mem hk hn.1)
      rw [hz, add_zero, if_pos rfl]
    · have hmem : i ∈ l := (mem_cons.1 hi).resolve_left (Ne.symm hj)
      rw [ih hn.2 hmem, if_neg hj, ite_self, zero_add]

variable [PartialOrder W] [IsOrderedAddMonoid W]

theorem loadAt_le (h : ∀ i ∈ l, w i ≤ v i) : loadAt start stop w l u ≤ loadAt start stop v l u :=
  sum_le_sum fun i hi => h i (mem_of_mem_filter hi)

theorem loadAt_le_liveLoad (hu : now ≤ u) (hw : ∀ i ∈ l, now < stop i → 0 ≤ w i) :
    loadAt start stop w l u ≤ liveLoad stop w l now := by
  induction l with
  | nil => exact le_refl _
  | cons i l ih =>
    rw [loadAt_cons, liveLoad_cons]
    have htail := ih fun j hj => hw j (mem_cons_of_mem _ hj)
    have hhead : (if start i ≤ u ∧ u < stop i then w i else 0) ≤ if now < stop i then w i else 0 := by
      by_cases hin : start i ≤ u ∧ u < stop i
      · rw [if_pos hin, if_pos (lt_of_le_of_lt hu hin.2)]
      rw [if_neg hin]
      by_cases hlive : now < stop i
      · rw [if_pos hlive]
        exact hw i (mem_cons_self ..) hlive
      · rw [if_neg hlive]
    exact add_le_add hhead htail

theorem le_liveLoad {i : ι} (hi : i ∈ l) (hlive : now < stop i) (hw : ∀ i ∈ l, now < stop i → 0 ≤ w i) :
    w i ≤ liveLoad stop w l now := by
  have hmem : w i ∈ (l.filter fun i => now < stop i).map w :=
    mem_map_of_mem (mem_filter.2 ⟨hi, by simpa using hlive⟩)
  refine single_le_sum ?_ _ hmem
  intro x hx
  obtain ⟨j, hj, rfl⟩ := mem_map.1 hx
  rw [mem_filter] at hj
  exact hw j hj.1 (by simpa using hj.2)

/-- An interval that starts now is charged `c` only if the live load leaves room for it: the load stays
within capacity at every instant, past and future. -/
theorem loadAt_charge_le [DecidableEq ι] {q c : W} (hn : l.Nodup) {i : ι} (hi : i ∈ l) (hstart : start i = now)
    (hload : loadAt start stop w l u ≤ q) (hroom : liveLoad stop w l now + c ≤ q) (hw : ∀ i ∈ l, now < stop i → 0 ≤ w i) :
    loadAt start stop (fun j => w j + if j = i then c else 0) l u ≤ q := by
  rw [loadAt_add, loadAt_single hn hi]
  by_cases hin : start i ≤ u ∧ u < stop i
  · rw [if_pos hin]
    have hu : now ≤ u := hstart ▸ hin.1
    exact (add_le_add_left (loadAt_le_liveLoad hu hw) c).trans hroom
  · rw [if_neg hin, add_zero]
    exact hload

end IntervalLoad
