import Mathlib.Algebra.Ring.Nat
import Mathlib.Data.List.Perm.Basic
import Mathlib.Data.String.Basic

/-! Entries claim slots: each takes the first slot that fits it, and those that find none are put
behind the slots. -/

namespace GreedyClaims

open List Option

variable {p : Nat}

variable {α β : Type} (fits : α → β → Bool) (slots : List α)

def claim (e : β) : Option Nat := slots.findIdx? (fits · e)

def holder (entries : List β) (p : Nat) : Option β := entries.find? (claim fits slots · = some p)

def settled (entries : List β) : List β :=
  (List.range slots.length).filterMap (holder fits slots entries) ++ entries.filter fun e => (claim fits slots e).isNone

def filled (slotText : α → String) (entryText : β → String) (entries : List β) : List String :=
  slots.zipIdx.map (fun a => ((holder fits slots entries a.2).map entryText).getD (slotText a.1)) ++
    (entries.filter fun e => (claim fits slots e).isNone).map entryText

def Exclusive (entries : List β) : Prop :=
  ∀ a ∈ slots, ∀ b ∈ entries, ∀ c ∈ entries, fits a b → fits a c → b = c

variable {fits slots}

variable {entries : List β} {e : β} {slotText : α → String} {entryText : β → String}

theorem claim_spec (h : claim fits slots e = some p) : ∃ a, slots[p]? = some a ∧ fits a e = true := by
  obtain ⟨hp, hfit, -⟩ := findIdx?_eq_some_iff_getElem.mp h
  exact ⟨slots[p], getElem?_eq_getElem hp, hfit⟩

theorem claim_lt (h : claim fits slots e = some p) : p < slots.length := by
  obtain ⟨a, ha, -⟩ := claim_spec h
  exact (List.getElem?_eq_some_iff.mp ha).1

theorem claim_injective (hexclusive : Exclusive fits slots entries) {b c : β} (hb : b ∈ entries)
    (hc : c ∈ entries) (hbp : claim fits slots b = some p) (hcp : claim fits slots c = some p) : b = c := by
  obtain ⟨a, ha, hab⟩ := claim_spec hbp
  obtain ⟨a', ha', hac⟩ := claim_spec hcp
  rw [ha, some_inj] at ha'
  exact hexclusive a (mem_of_getElem? ha) b hb c hc hab (ha' ▸ hac)

theorem holder_spec (h : holder fits slots entries p = some e) : e ∈ entries ∧ claim fits slots e = some p :=
  ⟨mem_of_find?_eq_some h, by simpa using find?_some h⟩

theorem holder_eq_some (hexclusive : Exclusive fits slots entries) (he : e ∈ entries)
    (hp : claim fits slots e = some p) : holder fits slots entries p = some e := by
  cases h : holder fits slots entries p with
  | none =>
    have hnone := find?_eq_none.mp h e he
    simp [hp] at hnone
  | some c =>
    obtain ⟨hc, hcp⟩ := holder_spec h
    rw [claim_injective hexclusive hc he hcp hp]

theorem holder_eq_none : holder fits slots entries p = none ↔ ∀ e ∈ entries, claim fits slots e ≠ some p := by
  simp [holder, find?_eq_none]

theorem settled_perm (hnodup : entries.Nodup) (hexclusive : Exclusive fits slots entries) :
    (settled fits slots entries).Perm entries := by
  have hclaimed : ((range slots.length).filterMap (holder fits slots entries)).Perm
      (entries.filter fun e => (claim fits slots e).isSome) := by
    refine (perm_ext_iff_of_nodup ?_ (hnodup.filter _)).mpr ?_
    · refine List.Pairwise.filterMap _ ?_ nodup_range
      rintro p q hne e hp _ hq rfl
      exact hne (some_inj.mp ((holder_spec hp).2.symm.trans (holder_spec hq).2))
    · intro e
      rw [mem_filterMap, mem_filter, isSome_iff_exists]
      constructor
      · rintro ⟨p, -, hp⟩
        exact ⟨(holder_spec hp).1, p, (holder_spec hp).2⟩
      · rintro ⟨he, p, hp⟩
        exact ⟨p, mem_range.mpr (claim_lt hp), holder_eq_some hexclusive he hp⟩
  have hsplit : (entries.filter (fun e => (claim fits slots e).isSome) ++
      entries.filter fun e => (claim fits slots e).isNone).Perm entries := by
    have h := filter_append_perm (fun e => (claim fits slots e).isSome) entries
    simpa using h
  exact (hclaimed.append_right _).trans hsplit

theorem length_join (l : List String) : (String.join l).length = (l.map String.length).sum := by
  induction l with
  | nil => rfl
  | cons a l ih => simp [String.join_cons, ih]

theorem join_filled (h : ∀ p a, slots[p]? = some a → holder fits slots entries p = none → slotText a = "") :
    String.join (filled fits slots slotText entryText entries) =
      String.join ((settled fits slots entries).map entryText) := by
  have hslots : ∀ l : List (α × Nat), (∀ a ∈ l, slots[a.2]? = some a.1) →
      String.join (l.map fun a => ((holder fits slots entries a.2).map entryText).getD (slotText a.1)) =
        String.join (((l.map (·.2)).filterMap (holder fits slots entries)).map entryText) := by
    intro l hl
    induction l with
    | nil => rfl
    | cons a l ih =>
      rw [map_cons, String.join_cons, ih fun b hb => hl b (by simp [hb]), map_cons]
      cases hh : holder fits slots entries a.2 with
      | none => simp [filterMap_cons_none hh, h _ _ (hl a (by simp)) hh]
      | some e => simp [filterMap_cons_some hh, String.join_cons]
  unfold filled settled
  rw [String.join_append, map_append, String.join_append, hslots]
  · simp [zipIdx_map_snd, range_eq_range']
  · rintro ⟨a, p⟩ ha
    exact (mem_zipIdx_iff_getElem?.mp ha)

theorem sum_filled (slotText : α → String) (entryText : β → String) (entries : List β) (l : List (α × Nat)) :
    (l.map fun a => (((holder fits slots entries a.2).map entryText).getD (slotText a.1)).length).sum =
      (((l.map (·.2)).filterMap (holder fits slots entries)).map fun e => (entryText e).length).sum +
        (l.map fun a => if (holder fits slots entries a.2).isNone then (slotText a.1).length else 0).sum := by
  induction l with
  | nil => rfl
  | cons a l ih =>
    simp only [map_cons, sum_cons, ih]
    cases hh : holder fits slots entries a.2 with
    | none =>
      rw [filterMap_cons_none hh]
      simp only [map_none, getD_none, isNone_none, if_true]
      omega
    | some e =>
      rw [filterMap_cons_some hh, map_cons, sum_cons]
      simp only [map_some, getD_some, isNone_some, Bool.false_eq_true, if_false]
      omega

theorem join_filled_iff (hnodup : entries.Nodup) (hexclusive : Exclusive fits slots entries) :
    String.join (filled fits slots slotText entryText entries) = String.join (entries.map entryText) ↔
      (∀ p a, slots[p]? = some a → holder fits slots entries p = none → slotText a = "") ∧
        String.join ((settled fits slots entries).map entryText) = String.join (entries.map entryText) := by
  constructor
  · intro heq
    have hempty : ∀ p a, slots[p]? = some a → holder fits slots entries p = none → slotText a = "" := by
      have hlength := congrArg String.length heq
      rw [length_join, length_join] at hlength
      have hsettled := ((settled_perm hnodup hexclusive).map fun e => (entryText e).length).sum_nat
      have hzero : (slots.zipIdx.map fun a =>
          if (holder fits slots entries a.2).isNone then (slotText a.1).length else 0).sum = 0 := by
        have hsum := @sum_filled _ _ fits slots slotText entryText entries slots.zipIdx
        simp only [filled, List.map_append, List.sum_append_nat, List.map_map, Function.comp_def] at hlength
        simp only [settled, List.map_append, List.sum_append_nat] at hsettled
        rw [zipIdx_map_snd, ← range_eq_range'] at hsum
        omega
      intro p a ha hnone
      have hmem : (a, p) ∈ slots.zipIdx := mem_zipIdx_iff_getElem?.mpr ha
      simpa [hnone] using List.sum_eq_zero_iff_forall_eq_nat.mp hzero _ (List.mem_map_of_mem hmem)
    exact ⟨hempty, join_filled hempty ▸ heq⟩
  · rintro ⟨hempty, heq⟩
    rw [join_filled hempty, heq]

/-! One more entry. -/

theorem find?_range_eq_findIdx? (l : List α) {q : Nat → Bool} {r : α → Bool} (h : ∀ p a, l[p]? = some a → q p = r a) :
    (range l.length).find? q = l.findIdx? r := by
  apply ext
  intro i
  rw [find?_range_eq_some, findIdx?_eq_some_iff_getElem]
  constructor
  · rintro ⟨hq, hi, hbefore⟩
    have hi : i < l.length := mem_range.mp hi
    refine ⟨hi, (h i _ (getElem?_eq_getElem hi)).symm.trans hq, ?_⟩
    intro j hj hr
    have hqj := hbefore j hj
    rw [h j _ (getElem?_eq_getElem (Nat.lt_trans hj hi)), hr] at hqj
    cases hqj
  · rintro ⟨hi, hr, hbefore⟩
    refine ⟨(h i _ (getElem?_eq_getElem hi)).trans hr, mem_range.mpr hi, ?_⟩
    intro j hj
    rw [h j _ (getElem?_eq_getElem (Nat.lt_trans hj hi))]
    simpa using hbefore j hj

theorem filled_nil (slotText : α → String) (entryText : β → String) :
    filled fits slots slotText entryText [] = slots.map slotText := by
  simp only [filled, holder, List.find?_nil, Option.map_none, Option.getD_none, List.filter_nil, List.map_nil,
    append_nil]
  have hmap := congrArg (map slotText) (zipIdx_map_fst 0 slots)
  rwa [List.map_map] at hmap

theorem filled_concat_unclaimed (h : claim fits slots e = none) :
    filled fits slots slotText entryText (entries ++ [e]) = filled fits slots slotText entryText entries ++ [entryText e] := by
  have hholder : ∀ p, holder fits slots (entries ++ [e]) p = holder fits slots entries p := by
    intro p
    simp [holder, find?_append, h]
  simp [filled, hholder, h]

theorem filled_concat_claimed (h : claim fits slots e = some p) (hfree : holder fits slots entries p = none) :
    filled fits slots slotText entryText (entries ++ [e]) =
      (filled fits slots slotText entryText entries).set p (entryText e) := by
  have hp := claim_lt h
  have hholder : ∀ q, holder fits slots (entries ++ [e]) q = if q = p then some e else holder fits slots entries q := by
    intro q
    unfold holder at hfree ⊢
    rw [find?_append]
    by_cases hq : q = p
    · subst hq
      simp [hfree, h]
    · simp [hq, h, Ne.symm hq]
  unfold filled
  rw [set_append_left _ _ (by simpa using hp)]
  have hfilter : (entries ++ [e]).filter (fun e => (claim fits slots e).isNone) =
      entries.filter fun e => (claim fits slots e).isNone := by
    simp [h]
  rw [hfilter]
  congr 1
  apply ext_getElem?
  intro q
  rw [getElem?_set]
  by_cases hq : p = q
  · subst hq
    simp [hholder, hp]
  · simp [hholder, hq, Ne.symm hq, Function.comp_def]

end GreedyClaims
