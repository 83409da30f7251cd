import Mathlib.Data.List.Perm.Basic
import Mathlib.Data.List.Nodup

/-! The items of a stream whose key has not been seen: what a consumer keeps that records the key of
each item it takes and skips recorded keys. -/

namespace FirstOccurrence

open List

variable {α κ : Type} [DecidableEq κ] (key : α → κ)

def firstNew (seen : List κ) : List α → List α
  | [] => []
  | a :: l => if key a ∈ seen then firstNew seen l else a :: firstNew (seen ++ [key a]) l

variable {key} {seen seen' : List κ} {l l' : List α} {a : α}

theorem firstNew_cons_of_mem (h : key a ∈ seen) : firstNew key seen (a :: l) = firstNew key seen l := by
  rw [firstNew, if_pos h]

theorem firstNew_cons_of_not_mem (h : key a ∉ seen) :
    firstNew key seen (a :: l) = a :: firstNew key (seen ++ [key a]) l := by
  rw [firstNew, if_neg h]

theorem firstNew_append :
    firstNew key seen (l ++ l') = firstNew key seen l ++ firstNew key (seen ++ (firstNew key seen l).map key) l' := by
  induction l generalizing seen with
  | nil => simp [firstNew]
  | cons a l ih =>
    rw [cons_append]
    by_cases h : key a ∈ seen
    · rw [firstNew_cons_of_mem h, firstNew_cons_of_mem h, ih]
    · rw [firstNew_cons_of_not_mem h, firstNew_cons_of_not_mem h, ih]
      simp

theorem mem_of_mem_firstNew (h : a ∈ firstNew key seen l) : a ∈ l ∧ key a ∉ seen := by
  induction l generalizing seen with
  | nil => simp [firstNew] at h
  | cons b l ih =>
    by_cases hb : key b ∈ seen
    · rw [firstNew_cons_of_mem hb] at h
      obtain ⟨hmem, hnew⟩ := ih h
      exact ⟨mem_cons_of_mem _ hmem, hnew⟩
    rw [firstNew_cons_of_not_mem hb, mem_cons] at h
    rcases h with rfl | h
    · exact ⟨mem_cons_self .., hb⟩
    · obtain ⟨hmem, hnew⟩ := ih h
      exact ⟨mem_cons_of_mem _ hmem, fun hs => hnew (mem_append_left _ hs)⟩

theorem key_mem_firstNew (h : a ∈ l) : key a ∈ seen ++ (firstNew key seen l).map key := by
  induction l generalizing seen with
  | nil => simp at h
  | cons b l ih =>
    by_cases hb : key b ∈ seen
    · rw [firstNew_cons_of_mem hb]
      rcases mem_cons.1 h with rfl | h
      · exact mem_append_left _ hb
      · exact ih h
    · rw [firstNew_cons_of_not_mem hb, map_cons]
      rcases mem_cons.1 h with rfl | h
      · simp
      · have hrest : key a ∈ seen ++ [key b] ++ (firstNew key (seen ++ [key b]) l).map key := ih h
        simpa using hrest

theorem nodup_firstNew : ((firstNew key seen l).map key).Nodup := by
  induction l generalizing seen with
  | nil => simp [firstNew]
  | cons b l ih =>
    by_cases hb : key b ∈ seen
    · rw [firstNew_cons_of_mem hb]
      exact ih
    rw [firstNew_cons_of_not_mem hb, map_cons, nodup_cons]
    refine ⟨?_, ih⟩
    intro hmem
    obtain ⟨c, hc, hkey⟩ := mem_map.1 hmem
    apply (mem_of_mem_firstNew hc).2
    rw [hkey]
    simp

theorem mem_firstNew (ha : a ∈ l) (hs : key a ∉ seen) (hu : ∀ b ∈ l, key b = key a → b = a) :
    a ∈ firstNew key seen l := by
  induction l generalizing seen with
  | nil => simp at ha
  | cons b l ih =>
    have hu' : ∀ c ∈ l, key c = key a → c = a := fun c hc => hu c (mem_cons_of_mem _ hc)
    by_cases hb : key b ∈ seen
    · rw [firstNew_cons_of_mem hb]
      rcases mem_cons.1 ha with rfl | ha
      · exact absurd hb hs
      · exact ih ha hs hu'
    · rw [firstNew_cons_of_not_mem hb, mem_cons]
      by_cases he : key b = key a
      · exact .inl (hu b (mem_cons_self ..) he).symm
      rcases mem_cons.1 ha with rfl | ha
      · exact .inl rfl
      · refine .inr (ih ha ?_ hu')
        simp [hs, Ne.symm he]

/-- Any stream that delivers every item of `items`, whose keys are distinct, and nothing else yields the
items whose key had not been seen, each once. -/
theorem firstNew_perm {items : List α} (hn : (items.map key).Nodup) (hl : ∀ a, a ∈ l ↔ a ∈ items) :
    (firstNew key seen l).Perm (items.filter fun a => key a ∉ seen) := by
  have hinj : ∀ a ∈ items, ∀ b ∈ items, key a = key b → a = b := fun a ha b hb => inj_on_of_nodup_map hn ha hb
  apply (perm_ext_iff_of_nodup nodup_firstNew.of_map (hn.of_map.filter _)).2
  intro a
  rw [mem_filter, decide_eq_true_eq]
  constructor
  · intro h
    obtain ⟨hmem, hnew⟩ := mem_of_mem_firstNew h
    exact ⟨(hl a).1 hmem, hnew⟩
  · rintro ⟨hmem, hnew⟩
    apply mem_firstNew ((hl a).2 hmem) hnew
    intro b hb he
    exact hinj b ((hl b).1 hb) a hmem he

end FirstOccurrence
