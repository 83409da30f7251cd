import Monoize.Table

/-! A table and what is left of it after some rows were deleted. -/

namespace Relational

open Keyed List Table

variable {α : Type} [Keyed α]

def Table.Thins (t t' : Table α) (keep : α → Bool) : Prop := t'.rows = t.rows.filter keep

theorem findSome?_filter {α β : Type} {f g : α → Option β} {keep : α → Bool} {l : List α}
    (hnone : ∀ a ∈ l, f a = none → g a = none)
    (hsome : ∀ a ∈ l, ∀ b, f a = some b → l.findSome? f = some b → keep a = true ∧ g a = some b) :
    (l.filter keep).findSome? g = l.findSome? f := by
  induction l with
  | nil => rfl
  | cons a l ih =>
    cases hf : f a with
    | some b =>
      have hfirst : (a :: l).findSome? f = some b := by rw [findSome?_cons, hf]
      obtain ⟨hkeep, hg⟩ := hsome a mem_cons_self b hf hfirst
      rw [hfirst, filter_cons_of_pos hkeep, findSome?_cons, hg]
    | none =>
      have hrest : (a :: l).findSome? f = l.findSome? f := by rw [findSome?_cons, hf]
      have hlater := ih (fun a' ha' => hnone a' (mem_cons_of_mem a ha'))
        fun a' ha' b hb hl => hsome a' (mem_cons_of_mem a ha') b hb (hrest.trans hl)
      rw [hrest, ← hlater]
      by_cases hkeep : keep a = true
      · rw [filter_cons_of_pos hkeep, findSome?_cons, hnone a mem_cons_self hf]
      · rw [filter_cons_of_neg hkeep]

namespace Table.Thins

variable {t t' : Table α} {keep p : α → Bool} {f : α → α}

variable (h : t.Thins t' keep)

include h

theorem mem {a : α} : a ∈ t'.rows ↔ a ∈ t.rows ∧ keep a = true := by
  rw [h, mem_filter]

theorem find? (hp : ∀ a ∈ t.rows, p a = true → keep a = true) : t'.find? p = t.find? p := by
  have hrows : ∀ l : List α, (∀ a ∈ l, p a = true → keep a = true) → (l.filter keep).find? p = l.find? p := by
    intro l
    induction l with
    | nil => exact fun _ => rfl
    | cons a l ih =>
      intro hl
      have hrest := ih fun b hb => hl b (mem_cons_of_mem a hb)
      by_cases hpa : p a = true
      · rw [filter_cons_of_pos (hl a mem_cons_self hpa), find?_cons_of_pos hpa, find?_cons_of_pos hpa]
      rw [find?_cons_of_neg hpa, ← hrest]
      by_cases hka : keep a = true
      · rw [filter_cons_of_pos hka, find?_cons_of_neg hpa]
      · rw [filter_cons_of_neg hka]
  rw [Table.find?, Table.find?, h]
  exact hrows t.rows hp

theorem find?_none (hnone : t.find? p = none) : t'.find? p = none := by
  rw [Table.find?, List.find?_eq_none]
  intro a ha
  exact find?_eq_none.1 hnone a (h.mem.1 ha).1

theorem count (hp : ∀ a ∈ t.rows, p a = true → keep a = true) : t'.count p = t.count p := by
  rw [Table.count, Table.count, h, List.countP_filter]
  apply List.countP_congr
  intro a ha
  cases hpa : p a with
  | false => simp
  | true => simp [hp a ha hpa]

theorem update (h' : ∀ a, key (f a) = key a ∧ keep (f a) = keep a) :
    (t.update p f fun a => (h' a).1).Thins (t'.update p f fun a => (h' a).1) keep := by
  rw [Thins, update_rows, update_rows, h, filter_map]
  congr 1
  apply filter_congr
  intro a _
  rw [Function.comp]
  split
  · exact (h' a).2.symm
  · rfl

theorem updateOne? (hkeep : ∀ a, keep (f a) = keep a)
    (hp : ∀ a ∈ t.rows, p a = true → keep a = true) (hf : ∀ a, key (f a) = key a) :
    (t.updateOne? p f hf = none ∧ t'.updateOne? p f hf = none) ∨
      ∃ u u', t.updateOne? p f hf = some u ∧ t'.updateOne? p f hf = some u' ∧ u.Thins u' keep := by
  unfold Table.updateOne?
  rw [h.count hp]
  split
  · exact .inr ⟨_, _, rfl, rfl, h.update fun a => ⟨hf a, hkeep a⟩⟩
  · exact .inl ⟨rfl, rfl⟩

end Table.Thins

/-- `INSERT` of the rows of another table. -/
def Table.append? (t u : Table α) : Option (Table α) :=
  if h : ∀ a ∈ t.rows, ∀ b ∈ u.rows, ¬ Clashes a b then
    some ⟨t.rows ++ u.rows, List.pairwise_append.2 ⟨t.distinct, u.distinct, h⟩⟩
  else none

theorem Table.append?_isSome {t u : Table α} :
    (t.append? u).isSome = true ↔ ∀ a ∈ t.rows, ∀ b ∈ u.rows, ¬ Clashes a b := by
  unfold append?
  split <;> simp_all

theorem Table.append?_empty (t : Table α) : t.append? .empty = some t := by
  have hclash : ∀ a ∈ t.rows, ∀ b ∈ (empty : Table α).rows, ¬ Clashes a b := by
    intro _ _ _ hb
    cases hb
  rw [append?, dif_pos hclash, Option.some.injEq]
  exact ext_rows (append_nil t.rows)

theorem Table.append?_insert {t u : Table α} {a : α} (h : (empty : Table α).insert? a = some u) :
    t.append? u = t.insert? a := by
  have hrows : u.rows = [a] := (insert?_eq_some.1 h).2
  unfold append? insert?
  by_cases hclash : ∀ b ∈ t.rows, ¬ Clashes b a
  · rw [dif_pos hclash, dif_pos (by simpa [hrows] using hclash), Option.some.injEq]
    apply ext_rows
    show t.rows ++ u.rows = t.rows ++ [a]
    rw [hrows]
  · rw [dif_neg hclash, dif_neg (by simpa [hrows] using hclash)]

end Relational
