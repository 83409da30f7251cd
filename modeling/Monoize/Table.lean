import Mathlib.Algebra.BigOperators.Group.List.Basic
import Mathlib.Algebra.Order.BigOperators.Group.List
import Mathlib.Data.List.Pairwise
import Mathlib.Tactic.Linarith

/-! Tables of rows whose unique indexes are part of the type. -/

namespace Relational

theorem either_symm {β γ : Type} {k l : β × γ} (h : k.1 = l.1 ∨ k.2 = l.2) : l.1 = k.1 ∨ l.2 = k.2 :=
  h.imp Eq.symm Eq.symm

/-- The columns of a row that unique indexes read, and which pairs of them an index refuses. -/
class Keyed (α : Type) where
  Key : Type
  key : α → Key
  Clash : Key → Key → Prop := Eq
  decidableClash : DecidableRel Clash := by infer_instance
  clash_symm : ∀ {k l}, Clash k l → Clash l k := by first | exact Eq.symm | exact either_symm

/-- One unique index, on the columns that `key` reads. -/
abbrev Keyed.on {α κ : Type} [DecidableEq κ] (key : α → κ) : Keyed α := { Key := κ, key := key }

abbrev Keyed.either {α κ ι : Type} [DecidableEq κ] [DecidableEq ι] (f : α → κ) (g : α → ι) : Keyed α where
  Key := κ × ι
  key a := (f a, g a)
  Clash k l := k.1 = l.1 ∨ k.2 = l.2

instance {α : Type} [Keyed α] : DecidableRel (Keyed.Clash (α := α)) := Keyed.decidableClash

def SameIndex {β : Type} (x y : Option β) : Prop := x ≠ none ∧ x = y

instance {β : Type} [DecidableEq β] (x y : Option β) : Decidable (SameIndex x y) :=
  inferInstanceAs (Decidable (_ ∧ _))

theorem SameIndex.symm {β : Type} {x y : Option β} (h : SameIndex x y) : SameIndex y x :=
  ⟨h.2 ▸ h.1, h.2.symm⟩

variable {α : Type} [Keyed α]

open Keyed List Function

theorem keyKept {f : α → α} (h : ∀ a, key (f a) = key a) (a : α) : key (f a) = key a := h a

def Clashes (a b : α) : Prop := Clash (key a) (key b)

instance (a b : α) : Decidable (Clashes a b) := inferInstanceAs (Decidable (Clash _ _))

theorem Clashes.symm {a b : α} (h : Clashes a b) : Clashes b a := clash_symm h

structure Table (α : Type) [Keyed α] where
  rows : List α
  distinct : rows.Pairwise fun a b => ¬ Clashes a b

namespace Table

theorem ext_rows {s t : Table α} (h : s.rows = t.rows) : s = t := by
  cases s; cases t; cases h; rfl

def empty : Table α := ⟨[], List.Pairwise.nil⟩

def single (a : α) : Table α := ⟨[a], List.pairwise_singleton _ _⟩

@[simp] theorem empty_rows : (empty : Table α).rows = [] := rfl

instance : Inhabited (Table α) := ⟨empty⟩

def find? (t : Table α) (p : α → Bool) : Option α := t.rows.find? p

/-- `INSERT`, refused by a unique index. -/
def insert? (t : Table α) (a : α) : Option (Table α) :=
  if h : ∀ b ∈ t.rows, ¬ Clashes b a then
    some ⟨t.rows ++ [a], List.pairwise_append.2 ⟨t.distinct, List.pairwise_singleton _ _,
      fun b hb c hc => by simp only [List.mem_singleton] at hc; exact hc ▸ h b hb⟩⟩
  else none

def update (t : Table α) (p : α → Bool) (f : α → α)
    (hf : ∀ a, key (f a) = key a := by exact Relational.keyKept fun _ => rfl) : Table α :=
  ⟨t.rows.map fun a => if p a then f a else a, by
    rw [List.pairwise_map]
    refine t.distinct.imp fun {a b} h => ?_
    have hk (c : α) : key (if p c then f c else c) = key c := by split <;> simp [hf]
    simpa only [Clashes, hk] using h⟩

def update? (t : Table α) (p : α → Bool) (f : α → α) : Option (Table α) :=
  if h : (t.rows.map fun a => if p a then f a else a).Pairwise fun a b => ¬ Clashes a b then
    some ⟨_, h⟩
  else none

def remove (t : Table α) (p : α → Bool) : Table α :=
  ⟨t.rows.filter fun a => !p a, t.distinct.filter _⟩

def count (t : Table α) (p : α → Bool) : Nat := t.rows.countP p

def total (t : Table α) (w : α → Int) : Int := (t.rows.map w).sum

def updateOne? (t : Table α) (p : α → Bool) (f : α → α)
    (hf : ∀ a, key (f a) = key a := by exact Relational.keyKept fun _ => rfl) :
    Option (Table α) :=
  if t.count p = 1 then some (t.update p f hf) else none

variable {t t' : Table α} {p q : α → Bool} {f : α → α} {a b : α} {v w : α → Int}

theorem insert?_eq_some : t.insert? a = some t' ↔ (∀ b ∈ t.rows, ¬ Clashes b a) ∧ t'.rows = t.rows ++ [a] := by
  unfold insert?
  split
  · rename_i h
    simp only [Option.some.injEq]
    exact ⟨fun e => ⟨h, e ▸ rfl⟩, fun e => ext_rows e.2.symm⟩
  · rename_i h
    simp only [reduceCtorEq, false_iff]
    exact fun e => h e.1

theorem exists_insert (h : ∀ b ∈ t.rows, ¬ Clashes b a) : ∃ t', t.insert? a = some t' := by
  rw [insert?, dif_pos h]
  exact ⟨_, rfl⟩

theorem updateOne?_eq_some {hf : ∀ a, key (f a) = key a} :
    t.updateOne? p f hf = some t' ↔ t.count p = 1 ∧ t.update p f hf = t' := by
  unfold updateOne?
  split <;> simp_all

@[simp] theorem update_rows (t : Table α) (p : α → Bool) (f : α → α) (hf) :
    (t.update p f hf).rows = t.rows.map fun a => if p a then f a else a := rfl

@[simp] theorem remove_rows (t : Table α) (p : α → Bool) :
    (t.remove p).rows = t.rows.filter fun a => !p a := rfl

theorem mem_of_find? (h : t.find? p = some a) :
    a ∈ t.rows := mem_of_find?_eq_some h

theorem of_find? (h : t.find? p = some a) : p a = true :=
  find?_some h

theorem of_find?_decide {p : α → Prop} [DecidablePred p] (h : t.find? (fun a => decide (p a)) = some a) : p a := by
  have hp := of_find? h
  exact of_decide_eq_true hp

theorem find?_update (t : Table α) {hf} (hq : ∀ a, q (f a) = q a) :
    (t.update p f hf).find? q = (t.find? q).map fun a => if p a then f a else a := by
  have hcomp : (q ∘ fun a => if p a then f a else a) = q := by
    funext a
    simp only [comp_apply]
    split
    · exact hq a
    · rfl
  rw [find?, update_rows, find?_map, hcomp]
  rfl

theorem update_eq_self {hf} : t.update p f hf = t ↔ ∀ a ∈ t.rows, p a = true → f a = a := by
  constructor
  · intro h a ha hp
    have hrows : t.rows.map (fun a => if p a then f a else a) = t.rows.map id := by
      rw [map_id]
      exact congrArg Table.rows h
    have hrow := map_inj_left.1 hrows a ha
    rwa [if_pos hp] at hrow
  · intro h
    apply ext_rows
    rw [update_rows]
    conv_rhs => rw [← map_id t.rows]
    apply map_congr_left
    intro a ha
    split
    · exact h a ha ‹_›
    · rfl

theorem mem_update {hf} : b ∈ (t.update p f hf).rows ↔ ∃ a ∈ t.rows, (if p a then f a else a) = b := by
  rw [update_rows, mem_map]

theorem map_update {β : Type} {hf} {g : α → β} (hg : ∀ a, g (f a) = g a) :
    (t.update p f hf).rows.map g = t.rows.map g := by
  rw [update_rows, map_map]
  apply map_congr_left
  intro a _
  simp only [comp_apply]
  split
  · exact hg a
  · rfl

theorem keys_update (hf : ∀ a, key (f a) = key a := by exact keyKept fun _ => rfl) :
    (t.update p f hf).rows.map key = t.rows.map key :=
  map_update hf

theorem total_congr (h : ∀ a ∈ t.rows, v a = w a) :
    t.total v = t.total w := congrArg sum (map_congr_left h)

theorem total_le (h : ∀ a ∈ t.rows, v a ≤ w a) :
    t.total v ≤ t.total w := sum_le_sum h

theorem total_eq_zero (h : ∀ a ∈ t.rows, w a = 0) :
    t.total w = 0 := sum_eq_zero (by simpa using h)

theorem total_add (t : Table α) (v w : α → Int) :
    t.total (fun a => v a + w a) = t.total v + t.total w := sum_map_add

variable (h : t.insert? a = some t')

include h

theorem find?_insert (q : α → Bool) : t'.find? q = (t.find? q).or (if q a then some a else none) := by
  rw [find?, (insert?_eq_some.1 h).2, find?_append, find?_singleton]
  rfl

theorem find?_insert_of_neg (hq : q a = false) : t'.find? q = t.find? q := by
  rw [find?_insert h, hq, if_neg Bool.false_ne_true, Option.or_none]

theorem mem_insert : b ∈ t'.rows ↔ b ∈ t.rows ∨ b = a := by
  rw [(insert?_eq_some.1 h).2, mem_append, mem_singleton]

theorem total_insert (w : α → Int) : t'.total w = t.total w + w a := by
  simp [total, (insert?_eq_some.1 h).2]

theorem count_insert (p : α → Bool) : t'.count p = t.count p + if p a then 1 else 0 := by
  rw [count, (insert?_eq_some.1 h).2, countP_append, countP_singleton, count]

/-- Rows let in only while fewer than `n` satisfy `q` leave at most `n` that satisfy `p`. -/
theorem count_insert_le {n : Nat} (hpq : p a = true → ∀ b ∈ t.rows, p b = true → q b = true) (hq : t.count q < n)
    (hp : t.count p ≤ n) : t'.count p ≤ n := by
  rw [count_insert h]
  split
  · rename_i ha
    have hle : t.count p ≤ t.count q := countP_mono_left (hpq ha)
    omega
  · exact hp

omit h

theorem count_update_le {hf} (hq : ∀ a, q (f a) = true → q a = true) : (t.update p f hf).count q ≤ t.count q := by
  rw [count, update_rows, countP_map]
  apply countP_mono_left
  intro a _ ha
  simp only [comp_apply] at ha
  split at ha
  · exact hq a ha
  · exact ha

theorem total_remove (t : Table α) (p : α → Bool) (w : α → Int) :
    (t.remove p).total w = t.total w - t.total fun a => if p a then w a else 0 := by
  rw [total, total, total, remove_rows]
  induction t.rows with
  | nil => rfl
  | cons a l ih =>
    rw [filter_cons]
    cases hp : p a <;> simp only [Bool.not_true, Bool.not_false, hp, if_true, if_false, map_cons, sum_cons,
      Bool.false_eq_true, ih] <;> omega

def tabulate (n : Nat) (f : Nat → α) (h : ∀ i j, i < j → ¬ Clashes (f i) (f j)) : Table α where
  rows := (List.range n).map f
  distinct := List.pairwise_map.2 (List.pairwise_lt_range.imp fun hij => h _ _ hij)

theorem tabulate_rows (n : Nat) (f : Nat → α) (h) : (tabulate n f h).rows = (range n).map f := rfl

theorem mem_tabulate {n : Nat} {f : Nat → α} {h} : a ∈ (tabulate n f h).rows ↔ ∃ i < n, f i = a := by
  simp only [tabulate_rows, mem_map, mem_range]

theorem insert?_tabulate (n : Nat) (f : Nat → α) (h) : (tabulate n f h).insert? (f n) = some (tabulate (n + 1) f h) := by
  have hfresh : ∀ b ∈ (tabulate n f h).rows, ¬ Clashes b (f n) := by
    intro b hb
    obtain ⟨i, hi, rfl⟩ := mem_tabulate.1 hb
    exact h i n hi
  obtain ⟨t, ht⟩ := exists_insert hfresh
  rw [ht]
  apply congrArg some
  apply ext_rows
  rw [(insert?_eq_some.1 ht).2, tabulate_rows, tabulate_rows, range_succ, map_append, map_singleton]

theorem total_tabulate {n : Nat} {f : Nat → α} {h} {c : Int} (hw : ∀ i < n, w (f i) = c) :
    (tabulate n f h).total w = n * c := by
  have hconst : (range n).map (w ∘ f) = replicate n c := by
    rw [eq_replicate_iff, length_map, length_range]
    refine ⟨rfl, ?_⟩
    intro v hv
    obtain ⟨i, hi, rfl⟩ := mem_map.1 hv
    exact hw i (mem_range.1 hi)
  rw [total, tabulate_rows, map_map, hconst, sum_replicate, nsmul_eq_mul]

variable (ha : a ∈ t.rows)

include ha

theorem eq_of_clashes (hb : b ∈ t.rows) (h : Clashes a b) : a = b := by
  by_contra hne
  have : Std.Symm fun a b : α => ¬ Clashes a b := ⟨fun x y hxy hyx => hxy hyx.symm⟩
  exact t.distinct.forall ha hb hne h

theorem find?_eq_some_of_mem (hp : p a = true) (hu : ∀ b, p b = true → Clashes b a) : t.find? p = some a := by
  cases hf : t.find? p with
  | none => exact absurd hp (by simpa using find?_eq_none.1 hf a ha)
  | some b => rw [eq_of_clashes (mem_of_find? hf) ha (hu b (of_find? hf))]

theorem exists_split (hu : ∀ b ∈ t.rows, p b = true → Clashes b a) :
    ∃ l₁ l₂, t.rows = l₁ ++ a :: l₂ ∧ ∀ b ∈ l₁ ++ l₂, p b = false := by
  obtain ⟨l₁, l₂, hl⟩ := append_of_mem ha
  have hd := t.distinct
  rw [hl, pairwise_append, pairwise_cons] at hd
  refine ⟨l₁, l₂, hl, fun b hb => ?_⟩
  by_contra hp
  have hc := hu b (by rw [hl]; simp only [mem_append, mem_cons] at hb ⊢; tauto) (by simpa using hp)
  rcases mem_append.1 hb with hb | hb
  · exact hd.2.2 b hb a (mem_cons_self ..) hc
  · exact hd.2.1.1 b hb hc.symm

theorem count_eq_one (hp : p a = true) (hu : ∀ b ∈ t.rows, p b = true → Clashes b a) : t.count p = 1 := by
  obtain ⟨l₁, l₂, hl, hne⟩ := exists_split ha hu
  have hzero (l : List α) (h : ∀ b ∈ l, b ∈ l₁ ++ l₂) : l.countP p = 0 :=
    countP_eq_zero.2 fun b hb hpb => Bool.false_ne_true ((hne b (h b hb)).symm.trans hpb)
  rw [count, hl, countP_append, countP_cons_of_pos hp, hzero l₁ (fun b hb => mem_append_left _ hb),
    hzero l₂ (fun b hb => mem_append_right _ hb)]

omit ha in
theorem count_le_one (hu : ∀ a b, p a = true → p b = true → Clashes a b) : t.count p ≤ 1 := by
  by_cases h : ∃ a ∈ t.rows, p a = true
  · obtain ⟨a, ha, hp⟩ := h
    exact (count_eq_one ha hp fun b _ hb => hu b a hb hp).le
  · rw [count, countP_eq_zero.2 fun a ha hp => h ⟨a, ha, hp⟩]
    omega

theorem total_update {hf} (hp : p a = true) (hu : ∀ b ∈ t.rows, p b = true → Clashes b a) (w : α → Int) :
    (t.update p f hf).total w = t.total w - w a + w (f a) := by
  obtain ⟨l₁, l₂, hl, hne⟩ := exists_split ha hu
  have hid (l : List α) (h : ∀ b ∈ l, b ∈ l₁ ++ l₂) :
      l.map (fun b => w (if p b then f b else b)) = l.map w :=
    map_congr_left fun b hb => by simp [hne b (h b hb)]
  simp only [total, update_rows, hl, map_append, map_cons, map_map, comp_def,
    hp, if_true, sum_append, sum_cons, hid l₁ (by simp +contextual), hid l₂ (by simp +contextual)]
  omega

theorem total_single (hp : p a = true) (hu : ∀ b ∈ t.rows, p b = true → Clashes b a) (w : α → Int) :
    t.total (fun b => if p b then w b else 0) = w a := by
  obtain ⟨l₁, l₂, hl, hne⟩ := exists_split ha hu
  have hz (l : List α) (h : ∀ b ∈ l, b ∈ l₁ ++ l₂) :
      (l.map fun b => if p b then w b else 0).sum = 0 :=
    sum_eq_zero (by simpa using fun b hb => by simp [hne b (h b hb)])
  simp [total, hl, hp, hz l₁ (by simp +contextual), hz l₂ (by simp +contextual)]

end Table

end Relational
