import Monoize.Table

/-! Updates of many rows, sent to the database in chunks of bounded size. -/

namespace Relational

open List Table

theorem flatten_toChunks {β : Type} (size : Nat) (l : List β) : (l.toChunks size).flatten = l := by
  have hgo : ∀ (n : Nat) (l : List β) (last : Array β) (parts : Array (List β)),
      (toChunks.go n l last parts).flatten = parts.toList.flatten ++ (last.toList ++ l) := by
    intro n l
    induction l with
    | nil => simp [toChunks.go]
    | cons b l ih =>
      intro last parts
      rw [toChunks.go]
      split <;> simp [ih]
  unfold toChunks
  split
  · rfl
  · simp
  · rw [hgo]
    rfl

section OrderedMap

variable {κ β : Type} [DecidableEq κ] [Ord κ] [Std.TransOrd κ] [Std.LawfulEqOrd κ]

theorem getElem?_insert_eq (m : Std.TreeMap κ β) (k i : κ) (b : β) :
    (m.insert k b)[i]? = if k = i then some b else m[i]? := by
  rw [Std.TreeMap.getElem?_insert]
  simp only [Std.LawfulEqCmp.compare_eq_iff_eq]

omit [DecidableEq κ] in
theorem toList_distinct (m : Std.TreeMap κ β) : m.toList.Pairwise fun p q => p.1 ≠ q.1 :=
  Std.TreeMap.distinct_keys_toList.imp fun hne heq => hne (Std.LawfulEqCmp.compare_eq_iff_eq.2 heq)

theorem lookup_toList (m : Std.TreeMap κ β) (k : κ) : m.toList.lookup k = m[k]? := by
  cases hb : m[k]? with
  | some b =>
    have hmem : (k, b) ∈ m.toList := Std.TreeMap.mem_toList_iff_getElem?_eq_some.2 hb
    obtain ⟨l₁, l₂, hl⟩ := append_of_mem hmem
    have hdistinct := toList_distinct m
    rw [hl] at hdistinct
    rw [lookup_eq_some_iff]
    refine ⟨l₁, l₂, hl, fun p hp => ?_⟩
    rw [bne_iff_ne]
    exact ((pairwise_append.1 hdistinct).2.2 p hp (k, b) mem_cons_self).symm
  | none =>
    rw [lookup_eq_none_iff]
    rintro ⟨i, b⟩ hmem
    rw [bne_iff_ne]
    rintro rfl
    rw [Std.TreeMap.mem_toList_iff_getElem?_eq_some, hb] at hmem
    cases hmem

end OrderedMap

variable {α κ β : Type} [DecidableEq κ]

def caseOf (column : α → κ) (set : β → α → α) (cases : List (κ × β)) (a : α) : α :=
  match cases.lookup (column a) with
  | some b => set b a
  | none => a

theorem caseOf_append {column : α → κ} {set : β → α → α} (hcolumn : ∀ b a, column (set b a) = column a)
    {first rest : List (κ × β)} (hdistinct : (first ++ rest).Pairwise fun p q => p.1 ≠ q.1) (a : α) :
    caseOf column set rest (caseOf column set first a) = caseOf column set (first ++ rest) a := by
  cases hfirst : first.lookup (column a) with
  | none => simp only [caseOf, hfirst, lookup_append, Option.none_or]
  | some b =>
    have hrest : rest.lookup (column a) = none := by
      rw [lookup_eq_none_iff]
      intro p hp
      obtain ⟨l₁, l₂, hl, -⟩ := lookup_eq_some_iff.1 hfirst
      rw [bne_iff_ne]
      exact (pairwise_append.1 hdistinct).2.2 (column a, b) (by simp [hl]) p hp
    simp only [caseOf, hfirst, hcolumn, hrest, lookup_append, Option.some_or]

variable [Keyed α]

theorem caseOf_key {column : α → κ} {set : β → α → α} (hset : ∀ b a, Keyed.key (set b a) = Keyed.key a)
    (cases : List (κ × β)) (a : α) : Keyed.key (caseOf column set cases a) = Keyed.key a := by
  unfold caseOf
  split
  · exact hset _ a
  · rfl

def Table.updateCases (t : Table α) (column : α → κ) (set : β → α → α)
    (hset : ∀ b a, Keyed.key (set b a) = Keyed.key a) (cases : List (κ × β)) : Table α :=
  t.update (fun a => column a ∈ cases.map Prod.fst) (caseOf column set cases) (caseOf_key hset cases)

theorem Table.updateCases_rows (t : Table α) (column : α → κ) (set : β → α → α) (hset) (cases : List (κ × β)) :
    (t.updateCases column set hset cases).rows = t.rows.map (caseOf column set cases) := by
  rw [updateCases, update_rows]
  apply map_congr_left
  intro a _
  split
  · rfl
  rename_i hmem
  have hnone : cases.lookup (column a) = none := by
    rw [lookup_eq_none_iff]
    intro p hp
    rw [bne_iff_ne]
    intro heq
    exact hmem (decide_eq_true (heq ▸ mem_map_of_mem hp))
  rw [caseOf, hnone]

def Table.updateChunks (t : Table α) (column : α → κ) (set : β → α → α)
    (hset : ∀ b a, Keyed.key (set b a) = Keyed.key a) (parts : List (List (κ × β))) : Table α :=
  parts.foldl (fun t cases => t.updateCases column set hset cases) t

theorem Table.updateChunks_rows {t : Table α} {column : α → κ} {set : β → α → α} {hset}
    (hcolumn : ∀ b a, column (set b a) = column a) {parts : List (List (κ × β))}
    (hdistinct : parts.flatten.Pairwise fun p q => p.1 ≠ q.1) :
    (t.updateChunks column set hset parts).rows = t.rows.map (caseOf column set parts.flatten) := by
  induction parts generalizing t with
  | nil => exact (map_id' t.rows).symm
  | cons cases parts ih =>
    rw [flatten_cons] at hdistinct ⊢
    have hstep : t.updateChunks column set hset (cases :: parts)
        = (t.updateCases column set hset cases).updateChunks column set hset parts := rfl
    rw [hstep, ih (pairwise_append.1 hdistinct).2.1, updateCases_rows, map_map]
    apply map_congr_left
    intro a _
    exact caseOf_append hcolumn hdistinct a

def Table.updateEach (t : Table α) (p : κ → α → Bool) (f : α → α) (hf : ∀ a, Keyed.key (f a) = Keyed.key a)
    (keys : List κ) : Table α × Nat :=
  keys.foldl (fun (t, changed) k => (t.update (p k) f hf, changed + t.count (p k))) (t, 0)

def Table.removeEach (t : Table α) (p : κ → α → Bool) (keys : List κ) : Table α × Nat :=
  keys.foldl (fun (t, changed) k => (t.remove (p k), changed + t.count (p k))) (t, 0)

omit [DecidableEq κ] in
theorem Table.updateEach_rows {t : Table α} {p : κ → α → Bool} {f : α → α} {hf} (hp : ∀ k a, p k (f a) = false)
    (keys : List κ) : (t.updateEach p f hf keys).1.rows = t.rows.map fun a => if keys.any (p · a) then f a else a := by
  have hfold : ∀ (keys : List κ) (t : Table α) (n : Nat),
      (keys.foldl (fun (t, changed) k => (t.update (p k) f hf, changed + t.count (p k))) (t, n)).1.rows =
        t.rows.map fun a => if keys.any (p · a) then f a else a := by
    intro keys
    induction keys with
    | nil =>
      intro t n
      simp
    | cons k keys ih =>
      intro t n
      rw [foldl_cons, ih, update_rows, map_map]
      apply map_congr_left
      intro a _
      cases hk : p k a with
      | false => simp [hk]
      | true => simp [hk, hp]
  exact hfold keys t 0

omit [DecidableEq κ] in
theorem Table.removeEach_rows (t : Table α) (p : κ → α → Bool) (keys : List κ) :
    (t.removeEach p keys).1.rows = t.rows.filter fun a => !keys.any (p · a) := by
  have hfold : ∀ (keys : List κ) (t : Table α) (n : Nat),
      (keys.foldl (fun (t, changed) k => (t.remove (p k), changed + t.count (p k))) (t, n)).1.rows =
        t.rows.filter fun a => !keys.any (p · a) := by
    intro keys
    induction keys with
    | nil =>
      intro t n
      simp
    | cons k keys ih =>
      intro t n
      rw [foldl_cons, ih, remove_rows, filter_filter]
      apply filter_congr
      intro a _
      simp [Bool.and_comm]
  exact hfold keys t 0

end Relational
