import Mathlib.Data.List.Nodup
import Mathlib.Data.List.Pairwise

/-! Texts made of fields: cutting them at separators, and what can be read from a text that joins
`key=value` fields without quoting them. -/

namespace TextFields

open List

def splitAt? (separator : Char) (cs : List Char) : Option (List Char × List Char) :=
  match cs.dropWhile (· ≠ separator) with
  | [] => none
  | _ :: rest => some (cs.takeWhile (· ≠ separator), rest)

theorem splitAt?_eq_some {separator : Char} {cs before after : List Char} :
    splitAt? separator cs = some (before, after) ↔ cs = before ++ separator :: after ∧ separator ∉ before := by
  constructor
  · intro h
    unfold splitAt? at h
    split at h
    · cases h
    rename_i c rest hdrop
    have hc : c = separator := by
      have hnot := head?_dropWhile_not (· ≠ separator) cs
      rw [hdrop] at hnot
      simpa using hnot
    cases h
    refine ⟨?_, fun hmem => ?_⟩
    · rw [← hc, ← hdrop, hc]
      exact (takeWhile_append_dropWhile).symm
    · simpa using all_eq_true.1 all_takeWhile _ hmem
  · rintro ⟨rfl, hnot⟩
    have hne : ∀ c ∈ before, decide (c ≠ separator) = true := fun c hc => decide_eq_true fun h => hnot (h ▸ hc)
    rw [splitAt?, dropWhile_append_of_pos hne, takeWhile_append_of_pos hne]
    simp

def trimMatches (c : Char) (cs : List Char) : List Char :=
  ((cs.dropWhile (· = c)).reverse.dropWhile (· = c)).reverse

def asciiLower (c : Char) : Char := if 'A' ≤ c ∧ c ≤ 'Z' then Char.ofNat (c.toNat + 32) else c

def eqIgnoreAsciiCase (xs ys : List Char) : Bool := xs.map asciiLower = ys.map asciiLower

def hexText (bytes : List UInt8) : List Char :=
  bytes.flatMap fun b => [Nat.digitChar (b.toNat / 16), Nat.digitChar (b.toNat % 16)]

theorem digitChar_hex_injective : ∀ a b : Fin 16, Nat.digitChar a = Nat.digitChar b → a = b := by decide

theorem hexText_injective {xs ys : List UInt8} (h : hexText xs = hexText ys) : xs = ys := by
  induction xs generalizing ys with
  | nil =>
    cases ys with
    | nil => rfl
    | cons y ys => cases h
  | cons x xs ih =>
    cases ys with
    | nil => cases h
    | cons y ys =>
      have hx := x.toNat_lt
      have hy := y.toNat_lt
      simp only [hexText, flatMap_cons, cons_append, nil_append, cons.injEq] at h
      obtain ⟨hhigh, hlow, hrest⟩ := h
      have high := digitChar_hex_injective ⟨x.toNat / 16, by omega⟩ ⟨y.toNat / 16, by omega⟩ hhigh
      have low := digitChar_hex_injective ⟨x.toNat % 16, by omega⟩ ⟨y.toNat % 16, by omega⟩ hlow
      simp only [Fin.mk.injEq] at high low
      have hsame : x = y := by
        apply UInt8.toNat_inj.1
        omega
      rw [hsame, ih hrest]

theorem asciiLower_hexText (bytes : List UInt8) : (hexText bytes).map asciiLower = hexText bytes := by
  have hdigit : ∀ n : Fin 16, asciiLower (Nat.digitChar n) = Nat.digitChar n := by decide
  induction bytes with
  | nil => rfl
  | cons b bytes ih =>
    have hb := b.toNat_lt
    have high := hdigit ⟨b.toNat / 16, by omega⟩
    have low := hdigit ⟨b.toNat % 16, by omega⟩
    simp only [hexText, flatMap_cons, cons_append, nil_append, map_cons] at ih ⊢
    rw [high, low, ih]

def utf8Bytes (text : String) : List UInt8 := text.toByteArray.data.toList

theorem utf8Bytes_injective {s t : String} (h : utf8Bytes s = utf8Bytes t) : s = t := by
  apply String.toByteArray_inj.1
  apply ByteArray.ext
  exact Array.toList_inj.1 h

section Fields

variable (sep eq : Char)

def fieldText (e : String × String) : List Char := e.1.toList ++ eq :: e.2.toList

def joinFields (fields : List (String × String)) : List Char := [sep].intercalate (fields.map (fieldText eq))

variable {sep eq}

theorem intercalate_cons (sep : Char) (x : List Char) (xs : List (List Char)) :
    ∃ rest, [sep].intercalate (x :: xs) = x ++ rest ∧ (xs = [] ∧ rest = [] ∨ xs ≠ [] ∧ ∃ more, rest = sep :: more) := by
  cases xs with
  | nil => exact ⟨[], by simp, .inl ⟨rfl, rfl⟩⟩
  | cons y ys => exact ⟨sep :: [sep].intercalate (y :: ys), by simp, .inr ⟨cons_ne_nil _ _, _, rfl⟩⟩

theorem splitOn_intercalate_flatMap {xs : List (List Char)} (h : xs ≠ []) :
    ([sep].intercalate xs).splitOn sep = xs.flatMap fun x => x.splitOn sep := by
  induction xs with
  | nil => exact absurd rfl h
  | cons x xs ih =>
    cases xs with
    | nil => simp
    | cons y ys =>
      have hjoin : [sep].intercalate (x :: y :: ys) = x ++ sep :: [sep].intercalate (y :: ys) := by simp
      have hsplit : (x ++ sep :: [sep].intercalate (y :: ys)).splitOn sep =
          x.splitOn sep ++ ([sep].intercalate (y :: ys)).splitOn sep :=
        splitOnP_append_cons x _ (beq_self_eq_true sep)
      rw [hjoin, hsplit, ih (cons_ne_nil y ys)]
      simp only [flatMap_cons]

theorem key_of_fieldText {k l : String} {x y : List Char} (hk : eq ∉ k.toList) (hl : eq ∉ l.toList)
    (h : k.toList ++ eq :: x = l.toList ++ eq :: y) : k = l ∧ x = y := by
  have htake : ∀ (m : String) (z : List Char), eq ∉ m.toList →
      (m.toList ++ eq :: z).takeWhile (· ≠ eq) = m.toList := by
    intro m z hm
    have hall : ∀ c ∈ m.toList, decide (c ≠ eq) = true := by
      intro c hc
      apply decide_eq_true
      rintro rfl
      exact hm hc
    rw [takeWhile_append_of_pos hall]
    simp
  have hkey : k.toList = l.toList := by
    rw [← htake k x hk, ← htake l y hl, h]
  refine ⟨String.toList_inj.1 hkey, ?_⟩
  rw [hkey] at h
  exact cons_injective (append_cancel_left h)

/-- A text joined from the fields `signed`, which hold no separator, has been read as `fields`. -/
structure Regrouped (sep eq : Char) (signed fields : List (String × String)) : Prop where
  keys : signed.Pairwise fun a b => a.1 ≠ b.1
  noSep : ∀ e ∈ signed, sep ∉ e.1.toList ∧ sep ∉ e.2.toList
  noEq : ∀ e ∈ signed, eq ∉ e.1.toList
  sepNe : sep ≠ eq
  text : joinFields sep eq signed = joinFields sep eq fields

variable {signed fields : List (String × String)}

variable (h : Regrouped sep eq signed fields)

include h

theorem Regrouped.segments (hne : fields ≠ []) :
    signed.map (fieldText eq) = fields.flatMap fun e => (fieldText eq e).splitOn sep := by
  have hsigned : signed ≠ [] := by
    rintro rfl
    obtain ⟨e, rest, rfl⟩ := exists_cons_of_ne_nil hne
    have htext := h.text
    unfold joinFields at htext
    rw [map_cons] at htext
    obtain ⟨rest, hrest, -⟩ := intercalate_cons sep (fieldText eq e) (rest.map (fieldText eq))
    rw [hrest] at htext
    simp [fieldText] at htext
  have hfree : ∀ x ∈ signed.map (fieldText eq), sep ∉ x := by
    intro x hx
    obtain ⟨e, he, rfl⟩ := mem_map.1 hx
    obtain ⟨hkey, hvalue⟩ := h.noSep e he
    simp [fieldText, hkey, hvalue, h.sepNe]
  have hsplit := splitOn_intercalate sep hfree (by simpa using hsigned)
  have htext := h.text
  unfold joinFields at htext
  rw [← hsplit, htext, splitOn_intercalate_flatMap (by simpa using hne), flatMap_map]

theorem Regrouped.nodup : (signed.map (fieldText eq)).Nodup := by
  apply pairwise_map.2
  apply (List.Pairwise.and_mem.1 h.keys).imp
  rintro a b ⟨ha, hb, hne⟩ hsame
  exact hne (key_of_fieldText (h.noEq a ha) (h.noEq b hb) hsame).1

theorem Regrouped.field {k v : String} (hmem : (k, v) ∈ fields) (hk : eq ∉ k.toList) :
    ∃ v₀ tail, ((k, v₀) :: tail).Sublist signed ∧ ((k, v₀) :: tail).map (fieldText eq) = (fieldText eq (k, v)).splitOn sep ∧
      (tail = [] ∧ v = v₀ ∨ tail ≠ [] ∧ ∃ more, v.toList = v₀.toList ++ sep :: more) := by
  obtain ⟨before, after, rfl⟩ := append_of_mem hmem
  have hsegments := h.segments (append_ne_nil_of_right_ne_nil _ (cons_ne_nil _ _))
  rw [flatMap_append, flatMap_cons] at hsegments
  obtain ⟨front, rest, rfl, -, hrest⟩ := map_eq_append_iff.1 hsegments
  obtain ⟨group, back, rfl, hgroup, -⟩ := map_eq_append_iff.1 hrest
  have hjoined : [sep].intercalate (group.map (fieldText eq)) = fieldText eq (k, v) := by
    rw [hgroup, intercalate_splitOn]
  cases group with
  | nil => exact absurd hgroup.symm (splitOnP_ne_nil _ _)
  | cons a tail =>
    have ha : a ∈ front ++ (a :: tail ++ back) := by simp
    rw [map_cons] at hjoined
    obtain ⟨rest, hcut, hcases⟩ := intercalate_cons sep (fieldText eq a) (tail.map (fieldText eq))
    rw [hcut] at hjoined
    obtain ⟨hkey, hvalue⟩ := key_of_fieldText (h.noEq a ha) hk
      (show a.1.toList ++ eq :: (a.2.toList ++ rest) = k.toList ++ eq :: v.toList by
        simpa [fieldText] using hjoined)
    subst hkey
    refine ⟨a.2, tail, ?_, hgroup, ?_⟩
    · exact (sublist_append_left (a :: tail) back).trans (sublist_append_right front _)
    · rcases hcases with ⟨htail, rfl⟩ | ⟨htail, more, rfl⟩
      · exact .inl ⟨map_eq_nil_iff.1 htail, String.toList_inj.1 (by simpa using hvalue.symm)⟩
      · exact .inr ⟨by simpa using htail, more, hvalue.symm⟩

theorem Regrouped.tail_ne {k v l w v₀ : String} {tail : List (String × String)}
    (hmem : (k, v) ∈ fields) (hother : (l, w) ∈ fields) (hl : eq ∉ l.toList) (hsub : ((k, v₀) :: tail).Sublist signed)
    (hgroup : ((k, v₀) :: tail).map (fieldText eq) = (fieldText eq (k, v)).splitOn sep) : ∀ t ∈ tail, t.1 ≠ l := by
  rintro t ht rfl
  obtain ⟨w₀, tail', hsub', hgroup', -⟩ := h.field hother hl
  have htmem : t ∈ signed := hsub.subset (mem_cons_of_mem _ ht)
  have hwmem : (t.1, w₀) ∈ signed := hsub'.subset mem_cons_self
  have hsame : t = (t.1, w₀) := by
    by_contra hne
    have : Std.Symm fun a b : String × String => a.1 ≠ b.1 := ⟨fun _ _ hne => hne.symm⟩
    exact h.keys.forall htmem hwmem hne rfl
  have hnodup := h.nodup
  rw [h.segments (ne_nil_of_mem hmem)] at hnodup
  obtain ⟨-, hdisjoint⟩ := nodup_flatMap.1 hnodup
  have hin : fieldText eq t ∈ (fieldText eq (k, v)).splitOn sep := by
    rw [← hgroup]
    exact mem_map_of_mem (mem_cons_of_mem _ ht)
  have hin' : fieldText eq t ∈ (fieldText eq (t.1, w)).splitOn sep := by
    rw [← hgroup', ← hsame]
    exact mem_map_of_mem mem_cons_self
  by_cases heq : (k, v) = (t.1, w)
  · have hkey : k = t.1 := congrArg Prod.fst heq
    exact (rel_of_pairwise_cons (h.keys.sublist hsub) ht) hkey
  · have : Std.Symm (Function.onFun List.Disjoint fun e => (fieldText eq e).splitOn sep) :=
      ⟨fun _ _ hdisjoint _ hx hy => hdisjoint hy hx⟩
    exact hdisjoint.forall hmem hother heq hin hin'

end Fields

end TextFields
