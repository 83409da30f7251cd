import Mathlib.Data.List.Basic
import Mathlib.Data.String.Basic

/-! A text cut into parts that each fit a line of limited length. What else stands on the line is
known to the length function only. -/

namespace SseSplit

def search (fits : Nat → Bool) (low high : Nat) (best : Option Nat) : Option Nat :=
  if low < high then
    if fits ((low + high) / 2) then search fits ((low + high) / 2 + 1) high (some ((low + high) / 2))
    else search fits low ((low + high) / 2) best
  else best
termination_by high - low

def largestFittingPrefix (fits : String → Bool) (chars : List Char) : Nat :=
  (search (fun mid => fits (String.ofList (chars.take (mid + 1)))) 0 chars.length none).getD 0 + 1

def loop (fits : Nat → String → Bool) (index : Nat) (chars : List Char) : List String :=
  if chars = [] then []
  else
    String.ofList (chars.take (largestFittingPrefix (fits index) chars)) ::
      loop fits (index + 1) (chars.drop (largestFittingPrefix (fits index) chars))
termination_by chars.length
decreasing_by
  rename_i hne
  have hpos : 0 < chars.length := List.length_pos_iff.mpr hne
  rw [List.length_drop, largestFittingPrefix]
  omega

def splitByExactLimit (lineLength : Nat → String → Nat) (limit : Option Nat) (content : String) : List String :=
  match limit with
  | none => [content]
  | some limit =>
    if limit < lineLength 0 "" then [""]
    else if content = "" then [""]
    else loop (fun index part => lineLength index part ≤ limit) 0 content.toList

theorem join_loop (fits : Nat → String → Bool) (index : Nat) (chars : List Char) :
    String.join (loop fits index chars) = String.ofList chars := by
  fun_induction loop fits index chars with
  | case1 index => rfl
  | case2 index chars hne ih => rw [String.join_cons, ih, ← String.ofList_append, List.take_append_drop]

theorem search_fits {fits : Nat → Bool} {low high m : Nat} {best : Option Nat} (h : search fits low high best = some m) :
    fits m = true ∨ best = some m := by
  fun_induction search fits low high best with
  | case1 low high best _ hfits ih =>
    rcases ih h with hm | hm
    · exact .inl hm
    · cases hm
      exact .inl hfits
  | case2 low high best _ _ ih => exact ih h
  | case3 => exact .inr h

theorem largestFittingPrefix_fits {fits : String → Bool} {c : Char} {chars : List Char}
    (h : fits (String.ofList [c]) = true) :
    fits (String.ofList ((c :: chars).take (largestFittingPrefix fits (c :: chars)))) = true := by
  unfold largestFittingPrefix
  cases hm : search (fun mid => fits (String.ofList ((c :: chars).take (mid + 1)))) 0 (c :: chars).length none with
  | none => exact h
  | some m =>
    rcases search_fits hm with hfits | hnone
    · exact hfits
    · cases hnone

theorem loop_fits {fits : Nat → String → Bool} {index : Nat} {chars : List Char}
    (h : ∀ k < chars.length, ∀ c ∈ chars, fits (index + k) (String.ofList [c]) = true) {k : Nat} {part : String}
    (hpart : (loop fits index chars)[k]? = some part) : fits (index + k) part = true := by
  fun_induction loop fits index chars generalizing k with
  | case1 index => simp at hpart
  | case2 index chars hne ih =>
    obtain ⟨c, cs, rfl⟩ := List.exists_cons_of_ne_nil hne
    cases k with
    | zero =>
      cases hpart
      exact largestFittingPrefix_fits (h 0 (by simp) c (by simp))
    | succ k =>
      have hshift : ∀ k, index + (k + 1) = index + 1 + k := fun k => by omega
      rw [hshift]
      refine ih (fun k hk c hc => ?_) hpart
      rw [← hshift]
      apply h (k + 1) _ c (List.mem_of_mem_drop hc)
      simp only [List.length_drop, largestFittingPrefix] at hk
      omega

theorem join_splitByExactLimit {lineLength : Nat → String → Nat} {limit : Option Nat}
    (h : ∀ l, limit = some l → lineLength 0 "" ≤ l) (content : String) :
    String.join (splitByExactLimit lineLength limit content) = content := by
  unfold splitByExactLimit
  split
  · simp
  rename_i l
  rw [if_neg (Nat.not_lt.mpr (h l rfl))]
  split
  · rename_i hempty
    simp [hempty]
  · rw [join_loop, String.ofList_toList]

theorem splitByExactLimit_ne_nil (lineLength : Nat → String → Nat) (limit : Option Nat) (content : String) :
    splitByExactLimit lineLength limit content ≠ [] := by
  unfold splitByExactLimit
  split
  · simp
  split
  · simp
  split
  · simp
  rename_i hne
  have hchars : content.toList ≠ [] := by simpa using hne
  rw [loop, if_neg hchars]
  simp

end SseSplit
