import Mathlib.Data.Int.Basic
import Mathlib.Data.List.Induction
import Mathlib.Tactic.Linarith

/-! Checked machine integers and their decimal text. -/

namespace MachineInt

open List Option Nat

variable {w : Nat} {x y : Int} {cs : List Char}

-- only the characters of the text are tried
instance (priority := high) decidableAllChars (p : Char → Prop) [DecidablePred p] (cs : List Char) :
    Decidable (∀ c ∈ cs, p c) :=
  List.decidableBAll p cs

def checked (w : Nat) (x : Int) : Option Int :=
  if -2 ^ w ≤ x ∧ x < 2 ^ w then some x else none

def wrapping (w : Nat) (x : Int) : Int := x.bmod (2 ^ (w + 1))

/-- Truncating division, which panics on a zero divisor and on the one overflowing quotient. -/
def div? (w : Nat) (x y : Int) : Option Int :=
  if y = 0 then none else checked w (x.tdiv y)

/-- The range of the signed integers of `w + 1` bits. -/
def Fits (w : Nat) (x : Int) : Prop := -2 ^ w ≤ x ∧ x < 2 ^ w

theorem checked_eq_some : checked w x = some y ↔ x = y ∧ -2 ^ w ≤ x ∧ x < 2 ^ w := by
  unfold checked
  split
  · simp_all
  · rename_i h
    simp only [reduceCtorEq, false_iff]
    exact fun e => h e.2

theorem checked_self (h : checked w x = some y) : checked w y = some y := by
  rw [(checked_eq_some.1 h).1] at h
  exact h

theorem wrapping_eq_self (hlo : -2 ^ w ≤ x) (hhi : x < 2 ^ w) : wrapping w x = x := by
  have hpow : ((2 ^ (w + 1) : Nat) : Int) = 2 ^ w * 2 := by
    push_cast
    exact pow_succ 2 w
  apply Int.bmod_eq_of_le_mul_two
  · rw [hpow]
    linarith
  · rw [hpow]
    linarith

theorem wrapping_range (w : Nat) (x : Int) : -2 ^ w ≤ wrapping w x ∧ wrapping w x < 2 ^ w := by
  have hpos : 0 < 2 ^ (w + 1) := Nat.two_pow_pos _
  have hpow : ((2 ^ (w + 1) : Nat) : Int) = 2 ^ w * 2 := by
    push_cast
    exact pow_succ 2 w
  have hlo := Int.le_bmod (x := x) hpos
  have hhi := Int.bmod_lt (x := x) hpos
  rw [hpow] at hlo hhi
  constructor
  · unfold wrapping
    omega
  · unfold wrapping
    omega

theorem wrapping_add (w : Nat) (x y : Int) : wrapping w (wrapping w x + y) = wrapping w (x + y) :=
  Int.bmod_add_bmod

theorem checked_sub_of_nonneg (hx : 0 ≤ x) (hxw : x < 2 ^ w) (hy : 0 ≤ y) (hyw : y < 2 ^ w) :
    checked w (x - y) = some (x - y) :=
  checked_eq_some.2 ⟨rfl, by linarith, by linarith⟩

def digits? (cs : List Char) : Option Nat :=
  if cs ≠ [] ∧ cs.all Char.isDigit then some (Nat.ofDigitChars 10 cs 0) else none

def canonical? (cs : List Char) : Option Nat :=
  if 1 < cs.length ∧ cs.head? = some '0' then none else digits? cs

def signed? : List Char → Option Int
  | '-' :: cs => (digits? cs).map fun n : Nat => -(n : Int)
  | '+' :: cs => (digits? cs).map Int.ofNat
  | cs => (digits? cs).map Int.ofNat

def isWhitespace (c : Char) : Bool :=
  (9 ≤ c.toNat && c.toNat ≤ 13) || [0x20, 0x85, 0xA0, 0x1680, 0x2028, 0x2029, 0x202F, 0x205F, 0x3000].contains c.toNat ||
    (0x2000 ≤ c.toNat && c.toNat ≤ 0x200A)

def trim (cs : List Char) : List Char :=
  ((cs.dropWhile isWhitespace).reverse.dropWhile isWhitespace).reverse

def trimmed? (w : Nat) (text : String) : Option Int :=
  (signed? (trim text.toList)).bind (checked w)

theorem checked_of_trimmed? {text : String} {v : Int} (h : trimmed? w text = some v) : checked w v = some v := by
  obtain ⟨x, -, hx⟩ := bind_eq_some_iff.1 h
  exact checked_self hx

theorem digits?_toDigits (n : Nat) : digits? (toDigits 10 n) = some n := by
  have hd : (toDigits 10 n).all Char.isDigit = true :=
    all_eq_true.2 fun c hc => isDigit_of_mem_toDigits (by omega) (by omega) hc
  simp only [digits?, hd, ne_eq, toDigits_ne_nil, not_false_eq_true, and_self, if_true,
    ofDigitChars_ten_toDigits]

theorem head?_toDigits_ne_zero (n : Nat) (hn : 0 < n) : (toDigits 10 n).head? ≠ some '0' := by
  induction n using Nat.strongRecOn with
  | ind n ih =>
    rw [toDigits_eq_if (by omega)]
    split
    · simp only [head?_cons, ne_eq, some.injEq, digitChar_eq_zero]
      omega
    have h := ih (n / 10) (by omega) (by omega)
    rw [head?_append]
    obtain ⟨c, hc⟩ := isSome_iff_exists.1 (isSome_head?.2 (toDigits_ne_nil (n := n / 10) (b := 10)))
    simpa [hc] using h

theorem canonical?_toDigits (n : Nat) : canonical? (Nat.toDigits 10 n) = some n := by
  unfold canonical?
  rcases Nat.eq_zero_or_pos n with rfl | hn
  · rfl
  · rw [if_neg (fun h => head?_toDigits_ne_zero n hn h.2), digits?_toDigits]

theorem digitChar_toNat {c : Char} (h : c.isDigit = true) :
    c.toNat - '0'.toNat < 10 ∧ Nat.digitChar (c.toNat - '0'.toNat) = c := by
  have hall : ∀ d < 10, digitChar ((Char.ofNat (48 + d)).toNat - '0'.toNat) = Char.ofNat (48 + d) := by decide
  simp only [Char.isDigit, Bool.and_eq_true, decide_eq_true_eq, UInt32.le_iff_toNat_le] at h
  have hlo : 48 ≤ c.toNat := h.1
  have hhi : c.toNat ≤ 57 := h.2
  have hzero : '0'.toNat = 48 := rfl
  have hdigit := hall (c.toNat - 48) (by omega)
  rw [Nat.add_sub_cancel' hlo, Char.ofNat_toNat] at hdigit
  exact ⟨by omega, hdigit⟩

theorem toDigits_ofDigitChars (hne : cs ≠ []) (hdigits : ∀ c ∈ cs, c.isDigit = true)
    (hhead : 1 < cs.length → cs.head? ≠ some '0') : toDigits 10 (ofDigitChars 10 cs 0) = cs := by
  induction cs using reverseRecOn with
  | nil => exact absurd rfl hne
  | append_singleton cs c ih =>
    obtain ⟨hlt, hchar⟩ := digitChar_toNat (hdigits c (by simp))
    rw [ofDigitChars_append, ofDigitChars_cons, ofDigitChars_nil]
    by_cases hcs : cs = []
    · subst hcs
      rw [ofDigitChars_nil, mul_zero, zero_add, toDigits_of_lt_base hlt, hchar]
      rfl
    have hhead' : cs.head? ≠ some '0' := by
      have hlen : 1 < (cs ++ [c]).length := by
        have := length_pos_iff.2 hcs
        rw [length_append, length_singleton]
        omega
      intro hfirst
      apply hhead hlen
      rw [head?_append, hfirst, some_or]
    have hih := ih hcs (fun d hd => hdigits d (mem_append_left _ hd)) (fun _ => hhead')
    have hpos : 0 < ofDigitChars 10 cs 0 := by
      apply pos_of_ne_zero
      intro hzero
      rw [hzero, toDigits_zero] at hih
      rw [← hih] at hhead'
      exact hhead' rfl
    rw [toDigits_of_base_le (by omega) (by omega), mul_add_div (by omega), div_eq_of_lt hlt, add_zero,
      hih, mul_add_mod, mod_eq_of_lt hlt, hchar]

theorem toDigits_of_canonical? {n : Nat} (h : canonical? cs = some n) : toDigits 10 n = cs := by
  unfold canonical? digits? at h
  split at h
  · cases h
  rename_i hzero
  split at h
  · rename_i hdigits
    rw [← some.inj h]
    exact toDigits_ofDigitChars hdigits.1 (all_eq_true.1 hdigits.2) (fun hlen hhead => hzero ⟨hlen, hhead⟩)
  · cases h

theorem canonical?_neg (cs : List Char) : canonical? ('-' :: cs) = none := by
  unfold canonical? digits?
  split
  · rfl
  · simp

theorem toList_toString (v : Int) : (toString v).toList =
    if v < 0 then '-' :: toDigits 10 v.natAbs else toDigits 10 v.natAbs := by
  rcases v with n | n
  · simp [Int.toString_eq_repr, Int.repr, toList_repr]
  · simp [Int.toString_eq_repr, Int.repr, toList_repr, Int.negSucc_lt_zero]

theorem canonical?_toString (v : Int) : canonical? (toString v).toList = if v < 0 then none else some v.natAbs := by
  rw [toList_toString]
  split
  · exact canonical?_neg _
  · exact canonical?_toDigits _

theorem canonical?_checked_toString {v n : Int} :
    (∃ m : Nat, canonical? (toString v).toList = some m ∧ checked w m = some n) ↔ v = n ∧ 0 ≤ v ∧ v < 2 ^ w := by
  simp only [canonical?_toString, checked_eq_some]
  constructor
  · rintro ⟨m, hm, rfl, -, hlt⟩
    split at hm
    · cases hm
    · cases hm
      omega
  · rintro ⟨rfl, h0, hlt⟩
    exact ⟨v.natAbs, by rw [if_neg (by omega)], by omega, by omega, by omega⟩

theorem signed?_toDigits (n : Nat) : signed? (toDigits 10 n) = some (n : Int) := by
  have hd (c : Char) (hc : c ∈ toDigits 10 n) : c.isDigit = true :=
    isDigit_of_mem_toDigits (by omega) (by omega) hc
  unfold signed?
  split
  · rename_i h; simpa using hd '-' (by simp [h])
  · rename_i h; simpa using hd '+' (by simp [h])
  · rw [digits?_toDigits]; rfl

theorem signed?_toString (v : Int) : signed? (toString v).toList = some v := by
  rw [toList_toString]
  split
  · have h : (digits? (toDigits 10 v.natAbs)).map (fun n : Nat => -(n : Int)) = some (-(v.natAbs : Int)) := by
      rw [digits?_toDigits]; rfl
    refine h.trans (congrArg some ?_)
    omega
  · rw [signed?_toDigits, some.injEq]
    omega

theorem trim_eq_self (h : ∀ c ∈ cs, isWhitespace c = false) : trim cs = cs := by
  have hdrop : ∀ l : List Char, (∀ c ∈ l, isWhitespace c = false) → l.dropWhile isWhitespace = l := by
    intro l hl
    cases l with
    | nil => rfl
    | cons c l => rw [dropWhile_cons_of_neg (by simp [hl c (mem_cons_self ..)])]
  rw [trim, hdrop cs h, hdrop cs.reverse (fun c hc => h c (mem_reverse.1 hc)), reverse_reverse]

theorem isWhitespace_of_isDigit {c : Char} (h : c.isDigit = true) : isWhitespace c = false := by
  simp only [Char.isDigit, Bool.and_eq_true, decide_eq_true_eq, UInt32.le_iff_toNat_le] at h
  have hlo : 48 ≤ c.toNat := h.1
  have hhi : c.toNat ≤ 57 := h.2
  simp only [isWhitespace, contains_eq_mem, mem_cons, not_mem_nil, or_false, Bool.or_eq_false_iff,
    Bool.and_eq_false_iff, decide_eq_false_iff_not, not_or]
  omega

theorem trimmed?_toString (w : Nat) (v : Int) : trimmed? w (toString v) = checked w v := by
  have hd : ∀ c ∈ toDigits 10 v.natAbs, isWhitespace c = false := fun c hc =>
    isWhitespace_of_isDigit (isDigit_of_mem_toDigits (by omega) (by omega) hc)
  have htrim : trim (toString v).toList = (toString v).toList := by
    apply trim_eq_self
    rw [toList_toString]
    split
    · intro c hc
      rcases mem_cons.1 hc with rfl | hc
      · decide
      · exact hd c hc
    · exact hd
  rw [trimmed?, htrim, signed?_toString]
  rfl

end MachineInt
