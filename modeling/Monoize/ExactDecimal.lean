import Monoize.MachineInt

/-! Charges scaled by a decimal multiplier. -/

namespace Monoize

open MachineInt Int

variable {b c d : Int}

structure Multiplier where
  coefficient : Int
  scale : Nat
  positive : 0 < coefficient
  fits : coefficient < 2 ^ 96
  places : scale ≤ 9

def Multiplier.checkedScaleI128 (m : Multiplier) (base : Int) : Option Int := do
  let divisor ← checked 127 (10 ^ m.scale)
  let whole ← div? 127 base divisor
  let remainder ← if divisor = 0 then none else some (base.tmod divisor)
  let scaled ← checked 127 (whole * m.coefficient)
  let product ← checked 127 (remainder * m.coefficient)
  let carried ← div? 127 product divisor
  checked 127 (scaled + carried)

theorem tdiv_sign (hd : 0 < d) : (0 ≤ b → 0 ≤ b.tdiv d ∧ b.tdiv d ≤ b) ∧ (b ≤ 0 → b ≤ b.tdiv d ∧ b.tdiv d ≤ 0) := by
  have hpos : ∀ b : Int, 0 ≤ b → 0 ≤ b.tdiv d ∧ b.tdiv d ≤ b := by
    intro b hb
    rw [Int.tdiv_eq_ediv_of_nonneg hb]
    exact ⟨Int.ediv_nonneg hb (by omega), Int.ediv_le_self d hb⟩
  refine ⟨hpos b, fun hb => ?_⟩
  have hneg := hpos (-b) (by omega)
  rw [Int.neg_tdiv] at hneg
  omega

theorem tmod_sign (hd : 0 < d) : (0 ≤ b → 0 ≤ b.tmod d) ∧ (b ≤ 0 → b.tmod d ≤ 0) ∧ -d < b.tmod d ∧ b.tmod d < d := by
  refine ⟨tmod_nonneg d, fun hb => ?_, ?_, tmod_lt_of_pos b hd⟩
  · have hneg := tmod_nonneg d (a := -b) (by omega)
    rw [neg_tmod] at hneg
    omega
  · have hneg := tmod_lt_of_pos (-b) hd
    rw [neg_tmod] at hneg
    omega

theorem mul_tdiv_split (hd : 0 < d) (hc : 0 ≤ c) : (b * c).tdiv d = b.tdiv d * c + (b.tmod d * c).tdiv d := by
  have hpos : ∀ b : Int, 0 ≤ b → (b * c).tdiv d = b.tdiv d * c + (b.tmod d * c).tdiv d := by
    intro b hb
    rw [Int.tdiv_eq_ediv_of_nonneg (Int.mul_nonneg hb hc), Int.tdiv_eq_ediv_of_nonneg hb,
      Int.tdiv_eq_ediv_of_nonneg (Int.mul_nonneg (Int.tmod_nonneg d hb) hc), Int.tmod_eq_emod_of_nonneg hb]
    conv_lhs => rw [← Int.mul_ediv_add_emod b d, Int.add_mul, Int.mul_assoc]
    rw [Int.add_comm, Int.add_mul_ediv_left _ _ (by omega), Int.add_comm]
  rcases Int.le_total 0 b with hb | hb
  · exact hpos b hb
  · have hneg := hpos (-b) (by omega)
    simp only [Int.neg_mul, Int.neg_tdiv, Int.neg_tmod] at hneg
    omega

theorem Multiplier.checkedScaleI128_eq (m : Multiplier) (hlo : -2 ^ 127 ≤ b) (hhi : b < 2 ^ 127) :
    m.checkedScaleI128 b = checked 127 ((b * m.coefficient).tdiv (10 ^ m.scale)) := by
  obtain ⟨c, s, hc, hfits, hs⟩ := m
  have hd : (0 : Int) < 10 ^ s := Int.pow_pos (by decide)
  have hd9 : (10 : Int) ^ s ≤ 10 ^ 9 := pow_le_pow_right₀ (by decide) hs
  unfold checkedScaleI128
  dsimp only
  generalize (10 : Int) ^ s = d at hd hd9
  obtain ⟨hpos, hneg⟩ := tdiv_sign (b := b) hd
  obtain ⟨hrpos, hrneg, hrlo, hrhi⟩ := tmod_sign (b := b) hd
  have hup : b.tmod d * c ≤ 10 ^ 9 * c := Int.mul_le_mul_of_nonneg_right (by omega) (by omega)
  have hdown : -10 ^ 9 * c ≤ b.tmod d * c := Int.mul_le_mul_of_nonneg_right (by omega) (by omega)
  -- both parts of the result have the sign of the base
  have hsign : 0 ≤ b ∧ 0 ≤ b.tdiv d * c ∧ 0 ≤ b.tmod d * c ∨ b ≤ 0 ∧ b.tdiv d * c ≤ 0 ∧ b.tmod d * c ≤ 0 := by
    rcases Int.le_total 0 b with hb | hb
    · exact .inl ⟨hb, Int.mul_nonneg (hpos hb).1 (by omega), Int.mul_nonneg (hrpos hb) (by omega)⟩
    have hw := Int.mul_nonneg (a := -b.tdiv d) (b := c) (by have := hneg hb; omega) (by omega)
    have hr := Int.mul_nonneg (a := -b.tmod d) (b := c) (by have := hrneg hb; omega) (by omega)
    rw [Int.neg_mul] at hw hr
    exact .inr ⟨hb, by omega, by omega⟩
  obtain ⟨hppos, hpneg⟩ := tdiv_sign (b := b.tmod d * c) hd
  have hchecked : ∀ x : Int, -2 ^ 127 ≤ x ∧ x < 2 ^ 127 → checked 127 x = some x := fun x hx => if_pos hx
  simp only [div?, hchecked d (by omega), hchecked (b.tdiv d) (by omega), hchecked (b.tmod d * c) (by omega),
    hchecked ((b.tmod d * c).tdiv d) (by omega), if_neg hd.ne', Option.bind_eq_bind, Option.bind_some]
  rw [mul_tdiv_split (b := b) hd (by omega)]
  by_cases hfit : -2 ^ 127 ≤ b.tdiv d * c ∧ b.tdiv d * c < 2 ^ 127
  · rw [hchecked _ hfit, Option.bind_some]
  · unfold checked
    rw [if_neg hfit, if_neg (by omega), Option.bind_none]

theorem tdiv_le_tdiv_of_cross {x y d' : Int} (hd : 0 < d) (hd' : 0 < d') (hx : 0 ≤ x) (hy : 0 ≤ y) (h : x * d' ≤ y * d) :
    x.tdiv d ≤ y.tdiv d' := by
  rw [Int.tdiv_eq_ediv_of_nonneg hx, Int.tdiv_eq_ediv_of_nonneg hy, Int.le_ediv_iff_mul_le hd']
  apply Int.le_of_mul_le_mul_right _ hd
  calc x / d * d' * d = x / d * d * d' := Int.mul_right_comm ..
    _ ≤ x * d' := Int.mul_le_mul_of_nonneg_right (Int.ediv_mul_le x hd.ne') (by omega)
    _ ≤ y * d := h

/-- A larger multiplier moves the result away from zero. -/
theorem Multiplier.scaling_exact (m m' : Multiplier) (base base' : Int) (h : -2 ^ 127 ≤ base ∧ base < 2 ^ 127)
    (h' : -2 ^ 127 ≤ base' ∧ base' < 2 ^ 127) :
    m.checkedScaleI128 base = checked 127 ((base * m.coefficient).tdiv (10 ^ m.scale)) ∧
    (∀ r r', m.checkedScaleI128 base = some r → m.checkedScaleI128 base' = some r' → base ≤ base' → r ≤ r') ∧
    ∀ r r', m.checkedScaleI128 base = some r → m'.checkedScaleI128 base = some r' →
      m.coefficient * 10 ^ m'.scale ≤ m'.coefficient * 10 ^ m.scale → (0 ≤ base → r ≤ r') ∧ (base ≤ 0 → r' ≤ r) := by
  have hd : ∀ m : Multiplier, (0 : Int) < 10 ^ m.scale := fun _ => Int.pow_pos (by decide)
  refine ⟨m.checkedScaleI128_eq h.1 h.2, ?_, ?_⟩
  · rw [m.checkedScaleI128_eq h.1 h.2, m.checkedScaleI128_eq h'.1 h'.2]
    intro r r' hr hr' hle
    rw [← (checked_eq_some.1 hr).1, ← (checked_eq_some.1 hr').1]
    exact Int.tdiv_le_tdiv (hd m) (Int.mul_le_mul_of_nonneg_right hle m.positive.le)
  · rw [m.checkedScaleI128_eq h.1 h.2, m'.checkedScaleI128_eq h.1 h.2]
    intro r r' hr hr' hle
    rw [← (checked_eq_some.1 hr).1, ← (checked_eq_some.1 hr').1]
    have hscale : ∀ x : Int, 0 ≤ x → (x * m.coefficient).tdiv (10 ^ m.scale) ≤ (x * m'.coefficient).tdiv (10 ^ m'.scale) := by
      intro x hx
      apply tdiv_le_tdiv_of_cross (hd m) (hd m') (Int.mul_nonneg hx m.positive.le) (Int.mul_nonneg hx m'.positive.le)
      rw [Int.mul_assoc, Int.mul_assoc]
      exact Int.mul_le_mul_of_nonneg_left hle hx
    refine ⟨hscale base, fun hneg => ?_⟩
    have hflip := hscale (-base) (by omega)
    simp only [Int.neg_mul, Int.neg_tdiv] at hflip
    omega

def Multiplier.oneAndHalf : Multiplier := ⟨15, 1, by decide, by decide, by decide⟩

theorem Multiplier.scaling_sample : oneAndHalf.checkedScaleI128 (-7) = some (-10) ∧
    oneAndHalf.checkedScaleI128 (2 ^ 127 - 1) = none := by
  have hexact := fun base h => (scaling_exact oneAndHalf oneAndHalf base 0 h (by decide)).1
  exact ⟨(hexact (-7) (by decide)).trans (by decide), (hexact (2 ^ 127 - 1) (by decide)).trans (by decide)⟩

def Multiplier.whole (n : Int) (h : 0 < n ∧ n < 2 ^ 96) : Multiplier := ⟨n, 0, h.1, h.2, by decide⟩

/-- For a negative base the larger of two multipliers gives the smaller result. -/
theorem Multiplier.scaling_antitone : (whole 1 (by decide)).checkedScaleI128 (-1) = some (-1) ∧
    (whole 2 (by decide)).checkedScaleI128 (-1) = some (-2) := by decide

end Monoize
