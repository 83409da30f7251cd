import Mathlib.Algebra.Order.Group.Unbundled.Int
import Mathlib.Data.Int.Basic

/-! An amount at stake of which a part is held back, given back or taken for good. -/

namespace Escrow

variable {a b : Amounts} {d : Int}

structure Amounts where
  (original reserved recovered : Nat)

namespace Amounts

def fresh (original : Nat) : Amounts := ⟨original, 0, 0⟩

def held (a : Amounts) : Int := a.reserved + a.recovered

structure Sound (a : Amounts) : Prop where
  exclusive : a.reserved = 0 ∨ a.recovered = 0
  bounded : a.reserved + a.recovered ≤ a.original

theorem Sound.of_fresh (original : Nat) : (fresh original).Sound :=
  ⟨.inl rfl, Nat.zero_le original⟩

end Amounts

open Amounts

inductive Move : Amounts → Amounts → Int → Prop
  | reserve {a : Amounts} (n : Nat) (hn : n ≤ a.original) (hr : a.reserved = 0) (hx : a.recovered = 0) :
      Move a ⟨a.original, n, 0⟩ (-n)
  | release {a : Amounts} (hx : a.recovered = 0) : Move a ⟨a.original, 0, 0⟩ a.reserved
  | consume {a : Amounts} (ha : a.original = 0 ∨ a.reserved = a.original) (hx : a.recovered = 0) :
      Move a ⟨a.original, 0, a.original⟩ 0
  | lose {a : Amounts} (ha : a.reserved + a.recovered ≤ a.original) :
      Move a ⟨a.original, 0, a.original⟩ (-(a.original - a.reserved - a.recovered : Nat))

theorem Move.original (h : Move a b d) : b.original = a.original := by
  cases h <;> rfl

theorem Move.sound (h : Move a b d) : b.Sound := by
  cases h with
  | reserve n hn hr hx => exact ⟨.inr rfl, by simpa using hn⟩
  | release hx => exact ⟨.inl rfl, Nat.zero_le _⟩
  | consume _ _ | lose _ => exact ⟨.inl rfl, by simp⟩

theorem Move.change (h : Move a b d) (hs : a.Sound) : d = a.held - b.held := by
  obtain ⟨hex, hle⟩ := hs
  cases h with
  | reserve _ _ _ _ | release _ | consume _ _ | lose _ => simp only [held]; omega

end Escrow
