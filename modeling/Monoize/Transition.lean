import Mathlib.Logic.Relation

/-! Transition systems and the invariants of their runs. -/

namespace Transition

variable {σ : Type}

inductive Reachable (initial : σ → Prop) (step : σ → σ → Prop) : σ → Prop
  | start {s : σ} : initial s → Reachable initial step s
  | next {s t : σ} : Reachable initial step s → step s t → Reachable initial step t

variable {initial : σ → Prop} {step : σ → σ → Prop} {inv : σ → Prop}

theorem Reachable.invariant {s : σ} (h : Reachable initial step s) (h₀ : ∀ s, initial s → inv s)
    (hs : ∀ s t, inv s → step s t → inv t) : inv s := by
  induction h with
  | start h => exact h₀ _ h
  | next _ hst ih => exact hs _ _ ih hst

theorem Reachable.foldl {ε : Type} {run : σ → ε → σ} (hrun : ∀ s e, step s (run s e)) {s : σ}
    (h : Reachable initial step s) (events : List ε) : Reachable initial step (events.foldl run s) := by
  induction events generalizing s with
  | nil => exact h
  | cons e events ih => exact ih (h.next (hrun s e))

theorem Reachable.foldlM {ε : Type} {run : σ → ε → Option σ} (hrun : ∀ s e t, run s e = some t → step s t) {s t : σ}
    (h : Reachable initial step s) {events : List ε} (ht : events.foldlM run s = some t) : Reachable initial step t := by
  induction events generalizing s with
  | nil =>
    cases ht
    exact h
  | cons e events ih =>
    rw [List.foldlM_cons] at ht
    obtain ⟨u, hu, ht⟩ := Option.bind_eq_some_iff.1 ht
    exact ih (h.next (hrun s e u hu)) ht

end Transition
