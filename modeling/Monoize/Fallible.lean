import Mathlib.Logic.Basic

/-! Computations that stop at their first error. -/

namespace Fallible

variable {ε α β : Type}

def require (p : Prop) [Decidable p] (e : ε) : Except ε Unit :=
  if p then .ok () else .error e

def orError (e : ε) : Option α → Except ε α
  | some a => .ok a
  | none => .error e

theorem ok_bind (a : α) (f : α → Except ε β) : (Except.ok a >>= f) = f a := rfl

theorem orError_some (e : ε) (a : α) : orError e (some a) = .ok a := rfl

theorem require_of {p : Prop} [Decidable p] (hp : p) (e : ε) : require p e = .ok () := if_pos hp

variable {x : Except ε α} {e e' : ε} {a : α} {b : β}

@[simp] theorem bind_eq_ok {f : α → Except ε β} : (x >>= f) = .ok b ↔ ∃ a, x = .ok a ∧ f a = .ok b := by
  cases x with
  | error e => simp [bind, Except.bind]
  | ok a => simp [bind, Except.bind]

theorem bind_eq_error {f : α → Except ε β} : (x >>= f) = .error e ↔ x = .error e ∨ ∃ a, x = .ok a ∧ f a = .error e := by
  cases x with
  | error e => simp [bind, Except.bind]
  | ok a => simp [bind, Except.bind]

@[simp] theorem map_eq_ok {f : α → β} : f <$> x = .ok b ↔ ∃ a, x = .ok a ∧ f a = b := by
  cases x with
  | error _ | ok _ => simp [Functor.map, Except.map]

theorem map_eq_error {f : α → β} : f <$> x = .error e ↔ x = .error e := by
  cases x with
  | error _ | ok _ => simp [Functor.map, Except.map]

@[simp] theorem pure_eq_ok {a b : α} : (pure a : Except ε α) = .ok b ↔ a = b := by
  simp [pure, Except.pure]

theorem pair_eq_ok {c : α} {d : β} : (pure (a, b) : Except ε (α × β)) = .ok (c, d) ↔ a = c ∧ b = d :=
  pure_eq_ok.trans (Prod.mk.injEq ..).to_iff

@[simp] theorem pure_ne_error : (pure a : Except ε α) ≠ .error e := by
  simp [pure, Except.pure]

@[simp] theorem require_eq_ok {p : Prop} [Decidable p] {u : Unit} : require p e = .ok u ↔ p := by
  unfold require
  split <;> simp_all

@[simp] theorem orError_eq_ok {x : Option α} : orError e x = .ok a ↔ x = some a := by
  cases x <;> simp [orError]

/-- How a computation of several steps came to its result, as one set of rewrite rules. -/
theorem ok_iff :
    (∀ {α β : Type} {x : Except ε α} {f : α → Except ε β} {b : β}, (x >>= f) = .ok b ↔ ∃ a, x = .ok a ∧ f a = .ok b) ∧
    (∀ {p : Prop} [Decidable p] {e : ε} {u : Unit}, require p e = .ok u ↔ p) ∧
    (∀ {α : Type} {e : ε} {x : Option α} {a : α}, orError e x = .ok a ↔ x = some a) ∧
    (∀ {α : Type} {a b : α}, (pure a : Except ε α) = .ok b ↔ a = b) ∧
    ∀ {α β : Type} {a c : α} {b d : β}, (a, b) = (c, d) ↔ a = c ∧ b = d :=
  ⟨bind_eq_ok, require_eq_ok, orError_eq_ok, pure_eq_ok, (Prod.mk.injEq ..).to_iff⟩

theorem require_eq_error {p : Prop} [Decidable p] : require p e = .error e' ↔ ¬ p ∧ e = e' := by
  unfold require
  split <;> simp_all

theorem orError_eq_error {x : Option α} : orError e x = .error e' ↔ x = none ∧ e = e' := by
  cases x <;> simp [orError]

def failure? : Except ε α → Option ε
  | .error e => some e
  | .ok _ => none

theorem failure?_eq_some : failure? x = some e ↔ x = .error e := by
  cases x <;> simp [failure?]

theorem foldlM_eq_ok {f : β → α → Except ε β} {motive : List α → β → Prop} {l : List α} {r : β}
    (h : l.foldlM f b = .ok r) (hnil : motive [] b)
    (hstep : ∀ done a b b', motive done b → f b a = .ok b' → motive (done ++ [a]) b') : motive l r := by
  have hgen : ∀ (rest done : List α) (b : β), motive done b → rest.foldlM f b = .ok r → motive (done ++ rest) r := by
    intro rest
    induction rest with
    | nil =>
      intro done b hb hr
      rw [List.foldlM_nil, pure_eq_ok] at hr
      rw [List.append_nil, ← hr]
      exact hb
    | cons a rest ih =>
      intro done b hb hr
      rw [List.foldlM_cons, bind_eq_ok] at hr
      obtain ⟨b', hb', hr⟩ := hr
      have hrest := ih (done ++ [a]) b' (hstep done a b b' hb hb') hr
      rwa [List.append_assoc] at hrest
  exact hgen l [] b hnil h

theorem mapM_eq_ok {f : α → Except ε β} {g : α → β} (hg : ∀ a b, f a = .ok b → b = g a) {l : List α} {r : List β}
    (h : l.mapM f = .ok r) : r = l.map g := by
  induction l generalizing r with
  | nil =>
    rw [List.mapM_nil, pure_eq_ok] at h
    exact h.symm
  | cons a l ih =>
    simp only [List.mapM_cons, bind_eq_ok, pure_eq_ok] at h
    obtain ⟨b, hb, rest, hrest, rfl⟩ := h
    rw [List.map_cons, hg a b hb, ih hrest]

theorem exists_eq_ok (h : x.isOk = true) : ∃ a, x = .ok a := by
  cases x with
  | error e => cases h
  | ok a => exact ⟨a, rfl⟩

inductive Related {γ : Type} (R : α → γ → Prop) : Except ε α → Except ε γ → Prop
  | error (e : ε) : Related R (.error e) (.error e)
  | ok {a : α} {c : γ} (h : R a c) : Related R (.ok a) (.ok c)

theorem Related.error_left {γ : Type} {R : α → γ → Prop} {y : Except ε γ} (h : Related R (.error e) y) :
    y = .error e := by
  cases h
  rfl

theorem Related.ok_left {γ : Type} {R : α → γ → Prop} {y : Except ε γ} (h : Related R (.ok a) y) :
    ∃ c, y = .ok c ∧ R a c := by
  cases h with
  | ok h => exact ⟨_, rfl, h⟩

/-- As `Related`, but the second run may be refused where the first one goes on. -/
inductive Tracks {γ : Type} (R : α → γ → Prop) (S : α → ε → Prop) : Except ε α → Except ε γ → Prop
  | error (e : ε) : Tracks R S (.error e) (.error e)
  | ok {a : α} {c : γ} (h : R a c) : Tracks R S (.ok a) (.ok c)
  | refused {a : α} {e : ε} (h : S a e) : Tracks R S (.ok a) (.error e)

section Tracks

variable {γ δ : Type} {R : α → γ → Prop} {S : α → ε → Prop} {Q : β → δ → Prop} {T : β → ε → Prop} {y : Except ε γ}

theorem Tracks.map {f : α → β} {g : γ → δ} (h : Tracks R S x y) (hok : ∀ a c, R a c → Q (f a) (g c))
    (hrefused : ∀ a e, S a e → T (f a) e) : Tracks Q T (do let a ← x; pure (f a)) (do let c ← y; pure (g c)) := by
  cases h with
  | error e => exact .error e
  | ok h => exact .ok (hok _ _ h)
  | refused h => exact .refused (hrefused _ _ h)

theorem Tracks.error_left (h : Tracks R S (.error e) y) : y = .error e := by
  cases h
  rfl

theorem Tracks.ok_left (h : Tracks R S (.ok a) y) : (∃ c, y = .ok c ∧ R a c) ∨ ∃ e, y = .error e ∧ S a e := by
  cases h with
  | ok h => exact .inl ⟨_, rfl, h⟩
  | refused h => exact .inr ⟨_, rfl, h⟩

theorem Tracks.same (x : Except ε α) {f : α → Except ε β} {g : α → Except ε δ}
    (h : ∀ a, x = .ok a → Tracks Q T (f a) (g a)) : Tracks Q T (x >>= f) (x >>= g) := by
  cases x with
  | error e => exact .error e
  | ok a => exact h a rfl

end Tracks

end Fallible
