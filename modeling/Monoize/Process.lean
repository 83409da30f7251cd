import Mathlib.Logic.Basic

/-! Programs that act on a shared state in atomic steps. A program is followed along every path by a local state
that its answers advance. -/

namespace Concurrent

variable {Act : Type} {Answer : Act → Type}

inductive Process (Answer : Act → Type) (ρ : Type) : Type
  | done (result : ρ)
  | act (a : Act) (next : Answer a → Process Answer ρ)

namespace Process

variable {ρ τ : Type}

def bind : Process Answer ρ → (ρ → Process Answer τ) → Process Answer τ
  | done result, f => f result
  | act a next, f => act a fun answer => (next answer).bind f

instance : Monad (Process Answer) where
  pure := done
  bind := bind

def perform (a : Act) : Process Answer (Answer a) := act a done

variable {γ : Type}

def Follows (ok : γ → Act → Prop) (after : γ → (a : Act) → Answer a → γ → Prop) (post : γ → ρ → Prop) :
    γ → Process Answer ρ → Prop
  | g, done result => post g result
  | g, act a next => ok g a ∧ ∀ answer g', after g a answer g' → Follows ok after post g' (next answer)

variable {ok : γ → Act → Prop} {after : γ → (a : Act) → Answer a → γ → Prop}

theorem Follows.mono {post post' : γ → ρ → Prop} (hpost : ∀ g r, post g r → post' g r) {p : Process Answer ρ} {g : γ}
    (h : p.Follows ok after post g) : p.Follows ok after post' g := by
  induction p generalizing g with
  | done result => exact hpost g result h
  | act a next ih => exact ⟨h.1, fun answer g' hg' => ih answer (h.2 answer g' hg')⟩

theorem Follows.bind {post : γ → τ → Prop} {p : Process Answer ρ} {f : ρ → Process Answer τ} {g : γ}
    (h : p.Follows ok after (fun g r => (f r).Follows ok after post g) g) : (p >>= f).Follows ok after post g := by
  induction p generalizing g with
  | done result => exact h
  | act a next ih => exact ⟨h.1, fun answer g' hg' => ih answer (h.2 answer g' hg')⟩

end Process

abbrev Fallibly (Answer : Act → Type) (ε ρ : Type) : Type := ExceptT ε (Process Answer) ρ

namespace Fallibly

variable {ε ρ τ γ : Type}

def ask (a : Act) : Fallibly Answer ε (Answer a) := ExceptT.lift (Process.perform a)

def attempt (result : Except ε ρ) : Fallibly Answer ε ρ := ExceptT.mk (.done result)

def Follows (ok : γ → Act → Prop) (after : γ → (a : Act) → Answer a → γ → Prop) (post : γ → ρ → Prop) (g : γ)
    (p : Fallibly Answer ε ρ) : Prop :=
  Process.Follows ok after (fun g r => ∀ value, r = Except.ok value → post g value) g p.run

variable {ok : γ → Act → Prop} {after : γ → (a : Act) → Answer a → γ → Prop} {g : γ}

theorem Follows.pure {post : γ → ρ → Prop} {value : ρ} (h : post g value) :
    Follows ok after post g (Pure.pure value : Fallibly Answer ε ρ) := by
  intro other hother
  cases hother
  exact h

theorem Follows.attempt {post : γ → ρ → Prop} {result : Except ε ρ} (h : ∀ value, result = .ok value → post g value) :
    Follows ok after post g (Fallibly.attempt result : Fallibly Answer ε ρ) := h

theorem Follows.ask {a : Act} {post : γ → Answer a → Prop} (hok : ok g a)
    (hpost : ∀ answer g', after g a answer g' → post g' answer) :
    Follows ok after post g (Fallibly.ask a : Fallibly Answer ε (Answer a)) := by
  refine ⟨hok, fun answer g' hg' other hother => ?_⟩
  cases hother
  exact hpost answer g' hg'

theorem Follows.mono {post post' : γ → ρ → Prop} {p : Fallibly Answer ε ρ} (h : Follows ok after post g p)
    (hpost : ∀ g value, post g value → post' g value) : Follows ok after post' g p :=
  Process.Follows.mono (fun _ _ hr value hvalue => hpost _ value (hr value hvalue)) h

theorem Follows.bind {post : γ → τ → Prop} {p : Fallibly Answer ε ρ} {f : ρ → Fallibly Answer ε τ}
    (h : Follows ok after (fun g value => Follows ok after post g (f value)) g p) :
    Follows ok after post g (p >>= f) := by
  apply Process.Follows.bind
  refine Process.Follows.mono ?_ h
  intro g r hr
  cases r with
  | error e => exact nofun
  | ok value => exact hr value rfl

theorem Follows.ask_bind {a : Act} {post : γ → ρ → Prop} {f : Answer a → Fallibly Answer ε ρ} (hok : ok g a)
    (h : ∀ answer g', after g a answer g' → Follows ok after post g' (f answer)) :
    Follows ok after post g (Fallibly.ask a >>= f) := .bind (.ask hok h)

theorem Follows.attempt_bind {post : γ → τ → Prop} {result : Except ε ρ} {f : ρ → Fallibly Answer ε τ}
    (h : ∀ value, result = .ok value → Follows ok after post g (f value)) :
    Follows ok after post g (Fallibly.attempt result >>= f) := .bind (.attempt h)

theorem Follows.foldlM {α : Type} {inv : γ → Prop} {f : ρ → α → Fallibly Answer ε ρ}
    (hf : ∀ g value a, inv g → Follows ok after (fun g _ => inv g) g (f value a)) (items : List α) (value : ρ)
    (h : inv g) : Follows ok after (fun g _ => inv g) g (items.foldlM f value) := by
  induction items generalizing g value with
  | nil => exact .pure h
  | cons a items ih =>
    rw [List.foldlM_cons]
    exact .bind ((hf g value a h).mono fun g value hg => ih value hg)

end Fallibly

end Concurrent
