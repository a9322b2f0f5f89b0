import Mathlib.Logic.Basic

/-!
# Scripts

The code around a component, a callback for instance, is a script: it asks for one thing after the
other and may choose each by the replies so far.

* `Script` and `Script.run`;
* `Script.final`, the same where every call is a function on some state, with
  `Script.final_related` and `Script.final_induction`.
-/

namespace ElementHost

/-- A program that makes calls `γ` and goes on by their replies `ρ`. -/
inductive Script (γ ρ : Type)
  | done
  | ask (call : γ) (next : ρ → Script γ ρ)

namespace Script

variable {γ ρ σ τ : Type}

/-- Runs a script, given what a call means. -/
def run {n : Type → Type} [Monad n] (perform : γ → n ρ) : Script γ ρ → n Unit
  | done => return ()
  | ask call next => do
    let reply ← perform call
    (next reply).run perform

/-- The state after a script, given what a call does to it. -/
def final (answer : γ → σ → ρ × σ) : Script γ ρ → σ → σ
  | done, s => s
  | ask call next, s => (next (answer call s).1).final answer (answer call s).2

/-- A relation that every call keeps, with equal replies on both sides, is kept by scripts. -/
theorem final_related {R : σ → τ → Prop} {f : γ → σ → ρ × σ} {g : γ → τ → ρ × τ}
    (h : ∀ call s t, R s t → (f call s).1 = (g call t).1 ∧ R (f call s).2 (g call t).2)
    (script : Script γ ρ) {s : σ} {t : τ} (hst : R s t) :
    R (script.final f s) (script.final g t) := by
  induction script generalizing s t with
  | done => exact hst
  | ask call next ih =>
    obtain ⟨hreply, hnext⟩ := h call s t hst
    rw [final, final, hreply]
    exact ih _ hnext

/-- What every call keeps, a script keeps. -/
theorem final_induction {P : σ → Prop} {f : γ → σ → ρ × σ} (h : ∀ call s, P s → P (f call s).2)
    (script : Script γ ρ) {s : σ} (hs : P s) : P (script.final f s) := by
  have hf : ∀ call s t, s = t ∧ P s →
      (f call s).1 = (f call t).1 ∧ (f call s).2 = (f call t).2 ∧ P (f call s).2 := by
    rintro call s _ ⟨rfl, hs⟩
    exact ⟨rfl, rfl, h call s hs⟩
  exact (final_related (R := fun s t => s = t ∧ P s) hf script ⟨rfl, hs⟩).2

end Script

end ElementHost
