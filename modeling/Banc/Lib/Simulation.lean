import Banc.Lib.Transition

/-!
# Simulation

A system simulates another if, whatever step the other takes, it can follow by a run
of its own, of one step, of several or of none, to a state that is related again. Then
it can follow every run, and what holds of all its runs holds of the other's.
-/

namespace Transition

variable {σ τ α β : Type*} {step : σ → α → Option σ} {step' : τ → β → Option τ}

/-- **The second system follows the first.** -/
def Simulates (step : σ → α → Option σ) (step' : τ → β → Option τ) (R : σ → τ → Prop) : Prop :=
  ∀ s t a s', R s t → step s a = some s' → ∃ bs t', run step' t bs = some t' ∧ R s' t'

/-- It follows every run. -/
theorem Simulates.exists_run {R : σ → τ → Prop} (h : Simulates step step' R) {s s' : σ} {t : τ}
    {as : List α} (hR : R s t) (hrun : run step s as = some s') :
    ∃ bs t', run step' t bs = some t' ∧ R s' t' := by
  induction as generalizing s t with
  | nil => exact ⟨[], t, rfl, Option.some.inj hrun ▸ hR⟩
  | cons a as ih =>
    obtain ⟨u, hu, hrest⟩ := run_cons_eq_some.mp hrun
    obtain ⟨bs, v, hv, hR'⟩ := h s t a u hR hu
    obtain ⟨cs, t', ht', hR''⟩ := ih hR' hrest
    exact ⟨bs ++ cs, t', run_append_eq_some.mpr ⟨v, hv, ht'⟩, hR''⟩

end Transition
