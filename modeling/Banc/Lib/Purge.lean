import Banc.Lib.Transition

/-!
# Leaving actions out of a run

Two runs are compared: one, and what is left of it when some of its actions
are taken out. A run whose actions carry a mark – kept or left out – stands
for both, `r.map Prod.fst` and `kept r`.

That the actions left out go unnoticed is shown by *unwinding*. A relation
between the states of the two runs is kept when both take an action, and when
the first alone takes one that is left out; where related states answer alike,
so do the two runs. The condition under which an action may be left out is on
the state the first run takes it in (`LeavesOut`). The second run may be one of
another system.

Where it is all actions of a kind that are left out, the run itself says which
(`without`), and the runs compared may be guarded.
-/

namespace Transition

variable {σ τ α β : Type*}

/-- What is kept of a marked list. -/
def kept : List (α × Bool) → List α
  | [] => []
  | (a, true) :: r => a :: kept r
  | (_, false) :: r => kept r

/-- What each action of a run answers, where `out` says what an action taken in
a state does. -/
def outputs (step : σ → α → Option σ) (out : σ → α → β) : σ → List α → List β
  | _, [] => []
  | s, a :: as =>
    match step s a with
    | none => []
    | some s' => out s a :: outputs step out s' as

/-- **Every action left out is taken in a state meeting `gone`.** -/
def LeavesOut (step : σ → α → Option σ) (gone : σ → α → Prop) :
    σ → List (α × Bool) → Prop :=
  Guarded (fun s x => step s x.1) (fun s x => x.2 = false → gone s x.1)

theorem kept_sublist (r : List (α × Bool)) : (kept r).Sublist (r.map Prod.fst) := by
  induction r with
  | nil => exact List.Sublist.refl []
  | cons x r ih =>
    obtain ⟨a, keep⟩ := x
    cases keep with
    | true => exact ih.cons_cons a
    | false => exact ih.cons a

section Unwinding

variable {step : σ → α → Option σ} {step' : τ → α → Option τ}
  {gone : σ → α → Prop} {R : σ → τ → Prop}

/-- **Unwinding.** What the actions left out do not disturb, the run without
them reaches: it is a run of the second system, and ends related to where the
whole run ends. -/
theorem exists_run_kept
    (hkept : ∀ s t a s', R s t → step s a = some s' →
      ∃ t', step' t a = some t' ∧ R s' t')
    (hgone : ∀ s t a s', R s t → gone s a → step s a = some s' → R s' t)
    {s s' : σ} {t : τ} {r : List (α × Bool)} (hR : R s t)
    (hleft : LeavesOut step gone s r)
    (hrun : run step s (r.map Prod.fst) = some s') :
    ∃ t', run step' t (kept r) = some t' ∧ R s' t' := by
  induction r generalizing s t with
  | nil => exact ⟨t, rfl, Option.some.inj hrun ▸ hR⟩
  | cons x r ih =>
    obtain ⟨a, keep⟩ := x
    obtain ⟨u, hu, hrest⟩ := run_cons_eq_some.mp hrun
    obtain ⟨ha, hleft'⟩ := hleft u hu
    cases keep with
    | true =>
      obtain ⟨v, hv, hR'⟩ := hkept s t a u hR hu
      obtain ⟨t', ht', hR''⟩ := ih hR' hleft' hrest
      exact ⟨t', run_cons_eq_some.mpr ⟨v, hv, ht'⟩, hR''⟩
    | false => exact ih (hgone s t a u hR (ha rfl) hu) hleft' hrest

/-- **What is kept is answered alike**, if related states answer alike. -/
theorem kept_outputs {out : σ → α → β} {out' : τ → α → β}
    (hkept : ∀ s t a s', R s t → step s a = some s' →
      ∃ t', step' t a = some t' ∧ R s' t')
    (hgone : ∀ s t a s', R s t → gone s a → step s a = some s' → R s' t)
    (hout : ∀ s t a s', R s t → step s a = some s' → out s a = out' t a)
    {s s' : σ} {t : τ} {r : List (α × Bool)} (hR : R s t)
    (hleft : LeavesOut step gone s r)
    (hrun : run step s (r.map Prod.fst) = some s') :
    kept ((outputs step out s (r.map Prod.fst)).zip (r.map Prod.snd))
      = outputs step' out' t (kept r) := by
  induction r generalizing s t with
  | nil => rfl
  | cons x r ih =>
    obtain ⟨a, keep⟩ := x
    obtain ⟨u, hu, hrest⟩ := run_cons_eq_some.mp hrun
    obtain ⟨ha, hleft'⟩ := hleft u hu
    rw [List.map_cons, List.map_cons, outputs, hu]
    cases keep with
    | true =>
      obtain ⟨v, hv, hR'⟩ := hkept s t a u hR hu
      show out s a :: _ = outputs step' out' t (a :: kept r)
      rw [outputs, hv, hout s t a u hR hu]
      exact congrArg _ (ih hR' hleft' hrest)
    | false => exact ih (hgone s t a u hR (ha rfl) hu) hleft' hrest

end Unwinding

/-! ## Leaving out all actions of a kind -/

/-- The run without the actions that are `gone` where it takes them. -/
def without (step : σ → α → Option σ) (gone : σ → α → Prop)
    [∀ s a, Decidable (gone s a)] : σ → List α → List α
  | _, [] => []
  | s, a :: as =>
    match step s a with
    | none => []
    | some s' => if gone s a then without step gone s' as else a :: without step gone s' as

/-- **Unwinding, for a guarded run.** -/
theorem exists_run_without {step : σ → α → Option σ} {step' : τ → α → Option τ}
    {gone ok : σ → α → Prop} [∀ s a, Decidable (gone s a)] {R : σ → τ → Prop}
    (hkept : ∀ s t a s', R s t → ok s a → ¬ gone s a → step s a = some s' →
      ∃ t', step' t a = some t' ∧ R s' t')
    (hgone : ∀ s t a s', R s t → ok s a → gone s a → step s a = some s' → R s' t)
    {s s' : σ} {t : τ} {as : List α} (hR : R s t) (hok : Guarded step ok s as)
    (hrun : run step s as = some s') :
    ∃ t', run step' t (without step gone s as) = some t' ∧ R s' t' := by
  induction as generalizing s t with
  | nil => exact ⟨t, rfl, Option.some.inj hrun ▸ hR⟩
  | cons a as ih =>
    obtain ⟨u, hu, hrest⟩ := run_cons_eq_some.mp hrun
    obtain ⟨ha, hok'⟩ := hok u hu
    rw [without, hu]
    by_cases hleft : gone s a
    · simp only [if_pos hleft]
      exact ih (hgone s t a u hR ha hleft hu) hok' hrest
    · simp only [if_neg hleft]
      obtain ⟨v, hv, hR'⟩ := hkept s t a u hR ha hleft hu
      obtain ⟨t', ht', hR''⟩ := ih hR' hok' hrest
      exact ⟨t', run_cons_eq_some.mpr ⟨v, hv, ht'⟩, hR''⟩

/-- Where it does not depend on the state, what is left is a part of the list. -/
theorem without_eq_filter {step : σ → α → Option σ} {gone : α → Prop} [DecidablePred gone]
    {s s' : σ} {as : List α} (hrun : run step s as = some s') :
    without step (fun _ a => gone a) s as = as.filter (fun a => ¬ gone a) := by
  induction as generalizing s with
  | nil => rfl
  | cons a as ih =>
    obtain ⟨t, ht, hrest⟩ := run_cons_eq_some.mp hrun
    rw [without, ht]
    by_cases ha : gone a
    · rw [List.filter_cons_of_neg (by simpa using ha)]
      simp only [if_pos ha]
      exact ih hrest
    · rw [List.filter_cons_of_pos (by simpa using ha)]
      simp only [if_neg ha]
      exact congrArg _ (ih hrest)

end Transition
