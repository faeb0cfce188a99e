import Banc.Lib.Transition

/-!
# The history of a run

A state says what is, and not what has been done. Where a property is about all that
the steps of a run have done, `out s a` is what the step `a` taken in `s` does, and
the *history* of a run is what its steps have done, in order. It is no part of the
state, and no step can look at it. The invariant rule is then one for pairs of a state
and the history that has led to it.
-/

namespace Transition

variable {σ α β γ : Type*} {step : σ → α → Option σ} {out : σ → α → List β}

/-- What the steps of a run have done. -/
def history (step : σ → α → Option σ) (out : σ → α → List β) : σ → List α → List β
  | _, [] => []
  | s, a :: as =>
    match step s a with
    | none => []
    | some s' => out s a ++ history step out s' as

theorem history_cons {s s' : σ} {a : α} (h : step s a = some s') (as : List α) :
    history step out s (a :: as) = out s a ++ history step out s' as := by
  rw [history, h]

/-- What is in a history is what some step of the run has done. -/
theorem exists_of_mem_history {s : σ} {as : List α} {b : β} (h : b ∈ history step out s as) :
    ∃ v a v', a ∈ as ∧ step v a = some v' ∧ b ∈ out v a := by
  induction as generalizing s with
  | nil => exact absurd h List.not_mem_nil
  | cons a as ih =>
    rw [history] at h
    split at h
    case h_1 => exact absurd h List.not_mem_nil
    case h_2 t ht =>
      obtain hb | hrest := List.mem_append.mp h
      · exact ⟨s, a, t, List.mem_cons_self, ht, hb⟩
      · obtain ⟨v, a', v', ha', hv, hb⟩ := ih hrest
        exact ⟨v, a', v', List.mem_cons_of_mem a ha', hv, hb⟩

/-- **The invariant rule, with the history.** What every step preserves, when what it
does is added to the history, every run preserves. -/
theorem run_records {I : σ → List β → Prop}
    (hstep : ∀ s h a s', I s h → step s a = some s' → I s' (h ++ out s a)) {s s' : σ}
    {h : List β} {as : List α} (hs : I s h) (hrun : run step s as = some s') :
    I s' (h ++ history step out s as) := by
  induction as generalizing s h with
  | nil =>
    obtain rfl := Option.some.inj hrun
    rw [history, List.append_nil]
    exact hs
  | cons a as ih =>
    obtain ⟨t, ht, hrest⟩ := run_cons_eq_some.mp hrun
    rw [history_cons ht, ← List.append_assoc]
    exact ih (hstep s h a t hs ht) hrest

/-- The rule for two histories of a run, of different things. -/
theorem run_records_both {out' : σ → α → List γ} {I : σ → List β → List γ → Prop}
    (hstep : ∀ s h h' a s', I s h h' → step s a = some s' → I s' (h ++ out s a) (h' ++ out' s a))
    {s s' : σ} {h : List β} {h' : List γ} {as : List α} (hs : I s h h')
    (hrun : run step s as = some s') :
    I s' (h ++ history step out s as) (h' ++ history step out' s as) := by
  induction as generalizing s h h' with
  | nil =>
    obtain rfl := Option.some.inj hrun
    rw [history, history, List.append_nil, List.append_nil]
    exact hs
  | cons a as ih =>
    obtain ⟨t, ht, hrest⟩ := run_cons_eq_some.mp hrun
    rw [history_cons ht, history_cons ht, ← List.append_assoc, ← List.append_assoc]
    exact ih (hstep s h h' a t hs ht) hrest

/-- **An entry of a history that has a last one** is the last, or is before it. -/
theorem concat_eq_append_cons {h before since : List β} {last b : β} :
    h ++ [last] = before ++ b :: since
      ↔ (since = [] ∧ b = last ∧ before = h)
        ∨ ∃ since', since = since' ++ [last] ∧ h = before ++ b :: since' := by
  rcases List.eq_nil_or_concat since with rfl | ⟨since', last', rfl⟩
  · constructor
    · intro heq
      obtain ⟨rfl, hb⟩ := List.append_inj' heq rfl
      exact .inl ⟨rfl, (List.singleton_inj.mp hb).symm, rfl⟩
    · rintro (⟨-, rfl, rfl⟩ | ⟨since', hnil, -⟩)
      · rfl
      · exact absurd hnil.symm (List.append_ne_nil_of_right_ne_nil _ (List.cons_ne_nil last []))
  · rw [List.concat_eq_append, ← List.cons_append, ← List.append_assoc]
    have hne : since' ++ [last'] ≠ [] :=
      List.append_ne_nil_of_right_ne_nil _ (List.cons_ne_nil last' [])
    constructor
    · intro heq
      obtain ⟨hh, hlast⟩ := List.append_inj' heq rfl
      rw [List.singleton_inj.mp hlast]
      exact .inr ⟨since', rfl, hh⟩
    · rintro (⟨hnil, -, -⟩ | ⟨since'', hsince, rfl⟩)
      · exact absurd hnil hne
      · obtain ⟨rfl, hlast⟩ := List.append_inj' hsince rfl
        rw [hlast]

end Transition
