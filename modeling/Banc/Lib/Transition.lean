import Mathlib.Tactic.TypeStar
import Mathlib.Data.Option.Basic
import Mathlib.Order.Basic

/-!
# Runs of a partial step function

A system is a step function `σ → α → Option σ`: the state the action leads
to, or `none` where the action is not enabled. Everything nondeterministic
– the scheduler, the network, the clock – is in the choice of the action,
so a run is a list of actions and the step function stays executable.

Three readings of a run are used. `run` is the state it ends in; `Always`
says that a predicate holds in every state it passes; `Guarded` says that
every action it takes is taken in a state meeting a side condition. The
first two are related by the invariant rule (`Always.of_guarded`), the
last two by `always_iff_guarded`: where an invariant is kept by every step
that meets the condition and lost by every step that does not, the runs on
which it always holds are exactly the guarded ones.
-/

namespace Transition

variable {σ α : Type*} (step : σ → α → Option σ)

/-- The state a run ends in, `none` as soon as an action is not enabled. -/
def run : σ → List α → Option σ
  | s, [] => some s
  | s, a :: as => (step s a).bind (fun s' => run s' as)

/-- **`P` holds in every state of the run**, its first and its last
included. A run that gets stuck is judged up to the state it is stuck
in. -/
def Always (P : σ → Prop) : σ → List α → Prop
  | s, [] => P s
  | s, a :: as => P s ∧ ∀ s', step s a = some s' → Always P s' as

/-- **Every action the run takes is taken in a state meeting `ok`.** -/
def Guarded (ok : σ → α → Prop) : σ → List α → Prop
  | _, [] => True
  | s, a :: as => ∀ s', step s a = some s' → ok s a ∧ Guarded ok s' as

variable {step}

theorem run_cons_eq_some {s s' : σ} {a : α} {as : List α} :
    run step s (a :: as) = some s'
      ↔ ∃ t, step s a = some t ∧ run step t as = some s' :=
  Option.bind_eq_some_iff

/-- A run is a run of its first half followed by one of its second. -/
theorem run_append (s : σ) (as bs : List α) :
    run step s (as ++ bs) = (run step s as).bind (fun s' => run step s' bs) := by
  induction as generalizing s with
  | nil => rfl
  | cons a as ih =>
    show (step s a).bind (fun t => run step t (as ++ bs))
      = ((step s a).bind (fun t => run step t as)).bind _
    rw [Option.bind_assoc]
    exact Option.bind_congr (fun t _ => ih t)

theorem run_append_eq_some {s s' : σ} {as bs : List α} :
    run step s (as ++ bs) = some s'
      ↔ ∃ t, run step s as = some t ∧ run step t bs = some s' := by
  rw [run_append]
  exact Option.bind_eq_some_iff

/-- **The invariant rule.** What every step preserves, every run
preserves. -/
theorem run_preserves {I : σ → Prop}
    (hstep : ∀ s a s', I s → step s a = some s' → I s') {s s' : σ}
    {as : List α} (hs : I s) (hrun : run step s as = some s') : I s' := by
  induction as generalizing s with
  | nil => exact Option.some.inj hrun ▸ hs
  | cons a as ih =>
    obtain ⟨t, ht, hrest⟩ := run_cons_eq_some.mp hrun
    exact ih (hstep s a t hs ht) hrest

/-- The invariant rule for a run whose every step meets a condition. -/
theorem run_preserves_of_guarded {I : σ → Prop} {ok : σ → α → Prop}
    (hstep : ∀ s a s', I s → ok s a → step s a = some s' → I s') {s s' : σ}
    {as : List α} (hs : I s) (hok : Guarded step ok s as)
    (hrun : run step s as = some s') : I s' := by
  induction as generalizing s with
  | nil => exact Option.some.inj hrun ▸ hs
  | cons a as ih =>
    obtain ⟨t, ht, hrest⟩ := run_cons_eq_some.mp hrun
    obtain ⟨ha, hok'⟩ := hok t ht
    exact ih (hstep s a t hs ha ht) hok' hrest

/-- **What holds at the end of a run and not at its beginning has come about** in one
of its steps. -/
theorem exists_origin {I P : σ → Prop} {E : σ → α → σ → Prop}
    (hstep : ∀ s a s', I s → step s a = some s' → I s')
    (hnew : ∀ s a s', I s → step s a = some s' → P s' → P s ∨ E s a s') {s s' : σ}
    {as : List α} (hs : I s) (hnot : ¬ P s) (hrun : run step s as = some s') (hP : P s') :
    ∃ bs a cs t t', as = bs ++ a :: cs ∧ run step s bs = some t ∧ step t a = some t'
      ∧ E t a t' := by
  induction as generalizing s with
  | nil => exact absurd (Option.some.inj hrun ▸ hP) hnot
  | cons a as ih =>
    obtain ⟨t, ht, hrest⟩ := run_cons_eq_some.mp hrun
    by_cases hPt : P t
    · exact ⟨[], a, as, s, t, rfl, rfl, ht, (hnew s a t hs ht hPt).resolve_left hnot⟩
    · obtain ⟨bs, b, cs, u, u', rfl, hu, hb, hE⟩ := ih (hstep s a t hs ht) hPt hrest
      exact ⟨a :: bs, b, cs, u, u', rfl, run_cons_eq_some.mpr ⟨t, ht, hu⟩, hb, hE⟩

theorem Always.head {P : σ → Prop} {s : σ} {as : List α}
    (h : Always step P s as) : P s := by
  cases as with
  | nil => exact h
  | cons a as => exact h.1

/-- **A predicate holds throughout a run exactly when it holds at the end
of each of its prefixes.** -/
theorem always_iff_prefix {P : σ → Prop} {s : σ} {as : List α} :
    Always step P s as
      ↔ ∀ bs s', bs <+: as → run step s bs = some s' → P s' := by
  induction as generalizing s with
  | nil =>
    refine ⟨fun h bs s' hbs hrun => ?_, fun h => h [] s List.prefix_rfl rfl⟩
    rw [List.prefix_nil.mp hbs] at hrun
    exact Option.some.inj hrun ▸ h
  | cons a as ih =>
    constructor
    · rintro ⟨hs, hrest⟩ bs s' hbs hrun
      cases bs with
      | nil => exact Option.some.inj hrun ▸ hs
      | cons b bs =>
        obtain ⟨rfl, hbs'⟩ := List.cons_prefix_cons.mp hbs
        obtain ⟨t, ht, hrest'⟩ := run_cons_eq_some.mp hrun
        exact ih.mp (hrest t ht) bs s' hbs' hrest'
    · intro h
      refine ⟨h [] s (List.nil_prefix) rfl, fun t ht => ih.mpr ?_⟩
      intro bs s' hbs hrun
      exact h (a :: bs) s' (List.cons_prefix_cons.mpr ⟨rfl, hbs⟩)
        (run_cons_eq_some.mpr ⟨t, ht, hrun⟩)

/-- What holds throughout a run holds throughout its second half. -/
theorem Always.of_append {P : σ → Prop} {s t : σ} {as bs : List α}
    (h : Always step P s (as ++ bs)) (hrun : run step s as = some t) :
    Always step P t bs := by
  induction as generalizing s with
  | nil => exact Option.some.inj hrun ▸ h
  | cons a as ih =>
    obtain ⟨u, hu, hrest⟩ := run_cons_eq_some.mp hrun
    exact ih (h.2 u hu) hrest

/-- A predicate that holds throughout a run holds in its last state. -/
theorem Always.last {P : σ → Prop} {s s' : σ} {as : List α}
    (h : Always step P s as) (hrun : run step s as = some s') : P s' :=
  always_iff_prefix.mp h as s' List.prefix_rfl hrun

/-- **The invariant rule for guarded runs.** -/
theorem Always.of_guarded {I P : σ → Prop} {ok : σ → α → Prop}
    (hIP : ∀ s, I s → P s)
    (hstep : ∀ s a s', I s → ok s a → step s a = some s' → I s') {s : σ}
    {as : List α} (hs : I s) (hok : Guarded step ok s as) :
    Always step P s as := by
  induction as generalizing s with
  | nil => exact hIP s hs
  | cons a as ih =>
    refine ⟨hIP s hs, fun t ht => ?_⟩
    obtain ⟨ha, hok'⟩ := hok t ht
    exact ih (hstep s a t hs ha ht) hok'

/-- **The guarded runs are exactly the good ones.** If the steps meeting
the condition preserve the invariant and every step that does not leads
from it straight into a bad state, then a run stays good if and only if
each of its steps meets the condition. -/
theorem always_iff_guarded {I P : σ → Prop} {ok : σ → α → Prop}
    (hIP : ∀ s, I s → P s)
    (hstep : ∀ s a s', I s → ok s a → step s a = some s' → I s')
    (hbad : ∀ s a s', I s → step s a = some s' → P s' → ok s a) {s : σ}
    {as : List α} (hs : I s) :
    Always step P s as ↔ Guarded step ok s as := by
  refine ⟨fun h => ?_, Always.of_guarded hIP hstep hs⟩
  induction as generalizing s with
  | nil => trivial
  | cons a as ih =>
    intro t ht
    have hrest := h.2 t ht
    have ha : ok s a := hbad s a t hs ht hrest.head
    exact ⟨ha, ih (hstep s a t hs ha ht) hrest⟩

/-- **What one condition buys.** If the steps meeting a condition preserve the
invariant, and every step from a state with the invariant meets another
condition, then runs that meet the first meet the second. -/
theorem Guarded.of_invariant {I : σ → Prop} {ok ok' : σ → α → Prop}
    (hok : ∀ s a s', I s → step s a = some s' → ok' s a)
    (hstep : ∀ s a s', I s → ok s a → step s a = some s' → I s') {s : σ}
    {as : List α} (hs : I s) (h : Guarded step ok s as) : Guarded step ok' s as := by
  induction as generalizing s with
  | nil => trivial
  | cons a as ih =>
    intro t ht
    obtain ⟨ha, hrest⟩ := h t ht
    exact ⟨hok s a t hs ht, ih (hstep s a t hs ha ht) hrest⟩

/-- **A condition that does not depend on the state.** If every action is
enabled, and an invariant makes the condition one on the action alone, then the
guarded runs are those all of whose actions meet it. -/
theorem Guarded.iff_forall {I : σ → Prop} {ok : σ → α → Prop} {c : α → Prop}
    (hok : ∀ s a, I s → (ok s a ↔ c a))
    (hstep : ∀ s a, I s → ∃ s', step s a = some s' ∧ I s') {s : σ} (hs : I s)
    (as : List α) : Guarded step ok s as ↔ ∀ a ∈ as, c a := by
  induction as generalizing s with
  | nil => simp [Guarded]
  | cons a as ih =>
    obtain ⟨t, ht, hI⟩ := hstep s a hs
    rw [List.forall_mem_cons, ← ih hI, ← hok s a hs]
    refine ⟨fun h => h t ht, fun h t' ht' => ?_⟩
    obtain rfl := Option.some.inj (ht.symm.trans ht')
    exact h

/-- What holds at the end of a run and is never regained has held all along. -/
theorem Guarded.of_last {P : σ → Prop} (hstep : ∀ s a s', step s a = some s' → P s' → P s)
    {s s' : σ} {as : List α} (hrun : run step s as = some s') (hlast : P s') :
    P s ∧ Guarded step (fun s _ => P s) s as := by
  induction as generalizing s with
  | nil => exact ⟨Option.some.inj hrun ▸ hlast, trivial⟩
  | cons a as ih =>
    obtain ⟨t, ht, hrest⟩ := run_cons_eq_some.mp hrun
    obtain ⟨hP, hguarded⟩ := ih hrest
    have hs : P s := hstep s a t ht hP
    refine ⟨hs, fun t' ht' => ⟨hs, ?_⟩⟩
    obtain rfl := Option.some.inj (ht.symm.trans ht')
    exact hguarded

/-- And in every state that a step has led to. -/
theorem Guarded.to_last {P : σ → Prop} (hstep : ∀ s a s', step s a = some s' → P s' → P s)
    {s s' : σ} {as : List α} (hrun : run step s as = some s') (hlast : P s') :
    Guarded step (fun s a => ∀ t, step s a = some t → P t) s as := by
  induction as generalizing s with
  | nil => trivial
  | cons a as ih =>
    obtain ⟨t, ht, hrest⟩ := run_cons_eq_some.mp hrun
    obtain ⟨hP, -⟩ := Guarded.of_last hstep hrest hlast
    intro t' ht'
    obtain rfl := Option.some.inj (ht.symm.trans ht')
    exact ⟨fun u hu => Option.some.inj (ht.symm.trans hu) ▸ hP, ih hrest⟩

/-- Whether a run is guarded can be computed, where the condition can. -/
instance Guarded.decidable {ok : σ → α → Prop} [∀ s a, Decidable (ok s a)] :
    ∀ (s : σ) (as : List α), Decidable (Guarded step ok s as)
  | _, [] => .isTrue trivial
  | s, a :: as =>
    match h : step s a with
    | none => .isTrue (fun t ht => absurd (h.symm.trans ht) (by simp))
    | some s' =>
      have : Decidable (Guarded step ok s' as) := Guarded.decidable s' as
      decidable_of_iff (ok s a ∧ Guarded step ok s' as)
        ⟨fun hok _ ht => Option.some.inj (h.symm.trans ht) ▸ hok, fun hok => hok s' h⟩

/-- A condition on the action alone, met by every action of the run. -/
theorem Guarded.of_forall {ok : α → Prop} {as : List α} (h : ∀ a ∈ as, ok a)
    (s : σ) : Guarded step (fun _ a => ok a) s as := by
  induction as generalizing s with
  | nil => trivial
  | cons a as ih =>
    exact fun t _ => ⟨h a List.mem_cons_self,
      ih (fun b hb => h b (List.mem_cons_of_mem a hb)) t⟩

end Transition
