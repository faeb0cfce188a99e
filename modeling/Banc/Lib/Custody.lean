import Mathlib.Data.Fintype.Card
import Mathlib.Logic.Function.Basic

/-!
# Custody

Things that are each in a slot of their own, or in somebody's hands: `slots x` is
what is in the slot of `x`, if it is there, and `holds i` is the thing `i` has, if it
has one. They are *conserved* while no thing is in two places and none is lost. What
may be done to them is to take one out of its slot, to put it back, and to replace
one in its slot; each keeps them conserved. Of conserved things no more are held than
there are.
-/

namespace Custody

variable {X ι α : Type*}

/-- **Each thing is in one place.** -/
structure Conserved (slots : X → Option α) (holds : ι → Option X) : Prop where
  /-- It is in its slot, unless somebody has it. -/
  slot : ∀ x, (slots x).isSome = true ↔ ∀ i, holds i ≠ some x
  /-- No two have it. -/
  unique : ∀ i j x, holds i = some x → holds j = some x → i = j

namespace Conserved

variable {slots : X → Option α} {holds : ι → Option X} {x : X} {i : ι}

theorem slot_eq_none (h : Conserved slots holds) :
    slots x = none ↔ ∃ i, holds i = some x := by
  rw [← Option.not_isSome_iff_eq_none, h.slot x, not_forall]
  exact exists_congr (fun i => not_not)

/-- Either nobody has it, or one does. -/
theorem exclusive (h : Conserved slots holds) (x : X) :
    ((slots x).isSome = true ∧ ∀ i, holds i ≠ some x)
      ∨ (slots x = none ∧ ∃! i, holds i = some x) := by
  cases hslot : slots x with
  | some a => exact .inl ⟨rfl, (h.slot x).mp (by rw [hslot]; rfl)⟩
  | none =>
    obtain ⟨i, hi⟩ := h.slot_eq_none.mp hslot
    exact .inr ⟨rfl, i, hi, fun j hj => h.unique j i x hj hi⟩

/-- Nobody has anything. -/
theorem of_full (hslots : ∀ x, (slots x).isSome = true) (hholds : ∀ i, holds i = none) :
    Conserved slots holds where
  slot x := iff_of_true (hslots x) (fun i => by rw [hholds i]; exact nofun)
  unique i j x hi := by
    rw [hholds i] at hi
    exact absurd hi nofun

variable [DecidableEq X] [DecidableEq ι]

/-- Take it out of its slot. -/
theorem take (h : Conserved slots holds) (hx : (slots x).isSome = true)
    (hi : holds i = none) :
    Conserved (Function.update slots x none) (Function.update holds i (some x)) where
  slot y := by
    by_cases hy : y = x
    · subst hy
      rw [Function.update_self]
      exact iff_of_false nofun (fun hall => hall i (Function.update_self ..))
    · rw [Function.update_of_ne hy, h.slot y]
      refine forall_congr' (fun j => ?_)
      by_cases hj : j = i
      · subst hj
        rw [Function.update_self, hi]
        exact iff_of_true nofun (fun heq => hy (Option.some.inj heq).symm)
      · rw [Function.update_of_ne hj]
  unique j k y hj hk := by
    have hnot := (h.slot x).mp hx
    by_cases hji : j = i
    · by_cases hki : k = i
      · exact hji.trans hki.symm
      · subst hji
        rw [Function.update_self] at hj
        rw [Function.update_of_ne hki] at hk
        exact absurd (hj ▸ hk) (hnot k)
    · rw [Function.update_of_ne hji] at hj
      by_cases hki : k = i
      · subst hki
        rw [Function.update_self] at hk
        exact absurd (hk ▸ hj) (hnot j)
      · rw [Function.update_of_ne hki] at hk
        exact h.unique j k y hj hk

/-- Put it back. -/
theorem give (h : Conserved slots holds) (hi : holds i = some x) (a : α) :
    Conserved (Function.update slots x (some a)) (Function.update holds i none) where
  slot y := by
    by_cases hy : y = x
    · subst hy
      rw [Function.update_self]
      refine iff_of_true rfl (fun j => ?_)
      by_cases hj : j = i
      · subst hj
        rw [Function.update_self]
        exact nofun
      · rw [Function.update_of_ne hj]
        exact fun heq => hj (h.unique j i y heq hi)
    · rw [Function.update_of_ne hy, h.slot y]
      refine forall_congr' (fun j => ?_)
      by_cases hj : j = i
      · subst hj
        rw [Function.update_self, hi]
        exact iff_of_true (fun heq => hy (Option.some.inj heq).symm) nofun
      · rw [Function.update_of_ne hj]
  unique j k y hj hk := by
    have hold {l : ι} (hl : Function.update holds i none l = some y) : holds l = some y := by
      by_cases hli : l = i
      · subst hli
        rw [Function.update_self] at hl
        exact absurd hl nofun
      · rwa [Function.update_of_ne hli] at hl
    exact h.unique j k y (hold hj) (hold hk)

omit [DecidableEq ι] in
/-- Replace it in its slot. -/
theorem store (h : Conserved slots holds) (hx : (slots x).isSome = true) (a : α) :
    Conserved (Function.update slots x (some a)) holds where
  slot y := by
    by_cases hy : y = x
    · subst hy
      rw [Function.update_self, ← h.slot y]
      exact iff_of_true rfl hx
    · rw [Function.update_of_ne hy]
      exact h.slot y
  unique := h.unique

omit [DecidableEq ι] in
/-- **No more are held than there are.** -/
theorem card_holders_le [Fintype X] [Fintype ι] (h : Conserved slots holds) :
    (Finset.univ.filter (fun i => (holds i).isSome = true)).card ≤ Fintype.card X := by
  have hsubset : Set.MapsTo holds
      (Finset.univ.filter (fun i => (holds i).isSome = true) : Finset ι)
      (Finset.univ.image some : Finset (Option X)) := by
    intro i hi
    obtain ⟨x, hx⟩ := Option.isSome_iff_exists.mp (Finset.mem_filter.mp hi).2
    rw [hx]
    exact Finset.mem_coe.mpr (Finset.mem_image_of_mem some (Finset.mem_univ x))
  calc (Finset.univ.filter (fun i => (holds i).isSome = true)).card
      ≤ (Finset.univ.image some : Finset (Option X)).card := by
        refine Finset.card_le_card_of_injOn holds hsubset (fun i hi j _ hij => ?_)
        obtain ⟨x, hx⟩ := Option.isSome_iff_exists.mp (Finset.mem_filter.mp hi).2
        exact h.unique i j x hx (hij ▸ hx)
    _ ≤ Fintype.card X := Finset.card_image_le

end Conserved

end Custody
