import Mathlib.Data.List.Nodup
import Mathlib.Logic.Function.Basic
import Mathlib.Tactic.Common

/-!
# Duties

Jobs are numbered as they come. Each is taken by one of several workers, who from then
on owes an answer, until he answers it or it is lost. What a maintainer wants to hear
is that none is answered twice, that none is forgotten, and that two workers are never
at the same one. It follows from what the steps may be, whatever the workers do in
between.
-/

namespace Duty

variable {ι : Type*}

/-- What has become of the jobs. -/
structure Book (ι : Type*) where
  /-- How many have been taken. -/
  taken : ℕ
  /-- The job a worker has still to answer. -/
  owes : ι → Option ℕ
  /-- Those that have been answered, in this order. -/
  answered : List ℕ
  /-- Those that will not be. -/
  lost : List ℕ

/-- No job has come. -/
def Book.blank : Book ι := ⟨0, fun _ => none, [], []⟩

/-- **What a step may do.** What becomes of the book is given field by field, so that a
system that keeps one can say so field by field. -/
inductive Step [DecidableEq ι] (b b' : Book ι) : Prop where
  | idle (taken : b'.taken = b.taken) (owes : b'.owes = b.owes)
    (answered : b'.answered = b.answered) (lost : b'.lost = b.lost)
  | take (w : ι) (free : b.owes w = none) (taken : b'.taken = b.taken + 1)
    (owes : b'.owes = Function.update b.owes w (some b.taken))
    (answered : b'.answered = b.answered) (lost : b'.lost = b.lost)
  | answer (w : ι) (n : ℕ) (owed : b.owes w = some n) (taken : b'.taken = b.taken)
    (owes : b'.owes = Function.update b.owes w none)
    (answered : b'.answered = b.answered ++ [n]) (lost : b'.lost = b.lost)
  | lose (w : ι) (n : ℕ) (owed : b.owes w = some n) (taken : b'.taken = b.taken)
    (owes : b'.owes = Function.update b.owes w none)
    (answered : b'.answered = b.answered) (lost : b'.lost = b.lost ++ [n])

/-- **Each job is in one place.** -/
structure Book.Balanced (b : Book ι) : Prop where
  once : (b.answered ++ b.lost).Nodup
  unique : ∀ w v n, b.owes w = some n → b.owes v = some n → w = v
  apart : ∀ w n, b.owes w = some n → n ∉ b.answered ++ b.lost
  taken : ∀ n, n < b.taken ↔ n ∈ b.answered ++ b.lost ∨ ∃ w, b.owes w = some n

namespace Book.Balanced

variable {b b' : Book ι}

theorem blank : (blank : Book ι).Balanced where
  once := List.nodup_nil
  unique _ _ _ h := absurd h nofun
  apart _ _ h := absurd h nofun
  taken n := iff_of_false (Nat.not_lt_zero n) (by rintro (h | ⟨_, h⟩) <;> exact absurd h nofun)

variable [DecidableEq ι]

theorem owes_update_none {w v : ι} {n : ℕ}
    (h : Function.update b.owes w none v = some n) : v ≠ w ∧ b.owes v = some n := by
  by_cases hvw : v = w
  · subst hvw
    rw [Function.update_self] at h
    exact absurd h nofun
  · rw [Function.update_of_ne hvw] at h
    exact ⟨hvw, h⟩

/-- A job is done with: `done` are those that were, and it. -/
theorem settle (h : b.Balanced) {w : ι} {n : ℕ} (howes : b.owes w = some n)
    (htaken : b'.taken = b.taken) (howes' : b'.owes = Function.update b.owes w none)
    (hdone : (b'.answered ++ b'.lost).Perm (n :: (b.answered ++ b.lost))) : b'.Balanced where
  once := hdone.nodup_iff.mpr (List.nodup_cons.mpr ⟨h.apart w n howes, h.once⟩)
  unique v u m hv hu := by
    rw [howes'] at hv hu
    exact h.unique v u m (owes_update_none hv).2 (owes_update_none hu).2
  apart v m hv := by
    rw [howes'] at hv
    obtain ⟨hvw, hv⟩ := owes_update_none hv
    rw [hdone.mem_iff, List.mem_cons, not_or]
    refine ⟨?_, h.apart v m hv⟩
    rintro rfl
    exact hvw (h.unique v w m hv howes)
  taken m := by
    rw [htaken, h.taken m, hdone.mem_iff, List.mem_cons, howes']
    constructor
    · rintro (hm | ⟨v, hv⟩)
      · exact .inl (.inr hm)
      · by_cases hvw : v = w
        · subst hvw
          exact .inl (.inl (Option.some.inj (hv.symm.trans howes)))
        · exact .inr ⟨v, by rw [Function.update_of_ne hvw, hv]⟩
    · rintro ((rfl | hm) | ⟨v, hv⟩)
      · exact .inr ⟨w, howes⟩
      · exact .inl hm
      · exact .inr ⟨v, (owes_update_none hv).2⟩

/-- A job is taken. -/
theorem grow (h : b.Balanced) {w : ι} (hfree : b.owes w = none)
    (htaken : b'.taken = b.taken + 1)
    (howes : b'.owes = Function.update b.owes w (some b.taken))
    (hdone : b'.answered ++ b'.lost = b.answered ++ b.lost) : b'.Balanced := by
  have hlt {v : ι} {n : ℕ} (hv : b.owes v = some n) : n < b.taken :=
    (h.taken n).mpr (.inr ⟨v, hv⟩)
  have hcases {v : ι} {n : ℕ} (hv : b'.owes v = some n) :
      (v = w ∧ n = b.taken) ∨ b.owes v = some n := by
    rw [howes] at hv
    by_cases hvw : v = w
    · subst hvw
      rw [Function.update_self] at hv
      exact .inl ⟨rfl, (Option.some.inj hv).symm⟩
    · rw [Function.update_of_ne hvw] at hv
      exact .inr hv
  refine ⟨hdone ▸ h.once, fun v u n hv hu => ?_, fun v n hv => ?_, fun n => ?_⟩
  · rcases hcases hv with ⟨rfl, rfl⟩ | hold
    · rcases hcases hu with ⟨rfl, -⟩ | hold'
      · rfl
      · exact absurd (hlt hold') (Nat.lt_irrefl _)
    · rcases hcases hu with ⟨rfl, rfl⟩ | hold'
      · exact absurd (hlt hold) (Nat.lt_irrefl _)
      · exact h.unique v u n hold hold'
  · rw [hdone]
    rcases hcases hv with ⟨-, rfl⟩ | hold
    · exact fun hmem => absurd ((h.taken _).mpr (.inl hmem)) (Nat.lt_irrefl _)
    · exact h.apart v n hold
  · rw [htaken, hdone, Nat.lt_succ_iff_lt_or_eq, h.taken n, or_assoc]
    refine or_congr_right ⟨?_, ?_⟩
    · rintro (⟨v, hv⟩ | rfl)
      · refine ⟨v, ?_⟩
        rw [howes, Function.update_of_ne, hv]
        rintro rfl
        exact absurd (hfree.symm.trans hv) nofun
      · exact ⟨w, by rw [howes, Function.update_self]⟩
    · rintro ⟨v, hv⟩
      rcases hcases hv with ⟨-, rfl⟩ | hold
      · exact .inr rfl
      · exact .inl ⟨v, hold⟩

/-- **Every step keeps the book balanced.** -/
theorem step (h : b.Balanced) (hstep : Step b b') : b'.Balanced := by
  cases hstep with
  | idle htaken howes hanswered hlost =>
    obtain ⟨_, _, _, _⟩ := b
    obtain ⟨_, _, _, _⟩ := b'
    subst htaken howes hanswered hlost
    exact h
  | take w hfree htaken howes hanswered hlost =>
    exact h.grow hfree htaken howes (by rw [hanswered, hlost])
  | answer w n howed htaken howes hanswered hlost =>
    refine h.settle howed htaken howes ?_
    rw [hanswered, hlost, List.append_assoc]
    exact List.perm_middle
  | lose w n howed htaken howes hanswered hlost =>
    refine h.settle howed htaken howes ?_
    rw [hanswered, hlost, ← List.append_assoc]
    exact List.perm_append_comm

end Book.Balanced

end Duty
