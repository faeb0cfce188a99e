import Mathlib.Algebra.BigOperators.Group.List.Basic
import Mathlib.Algebra.Ring.Nat
import Mathlib.Order.Nat
import Mathlib.Tactic.Common

/-!
# A future with a timeout

A future is a function: polled at an instant, it is pending or ready, and it goes on
to another state. Under a timeout it is polled at once, and then whenever its task is
woken, which may be after any time. It is polled before the timer is asked, and it is
given up only where it is pending and the timer has expired; or its owner gives it up
earlier, where it is not woken again.

However it ends, it is left as the last poll left it. So what every poll keeps,
whatever time passes in between, can be read off at the end (`timeout_spec`), and two
futures that differ in what they return differ in nothing else (`timeout_map`).
-/

namespace Timeout

/-- What polling a future gives. -/
inductive Poll (A : Type*) where
  | pending
  | ready (a : A)

/-- The timer has expired. -/
structure Elapsed where

variable {A B W : Type*}

/-- What is returned is mapped. -/
def Poll.map (f : A → B) : Poll A → Poll B
  | .pending => .pending
  | .ready a => .ready (f a)

/-- What is returned, if it is. -/
def Poll.value : Poll A → Option A
  | .pending => none
  | .ready a => some a

/-- Poll a future, now and after each of the times it is woken after, until it is
ready or the timer has expired, which it does at `due`: the outcome, `none` where it
is given up before either, the instant of the last poll, and what the future is left
as. -/
def timeout (inner : ℕ → W → Poll A × W) (due : ℕ) :
    ℕ → List ℕ → W → Option (Except Elapsed A) × ℕ × W
  | now, wakes, w =>
    match inner now w with
    | (.ready a, w) => (some (.ok a), now, w)
    | (.pending, w) =>
      if due ≤ now then (some (.error ⟨⟩), now, w)
      else match wakes with
        | [] => (none, now, w)
        | d :: wakes => timeout inner due (now + d) wakes w

/-- What the last poll gave. -/
def lastPoll : Option (Except Elapsed A) → Poll A
  | some (.ok a) => .ready a
  | some (.error _) | none => .pending

section Rules

variable (inner : ℕ → W → Poll A × W) (due : ℕ)

/-- **What every poll keeps is there at the end.** `I` is what a poll starts from and
time does not change, `R` what it leads to, together with what it gave. -/
theorem timeout_spec {I : ℕ → W → Prop} {R : ℕ → Poll A → W → Prop}
    (hlater : ∀ {t w} d, I t w → I (t + d) w)
    (hpoll : ∀ {t w}, I t w → R t (inner t w).1 (inner t w).2)
    (hpending : ∀ {t w}, R t .pending w → I t w)
    (now : ℕ) (wakes : List ℕ) {w : W} (h : I now w) :
    R (timeout inner due now wakes w).2.1 (lastPoll (timeout inner due now wakes w).1)
      (timeout inner due now wakes w).2.2 := by
  fun_induction timeout inner due now wakes w with
  | case1 now wakes w a w' hready =>
    have hnow := hpoll h
    rwa [hready] at hnow
  | case2 now wakes w w' hready hdue =>
    have hnow := hpoll h
    rwa [hready] at hnow
  | case3 now w w' hready hdue =>
    have hnow := hpoll h
    rwa [hready] at hnow
  | case4 now w w' hready hdue d wakes ih =>
    have hnow := hpoll h
    rw [hready] at hnow
    exact ih (hlater d (hpending hnow))

/-- **It is only what is returned that differs**, where two futures differ in that. -/
theorem timeout_map {inner' : ℕ → W → Poll B × W} {f : A → B}
    (h : ∀ now w, inner' now w = ((inner now w).1.map f, (inner now w).2))
    (now : ℕ) (wakes : List ℕ) (w : W) :
    timeout inner' due now wakes w
      = ((timeout inner due now wakes w).1.map (Except.map f),
        (timeout inner due now wakes w).2) := by
  fun_induction timeout inner due now wakes w with
  | case1 now wakes w a w' hready =>
    rw [timeout, h, hready]
    rfl
  | case2 now wakes w w' hready hdue =>
    rw [timeout, h, hready]
    exact if_pos hdue
  | case3 now w w' hready hdue =>
    rw [timeout, h, hready]
    exact if_neg hdue
  | case4 now w w' hready hdue d wakes ih =>
    rw [timeout, h, hready, ← ih]
    exact if_neg hdue

/-- **It returns** if it is polled when the timer has expired. -/
theorem timeout_returns (now : ℕ) (wakes : List ℕ) (w : W) (h : due ≤ now + wakes.sum) :
    ((timeout inner due now wakes w).1).isSome = true := by
  fun_induction timeout inner due now wakes w with
  | case1 => rfl
  | case2 => rfl
  | case3 now w w' hready hdue => exact absurd h hdue
  | case4 now w w' hready hdue d wakes ih =>
    rw [List.sum_cons, ← Nat.add_assoc] at h
    exact ih h

/-- **It expires only when it is due.** -/
theorem due_le_of_elapsed (now : ℕ) (wakes : List ℕ) (w : W)
    (h : (timeout inner due now wakes w).1 = some (.error ⟨⟩)) :
    due ≤ (timeout inner due now wakes w).2.1 := by
  fun_induction timeout inner due now wakes w with
  | case1 => obtain ⟨⟩ := h
  | case2 now wakes w w' hready hdue => exact hdue
  | case3 now w w' hready hdue => exact absurd h.symm (Option.some_ne_none _)
  | case4 now w w' hready hdue d wakes ih => exact ih h

/-- Time goes on. -/
theorem le_timeout (now : ℕ) (wakes : List ℕ) (w : W) :
    now ≤ (timeout inner due now wakes w).2.1 := by
  fun_induction timeout inner due now wakes w with
  | case1 => exact le_rfl
  | case2 => exact le_rfl
  | case3 => exact le_rfl
  | case4 now w w' hready hdue d wakes ih => exact (Nat.le_add_right now d).trans ih

end Rules

end Timeout
