import Mathlib.Algebra.Ring.Nat
import Mathlib.Order.Basic
import Mathlib.Tactic.Common

/-!
# Calls that wait

A call that may fail, panic, or wait. What it waits for it asks for in rounds, one after
the other, and a number of rounds is given to it: if they do not suffice it has not
returned yet. So a call is a function of this number, and once it has ended, more
rounds make no difference (`Stable`).

`Returns` says that a call comes back, with a value or an error. A call that does has
not panicked in any round (`Stable.of_returns`); waiting comes to an end if some round
ends it, and none panics (`returns_wait`), as where each fails once its time is up
(`returns_of_settles`).
-/

namespace Waiting

/-- How a call has ended, if it has. -/
inductive Blocking (E A : Type*) where
  | ok (a : A)
  | error (e : E)
  | panicked
  /-- It has not returned yet. -/
  | waiting

variable {E E' A B : Type*}

namespace Blocking

/-- A call that neither panics nor waits. -/
def ofExcept : Except E A → Blocking E A
  | .ok a => .ok a
  | .error e => .error e

/-- One call after another. -/
def andThen (c : Blocking E A) (f : A → Blocking E B) : Blocking E B :=
  match c with
  | .ok a => f a
  | .error e => .error e
  | .panicked => .panicked
  | .waiting => .waiting

/-- Both have returned, the second of what the first has. -/
theorem andThen_eq_ok_iff {c : Blocking E A} {f : A → Blocking E B} {b : B} :
    c.andThen f = .ok b ↔ ∃ a, c = .ok a ∧ f a = .ok b := by
  cases c with
  | ok a => exact ⟨fun h => ⟨a, rfl, h⟩, fun ⟨_, heq, h⟩ => ok.inj heq ▸ h⟩
  | error e | panicked | waiting => exact iff_of_false nofun nofun

/-- What a call returns is mapped. -/
def map (f : A → B) : Blocking E A → Blocking E B
  | .ok a => .ok (f a)
  | .error e => .error e
  | .panicked => .panicked
  | .waiting => .waiting

/-- What a call fails with is mapped. -/
def mapError (f : E → E') : Blocking E A → Blocking E' A
  | .ok a => .ok a
  | .error e => .error (f e)
  | .panicked => .panicked
  | .waiting => .waiting

/-- What is returned, if it is. -/
def returned : Blocking E A → Option (Except E A)
  | .ok a => some (.ok a)
  | .error e => some (.error e)
  | .panicked | .waiting => none

/-- Whether it has panicked. -/
def isPanicked : Blocking E A → Bool
  | .panicked => true
  | .ok _ | .error _ | .waiting => false

/-- There is one way to panic. -/
theorem eq_panicked_of_isPanicked {c : Blocking E A} (h : c.isPanicked = true) : c = .panicked := by
  cases c with
  | panicked => rfl
  | ok a => exact absurd h Bool.false_ne_true
  | error e => exact absurd h Bool.false_ne_true
  | waiting => exact absurd h Bool.false_ne_true

/-- What returns a value has returned that value. -/
theorem ofExcept_eq_ok_iff {x : Except E A} {a : A} : ofExcept x = .ok a ↔ x = .ok a := by
  cases x with
  | ok a' => exact ⟨fun h => congrArg Except.ok (ok.inj h), fun h => congrArg ok (Except.ok.inj h)⟩
  | error e => exact iff_of_false nofun nofun

/-- And it has returned. -/
@[simp] theorem returned_ofExcept (x : Except E A) : (ofExcept x).returned = some x := by
  cases x with
  | ok a => rfl
  | error e => rfl

/-- A panic is no value, -/
theorem panicked_ne_ok {a : A} : (.panicked : Blocking E A) ≠ .ok a := nofun

/-- and is not to wait; -/
theorem panicked_ne_waiting : (.panicked : Blocking E A) ≠ .waiting := nofun

/-- what has returned has not panicked, -/
theorem ofExcept_ne_panicked {x : Except E A} : ofExcept x ≠ .panicked := by
  cases x with
  | ok a => exact nofun
  | error e => exact nofun

/-- and does not wait. -/
theorem ofExcept_ne_waiting {x : Except E A} : ofExcept x ≠ .waiting := by
  cases x with
  | ok a => exact nofun
  | error e => exact nofun

/-- To have returned is to be one of those that have. -/
theorem returned_eq_some_iff {c : Blocking E A} {x : Except E A} :
    c.returned = some x ↔ c = ofExcept x := by
  constructor
  · intro h
    cases c with
    | ok a => exact Option.some.inj h ▸ rfl
    | error e => exact Option.some.inj h ▸ rfl
    | panicked | waiting => exact absurd h (Option.some_ne_none x).symm
  · rintro rfl
    exact returned_ofExcept x

end Blocking

/-- Ask in one round after the other, from the `k`-th on, until one does not wait. -/
def wait (round : ℕ → Blocking E A) : ℕ → ℕ → Blocking E A
  | 0, _ => .waiting
  | n + 1, k =>
    match round k with
    | .waiting => wait round n (k + 1)
    | ended => ended

/-- A call that has ended is not changed by more rounds. -/
def Stable (c : ℕ → Blocking E A) : Prop := ∀ n, c n ≠ .waiting → ∀ m, n ≤ m → c m = c n

/-- A call comes back. -/
def Returns (c : ℕ → Blocking E A) : Prop := ∃ n, (c n).returned.isSome = true

/-! ## More rounds -/

/-- What does not wait for anything is stable. -/
theorem stable_const (c : Blocking E A) : Stable fun _ => c := fun _ _ _ _ => rfl

/-- What follows a call that is over is stable, if it is for each value of that call. -/
theorem Stable.andThen {f : ℕ → A → Blocking E B} (hf : ∀ a, Stable (f · a)) (c : Blocking E A) :
    Stable fun n => c.andThen (f n) := by
  cases c with
  | ok a => exact hf a
  | error e => exact stable_const _
  | panicked => exact stable_const _
  | waiting => exact stable_const _

/-- A call is as stable when its error is mapped, -/
theorem Stable.mapError {c : ℕ → Blocking E A} (hc : Stable c) (f : E → E') :
    Stable fun n => (c n).mapError f := by
  intro n hn m hm
  have hne : c n ≠ .waiting := fun h => hn (congrArg (Blocking.mapError f) h)
  exact congrArg (Blocking.mapError f) (hc n hne m hm)

/-- and when its value is. -/
theorem Stable.map {c : ℕ → Blocking E A} (hc : Stable c) (f : A → B) :
    Stable fun n => (c n).map f := by
  intro n hn m hm
  have hne : c n ≠ .waiting := fun h => hn (congrArg (Blocking.map f) h)
  exact congrArg (Blocking.map f) (hc n hne m hm)

/-- A round that does not wait is the last. -/
theorem wait_succ_of_ne {round : ℕ → Blocking E A} {k : ℕ} (h : round k ≠ .waiting) (n : ℕ) :
    wait round (n + 1) k = round k := by
  rw [wait]
  split
  case h_1 hwaiting => exact absurd hwaiting h
  case h_2 => rfl

/-- One that waits is followed by the next. -/
theorem wait_succ_of_waiting {round : ℕ → Blocking E A} {k : ℕ} (h : round k = .waiting) (n : ℕ) :
    wait round (n + 1) k = wait round n (k + 1) := by
  rw [wait, h]

/-- **Once a wait is over it stays over**, however many rounds there might have been more. -/
theorem stable_wait (round : ℕ → Blocking E A) (k : ℕ) : Stable (wait round · k) := by
  intro n
  induction n generalizing k with
  | zero => exact fun hn => absurd rfl hn
  | succ n ih =>
    intro hn m hm
    obtain ⟨m, rfl⟩ := Nat.exists_eq_add_of_le' (Nat.one_le_of_lt hm)
    by_cases hround : round k = .waiting
    · dsimp only at hn ⊢
      rw [wait_succ_of_waiting hround] at hn ⊢
      rw [wait_succ_of_waiting hround]
      exact ih (k + 1) hn m (Nat.le_of_succ_le_succ hm)
    · dsimp only
      rw [wait_succ_of_ne hround, wait_succ_of_ne hround]

/-! ## Coming back -/

/-- What waits for nothing returns if it has returned. -/
theorem returns_const {c : Blocking E A} : Returns (fun _ => c) ↔ c.returned.isSome = true :=
  ⟨fun ⟨_, h⟩ => h, fun h => ⟨0, h⟩⟩

/-- **After another call**: it has to come back, and what follows it as well. -/
theorem returns_andThen {c : Blocking E A} {f : ℕ → A → Blocking E B} :
    Returns (fun n => c.andThen (f n))
      ↔ c.returned.isSome = true ∧ ∀ a, c = .ok a → Returns (f · a) := by
  cases c with
  | ok a =>
    exact ⟨fun h => ⟨rfl, fun a' ha' => Blocking.ok.inj ha' ▸ h⟩, fun h => h.2 a rfl⟩
  | error e => exact iff_of_true ⟨0, rfl⟩ ⟨rfl, fun a => nofun⟩
  | panicked | waiting =>
    exact iff_of_false (fun ⟨_, h⟩ => Bool.false_ne_true h) fun h => Bool.false_ne_true h.1

/-- One after the other returns if both do. -/
theorem isSome_returned_andThen {c : Blocking E A} {f : A → Blocking E B} :
    (c.andThen f).returned.isSome = true
      ↔ c.returned.isSome = true ∧ ∀ a, c = .ok a → (f a).returned.isSome = true := by
  rw [← returns_const, returns_andThen]
  exact and_congr_right fun _ => forall₂_congr fun _ _ => returns_const

/-- The value is mapped once it is there. -/
theorem returned_map {c : Blocking E A} {f : A → B} :
    (c.map f).returned = c.returned.map (Except.map f) := by
  cases c with
  | ok a => rfl
  | error e => rfl
  | panicked => rfl
  | waiting => rfl

/-- And so is the error. -/
theorem returned_mapError {c : Blocking E A} {f : E → E'} :
    (c.mapError f).returned = c.returned.map (Except.mapError f) := by
  cases c with
  | ok a => rfl
  | error e => rfl
  | panicked => rfl
  | waiting => rfl

/-- So mapping does not keep anybody waiting. -/
theorem returns_map {c : ℕ → Blocking E A} {f : A → B} :
    Returns (fun n => (c n).map f) ↔ Returns c :=
  exists_congr fun n => by rw [returned_map, Option.isSome_map]

/-- Of the error neither. -/
theorem returns_mapError {c : ℕ → Blocking E A} {f : E → E'} :
    Returns (fun n => (c n).mapError f) ↔ Returns c :=
  exists_congr fun n => by rw [returned_mapError, Option.isSome_map]

/-- **Waiting comes to an end** if some round ends it, and none panics. -/
theorem returns_wait {round : ℕ → Blocking E A} (hpanic : ∀ k, round k ≠ .panicked) {j k : ℕ}
    (hend : round (k + j) ≠ .waiting) : Returns (wait round · k) := by
  have hreturned : ∀ {k}, round k ≠ .waiting → (round k).returned.isSome = true := by
    intro k hk
    cases hround : round k with
    | ok a => rfl
    | error e => rfl
    | panicked => exact absurd hround (hpanic k)
    | waiting => exact absurd hround hk
  induction j generalizing k with
  | zero =>
    change round k ≠ .waiting at hend
    refine ⟨1, ?_⟩
    show (wait round 1 k).returned.isSome = true
    rw [wait_succ_of_ne hend]
    exact hreturned hend
  | succ j ih =>
    by_cases hround : round k = .waiting
    · have hnext : round (k + 1 + j) ≠ .waiting := by
        rwa [Nat.add_right_comm, Nat.add_assoc]
      obtain ⟨n, hn⟩ := ih hnext
      refine ⟨n + 1, ?_⟩
      show (wait round (n + 1) k).returned.isSome = true
      rw [wait_succ_of_waiting hround]
      exact hn
    · refine ⟨1, ?_⟩
      show (wait round 1 k).returned.isSome = true
      rw [wait_succ_of_ne hround]
      exact hreturned hround

/-- A round that does not panic, and that does not wait any more once its time is up. -/
structure Settles (up : Prop) (c : Blocking E A) : Prop where
  ne_panicked : c ≠ .panicked
  ne_waiting : up → c ≠ .waiting

section Settles

variable {up : Prop}

/-- What has returned neither panics nor waits. -/
theorem settles_ofExcept (x : Except E A) : Settles up (.ofExcept x) :=
  ⟨Blocking.ofExcept_ne_panicked, fun _ => Blocking.ofExcept_ne_waiting⟩

/-- It fails when its time is up, and waits until then. -/
theorem settles_ite [Decidable up] (e : E) :
    Settles up (if up then .error e else .waiting : Blocking E A) := by
  by_cases hup : up
  · rw [if_pos hup]
    exact settles_ofExcept (.error e)
  · rw [if_neg hup]
    exact ⟨Blocking.panicked_ne_waiting.symm, fun h => absurd h hup⟩

/-- And what settles whatever value it is given settles after it. -/
theorem settles_andThen {f : A → Blocking E B} (hf : ∀ a, Settles up (f a)) (x : Except E A) :
    Settles up ((Blocking.ofExcept x).andThen f) := by
  cases x with
  | ok a => exact hf a
  | error e => exact settles_ofExcept (.error e)

end Settles

/-- **Rounds that settle come to an end** when the time of one of them is up. -/
theorem returns_of_settles {round : ℕ → Blocking E A} {up : ℕ → Prop}
    (hsettles : ∀ k, Settles (up k) (round k)) {k : ℕ} (hup : up k) :
    Returns (wait round · 0) := by
  have hend : round (0 + k) ≠ .waiting := by
    rw [Nat.zero_add]
    exact (hsettles k).ne_waiting hup
  exact returns_wait (fun j => (hsettles j).ne_panicked) hend

/-- A call that panics at once does not come back. -/
theorem not_returns_wait {round : ℕ → Blocking E A} {k : ℕ} (h : round k = .panicked) :
    ¬ Returns (wait round · k) := by
  rintro ⟨n, hn⟩
  cases n with
  | zero => exact Bool.false_ne_true hn
  | succ n =>
    have hne : round k ≠ .waiting := h ▸ Blocking.panicked_ne_waiting
    change (wait round (n + 1) k).returned.isSome = true at hn
    rw [wait_succ_of_ne hne, h] at hn
    exact Bool.false_ne_true hn

/-- **A call that comes back has not panicked**, in any number of rounds, and from some
number on it returns the same. -/
theorem Stable.of_returns {c : ℕ → Blocking E A} (hc : Stable c) (h : Returns c) :
    (∀ n, c n ≠ .panicked) ∧ ∃ x : Except E A, ∃ n, ∀ m, n ≤ m → c m = .ofExcept x := by
  obtain ⟨n, hn⟩ := h
  obtain ⟨x, hx⟩ := Option.isSome_iff_exists.mp hn
  have hreturned := Blocking.returned_eq_some_iff.mp hx
  have hne : c n ≠ .waiting := by
    intro hwaiting
    rw [hwaiting] at hn
    exact Bool.false_ne_true hn
  have hlater : ∀ m, n ≤ m → c m = .ofExcept x := fun m hm => (hc n hne m hm).trans hreturned
  refine ⟨fun m hpanic => ?_, x, n, hlater⟩
  have hwaiting : c m ≠ .waiting := hpanic ▸ Blocking.panicked_ne_waiting
  have hboth := hc m hwaiting (max n m) (le_max_right n m)
  rw [hlater _ (le_max_left n m), hpanic] at hboth
  exact Blocking.ofExcept_ne_panicked hboth

end Waiting
