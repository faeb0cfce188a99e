import Mathlib.Data.List.Basic
import Mathlib.Data.List.Infix
import Mathlib.Tactic.Common

/-!
# Pieces ended by a separator

A list that grows at its end, read as pieces each of which a separator ends:
`ended` are the pieces that are complete, `rest` is what follows the last
separator. Together they are the list split at the separator (`ended_append_rest`).

The list may come in parts. A part that is appended only meets `rest`
(`ended_append`, `rest_append`), so neither what is complete nor what is left
depends on where the parts were cut.

Split at the first occurrence of a longer separator, a list falls into what is before
it and what is after it (`splitOnce`).
-/

namespace Lines

variable {α : Type*} [DecidableEq α] (sep : α)

/-- The pieces a separator ends, without it. -/
def ended (xs : List α) : List (List α) := (xs.splitOn sep).dropLast

/-- What follows the last separator. -/
def rest (xs : List α) : List α :=
  (xs.splitOn sep).getLast (List.splitOn_ne_nil sep xs)

theorem ended_append_rest (xs : List α) : ended sep xs ++ [rest sep xs] = xs.splitOn sep :=
  List.dropLast_append_getLast _

/-- The two parts of a list that has been split are known from one equation. -/
theorem eq_of_splitOn {xs r : List α} {e : List (List α)} (h : xs.splitOn sep = e ++ [r]) :
    ended sep xs = e ∧ rest sep xs = r := by
  obtain ⟨hended, hrest⟩ := List.append_inj' ((ended_append_rest sep xs).trans h) rfl
  exact ⟨hended, List.singleton_inj.mp hrest⟩

/-- Nothing is complete before the first separator. -/
theorem ended_of_notMem {xs : List α} (h : sep ∉ xs) : ended sep xs = [] :=
  (eq_of_splitOn (e := []) sep (List.splitOn_eq_singleton h)).1

theorem rest_of_notMem {xs : List α} (h : sep ∉ xs) : rest sep xs = xs :=
  (eq_of_splitOn (e := []) sep (List.splitOn_eq_singleton h)).2

@[simp] theorem ended_nil : ended sep ([] : List α) = [] := ended_of_notMem sep List.not_mem_nil

@[simp] theorem rest_nil : rest sep ([] : List α) = [] := rest_of_notMem sep List.not_mem_nil

/-! ## One element at the front -/

/-- A separator at the front ends the empty piece. -/
theorem split_cons_self (xs : List α) :
    ended sep (sep :: xs) = [] :: ended sep xs ∧ rest sep (sep :: xs) = rest sep xs := by
  apply eq_of_splitOn
  rw [List.splitOn_cons_eq_if_modifyHead, if_pos (beq_self_eq_true sep), ← ended_append_rest]
  rfl

/-- Another element at the front goes to the first piece, complete or not. -/
theorem split_cons_of_ne {x : α} (h : x ≠ sep) (xs : List α) :
    (ended sep xs = [] ∧ ended sep (x :: xs) = [] ∧ rest sep (x :: xs) = x :: rest sep xs)
      ∨ ∃ p ps, ended sep xs = p :: ps ∧ ended sep (x :: xs) = (x :: p) :: ps
        ∧ rest sep (x :: xs) = rest sep xs := by
  have hsplit : (x :: xs).splitOn sep
      = (ended sep xs ++ [rest sep xs]).modifyHead (List.cons x) := by
    rw [List.splitOn_cons_eq_if_modifyHead, if_neg (by simpa using h), ended_append_rest]
  cases hended : ended sep xs with
  | nil =>
    rw [hended] at hsplit
    exact .inl ⟨rfl, eq_of_splitOn (e := []) sep hsplit⟩
  | cons p ps =>
    rw [hended] at hsplit
    exact .inr ⟨p, ps, rfl, eq_of_splitOn (e := (x :: p) :: ps) sep hsplit⟩

/-- **Nothing is lost**: the pieces, each with its separator, and what is left are the
list. -/
theorem flatten_ended_append_rest (xs : List α) :
    ((ended sep xs).map (· ++ [sep])).flatten ++ rest sep xs = xs := by
  induction xs with
  | nil => rw [ended_nil, rest_nil]; rfl
  | cons x xs ih =>
    by_cases hx : x = sep
    · subst hx
      obtain ⟨hended, hrest⟩ := split_cons_self x xs
      rw [hended, hrest]
      exact congrArg (x :: ·) ih
    · obtain ⟨hnil, hended, hrest⟩ | ⟨p, ps, hcons, hended, hrest⟩ := split_cons_of_ne sep hx xs
      · rw [hnil] at ih
        rw [hended, hrest]
        exact congrArg (x :: ·) ih
      · rw [hcons] at ih
        rw [hended, hrest]
        exact congrArg (x :: ·) ih

/-- No separator is left over. -/
theorem notMem_rest (xs : List α) : sep ∉ rest sep xs := by
  induction xs with
  | nil => rw [rest_nil]; exact List.not_mem_nil
  | cons x xs ih =>
    by_cases hx : x = sep
    · subst hx
      rw [(split_cons_self x xs).2]
      exact ih
    · obtain ⟨-, -, hrest⟩ | ⟨p, ps, -, -, hrest⟩ := split_cons_of_ne sep hx xs
      · rw [hrest, List.mem_cons, not_or]
        exact ⟨Ne.symm hx, ih⟩
      · rw [hrest]
        exact ih

/-- What is left is at the end. -/
theorem rest_suffix (xs : List α) : rest sep xs <:+ xs :=
  ⟨_, flatten_ended_append_rest sep xs⟩

/-! ## More at the end -/

/-- **What is appended only meets what is left.** -/
theorem splitOn_append (xs ys : List α) :
    (xs ++ ys).splitOn sep = ended sep xs ++ (rest sep xs ++ ys).splitOn sep := by
  induction xs with
  | nil => rw [ended_nil, rest_nil]; rfl
  | cons x xs ih =>
    rw [List.cons_append, List.splitOn_cons_eq_if_modifyHead, ih]
    by_cases hx : x = sep
    · subst hx
      obtain ⟨hended, hrest⟩ := split_cons_self x xs
      rw [if_pos (beq_self_eq_true x), hended, hrest]
      rfl
    · rw [if_neg (by simpa using hx)]
      obtain ⟨hnil, hended, hrest⟩ | ⟨p, ps, hcons, hended, hrest⟩ := split_cons_of_ne sep hx xs
      · rw [hnil, hended, hrest, List.cons_append, List.splitOn_cons_eq_if_modifyHead,
          if_neg (by simpa using hx)]
        rfl
      · rw [hcons, hended, hrest]
        rfl

theorem ended_append (xs ys : List α) :
    ended sep (xs ++ ys) = ended sep xs ++ ended sep (rest sep xs ++ ys) := by
  refine (eq_of_splitOn sep (r := rest sep (rest sep xs ++ ys)) ?_).1
  rw [splitOn_append, List.append_assoc, ended_append_rest]

theorem rest_append (xs ys : List α) : rest sep (xs ++ ys) = rest sep (rest sep xs ++ ys) := by
  refine (eq_of_splitOn (e := ended sep xs ++ ended sep (rest sep xs ++ ys)) sep ?_).2
  rw [splitOn_append, List.append_assoc, ended_append_rest]

theorem notMem_rest_append {ys : List α} (h : sep ∉ ys) (xs : List α) :
    sep ∉ rest sep xs ++ ys := by
  rw [List.mem_append, not_or]
  exact ⟨notMem_rest sep xs, h⟩

/-- As long as no separator comes, nothing is completed. -/
theorem ended_append_of_notMem {ys : List α} (h : sep ∉ ys) (xs : List α) :
    ended sep (xs ++ ys) = ended sep xs := by
  have hnil : ended sep (rest sep xs ++ ys) = [] :=
    ended_of_notMem sep (notMem_rest_append sep h xs)
  rw [ended_append, hnil, List.append_nil]

/-- **A separator completes what was left**, together with what came before it. -/
theorem ended_append_concat {ys : List α} (h : sep ∉ ys) (xs : List α) :
    ended sep (xs ++ (ys ++ [sep])) = ended sep xs ++ [rest sep xs ++ ys] := by
  rw [ended_append, ← List.append_assoc]
  refine congrArg (ended sep xs ++ ·) (eq_of_splitOn sep (r := []) ?_).1
  rw [List.splitOn_append_cons_self_of_not_mem (notMem_rest_append sep h xs)]
  rfl

/-! ## Splitting once -/

section Once

variable (seps : List α)

/-- `str::split_once`: what is before the first occurrence of a list, and what is after
it. -/
def splitOnce : List α → Option (List α × List α)
  | [] => if seps = [] then some ([], []) else none
  | x :: xs =>
    if seps <+: x :: xs then some ([], (x :: xs).drop seps.length)
    else (splitOnce xs).map fun p => (x :: p.1, p.2)

variable {seps} {xs : List α}

/-- The two parts, and what is between them. -/
theorem splitOnce_eq_some {before after : List α} (h : splitOnce seps xs = some (before, after)) :
    xs = before ++ seps ++ after := by
  induction xs generalizing before with
  | nil =>
    rw [splitOnce] at h
    split at h
    case isTrue hnil =>
      obtain ⟨rfl, rfl⟩ := Prod.mk.inj (Option.some.inj h)
      rw [hnil]
      rfl
    case isFalse => exact absurd h (Option.some_ne_none _).symm
  | cons x xs ih =>
    rw [splitOnce] at h
    split at h
    case isTrue hprefix =>
      obtain ⟨rfl, rfl⟩ := Prod.mk.inj (Option.some.inj h)
      rw [List.nil_append]
      exact (List.prefix_append_drop hprefix)
    case isFalse =>
      obtain ⟨⟨before', after'⟩, hsplit, heq⟩ := Option.map_eq_some_iff.mp h
      obtain ⟨rfl, rfl⟩ := Prod.mk.inj heq
      exact congrArg (x :: ·) (ih hsplit)

theorem splitOnce_eq_none_iff : splitOnce seps xs = none ↔ ¬ seps <:+: xs := by
  induction xs with
  | nil =>
    rw [splitOnce, List.infix_nil]
    split
    case isTrue hnil => exact ⟨fun h => absurd h (Option.some_ne_none _), fun h => absurd hnil h⟩
    case isFalse hne => exact ⟨fun _ => hne, fun _ => rfl⟩
  | cons x xs ih =>
    rw [splitOnce, List.infix_cons_iff]
    split
    case isTrue hprefix =>
      exact ⟨fun h => absurd h (Option.some_ne_none _), fun h => absurd (.inl hprefix) h⟩
    case isFalse hprefix =>
      rw [Option.map_eq_none_iff, ih, not_or]
      exact (and_iff_right hprefix).symm

end Once

end Lines
