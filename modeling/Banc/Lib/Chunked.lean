import Mathlib.Data.List.Basic
import Mathlib.Order.Nat
import Mathlib.Tactic.Common

/-!
# Reading exactly, from a stream that comes in pieces

A stream of bytes reaches its reader in pieces of the transport's choosing. One
read returns at most the piece that has arrived, and at most what the reader's
buffer holds; what does not fit is there for the next read. A read may also
return with nothing, to be tried again, and once the stream has ended it
returns no bytes at all.

`readExactStd` and `readExactTokio` are the two loops that fill a buffer from
such a stream: the one of the standard library counts down what is left of the
buffer, the one of tokio compares how full the buffer was before and after each
read. Both return the first bytes of the stream, wherever it is cut into pieces
(`readExactStd_eq`, `readExactTokio_eq`).
-/

namespace Chunked

/-- What one read finds. -/
inductive Delivery where
  /-- At least one byte has arrived. -/
  | bytes (first : UInt8) (more : List UInt8)
  /-- Nothing yet: a blocking read was interrupted, a polled one is pending. -/
  | again
  deriving DecidableEq, Repr

/-- A stream: what its reads find one after the other, and then its end. -/
abbrev Stream := List Delivery

/-- All bytes of a stream. -/
def contents : Stream → List UInt8
  | [] => []
  | .bytes b bs :: t => b :: bs ++ contents t
  | .again :: t => contents t

/-- What did not fit the buffer stays in the stream. -/
def putBack : List UInt8 → Stream → Stream
  | [], t => t
  | b :: bs, t => .bytes b bs :: t

@[simp] theorem contents_nil : contents [] = [] := rfl

@[simp] theorem contents_putBack (bs : List UInt8) (t : Stream) :
    contents (putBack bs t) = bs ++ contents t := by
  cases bs with
  | nil => rfl
  | cons b bs => rfl

/-- `std::io::Read::read_exact`, with `n` bytes of the buffer left to fill. -/
def readExactStd : ℕ → Stream → Option (List UInt8) × Stream
  | 0, t => (some [], t)
  | _ + 1, [] => (none, [])
  | n + 1, .again :: t => readExactStd (n + 1) t
  | n + 1, .bytes b bs :: t =>
    if bs.length ≤ n then
      let r := readExactStd (n - bs.length) t
      (r.1.map (fun rest => b :: bs ++ rest), r.2)
    else (some ((b :: bs).take (n + 1)), putBack ((b :: bs).drop (n + 1)) t)

/-- `tokio::io::AsyncReadExt::read_exact`, into a buffer of `n` bytes the first
of which are `filled`. -/
def readExactTokio (n : ℕ) : List UInt8 → Stream → Option (List UInt8) × Stream
  | filled, [] => if filled.length < n then (none, []) else (some filled, [])
  | filled, d :: t =>
    if filled.length < n then
      match d with
      | .again => readExactTokio n filled t
      | .bytes b bs =>
        if bs.length < n - filled.length then readExactTokio n (filled ++ b :: bs) t
        else (some (filled ++ (b :: bs).take (n - filled.length)),
          putBack ((b :: bs).drop (n - filled.length)) t)
    else (some filled, d :: t)

/-- The first `n` bytes, if there are as many. -/
def exactly (n : ℕ) (bs : List UInt8) : Option (List UInt8) :=
  if bs.length < n then none else some (bs.take n)

/-- Taking more than a piece is taking the piece and then of the rest. -/
theorem exactly_append {n : ℕ} {bs : List UInt8} (h : bs.length ≤ n) (rest : List UInt8) :
    exactly n (bs ++ rest) = (exactly (n - bs.length) rest).map (fun r => bs ++ r) := by
  unfold exactly
  rw [List.length_append, List.take_append, List.take_of_length_le h]
  by_cases hlt : rest.length < n - bs.length
  · rw [if_pos hlt, if_pos (by omega)]
    rfl
  · rw [if_neg hlt, if_neg (by omega)]
    rfl

/-- Taking less than a piece. -/
theorem exactly_append_of_lt {n : ℕ} {bs : List UInt8} (h : n < bs.length)
    (rest : List UInt8) : exactly n (bs ++ rest) = some (bs.take n) := by
  unfold exactly
  rw [if_neg (by rw [List.length_append]; omega),
    List.take_append_of_le_length (Nat.le_of_lt h)]

theorem drop_append_of_le {n : ℕ} {bs : List UInt8} (h : bs.length ≤ n)
    (rest : List UInt8) : (bs ++ rest).drop n = rest.drop (n - bs.length) := by
  rw [List.drop_append, List.drop_eq_nil_of_le h, List.nil_append]

/-- **The loop of the standard library does not see the pieces.** -/
theorem readExactStd_eq (n : ℕ) (t : Stream) :
    (readExactStd n t).1 = exactly n (contents t)
      ∧ contents (readExactStd n t).2 = (contents t).drop n := by
  fun_induction readExactStd n t with
  | case1 t => exact ⟨rfl, rfl⟩
  | case2 n => exact ⟨rfl, rfl⟩
  | case3 n t ih => exact ih
  | case4 n b bs t hle r ih =>
    have hlen : (b :: bs).length ≤ n + 1 := Nat.succ_le_succ hle
    have hsub : n + 1 - (b :: bs).length = n - bs.length := Nat.add_sub_add_right n 1 _
    show (r.1.map _) = exactly (n + 1) (b :: bs ++ contents t)
      ∧ contents r.2 = (b :: bs ++ contents t).drop (n + 1)
    rw [exactly_append hlen, drop_append_of_le hlen, hsub, ← ih.1, ← ih.2]
    exact ⟨rfl, rfl⟩
  | case5 n b bs t hgt =>
    have hlen : n + 1 < (b :: bs).length := Nat.succ_lt_succ (not_le.mp hgt)
    show some ((b :: bs).take (n + 1)) = exactly (n + 1) (b :: bs ++ contents t)
      ∧ contents (putBack ((b :: bs).drop (n + 1)) t) = (b :: bs ++ contents t).drop (n + 1)
    rw [exactly_append_of_lt hlen, contents_putBack, List.drop_append_of_le_length hlen.le]
    exact ⟨rfl, rfl⟩

/-- The loop of tokio, its buffer filled in part. -/
theorem readExactTokio_filled {n : ℕ} (filled : List UInt8) (t : Stream)
    (hfilled : filled.length ≤ n) :
    (readExactTokio n filled t).1 = exactly n (filled ++ contents t)
      ∧ contents (readExactTokio n filled t).2 = (filled ++ contents t).drop n := by
  fun_induction readExactTokio n filled t with
  | case1 filled hlt =>
    rw [contents_nil, List.append_nil, exactly, if_pos hlt, List.drop_eq_nil_of_le hlt.le]
    exact ⟨rfl, rfl⟩
  | case2 filled hge =>
    have hlen : filled.length = n := le_antisymm hfilled (not_lt.mp hge)
    rw [contents_nil, List.append_nil, exactly, if_neg hge, List.take_of_length_le hlen.le,
      List.drop_eq_nil_of_le hlen.le]
    exact ⟨rfl, rfl⟩
  | case3 filled t hlt ih => exact ih hfilled
  | case4 filled t hlt b bs hfits ih =>
    have hnext : (filled ++ b :: bs).length ≤ n := by
      rw [List.length_append, List.length_cons]
      omega
    have := ih hnext
    rwa [List.append_assoc] at this
  | case5 filled t hlt b bs hfits =>
    have hpiece : n - filled.length ≤ (b :: bs).length := by
      rw [List.length_cons]
      omega
    show some (filled ++ (b :: bs).take (n - filled.length))
        = exactly n (filled ++ (b :: bs ++ contents t))
      ∧ contents (putBack ((b :: bs).drop (n - filled.length)) t)
        = (filled ++ (b :: bs ++ contents t)).drop n
    have hdone : exactly (n - filled.length) (b :: bs ++ contents t)
        = some ((b :: bs).take (n - filled.length)) := by
      rw [exactly, if_neg (by rw [List.length_append]; omega),
        List.take_append_of_le_length hpiece]
    rw [exactly_append hfilled, drop_append_of_le hfilled, hdone, contents_putBack,
      List.drop_append_of_le_length hpiece]
    exact ⟨rfl, rfl⟩
  | case6 filled d t hge =>
    have hlen : filled.length = n := le_antisymm hfilled (not_lt.mp hge)
    rw [exactly_append hfilled, drop_append_of_le hfilled, hlen, Nat.sub_self]
    refine ⟨?_, rfl⟩
    show some filled = some (filled ++ [])
    rw [List.append_nil]

/-- **Nor does the loop of tokio.** -/
theorem readExactTokio_eq (n : ℕ) (t : Stream) :
    (readExactTokio n [] t).1 = exactly n (contents t)
      ∧ contents (readExactTokio n [] t).2 = (contents t).drop n :=
  readExactTokio_filled [] t (Nat.zero_le n)

end Chunked
