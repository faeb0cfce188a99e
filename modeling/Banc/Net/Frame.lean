import Mathlib.Algebra.Group.Nat.Defs
import Mathlib.Order.Nat
import Mathlib.Tactic.Common

/-!
# Frames

The framing of `banc-host/src/net/mod.rs`, both directions of every
connection: a 4-byte little-endian length, then that many bytes. The
functions on a tokio stream and on a blocking one do the same thing in the
same order, so each pair is one definition.

A reader is described by what had arrived when it stopped. `readExact` takes
its bytes off the front of that; if there are too few, it has consumed them
all the same, and it fails – because the peer hung up, or because the read
timed out. What is left over after a failed `readFrame` need therefore not
begin at a frame.

A length is written as a `u32` whatever it is, so the length field of an
oversized frame is its length modulo 2³². `readFrame_take_frame` says what a
reader makes of any frame whatsoever, cut anywhere.
-/

namespace Banc

/-- `MAX_FRAME`: upper bound on a single frame. -/
def maxFrame : ℕ := 256 * 1024

/-- `(n as u32).to_le_bytes()`. -/
def lengthPrefix (n : ℕ) : List UInt8 :=
  [UInt8.ofNat n, UInt8.ofNat (n / 256), UInt8.ofNat (n / 65536),
    UInt8.ofNat (n / 16777216)]

/-- `u32::from_le_bytes`, of the four bytes `readExact` returns. -/
def prefixLength : List UInt8 → ℕ
  | [] => 0
  | b :: bs => b.toNat + 256 * prefixLength bs

/-- The bytes of one frame. -/
def frame (data : List UInt8) : List UInt8 := lengthPrefix data.length ++ data

/-- `write_frame` and `write_frame_sync`: what is written, `none` where the
`debug_assert!` panics. -/
def writeFrame (debugAssertions : Bool) (data : List UInt8) :
    Option (List UInt8) :=
  if debugAssertions && decide (maxFrame < data.length) then none
  else some (frame data)

/-- Why a frame was not read. -/
inductive FrameError where
  /-- Not enough bytes arrived: end of stream, or a timeout. -/
  | short
  /-- `frame of {len} bytes exceeds MAX_FRAME`. -/
  | tooLong (len : ℕ)
  deriving DecidableEq, Repr

/-- `read_exact`: `n` bytes off the front of what has arrived, and what is
left. Where there are not enough of them, all are gone. -/
def readExact (n : ℕ) (bs : List UInt8) :
    Except FrameError (List UInt8) × List UInt8 :=
  if bs.length < n then (.error .short, []) else (.ok (bs.take n), bs.drop n)

/-- `read_frame` and `read_frame_sync`: the outcome, and the bytes left
unread. -/
def readFrame (bs : List UInt8) : Except FrameError (List UInt8) × List UInt8 :=
  match readExact 4 bs with
  | (.error e, rest) => (.error e, rest)
  | (.ok len, rest) =>
    if maxFrame < prefixLength len then
      (.error (.tooLong (prefixLength len)), rest)
    else readExact (prefixLength len) rest

@[simp] theorem length_lengthPrefix (n : ℕ) : (lengthPrefix n).length = 4 := rfl

@[simp] theorem length_frame (data : List UInt8) :
    (frame data).length = 4 + data.length := by
  rw [frame, List.length_append, length_lengthPrefix]

theorem writeFrame_eq_some {debugAssertions : Bool} {data bs : List UInt8}
    (h : writeFrame debugAssertions data = some bs) : bs = frame data := by
  rw [writeFrame] at h
  split at h
  · simp at h
  · exact (Option.some.inj h).symm

/-- The length field wraps around. -/
theorem prefixLength_lengthPrefix (n : ℕ) :
    prefixLength (lengthPrefix n) = n % 2 ^ 32 := by
  simp only [lengthPrefix, prefixLength, UInt8.toNat_ofNat']
  omega

theorem readExact_append {n : ℕ} {bs : List UInt8} (h : bs.length = n)
    (rest : List UInt8) : readExact n (bs ++ rest) = (.ok bs, rest) := by
  subst h
  simp [readExact]

theorem readExact_suffix {n : ℕ} {bs : List UInt8} : (readExact n bs).2 <:+ bs := by
  unfold readExact
  split
  · exact List.nil_suffix
  · exact List.drop_suffix n bs

/-- A reader takes its bytes off the front. -/
theorem readFrame_suffix {bs : List UInt8} : (readFrame bs).2 <:+ bs := by
  have hlen : (readExact 4 bs).2 <:+ bs := readExact_suffix
  unfold readFrame
  split
  · rename_i hread
    rwa [hread] at hlen
  · rename_i hread
    rw [hread] at hlen
    split
    · exact hlen
    · exact readExact_suffix.trans hlen

/-- What a payload and the rest were read from. -/
theorem length_of_readFrame {bs data rest : List UInt8}
    (h : readFrame bs = (.ok data, rest)) :
    bs.length = 4 + data.length + rest.length := by
  by_cases hbs : bs.length < 4
  · rw [readFrame, readExact, if_pos hbs] at h
    simp at h
  · rw [readFrame, readExact, if_neg hbs] at h
    dsimp only at h
    split at h
    · simp at h
    · rw [readExact] at h
      split at h
      · simp at h
      · rename_i hlen
        obtain ⟨rfl, rfl⟩ := by
          simpa only [Prod.mk.injEq, Except.ok.injEq] using h
        simp only [List.length_take, List.length_drop] at hlen ⊢
        omega

/-- **What a reader makes of the beginning of a frame.** If it returns a
payload at all, that is the one written, the whole frame having arrived, or
a strict prefix of it, the length field having wrapped around. -/
theorem readFrame_take_frame {data payload rest : List UInt8} {n : ℕ}
    (h : readFrame ((frame data).take n) = (.ok payload, rest)) :
    (payload = data ∧ rest = [] ∧ 4 + data.length ≤ n)
      ∨ ∃ k < data.length, payload = data.take k := by
  rw [frame, List.take_append, length_lengthPrefix] at h
  by_cases hn : n < 4
  · rw [Nat.sub_eq_zero_of_le hn.le, List.take_zero, List.append_nil, readFrame,
      readExact, if_pos (by rw [List.length_take, length_lengthPrefix]; omega)] at h
    simp at h
  · rw [List.take_of_length_le (by rw [length_lengthPrefix]; omega), readFrame,
      readExact_append (length_lengthPrefix _)] at h
    simp only [prefixLength_lengthPrefix] at h
    have hle : data.length % 2 ^ 32 ≤ data.length := Nat.mod_le _ _
    generalize data.length % 2 ^ 32 = len at h hle
    split at h
    · simp at h
    · rw [readExact] at h
      split at h
      · simp at h
      · rename_i hlen
        rw [List.length_take] at hlen
        simp only [Prod.mk.injEq, Except.ok.injEq, List.take_take] at h
        obtain ⟨rfl, rfl⟩ := h
        by_cases hlt : len < data.length
        · exact .inr ⟨len, hlt, by rw [min_eq_left (by omega)]⟩
        · refine .inl ⟨List.take_of_length_le (by omega), ?_, by omega⟩
          exact List.drop_eq_nil_of_le (by rw [List.length_take]; omega)

/-- **A frame within the limit reads back**, and leaves the stream at the
next one. -/
theorem readFrame_frame {data : List UInt8} (h : data.length ≤ maxFrame)
    (rest : List UInt8) : readFrame (frame data ++ rest) = (.ok data, rest) := by
  have hmod : data.length % 2 ^ 32 = data.length :=
    Nat.mod_eq_of_lt (h.trans_lt (by decide : maxFrame < 2 ^ 32))
  rw [frame, List.append_assoc, readFrame,
    readExact_append (length_lengthPrefix _)]
  simp only [prefixLength_lengthPrefix, hmod, if_neg (not_lt.mpr h)]
  exact readExact_append rfl rest

/-- **A frame that has not arrived whole is not read**, and all of it that has
is gone. -/
theorem readFrame_take_of_lt {data : List UInt8} (h : data.length ≤ maxFrame) {n : ℕ}
    (hn : n < (frame data).length) :
    readFrame ((frame data).take n) = (.error .short, []) := by
  rw [length_frame] at hn
  rw [frame, List.take_append, length_lengthPrefix]
  by_cases hcut : n < 4
  · have hshort : ((lengthPrefix data.length).take n).length < 4 := by
      rw [List.length_take, length_lengthPrefix]
      omega
    rw [Nat.sub_eq_zero_of_le hcut.le, List.take_zero, List.append_nil, readFrame,
      readExact, if_pos hshort]
  · have hmod : data.length % 2 ^ 32 = data.length :=
      Nat.mod_eq_of_lt (h.trans_lt (by decide : maxFrame < 2 ^ 32))
    have hshort : (data.take (n - 4)).length < data.length := by
      rw [List.length_take]
      omega
    rw [List.take_of_length_le (by rw [length_lengthPrefix]; omega), readFrame,
      readExact_append (length_lengthPrefix _)]
    simp only [prefixLength_lengthPrefix, hmod, if_neg (not_lt.mpr h)]
    rw [readExact, if_pos hshort]

/-- A frame that has arrived stays what it is when more arrives. -/
theorem readFrame_append {bs data rest : List UInt8} (h : readFrame bs = (.ok data, rest))
    (more : List UInt8) : readFrame (bs ++ more) = (.ok data, rest ++ more) := by
  have hexact {n : ℕ} {bs rest taken : List UInt8}
      (h : readExact n bs = (.ok taken, rest)) :
      readExact n (bs ++ more) = (.ok taken, rest ++ more) := by
    rw [readExact] at h ⊢
    split at h
    · simp at h
    · rename_i hlen
      rw [not_lt] at hlen
      simp only [Prod.mk.injEq, Except.ok.injEq] at h
      obtain ⟨rfl, rfl⟩ := h
      rw [if_neg (by rw [List.length_append]; omega), List.take_append_of_le_length hlen,
        List.drop_append_of_le_length hlen]
  rw [readFrame] at h ⊢
  cases hread : readExact 4 bs with
  | mk outcome left =>
    rw [hread] at h
    cases outcome with
    | error e => simp at h
    | ok len =>
      rw [hexact hread]
      dsimp only at h ⊢
      split at h
      · simp at h
      · rename_i hle
        rw [if_neg hle]
        exact hexact h

/-- **A payload is read from its frame**, and from nothing else. -/
theorem readFrame_eq_ok {bs data rest : List UInt8} :
    readFrame bs = (.ok data, rest) ↔ data.length ≤ maxFrame ∧ bs = frame data ++ rest := by
  refine ⟨fun h => ?_, fun ⟨hdata, hbs⟩ => hbs ▸ readFrame_frame hdata rest⟩
  have hlen : ∀ len : List UInt8, len.length = 4 → len = lengthPrefix (prefixLength len) := by
    intro len hlen
    match len, hlen with
    | [b₀, b₁, b₂, b₃], _ =>
      have h₀ := b₀.toNat_lt
      have h₁ := b₁.toNat_lt
      have h₂ := b₂.toNat_lt
      have h₃ := b₃.toNat_lt
      simp only [prefixLength, lengthPrefix, List.cons.injEq, ← UInt8.toNat_inj,
        UInt8.toNat_ofNat', and_true]
      omega
  by_cases h4 : bs.length < 4
  · rw [readFrame, readExact, if_pos h4] at h
    exact absurd (Prod.mk.inj h).1 nofun
  · rw [readFrame, readExact, if_neg h4] at h
    dsimp only at h
    split at h
    · exact absurd (Prod.mk.inj h).1 nofun
    · rename_i hmax
      rw [readExact] at h
      split at h
      · exact absurd (Prod.mk.inj h).1 nofun
      · rename_i hall
        obtain ⟨hdata, rfl⟩ := Prod.mk.inj h
        obtain rfl := Except.ok.inj hdata
        have hlength : ((bs.drop 4).take (prefixLength (bs.take 4))).length
            = prefixLength (bs.take 4) := by
          rw [List.length_take, Nat.min_eq_left (not_lt.mp hall)]
        rw [hlength, frame, hlength, ← hlen _ (List.length_take_of_le (not_lt.mp h4)),
          List.append_assoc, List.take_append_drop, List.take_append_drop]
        exact ⟨not_lt.mp hmax, rfl⟩

end Banc
