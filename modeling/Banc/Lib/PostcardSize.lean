import Banc.Lib.Postcard

/-!
# How long a message is

Two questions about the lengths of postcard messages. How long is an encoding:
a varint takes a byte for every seven bits, so its length grows with the number
(`length_varint_mono`) and is at most what the width of the integer allows. And
how long must a byte string be for a reader to find a value in it: never shorter
than the value's own encoding, for a reader may be given a longer encoding than
the canonical one, or bytes it does not use, but not a shorter one (`Takes`).
Like `Reads`, that composes field by field.
-/

namespace Postcard

variable {α β : Type}

/-! ## Varints -/

/-- A number takes a byte at least. -/
theorem length_varint_pos {k n : ℕ} (hk : 0 < k) : 0 < (varint k n).length := by
  cases k with
  | zero => exact absurd hk (lt_irrefl 0)
  | succ k =>
    rw [varint]
    split <;> exact Nat.succ_pos _

/-- And no more than there are for it. -/
theorem length_varint_le (k n : ℕ) : (varint k n).length ≤ k := by
  induction k generalizing n with
  | zero => exact le_rfl
  | succ k ih =>
    rw [varint]
    split
    · exact Nat.succ_le_succ (Nat.zero_le k)
    · exact Nat.succ_le_succ (ih _)

/-- **A larger number does not take fewer bytes.** -/
theorem length_varint_mono (k : ℕ) {m n : ℕ} (h : m ≤ n) :
    (varint k m).length ≤ (varint k n).length := by
  induction k generalizing m n with
  | zero => exact le_rfl
  | succ k ih =>
    by_cases hm : m < 128
    · rw [show varint (k + 1) m = [UInt8.ofNat m] from if_pos hm]
      exact length_varint_pos (Nat.succ_pos k)
    · have hn : ¬ n < 128 := fun hn => hm (h.trans_lt hn)
      rw [varint, varint, if_neg hm, if_neg hn]
      exact Nat.succ_le_succ (ih (Nat.div_le_div_right h))

/-- A small one takes one. -/
theorem length_varint_one {k n : ℕ} (hk : 0 < k) (hn : n < 128) :
    (varint k n).length = 1 := by
  cases k with
  | zero => exact absurd hk (lt_irrefl 0)
  | succ k =>
    rw [varint, if_pos hn]
    rfl

/-- For seven bits more, another. -/
theorem length_varint_succ {k n : ℕ} (hn : 128 ≤ n) :
    (varint (k + 1) n).length = (varint k (n / 128)).length + 1 := by
  rw [varint, if_neg (not_lt.mpr hn)]
  rfl

/-- Fourteen bits take two bytes. -/
theorem length_varint_two {k n : ℕ} (hk : 1 < k) (hlo : 128 ≤ n) (hhi : n < 16384) :
    (varint k n).length = 2 := by
  obtain ⟨k, rfl⟩ : ∃ l, k = l + 1 := ⟨k - 1, by omega⟩
  rw [length_varint_succ hlo, length_varint_one (by omega) (by omega)]

/-- Twenty-one bits take three bytes. -/
theorem length_varint_three {k n : ℕ} (hk : 2 < k) (hlo : 16384 ≤ n) (hhi : n < 2097152) :
    (varint k n).length = 3 := by
  obtain ⟨k, rfl⟩ : ∃ l, k = l + 1 := ⟨k - 1, by omega⟩
  rw [length_varint_succ (by omega), length_varint_two (by omega) (by omega) (by omega)]

/-- A string takes its bytes, and those of its length. -/
theorem length_string (s : String) :
    (string s).length = (varint 10 (utf8 s).length).length + (utf8 s).length := by
  rw [string, List.length_append]

/-! ## What a reader takes -/

/-- **What `p` reads is no longer than what it takes**: a value of `size a`
bytes is read off at least as many, `already` of which have been taken. -/
def Takes (already : ℕ) (p : Reader α) (size : α → ℕ) : Prop :=
  ∀ bs a rest, p.run bs = some (a, rest) → rest.length + size a ≤ bs.length + already

/-- Readers one after the other, the second given what the first is known to
yield. -/
theorem Takes.bind_of_yields {already : ℕ} {p : Reader α} {q : α → Reader β} {P : α → Prop}
    {size : α → ℕ} {size' : β → ℕ} (hp : Takes 0 p size) (hP : Yields p P)
    (hq : ∀ a, P a → Takes (already + size a) (q a) size') :
    Takes already (p >>= q) size' := by
  intro bs b rest h
  rw [StateT.run_bind] at h
  obtain ⟨⟨a, mid⟩, ha, hb⟩ := Option.bind_eq_some_iff.mp h
  have hmid := hp bs a mid ha
  have hrest := hq a (hP bs a mid ha) mid b rest hb
  omega

/-- One after the other takes what both take. -/
theorem Takes.bind {already : ℕ} {p : Reader α} {q : α → Reader β} {size : α → ℕ}
    {size' : β → ℕ} (hp : Takes 0 p size)
    (hq : ∀ a, Takes (already + size a) (q a) size') : Takes already (p >>= q) size' :=
  hp.bind_of_yields (Yields.of_forall (fun _ => trivial) p) (fun a _ => hq a)

/-- What is known takes no more. -/
theorem Takes.pure {already : ℕ} {a : α} {size : α → ℕ} (h : size a ≤ already) :
    Takes already (pure a) size := by
  intro bs b rest hrun
  obtain ⟨rfl, rfl⟩ := Prod.mk.inj (Option.some.inj hrun)
  exact Nat.add_le_add_left h _

/-- A check takes none. -/
theorem Takes.lift {already : ℕ} {o : Option α} {size : α → ℕ}
    (h : ∀ a ∈ o, size a ≤ already) : Takes already (lift o) size := by
  intro bs b rest hrun
  obtain ⟨a, ha, hpair⟩ := Option.map_eq_some_iff.mp hrun
  obtain ⟨rfl, rfl⟩ := Prod.mk.inj hpair
  exact Nat.add_le_add_left (h a ha) _

/-- **What decodes is no longer than what it was decoded from.** -/
theorem Takes.fromBytes {p : Reader α} {size : α → ℕ} (h : Takes 0 p size) {bs : List UInt8}
    {a : α} (hdecode : fromBytes p bs = some a) : size a ≤ bs.length := by
  obtain ⟨⟨a, rest⟩, hrun, rfl⟩ := Option.map_eq_some_iff.mp hdecode
  have hsize := h bs a rest hrun
  show size a ≤ bs.length
  omega

/-- A byte takes a byte. -/
theorem takes_byte : Takes 0 byte (fun _ => 1) := by
  intro bs a rest h
  cases bs with
  | nil => exact absurd h (by simp [byte, StateT.run])
  | cons b bs =>
    obtain ⟨-, rfl⟩ := Prod.mk.inj (Option.some.inj h)
    exact le_rfl

/-- So many take so many. -/
theorem takes_bytes (n : ℕ) : Takes 0 (bytes n) List.length := by
  intro bs a rest h
  change (if bs.length < n then none else some (bs.take n, bs.drop n)) = some (a, rest) at h
  split at h
  · simp at h
  · obtain ⟨rfl, rfl⟩ := Prod.mk.inj (Option.some.inj h)
    rw [List.length_drop, List.length_take]
    omega

/-- A varint may be read off a longer encoding, never off a shorter one. -/
theorem takes_varint (k : ℕ) : Takes 0 (readVarint k) (fun n => (varint k n).length) := by
  induction k with
  | zero => exact Takes.lift (fun _ hnone => by simp at hnone)
  | succ k ih =>
    rw [readVarint]
    refine takes_byte.bind (fun b => ?_)
    split
    · rename_i hlt
      exact Takes.pure (length_varint_one (Nat.succ_pos k) hlt).le
    · rename_i hge
      refine ih.bind (fun m => Takes.pure ?_)
      have hb := b.toNat_lt
      -- the number is at most `128 * m` and what fits below
      by_cases hsmall : b.toNat - 128 + 128 * m < 128
      · rw [length_varint_one (Nat.succ_pos k) hsmall]
        omega
      · have hdiv : (b.toNat - 128 + 128 * m) / 128 = m := by omega
        rw [length_varint_succ (not_lt.mp hsmall), hdiv]
        omega

/-- A number that was read would not take more than it did: it may have been written longer than
it had to be. -/
theorem takes_uint (k bits : ℕ) :
    Takes 0 (readUint k bits) (fun n => (varint k n).length) := by
  refine (takes_varint k).bind (fun n => Takes.lift (fun m hm => ?_))
  split at hm
  · obtain rfl := Option.some.inj hm
    exact (Nat.zero_add _).ge
  · simp at hm

/-- Of 32 bits. -/
theorem takes_u32 : Takes 0 readU32 (fun n => (u32 n).length) := by
  refine (takes_uint 5 32).bind (fun n => Takes.pure ?_)
  rw [u32, UInt32.toNat_ofNat', Nat.zero_add]
  exact length_varint_mono 5 (Nat.mod_le _ _)

/-- Of 64. -/
theorem takes_u64 : Takes 0 readU64 (fun n => (u64 n).length) := by
  refine (takes_uint 10 64).bind (fun n => Takes.pure ?_)
  rw [u64, UInt64.toNat_ofNat', Nat.zero_add]
  exact length_varint_mono 10 (Nat.mod_le _ _)

/-- And a string likewise. -/
theorem takes_string : Takes 0 readString (fun s => (string s).length) := by
  refine (takes_uint 10 64).bind (fun n => ?_)
  refine (takes_bytes n).bind_of_yields (yields_bytes n) (fun bs hbs => ?_)
  refine Takes.lift (fun s hs => ?_)
  rw [length_string, utf8_of_fromUTF8? hs, hbs, Nat.zero_add]

end Postcard
