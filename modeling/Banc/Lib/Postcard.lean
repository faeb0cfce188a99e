import Mathlib.Algebra.Group.Nat.Defs
import Mathlib.Data.Nat.Log
import Mathlib.Tactic.Common

/-!
# Reading bytes back exactly

A reader takes bytes off the front of a byte string, or fails. What makes an
encoding safe to put on a stream is not only that it reads back, but that it
reads back *exactly*: `Reads p bs a` says that the reader `p` takes `bs` off
any longer byte string and returns `a`, and that it fails on every strict
prefix of `bs`. Such readers compose (`Reads.bind`), so a message format is
exact once its fields are.

The fields provided here are the ones of the postcard format: bytes, LEB128
varints, length-prefixed UTF-8 strings and options.

`Yields p P` is what can be said of a reader on arbitrary bytes: whatever it
returns satisfies `P`.
-/

namespace Postcard

/-- A reader of values from the front of a byte string. -/
abbrev Reader := StateT (List UInt8) Option

variable {α β : Type}

/-- **`p` reads `bs` as `a`**, and nothing less. -/
structure Reads (p : Reader α) (bs : List UInt8) (a : α) : Prop where
  /-- It takes exactly `bs` off any byte string that begins with it. -/
  whole : ∀ rest, p.run (bs ++ rest) = some (a, rest)
  /-- It fails on every strict prefix. -/
  cut : ∀ n < bs.length, p.run (bs.take n) = none

/-- What is known is read from nothing. -/
theorem Reads.pure (a : α) : Reads (pure a) [] a :=
  ⟨fun _ => rfl, fun _ hn => absurd hn (Nat.not_lt_zero _)⟩

/-- **Exact readers compose.** -/
theorem Reads.bind {p : Reader α} {q : α → Reader β} {bs cs : List UInt8}
    {a : α} {b : β} (hp : Reads p bs a) (hq : Reads (q a) cs b) :
    Reads (p >>= q) (bs ++ cs) b := by
  constructor
  · intro rest
    rw [StateT.run_bind, List.append_assoc, hp.whole]
    exact hq.whole rest
  · intro n hn
    rw [StateT.run_bind, List.take_append]
    by_cases hlt : n < bs.length
    · rw [Nat.sub_eq_zero_of_le hlt.le, List.take_zero, List.append_nil, hp.cut n hlt]
      rfl
    · have hle := not_lt.mp hlt
      rw [List.take_of_length_le hle, hp.whole]
      rw [List.length_append] at hn
      exact hq.cut _ (by omega)

/-- A reader that looks no further: the last field of a message. -/
theorem Reads.last {p : Reader α} {q : α → Reader β} {bs : List UInt8} {a : α}
    {b : β} (hp : Reads p bs a) (hq : Reads (q a) [] b) :
    Reads (p >>= q) bs b := by
  have h := hp.bind hq
  rwa [List.append_nil] at h

/-- And may be made into something else. -/
theorem Reads.map {p : Reader α} {bs : List UInt8} {a : α} (hp : Reads p bs a)
    (f : α → β) : Reads (p >>= fun x => Pure.pure (f x)) bs (f a) :=
  hp.last (Reads.pure (f a))

/-- Whatever `p` reads satisfies `P`. -/
def Yields (p : Reader α) (P : α → Prop) : Prop :=
  ∀ bs a rest, p.run bs = some (a, rest) → P a

/-- What is read second may depend on what was read first. -/
theorem Yields.bind {p : Reader α} {q : α → Reader β} {P : α → Prop}
    {Q : β → Prop} (hp : Yields p P) (hq : ∀ a, P a → Yields (q a) Q) :
    Yields (p >>= q) Q := by
  intro bs b rest h
  rw [StateT.run_bind] at h
  obtain ⟨⟨a, mid⟩, ha, hb⟩ := Option.bind_eq_some_iff.mp h
  exact hq a (hp bs a mid ha) mid b rest hb

/-- What holds of everything holds of what is read. -/
theorem Yields.of_forall {P : α → Prop} (h : ∀ a, P a) (p : Reader α) :
    Yields p P :=
  fun _ a _ _ => h a

/-- And of what is known. -/
theorem Yields.pure {P : α → Prop} {a : α} (h : P a) : Yields (pure a) P := by
  intro bs b rest hrun
  obtain ⟨rfl, -⟩ := Prod.mk.inj (Option.some.inj hrun)
  exact h

/-- Decode a byte string; what a message does not use of it is ignored. -/
def fromBytes (p : Reader α) (bs : List UInt8) : Option α :=
  (p.run bs).map Prod.fst

/-- **What was written is read back.** -/
theorem Reads.fromBytes {p : Reader α} {bs : List UInt8} {a : α}
    (h : Reads p bs a) : fromBytes p bs = some a := by
  have hrun := h.whole []
  rw [List.append_nil] at hrun
  rw [Postcard.fromBytes, hrun]
  rfl

/-- What is read from bytes is something that may be read. -/
theorem Yields.fromBytes {p : Reader α} {P : α → Prop} (hp : Yields p P)
    {bs : List UInt8} {a : α} (h : fromBytes p bs = some a) : P a := by
  obtain ⟨⟨a, rest⟩, hrun, rfl⟩ := Option.map_eq_some_iff.mp h
  exact hp bs a rest hrun

/-- **Of a strict prefix nothing is read.** -/
theorem Reads.fromBytes_take {p : Reader α} {bs : List UInt8} {a : α}
    (h : Reads p bs a) {n : ℕ} (hn : n < bs.length) :
    Postcard.fromBytes p (bs.take n) = none := by
  rw [Postcard.fromBytes, h.cut n hn]
  rfl

/-! ## Bytes -/

/-- Read one byte. -/
def byte : Reader UInt8 := fun
  | [] => none
  | b :: bs => some (b, bs)

/-- A byte is read as it is. -/
theorem reads_byte (b : UInt8) : Reads byte [b] b := by
  refine ⟨fun _ => rfl, fun n hn => ?_⟩
  obtain rfl : n = 0 := by simpa using hn
  rfl

/-- Read `n` bytes. -/
def bytes (n : ℕ) : Reader (List UInt8) := fun bs =>
  if bs.length < n then none else some (bs.take n, bs.drop n)

/-- And so are so many of them. -/
theorem reads_bytes (bs : List UInt8) : Reads (bytes bs.length) bs bs := by
  refine ⟨fun rest => ?_, fun n hn => ?_⟩
  · show (if _ then none else some _) = _
    simp
  · show (if _ then none else some _) = _
    rw [if_pos (List.length_take_le n bs |>.trans_lt hn)]

/-- Fail, or go on with a value. -/
def lift (o : Option α) : Reader α := fun bs => o.map (fun a => (a, bs))

/-- A check of what has been read takes no bytes. -/
theorem reads_lift {o : Option α} {a : α} (h : o = some a) : Reads (lift o) [] a := by
  subst h
  exact Reads.pure a

/-- As many as were asked for. -/
theorem yields_bytes (n : ℕ) : Yields (bytes n) (fun bs => bs.length = n) := by
  intro bs taken rest h
  change (if bs.length < n then none else some (bs.take n, bs.drop n))
    = some (taken, rest) at h
  split at h
  · simp at h
  · obtain ⟨rfl, -⟩ := Prod.mk.inj (Option.some.inj h)
    rw [List.length_take]
    omega

/-- And only what passes it is yielded. -/
theorem yields_lift {o : Option α} {P : α → Prop} (h : ∀ a ∈ o, P a) :
    Yields (lift o) P := by
  intro bs a rest hrun
  obtain ⟨b, hb, hpair⟩ := Option.map_eq_some_iff.mp hrun
  obtain ⟨rfl, -⟩ := Prod.mk.inj hpair
  exact h b hb

/-! ## Varints -/

/-- The LEB128 encoding of a number in at most `k` bytes: seven bits a byte,
low bits first, the top bit set on all bytes but the last. -/
def varint : ℕ → ℕ → List UInt8
  | 0, _ => []
  | k + 1, n =>
    if n < 128 then [UInt8.ofNat n]
    else UInt8.ofNat (n % 128 + 128) :: varint k (n / 128)

/-- Read a varint of at most `k` bytes. -/
def readVarint : ℕ → Reader ℕ
  | 0 => lift none
  | k + 1 => do
    let b ← byte
    if b.toNat < 128 then pure b.toNat
    else do
      let m ← readVarint k
      pure (b.toNat - 128 + 128 * m)

/-- A number that so many bytes have room for is read back. By induction on the bytes, of which
each has seven bits of it. -/
theorem reads_varint {k n : ℕ} (hk : 0 < k) (hn : n < 128 ^ k) :
    Reads (readVarint k) (varint k n) n := by
  induction k generalizing n with
  | zero => exact absurd hk (lt_irrefl 0)
  | succ k ih =>
    rw [varint, readVarint]
    by_cases h : n < 128
    · have hb : (UInt8.ofNat n).toNat = n := by
        rw [UInt8.toNat_ofNat']
        exact Nat.mod_eq_of_lt (by omega)
      rw [if_pos h]
      refine (reads_byte _).last ?_
      rw [hb, if_pos h]
      exact Reads.pure n
    · have hb : (UInt8.ofNat (n % 128 + 128)).toNat = n % 128 + 128 := by
        rw [UInt8.toNat_ofNat']
        exact Nat.mod_eq_of_lt (by omega)
      have hk' : 0 < k := by
        by_contra hk0
        obtain rfl : k = 0 := by omega
        rw [Nat.zero_add, Nat.pow_one] at hn
        exact h hn
      have hdiv : n / 128 < 128 ^ k := by
        rw [Nat.div_lt_iff_lt_mul (by decide), ← Nat.pow_succ]
        exact hn
      rw [if_neg h]
      refine (reads_byte _).bind ?_
      rw [hb, if_neg (by omega)]
      have hvalue : n % 128 + 128 - 128 + 128 * (n / 128) = n := by omega
      have hread := (ih hk' hdiv).map (fun m => n % 128 + 128 - 128 + 128 * m)
      rwa [hvalue] at hread

/-- Read a varint of a fixed-width integer: at most `k` bytes, and the value
fits the width. -/
def readUint (k bits : ℕ) : Reader ℕ := do
  let n ← readVarint k
  lift (if n < 2 ^ bits then some n else none)

/-- A number of so many bits. -/
theorem reads_uint {k bits n : ℕ} (hk : 0 < k) (hbits : 2 ^ bits ≤ 128 ^ k)
    (hn : n < 2 ^ bits) : Reads (readUint k bits) (varint k n) n :=
  (reads_varint hk (hn.trans_le hbits)).last (reads_lift (if_pos hn))

/-- And no other is read. -/
theorem yields_uint (k bits : ℕ) : Yields (readUint k bits) (fun n => n < 2 ^ bits) := by
  refine (Yields.of_forall (P := fun _ => True) (fun _ => trivial) _).bind ?_
  intro n _
  refine yields_lift (fun m hm => ?_)
  split at hm
  · rename_i hlt
    obtain rfl := Option.some.inj hm
    exact hlt
  · simp at hm

/-- The index of an enum variant reads back. -/
theorem reads_tag (n : ℕ) (hn : n < 2 ^ 32) : Reads (readUint 5 32) (varint 5 n) n :=
  reads_uint (by decide) (by decide) hn

/-- A `u32`. -/
def u32 (n : UInt32) : List UInt8 := varint 5 n.toNat

/-- Read a `u32`. -/
def readU32 : Reader UInt32 := do
  let n ← readUint 5 32
  pure (UInt32.ofNat n)

/-- Of 32 bits. -/
theorem reads_u32 (n : UInt32) : Reads readU32 (u32 n) n := by
  have h := (reads_uint (by decide : 0 < 5) (by decide) n.toNat_lt).map UInt32.ofNat
  rwa [UInt32.ofNat_toNat] at h

/-- A `u64`. -/
def u64 (n : UInt64) : List UInt8 := varint 10 n.toNat

/-- Read a `u64`. -/
def readU64 : Reader UInt64 := do
  let n ← readUint 10 64
  pure (UInt64.ofNat n)

/-- Of 64. -/
theorem reads_u64 (n : UInt64) : Reads readU64 (u64 n) n := by
  have h := (reads_uint (by decide : 0 < 10) (by decide) n.toNat_lt).map UInt64.ofNat
  rwa [UInt64.ofNat_toNat] at h

/-! ## Strings and options -/

/-- The UTF-8 bytes of a string. -/
def utf8 (s : String) : List UInt8 := s.toUTF8.data.toList

/-- A string: the number of its UTF-8 bytes, and the bytes. -/
def string (s : String) : List UInt8 := varint 10 (utf8 s).length ++ utf8 s

/-- Read a string. -/
def readString : Reader String := do
  let n ← readUint 10 64
  let bs ← bytes n
  lift (String.fromUTF8? ⟨bs.toArray⟩)

/-- The bytes of a string are those of that string. -/
theorem fromUTF8?_utf8 (s : String) :
    String.fromUTF8? ⟨(utf8 s).toArray⟩ = some s := by
  show String.fromUTF8? s.toUTF8 = some s
  simp only [String.fromUTF8?, String.toUTF8_eq_toByteArray,
    dif_pos s.isValidUTF8]
  rfl

/-- So no two strings have the same. -/
theorem utf8_inj {s t : String} : utf8 s = utf8 t ↔ s = t := by
  refine ⟨fun h => ?_, fun h => h ▸ rfl⟩
  have hs := fromUTF8?_utf8 s
  rw [h, fromUTF8?_utf8] at hs
  exact (Option.some.inj hs).symm

/-- The bytes of two strings, one after the other. -/
theorem utf8_append (s t : String) : utf8 (s ++ t) = utf8 s ++ utf8 t := by
  show (s ++ t).toByteArray.data.toList = _
  rw [String.toByteArray_append]
  simp [utf8]

/-- And of the characters. -/
theorem utf8_ofList (cs : List Char) :
    utf8 (String.ofList cs) = cs.flatMap String.utf8EncodeChar := by
  show (cs.flatMap String.utf8EncodeChar).toByteArray.data.toList = _
  simp

/-- An ASCII character is one byte long. -/
theorem length_utf8_of_ascii {s : String} (h : ∀ c ∈ s.toList, c.toNat < 0x80) :
    (utf8 s).length = s.toList.length := by
  have hall : ∀ cs : List Char, (∀ c ∈ cs, c.toNat < 0x80) →
      (cs.flatMap String.utf8EncodeChar).length = cs.length := by
    intro cs hcs
    induction cs with
    | nil => rfl
    | cons c cs ih =>
      have hone : c.utf8Size = 1 := Char.utf8Size_eq_one_iff.mpr
        (UInt32.le_iff_toNat_le.mpr (Nat.le_of_lt_succ (hcs c List.mem_cons_self)))
      rw [List.flatMap_cons, List.length_append, String.length_utf8EncodeChar, hone,
        ih (fun c' hc' => hcs c' (List.mem_cons_of_mem c hc'))]
      exact Nat.add_comm 1 cs.length
  rw [← hall s.toList h, ← utf8_ofList, String.ofList_toList]

/-- The bytes of a character are its code, or none of them is ASCII. -/
theorem mem_utf8EncodeChar {c d : Char} (hc : c.toNat < 0x80)
    (h : UInt8.ofNat c.toNat ∈ String.utf8EncodeChar d) : d = c := by
  have hne (n m k : ℕ) (hk : 0 < k) (hm : 0x80 ≤ m) (hmk : m + k ≤ 0x100) :
      UInt8.ofNat c.toNat ≠ UInt8.ofNat (n % k + m) := fun heq => by
    have hlt := Nat.mod_lt n hk
    have hval := congrArg UInt8.toNat heq
    simp only [UInt8.toNat_ofNat'] at hval
    omega
  unfold String.utf8EncodeChar at h
  dsimp only at h
  split at h
  · have hval := congrArg UInt8.toNat (List.mem_singleton.mp h)
    simp only [UInt8.toNat_ofNat'] at hval
    have hcode : d.val.toNat = c.toNat := by omega
    exact Char.ext (UInt32.toNat_inj.mp hcode)
  -- two, three or four bytes
  split at h
  · simp only [List.mem_cons, List.not_mem_nil, or_false] at h
    obtain h | h := h <;> exact absurd h (hne _ _ _ (by decide) (by decide) (by decide))
  split at h
  · simp only [List.mem_cons, List.not_mem_nil, or_false] at h
    obtain h | h | h := h <;> exact absurd h (hne _ _ _ (by decide) (by decide) (by decide))
  · simp only [List.mem_cons, List.not_mem_nil, or_false] at h
    obtain h | h | h | h := h <;>
      exact absurd h (hne _ _ _ (by decide) (by decide) (by decide))

/-- **An ASCII byte is a character of its own.** -/
theorem mem_of_mem_utf8 {c : Char} (hc : c.toNat < 0x80) {s : String}
    (h : UInt8.ofNat c.toNat ∈ utf8 s) : c ∈ s.toList := by
  rw [← String.ofList_toList (s := s), utf8_ofList] at h
  obtain ⟨d, hd, hbyte⟩ := List.mem_flatMap.mp h
  exact mem_utf8EncodeChar hc hbyte ▸ hd

/-- A string reads back exactly, if its length fits the 64-bit length
field. -/
theorem reads_string {s : String} (hs : (utf8 s).length < 2 ^ 64) :
    Reads readString (string s) s :=
  (reads_uint (by decide) (by decide) hs).bind
    ((reads_bytes (utf8 s)).last (reads_lift (fromUTF8?_utf8 s)))

/-- What was read as a string is its bytes. -/
theorem utf8_of_fromUTF8? {bs : List UInt8} {s : String}
    (h : String.fromUTF8? ⟨bs.toArray⟩ = some s) : utf8 s = bs := by
  rw [String.fromUTF8?] at h
  split at h
  · obtain rfl := Option.some.inj h
    rfl
  · simp at h

/-- A string that was read has a length that fits the length field. -/
theorem yields_string : Yields readString (fun s => (utf8 s).length < 2 ^ 64) := by
  refine (yields_uint 10 64).bind (fun n hn => ?_)
  refine (yields_bytes n).bind (fun bs hbs => yields_lift (fun s hs => ?_))
  rw [utf8_of_fromUTF8? hs, hbs]
  exact hn

/-- An option: a tag byte, and the value. -/
def option (enc : α → List UInt8) : Option α → List UInt8
  | none => [0]
  | some a => 1 :: enc a

/-- Read an option. -/
def readOption (p : Reader α) : Reader (Option α) := do
  let tag ← byte
  match tag with
  | 0 => pure none
  | 1 => do
    let a ← p
    pure (some a)
  | _ => lift none

/-- A byte that says that there is nothing. -/
theorem reads_option_none (p : Reader α) (enc : α → List UInt8) :
    Reads (readOption p) (option enc none) none :=
  (reads_byte 0).last (Reads.pure none)

/-- Or that there is, and what. -/
theorem reads_option_some {p : Reader α} {enc : α → List UInt8} {a : α}
    (h : Reads p (enc a) a) : Reads (readOption p) (option enc (some a)) (some a) :=
  (reads_byte 1).bind (h.map some)

end Postcard
