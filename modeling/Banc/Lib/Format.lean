import Banc.Lib.PostcardSize
import Mathlib.Logic.Equiv.Defs

/-!
# Formats

A format of a type is how its values are written, how they are read, and the proof that
this is one format: what is written is read back, exactly (`Reads`); what is read fits,
whatever the bytes were (`Yields`), and is no longer than they are (`Takes`); and nothing
that fits gets longer than the size of the format.

Formats are put together as the types are. That of a message needs no proof of its own
then: it is a list of its fields. Enums are read by the number of the variant, so the
format of an enum is that of a sum, or a list of its variants.

A sequence starts with its length, a `usize`, which the two ends of a wire may have of
different widths. What one end writes does not depend on it, and what it has written the
other reads.
-/

namespace Postcard

/-- How the values of a type are written and read. -/
structure Format (α : Type) where
  /-- The values that can be written: a `heapless` string has a capacity. -/
  Fits : α → Prop
  encode : α → List UInt8
  read : Reader α
  /-- How long an encoding may get. -/
  size : ℕ
  reads : ∀ a, Fits a → Reads read (encode a) a
  yields : Yields read Fits
  takes : Takes 0 read (fun a => (encode a).length)
  length_le : ∀ a, Fits a → (encode a).length ≤ size

namespace Format

variable {α β : Type}

/-- `postcard::from_bytes`. -/
def decode (F : Format α) (bs : List UInt8) : Option α := fromBytes F.read bs

/-! ## Numbers -/

/-- Nothing, in no bytes. -/
def unit : Format Unit where
  Fits _ := True
  encode _ := []
  read := pure ()
  size := 0
  reads a _ := Reads.pure a
  yields := Yields.pure trivial
  takes := Takes.pure (Nat.le_refl 0)
  length_le _ _ := Nat.le_refl 0

/-- A byte, as it is. -/
def u8 : Format UInt8 where
  Fits _ := True
  encode b := [b]
  read := byte
  size := 1
  reads b _ := reads_byte b
  yields := Yields.of_forall (fun _ => trivial) byte
  takes := takes_byte
  length_le _ _ := Nat.le_refl 1

/-- Anything but 0 and 1 is an error. -/
def bool : Format Bool where
  Fits _ := True
  encode b := [if b then 1 else 0]
  read := do
    let b ← byte
    lift (if b = 0 then some false else if b = 1 then some true else none)
  size := 1
  reads b _ := by
    refine (reads_byte _).last (reads_lift ?_)
    cases b
    · rfl
    · rfl
  yields := Yields.of_forall (fun _ => trivial) _
  takes := takes_byte.bind (fun b => Takes.lift (fun _ _ => Nat.le_refl 1))
  length_le _ _ := Nat.le_refl 1

/-- Of 32 bits: seven in a byte, so no more than five bytes. -/
def u32 : Format UInt32 where
  Fits _ := True
  encode := Postcard.u32
  read := readU32
  size := 5
  reads n _ := reads_u32 n
  yields := Yields.of_forall (fun _ => trivial) readU32
  takes := takes_u32
  length_le n _ := length_varint_le 5 n.toNat

/-- Of 64 bits: no more than ten. -/
def u64 : Format UInt64 where
  Fits _ := True
  encode := Postcard.u64
  read := readU64
  size := 10
  reads n _ := reads_u64 n
  yields := Yields.of_forall (fun _ => trivial) readU64
  takes := takes_u64
  length_le n _ := length_varint_le 10 n.toNat

/-! ## Composition -/

/-- One after the other. -/
def pair (F : Format α) (G : Format β) : Format (α × β) where
  Fits p := F.Fits p.1 ∧ G.Fits p.2
  encode p := F.encode p.1 ++ G.encode p.2
  read := do
    let a ← F.read
    let b ← G.read
    pure (a, b)
  size := F.size + G.size
  reads p h := (F.reads p.1 h.1).bind ((G.reads p.2 h.2).map _)
  yields := F.yields.bind fun _ ha => G.yields.bind fun _ hb => Yields.pure ⟨ha, hb⟩
  takes := by
    refine F.takes.bind (fun a => G.takes.bind (fun b => Takes.pure ?_))
    rw [List.length_append, Nat.zero_add]
  length_le p h := by
    rw [List.length_append]
    exact Nat.add_le_add (F.length_le p.1 h.1) (G.length_le p.2 h.2)

/-- The same, of another type: a struct for its fields. -/
def congr (F : Format α) (e : α ≃ β) : Format β where
  Fits b := F.Fits (e.symm b)
  encode b := F.encode (e.symm b)
  read := do
    let a ← F.read
    pure (e a)
  size := F.size
  reads b h := by
    have hread := (F.reads (e.symm b) h).map e
    rwa [e.apply_symm_apply] at hread
  yields := F.yields.bind fun a ha => Yields.pure (by rwa [e.symm_apply_apply])
  takes := by
    refine F.takes.bind (fun a => Takes.pure ?_)
    rw [e.symm_apply_apply, Nat.zero_add]
  length_le b h := F.length_le _ h

/-- A varint that says which variant is one of few: it takes a byte. -/
theorem length_tag {n : ℕ} (hn : n < 128) : (varint 5 n).length = 1 :=
  length_varint_one (by decide) hn

/-- An enum without fields, of these variants in the order of their declaration. -/
def enum [DecidableEq α] (variants : List α) (hn : variants.length ≤ 128) : Format α where
  Fits a := a ∈ variants
  encode a := varint 5 (variants.idxOf a)
  read := do
    let tag ← readUint 5 32
    lift variants[tag]?
  size := 1
  reads a h := by
    have hlt := List.idxOf_lt_length_of_mem h
    refine (reads_tag _ (by omega)).last (reads_lift ?_)
    rw [List.getElem?_eq_getElem hlt, List.getElem_idxOf hlt]
  yields := by
    refine (yields_uint 5 32).bind (fun tag _ => yields_lift (fun a ha => ?_))
    exact List.mem_of_getElem? ha
  takes := by
    refine (takes_uint 5 32).bind (fun tag => Takes.lift (fun a ha => ?_))
    have hlt := List.idxOf_lt_length_of_mem (List.mem_of_getElem? ha)
    rw [Nat.zero_add, length_tag (hlt.trans_le hn)]
    exact length_varint_pos (Nat.succ_pos 4)
  length_le a h := (length_tag ((List.idxOf_lt_length_of_mem h).trans_le hn)).le

/-- An enum of two variants, each with the fields of its format. -/
def sum (F : Format α) (G : Format β) : Format (α ⊕ β) where
  Fits := Sum.elim F.Fits G.Fits
  encode := Sum.elim (fun a => varint 5 0 ++ F.encode a) (fun b => varint 5 1 ++ G.encode b)
  read := do
    let tag ← readUint 5 32
    match tag with
    | 0 => do
      let a ← F.read
      pure (.inl a)
    | 1 => do
      let b ← G.read
      pure (.inr b)
    | _ => lift none
  size := 1 + max F.size G.size
  reads x h := by
    cases x with
    | inl a => exact (reads_tag 0 (by decide)).bind ((F.reads a h).map _)
    | inr b => exact (reads_tag 1 (by decide)).bind ((G.reads b h).map _)
  yields := by
    refine (yields_uint 5 32).bind (fun tag _ => ?_)
    split
    · exact F.yields.bind fun _ ha => Yields.pure ha
    · exact G.yields.bind fun _ hb => Yields.pure hb
    · exact yields_lift (fun _ h => absurd h (Option.not_mem_none _))
  takes := by
    refine (takes_uint 5 32).bind (fun tag => ?_)
    split
    · refine F.takes.bind (fun a => Takes.pure ?_)
      show (varint 5 0 ++ F.encode a).length ≤ _
      rw [List.length_append, Nat.zero_add]
    · refine G.takes.bind (fun b => Takes.pure ?_)
      show (varint 5 1 ++ G.encode b).length ≤ _
      rw [List.length_append, Nat.zero_add]
    · exact Takes.lift (fun _ h => absurd h (Option.not_mem_none _))
  length_le x h := by
    cases x with
    | inl a =>
      show (varint 5 0 ++ F.encode a).length ≤ _
      rw [List.length_append, length_tag (by decide)]
      exact Nat.add_le_add_left ((F.length_le a h).trans (Nat.le_max_left _ _)) 1
    | inr b =>
      show (varint 5 1 ++ G.encode b).length ≤ _
      rw [List.length_append, length_tag (by decide)]
      exact Nat.add_le_add_left ((G.length_le b h).trans (Nat.le_max_right _ _)) 1

end Format

/-! ## Sequences -/

section Sequences

variable {α : Type} {p : Reader α} {enc : α → List UInt8}

/-- Read so many values. -/
def times (p : Reader α) : ℕ → Reader (List α)
  | 0 => pure []
  | n + 1 => do
    let a ← p
    let as ← times p n
    pure (a :: as)

/-- What is written one after the other is read one after the other. -/
theorem reads_times {as : List α} (h : ∀ a ∈ as, Reads p (enc a) a) :
    Reads (times p as.length) (as.flatMap enc) as := by
  induction as with
  | nil => exact Reads.pure []
  | cons a as ih =>
    rw [List.flatMap_cons]
    refine (h a List.mem_cons_self).bind ?_
    exact (ih (fun b hb => h b (List.mem_cons_of_mem a hb))).map (fun as => a :: as)

/-- As many are read as were asked for, each of them one that may be read. -/
theorem yields_times {P : α → Prop} (h : Yields p P) (n : ℕ) :
    Yields (times p n) (fun as => as.length = n ∧ ∀ a ∈ as, P a) := by
  induction n with
  | zero => exact Yields.pure ⟨rfl, fun a ha => absurd ha List.not_mem_nil⟩
  | succ n ih =>
    refine h.bind (fun a ha => ih.bind (fun as has => Yields.pure ⟨?_, ?_⟩))
    · rw [List.length_cons, has.1]
    · exact List.forall_mem_cons.mpr ⟨ha, has.2⟩

/-- And they would not take more bytes to write. -/
theorem takes_times (h : Takes 0 p (fun a => (enc a).length)) (n : ℕ) :
    Takes 0 (times p n) (fun as => (as.flatMap enc).length) := by
  induction n with
  | zero => exact Takes.pure (Nat.le_refl 0)
  | succ n ih =>
    refine h.bind (fun a => ih.bind (fun as => Takes.pure ?_))
    rw [List.flatMap_cons, List.length_append, Nat.zero_add]

/-- What is known of the value may tell more of its size. -/
theorem Takes.of_yields {already : ℕ} {size size' : α → ℕ} {P : α → Prop} (h : Takes 0 p size)
    (hP : Yields p P) (hle : ∀ a, P a → size' a ≤ already + size a) : Takes already p size' := by
  intro bs a rest hrun
  have hsize := h bs a rest hrun
  have hmore := hle a (hP bs a rest hrun)
  omega

/-- So many times as long as the longest. -/
theorem length_flatMap_le {n : ℕ} {as : List α} (h : ∀ a ∈ as, (enc a).length ≤ n) :
    (as.flatMap enc).length ≤ as.length * n := by
  induction as with
  | nil => exact Nat.zero_le _
  | cons a as ih =>
    rw [List.flatMap_cons, List.length_append, List.length_cons, Nat.succ_mul, Nat.add_comm]
    exact Nat.add_le_add (ih (fun b hb => h b (List.mem_cons_of_mem a hb)))
      (h a List.mem_cons_self)

/-- The width of a `usize`: in bits, and in bytes when it is a varint. -/
structure Usize where
  bytes : ℕ
  bits : ℕ
  pos : 0 < bytes
  fits : 2 ^ bits ≤ 128 ^ bytes
  /-- It is no less than that of a `u32`. -/
  wide : 2 ^ 32 ≤ 2 ^ bits

/-- What is written with 32 bits is less than what either width has room for. -/
theorem Usize.lt (w : Usize) {n : ℕ} (hn : n < 2 ^ 32) : n < 2 ^ w.bits := hn.trans_le w.wide

end Sequences

namespace Format

variable {α : Type}

/-- `heapless::Vec`, of this capacity; more is an error. -/
def vec (F : Format α) (w : Usize) (n : ℕ) (hn : n < 2 ^ 32) : Format (List α) where
  Fits as := as.length ≤ n ∧ ∀ a ∈ as, F.Fits a
  encode as := varint w.bytes as.length ++ as.flatMap F.encode
  read := do
    let len ← readUint w.bytes w.bits
    if len ≤ n then times F.read len else lift none
  size := (varint w.bytes n).length + n * F.size
  reads as h := by
    refine (reads_uint w.pos w.fits (w.lt (h.1.trans_lt hn))).bind ?_
    rw [if_pos h.1]
    exact reads_times (fun a ha => F.reads a (h.2 a ha))
  yields := by
    refine (yields_uint w.bytes w.bits).bind (fun len _ => ?_)
    split
    · rename_i hlen
      intro bs as rest hrun
      obtain ⟨hlength, hfits⟩ := yields_times F.yields len bs as rest hrun
      exact ⟨hlength.trans_le hlen, hfits⟩
    · exact yields_lift (fun _ h => absurd h (Option.not_mem_none _))
  takes := by
    refine (takes_uint w.bytes w.bits).bind (fun len => ?_)
    split
    · refine (takes_times F.takes len).of_yields (yields_times F.yields len) (fun as has => ?_)
      rw [List.length_append, has.1, Nat.zero_add]
    · exact Takes.lift (fun _ h => absurd h (Option.not_mem_none _))
  length_le as h := by
    rw [List.length_append]
    refine Nat.add_le_add (length_varint_mono w.bytes h.1) ?_
    exact (length_flatMap_le (fun a ha => F.length_le a (h.2 a ha))).trans
      (Nat.mul_le_mul_right _ h.1)

/-- `heapless::String`, of this capacity in bytes. -/
def str (w : Usize) (n : ℕ) (hn : n < 2 ^ 32) : Format String where
  Fits s := (utf8 s).length ≤ n
  encode s := varint w.bytes (utf8 s).length ++ utf8 s
  read := do
    let len ← readUint w.bytes w.bits
    let bs ← bytes len
    lift (if bs.length ≤ n then String.fromUTF8? ⟨bs.toArray⟩ else none)
  size := (varint w.bytes n).length + n
  reads s h := by
    refine (reads_uint w.pos w.fits (w.lt (h.trans_lt hn))).bind ((reads_bytes (utf8 s)).last ?_)
    rw [if_pos h]
    exact reads_lift (fromUTF8?_utf8 s)
  yields := by
    refine (yields_uint w.bytes w.bits).bind (fun len _ => ?_)
    refine (yields_bytes len).bind (fun bs _ => yields_lift (fun s hs => ?_))
    split at hs
    · rename_i hle
      rwa [utf8_of_fromUTF8? hs]
    · exact absurd hs (Option.not_mem_none s)
  takes := by
    refine (takes_uint w.bytes w.bits).bind (fun len => ?_)
    refine (takes_bytes len).bind_of_yields (yields_bytes len) (fun bs hbs => ?_)
    refine Takes.lift (fun s hs => ?_)
    split at hs
    · rw [List.length_append, utf8_of_fromUTF8? hs, hbs, Nat.zero_add]
    · exact absurd hs (Option.not_mem_none s)
  length_le s h := by
    rw [List.length_append]
    exact Nat.add_le_add (length_varint_mono w.bytes h) h

/-- The length of a short sequence takes a byte. -/
theorem size_vec {F : Format α} {w : Usize} {n : ℕ} {hn : n < 2 ^ 32} (h : n < 128) :
    (F.vec w n hn).size = 1 + n * F.size :=
  congrArg (· + n * F.size) (length_varint_one w.pos h)

/-- A byte for the length, if the capacity is small, and the bytes. -/
theorem size_str {w : Usize} {n : ℕ} {hn : n < 2 ^ 32} (h : n < 128) :
    (str w n hn).size = 1 + n :=
  congrArg (· + n) (length_varint_one w.pos h)

/-! ## Two ends -/

/-- **Two formats with which the same is written**: what one end writes is what the other
would have. -/
structure Same (F G : Format α) : Prop where
  fits : ∀ a, F.Fits a ↔ G.Fits a
  encode : ∀ a, F.Fits a → F.encode a = G.encode a

/-- A format writes what it writes itself. -/
theorem Same.refl (F : Format α) : Same F F := ⟨fun _ => Iff.rfl, fun _ _ => rfl⟩

/-- What one end has written, the other reads. -/
theorem Same.reads {F G : Format α} (h : Same F G) {a : α} (ha : F.Fits a) :
    Reads G.read (F.encode a) a := by
  rw [h.encode a ha]
  exact G.reads a ((h.fits a).mp ha)

section

variable {β : Type} {F G : Format α} {F' G' : Format β}

/-- Two fields that are the same at both ends. -/
theorem Same.pair (h : Same F G) (h' : Same F' G') : Same (F.pair F') (G.pair G') where
  fits p := and_congr (h.fits p.1) (h'.fits p.2)
  encode p hp := congrArg₂ (· ++ ·) (h.encode p.1 hp.1) (h'.encode p.2 hp.2)

/-- The same fields, under the names of a type. -/
theorem Same.congr (h : Same F G) (e : α ≃ β) : Same (F.congr e) (G.congr e) where
  fits b := h.fits (e.symm b)
  encode b hb := h.encode (e.symm b) hb

/-- The same variants. -/
theorem Same.sum (h : Same F G) (h' : Same F' G') : Same (F.sum F') (G.sum G') where
  fits x := by
    cases x with
    | inl a => exact h.fits a
    | inr b => exact h'.fits b
  encode x hx := by
    cases x with
    | inl a => exact congrArg (varint 5 0 ++ ·) (h.encode a hx)
    | inr b => exact congrArg (varint 5 1 ++ ·) (h'.encode b hx)

end

/-- A varint does not depend on the width that it is bounded by. -/
theorem varint_eq {k l n : ℕ} (hk : n < 128 ^ k) (hl : n < 128 ^ l) (hkpos : 0 < k)
    (hlpos : 0 < l) : varint k n = varint l n := by
  induction k generalizing l n with
  | zero => exact absurd hkpos (lt_irrefl 0)
  | succ k ih =>
    obtain ⟨l, rfl⟩ : ∃ m, l = m + 1 := ⟨l - 1, by omega⟩
    rw [varint, varint]
    by_cases hn : n < 128
    · rw [if_pos hn, if_pos hn]
    · have hpos {m : ℕ} (h : n < 128 ^ (m + 1)) : 0 < m := by
        rcases Nat.eq_zero_or_pos m with rfl | hm
        · exact absurd (h.trans_eq (Nat.pow_one 128)) hn
        · exact hm
      have hdiv {m : ℕ} (h : n < 128 ^ (m + 1)) : n / 128 < 128 ^ m := by
        rw [Nat.div_lt_iff_lt_mul (by decide), ← Nat.pow_succ]
        exact h
      rw [if_neg hn, if_neg hn, ih (hdiv hk) (hdiv hl) (hpos hk) (hpos hl)]

/-- A length that both widths have room for is the same bytes for either. -/
theorem varint_usize (w w' : Usize) {n : ℕ} (h : n < 2 ^ 32) :
    varint w.bytes n = varint w'.bytes n :=
  varint_eq ((w.lt h).trans_le w.fits) ((w'.lt h).trans_le w'.fits) w.pos w'.pos

/-- A sequence that short is the same bytes, if its elements are. -/
theorem Same.vec {F G : Format α} (h : Same F G) (w w' : Usize) {n : ℕ} (hn : n < 2 ^ 32) :
    Same (F.vec w n hn) (G.vec w' n hn) where
  fits as := and_congr_right' (forall₂_congr (fun a _ => h.fits a))
  encode as has := by
    show varint w.bytes as.length ++ as.flatMap F.encode
      = varint w'.bytes as.length ++ as.flatMap G.encode
    rw [varint_usize w w' (has.1.trans_lt hn)]
    refine congrArg _ ?_
    rw [List.flatMap_def, List.flatMap_def]
    exact congrArg List.flatten (List.map_congr_left (fun a ha => h.encode a (has.2 a ha)))

/-- And so is a string. -/
theorem Same.str (w w' : Usize) {n : ℕ} (hn : n < 2 ^ 32) :
    Same (str w n hn) (str w' n hn) where
  fits s := Iff.rfl
  encode s hs := by
    show varint w.bytes (utf8 s).length ++ utf8 s = varint w'.bytes (utf8 s).length ++ utf8 s
    rw [varint_usize w w' (hs.trans_lt hn)]

end Format

end Postcard
