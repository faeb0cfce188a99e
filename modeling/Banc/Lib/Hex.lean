import Mathlib.Algebra.Ring.Nat
import Mathlib.Data.List.Induction
import Banc.Lib.Json

/-!
# Hexadecimal numbers

Numbers as hexadecimal digits, of a fixed width in upper case, and strings of such
digits as numbers. Each is the inverse of the other, up to the case of the letters
(`eqIgnoreAsciiCase_format`): of all numbers that have that many digits, a string of
digits is the spelling of exactly one.
-/

namespace Hex

open Json

/-- `char::is_ascii_hexdigit`. -/
def isAsciiHexdigit (c : Char) : Bool := (hexValue c).isSome

/-- A digit, in upper case. -/
def upperDigit (d : ℕ) : Char := (Nat.digitChar d).toUpper

/-- The last `w` digits of a number: the format `{:0wX}`, if it has no more. -/
def format : ℕ → ℕ → List Char
  | 0, _ => []
  | w + 1, n => format w (n / 16) ++ [upperDigit (n % 16)]

/-- The number that is spelled. -/
def number (cs : List Char) : ℕ := cs.foldl (fun n c => 16 * n + (hexValue c).getD 0) 0

/-- `eq_ignore_ascii_case`, of two strings. -/
def eqIgnoreAsciiCase (cs ds : List Char) : Bool := cs.map Char.toLower == ds.map Char.toLower

/-! ## One digit -/

/-- A digit is a character of one byte. -/
theorem toNat_lt_of_hexValue {c : Char} {d : ℕ} (h : hexValue c = some d) : c.toNat < 128 := by
  have hle : ∀ {a : Char}, a.toNat < 128 → c ≤ a → c.toNat < 128 := fun ha hc =>
    Nat.lt_of_le_of_lt (UInt32.le_iff_toNat_le.mp hc) ha
  unfold hexValue at h
  split at h
  case isTrue hc => exact hle (by decide) hc.2
  case isFalse =>
    split at h
    case isTrue hc => exact hle (by decide) hc.2
    case isFalse =>
      split at h
      case isTrue hc => exact hle (by decide) hc.2
      case isFalse => exact absurd h.symm (Option.some_ne_none d)

/-- **A digit in lower case** is known by its value. -/
theorem toLower_of_hexValue {c : Char} {d : ℕ} (h : hexValue c = some d) :
    c.toLower = Nat.digitChar d ∧ d < 16 := by
  have hall : ∀ n < 128, ∀ d ∈ hexValue (Char.ofNat n),
      (Char.ofNat n).toLower = Nat.digitChar d ∧ d < 16 := by
    decide
  have hc := hall c.toNat (toNat_lt_of_hexValue h) d
  rw [Char.ofNat_toNat] at hc
  exact hc h

theorem hexValue_upperDigit {d : ℕ} (h : d < 16) : hexValue (upperDigit d) = some d := by
  have hall : ∀ d < 16, hexValue (upperDigit d) = some d := by decide
  exact hall d h

/-- **Two digits differ in case only** if their values are the same. -/
theorem toLower_eq_iff {c c' : Char} {d d' : ℕ} (h : hexValue c = some d)
    (h' : hexValue c' = some d') : c.toLower = c'.toLower ↔ d = d' := by
  obtain ⟨hc, hd⟩ := toLower_of_hexValue h
  obtain ⟨hc', hd'⟩ := toLower_of_hexValue h'
  have hinj : ∀ d < 16, ∀ d' < 16, Nat.digitChar d = Nat.digitChar d' → d = d' := by decide
  rw [hc, hc']
  exact ⟨hinj d hd d' hd', fun heq => heq ▸ rfl⟩

/-! ## Strings of digits -/

theorem number_concat (cs : List Char) (c : Char) :
    number (cs ++ [c]) = 16 * number cs + (hexValue c).getD 0 := by
  unfold number
  rw [List.foldl_append]
  rfl

theorem length_format (w n : ℕ) : (format w n).length = w := by
  induction w generalizing n with
  | zero => rfl
  | succ w ih =>
    rw [format, List.length_append, ih]
    rfl

theorem isAsciiHexdigit_format {w n : ℕ} : ∀ c ∈ format w n, isAsciiHexdigit c = true := by
  induction w generalizing n with
  | zero => exact fun c hc => absurd hc List.not_mem_nil
  | succ w ih =>
    intro c hc
    obtain hc | hc := List.mem_append.mp hc
    · exact ih c hc
    · rw [List.mem_singleton.mp hc, isAsciiHexdigit, hexValue_upperDigit (Nat.mod_lt n (by decide))]
      rfl

/-- **What is formatted reads back.** -/
theorem number_format {w n : ℕ} (h : n < 16 ^ w) : number (format w n) = n := by
  induction w generalizing n with
  | zero =>
    obtain rfl := Nat.lt_one_iff.mp h
    rfl
  | succ w ih =>
    have hdiv : n / 16 < 16 ^ w := Nat.div_lt_of_lt_mul (by rwa [Nat.pow_succ'] at h)
    rw [format, number_concat, ih hdiv, hexValue_upperDigit (Nat.mod_lt n (by decide))]
    exact Nat.div_add_mod n 16

/-- A string of `w` digits spells a number of `w` digits. -/
theorem number_lt {cs : List Char} (h : ∀ c ∈ cs, isAsciiHexdigit c = true) :
    number cs < 16 ^ cs.length := by
  induction cs using List.reverseRecOn with
  | nil => exact Nat.one_pos
  | append_singleton cs c ih =>
    obtain ⟨d, hd⟩ := Option.isSome_iff_exists.mp
      (h c (List.mem_append_right cs (List.mem_singleton_self c)))
    have hlt := ih (fun c' hc' => h c' (List.mem_append_left [c] hc'))
    have hdlt := (toLower_of_hexValue hd).2
    rw [number_concat, hd, List.length_append, List.length_singleton, Nat.pow_succ]
    show 16 * number cs + d < 16 ^ cs.length * 16
    omega

/-- **Two strings of as many digits differ in case only** if they spell the same
number. -/
theorem eqIgnoreAsciiCase_iff {cs ds : List Char} (hlength : cs.length = ds.length)
    (hcs : ∀ c ∈ cs, isAsciiHexdigit c = true) (hds : ∀ c ∈ ds, isAsciiHexdigit c = true) :
    eqIgnoreAsciiCase cs ds = true ↔ number cs = number ds := by
  rw [eqIgnoreAsciiCase, beq_iff_eq]
  induction cs using List.reverseRecOn generalizing ds with
  | nil =>
    obtain rfl := List.eq_nil_of_length_eq_zero hlength.symm
    exact ⟨fun _ => rfl, fun _ => rfl⟩
  | append_singleton cs c ih =>
    obtain rfl | ⟨ds, d, rfl⟩ := List.eq_nil_or_concat ds
    · exact absurd hlength (by simp)
    · rw [List.concat_eq_append] at *
      obtain ⟨x, hx⟩ := Option.isSome_iff_exists.mp
        (hcs c (List.mem_append_right cs (List.mem_singleton_self c)))
      obtain ⟨y, hy⟩ := Option.isSome_iff_exists.mp
        (hds d (List.mem_append_right ds (List.mem_singleton_self d)))
      have hlen : cs.length = ds.length := by simpa using hlength
      have hrest := ih hlen (fun c' hc' => hcs c' (List.mem_append_left [c] hc'))
        (fun c' hc' => hds c' (List.mem_append_left [d] hc'))
      have hxlt := (toLower_of_hexValue hx).2
      have hylt := (toLower_of_hexValue hy).2
      rw [number_concat, number_concat, hx, hy, List.map_append, List.map_append]
      show cs.map Char.toLower ++ [c.toLower] = ds.map Char.toLower ++ [d.toLower]
        ↔ 16 * number cs + x = 16 * number ds + y
      rw [List.append_singleton_inj, hrest, toLower_eq_iff hx hy]
      omega

/-- **Exactly one number of `w` digits is spelled** by a string of `w` digits. -/
theorem eqIgnoreAsciiCase_format {cs : List Char} {w n : ℕ} (hlength : cs.length = w)
    (hcs : ∀ c ∈ cs, isAsciiHexdigit c = true) (hn : n < 16 ^ w) :
    eqIgnoreAsciiCase (format w n) cs = true ↔ n = number cs := by
  rw [eqIgnoreAsciiCase_iff ((length_format w n).trans hlength.symm) isAsciiHexdigit_format hcs,
    number_format hn]

end Hex
