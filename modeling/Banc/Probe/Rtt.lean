import Mathlib.Data.List.DropRight
import Mathlib.Order.Nat
import Mathlib.Tactic.Common

/-!
# Reading lines off an RTT channel

`poll_rtt` of `banc-probe/src/local.rs`: one read of up-channel 0, appended to
the bytes of the line under way, from which complete lines are handed to the
sink. What the probe answers is an argument (`Channel`), so one poll is a
function from the pending bytes to the new ones and the lines emitted, or to
the error that ends the capture.

Lines are bytes until they are emitted; then they are decoded as
`String::from_utf8_lossy` does – every maximal ill-formed piece becomes one
replacement character – and trailing whitespace is trimmed.
-/

namespace Banc

namespace Probe

/-- `MAX_LINE`: cap on an unterminated RTT line. -/
def maxLine : ℕ := 64 * 1024

/-! ## Decoding a line -/

/-- Whether `b` can follow the lead byte `lead` in well-formed UTF-8. -/
def secondByte (lead b : UInt8) : Bool :=
  if 0xC2 ≤ lead ∧ lead ≤ 0xDF then 0x80 ≤ b && b ≤ 0xBF
  else if lead = 0xE0 then 0xA0 ≤ b && b ≤ 0xBF
  else if 0xE1 ≤ lead ∧ lead ≤ 0xEC then 0x80 ≤ b && b ≤ 0xBF
  else if lead = 0xED then 0x80 ≤ b && b ≤ 0x9F
  else if 0xEE ≤ lead ∧ lead ≤ 0xEF then 0x80 ≤ b && b ≤ 0xBF
  else if lead = 0xF0 then 0x90 ≤ b && b ≤ 0xBF
  else if 0xF1 ≤ lead ∧ lead ≤ 0xF3 then 0x80 ≤ b && b ≤ 0xBF
  else if lead = 0xF4 then 0x80 ≤ b && b ≤ 0x8F
  else false

/-- Whether `b` is a continuation byte. -/
def continuation (b : UInt8) : Bool := 0x80 ≤ b && b ≤ 0xBF

/-- The low six bits of a continuation byte. -/
def low (b : UInt8) : ℕ := b.toNat % 64

/-- U+FFFD. -/
def replacement : Char := '\uFFFD'

/-- `String::from_utf8_lossy`. -/
def fromUtf8Lossy : List UInt8 → List Char
  | [] => []
  | b₀ :: t₀ =>
    if b₀ < 0x80 then Char.ofNat b₀.toNat :: fromUtf8Lossy t₀
    else match t₀ with
      | [] => [replacement]
      | b₁ :: t₁ =>
        if secondByte b₀ b₁ then
          if b₀ < 0xE0 then
            Char.ofNat (b₀.toNat % 32 * 64 + low b₁) :: fromUtf8Lossy t₁
          else match t₁ with
            | [] => [replacement]
            | b₂ :: t₂ =>
              if continuation b₂ then
                if b₀ < 0xF0 then
                  Char.ofNat (b₀.toNat % 16 * 4096 + low b₁ * 64 + low b₂)
                    :: fromUtf8Lossy t₂
                else match t₂ with
                  | [] => [replacement]
                  | b₃ :: t₃ =>
                    if continuation b₃ then
                      Char.ofNat (b₀.toNat % 8 * 262144 + low b₁ * 4096
                        + low b₂ * 64 + low b₃) :: fromUtf8Lossy t₃
                    else replacement :: fromUtf8Lossy (b₃ :: t₃)
              else replacement :: fromUtf8Lossy (b₂ :: t₂)
        else replacement :: fromUtf8Lossy (b₁ :: t₁)

/-- `char::is_whitespace`. -/
def isWhitespace (c : Char) : Bool :=
  let n := c.toNat
  (0x09 ≤ n && n ≤ 0x0D) || n == 0x20 || n == 0x85 || n == 0xA0 || n == 0x1680
    || (0x2000 ≤ n && n ≤ 0x200A) || n == 0x2028 || n == 0x2029 || n == 0x202F
    || n == 0x205F || n == 0x3000

/-- `str::trim_end`. -/
def trimEnd (cs : List Char) : List Char := cs.rdropWhile isWhitespace

/-- What the sink is handed for the bytes of a line. -/
def lineText (line : List UInt8) : String := String.ofList (trimEnd (fromUtf8Lossy line))

/-! ## One poll -/

/-- Take the complete lines, newline included, off the front of the pending
bytes; what is left holds no newline. -/
def drainLines : List UInt8 → List (List UInt8) × List UInt8
  | [] => ([], [])
  | b :: bs =>
    match drainLines bs with
    | (lines, rest) =>
      if b = 0x0A then ([b] :: lines, rest)
      else match lines with
        | [] => ([], b :: rest)
        | line :: lines => ((b :: line) :: lines, rest)

/-- What the probe answers in one poll. -/
inductive Channel where
  /-- `core(0): {e}`. -/
  | coreFailed (e : String)
  /-- There is no up-channel. -/
  | absent
  /-- `rtt read: {e}`. -/
  | readFailed (e : String)
  /-- A read returned these bytes. -/
  | bytes (bs : List UInt8)
  deriving DecidableEq

/-- `poll_rtt`: the bytes still pending, and the lines handed to the sink. -/
def pollRtt (pending : List UInt8) :
    Channel → Except String (List UInt8 × List String)
  | .coreFailed e => .error ("core(0): " ++ e)
  | .absent => .ok (pending, [])
  | .readFailed e => .error ("rtt read: " ++ e)
  | .bytes bs =>
    if bs.length = 0 then .ok (pending, [])
    else
      let r := drainLines (pending ++ bs)
      if maxLine < r.2.length then .ok ([], (r.1 ++ [r.2]).map lineText)
      else .ok (r.2, r.1.map lineText)

/-- **Draining loses nothing**: the lines and what is left are the bytes there
were. -/
theorem drainLines_flatten (bs : List UInt8) :
    (drainLines bs).1.flatten ++ (drainLines bs).2 = bs := by
  induction bs with
  | nil => rfl
  | cons b bs ih =>
    rw [drainLines]
    split
    rename_i lines rest hdrain
    rw [hdrain] at ih
    split
    · rw [List.flatten_cons, List.append_assoc, ih]
      rfl
    · split
      · rw [← ih]
        rfl
      · rw [← ih]
        simp

/-- **The line under way stays bounded**, whatever the device sends. -/
theorem length_pollRtt_le {pending rest : List UInt8} {lines : List String}
    {ch : Channel} (hpending : pending.length ≤ maxLine)
    (h : pollRtt pending ch = .ok (rest, lines)) : rest.length ≤ maxLine := by
  cases ch with
  | coreFailed e => simp [pollRtt] at h
  | absent =>
    obtain ⟨rfl, -⟩ := Prod.mk.inj (Except.ok.inj h)
    exact hpending
  | readFailed e => simp [pollRtt] at h
  | bytes bs =>
    rw [pollRtt] at h
    split at h
    · obtain ⟨rfl, -⟩ := Prod.mk.inj (Except.ok.inj h)
      exact hpending
    · dsimp only at h
      split at h
      · obtain ⟨rfl, -⟩ := Prod.mk.inj (Except.ok.inj h)
        exact Nat.zero_le _
      · rename_i hle
        obtain ⟨rfl, -⟩ := Prod.mk.inj (Except.ok.inj h)
        exact not_lt.mp hle

end Probe

end Banc
