import Mathlib.Tactic.Common

/-!
# The text of JSON strings and numbers

The compact text of a string escapes the quote, the backslash and the control
characters, and leaves all others as they are; that of a natural number is its
decimal digits. A reader takes such a text off the front of a list of characters,
or fails; what it reads back is what was written (`readString_jsonString`,
`readNat_toString`).

The readers know every escape with a letter and `\u` with the code of a character;
a character escaped as two surrogates they do not read.
-/

namespace Json

/-- The escape of a character in a JSON string. -/
def jsonChar (c : Char) : String :=
  if c = '"' then "\\\""
  else if c = '\\' then "\\\\"
  else if c = '\x08' then "\\b"
  else if c = '\x0c' then "\\f"
  else if c = '\n' then "\\n"
  else if c = '\r' then "\\r"
  else if c = '\t' then "\\t"
  else if c.toNat < 0x20 then
    "\\u00" ++ String.ofList ((Nat.toDigits 16 c.toNat).leftpad 2 '0')
  else String.singleton c

/-- A JSON string. -/
def jsonString (s : String) : String := "\"" ++ String.join (s.toList.map jsonChar) ++ "\""

/-! ## Reading -/

/-- The value of a hexadecimal digit. -/
def hexValue (c : Char) : Option Nat :=
  if '0' ≤ c ∧ c ≤ '9' then some (c.toNat - '0'.toNat)
  else if 'a' ≤ c ∧ c ≤ 'f' then some (c.toNat - 'a'.toNat + 10)
  else if 'A' ≤ c ∧ c ≤ 'F' then some (c.toNat - 'A'.toNat + 10)
  else none

/-- The character with a code of four digits, unless that is half of a pair. -/
def codeChar (a b c d : Char) : Option Char := do
  let a ← hexValue a
  let b ← hexValue b
  let c ← hexValue c
  let d ← hexValue d
  let code := ((a * 16 + b) * 16 + c) * 16 + d
  if code.isValidChar then some (Char.ofNat code) else none

/-- What a letter after a backslash stands for. -/
def letterChar : Char → Option Char
  | '"' => some '"'
  | '\\' => some '\\'
  | '/' => some '/'
  | 'b' => some '\x08'
  | 'f' => some '\x0c'
  | 'n' => some '\n'
  | 'r' => some '\r'
  | 't' => some '\t'
  | _ => none

/-- Read a string whose opening quote has been read. -/
def readChars : List Char → Option (List Char × List Char)
  | [] => none
  | c :: rest =>
    if c = '"' then some ([], rest)
    else if c = '\\' then
      match rest with
      | [] => none
      | e :: rest =>
        if e = 'u' then
          match rest with
          | a :: b :: c :: d :: rest => do
            let c ← codeChar a b c d
            let r ← readChars rest
            some (c :: r.1, r.2)
          | _ => none
        else do
          let c ← letterChar e
          let r ← readChars rest
          some (c :: r.1, r.2)
    else if c.toNat < 0x20 then none
    else do
      let r ← readChars rest
      some (c :: r.1, r.2)

/-- Read a string. -/
def readString : List Char → Option (String × List Char)
  | '"' :: rest => (readChars rest).map (fun r => (String.ofList r.1, r.2))
  | _ => none

/-- Read a natural number. -/
def readNat (cs : List Char) : Option (Nat × List Char) :=
  if cs.takeWhile Char.isDigit = [] then none
  else some (Nat.ofDigitChars 10 (cs.takeWhile Char.isDigit) 0, cs.dropWhile Char.isDigit)

/-- Read exactly these characters. -/
def expect (text cs : List Char) : Option (List Char) :=
  if cs.take text.length = text then some (cs.drop text.length) else none

theorem expect_append (text rest : List Char) : expect text (text ++ rest) = some rest := by
  unfold expect
  rw [List.take_left, if_pos rfl, List.drop_left]

/-! ## What is written reads back -/

/-- The two digits of a control character. -/
theorem codeChar_control {n : Nat} (hn : n < 0x20) :
    ∃ a b, (Nat.toDigits 16 n).leftpad 2 '0' = [a, b]
      ∧ codeChar '0' '0' a b = some (Char.ofNat n) := by
  have hall : ∀ n < 0x20, (match (Nat.toDigits 16 n).leftpad 2 '0' with
      | [a, b] => codeChar '0' '0' a b
      | _ => none) = some (Char.ofNat n) := by
    decide
  have hcode := hall n hn
  split at hcode
  · rename_i a b hdigits
    exact ⟨a, b, hdigits, hcode⟩
  · exact absurd hcode nofun

/-- A character whose escape is a backslash and a letter. -/
theorem readChars_letter {c e : Char} (he : e ≠ 'u') (hletter : letterChar e = some c)
    (rest : List Char) :
    readChars ('\\' :: e :: rest) = (readChars rest).map (fun r => (c :: r.1, r.2)) := by
  rw [readChars.eq_def]
  dsimp only
  rw [if_neg (by decide), if_pos rfl, if_neg he, hletter]
  cases readChars rest with
  | none => rfl
  | some r => rfl

theorem readChars_jsonChar (c : Char) (rest : List Char) :
    readChars ((jsonChar c).toList ++ rest)
      = (readChars rest).map (fun r => (c :: r.1, r.2)) := by
  unfold jsonChar
  split
  · rename_i h
    subst h
    exact readChars_letter (by decide) rfl rest
  split
  · rename_i h
    subst h
    exact readChars_letter (by decide) rfl rest
  split
  · rename_i h
    subst h
    exact readChars_letter (by decide) rfl rest
  split
  · rename_i h
    subst h
    exact readChars_letter (by decide) rfl rest
  split
  · rename_i h
    subst h
    exact readChars_letter (by decide) rfl rest
  split
  · rename_i h
    subst h
    exact readChars_letter (by decide) rfl rest
  split
  · rename_i h
    subst h
    exact readChars_letter (by decide) rfl rest
  split
  · rename_i hcontrol
    obtain ⟨a, b, hdigits, hcode⟩ := codeChar_control hcontrol
    rw [Char.ofNat_toNat] at hcode
    rw [hdigits, String.toList_append, String.toList_ofList]
    simp only [String.toList_ofList]
    show readChars ('\\' :: 'u' :: '0' :: '0' :: a :: b :: rest) = _
    rw [readChars, if_neg (by decide), if_pos rfl, if_pos rfl, hcode]
    cases readChars rest with
    | none => rfl
    | some r => rfl
  · rename_i hquote hbackslash _ _ _ _ _ hcontrol
    rw [String.toList_singleton]
    show readChars (c :: rest) = _
    rw [readChars.eq_def]
    dsimp only
    rw [if_neg hquote, if_neg hbackslash, if_neg hcontrol]
    cases readChars rest with
    | none => rfl
    | some r => rfl

/-- **A string reads back.** -/
theorem readString_jsonString (s : String) (rest : List Char) :
    readString ((jsonString s).toList ++ rest) = some (s, rest) := by
  have hchars (cs : List Char) :
      readChars ((String.join (cs.map jsonChar)).toList ++ '"' :: rest) = some (cs, rest) := by
    induction cs with
    | nil =>
      rw [List.map_nil, String.join_nil]
      show readChars ('"' :: rest) = _
      rw [readChars.eq_def]
      exact if_pos rfl
    | cons c cs ih =>
      rw [List.map_cons, String.join_cons, String.toList_append, List.append_assoc,
        readChars_jsonChar, ih]
      rfl
  have hlist : (jsonString s).toList ++ rest
      = '"' :: ((String.join (s.toList.map jsonChar)).toList ++ '"' :: rest) := by
    unfold jsonString
    rw [String.toList_append, String.toList_append, List.append_assoc, List.append_assoc]
    rfl
  rw [hlist, readString, hchars]
  exact congrArg some (Prod.ext String.ofList_toList rfl)

/-- **A number reads back**, where something else follows. -/
theorem readNat_toString (n : Nat) {c : Char} (hc : c.isDigit = false) (rest : List Char) :
    readNat ((toString n).toList ++ c :: rest) = some (n, c :: rest) := by
  have hdigits : ∀ d ∈ Nat.toDigits 10 n, d.isDigit = true := fun d hd =>
    Nat.isDigit_of_mem_toDigits (by decide) (by decide) hd
  have htake : (Nat.toDigits 10 n ++ c :: rest).takeWhile Char.isDigit
      = Nat.toDigits 10 n := by
    rw [List.takeWhile_append_of_pos hdigits, List.takeWhile_cons_of_neg (by simp [hc]),
      List.append_nil]
  have hdrop : (Nat.toDigits 10 n ++ c :: rest).dropWhile Char.isDigit = c :: rest := by
    rw [List.dropWhile_append_of_pos hdigits, List.dropWhile_cons_of_neg (by simp [hc])]
  unfold readNat
  rw [Nat.toString_eq_repr, Nat.toList_repr, htake, hdrop, if_neg Nat.toDigits_ne_nil,
    Nat.ofDigitChars_ten_toDigits]

/-! ## What is written is on one line -/

theorem newline_notMem_jsonChar (c : Char) : '\n' ∉ (jsonChar c).toList := by
  have hcontrol : ∀ n < 0x20, '\n' ∉ (Nat.toDigits 16 n).leftpad 2 '0' := by decide
  unfold jsonChar
  split
  · decide
  split
  · decide
  split
  · decide
  split
  · decide
  split
  · decide
  split
  · decide
  split
  · decide
  split
  · rename_i hlt
    rw [String.toList_append, List.mem_append, not_or]
    refine ⟨by decide, ?_⟩
    rw [String.toList_ofList]
    exact hcontrol c.toNat hlt
  · rename_i hne _ _ _
    rw [String.toList_singleton, List.mem_singleton]
    exact Ne.symm hne

/-- **A string has its newlines escaped.** -/
theorem newline_notMem_jsonString (s : String) : '\n' ∉ (jsonString s).toList := by
  have hchars (cs : List Char) : '\n' ∉ (String.join (cs.map jsonChar)).toList := by
    induction cs with
    | nil =>
      rw [List.map_nil, String.join_nil]
      exact List.not_mem_nil
    | cons c cs ih =>
      rw [List.map_cons, String.join_cons, String.toList_append, List.mem_append, not_or]
      exact ⟨newline_notMem_jsonChar c, ih⟩
  unfold jsonString
  rw [String.toList_append, String.toList_append, List.mem_append, List.mem_append, not_or,
    not_or]
  exact ⟨⟨by decide, hchars s.toList⟩, by decide⟩

theorem newline_notMem_toString (n : Nat) : '\n' ∉ (toString n).toList := by
  rw [Nat.toString_eq_repr, Nat.toList_repr]
  intro h
  exact absurd (Nat.isDigit_of_mem_toDigits (by decide) (by decide) h) (by decide)

end Json
