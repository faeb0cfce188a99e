import Banc.Lib.Lines
import Banc.Runner.Results

/-!
# Reading records back

What is needed of `serde_json` where a file of records is read: the text of a record
has no newline in it, and reads back as that record (`SerdeJson.Faithful`). The
compact text has both properties. Its reader (`readTestRecord`) takes the fields in
the order in which they are written, those that may be missing only if they are
there.
-/

namespace Banc

open Fs Json Postcard

/-- `'\n'`, as a byte. -/
def lineFeed : UInt8 := 0x0A

/-- **`serde_json`, both ways**: `to_string` emits no raw newline, and `from_str` takes
its text back. -/
structure SerdeJson.Faithful (serde : SerdeJson) (fromStr : List UInt8 → Option TestRecord) :
    Prop where
  one_line : ∀ r line, serde.toString r = some line → lineFeed ∉ utf8 line
  fromStr_toString : ∀ r line, serde.toString r = some line → fromStr (utf8 line) = some r

/-! ## The reader -/

/-- Read the name of an outcome. -/
def readOutcome (name : String) : Option Outcome :=
  if name = "passed" then some .passed
  else if name = "failed" then some .failed
  else if name = "skipped" then some .skipped
  else none

/-- Read a field that may be left out. -/
def readOptionalField (name : String) (cs : List Char) : Option (Option String × List Char) :=
  match expect (",\"" ++ name ++ "\":").toList cs with
  | none => some (none, cs)
  | some cs => (readString cs).map (fun r => (some r.1, r.2))

/-- Read the text of a record. -/
def readTestRecord (cs : List Char) : Option TestRecord := do
  let cs ← expect "\x7b\"schema\":".toList cs
  let (schema, cs) ← readNat cs
  let cs ← expect ",\"suite\":".toList cs
  let (suite, cs) ← readString cs
  let cs ← expect ",\"test\":".toList cs
  let (test, cs) ← readString cs
  let cs ← expect ",\"outcome\":".toList cs
  let (name, cs) ← readString cs
  let outcome ← readOutcome name
  let (reason, cs) ← readOptionalField "reason" cs
  let cs ← expect ",\"attempts\":".toList cs
  let (attempts, cs) ← readNat cs
  let cs ← expect ",\"duration_ms\":".toList cs
  let (durationMs, cs) ← readNat cs
  let cs ← expect ",\"finished_at\":".toList cs
  let (finishedAt, cs) ← readNat cs
  let (evidence, cs) ← readOptionalField "evidence" cs
  if cs = "\x7d".toList then
    some ⟨schema, suite, test, outcome, reason, attempts, durationMs, finishedAt,
      evidence.map utf8⟩
  else none

/-- Read a line. -/
def TestRecord.fromStr (bs : List UInt8) : Option TestRecord :=
  (String.fromUTF8? ⟨bs.toArray⟩).bind (fun text => readTestRecord text.toList)

theorem readOutcome_name (o : Outcome) : readOutcome o.name = some o := by
  cases o with
  | passed => rfl
  | failed => rfl
  | skipped => rfl

/-- A field that is there is read. -/
theorem readOptionalField_some (name value : String) (rest : List Char) :
    readOptionalField name ((optionalField name (some value)).toList ++ rest)
      = some (some value, rest) := by
  have hlist : (optionalField name (some value)).toList ++ rest
      = (",\"" ++ name ++ "\":").toList ++ ((jsonString value).toList ++ rest) := by
    unfold optionalField
    simp only [String.toList_append, List.append_assoc]
  unfold readOptionalField
  rw [hlist, expect_append]
  dsimp only
  rw [readString_jsonString]
  rfl

/-- A field that is not there is not read. -/
theorem readOptionalField_none {name : String} {cs : List Char}
    (h : expect (",\"" ++ name ++ "\":").toList cs = none) :
    readOptionalField name cs = some (none, cs) := by
  unfold readOptionalField
  rw [h]

/-- Either way, where what follows is no such field. -/
theorem readOptionalField_optionalField {name : String} {rest : List Char}
    (h : expect (",\"" ++ name ++ "\":").toList rest = none) (value : Option String) :
    readOptionalField name ((optionalField name value).toList ++ rest) = some (value, rest) := by
  cases value with
  | none => exact readOptionalField_none h
  | some value => exact readOptionalField_some name value rest

/-- A number reads back where a text follows that does not begin with a digit. -/
theorem readNat_append {t : List Char} (h : t.head?.map Char.isDigit = some false) (n : ℕ)
    (rest : List Char) :
    readNat ((toString n).toList ++ (t ++ rest)) = some (n, t ++ rest) := by
  obtain ⟨c, hc, hdigit⟩ := Option.map_eq_some_iff.mp h
  obtain ⟨cs, rfl⟩ := List.head?_eq_some_iff.mp hc
  exact readNat_toString n hdigit (cs ++ rest)

/-- A text that is different from its beginning is not read. -/
theorem expect_eq_none {text other : List Char} (hle : text.length ≤ other.length)
    (hne : other.take text.length ≠ text) (rest : List Char) :
    expect text (other ++ rest) = none := by
  unfold expect
  rw [List.take_append_of_le_length hle, if_neg hne]

/-- The end of a record. -/
theorem readEvidence_eq (finishedAt : ℕ) (evidence : Option String) :
    readNat ((toString finishedAt).toList
        ++ ((optionalField "evidence" evidence).toList ++ "\x7d".toList))
      = some (finishedAt, (optionalField "evidence" evidence).toList ++ "\x7d".toList) := by
  cases evidence with
  | none => exact readNat_append (t := "\x7d".toList) (by decide) finishedAt []
  | some text =>
    have hlist : (optionalField "evidence" (some text)).toList ++ "\x7d".toList
        = ",\"evidence\":".toList ++ ((jsonString text).toList ++ "\x7d".toList) := by
      unfold optionalField
      simp only [String.toList_append, List.append_assoc]
      rfl
    rw [hlist]
    exact readNat_append (by decide) finishedAt _

/-- **A record reads back.** -/
theorem readTestRecord_compactJson (r : TestRecord) (evidence : Option String)
    (hevidence : r.evidence = evidence.map utf8) :
    readTestRecord (compactJson r evidence).toList = some r := by
  have hlist : (compactJson r evidence).toList
      = "\x7b\"schema\":".toList ++ ((toString r.schema).toList
        ++ (",\"suite\":".toList ++ ((jsonString r.suite).toList
        ++ (",\"test\":".toList ++ ((jsonString r.test).toList
        ++ (",\"outcome\":".toList ++ ((jsonString r.outcome.name).toList
        ++ ((optionalField "reason" r.reason).toList
        ++ (",\"attempts\":".toList ++ ((toString r.attempts).toList
        ++ (",\"duration_ms\":".toList ++ ((toString r.durationMs).toList
        ++ (",\"finished_at\":".toList ++ ((toString r.finishedAt).toList
        ++ ((optionalField "evidence" evidence).toList ++ "\x7d".toList)))))))))))))))
      := by
    unfold compactJson
    simp only [String.toList_append, List.append_assoc]
  have hreason (rest : List Char) :
      readOptionalField "reason"
          ((optionalField "reason" r.reason).toList ++ (",\"attempts\":".toList ++ rest))
        = some (r.reason, ",\"attempts\":".toList ++ rest) :=
    readOptionalField_optionalField (expect_eq_none (by decide) (by decide) rest) r.reason
  have hend : readOptionalField "evidence"
      ((optionalField "evidence" evidence).toList ++ "\x7d".toList)
        = some (evidence, "\x7d".toList) :=
    readOptionalField_optionalField (by decide) evidence
  have hschema := @readNat_append ",\"suite\":".toList (by decide) r.schema
  have hattempts := @readNat_append ",\"duration_ms\":".toList (by decide) r.attempts
  have hduration := @readNat_append ",\"finished_at\":".toList (by decide) r.durationMs
  unfold readTestRecord
  rw [hlist]
  -- one field after the other
  refine Option.bind_eq_some_iff.mpr ⟨_, expect_append _ _, ?_⟩
  refine Option.bind_eq_some_iff.mpr ⟨_, hschema _, ?_⟩
  refine Option.bind_eq_some_iff.mpr ⟨_, expect_append _ _, ?_⟩
  refine Option.bind_eq_some_iff.mpr ⟨_, readString_jsonString _ _, ?_⟩
  refine Option.bind_eq_some_iff.mpr ⟨_, expect_append _ _, ?_⟩
  refine Option.bind_eq_some_iff.mpr ⟨_, readString_jsonString _ _, ?_⟩
  refine Option.bind_eq_some_iff.mpr ⟨_, expect_append _ _, ?_⟩
  refine Option.bind_eq_some_iff.mpr ⟨_, readString_jsonString _ _, ?_⟩
  refine Option.bind_eq_some_iff.mpr ⟨_, readOutcome_name _, ?_⟩
  refine Option.bind_eq_some_iff.mpr ⟨_, hreason _, ?_⟩
  refine Option.bind_eq_some_iff.mpr ⟨_, expect_append _ _, ?_⟩
  refine Option.bind_eq_some_iff.mpr ⟨_, hattempts _, ?_⟩
  refine Option.bind_eq_some_iff.mpr ⟨_, expect_append _ _, ?_⟩
  refine Option.bind_eq_some_iff.mpr ⟨_, hduration _, ?_⟩
  refine Option.bind_eq_some_iff.mpr ⟨_, expect_append _ _, ?_⟩
  refine Option.bind_eq_some_iff.mpr ⟨_, readEvidence_eq _ _, ?_⟩
  refine Option.bind_eq_some_iff.mpr ⟨_, hend, ?_⟩
  dsimp only
  rw [if_pos rfl, ← hevidence]

/-! ## The compact text -/

theorem newline_notMem_optionalField {name : String} (h : '\n' ∉ name.toList)
    (value : Option String) : '\n' ∉ (optionalField name value).toList := by
  cases value with
  | none => exact List.not_mem_nil
  | some value =>
    unfold optionalField
    simp only [String.toList_append, List.mem_append, not_or]
    exact ⟨⟨⟨by decide, h⟩, by decide⟩, newline_notMem_jsonString value⟩

/-- **A record is on one line.** -/
theorem newline_notMem_compactJson (r : TestRecord) (evidence : Option String) :
    '\n' ∉ (compactJson r evidence).toList := by
  unfold compactJson
  simp only [String.toList_append, List.mem_append, not_or, and_assoc]
  have hstring := newline_notMem_jsonString
  have hnat := newline_notMem_toString
  have hfield := @newline_notMem_optionalField
  exact ⟨by decide, hnat _, by decide, hstring _, by decide, hstring _, by decide, hstring _,
    hfield (by decide) _, by decide, hnat _, by decide, hnat _, by decide, hnat _,
    hfield (by decide) _, by decide⟩

/-- **The compact text has both properties.** -/
theorem serdeJson_faithful : serdeJson.Faithful TestRecord.fromStr := by
  have hline : ∀ r line, serdeJson.toString r = some line →
      ∃ evidence, line = compactJson r evidence ∧ r.evidence = evidence.map utf8 := by
    intro r line h
    cases hevidence : r.evidence with
    | none =>
      have hnone : serdeJson.toString r = some (compactJson r none) := by
        unfold serdeJson
        dsimp only
        rw [hevidence]
      exact ⟨none, Option.some.inj (h.symm.trans hnone), rfl⟩
    | some p =>
      have hsome : serdeJson.toString r = (String.fromUTF8? ⟨p.toArray⟩).map
          (fun text => compactJson r (some text)) := by
        unfold serdeJson
        dsimp only
        rw [hevidence]
      obtain ⟨text, htext, hline⟩ := Option.map_eq_some_iff.mp (hsome.symm.trans h)
      exact ⟨some text, hline.symm, congrArg some (utf8_of_fromUTF8? htext).symm⟩
  constructor
  · intro r line h hmem
    obtain ⟨evidence, rfl, -⟩ := hline r line h
    exact newline_notMem_compactJson r evidence (mem_of_mem_utf8 (c := '\n') (by decide) hmem)
  · intro r line h
    obtain ⟨evidence, rfl, hevidence⟩ := hline r line h
    unfold TestRecord.fromStr
    rw [fromUTF8?_utf8, Option.bind_some]
    exact readTestRecord_compactJson r evidence hevidence

end Banc
