import Banc.Lib.Json
import Banc.Runner.Evidence

/-!
# Machine-readable results

`banc-host/src/results.rs`: one record for each executed trial, appended to
`results.jsonl` as a line of JSON. Appending is best effort, so a record that
cannot be written is passed over in silence; where the disk takes everything,
that is one `serde_json` has no text for (`append_of_writable`).

Of `serde_json` it is known that it has a text for any record whose evidence,
if it has any, is at a path that is a string (`SerdeJson`); `compactJson` is the
text it has.
-/

namespace Banc

open Fs Json Postcard

/-- `SCHEMA`. -/
def schema : ℕ := 1

/-- How a trial has ended. `skipped` says that there is no rig on this machine, so that nobody
takes it for a pass. -/
inductive Outcome where
  | passed
  | failed
  | skipped
  deriving DecidableEq

/-- What one line of the results file says. -/
structure TestRecord where
  schema : ℕ
  /-- The stem of the test binary. -/
  suite : String
  test : String
  outcome : Outcome
  /-- Failure message or skip reason, without the evidence tail. -/
  reason : Option String
  /-- Attempts consumed. -/
  attempts : ℕ
  durationMs : ℕ
  /-- Unix seconds when the trial finished. -/
  finishedAt : ℕ
  /-- The evidence file of the failure. -/
  evidence : Option Path
  deriving DecidableEq

/-- `TestRecord::new`, at a time given in seconds since the epoch, if it is after
that. -/
def TestRecord.new (suite test : String) (outcome : Outcome) (sinceEpoch : Option ℕ) :
    TestRecord where
  schema := Banc.schema
  suite := suite
  test := test
  outcome := outcome
  reason := none
  attempts := 1
  durationMs := 0
  finishedAt := sinceEpoch.getD 0
  evidence := none

/-- `serde_json::to_string`, for a record. -/
structure SerdeJson where
  toString : TestRecord → Option String
  /-- A path is serialized as a string, and refused if it is none. -/
  isSome_toString : ∀ r, (toString r).isSome = true ↔ ∀ p ∈ r.evidence, isUtf8 p = true

/-- `results.jsonl` in a directory. -/
def resultsPath (dir : Path) : Path := join dir (utf8 "results.jsonl")

/-- `append`: append one record, if that is possible. -/
def append (serde : SerdeJson) (host : HostFs) (dir : Path) (record : TestRecord)
    (disk : Disk) : Disk :=
  match serde.toString record with
  | none => disk
  | some line =>
    match host.createDirAll dir with
    | .error _ => disk
    | .ok () =>
      match host.openFile (resultsPath dir) with
      | .error _ => disk
      | .ok () => disk.append (resultsPath dir) (utf8 (line ++ "\n"))

/-- What is appended for a record where nothing is refused. -/
theorem append_of_writable {host : HostFs} (hhost : host.Writable) (serde : SerdeJson)
    (dir : Path) (record : TestRecord) (disk : Disk) :
    append serde host dir record disk
      = match serde.toString record with
        | none => disk
        | some line => disk.append (resultsPath dir) (utf8 (line ++ "\n")) := by
  rw [append, (hhost dir).1, (hhost (resultsPath dir)).2]

/-- Appending a record leaves every other file alone. -/
theorem append_ne_results {p : Path} (serde : SerdeJson) (host : HostFs) {dir : Path}
    (hp : p ≠ resultsPath dir) (record : TestRecord) (disk : Disk) :
    append serde host dir record disk p = disk p := by
  rw [append]
  cases serde.toString record with
  | none => rfl
  | some line =>
    cases host.createDirAll dir with
    | error e => rfl
    | ok u =>
      show (match host.openFile (resultsPath dir) with
        | .error _ => disk
        | .ok () => disk.append (resultsPath dir) (utf8 (line ++ "\n"))) p = disk p
      cases host.openFile (resultsPath dir) with
      | error e => rfl
      | ok u => exact append_ne hp disk _

/-- A record with no evidence, or evidence at a path that is a string, has a
text. -/
theorem SerdeJson.exists_line (serde : SerdeJson) {r : TestRecord}
    (h : ∀ p ∈ r.evidence, isUtf8 p = true) : ∃ line, serde.toString r = some line :=
  Option.isSome_iff_exists.mp ((serde.isSome_toString r).mpr h)

/-- What the path of a name ends in. -/
theorem getLast?_join {name : String} {b : UInt8} (dir : Path)
    (hrelative : isAbsolute (utf8 name) = false) (h : (utf8 name).getLast? = some b) :
    (join dir (utf8 name)).getLast? = some b := by
  rw [join_of_relative hrelative, List.getLast?_append, h]
  rfl

/-- Evidence and results are never in the same file, whatever the directories. -/
theorem join_logName_ne_resultsPath (dir dir' : Path) (test : String) :
    join dir (utf8 (logName test)) ≠ resultsPath dir' := by
  have hlog : (utf8 (logName test)).getLast? = some 0x67 := by
    rw [logName, utf8_append, List.getLast?_append]
    rfl
  have hresults : (resultsPath dir').getLast? = some 0x6C :=
    getLast?_join dir' (isAbsolute_utf8_cons (c := 'r') (by decide) (by decide)) (by rfl)
  intro h
  rw [← h, getLast?_join dir (isAbsolute_logName test) hlog] at hresults
  exact absurd hresults (by decide)

/-! ## The text of a record -/

/-- `rename_all = "snake_case"`. -/
def Outcome.name : Outcome → String
  | .passed => "passed"
  | .failed => "failed"
  | .skipped => "skipped"

/-- A field that is left out when there is nothing in it. -/
def optionalField (name : String) : Option String → String
  | none => ""
  | some value => ",\"" ++ name ++ "\":" ++ jsonString value

/-- The text of a record, on one line and without blanks. -/
def compactJson (r : TestRecord) (evidence : Option String) : String :=
  "\x7b\"schema\":" ++ toString r.schema
    ++ ",\"suite\":" ++ jsonString r.suite
    ++ ",\"test\":" ++ jsonString r.test
    ++ ",\"outcome\":" ++ jsonString r.outcome.name
    ++ optionalField "reason" r.reason
    ++ ",\"attempts\":" ++ toString r.attempts
    ++ ",\"duration_ms\":" ++ toString r.durationMs
    ++ ",\"finished_at\":" ++ toString r.finishedAt
    ++ optionalField "evidence" evidence ++ "\x7d"

/-- The compact text of records. -/
def serdeJson : SerdeJson where
  toString r :=
    match r.evidence with
    | none => some (compactJson r none)
    | some p => (String.fromUTF8? ⟨p.toArray⟩).map (fun text => compactJson r (some text))
  isSome_toString r := by
    cases r.evidence with
    | none => simp
    | some p => simp [isUtf8]

end Banc
