import Banc.Device.DeviceTest
import Banc.Probe.Rtt
import Banc.Runner.Results

/-!
# One trial

The closure that `run` of `banc-host/src/runner.rs` makes of a test, from the
acquisition of the rig to the value it returns. A test is declared with a number
of attempts, and what its body does is left open: it records something in each
attempt, and returns, with or without an error, or panics.

The files of a trial are written at two points, the evidence of a failure by
`persist` and the record by `append`. Neither looks at what is there, so the
closure is a function, `runTrial`, of the rig and the test, and the files are
written afterwards, in that order (`Verdict.commit`).

A panic in an attempt unwinds through `block_on`, out of the attempt loop and
out of the closure. It is caught in libtest-mimic, which reports a failure.
-/

namespace Banc

open Fs Postcard

/-- What an attempt does. What earlier attempts have left behind may record as
well; this is attributed to the attempt during which, or after which, it happens. -/
structure Attempt where
  /-- When it begins, in microseconds since the start of the trial. -/
  beginsUs : ℕ
  /-- What is recorded before its future has ended. -/
  recorded : List Entry
  /-- What its future returns, `none` if it panics. -/
  result : Option (Except Failed Unit)
  /-- When it ends. -/
  endsUs : ℕ
  /-- What is recorded after that, while its runtime is torn down, and until the next
  attempt. -/
  left : List Entry

/-- The attempt returns an error. -/
def Attempt.errs (a : Attempt) : Bool :=
  match a.result with
  | some (.error _) => true
  | _ => false

/-- `BancTest`: a test, and how often it may be attempted. -/
structure BancTest where
  name : String
  attempts : ℕ
  /-- What the test does in an attempt, given its 1-based number. -/
  f : ℕ → Attempt
  attempts_pos : 1 ≤ attempts

/-- `BancTest::new`. -/
def BancTest.new (name : String) (f : ℕ → Attempt) : BancTest := ⟨name, 1, f, le_rfl⟩

/-- `BancTest::attempts`: allow up to `attempts` runs of the test. -/
def BancTest.allow (test : BancTest) (attempts : ℕ) : BancTest :=
  { test with attempts := max attempts 1, attempts_pos := Nat.le_max_right attempts 1 }

/-! ## The attempts -/

/-- The variables of the attempt loop. -/
structure Loop where
  evidence : Evidence
  /-- `none` once an attempt has panicked. -/
  result : Option (Except Failed Unit)
  attemptsUsed : ℕ
  /-- The attempts for which the test function has been called. -/
  invoked : List ℕ

/-- The message of a failure. -/
def Failed.text (failed : Failed) : String := failed.msg.getD "test failed"

namespace BancTest

variable (test : BancTest)

/-- The evidence when an attempt has ended: a boundary marker, unless it is the
first, and what it has recorded. -/
def attempted (attempt : ℕ) (evidence : Evidence) : Evidence :=
  let ran := test.f attempt
  let evidence :=
    if 1 < attempt then
      evidence.record
        ⟨ran.beginsUs, "runner", "--- attempt " ++ toString attempt ++ " ---"⟩
    else evidence
  evidence.recordAll ran.recorded

/-- The evidence when an attempt has failed: the error is recorded, unless the
attempt was the last. -/
def retried (attempt : ℕ) (failed : Failed) (evidence : Evidence) : Evidence :=
  if attempt < test.attempts then
    evidence.record ⟨(test.f attempt).endsUs, "runner",
      "attempt " ++ toString attempt ++ " failed: " ++ failed.text⟩
  else evidence

/-- The evidence when the runtime of an attempt is gone. -/
def tornDown (attempt : ℕ) (evidence : Evidence) : Evidence :=
  evidence.recordAll (test.f attempt).left

/-- The attempt loop, over the numbers of the attempts. -/
def attemptLoop : List ℕ → Loop → Loop
  | [], s => s
  | attempt :: rest, s =>
    let evidence := test.attempted attempt s.evidence
    let invoked := s.invoked ++ [attempt]
    match (test.f attempt).result with
    -- the closure is left here, with what it holds
    | none => ⟨test.tornDown attempt evidence, none, attempt, invoked⟩
    | some (.ok ()) => ⟨test.tornDown attempt evidence, some (.ok ()), attempt, invoked⟩
    | some (.error failed) =>
      let evidence := test.retried attempt failed evidence
      attemptLoop rest
        ⟨test.tornDown attempt evidence, some (.error failed), attempt, invoked⟩

/-- The loop over all attempts the test is declared with. -/
def loop : Loop :=
  test.attemptLoop (List.range' 1 test.attempts) ⟨.new test.name, some (.ok ()), 1, []⟩

end BancTest

/-! ## The closure -/

/-- A rig, as far as a trial is concerned. -/
structure Rig where
  /-- The directory of the configuration. -/
  baseDir : Path

/-- Why `Rig::acquire` did not return a rig. -/
inductive Acquire where
  | skip (reason : String)
  /-- The error, as `{e:#}` prints it. -/
  | fail (e : String)

/-- The outcome of the acquisition, shared across trials. -/
inductive RigState where
  | ready (rig : Rig)
  | skip (reason : String)
  | fail (e : String)

/-- The state of the rig, from what `Rig::acquire` returns. -/
def RigState.ofAcquire : Except Acquire Rig → RigState
  | .ok rig => .ready rig
  | .error (.skip reason) => .skip reason
  | .error (.fail e) => .fail e

/-- The file system, and what `BANC_ARTIFACTS` is set to. -/
structure Host extends HostFs where
  artifacts : Option Path

/-- `artifacts_dir`. -/
def Rig.artifactsDir (rig : Rig) (host : Host) : Path :=
  host.artifacts.getD (join (join rig.baseDir (utf8 "target")) (utf8 "banc-artifacts"))

/-- The file the evidence of a test is persisted in. -/
def Rig.logPath (rig : Rig) (host : Host) (test : String) : Path :=
  join (rig.artifactsDir host) (utf8 (logName test))

/-- It is never the results file. -/
theorem resultsPath_ne_logPath (dir : Path) (rig : Rig) (host : Host) (test : String) :
    resultsPath dir ≠ rig.logPath host test :=
  (join_logName_ne_resultsPath (rig.artifactsDir host) dir test).symm

/-- `results_dir`. -/
def resultsDir (host : Host) (state : RigState) : Option Path :=
  match host.artifacts with
  | some dir => some dir
  | none =>
    match state with
    | .ready rig => some (rig.artifactsDir host)
    | _ => none

/-- `record_trial`. -/
def recordTrial (serde : SerdeJson) (host : Host) (state : RigState)
    (record : TestRecord) (disk : Disk) : Disk :=
  match resultsDir host state with
  | some dir => append serde host.toHostFs dir record disk
  | none => disk

/-- libtest-mimic's `Completion`. -/
inductive Completion where
  | completed
  | ignoredWith (reason : String)

/-- A test that is executed, and what its clocks say at the end. -/
structure Trial where
  test : BancTest
  elapsedMs : ℕ
  /-- Seconds since the epoch, if it is after that. -/
  sinceEpoch : Option ℕ

/-- What becomes of a trial. -/
structure Verdict where
  /-- What the closure returns, `none` if it unwinds. -/
  exit : Option (Except Failed Completion)
  /-- The evidence at the end, if the test was attempted. -/
  evidence : Option Evidence
  /-- The file that is written, and what to it. -/
  log : Option (Path × List UInt8)
  /-- The record that is handed to `record_trial`. -/
  record : Option TestRecord

/-- The failure branch: the last attempt has returned an error. -/
def failedTrial (host : Host) (rig : Rig) (evidence : Evidence) (record : TestRecord)
    (failed : Failed) : Verdict :=
  let msg := failed.text
  let record := { record with outcome := .failed, reason := some msg }
  if evidence.isEmpty then ⟨some (.error (.fromMsg msg)), some evidence, none, some record⟩
  else
    match evidence.persist host.toHostFs (rig.artifactsDir host) with
    | .ok (path, content) =>
      let msg := msg ++ "\n--- evidence (tail) ---\n" ++ evidence.tail 40 ++ "full log: "
        ++ String.ofList (Probe.fromUtf8Lossy path)
      ⟨some (.error (.fromMsg msg)), some evidence, some (path, content),
        some { record with evidence := some path }⟩
    | .error e =>
      let msg := msg ++ "\n--- evidence (tail; persist failed: " ++ e ++ ") ---\n"
        ++ evidence.tail 40
      ⟨some (.error (.fromMsg msg)), some evidence, none, some record⟩

/-- The record of a trial whose attempts are over, as if it had passed. -/
def Trial.record (t : Trial) (suite : String) : TestRecord :=
  { TestRecord.new suite t.test.name .passed t.sinceEpoch with
    attempts := t.test.loop.attemptsUsed
    durationMs := t.elapsedMs % 2 ^ 64 }

/-- The closure of a test. -/
def runTrial (host : Host) (suite : String) (state : RigState) (t : Trial) : Verdict :=
  match state with
  | .skip reason =>
    let record := TestRecord.new suite t.test.name .skipped t.sinceEpoch
    ⟨some (.ok (.ignoredWith reason)), none, none,
      some { record with reason := some reason }⟩
  | .fail e =>
    let record := TestRecord.new suite t.test.name .failed t.sinceEpoch
    ⟨some (.error (.fromMsg ("rig unavailable: " ++ e))), none, none,
      some { record with reason := some ("rig unavailable: " ++ e) }⟩
  | .ready rig =>
    let loop := t.test.loop
    match loop.result with
    | none => ⟨none, some loop.evidence, none, none⟩
    | some (.ok ()) =>
      ⟨some (.ok .completed), some loop.evidence, none, some (t.record suite)⟩
    | some (.error failed) => failedTrial host rig loop.evidence (t.record suite) failed

/-- The evidence is written. -/
def Verdict.writeLog (v : Verdict) (disk : Disk) : Disk :=
  match v.log with
  | some (path, content) => disk.write path content
  | none => disk

/-- The files a trial writes: first the evidence, then the record. -/
def Verdict.commit (v : Verdict) (serde : SerdeJson) (host : Host) (state : RigState)
    (disk : Disk) : Disk :=
  match v.record with
  | some record => recordTrial serde host state record (v.writeLog disk)
  | none => v.writeLog disk

/-- What libtest-mimic reports of a trial. -/
inductive Report where
  | passed
  | ignored
  | failed
  deriving DecidableEq

/-- The report of a trial, from the value of its closure; a panic is caught, and
is a failure. -/
def report : Option (Except Failed Completion) → Report
  | some (.ok .completed) => .passed
  | some (.ok (.ignoredWith _)) => .ignored
  | some (.error _) => .failed
  | none => .failed

/-! ## What the attempts come to -/

namespace BancTest

variable (test : BancTest)

/-- The first attempt that does not return an error, if there is one among those
the test is declared with. -/
def decisive : Option ℕ :=
  (List.range' 1 test.attempts).find? (fun k => !(test.f k).errs)

/-- A test that fails has something to show: what its attempts have recorded, or
the markers between them. -/
def leavesEvidence : Bool :=
  1 < test.attempts || !((test.f 1).recorded ++ (test.f 1).left).isEmpty

@[simp] theorem test_attempted (attempt : ℕ) (evidence : Evidence) :
    (test.attempted attempt evidence).test = evidence.test := by
  rw [attempted]
  split
  · simp
  · simp

@[simp] theorem test_retried (attempt : ℕ) (failed : Failed) (evidence : Evidence) :
    (test.retried attempt failed evidence).test = evidence.test := by
  rw [retried]
  split
  · simp
  · rfl

@[simp] theorem test_tornDown (attempt : ℕ) (evidence : Evidence) :
    (test.tornDown attempt evidence).test = evidence.test := by
  rw [tornDown, Evidence.test_recordAll]

/-- There is evidence if there was, or the attempt is a retry, or has recorded something. -/
theorem isEmpty_attempted (attempt : ℕ) (evidence : Evidence) :
    (test.attempted attempt evidence).isEmpty
      = (evidence.isEmpty && !decide (1 < attempt) && (test.f attempt).recorded.isEmpty) := by
  rw [attempted, Evidence.isEmpty_recordAll]
  split
  · simp [*]
  · simp [*]

/-- A retry leaves a line. -/
theorem isEmpty_retried (attempt : ℕ) (failed : Failed) (evidence : Evidence) :
    (test.retried attempt failed evidence).isEmpty
      = (evidence.isEmpty && !decide (attempt < test.attempts)) := by
  rw [retried]
  split
  · simp [*]
  · simp [*]

/-- And so may what is torn down after it. -/
theorem isEmpty_tornDown (attempt : ℕ) (evidence : Evidence) :
    (test.tornDown attempt evidence).isEmpty
      = (evidence.isEmpty && (test.f attempt).left.isEmpty) :=
  evidence.isEmpty_recordAll (test.f attempt).left

variable {test}

/-- The evidence stays that of the test. -/
theorem test_attemptLoop (attempts : List ℕ) (s : Loop) :
    (test.attemptLoop attempts s).evidence.test = s.evidence.test := by
  induction attempts generalizing s with
  | nil => rfl
  | cons attempt rest ih =>
    rw [attemptLoop]
    split
    · simp
    · simp
    · rw [ih, test_tornDown, test_retried, test_attempted]

/-- What there is to show does not go away. -/
theorem isEmpty_attemptLoop {attempts : List ℕ} {s : Loop}
    (h : s.evidence.isEmpty = false) :
    (test.attemptLoop attempts s).evidence.isEmpty = false := by
  induction attempts generalizing s with
  | nil => exact h
  | cons attempt rest ih =>
    have hattempted : (test.attempted attempt s.evidence).isEmpty = false := by
      rw [isEmpty_attempted, h, Bool.false_and, Bool.false_and]
    rw [attemptLoop]
    split
    · rw [isEmpty_tornDown, hattempted, Bool.false_and]
    · rw [isEmpty_tornDown, hattempted, Bool.false_and]
    · exact ih (by rw [isEmpty_tornDown, isEmpty_retried, hattempted, Bool.false_and,
        Bool.false_and])

/-- An attempt that returns an error leads on to the next. -/
theorem attemptLoop_cons_of_errs {attempt : ℕ} {failed : Failed}
    (h : (test.f attempt).result = some (.error failed)) (rest : List ℕ) (s : Loop) :
    test.attemptLoop (attempt :: rest) s
      = test.attemptLoop rest
          ⟨test.tornDown attempt
              (test.retried attempt failed (test.attempted attempt s.evidence)),
            some (.error failed), attempt, s.invoked ++ [attempt]⟩ := by
  rw [attemptLoop, h]

/-- An attempt that errs has a reason. -/
theorem exists_of_errs {a : Attempt} (h : a.errs = true) :
    ∃ failed, a.result = some (.error failed) := by
  rw [Attempt.errs] at h
  split at h
  · exact ⟨_, by assumption⟩
  · simp at h

/-- **The first attempt that returns no error decides.** -/
theorem result_attemptLoop_of_find {attempts : List ℕ} {k : ℕ}
    (h : attempts.find? (fun k => !(test.f k).errs) = some k) (s : Loop) :
    (test.attemptLoop attempts s).result = (test.f k).result := by
  induction attempts generalizing s with
  | nil => simp at h
  | cons attempt rest ih =>
    rw [List.find?_cons] at h
    cases herrs : (test.f attempt).errs with
    | true =>
      obtain ⟨failed, hfailed⟩ := exists_of_errs herrs
      rw [attemptLoop_cons_of_errs hfailed]
      exact ih (by simpa [herrs] using h) _
    | false =>
      obtain rfl : attempt = k := by simpa [herrs] using h
      rw [attemptLoop]
      split
      · exact Eq.symm ‹_›
      · exact Eq.symm ‹_›
      · rename_i hresult
        simp [Attempt.errs, hresult] at herrs

/-- If all attempts return an error, the loop ends with one. -/
theorem result_attemptLoop_of_find_none {attempts : List ℕ}
    (h : attempts.find? (fun k => !(test.f k).errs) = none) {s : Loop}
    (hs : ∃ failed, s.result = some (.error failed)) :
    ∃ failed, (test.attemptLoop attempts s).result = some (.error failed) := by
  induction attempts generalizing s with
  | nil => exact hs
  | cons attempt rest ih =>
    rw [List.find?_cons] at h
    cases herrs : (test.f attempt).errs with
    | true =>
      obtain ⟨failed, hfailed⟩ := exists_of_errs herrs
      rw [attemptLoop_cons_of_errs hfailed]
      exact ih (by simpa [herrs] using h) ⟨failed, rfl⟩
    | false => simp [herrs] at h

/-- There is a first attempt. -/
theorem range'_attempts (test : BancTest) :
    List.range' 1 test.attempts = 1 :: List.range' 2 (test.attempts - 1) := by
  obtain ⟨n, hn⟩ := Nat.exists_eq_add_of_le' test.attempts_pos
  rw [hn]
  rfl

/-- The evidence is the test's. -/
theorem test_loop (test : BancTest) : test.loop.evidence.test = test.name :=
  test_attemptLoop _ _

/-- **The result is that of the attempt that decides.** -/
theorem result_loop {k : ℕ} (h : test.decisive = some k) :
    test.loop.result = (test.f k).result :=
  result_attemptLoop_of_find h _

/-- What the deciding attempt returns is no error. -/
theorem errs_decisive {k : ℕ} (h : test.decisive = some k) : (test.f k).errs = false := by
  have hk := List.find?_some h
  simpa using hk

/-- **A test all of whose attempts return errors** fails, and has evidence
exactly if it leaves some. -/
theorem loop_of_undecided (h : test.decisive = none) :
    (∃ failed, test.loop.result = some (.error failed))
      ∧ test.loop.evidence.isEmpty = !test.leavesEvidence := by
  rw [decisive, range'_attempts, List.find?_cons] at h
  cases herrs : (test.f 1).errs with
  | false => simp [herrs] at h
  | true =>
    obtain ⟨failed, hfailed⟩ := exists_of_errs herrs
    have hrest : (List.range' 2 (test.attempts - 1)).find? (fun k => !(test.f k).errs)
        = none := by simpa [herrs] using h
    rw [loop, range'_attempts, attemptLoop_cons_of_errs hfailed]
    refine ⟨result_attemptLoop_of_find_none hrest ⟨failed, rfl⟩, ?_⟩
    rw [leavesEvidence]
    by_cases hmore : 1 < test.attempts
    · -- the first failure is recorded
      rw [isEmpty_attemptLoop]
      · simp [hmore]
      · simp [isEmpty_tornDown, isEmpty_retried, hmore]
    · obtain hone : test.attempts = 1 := le_antisymm (not_lt.mp hmore) test.attempts_pos
      rw [hone]
      show (test.tornDown 1 (test.retried 1 failed
        (test.attempted 1 (.new test.name)))).isEmpty = _
      rw [isEmpty_tornDown, isEmpty_retried, isEmpty_attempted, hone]
      cases (test.f 1).recorded <;> simp [Evidence.new, Evidence.isEmpty]

end BancTest

/-! ## What the closure comes to -/

section RunTrial

variable {host : Host} {suite : String} {rig : Rig} {t : Trial}

/-- A panic unwinds past everything that is still to do. -/
theorem runTrial_of_panic (h : t.test.loop.result = none) :
    runTrial host suite (.ready rig) t = ⟨none, some t.test.loop.evidence, none, none⟩ := by
  simp only [runTrial, h]

/-- A test that passes leaves its record. -/
theorem runTrial_of_ok (h : t.test.loop.result = some (.ok ())) :
    runTrial host suite (.ready rig) t
      = ⟨some (.ok .completed), some t.test.loop.evidence, none, some (t.record suite)⟩ := by
  simp only [runTrial, h]

/-- One that fails, its evidence too. -/
theorem runTrial_of_error {failed : Failed} (h : t.test.loop.result = some (.error failed)) :
    runTrial host suite (.ready rig) t
      = failedTrial host rig t.test.loop.evidence (t.record suite) failed := by
  simp only [runTrial, h]

/-- A failure with nothing to show. -/
theorem failedTrial_of_isEmpty {evidence : Evidence} (h : evidence.isEmpty = true)
    (record : TestRecord) (failed : Failed) :
    failedTrial host rig evidence record failed
      = ⟨some (.error (.fromMsg failed.text)), some evidence, none,
          some { record with outcome := .failed, reason := some failed.text }⟩ := by
  rw [failedTrial, if_pos h]

/-- **A failure with something to show** is written to a file, which the record
links. -/
theorem failedTrial_of_persist {evidence : Evidence} (h : evidence.isEmpty = false)
    {path : Path} {content : List UInt8}
    (hpersist : evidence.persist host.toHostFs (rig.artifactsDir host) = .ok (path, content))
    (record : TestRecord) (failed : Failed) :
    ∃ msg, failedTrial host rig evidence record failed
      = ⟨some (.error (.fromMsg msg)), some evidence, some (path, content),
          some { record with
            outcome := .failed
            reason := some failed.text
            evidence := some path }⟩ := by
  rw [failedTrial, if_neg (by simp [h]), hpersist]
  exact ⟨_, rfl⟩

/-- Where it cannot be written, the failure is all there is. -/
theorem failedTrial_of_persist_error {evidence : Evidence} (h : evidence.isEmpty = false)
    {e : String}
    (hpersist : evidence.persist host.toHostFs (rig.artifactsDir host) = .error e)
    (record : TestRecord) (failed : Failed) :
    ∃ msg, failedTrial host rig evidence record failed
      = ⟨some (.error (.fromMsg msg)), some evidence, none,
          some { record with outcome := .failed, reason := some failed.text }⟩ := by
  rw [failedTrial, if_neg (by simp [h]), hpersist]
  exact ⟨_, rfl⟩

end RunTrial

end Banc
