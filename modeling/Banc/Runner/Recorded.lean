import Banc.Lib.Transition
import Banc.Runner.Trial

/-!
# Results agree with verdicts

A process runs the trials of a suite one after the other, in `run` of
`banc-host/src/runner.rs`. The rig is acquired in the first of them, and what
came of it holds for all.

`results.jsonl` is to have one line for each executed trial, which says of it
what libtest-mimic reports, and links the evidence of a failure (`Recorded`).
There are two ways for a trial to go unrecorded. An attempt may panic, which
leaves the closure past the code that writes the record – and past the code that
persists the evidence. And the evidence may be at a path that is no string,
which makes a record `serde_json` has no text for. Where neither is the case,
the trial is recorded, and recorded right (`recorded_iff`).
-/

namespace Banc

open Fs Postcard

/-- What a process runs its trials with. -/
structure Setting where
  host : Host
  serde : SerdeJson
  /-- `suite_name`. -/
  suite : String
  /-- What `Rig::acquire` returns. -/
  acquire : Except Acquire Rig

/-- A process between two trials: the rig, once it has been acquired, and the
files. -/
structure Process where
  rigState : Option RigState
  disk : Disk

/-- The rig a trial finds, or acquires. -/
def Process.getOrInit (p : Process) (env : Setting) : RigState :=
  p.rigState.getD (.ofAcquire env.acquire)

/-- What becomes of the next trial. -/
def Process.verdict (p : Process) (env : Setting) (t : Trial) : Verdict :=
  runTrial env.host env.suite (p.getOrInit env) t

/-- A trial is executed. -/
def Process.execute (p : Process) (env : Setting) (t : Trial) : Process :=
  let state := p.getOrInit env
  ⟨some state, (p.verdict env t).commit env.serde env.host state p.disk⟩

/-- The step function. -/
def Process.step (env : Setting) (p : Process) (t : Trial) : Option Process :=
  some (p.execute env t)

/-- A record is right about a trial that has left `disk` behind. -/
structure TestRecord.Agrees (r : TestRecord) (suite : String) (t : Trial) (v : Verdict)
    (disk : Disk) : Prop where
  suite_eq : r.suite = suite
  test_eq : r.test = t.test.name
  outcome : report v.exit = match r.outcome with
    | .passed => .passed
    | .skipped => .ignored
    | .failed => .failed
  evidence : report v.exit = .failed → ∀ ev ∈ v.evidence, ev.isEmpty = false →
    ∃ path ∈ r.evidence, disk path = some (utf8 ev.log)

/-- **The property**: a trial appends exactly one record to the results, and it is
right. -/
def Recorded (env : Setting) (p : Process) (t : Trial) : Prop :=
  ∃ dir ∈ resultsDir env.host (p.getOrInit env), ∃ r line,
    env.serde.toString r = some line
      ∧ (p.execute env t).disk.read (resultsPath dir)
        = p.disk.read (resultsPath dir) ++ utf8 (line ++ "\n")
      ∧ r.Agrees env.suite t (p.verdict env t) (p.execute env t).disk

/-- **The condition**: if there is a rig, then the first attempt that returns no
error does not panic; and if there is no such attempt, the evidence is at a path
that is a string, unless there is none. -/
def Recordable (host : Host) (state : RigState) (t : Trial) : Prop :=
  ∀ rig, state = .ready rig →
    (∀ k, t.test.decisive = some k → (t.test.f k).result ≠ none)
      ∧ (t.test.decisive = none → t.test.leavesEvidence = true →
          isUtf8 (rig.logPath host t.test.name) = true)

/-! ## Writing the files -/

section Commit

variable {host : Host} {serde : SerdeJson} {state : RigState} {v : Verdict}

/-- Writing the evidence leaves every other file alone. -/
theorem writeLog_ne {p : Path} (h : ∀ x ∈ v.log, p ≠ x.1) (disk : Disk) :
    v.writeLog disk p = disk p := by
  rw [Verdict.writeLog]
  cases hlog : v.log with
  | none => rfl
  | some x => exact write_ne (h x hlog) disk x.2

/-- What is in the results after a trial that hands over a record. -/
theorem read_commit (hhost : host.Writable) {dir : Path}
    (hdir : resultsDir host state = some dir) {r : TestRecord} (hrecord : v.record = some r)
    (hlog : ∀ x ∈ v.log, resultsPath dir ≠ x.1) (disk : Disk) :
    (v.commit serde host state disk).read (resultsPath dir)
      = disk.read (resultsPath dir)
        ++ match serde.toString r with
          | none => []
          | some line => utf8 (line ++ "\n") := by
  have hread : (v.writeLog disk).read (resultsPath dir) = disk.read (resultsPath dir) := by
    rw [Disk.read, writeLog_ne hlog]
    rfl
  rw [Verdict.commit, hrecord]
  show (recordTrial serde host state r (v.writeLog disk)).read _ = _
  rw [recordTrial, hdir]
  show (append serde host.toHostFs dir r (v.writeLog disk)).read _ = _
  rw [append_of_writable hhost]
  cases serde.toString r with
  | none =>
    rw [List.append_nil]
    exact hread
  | some line =>
    show ((v.writeLog disk).append _ _).read _ = _
    rw [read_append_same, hread]

/-- The evidence is in its file after the trial. -/
theorem commit_log {path : Path} {content : List UInt8} (hlog : v.log = some (path, content))
    (hpath : ∀ dir ∈ resultsDir host state, path ≠ resultsPath dir) (disk : Disk) :
    v.commit serde host state disk path = some content := by
  have hwritten : v.writeLog disk path = some content := by
    rw [Verdict.writeLog, hlog]
    exact write_same disk path content
  rw [Verdict.commit]
  cases v.record with
  | none => exact hwritten
  | some r =>
    show recordTrial serde host state r (v.writeLog disk) path = some content
    rw [recordTrial]
    cases hdir : resultsDir host state with
    | none => exact hwritten
    | some dir =>
      show append serde host.toHostFs dir r (v.writeLog disk) path = some content
      rw [append_ne_results serde host.toHostFs (hpath dir hdir), hwritten]

/-- A trial leaves all files alone but its evidence and the results. -/
theorem commit_ne {p : Path} (hlog : ∀ x ∈ v.log, p ≠ x.1)
    (hpath : ∀ dir ∈ resultsDir host state, p ≠ resultsPath dir) (disk : Disk) :
    v.commit serde host state disk p = disk p := by
  rw [Verdict.commit]
  cases v.record with
  | none => exact writeLog_ne hlog disk
  | some r =>
    show recordTrial serde host state r (v.writeLog disk) p = disk p
    rw [recordTrial]
    cases hdir : resultsDir host state with
    | none => exact writeLog_ne hlog disk
    | some dir =>
      show append serde host.toHostFs dir r (v.writeLog disk) p = disk p
      rw [append_ne_results serde host.toHostFs (hpath dir hdir), writeLog_ne hlog]

end Commit

/-! ## What is recorded -/

section Step

variable {env : Setting} {p : Process} {t : Trial}

/-- A trial that hands over a right record with a text is recorded. -/
theorem recorded_of_record (hhost : env.host.Writable)
    (hdir : resultsDir env.host (p.getOrInit env) ≠ none) {r : TestRecord}
    (hrecord : (p.verdict env t).record = some r)
    (htext : ∀ path ∈ r.evidence, isUtf8 path = true)
    (hlog : ∀ dir ∈ resultsDir env.host (p.getOrInit env),
      ∀ x ∈ (p.verdict env t).log, resultsPath dir ≠ x.1)
    (hagrees : r.Agrees env.suite t (p.verdict env t) (p.execute env t).disk) :
    Recorded env p t := by
  obtain ⟨dir, hdir⟩ := Option.ne_none_iff_exists'.mp hdir
  obtain ⟨line, hline⟩ := env.serde.exists_line htext
  refine ⟨dir, hdir, r, line, hline, ?_, hagrees⟩
  show ((p.verdict env t).commit env.serde env.host _ p.disk).read _ = _
  rw [read_commit hhost hdir hrecord (hlog dir hdir), hline]

/-- A trial that leaves the results as they are is not. -/
theorem not_recorded_of_read
    (h : ∀ dir ∈ resultsDir env.host (p.getOrInit env),
      (p.execute env t).disk.read (resultsPath dir) = p.disk.read (resultsPath dir)) :
    ¬ Recorded env p t := by
  rintro ⟨dir, hdir, r, line, -, happend, -⟩
  rw [h dir hdir] at happend
  have hnil := List.self_eq_append_right.mp happend
  rw [show ([] : List UInt8) = utf8 "" from rfl, utf8_inj] at hnil
  have hlength := congrArg String.length hnil
  simp at hlength

/-- A trial that attempts nothing is recorded, with the reason. -/
theorem recorded_of_unattempted (hhost : env.host.Writable)
    (hdir : resultsDir env.host (p.getOrInit env) ≠ none) {exit : Except Failed Completion}
    {outcome : Outcome} {reason : String}
    (hreport : report (some exit) = match outcome with
      | .passed => .passed
      | .skipped => .ignored
      | .failed => .failed)
    (hv : p.verdict env t = ⟨some exit, none, none,
      some { TestRecord.new env.suite t.test.name outcome t.sinceEpoch with
        reason := some reason }⟩) : Recorded env p t := by
  have hnone {A : Type} {q : A → Prop} : ∀ x ∈ (none : Option A), q x :=
    fun x hx => absurd hx (Option.not_mem_none x)
  refine recorded_of_record hhost hdir (congrArg Verdict.record hv) hnone
    (fun dir _ => ?_) ⟨rfl, rfl, ?_, fun _ => ?_⟩
  · rw [hv]
    exact hnone
  · rw [hv]
    exact hreport
  · rw [hv]
    exact hnone

/-- A trial that finds no rig is recorded. -/
theorem recorded_of_no_rig (hhost : env.host.Writable)
    (hdir : resultsDir env.host (p.getOrInit env) ≠ none)
    (hrig : ∀ rig, p.getOrInit env ≠ .ready rig) : Recorded env p t := by
  cases hstate : p.getOrInit env with
  | ready rig => exact absurd hstate (hrig rig)
  | skip reason =>
    exact recorded_of_unattempted hhost hdir rfl
      (congrArg (runTrial env.host env.suite · t) hstate)
  | fail e =>
    exact recorded_of_unattempted hhost hdir rfl
      (congrArg (runTrial env.host env.suite · t) hstate)

/-- A trial that panics writes nothing. -/
theorem not_recorded_of_panic {rig : Rig} (hstate : p.getOrInit env = .ready rig)
    (hresult : t.test.loop.result = none) : ¬ Recorded env p t := by
  refine not_recorded_of_read (fun dir _ => ?_)
  have hv : p.verdict env t = ⟨none, some t.test.loop.evidence, none, none⟩ := by
    rw [Process.verdict, hstate, runTrial_of_panic hresult]
  show ((p.verdict env t).commit env.serde env.host _ p.disk).read _ = _
  rw [hv]
  rfl

/-- A trial that passes is recorded. -/
theorem recorded_of_ok (hhost : env.host.Writable)
    (hdir : resultsDir env.host (p.getOrInit env) ≠ none) {rig : Rig}
    (hstate : p.getOrInit env = .ready rig) (hresult : t.test.loop.result = some (.ok ())) :
    Recorded env p t := by
  have hv : p.verdict env t = ⟨some (.ok .completed), some t.test.loop.evidence, none,
      some (t.record env.suite)⟩ := by
    rw [Process.verdict, hstate, runTrial_of_ok hresult]
  refine recorded_of_record hhost hdir (congrArg Verdict.record hv)
    (by simp [Trial.record, TestRecord.new]) (by simp [hv]) ⟨rfl, rfl, ?_, ?_⟩
  · rw [hv]
    rfl
  · simp [hv, report]

/-- The verdict on a trial that finds a rig and fails. -/
theorem verdict_of_error {rig : Rig} (hstate : p.getOrInit env = .ready rig)
    {failed : Failed} (hresult : t.test.loop.result = some (.error failed)) :
    p.verdict env t
      = failedTrial env.host rig t.test.loop.evidence (t.record env.suite) failed := by
  rw [Process.verdict, hstate, runTrial_of_error hresult]

/-- A trial that fails with nothing to show is recorded. -/
theorem recorded_of_isEmpty (hhost : env.host.Writable)
    (hdir : resultsDir env.host (p.getOrInit env) ≠ none) {rig : Rig}
    (hstate : p.getOrInit env = .ready rig) {failed : Failed}
    (hresult : t.test.loop.result = some (.error failed))
    (hempty : t.test.loop.evidence.isEmpty = true) : Recorded env p t := by
  have hv := (verdict_of_error hstate hresult).trans
    (failedTrial_of_isEmpty hempty (t.record env.suite) failed)
  refine recorded_of_record hhost hdir (congrArg Verdict.record hv)
    (by simp [Trial.record, TestRecord.new]) (by simp [hv]) ⟨rfl, rfl, ?_, ?_⟩
  · rw [hv]
    rfl
  · simp [hv, hempty]

/-- **A trial that fails with something to show** is recorded exactly if the path
of its evidence is a string. -/
theorem recorded_iff_of_not_isEmpty (hhost : env.host.Writable)
    (hdir : resultsDir env.host (p.getOrInit env) ≠ none) {rig : Rig}
    (hstate : p.getOrInit env = .ready rig) {failed : Failed}
    (hresult : t.test.loop.result = some (.error failed))
    (hempty : t.test.loop.evidence.isEmpty = false) :
    Recorded env p t ↔ isUtf8 (rig.logPath env.host t.test.name) = true := by
  have hpersist : t.test.loop.evidence.persist env.host.toHostFs (rig.artifactsDir env.host)
      = .ok (rig.logPath env.host t.test.name, utf8 t.test.loop.evidence.log) := by
    refine Evidence.persist_eq_ok_iff.mpr ⟨(hhost _).1, (hhost _).2, ?_⟩
    rw [t.test.test_loop]
    rfl
  obtain ⟨msg, hfailed⟩ := failedTrial_of_persist hempty hpersist (t.record env.suite) failed
  have hv := (verdict_of_error hstate hresult).trans hfailed
  have hlog : ∀ dir ∈ resultsDir env.host (p.getOrInit env),
      ∀ x ∈ (p.verdict env t).log, resultsPath dir ≠ x.1 := by
    intro dir hdir x hx
    rw [hv] at hx
    obtain rfl := Option.some.inj hx
    exact resultsPath_ne_logPath dir rig env.host t.test.name
  constructor
  · intro hrecorded
    by_contra htext
    -- there is no text for the record, and nothing is appended
    refine not_recorded_of_read (fun dir hdir => ?_) hrecorded
    obtain ⟨r, hrecord, hevidence⟩ : ∃ r, (p.verdict env t).record = some r
        ∧ r.evidence = some (rig.logPath env.host t.test.name) :=
      ⟨_, congrArg Verdict.record hv, rfl⟩
    have hnone : env.serde.toString r = none := Option.not_isSome_iff_eq_none.mp
      (fun hsome => htext ((env.serde.isSome_toString r).mp hsome _ hevidence))
    show ((p.verdict env t).commit env.serde env.host _ p.disk).read _ = _
    rw [read_commit hhost hdir hrecord (hlog dir hdir), hnone]
    exact List.append_nil _
  · intro htext
    refine recorded_of_record hhost hdir (congrArg Verdict.record hv) ?_ hlog
      ⟨rfl, rfl, ?_, fun _ ev hev _ => ?_⟩
    · intro path hpath
      obtain rfl := Option.some.inj hpath
      exact htext
    · rw [hv]
      rfl
    · rw [hv] at hev
      obtain rfl := Option.some.inj hev
      exact ⟨_, rfl, commit_log (congrArg Verdict.log hv) (fun dir _ =>
        (resultsPath_ne_logPath dir rig env.host t.test.name).symm) p.disk⟩

/-- **One trial.** It is recorded exactly if it meets the condition. -/
theorem recorded_iff_recordable (hhost : env.host.Writable)
    (hdir : resultsDir env.host (p.getOrInit env) ≠ none) :
    Recorded env p t ↔ Recordable env.host (p.getOrInit env) t := by
  by_cases hready : ∃ rig, p.getOrInit env = .ready rig
  · obtain ⟨rig, hstate⟩ := hready
    rw [hstate]
    have hcondition : Recordable env.host (.ready rig) t
        ↔ (∀ k, t.test.decisive = some k → (t.test.f k).result ≠ none)
          ∧ (t.test.decisive = none → t.test.leavesEvidence = true →
              isUtf8 (rig.logPath env.host t.test.name) = true) :=
      ⟨fun h => h rig rfl, fun h _ hrig => RigState.ready.inj hrig ▸ h⟩
    rw [hcondition]
    cases hdecisive : t.test.decisive with
    | some k =>
      have hresult := BancTest.result_loop hdecisive
      cases hk : (t.test.f k).result with
      | none =>
        refine iff_of_false (not_recorded_of_panic hstate (hresult.trans hk)) (fun h => ?_)
        exact h.1 k rfl hk
      | some returned =>
        cases returned with
        | ok u =>
          refine iff_of_true (recorded_of_ok hhost hdir hstate (hresult.trans hk)) ⟨?_, by simp⟩
          rintro _ ⟨⟩
          simp [hk]
        | error failed =>
          have herrs := BancTest.errs_decisive hdecisive
          simp [Attempt.errs, hk] at herrs
    | none =>
      obtain ⟨⟨failed, hresult⟩, hempty⟩ := BancTest.loop_of_undecided hdecisive
      cases hleaves : t.test.leavesEvidence with
      | false =>
        rw [hleaves] at hempty
        exact iff_of_true (recorded_of_isEmpty hhost hdir hstate hresult hempty)
          ⟨by simp, by simp⟩
      | true =>
        rw [hleaves] at hempty
        rw [recorded_iff_of_not_isEmpty hhost hdir hstate hresult hempty]
        exact ⟨fun h => ⟨by simp, fun _ _ => h⟩, fun h => h.2 rfl rfl⟩
  · have hrig : ∀ rig, p.getOrInit env ≠ .ready rig := fun rig h => hready ⟨rig, h⟩
    exact iff_of_true (recorded_of_no_rig hhost hdir hrig) (fun rig h => absurd h (hrig rig))

end Step

/-! ## A suite -/

/-- **When results and verdicts agree.** Where the disk takes what is written and
there is a results directory, each trial of a suite appends exactly one record,
and a right one, if and only if each trial meets the condition. -/
theorem recorded_iff (env : Setting) (hhost : env.host.Writable)
    (hdir : resultsDir env.host (.ofAcquire env.acquire) ≠ none) (disk : Disk)
    (trials : List Trial) :
    Transition.Guarded (Process.step env) (Recorded env) ⟨none, disk⟩ trials
      ↔ ∀ t ∈ trials, Recordable env.host (.ofAcquire env.acquire) t := by
  have hinit : Process.getOrInit ⟨none, disk⟩ env = .ofAcquire env.acquire := rfl
  -- the rig is acquired once
  have hstep : ∀ (p : Process) (t : Trial), p.getOrInit env = .ofAcquire env.acquire →
      ∃ p', p.step env t = some p' ∧ p'.getOrInit env = .ofAcquire env.acquire :=
    fun p t hp => ⟨p.execute env t, rfl, hp⟩
  have hok : ∀ (p : Process) t, p.getOrInit env = .ofAcquire env.acquire →
      (Recorded env p t ↔ Recordable env.host (.ofAcquire env.acquire) t) := by
    intro p t hp
    have hone := recorded_iff_recordable (p := p) (t := t) hhost (by rwa [hp])
    rwa [hp] at hone
  exact Transition.Guarded.iff_forall hok hstep hinit trials

/-- A rig in `/rig`, on a disk that takes everything. -/
def benchSetting : Setting where
  host := ⟨⟨fun _ => .ok (), fun _ => .ok ()⟩, none⟩
  serde := serdeJson
  suite := "scenarios"
  acquire := .ok ⟨utf8 "/rig"⟩

theorem benchSetting_writable : benchSetting.host.Writable := fun _ => ⟨rfl, rfl⟩

/-- A trial in which every attempt records a line and does the same. -/
def steadyTrial (name : String) (attempts : ℕ) (result : Option (Except Failed Unit)) : Trial where
  test := (BancTest.new name (fun _ =>
    ⟨0, [⟨1200, "defmt", "boot"⟩], result, 9000, []⟩)).allow attempts
  elapsedMs := 9
  sinceEpoch := some 1700000000

/-- **A suite in which one test passes and one fails twice** is recorded. -/
theorem steadyTrials_recorded :
    Transition.Guarded (Process.step benchSetting) (Recorded benchSetting)
      ⟨none, fun _ => none⟩
      [steadyTrial "boots" 1 (some (.ok ())),
        steadyTrial "joins" 2 (some (.error ⟨some "no join"⟩))] := by
  refine (recorded_iff benchSetting benchSetting_writable (by decide) _ _).mpr ?_
  have hpasses : Recordable benchSetting.host (.ready ⟨utf8 "/rig"⟩)
      (steadyTrial "boots" 1 (some (.ok ()))) :=
    fun _ _ => ⟨fun _ _ => by simp [steadyTrial, BancTest.allow, BancTest.new],
      fun h => absurd h (by decide)⟩
  have hfails : Recordable benchSetting.host (.ready ⟨utf8 "/rig"⟩)
      (steadyTrial "joins" 2 (some (.error ⟨some "no join"⟩))) := by
    have hundecided : (steadyTrial "joins" 2
        (some (.error ⟨some "no join"⟩))).test.decisive = none := by decide
    rintro _ ⟨⟩
    exact ⟨fun _ h => by simp [hundecided] at h, fun _ _ => by decide +kernel⟩
  intro t ht
  simp only [List.mem_cons, List.not_mem_nil, or_false] at ht
  obtain rfl | rfl := ht
  · exact hpasses
  · exact hfails

/-- **A test that panics is reported failed, and not recorded.** -/
theorem panicking_trial_unrecorded :
    ¬ ∀ (env : Setting), env.host.Writable →
        resultsDir env.host (.ofAcquire env.acquire) ≠ none → ∀ disk trials,
        Transition.Guarded (Process.step env) (Recorded env) ⟨none, disk⟩ trials := by
  intro h
  have hguarded := h benchSetting benchSetting_writable (by decide) (fun _ => none)
    [steadyTrial "joins" 1 none]
  exact not_recorded_of_panic rfl rfl (hguarded _ rfl).1

end Banc
