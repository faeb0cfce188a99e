import Banc.Runner.Recorded

/-!
# What the records link

Several suites, each a process or, under nextest, several, write into one
artifacts directory. The record of a failure links the file its evidence is in;
the next failure to be persisted there replaces it.

The file of a failure is named after the test and not after the suite, and the
name is sanitized. So what a record links is its own evidence, whatever is
executed later, if and only if no two failures that are persisted have test
names that agree but for the characters that `sanitize` replaces
(`linked_iff`). Two suites that have a test of one name in common are enough for
the one's evidence to be lost (`shared_name_replaces`).

A trial persists its evidence under a condition that can be read off the rig,
the test and the disk (`Execution.Persists`).
-/

namespace Banc

open Fs Postcard

/-- A trial, with what its process runs it with. -/
structure Execution where
  env : Setting
  trial : Trial

namespace Execution

/-- The rig the process has acquired. -/
def state (e : Execution) : RigState := .ofAcquire e.env.acquire

/-- What the trial comes to. -/
def verdict (e : Execution) : Verdict := runTrial e.env.host e.env.suite e.state e.trial

/-- The name of the test. -/
def test (e : Execution) : String := e.trial.test.name

/-- The step function, on the disk that all processes share. -/
def step (disk : Disk) (e : Execution) : Option Disk :=
  some (e.verdict.commit e.env.serde e.env.host e.state disk)

/-- The trials of a process are executions one after the other. -/
theorem run_process {env : Setting} {p : Process}
    (hp : p.getOrInit env = .ofAcquire env.acquire) (trials : List Trial) :
    (Transition.run (Process.step env) p trials).map Process.disk
      = Transition.run step p.disk (trials.map (⟨env, ·⟩)) := by
  induction trials generalizing p with
  | nil => rfl
  | cons t trials ih =>
    have hdisk : (p.execute env t).disk
        = (Execution.verdict ⟨env, t⟩).commit env.serde env.host (state ⟨env, t⟩) p.disk := by
      rw [Process.execute, Process.verdict, hp]
      rfl
    show (Transition.run (Process.step env) (p.execute env t) trials).map Process.disk
      = Transition.run step
          ((Execution.verdict ⟨env, t⟩).commit env.serde env.host (state ⟨env, t⟩) p.disk)
          (trials.map (⟨env, ·⟩))
    rw [← hdisk]
    exact ih hp

/-- **When evidence is persisted**: there is a rig, every attempt returns an
error, there is something to show, and the disk takes it. -/
structure Persists (e : Execution) (rig : Rig) : Prop where
  acquired : e.env.acquire = .ok rig
  undecided : e.trial.test.decisive = none
  leaves : e.trial.test.leavesEvidence = true
  dir : e.env.host.createDirAll (rig.artifactsDir e.env.host) = .ok ()
  file : e.env.host.openFile (rig.logPath e.env.host e.test) = .ok ()

end Execution

/-- **The property**: after the executions, every record that links evidence
links that of its own trial, and no two trials have persisted to one file. -/
structure Linked (runs : List Execution) (disk : Disk) : Prop where
  own : ∀ e ∈ runs, ∀ r ∈ e.verdict.record, ∀ path ∈ r.evidence,
    ∀ ev ∈ e.verdict.evidence, disk path = some (utf8 ev.log)
  apart : runs.Pairwise (fun e e' =>
    ∀ x ∈ e.verdict.log, ∀ x' ∈ e'.verdict.log, x.1 ≠ x'.1)

/-- **The condition**: of two failures that are persisted, the test names differ
when they have been sanitized. -/
def ToldApart (runs : List Execution) : Prop :=
  runs.Pairwise (fun e e' => ∀ rig rig', e.Persists rig → e'.Persists rig' →
    sanitize e.test ≠ sanitize e'.test)

namespace Execution

variable {e : Execution} {rig : Rig}

/-- When the disk takes the evidence of a trial. -/
theorem persist_loop {x : Path × List UInt8} :
    e.trial.test.loop.evidence.persist e.env.host.toHostFs (rig.artifactsDir e.env.host)
        = .ok x
      ↔ e.env.host.createDirAll (rig.artifactsDir e.env.host) = .ok ()
        ∧ e.env.host.openFile (rig.logPath e.env.host e.test) = .ok ()
        ∧ x = (rig.logPath e.env.host e.test, utf8 e.trial.test.loop.evidence.log) := by
  rw [Evidence.persist_eq_ok_iff, e.trial.test.test_loop]
  rfl

/-- **What is written, and linked**, by a trial that persists its evidence. -/
theorem Persists.verdict (h : e.Persists rig) :
    e.verdict.log
        = some (rig.logPath e.env.host e.test, utf8 e.trial.test.loop.evidence.log)
      ∧ e.verdict.evidence = some e.trial.test.loop.evidence
      ∧ ∃ r, e.verdict.record = some r
          ∧ r.evidence = some (rig.logPath e.env.host e.test) := by
  obtain ⟨⟨failed, hresult⟩, hempty⟩ := BancTest.loop_of_undecided h.undecided
  rw [h.leaves] at hempty
  obtain ⟨msg, hfailed⟩ := failedTrial_of_persist hempty (persist_loop.mpr ⟨h.dir, h.file, rfl⟩)
    (e.trial.record e.env.suite) failed
  rw [Execution.verdict, state, h.acquired]
  show (runTrial _ _ (.ready rig) _).log = _ ∧ (runTrial _ _ (.ready rig) _).evidence = _
    ∧ ∃ r, (runTrial _ _ (.ready rig) _).record = some r ∧ _
  rw [runTrial_of_error hresult, hfailed]
  exact ⟨rfl, rfl, _, rfl, rfl⟩

/-- Any other trial writes and links nothing. -/
theorem verdict_of_not_persists (h : ∀ rig, ¬ e.Persists rig) :
    e.verdict.log = none ∧ ∀ r ∈ e.verdict.record, r.evidence = none := by
  rw [Execution.verdict, state]
  cases hacquire : e.env.acquire with
  | error a =>
    cases a with
    | skip reason => exact ⟨rfl, by rintro _ ⟨⟩; rfl⟩
    | fail text => exact ⟨rfl, by rintro _ ⟨⟩; rfl⟩
  | ok rig =>
    show (runTrial _ _ (.ready rig) _).log = none
      ∧ ∀ r ∈ (runTrial _ _ (.ready rig) _).record, r.evidence = none
    cases hresult : e.trial.test.loop.result with
    | none =>
      rw [runTrial_of_panic hresult]
      exact ⟨rfl, by simp⟩
    | some returned =>
      cases returned with
      | ok u =>
        rw [runTrial_of_ok hresult]
        exact ⟨rfl, by rintro _ ⟨⟩; rfl⟩
      | error failed =>
        rw [runTrial_of_error hresult]
        cases hempty : e.trial.test.loop.evidence.isEmpty with
        | true =>
          rw [failedTrial_of_isEmpty hempty]
          exact ⟨rfl, by rintro _ ⟨⟩; rfl⟩
        | false =>
          cases hpersist : e.trial.test.loop.evidence.persist e.env.host.toHostFs
              (rig.artifactsDir e.env.host) with
          | error text =>
            obtain ⟨msg, hfailed⟩ := failedTrial_of_persist_error hempty hpersist
              (e.trial.record e.env.suite) failed
            rw [hfailed]
            exact ⟨rfl, by rintro _ ⟨⟩; rfl⟩
          | ok x =>
            -- it is persisted after all
            have hundecided : e.trial.test.decisive = none := by
              by_contra hsome
              obtain ⟨k, hk⟩ := Option.ne_none_iff_exists'.mp hsome
              have herrs := BancTest.errs_decisive hk
              simp [Attempt.errs, ← BancTest.result_loop hk, hresult] at herrs
            obtain ⟨hdir, hfile, -⟩ := persist_loop.mp hpersist
            refine absurd ⟨hacquire, hundecided, ?_, hdir, hfile⟩ (h rig)
            simpa [hempty] using (BancTest.loop_of_undecided hundecided).2

/-- A trial leaves the evidence of others alone, unless it writes to the same
file. -/
theorem run_logPath {runs : List Execution} {host : Host} {test : String}
    (h : ∀ e ∈ runs, ∀ x ∈ e.verdict.log, rig.logPath host test ≠ x.1) {disk after : Disk}
    (hrun : Transition.run step disk runs = some after) :
    after (rig.logPath host test) = disk (rig.logPath host test) := by
  have hstep : ∀ (d : Disk) (e : Execution) (d' : Disk),
      d (rig.logPath host test) = disk (rig.logPath host test) →
        (∀ x ∈ e.verdict.log, rig.logPath host test ≠ x.1) → step d e = some d' →
          d' (rig.logPath host test) = disk (rig.logPath host test) := by
    intro d e d' hd hne hstep
    obtain rfl := Option.some.inj hstep
    rw [← hd]
    exact commit_ne hne (fun dir _ => (resultsPath_ne_logPath dir rig host test).symm) d
  exact Transition.run_preserves_of_guarded hstep rfl
    (Transition.Guarded.of_forall h disk) hrun

/-- **The evidence of a trial stays** through what is executed later, if none of it
writes to the same file. -/
theorem Persists.log_after (h : e.Persists rig) {before after : List Execution}
    {disk disk' : Disk}
    (hrun : Transition.run step disk (before ++ e :: after) = some disk')
    (hafter : ∀ e' ∈ after, ∀ x ∈ e'.verdict.log, rig.logPath e.env.host e.test ≠ x.1) :
    disk' (rig.logPath e.env.host e.test) = some (utf8 e.trial.test.loop.evidence.log) := by
  obtain ⟨d, -, hrest⟩ := Transition.run_append_eq_some.mp hrun
  obtain ⟨d', hstep, hlater⟩ := Transition.run_cons_eq_some.mp hrest
  rw [run_logPath hafter hlater]
  obtain rfl := Option.some.inj hstep
  exact commit_log h.verdict.1
    (fun dir _ => (resultsPath_ne_logPath dir rig e.env.host e.test).symm) d

end Execution

/-- Evidence is told apart by its paths just when it is by the names of the
tests. -/
theorem apart_iff_toldApart {runs : List Execution} {dir : Path}
    (hdir : ∀ e ∈ runs, ∀ rig, e.env.acquire = .ok rig → rig.artifactsDir e.env.host = dir) :
    runs.Pairwise (fun e e' => ∀ x ∈ e.verdict.log, ∀ x' ∈ e'.verdict.log, x.1 ≠ x'.1)
      ↔ ToldApart runs := by
  refine List.Pairwise.iff_of_mem (fun {e e'} he he' => ?_)
  have hpaths : ∀ rig rig', e.Persists rig → e'.Persists rig' →
      (rig.logPath e.env.host e.test = rig'.logPath e'.env.host e'.test
        ↔ sanitize e.test = sanitize e'.test) := by
    intro rig rig' h h'
    rw [Rig.logPath, Rig.logPath, hdir e he rig h.acquired, hdir e' he' rig' h'.acquired]
    exact join_logName_inj
  constructor
  · intro h rig rig' hrig hrig' hname
    exact h _ hrig.verdict.1 _ hrig'.verdict.1 ((hpaths rig rig' hrig hrig').mpr hname)
  · intro h x hx x' hx' hpath
    by_cases hrig : ∃ rig, e.Persists rig
    · by_cases hrig' : ∃ rig', e'.Persists rig'
      · obtain ⟨rig, hrig⟩ := hrig
        obtain ⟨rig', hrig'⟩ := hrig'
        rw [hrig.verdict.1] at hx
        rw [hrig'.verdict.1] at hx'
        obtain rfl := Option.some.inj hx
        obtain rfl := Option.some.inj hx'
        exact h rig rig' hrig hrig' ((hpaths rig rig' hrig hrig').mp hpath)
      · have hnone := (Execution.verdict_of_not_persists (not_exists.mp hrig')).1
        rw [hnone] at hx'
        simp at hx'
    · have hnone := (Execution.verdict_of_not_persists (not_exists.mp hrig)).1
      rw [hnone] at hx
      simp at hx

/-- **When records link their own evidence.** Whatever is executed, by however
many suites into one artifacts directory and in whatever order, the evidence of
each failure is in the file its record links, and in a file of its own, if and
only if the persisted failures are told apart by their sanitized test names. -/
theorem linked_iff (dir : Path) {runs : List Execution}
    (hdir : ∀ e ∈ runs, ∀ rig, e.env.acquire = .ok rig → rig.artifactsDir e.env.host = dir)
    {disk after : Disk} (hrun : Transition.run Execution.step disk runs = some after) :
    Linked runs after ↔ ToldApart runs := by
  refine ⟨fun h => (apart_iff_toldApart hdir).mp h.apart, fun h => ?_⟩
  have hapart := (apart_iff_toldApart hdir).mpr h
  refine ⟨fun e he r hr path hpath ev hev => ?_, hapart⟩
  by_cases hrig : ∃ rig, e.Persists rig
  · obtain ⟨rig, hrig⟩ := hrig
    obtain ⟨hlog, hevidence, r', hr', hpath'⟩ := hrig.verdict
    obtain rfl : r' = r := Option.some.inj (hr'.symm.trans hr)
    obtain rfl : _ = path := Option.some.inj (hpath'.symm.trans hpath)
    obtain rfl : _ = ev := Option.some.inj (hevidence.symm.trans hev)
    obtain ⟨before, later, rfl⟩ := List.append_of_mem he
    have hlater := (List.pairwise_cons.mp (List.pairwise_append.mp hapart).2.1).1
    exact hrig.log_after hrun (fun e' he' x hx => hlater e' he' _ hlog x hx)
  · have hnone := (Execution.verdict_of_not_persists (not_exists.mp hrig)).2 r hr
    rw [hnone] at hpath
    simp at hpath

/-- Names that need no sanitizing tell failures apart by themselves – within one
suite, where they are distinct, and across suites. -/
theorem toldApart_of_passes {runs : List Execution}
    (hpasses : ∀ e ∈ runs, ∀ c ∈ e.test.toList, passes c = true)
    (hnames : (runs.map Execution.test).Nodup) : ToldApart runs := by
  rw [List.Nodup, List.pairwise_map] at hnames
  refine hnames.imp_of_mem (fun {e e'} he he' hne _ _ _ _ => ?_)
  rwa [sanitize_eq_self (hpasses e he), sanitize_eq_self (hpasses e' he')]

/-- A failure of a test in a suite. -/
def failure (suite test line : String) : Execution where
  env := { benchSetting with suite }
  trial :=
    { test := BancTest.new test
        (fun _ => ⟨0, [⟨1200, "defmt", line⟩], some (.error ⟨some "no join"⟩), 9000, []⟩)
      elapsedMs := 9
      sinceEpoch := some 1700000000 }

/-- All of them have the artifacts directory of the one rig. -/
def benchArtifacts : Path := Rig.artifactsDir ⟨utf8 "/rig"⟩ benchSetting.host

theorem failure_artifactsDir {suite test line : String} {rig : Rig}
    (h : (failure suite test line).env.acquire = .ok rig) :
    rig.artifactsDir (failure suite test line).env.host = benchArtifacts := by
  obtain rfl := Except.ok.inj h
  rfl

theorem failure_persists (suite test line : String) :
    (failure suite test line).Persists ⟨utf8 "/rig"⟩ :=
  ⟨rfl, rfl, rfl, rfl, rfl⟩

/-- Two tests of a suite fail. -/
def twoTests : List Execution :=
  [failure "scenarios_l072" "joins" "rx timeout", failure "scenarios_l072" "sends" "no ack"]

/-- **Failures that are told apart** link their own evidence. -/
theorem twoTests_linked :
    ∃ after, Transition.run Execution.step (fun _ => none) twoTests = some after
      ∧ Linked twoTests after := by
  refine ⟨_, rfl, (linked_iff benchArtifacts (fun e he rig hrig => ?_) rfl).mpr ?_⟩
  · simp only [twoTests, List.mem_cons, List.not_mem_nil, or_false] at he
    obtain rfl | rfl := he
    · exact failure_artifactsDir hrig
    · exact failure_artifactsDir hrig
  · have hnames : sanitize "joins" ≠ sanitize "sends" := by decide
    simp only [ToldApart, twoTests, List.pairwise_cons, List.mem_singleton]
    exact ⟨fun e he _ _ _ _ => he ▸ hnames, by simp, List.Pairwise.nil⟩

/-- Two suites have a test of the same name, and both fail. -/
def twoSuites : List Execution :=
  [failure "scenarios_l072" "joins" "rx timeout", failure "scenarios_l476" "joins" "no ack"]

/-- **The later failure takes the file of the earlier one**, whose record links
evidence that is not its own. -/
theorem shared_name_replaces :
    ¬ ∀ (runs : List Execution) (dir : Path) (disk after : Disk),
        (runs.map (fun e => (e.env.suite, e.test))).Nodup →
        (∀ e ∈ runs, ∀ rig, e.env.acquire = .ok rig → rig.artifactsDir e.env.host = dir) →
        Transition.run Execution.step disk runs = some after → Linked runs after := by
  intro h
  have hdir : ∀ e ∈ twoSuites, ∀ rig, e.env.acquire = .ok rig →
      rig.artifactsDir e.env.host = benchArtifacts := by
    intro e he rig hrig
    simp only [twoSuites, List.mem_cons, List.not_mem_nil, or_false] at he
    obtain rfl | rfl := he
    · exact failure_artifactsDir hrig
    · exact failure_artifactsDir hrig
  obtain ⟨after, hrun⟩ : ∃ after,
      Transition.run Execution.step (fun _ => none) twoSuites = some after := ⟨_, rfl⟩
  have hlinked := h twoSuites benchArtifacts _ after (by decide) hdir hrun
  obtain ⟨-, hevidence, r, hr, hpath⟩ :=
    (failure_persists "scenarios_l072" "joins" "rx timeout").verdict
  have hfirst := hlinked.own _ List.mem_cons_self r hr _ hpath _ hevidence
  have hlast : Transition.run Execution.step (fun _ => none)
      ([failure "scenarios_l072" "joins" "rx timeout"]
        ++ failure "scenarios_l476" "joins" "no ack" :: []) = some after := hrun
  have hsecond := (failure_persists "scenarios_l476" "joins" "no ack").log_after
    hlast (by simp)
  have hsame := utf8_inj.mp (Option.some.inj (hfirst.symm.trans hsecond))
  exact absurd hsame (by decide +kernel)

end Banc
