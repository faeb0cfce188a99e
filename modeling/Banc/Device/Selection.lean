import Banc.Device.Lifecycle

/-!
# Which test a verdict is about

A verdict is read off the exit status of `cargo test --test T -- --exact P`.
What that status says is an assumption about cargo and the test harness, made
here on the command line `start` builds (`Reports`): the command succeeds if
and only if no test it selects has failed – in particular where it selects
none, and where the ones it selects are ignored.

So an Ok verdict says that no test at the path has failed; that one has run and
passed is another matter. It follows precisely where the crate has a test at
the path that is not ignored (`passed_iff_selects`), which nothing checks: a
path with a typo in it, or one the macro derived from the name of a scenario
that has no twin, passes (`no_such_test_passes`).
-/

namespace Banc

namespace Selection

open Lifecycle

/-- What becomes of an on-target test when it is selected. -/
inductive TestOutcome where
  | passed
  | failed
  /-- It does not run. -/
  | ignored
  deriving DecidableEq

/-- A test of a firmware crate. -/
structure OnTargetTest where
  /-- Its full path. -/
  path : String
  outcome : TestOutcome
  deriving DecidableEq

/-- The tests of a test target, by crate directory and target. -/
abbrev Firmware := String → String → List OnTargetTest

/-- No test at the path fails. -/
def NoneFails (tests : List OnTargetTest) (path : String) : Prop :=
  ∀ t ∈ tests, t.path = path → t.outcome ≠ .failed

/-- **What the exit status of a test command says**: it is a success if and
only if no test selected by the exact filter has failed. -/
def Reports (fw : Firmware) (cmd : Command) (status : ExitStatus) : Prop :=
  ∀ extra target path,
    cmd.args = "test" :: (extra ++ ["--test", target, "--", "--exact", path]) →
    (status.success = true ↔ NoneFails (fw cmd.currentDir target) path)

/-- A child that exits does so with such a status. -/
def Agrees (fw : Firmware) (s : State) (a : Action) : Prop :=
  match a with
  | .ends child (.exited status) =>
    ∀ c, s.children[child]? = some c → Reports fw c.command status
  | _ => True

/-- The crate contains a test at the path, and that test ran and passed. -/
def RanAndPassed (tests : List OnTargetTest) (path : String) : Prop :=
  ∃ t ∈ tests, t.path = path ∧ t.outcome = .passed

/-- The command `start` builds selects the test path. -/
theorem reports_command_iff {H : Type} (fw : Firmware) (dt : DeviceTest H)
    (status : ExitStatus) :
    Reports fw dt.command status
      ↔ (status.success = true
          ↔ NoneFails (fw dt.suite.crateDir dt.suite.testTarget) dt.testPath) := by
  constructor
  · intro h
    exact h dt.suite.cargoArgs dt.suite.testTarget dt.testPath rfl
  · intro h extra target path hargs
    have happend := (List.cons.inj hargs).2
    obtain ⟨-, hlast⟩ := List.append_inj' happend rfl
    simp only [List.cons.injEq] at hlast
    obtain ⟨-, htarget, -, -, hpath, -⟩ := hlast
    rw [← htarget, ← hpath]
    exact h

/-! ## What an Ok verdict rests on -/

section Sound

variable (fw : Firmware) (suite : DeviceSuite) (path : String)

/-- **The invariant**: wherever a success is recorded, no test at the path
fails. -/
structure Sound (s : State) : Prop where
  ofSuite : s.test.suite = suite
  ofPath : s.test.testPath = path
  commands : ∀ c ∈ s.children, c.command = s.test.command
  children : ∀ c ∈ s.children, ∀ status, c.outcome = some (.exited status) →
    status.success = true → NoneFails (fw suite.crateDir suite.testTarget) path
  done : s.test.state = .done (.ok ()) →
    NoneFails (fw suite.crateDir suite.testTarget) path
  reports : ∀ rep ∈ s.reports, rep.returned = .verdict (.ok ()) →
    NoneFails (fw suite.crateDir suite.testTarget) path

variable {fw suite path}

theorem sound_fresh : Sound fw suite path (.fresh suite path) where
  ofSuite := rfl
  ofPath := rfl
  commands _ hc := absurd hc List.not_mem_nil
  children _ hc := absurd hc List.not_mem_nil
  done h := by simp [State.fresh, DeviceSuite.test] at h
  reports _ hrep := absurd hrep List.not_mem_nil

namespace Sound

variable {s s' : State}

theorem report (hs : Sound fw suite path s) {r : Returned}
    (hr : r = .verdict (.ok ()) → NoneFails (fw suite.crateDir suite.testTarget) path) :
    Sound fw suite path (s.report r) where
  ofSuite := hs.ofSuite
  ofPath := hs.ofPath
  commands := hs.commands
  children := hs.children
  done := hs.done
  reports rep hrep h := by
    obtain rfl | hrep := List.mem_cons.mp hrep
    · exact hr h
    · exact hs.reports rep hrep h

/-- Only the state of the handle changes. -/
theorem setState (hs : Sound fw suite path s) {state : DeviceState ℕ}
    (h : state = .done (.ok ()) → NoneFails (fw suite.crateDir suite.testTarget) path)
    (pending : Option Pending) :
    Sound fw suite path { s with test := { s.test with state }, pending } :=
  ⟨hs.ofSuite, hs.ofPath, hs.commands, hs.children, h, hs.reports⟩

theorem pollVerdict (hs : Sound fw suite path s) (caller : Caller) :
    Sound fw suite path (s.pollVerdict caller) := by
  rw [State.pollVerdict, DeviceTest.verdict]
  cases hstate : s.test.state with
  | idle =>
    refine (hs.setState (by simp) s.pending).report (fun h => ?_)
    cases caller <;> simp [State.returns] at h
  | running child => exact hs.setState (by simp) _
  | done result =>
    have hresult : result = .ok () →
        NoneFails (fw suite.crateDir suite.testTarget) path := by
      rintro rfl
      exact hs.done hstate
    refine (hs.setState (fun h => hresult (DeviceState.done.inj h)) s.pending).report
      (fun h => hresult ?_)
    cases result with
    | ok u => rfl
    | error e => cases caller <;> simp [State.returns, Except.mapError] at h

/-- A child that ends agrees with the crate. -/
theorem ends (hs : Sound fw suite path s) {child : ℕ} {o : TaskOutcome}
    (ha : Agrees fw s (.ends child o)) : Sound fw suite path (s.setOutcome child o) := by
  have hmem : ∀ c ∈ (s.setOutcome child o).children,
      c ∈ s.children ∨ ∃ c', s.children[child]? = some c' ∧ c = { c' with outcome := some o } := by
    intro c hc
    obtain ⟨i, hi⟩ := List.mem_iff_getElem?.mp hc
    rw [State.setOutcome, List.getElem?_modify] at hi
    obtain ⟨c', hc', hmap⟩ := Option.map_eq_some_iff.mp hi
    split at hmap
    · rename_i heq
      exact .inr ⟨c', heq ▸ hc', hmap.symm⟩
    · exact .inl (hmap ▸ List.mem_of_getElem? hc')
  refine ⟨hs.ofSuite, hs.ofPath, fun c hc => ?_, fun c hc status hstatus hsuccess => ?_,
    hs.done, hs.reports⟩
  · obtain hc | ⟨c', hc', rfl⟩ := hmem c hc
    · exact hs.commands c hc
    · exact hs.commands c' (List.mem_of_getElem? hc')
  · obtain hc | ⟨c', hc', rfl⟩ := hmem c hc
    · exact hs.children c hc status hstatus hsuccess
    · obtain rfl := Option.some.inj hstatus
      have hreports := ha c' hc'
      rw [hs.commands c' (List.mem_of_getElem? hc'), reports_command_iff, hs.ofSuite,
        hs.ofPath] at hreports
      exact hreports.mp hsuccess

/-- The result of a child that has ended rests on its exit status. -/
theorem taskResult_ok (hs : Sound fw suite path s) {child : ℕ} {o : TaskOutcome}
    (ho : s.outcome child = some o) (hok : s.test.taskResult o = .ok ()) :
    NoneFails (fw suite.crateDir suite.testTarget) path := by
  obtain ⟨c, hc, houtcome⟩ := Option.bind_eq_some_iff.mp ho
  cases o with
  | joinError text => simp [DeviceTest.taskResult] at hok
  | spawnError text => simp [DeviceTest.taskResult] at hok
  | exited status =>
    refine hs.children c (List.mem_of_getElem? hc) status houtcome ?_
    by_contra hfail
    simp [DeviceTest.taskResult, hfail] at hok

/-- A pending future returns. -/
theorem resume (hs : Sound fw suite path s) {p : Pending} {o : TaskOutcome}
    (ho : s.outcome p.child = some o) :
    Sound fw suite path ({ s with test := (s.test.resume o).1, pending := none }.report
      (State.returns p.caller (s.test.resume o).2)) := by
  refine (hs.setState (fun hdone => ?_) none).report (fun hok => ?_)
  · exact hs.taskResult_ok ho (DeviceState.done.inj hdone)
  · refine hs.taskResult_ok ho ?_
    cases hresult : s.test.taskResult o with
    | ok u => rfl
    | error e =>
      cases hcaller : p.caller <;>
        simp [DeviceTest.resume, hresult, hcaller, State.returns, Except.mapError] at hok

/-- **A step that agrees with the crate keeps the invariant.** -/
theorem of_step (hs : Sound fw suite path s) {a : Action} (ha : Agrees fw s a)
    (h : step s a = some s') : Sound fw suite path s' := by
  cases Step.of_step h with
  | refused => exact hs
  | missing => exact ⟨hs.ofSuite, hs.ofPath, hs.commands, hs.children, by simp, hs.reports⟩
  | spawned =>
    refine ⟨hs.ofSuite, hs.ofPath, fun c hc => ?_, fun c hc => ?_, by simp, hs.reports⟩
    · obtain hc | hc := List.mem_append.mp hc
      · exact hs.commands c hc
      · rw [List.mem_singleton.mp hc]
        rfl
    · obtain hc | hc := List.mem_append.mp hc
      · exact hs.children c hc
      · rw [List.mem_singleton.mp hc]
        simp
  | verdict => exact hs.pollVerdict _
  | context => exact hs.pollVerdict _
  | unfinished => exact hs.report (by simp)
  | ends => exact hs.ends ha
  | resume hpending houtcome => exact hs.resume houtcome
  | drop => exact ⟨hs.ofSuite, hs.ofPath, hs.commands, hs.children, hs.done, hs.reports⟩

end Sound

end Sound

/-- The test is started, its verdict awaited, and the child exits with 0. -/
def passingRun : List Action :=
  [.start true, .verdict, .ends 0 (.exited (.exited 0)), .resume]

/-- A child may exit with 0 as long as no test at the path fails. -/
theorem passingRun_agrees {fw : Firmware} {suite : DeviceSuite} {path : String}
    (h : NoneFails (fw suite.crateDir suite.testTarget) path) :
    Transition.Guarded step (Agrees fw) (.fresh suite path) passingRun := by
  rintro s₁ ⟨⟩
  refine ⟨trivial, ?_⟩
  rintro s₂ ⟨⟩
  refine ⟨trivial, ?_⟩
  rintro s₃ ⟨⟩
  refine ⟨?_, ?_⟩
  · rintro c ⟨⟩
    refine (reports_command_iff fw (suite.test ℕ path) (.exited 0)).mpr ?_
    exact ⟨fun _ => h, fun _ => rfl⟩
  · rintro s₄ ⟨⟩
    exact ⟨trivial, trivial⟩

/-- **When an Ok verdict means that the test ran and passed.** For every crate
and test path: in every run of a handle whose children exit as `Reports` says,
every verdict that returns Ok has its test run and passed, if and only if the
crate has a test at that path which is not ignored. -/
theorem passed_iff_selects (fw : Firmware) (suite : DeviceSuite) (path : String) :
    (∀ run s, Transition.Guarded step (Agrees fw) (.fresh suite path) run →
        Transition.run step (.fresh suite path) run = some s →
        ∀ rep ∈ s.reports, rep.returned = .verdict (.ok ()) →
          RanAndPassed (fw suite.crateDir suite.testTarget) path)
      ↔ ∃ t ∈ fw suite.crateDir suite.testTarget,
          t.path = path ∧ t.outcome ≠ .ignored := by
  constructor
  · intro h
    by_contra hnone
    have hunfailed : NoneFails (fw suite.crateDir suite.testTarget) path := by
      intro t ht hpath hfailed
      exact hnone ⟨t, ht, hpath, by simp [hfailed]⟩
    obtain ⟨t, ht, hpath, hpassed⟩ :=
      h passingRun _ (passingRun_agrees hunfailed) rfl _ List.mem_cons_self rfl
    exact hnone ⟨t, ht, hpath, by simp [hpassed]⟩
  · rintro ⟨t, ht, hpath, hrun⟩ run s hguarded hs rep hrep hok
    have hsound : Sound fw suite path s :=
      Transition.run_preserves_of_guarded (fun _ _ _ hs ha h => hs.of_step ha h)
        sound_fresh hguarded hs
    have hfailed := hsound.reports rep hrep hok t ht hpath
    refine ⟨t, ht, hpath, ?_⟩
    cases houtcome : t.outcome with
    | passed => rfl
    | failed => exact absurd houtcome hfailed
    | ignored => exact absurd houtcome hrun

/-- **A verdict passes without its test having run**: a crate with one test, and
a path with a typo in it. -/
theorem no_such_test_passes :
    ¬ ∀ (fw : Firmware) (suite : DeviceSuite) (path : String) (run : List Action)
        (s : State), Transition.Guarded step (Agrees fw) (.fresh suite path) run →
        Transition.run step (.fresh suite path) run = some s →
        ∀ rep ∈ s.reports, rep.returned = .verdict (.ok ()) →
          RanAndPassed (fw suite.crateDir suite.testTarget) path := by
  intro h
  let fw : Firmware := fun _ _ => [⟨"tests::join_ok", .passed⟩]
  have hunfailed : NoneFails (fw "fw" "join") "tests::join_okay" := by
    simp [NoneFails, fw]
  obtain ⟨t, ht, hpath, -⟩ :=
    h fw (.new "fw" "join") "tests::join_okay" passingRun _
      (passingRun_agrees hunfailed) rfl _ List.mem_cons_self rfl
  simp [fw] at ht
  simp [ht] at hpath

end Selection

end Banc
