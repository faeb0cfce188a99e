import Banc.Device.Lifecycle

/-!
# Paired scenarios

What `paired_suite!` makes of a scenario. The macro gives the body a handle for
its on-target twin, named after the scenario unless it says otherwise, and runs
it; a body that returns Ok is followed by a trailing `verdict`, one that
returns an error by a `failure_context`, which extends the error with the
device's own.

The body is a run of `Banc.Device.Lifecycle` in which no future is dropped and
none is left pending: a sequence of calls each awaited to its end, with the
child ending wherever it does. From there the macro is a function of the state
the body leaves (`scenarioResult`), with what the child ends in if it is still
running then. A scenario that never returns, because its child never ends, has
no result.
-/

namespace Banc

namespace Paired

open Lifecycle

/-- The `@device_test` rules of the macro: the test path of a scenario. -/
def deviceTestPath (name : String) : Option String → String
  | none => "tests::" ++ name
  | some deviceTest => deviceTest

/-- `verdict`, awaited to its end. A child that is still running ends in
`later`, or never. -/
def awaitVerdict (later : Option TaskOutcome) (s : State) :
    Option (Except Failed Unit) :=
  match s.test.verdict with
  | (_, .returned result) => some result
  | (test, .awaiting child) =>
    ((s.outcome child).or later).map (fun o => (test.resume o).2)

/-- `failure_context`, awaited to its end: it waits for no child. -/
def failureContext (s : State) : Option (Option String) :=
  if s.test.finished (fun child => (s.outcome child).isSome) then
    (awaitVerdict none s).map DeviceTest.contextOf
  else some none

/-- The error of a body that failed, extended with the device's. -/
def extended (e : Failed) (context : Option String) : Failed :=
  let msg := e.msg.getD "test failed"
  match context with
  | some deviceError => Failed.fromMsg (msg ++ "\ndevice side: " ++ deviceError)
  | none => Failed.fromMsg msg

/-- The macro, from the end of the body on. -/
def scenarioResult (later : Option TaskOutcome) (body : Except Failed Unit)
    (s : State) : Option (Except Failed Unit) :=
  match body with
  | .error e => (failureContext s).map (fun context => .error (extended e context))
  | .ok () => awaitVerdict later s

/-- The error the device side has already finished with, if it has. -/
def deviceError (s : State) : Option String :=
  match s.starts with
  | [] => none
  | x :: _ => (s.result x).bind DeviceTest.errorOf

/-- The result a start leads to in the end, if what is still running ends in
`later`. -/
def finalResult (later : Option TaskOutcome) (s : State) :
    Start → Option (Except String Unit)
  | .missingDir => some (.error s.test.missingDir)
  | .spawned child => ((s.outcome child).or later).map s.test.taskResult

/-- The device test has been started, and its child exits successfully. -/
def DevicePasses (later : Option TaskOutcome) (s : State) : Prop :=
  ∃ child status, s.starts = [.spawned child]
    ∧ (s.outcome child).or later = some (.exited status) ∧ status.success = true

section Settled

variable {s : State}

theorem taskResult_eq_ok {H : Type} {dt : DeviceTest H} {o : TaskOutcome} :
    dt.taskResult o = .ok () ↔ ∃ status, o = .exited status ∧ status.success = true := by
  cases o with
  | joinError text => simp [DeviceTest.taskResult]
  | spawnError text => simp [DeviceTest.taskResult]
  | exited status => by_cases h : status.success <;> simp [DeviceTest.taskResult, h]

theorem finalResult_none (x : Start) : finalResult none s x = s.result x := by
  cases x with
  | missingDir => rfl
  | spawned child => rw [finalResult, Option.or_none]; rfl

theorem finalResult_of_result {x : Start} {result : Except String Unit}
    (h : s.result x = some result) (later : Option TaskOutcome) :
    finalResult later s x = some result := by
  cases x with
  | missingDir => exact h
  | spawned child =>
    obtain ⟨o, ho, hresult⟩ := Option.map_eq_some_iff.mp h
    rw [finalResult, ho]
    exact congrArg some hresult

/-- **What a verdict is**, on a handle with no future pending: the result of the
start. -/
theorem awaitVerdict_eq (hk : Kept s) (hpending : s.pending = none)
    (later : Option TaskOutcome) :
    awaitVerdict later s = match s.starts with
      | [] => some (.error (Failed.fromMsg
          ("device test '" ++ s.test.testPath ++ "' was never started")))
      | x :: _ => (finalResult later s x).map (Except.mapError Failed.fromMsg) := by
  cases hk.remembers with
  | idle starts children state pending =>
    rw [awaitVerdict, DeviceTest.verdict, state, starts]
  | missing starts children state pending =>
    rw [awaitVerdict, DeviceTest.verdict, state, starts]
    rfl
  | running c starts children state pending =>
    rw [awaitVerdict, DeviceTest.verdict, state, starts]
    dsimp only [finalResult]
    rw [Option.map_map]
    rfl
  | awaited c caller starts children state pending =>
    rw [hpending] at pending
    simp at pending
  | done c o starts children outcome state pending =>
    have hresult := State.result_onlyChild children outcome
    rw [awaitVerdict, DeviceTest.verdict, state, starts]
    dsimp only
    rw [finalResult_of_result hresult]
    rfl

/-- What `failure_context` returns where there is something to look at. -/
theorem failureContext_of_finished (hk : Kept s) (hpending : s.pending = none)
    {x : Start} {xs : List Start} (hstarts : s.starts = x :: xs)
    {result : Except String Unit} (hresult : s.result x = some result)
    (hfinished : s.test.finished (fun child => (s.outcome child).isSome) = true) :
    failureContext s = some (DeviceTest.errorOf result) := by
  rw [failureContext, if_pos hfinished, awaitVerdict_eq hk hpending, hstarts]
  dsimp only
  rw [finalResult_none, hresult, Option.map_some, Option.map_some,
    DeviceTest.contextOf_mapError]

/-- **What `failure_context` returns**: the error the device side has already
finished with, and it returns at once. -/
theorem failureContext_eq (hk : Kept s) (hpending : s.pending = none) :
    failureContext s = some (deviceError s) := by
  cases hk.remembers with
  | idle starts children state pending =>
    rw [failureContext, DeviceTest.finished, state, deviceError, starts]
    rfl
  | missing starts children state pending =>
    rw [failureContext_of_finished hk hpending starts rfl, deviceError, starts]
    · rfl
    · rw [DeviceTest.finished, state]
      rfl
  | running c starts children state pending =>
    cases houtcome : s.outcome 0 with
    | none =>
      rw [failureContext, DeviceTest.finished, state, deviceError, starts]
      simp [State.result, houtcome]
    | some o =>
      have hresult : s.result (.spawned 0) = some (s.test.taskResult o) := by
        rw [State.result, houtcome]
        rfl
      rw [failureContext_of_finished hk hpending starts hresult, deviceError, starts]
      · simp [hresult]
      · rw [DeviceTest.finished, state]
        simp [houtcome]
  | awaited c caller starts children state pending =>
    rw [hpending] at pending
    simp at pending
  | done c o starts children outcome state pending =>
    have hresult := State.result_onlyChild children outcome
    cases hok : s.test.taskResult o with
    | ok u =>
      rw [failureContext, DeviceTest.finished, state, hok, deviceError, starts]
      simp [hresult, hok, Except.isOk, Except.toBool, DeviceTest.errorOf]
    | error e =>
      rw [failureContext_of_finished hk hpending starts hresult, deviceError, starts]
      · simp [hresult]
      · rw [DeviceTest.finished, state, hok]
        rfl

/-- The trailing check passes exactly when the device test does. -/
theorem awaitVerdict_eq_ok (hk : Kept s) (hpending : s.pending = none)
    (later : Option TaskOutcome) :
    awaitVerdict later s = some (.ok ()) ↔ DevicePasses later s := by
  rw [awaitVerdict_eq hk hpending]
  have hlength := hk.remembers.length_starts_le
  rw [DevicePasses]
  cases hstarts : s.starts with
  | nil => simp
  | cons x xs =>
    obtain rfl : xs = [] := by
      rw [hstarts] at hlength
      simpa using hlength
    cases x with
    | missingDir => simp [finalResult, Except.mapError]
    | spawned child =>
      constructor
      · intro h
        obtain ⟨result, hresult, hok⟩ := Option.map_eq_some_iff.mp h
        obtain ⟨o, ho, rfl⟩ := Option.map_eq_some_iff.mp hresult
        obtain ⟨status, rfl, hsuccess⟩ := taskResult_eq_ok.mp (mapError_eq_ok_iff.mp hok)
        exact ⟨child, status, rfl, ho, hsuccess⟩
      · rintro ⟨child', status, hchild, ho, hsuccess⟩
        obtain rfl : child = child' := by simpa using hchild
        have hok : s.test.taskResult (.exited status) = .ok () :=
          taskResult_eq_ok.mpr ⟨status, rfl, hsuccess⟩
        simp [finalResult, ho, hok, Except.mapError]

end Settled

/-- **Both halves are combined soundly.** For every scenario whose body awaits
its calls to the end, wherever the child ends:

* the scenario returns Ok if and only if the body does, the device test has
  been started, and its child exits successfully;
* the verdicts the body has seen since the start agree, with each other and
  with the trailing check;
* a body that fails makes the scenario fail at once, with its own message (or
  `test failed`, if it has none), extended with the device's error where the
  device side has already finished with one, and left as it is where it has not. -/
theorem scenarioResult_sound (suite : DeviceSuite) (name : String)
    (deviceTest : Option String) {run : List Action} {s : State}
    (hrun : Transition.run step (.fresh suite (deviceTestPath name deviceTest)) run
      = some s)
    (hdrop : Action.drop ∉ run) (hpending : s.pending = none)
    (later : Option TaskOutcome) (body : Except Failed Unit) :
    (scenarioResult later body s = some (.ok ()) ↔ body = .ok () ∧ DevicePasses later s)
      ∧ (∀ rep ∈ s.reports, rep.started = true → ∀ r, rep.returned = .verdict r →
          (∀ rep' ∈ s.reports, rep'.started = true →
              ∀ r', rep'.returned = .verdict r' → r' = r)
            ∧ awaitVerdict later s = some r)
      ∧ ∀ e, body = .error e →
          (∀ d, deviceError s = some d → scenarioResult later body s
            = some (.error ⟨some (e.msg.getD "test failed" ++ "\ndevice side: " ++ d)⟩))
          ∧ (deviceError s = none → scenarioResult later body s
            = some (.error ⟨some (e.msg.getD "test failed")⟩)) := by
  have hk : Kept s := (kept_fresh suite _).run hrun hdrop
  have hagree : ∀ rep ∈ s.reports, rep.started = true →
      ∀ r, rep.returned = .verdict r → awaitVerdict later s = some r := by
    intro rep hrep hstarted r hr
    obtain ⟨x, hx, result, hresult, rfl⟩ := hk.verdicts rep hrep hstarted r hr
    have hlength := hk.remembers.length_starts_le
    obtain ⟨y, hy⟩ : ∃ y, s.starts = [y] :=
      List.length_eq_one_iff.mp (le_antisymm hlength (List.length_pos_of_mem hx))
    rw [hy, List.mem_singleton] at hx
    rw [awaitVerdict_eq hk hpending, hy, ← hx]
    dsimp only
    rw [finalResult_of_result hresult]
    rfl
  refine ⟨?_, fun rep hrep hstarted r hr => ⟨fun rep' hrep' hstarted' r' hr' => ?_, ?_⟩, ?_⟩
  · cases body with
    | ok u => simpa [scenarioResult] using awaitVerdict_eq_ok hk hpending later
    | error e => simp [scenarioResult, failureContext_eq hk hpending]
  · exact Option.some.inj
      ((hagree rep' hrep' hstarted' r' hr').symm.trans (hagree rep hrep hstarted r hr))
  · exact hagree rep hrep hstarted r hr
  · rintro e rfl
    have hfails : scenarioResult later (.error e) s
        = some (.error (extended e (deviceError s))) := by
      rw [scenarioResult, failureContext_eq hk hpending]
      rfl
    rw [hfails]
    constructor
    · intro d hd
      rw [hd]
      rfl
    · intro hnone
      rw [hnone]
      rfl

/-- The body starts the device test, finds nothing wrong with it, and fails
after its child has. -/
def failingRun : List Action :=
  [.start true, .failureContext, .ends 0 (.exited (.exited 101))]

/-- The same, while its child is still running. -/
def earlyRun : List Action := [.start true, .failureContext]

/-- The error of a scenario whose device side has failed says so; and where it has not,
the error is that of the body alone, which here has no message of its own. -/
theorem failingRun_extended :
    (∃ s, Transition.run step (.fresh (.new "fw" "join") (deviceTestPath "join_ok" none))
          failingRun = some s
        ∧ scenarioResult none (.error ⟨some "deadline elapsed"⟩) s
          = some (.error ⟨some ("deadline elapsed\ndevice side: device-side test "
              ++ "'tests::join_ok' reported failure (exit status: 101)")⟩))
      ∧ ∃ s, Transition.run step (.fresh (.new "fw" "join") (deviceTestPath "join_ok" none))
          earlyRun = some s
        ∧ scenarioResult none (.error ⟨none⟩) s = some (.error ⟨some "test failed"⟩) := by
  constructor
  · have hend : (Transition.run step (.fresh (.new "fw" "join")
        (deviceTestPath "join_ok" none)) failingRun).map
          (fun s => (s.pending, deviceError s))
        = some (none, some ("device-side test 'tests::join_ok' reported failure "
            ++ "(exit status: 101)")) := by
      decide +kernel
    obtain ⟨s, hs, heq⟩ := Option.map_eq_some_iff.mp hend
    obtain ⟨hpending, herror⟩ := Prod.mk.inj heq
    refine ⟨s, hs, ?_⟩
    rw [((scenarioResult_sound (.new "fw" "join") "join_ok" none hs (by decide) hpending
      none (.error ⟨some "deadline elapsed"⟩)).2.2 _ rfl).1 _ herror]
    decide +kernel
  · have hend : (Transition.run step (.fresh (.new "fw" "join")
        (deviceTestPath "join_ok" none)) earlyRun).map (fun s => (s.pending, deviceError s))
        = some (none, none) := by
      decide +kernel
    obtain ⟨s, hs, heq⟩ := Option.map_eq_some_iff.mp hend
    obtain ⟨hpending, herror⟩ := Prod.mk.inj heq
    exact ⟨s, hs, ((scenarioResult_sound (.new "fw" "join") "join_ok" none hs (by decide) hpending
      none (.error ⟨none⟩)).2.2 _ rfl).2 herror⟩

end Paired

end Banc
