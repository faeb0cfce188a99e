import Mathlib.Tactic.TypeStar
import Mathlib.Tactic.Common

/-!
# The device half of a scenario

`DeviceSuite` and `DeviceTest` of `banc-host/src/device.rs`. A `DeviceTest`
runs one on-target test as a child `cargo test` in the firmware crate, and its
state says whether the child has been started, is running, or has a result.

`verdict` is asynchronous: it takes the state out, leaving `Idle` in its place,
and then awaits the child. It is therefore split where it suspends
(`DeviceTest.verdict`, `DeviceTest.resume`), and so is `failure_context`, which
calls it. The child itself is a handle: what it does is not the handle's
business, and the type of handles is a type variable.

Paths are strings, as they are displayed.
-/

namespace Banc

/-- libtest-mimic's `Failed`. -/
structure Failed where
  msg : Option String
  deriving DecidableEq, Repr

/-- `Failed::from`, of a message. -/
def Failed.fromMsg (msg : String) : Failed := ⟨some msg⟩

/-- `std::process::ExitStatus`: an exit code, or the text for a signal. -/
inductive ExitStatus where
  | exited (code : ℕ)
  | signaled (text : String)
  deriving DecidableEq, Repr

/-- `ExitStatus::success`. -/
def ExitStatus.success : ExitStatus → Bool
  | .exited code => code == 0
  | .signaled _ => false

/-- How an `ExitStatus` is displayed. -/
def ExitStatus.display : ExitStatus → String
  | .exited code => "exit status: " ++ toString code
  | .signaled text => text

/-- What the task that runs the child ends in. -/
inductive TaskOutcome where
  /-- The task panicked or was aborted. -/
  | joinError (text : String)
  /-- The child was not spawned. -/
  | spawnError (text : String)
  | exited (status : ExitStatus)
  deriving DecidableEq, Repr

/-- A child command. -/
structure Command where
  program : String
  args : List String
  currentDir : String
  killOnDrop : Bool
  deriving DecidableEq, Repr

/-- How to invoke the device-side test crate. -/
structure DeviceSuite where
  /-- Directory of the firmware crate whose tests run on-target. -/
  crateDir : String
  /-- Test target within that crate. -/
  testTarget : String
  /-- Extra cargo args. -/
  cargoArgs : List String
  /-- Program to invoke. -/
  program : String
  deriving DecidableEq, Repr

/-- `State`, of a `DeviceTest`. -/
inductive DeviceState (H : Type) where
  | idle
  | running (handle : H)
  | done (result : Except String Unit)
  deriving DecidableEq

/-- A test of a device suite, with its child once it has been started. -/
structure DeviceTest (H : Type) where
  suite : DeviceSuite
  testPath : String
  state : DeviceState H
  deriving DecidableEq

/-- `DeviceSuite::new`. -/
def DeviceSuite.new (crateDir testTarget : String) : DeviceSuite :=
  ⟨crateDir, testTarget, [], "cargo"⟩

/-- A handle for one on-target test, not yet started. -/
def DeviceSuite.test (H : Type) (suite : DeviceSuite) (testPath : String) :
    DeviceTest H :=
  ⟨suite, testPath, .idle⟩

namespace DeviceTest

variable {H : Type}

/-- The command `start` builds. -/
def command (dt : DeviceTest H) : Command where
  program := dt.suite.program
  args := "test" :: (dt.suite.cargoArgs
    ++ ["--test", dt.suite.testTarget, "--", "--exact", dt.testPath])
  currentDir := dt.suite.crateDir
  killOnDrop := true

/-- The error of a crate directory that does not exist. -/
def missingDir (dt : DeviceTest H) : String :=
  "device crate dir " ++ dt.suite.crateDir ++ " does not exist"

/-- `start`: panics unless the test is idle; otherwise spawns the command, the
handle of its task being `handle`, or has the error that the crate directory is
missing for a result. -/
def start (isDir : Bool) (handle : H) (dt : DeviceTest H) :
    Except String (DeviceTest H × Option Command) :=
  match dt.state with
  | .idle =>
    if isDir then .ok ({ dt with state := .running handle }, some dt.command)
    else .ok ({ dt with state := .done (.error dt.missingDir) }, none)
  | _ => .error ("device test '" ++ dt.testPath ++ "' started twice")

/-- The result of the child, from what its task ended in. -/
def taskResult (dt : DeviceTest H) : TaskOutcome → Except String Unit
  | .joinError join => .error ("device test task failed: " ++ join)
  | .spawnError spawn =>
    .error ("spawning " ++ dt.suite.program ++ " in " ++ dt.suite.crateDir ++ ": "
      ++ spawn)
  | .exited status =>
    if status.success then .ok ()
    else .error ("device-side test '" ++ dt.testPath ++ "' reported failure ("
      ++ status.display ++ ")")

/-- Where `verdict` gets to when it is first polled. -/
inductive Verdict (H : Type) where
  | returned (result : Except Failed Unit)
  /-- Awaiting the child, its handle in the future. -/
  | awaiting (handle : H)

/-- `verdict`, until it returns or awaits the child. -/
def verdict (dt : DeviceTest H) : DeviceTest H × Verdict H :=
  let idle := { dt with state := .idle }
  match dt.state with
  | .idle =>
    (idle, .returned (.error
      (Failed.fromMsg ("device test '" ++ dt.testPath ++ "' was never started"))))
  | .running handle => (idle, .awaiting handle)
  | .done result =>
    ({ dt with state := .done result }, .returned (result.mapError Failed.fromMsg))

/-- `verdict`, from the child's end on. -/
def resume (dt : DeviceTest H) (outcome : TaskOutcome) :
    DeviceTest H × Except Failed Unit :=
  let result := dt.taskResult outcome
  ({ dt with state := .done result }, result.mapError Failed.fromMsg)

/-- Whether `failure_context` has anything to look at. -/
def finished (isFinished : H → Bool) (dt : DeviceTest H) : Bool :=
  match dt.state with
  | .done result => !result.isOk
  | .running handle => isFinished handle
  | .idle => false

/-- What `failure_context` makes of the verdict. -/
def contextOf : Except Failed Unit → Option String
  | .ok () => none
  | .error f => some (f.msg.getD "device test failed")

/-- A test that is not idle is not started again. -/
theorem start_of_ne_idle {dt : DeviceTest H} (h : dt.state ≠ .idle) (isDir : Bool)
    (handle : H) : dt.start isDir handle
      = .error ("device test '" ++ dt.testPath ++ "' started twice") := by
  rw [start]
  split
  · rename_i hidle
    exact absurd hidle h
  · rfl

/-- The error of a result, if it is one. -/
def errorOf : Except String Unit → Option String
  | .ok () => none
  | .error e => some e

@[simp] theorem contextOf_mapError (result : Except String Unit) :
    contextOf (result.mapError Failed.fromMsg) = errorOf result := by
  cases result <;> rfl

end DeviceTest

/-- What an error is mapped to is an error. -/
theorem mapError_eq_ok_iff {E E' A : Type} {f : E → E'} {result : Except E A} {a : A} :
    result.mapError f = .ok a ↔ result = .ok a := by
  cases result with
  | ok a' => exact ⟨fun h => congrArg Except.ok (Except.ok.inj h), fun h => h ▸ rfl⟩
  | error e => exact iff_of_false nofun nofun

end Banc
