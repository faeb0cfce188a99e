import Banc.Probe.Commands

/-!
# Targets

`Target` of `banc-probe/src/lib.rs`, over its two transports: the library on a worker
thread, and, of a probe that is elsewhere, `RemoteCliTarget` of
`banc-probe/src/remote.rs`, which starts a process for each thing there is to do. "Flash
an ELF and leave the core running it" is what `flash` is for, on either.

The two have little in common. The worker executes what it is sent, also when nobody
waits for it any more; a process is killed with the future that waits for it. Either way
a flash is a download and a reset, and the one may be done without the other. What is
known of the device is what can be concluded from all that has been done to it
(`Device.afterAll`). A flash returns `Ok` exactly if by then the device is known to run
that program, whatever has been given up before (`flash_leaves_running`).
-/

namespace Banc

namespace Probe

/-- Which probe and chip to use. -/
structure TargetSpec where
  /-- The chip's name, as probe-rs knows it. -/
  chip : String
  /-- Which probe, where there are several. -/
  probe : Option String
  /-- Where `probe-rs serve` is, if the probe is not on this machine. -/
  probeHost : Option String
  /-- The `probe-rs` to start, if it is not the one on the path. -/
  probeRsBin : Option String

/-! ## What is done to a device

Neither transport reads back what it has done: the device is known by what was done to it.
What an operation makes of a chip is `probe-rs`'s affair and not in this repository, so
`Device.after` states what is assumed of it. -/

/-- What a debugger can do to a device, of what there is here: put a program on it, or reset it.
-/
inductive Op where
  | download (elf : String)
  | reset
  deriving DecidableEq

/-- What is known of a device: the program it has, and whether it is running. -/
structure Device where
  /-- `none`: it may have any program, or a part of one. -/
  program : Option String
  /-- `false`: it is halted, or nobody knows. -/
  running : Bool
  deriving DecidableEq

namespace Device

/-- What is known when something has been done, or tried, of which the `Bool` says whether
it has succeeded. This is assumed of `probe-rs`: a download that succeeds leaves the device
with the program and the core halted; one that does not, or was killed, leaves it with no
program that is known, and the core likewise; a reset that succeeds leaves the core running,
one that does not in no known state, and neither changes the program. -/
def after (d : Device) : Op × Bool → Device
  | (.download elf, true) => ⟨some elf, false⟩
  | (.download _, false) => ⟨none, false⟩
  | (.reset, done) => { d with running := done }

/-- What is known after all of it, of a device that was found in whatever state. -/
def afterAll (ops : List (Op × Bool)) : Device := ops.foldl after ⟨none, false⟩

end Device

/-- What a call that has returned has come to: the last that was done to the device, and
the result. -/
inductive Carried : Request → Except String Unit → List (Op × Bool) → Prop where
  /-- The download has failed, and so has the flash: no reset is tried. -/
  | notDownloaded (earlier : List (Op × Bool)) (elf e : String) :
    Carried (.flash elf) (.error e) (earlier ++ [(.download elf, false)])
  /-- The download has succeeded, and the flash has what the reset has. -/
  | flashed (earlier : List (Op × Bool)) (elf : String) (result : Except String Unit) :
    Carried (.flash elf) result (earlier ++ [(.download elf, true), (.reset, result.isOk)])
  /-- A reset alone. -/
  | reset (earlier : List (Op × Bool)) (result : Except String Unit) :
    Carried .reset result (earlier ++ [(.reset, result.isOk)])
  /-- Listening changes nothing. -/
  | startRtt (ops : List (Op × Bool)) (result : Except String Unit) :
    Carried .startRtt result ops

/-! ## The remote transport

A call starts a process of the command line for each operation and waits for it. The calls
take `&mut self`, so there is one at a time, and `kill_on_drop` sees to it that a call that
is dropped leaves no process behind. -/

/-- The probe of a machine that runs `probe-rs serve`. -/
structure RemoteCliTarget where
  bin : String
  host : String
  chip : String
  probe : Option String

/-- A process to be started. -/
structure Command where
  program : String
  args : List String
  deriving DecidableEq

/-- `Command::arg`. -/
def Command.arg (cmd : Command) (a : String) : Command := { cmd with args := cmd.args ++ [a] }

/-- What `Command::output` returns. -/
inductive Output where
  /-- The process could not be started, or waited for. -/
  | failed (e : String)
  /-- It has exited, with this status as text and what it has written. -/
  | exited (success : Bool) (status : String) (stdout stderr : List UInt8)

/-- `ExitStatus::success`; a process that was never there has not succeeded. -/
def Output.success : Output → Bool
  | .failed _ => false
  | .exited success _ _ _ => success

namespace RemoteCliTarget

/-- `RemoteCliTarget::new`. `probe-rs` is looked for on the path, unless the rig says where it
is. -/
def new (spec : TargetSpec) (host : String) : RemoteCliTarget where
  bin := spec.probeRsBin.getD "probe-rs"
  host := host
  chip := spec.chip
  probe := spec.probe

variable (t : RemoteCliTarget)

/-- `command`: which server and which chip, and which probe if one is named. -/
def command (subcommand : String) : Command where
  program := t.bin
  args := [subcommand, "--host", t.host, "--chip", t.chip]
    ++ t.probe.elim [] (fun probe => ["--probe", probe])

/-- `run`, of what has come of the process. -/
def run (what : String) : Output → Except String Unit
  | .failed e => .error ("spawning " ++ t.bin ++ " for " ++ what ++ ": " ++ e)
  | .exited true _ _ _ => .ok ()
  | .exited false status stdout stderr =>
    .error (what ++ " failed (" ++ status ++ "):\n" ++ String.ofList (fromUtf8Lossy stdout)
      ++ "\n" ++ String.ofList (fromUtf8Lossy stderr))

/-- Where a call is that awaits a process. -/
inductive Call where
  /-- In `flash`, in its download. -/
  | download (elf : String)
  /-- In `flash`, in the `reset` at its end. -/
  | resetAfter (elf : String)
  /-- In `reset`. -/
  | reset

/-- What the process is started for. -/
def Call.op : Call → Op
  | .download elf => .download elf
  | .resetAfter _ => .reset
  | .reset => .reset

/-- The process it awaits. -/
def Call.command (t : RemoteCliTarget) : Call → Command
  | .download elf => (t.command "download").arg elf
  | .resetAfter _ => t.command "reset"
  | .reset => t.command "reset"

/-- What may happen. -/
inductive Action where
  /-- A call begins. They take `&mut self`, so it is the only one. -/
  | call (req : Request)
  /-- The process has ended, or could not be started. -/
  | exits (o : Output)
  /-- The future of the call is dropped, and the process with it: `kill_on_drop`. -/
  | cancel

/-- What is logged of a run. -/
inductive Event where
  /-- A process has run to its end. -/
  | ran (cmd : Command) (op : Op) (o : Output)
  /-- One was killed. -/
  | killed (cmd : Command) (op : Op)
  /-- A call has returned. -/
  | returned (req : Request) (result : Except String Unit)

/-- The step function. The state is the call under way. -/
def step : Option Call → Action → Option (Option Call)
  | none, .call (.flash elf) => some (some (.download elf))
  | none, .call .reset => some (some .reset)
  | none, .call .startRtt => some none
  | some (.download elf), .exits o =>
    match t.run "remote flash" o with
    | .error _ => some none
    -- `download` leaves the core halted; bring it up like the local path
    | .ok () => some (some (.resetAfter elf))
  | some (.resetAfter _), .exits _ => some none
  | some .reset, .exits _ => some none
  | some _, .cancel => some none
  | _, _ => none

/-- The result of `Target::start_rtt`. -/
def startRtt : Except String Unit :=
  .error "RTT capture over the remote probe-rs CLI is not wired yet (Phase 2)"

/-- What is logged of a step. -/
def event : Option Call → Action → List Event
  | none, .call .startRtt => [.returned .startRtt startRtt]
  | some (.download elf), .exits o =>
    .ran (Call.command t (.download elf)) (.download elf) o ::
      match t.run "remote flash" o with
      | .error e => [.returned (.flash elf) (.error e)]
      | .ok () => []
  | some (.resetAfter elf), .exits o =>
    [.ran (Call.command t (.resetAfter elf)) .reset o,
      .returned (.flash elf) (t.run "remote reset" o)]
  | some .reset, .exits o =>
    [.ran (Call.command t .reset) .reset o, .returned .reset (t.run "remote reset" o)]
  | some c, .cancel => [.killed (c.command t) c.op]
  | _, _ => []

/-- What has been done to the device. A process that is killed may or may not have done what
it was started for, which comes to the same as an operation that failed. It is assumed that
it does nothing later: that a `probe-rs serve` whose client is gone does not go on with what
that client had asked for, so that the next process finds the device at rest. -/
def Event.ops : Event → List (Op × Bool)
  | .ran _ op o => [(op, o.success)]
  | .killed _ op => [(op, false)]
  | .returned _ _ => []

variable {t} {c c' : Option Call} {log : List Event}

/-- `run` succeeds exactly if the process does. -/
theorem isOk_run (what : String) (o : Output) : (t.run what o).isOk = o.success := by
  cases o with
  | failed e => rfl
  | exited success status stdout stderr => cases success <;> rfl

/-- **The call under way, and what has been logged.** -/
structure Kept (c : Option Call) (log : List Event) : Prop where
  /-- A flash that waits for its reset has downloaded its program last. -/
  resetAfter : ∀ elf, c = some (.resetAfter elf) →
    ∃ earlier, log.flatMap Event.ops = earlier ++ [(.download elf, true)]
  /-- Whoever has returned has come to what he was to. -/
  returned : ∀ before req result after, log = before ++ .returned req result :: after →
    Carried req result (before.flatMap Event.ops) ∧ (req = .startRtt → result = startRtt)

/-- Nothing is under way. -/
theorem Kept.initial : Kept none [] where
  resetAfter _ h := absurd h nofun
  returned before _ _ after h := by
    cases before <;> exact absurd h nofun

/-- What is logged, and is no return. -/
theorem Kept.of_event (h : Kept c log) {event : Event}
    (hevent : ∀ req result, event ≠ .returned req result)
    (hafter : ∀ elf, c' = some (.resetAfter elf) → event.ops = [(.download elf, true)]) :
    Kept c' (log ++ [event]) where
  resetAfter elf hc := by
    refine ⟨log.flatMap Event.ops, ?_⟩
    rw [List.flatMap_append, List.flatMap_singleton, hafter elf hc]
  returned before req result after hlog := by
    rcases Transition.concat_eq_append_cons.mp hlog with ⟨-, hlast, -⟩ | ⟨more, -, hmore⟩
    · exact absurd hlast.symm (hevent req result)
    · exact h.returned before req result more hmore

/-- A call returns. -/
theorem Kept.of_returned (h : Kept c log) {req : Request} {result : Except String Unit}
    (hcarried : Carried req result (log.flatMap Event.ops))
    (hstart : req = .startRtt → result = startRtt) :
    Kept none (log ++ [.returned req result]) where
  resetAfter _ hc := absurd hc nofun
  returned before req' result' after hlog := by
    rcases Transition.concat_eq_append_cons.mp hlog with ⟨-, hlast, rfl⟩ | ⟨more, -, hmore⟩
    · obtain ⟨rfl, rfl⟩ := Event.returned.inj hlast
      exact ⟨hcarried, hstart⟩
    · exact h.returned before req' result' more hmore

/-- A process ends, and the call with it. -/
theorem Kept.of_ran (h : Kept c log) {call : Call} {o : Output} {req : Request}
    {result : Except String Unit}
    (hcarried : Carried req result (log.flatMap Event.ops ++ [(call.op, o.success)]))
    (hstart : req ≠ .startRtt) :
    Kept none (log ++ [.ran (call.command t) call.op o, .returned req result]) := by
  have hran : Kept none (log ++ [.ran (call.command t) call.op o]) :=
    h.of_event (by simp) (fun elf hc => absurd hc nofun)
  rw [List.append_cons]
  refine hran.of_returned ?_ (fun heq => absurd heq hstart)
  rw [List.flatMap_append, List.flatMap_singleton]
  exact hcarried

/-- **A step, with what it logs.** -/
theorem Kept.step {a : Action} (h : Kept c log) (hstep : t.step c a = some c') :
    Kept c' (log ++ t.event c a) := by
  cases c with
  | none =>
    cases a with
    -- a call that begins has logged nothing, but `startRtt` has returned at once
    | call req =>
      cases req with
      | flash elf =>
        obtain rfl := Option.some.inj hstep
        show Kept (some (.download elf)) (log ++ [])
        rw [List.append_nil]
        exact ⟨fun elf' hc => absurd hc (by simp), h.returned⟩
      | reset =>
        obtain rfl := Option.some.inj hstep
        show Kept (some .reset) (log ++ [])
        rw [List.append_nil]
        exact ⟨fun elf' hc => absurd hc (by simp), h.returned⟩
      | startRtt =>
        obtain rfl := Option.some.inj hstep
        exact h.of_returned (.startRtt _ _) (fun _ => rfl)
    | exits o => exact absurd hstep nofun
    | cancel => exact absurd hstep nofun
  | some call =>
    cases a with
    | call req => cases call <;> exact absurd hstep nofun
    -- what is killed counts as an operation that has failed, and nobody hears of it
    | cancel =>
      have hnone : c' = none := by
        cases call <;> exact (Option.some.inj hstep).symm
      have hevent : t.event (some call) .cancel = [.killed (call.command t) call.op] := by
        cases call <;> rfl
      rw [hnone, hevent]
      exact h.of_event (by simp) (fun elf hc => absurd hc nofun)
    | exits o =>
      cases call with
      | download elf =>
        have hsuccess := isOk_run (t := t) "remote flash" o
        unfold RemoteCliTarget.step at hstep
        unfold event
        dsimp only at hstep ⊢
        cases hrun : t.run "remote flash" o with
        | error e =>
          rw [hrun] at hstep hsuccess
          obtain rfl := Option.some.inj hstep
          refine @Kept.of_ran _ _ _ h (.download elf) o _ _ ?_ (by simp)
          rw [← hsuccess]
          exact .notDownloaded _ elf e
        | ok u =>
          rw [hrun] at hstep hsuccess
          obtain rfl := Option.some.inj hstep
          refine @Kept.of_event _ _ _ h (.ran _ (.download elf) o) (by simp) (fun elf' hc => ?_)
          obtain rfl : elf = elf' := by simpa using hc
          show [(Op.download elf, o.success)] = _
          rw [← hsuccess]
          rfl
      | resetAfter elf =>
        obtain rfl := Option.some.inj hstep
        obtain ⟨earlier, hearlier⟩ := h.resetAfter elf rfl
        refine @Kept.of_ran _ _ _ h (.resetAfter elf) o _ _ ?_ (by simp)
        rw [hearlier, List.append_assoc, ← isOk_run (t := t) "remote reset" o]
        exact .flashed earlier elf _
      | reset =>
        obtain rfl := Option.some.inj hstep
        refine @Kept.of_ran _ _ _ h .reset o _ _ ?_ (by simp)
        rw [← isOk_run (t := t) "remote reset" o]
        exact .reset _ _

end RemoteCliTarget

/-! ## The local transport

The worker has the session, and executes what it is sent in the order in which it is sent.
What comes of a command is what `Banc.Probe.Commands` has of it; here it is only what the
command does to the device. -/

/-- What has been done to the device, when the worker has executed a command. -/
def Cmd.ops (h : Hardware) : Cmd → List (Op × Bool)
  | .flash _ elf =>
    match h.download with
    | .error _ => [(.download elf, false)]
    | .ok () => [(.download elf, true), (.reset, (resetCore h).isOk)]
  | .reset _ => [(.reset, (resetCore h).isOk)]
  | .startRtt _ => []

/-- And of what is logged, only what was executed. A command that nobody waits for any more is
executed all the same. -/
def Event.ops : Event → List (Op × Bool)
  | .executed cmd h => cmd.ops h
  | _ => []

/-- A command that is executed does to the device what its result says. -/
theorem carried_ops (earlier : List (Op × Bool)) (req : Request) (call : ℕ) (h : Hardware) :
    Carried req ((req.cmd call).result h) (earlier ++ (req.cmd call).ops h) := by
  cases req with
  | flash elf =>
    show Carried (.flash elf) (flash elf h) (earlier ++ (Cmd.flash call elf).ops h)
    unfold flash Cmd.ops
    cases hdownload : h.download with
    | error e => exact .notDownloaded earlier elf _
    | ok u => exact .flashed earlier elf (resetCore h)
  | reset => exact .reset earlier (resetCore h)
  | startRtt => exact .startRtt _ _

section Log

variable {log : List Event}

/-- What is executed is in the log, or nothing has been done. -/
theorem ops_eq_nil (h : executedCmds log = []) : log.flatMap Event.ops = [] := by
  rw [List.flatMap_eq_nil_iff]
  intro event hevent
  cases event with
  | executed cmd hw =>
    have hmem := mem_executedCmds.mpr ⟨hw, hevent⟩
    exact absurd (h ▸ hmem) List.not_mem_nil
  | sent cmd => rfl
  | returned cmd result => rfl

/-- **The last to be executed** is the last that has been done. -/
theorem exists_ops_eq (hnodup : (executedCmds log).Nodup) {cmd : Cmd} {h : Hardware}
    (hlast : cmd ∈ (executedCmds log).getLast?) (hmem : .executed cmd h ∈ log) :
    ∃ earlier, log.flatMap Event.ops = earlier ++ cmd.ops h := by
  obtain ⟨before, after, rfl⟩ := List.append_of_mem hmem
  have hcmds : executedCmds (before ++ .executed cmd h :: after)
      = executedCmds before ++ cmd :: executedCmds after := executedCmds_append _ _
  rw [hcmds] at hnodup hlast
  have hafter : executedCmds after = [] := by
    by_contra hne
    rw [List.getLast?_append_of_ne_nil _ (List.cons_ne_nil _ _), List.getLast?_cons_of_ne_nil hne]
      at hlast
    have hagain := List.mem_of_getLast? hlast
    exact (List.nodup_cons.mp (List.nodup_append.mp hnodup).2.1).1 hagain
  refine ⟨before.flatMap Event.ops, ?_⟩
  rw [List.flatMap_append, List.flatMap_cons, ops_eq_nil hafter, List.append_nil]
  rfl

end Log

/-! ## Either -/

/-- `Target`: `Local`, or `Remote`. -/
inductive Target where
  /-- `probe-rs` as a library, in this process. -/
  | library
  /-- As a command line, a process each time. -/
  | cli (t : RemoteCliTarget)

/-- `Target::open`, as to the transport. -/
def Target.open (spec : TargetSpec) : Target :=
  match spec.probeHost with
  | none => .library
  | some host => .cli (.new spec host)

/-- In some run of a target, a call has returned this result, and by then this has been
done to the device. -/
inductive Target.Returned : Target → Request → Except String Unit → List (Op × Bool) → Prop where
  /-- The call is known by its number, for there may be several at a time. -/
  | library {s : State} {as : List Probe.Action} {before after : List Probe.Event}
      {req : Request} {call : ℕ} {result : Except String Unit}
      (hrun : Transition.run Probe.step .opening as = some s)
      (hlog : Transition.history Probe.step State.event .opening as
        = before ++ .returned (req.cmd call) result :: after) :
      Returned .library req result (before.flatMap Event.ops)
  /-- There is one at a time. -/
  | cli {t : RemoteCliTarget} {c : Option RemoteCliTarget.Call}
      {as : List RemoteCliTarget.Action} {before after : List RemoteCliTarget.Event}
      {req : Request} {result : Except String Unit}
      (hrun : Transition.run t.step none as = some c)
      (hlog : Transition.history t.step t.event none as
        = before ++ .returned req result :: after) :
      Returned (.cli t) req result (before.flatMap RemoteCliTarget.Event.ops)

section Returned

variable {req : Request} {result : Except String Unit} {ops : List (Op × Bool)}

/-- **Either transport does what it is asked for last.** -/
theorem Target.Returned.carried {target : Target} (h : target.Returned req result ops) :
    Carried req result ops := by
  cases h with
  | @library s as before after req call result hrun hlog =>
    have hrecorded : Recorded s (Transition.history Probe.step State.event .opening as) :=
      Transition.run_records (fun s log a s' h hstep => h.step hstep) Recorded.opening hrun
    obtain ⟨hall, hlast, h, hmem, rfl⟩ := hrecorded.returned before _ _ after hlog
    have hnodup := hrecorded.nodup
    rw [hlog, sentCmds_append] at hnodup
    rw [← hall] at hnodup hlast
    obtain ⟨earlier, hops⟩ := exists_ops_eq (List.nodup_append.mp hnodup).1 hlast hmem
    rw [hops]
    exact carried_ops earlier req call h
  | @cli t c as before after req result hrun hlog =>
    have hkept := Transition.run_records (I := RemoteCliTarget.Kept)
      (fun c log a c' h hstep => h.step hstep) RemoteCliTarget.Kept.initial hrun
    exact (hkept.returned before req result after hlog).1

/-- There is no RTT over the command line. -/
theorem startRtt_of_cli {t : RemoteCliTarget} (h : (Target.cli t).Returned .startRtt result ops) :
    result = RemoteCliTarget.startRtt := by
  cases h with
  | cli hrun hlog =>
    have hkept := Transition.run_records (I := RemoteCliTarget.Kept)
      (fun c log a c' h hstep => h.step hstep) RemoteCliTarget.Kept.initial hrun
    exact (hkept.returned _ _ result _ hlog).2 rfl

/-- What is known is known step by step. -/
theorem Device.afterAll_append (earlier later : List (Op × Bool)) :
    Device.afterAll (earlier ++ later) = later.foldl Device.after (Device.afterAll earlier) :=
  List.foldl_append

/-- There is one way of succeeding. -/
theorem isOk_eq_true_iff : result.isOk = true ↔ result = .ok () := by
  cases result with
  | error e => exact iff_of_false nofun nofun
  | ok u => exact iff_of_true rfl rfl

/-- **A flash leaves the core running the program.** Whichever the transport, in every run
of a target, with calls given up at any moment, and when a call returns:

* a flash returns `Ok` exactly if what has been done to the device leaves it running this
  program, halted or in no known state otherwise;
* a reset returns `Ok` exactly if it leaves the device running, with the program it had;
* RTT is started only where the probe is local. -/
theorem flash_leaves_running (spec : TargetSpec)
    (h : (Target.open spec).Returned req result ops) :
    (∀ elf, req = .flash elf → (result = .ok () ↔ Device.afterAll ops = ⟨some elf, true⟩))
      ∧ (req = .reset → (result = .ok () ↔ (Device.afterAll ops).running = true)
        ∧ ∃ earlier, ops = earlier ++ [(.reset, result.isOk)]
          ∧ (Device.afterAll ops).program = (Device.afterAll earlier).program)
      ∧ (req = .startRtt → result = .ok () → spec.probeHost = none) := by
  refine ⟨?_, ?_, ?_⟩
  -- what was done before the call is overwritten by its own download
  · rintro elf rfl
    cases h.carried with
    | notDownloaded earlier elf e =>
      rw [Device.afterAll_append]
      exact iff_of_false nofun (fun heq => absurd (congrArg Device.running heq) nofun)
    | flashed earlier elf result =>
      rw [Device.afterAll_append, ← isOk_eq_true_iff]
      show result.isOk = true ↔ (⟨some elf, result.isOk⟩ : Device) = ⟨some elf, true⟩
      rw [Device.mk.injEq, and_iff_right rfl]
  · rintro rfl
    cases h.carried with
    | reset earlier result =>
      refine ⟨?_, earlier, rfl, ?_⟩
      · rw [Device.afterAll_append, ← isOk_eq_true_iff]
        rfl
      · rw [Device.afterAll_append]
        rfl
  · rintro rfl rfl
    unfold Target.open at h
    cases hhost : spec.probeHost with
    | none => rfl
    | some host =>
      rw [hhost] at h
      exact absurd (startRtt_of_cli h) nofun

end Returned

/-! ### A flash that is killed, and another -/

/-- A probe that another machine serves. -/
def servedSpec : TargetSpec := ⟨"RP2350", none, some "ws://bench:3000", none⟩

/-- The target that is opened for it. -/
def servedTarget : RemoteCliTarget := .new servedSpec "ws://bench:3000"

/-- The future of the first flash is dropped. -/
def killedRun : List RemoteCliTarget.Action :=
  [.call (.flash "old.elf"), .cancel, .call (.flash "new.elf"),
    .exits (.exited true "exit status: 0" [] []), .exits (.exited true "exit status: 0" [] [])]

/-- **What is running is the second**, whatever has become of the first. -/
theorem killedRun_leaves_running :
    (servedTarget.command "reset").args
        = ["reset", "--host", "ws://bench:3000", "--chip", "RP2350"]
      ∧ (Target.open servedSpec).Returned (.flash "new.elf") (.ok ())
        [(.download "old.elf", false), (.download "new.elf", true), (.reset, true)]
      ∧ Device.afterAll
          [(.download "old.elf", false), (.download "new.elf", true), (.reset, true)]
        = ⟨some "new.elf", true⟩ := by
  have hrun : Transition.run servedTarget.step none killedRun = some none := rfl
  have hlog : Transition.history servedTarget.step servedTarget.event none killedRun
      = (Transition.history servedTarget.step servedTarget.event none killedRun).dropLast
        ++ [.returned (.flash "new.elf") (.ok ())] := rfl
  have hreturned : (Target.open servedSpec).Returned (.flash "new.elf") (.ok ())
      [(.download "old.elf", false), (.download "new.elf", true), (.reset, true)] :=
    .cli hrun hlog
  obtain ⟨hflash, -⟩ := flash_leaves_running servedSpec hreturned
  exact ⟨rfl, hreturned, (hflash "new.elf" rfl).mp rfl⟩

end Probe

end Banc
