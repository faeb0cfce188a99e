import Banc.Device.DeviceTest
import Banc.Lib.Transition
import Banc.Probe.Local

/-!
# What an attempt leaves behind

The runner gives every attempt of a trial a fresh tokio runtime and drops it
when the attempt ends, however it ends, so that nothing of one attempt is in
the way of the next. This module is about the two things that can be: a probe
session, which lives on the worker thread of a `LocalTarget`, and the process
tree of a device test, which is `cargo test` and whatever that runs – in the
end the runner that holds the probe.

Neither is a task. Dropping the runtime drops the `LocalTarget` and the futures
of the calls under way (`Probe.State.abandon`), and with them the sending half
of the command channel; the worker thread learns of it when it next looks for a
command, which may be after a flash of many seconds, and nobody joins it.
Dropping the task that runs a device test kills the `cargo test` process, for
`kill_on_drop` is set, but not the processes that has started.

So an attempt can start while an earlier one still holds the probe
(`dropped_flash_holds_the_probe`). None does in the runs in which every attempt
ends with its workers returned and its `cargo test` processes childless
(`starts_released`), and `released_iff_quiet` says that nothing less will do.
-/

namespace Banc

namespace Probe

/-- The session is a local variable of the worker: it is open from the return
of `open_session` to that of the worker. -/
def State.holdsSession (s : State) : Bool :=
  match s.worker with
  | .opening | .exited => false
  | _ => true

/-- What dropping everything an attempt holds of a target does: the future of
the call under way, the captures, and the target, or the future that opens
it. -/
def State.abandon (s : State) : State :=
  { s with
    owner := .gone
    call := none
    captures := fun i => { s.captures i with stop := .gone } }

/-- A worker that has returned does nothing more. -/
theorem Step.exited {s s' : State} {a : Action} (h : Step s a s')
    (hexited : s.worker = .exited) : s'.worker = .exited := by
  cases h with
  | sessionOpens hworker | recvFlash hworker | recv hworker | timeout hworker
  | disconnected hworker | execute hworker | poll hworker => simp [hexited] at hworker
  | call howner hcall =>
    rw [State.begin, if_pos hexited]
    exact hexited
  | _ => exact hexited

end Probe

namespace Teardown

/-- The processes of a started device test: the command, a direct child of the
runner, and how many others of its tree are alive. -/
structure Tree where
  command : Command
  direct : Bool
  others : ℕ
  deriving DecidableEq

/-- All its processes have exited. -/
def Tree.dead (t : Tree) : Bool := !t.direct && t.others == 0

/-- What may happen to a process tree. -/
inductive TreeAction where
  /-- One of its processes starts another. -/
  | spawns
  /-- The direct child exits. -/
  | directExits
  /-- Another of its processes exits. -/
  | otherExits
  deriving DecidableEq

/-- The step function of a process tree. -/
def Tree.step (t : Tree) : TreeAction → Option Tree
  | .spawns =>
    if t.direct ∨ 0 < t.others then some { t with others := t.others + 1 } else none
  | .directExits => if t.direct then some { t with direct := false } else none
  | .otherExits =>
    if 0 < t.others then some { t with others := t.others - 1 } else none

/-- Dropping the task that runs the command. -/
def Tree.dropTask (t : Tree) : Tree :=
  { t with direct := t.direct && !t.command.killOnDrop }

/-- All targets opened and all device tests started so far. -/
structure State where
  /-- An attempt is running. -/
  running : Bool
  targets : List Probe.State
  trees : List Tree

/-- What may happen. -/
inductive Action where
  /-- An attempt, of the same trial or of the next one, gets its runtime. -/
  | startAttempt
  /-- The attempt succeeds, fails, or panics, and its runtime is dropped. -/
  | endAttempt
  /-- The attempt opens a target. -/
  | openTarget
  /-- The attempt starts a device test. -/
  | startDevice (suite : DeviceSuite) (testPath : String)
  /-- A target is used, or its worker goes on. -/
  | target (i : ℕ) (a : Probe.Action)
  /-- The processes of a device test go on. -/
  | tree (i : ℕ) (a : TreeAction)

/-- No attempt has started. -/
def State.initial : State := ⟨false, [], []⟩

/-- The step function. -/
def step (s : State) : Action → Option State
  | .startAttempt => if s.running then none else some { s with running := true }
  | .endAttempt =>
    if s.running then
      some ⟨false, s.targets.map Probe.State.abandon, s.trees.map Tree.dropTask⟩
    else none
  | .openTarget =>
    if s.running then some { s with targets := s.targets ++ [.opening] } else none
  | .startDevice suite testPath =>
    if s.running then
      let command := (suite.test ℕ testPath).command
      some { s with trees := s.trees ++ [⟨command, true, 0⟩] }
    else none
  | .target i a =>
    s.targets[i]?.bind (fun t => (Probe.step t a).map
      (fun t' => { s with targets := s.targets.set i t' }))
  | .tree i a =>
    s.trees[i]?.bind (fun t => (t.step a).map
      (fun t' => { s with trees := s.trees.set i t' }))

/-- **Nothing holds the probe**: every session has been released by its worker,
and every process of every device test has exited. -/
def Released (s : State) : Prop :=
  (∀ t ∈ s.targets, t.holdsSession = false) ∧ ∀ t ∈ s.trees, t.dead = true

instance : DecidablePred Released := fun _ => inferInstanceAs (Decidable (_ ∧ _))

/-- **The property**: when an attempt starts, nothing of an earlier one holds
the probe. (Everything there is then is of an earlier one.) -/
def StartsReleased (s : State) (a : Action) : Prop := a = .startAttempt → Released s

/-- Every worker has returned, and every device test is down to its direct
child, if that. -/
def Quiet (s : State) : Prop :=
  (∀ t ∈ s.targets, t.worker = .exited) ∧ ∀ t ∈ s.trees, t.others = 0

/-- **The condition**: an attempt ends when its workers have returned and its
device tests have no process but the direct child. -/
def EndsQuiet (s : State) (a : Action) : Prop := a = .endAttempt → Quiet s

instance : DecidablePred Quiet := fun _ => inferInstanceAs (Decidable (_ ∧ _))

instance (s : State) : ∀ a, Decidable (StartsReleased s a)
  | .startAttempt => decidable_of_iff (Released s) ⟨fun h _ => h, fun h => h rfl⟩
  | .endAttempt | .openTarget | .startDevice _ _ | .target _ _ | .tree _ _ =>
    .isTrue (by rintro ⟨⟩)

instance (s : State) : ∀ a, Decidable (EndsQuiet s a)
  | .endAttempt => decidable_of_iff (Quiet s) ⟨fun h _ => h, fun h => h rfl⟩
  | .startAttempt | .openTarget | .startDevice _ _ | .target _ _ | .tree _ _ =>
    .isTrue (by rintro ⟨⟩)

/-- The step function read as a relation. -/
inductive Step (s : State) : Action → State → Prop where
  | startAttempt (hrunning : s.running = false) :
    Step s .startAttempt { s with running := true }
  | endAttempt (hrunning : s.running = true) :
    Step s .endAttempt
      ⟨false, s.targets.map Probe.State.abandon, s.trees.map Tree.dropTask⟩
  | openTarget (hrunning : s.running = true) :
    Step s .openTarget { s with targets := s.targets ++ [.opening] }
  | startDevice {suite : DeviceSuite} {testPath : String} (hrunning : s.running = true) :
    Step s (.startDevice suite testPath)
      { s with trees := s.trees ++ [⟨(suite.test ℕ testPath).command, true, 0⟩] }
  | target {i : ℕ} {a : Probe.Action} {t t' : Probe.State} (ht : t ∈ s.targets)
      (hstep : Probe.Step t a t') :
    Step s (.target i a) { s with targets := s.targets.set i t' }
  | tree {i : ℕ} {a : TreeAction} {t t' : Tree} (ht : t ∈ s.trees)
      (hstep : t.step a = some t') :
    Step s (.tree i a) { s with trees := s.trees.set i t' }

/-- **Every step is one of these.** -/
theorem Step.of_step {s s' : State} {a : Action} (h : step s a = some s') :
    Step s a s' := by
  cases a with
  | startAttempt =>
    rw [step] at h
    split at h
    · simp at h
    · rename_i hrunning
      exact Option.some.inj h ▸ .startAttempt (Bool.not_eq_true _ ▸ hrunning)
  | endAttempt =>
    obtain ⟨hrunning, ⟨⟩⟩ := Option.ite_none_right_eq_some.mp h
    exact .endAttempt hrunning
  | openTarget =>
    obtain ⟨hrunning, ⟨⟩⟩ := Option.ite_none_right_eq_some.mp h
    exact .openTarget hrunning
  | startDevice suite testPath =>
    obtain ⟨hrunning, ⟨⟩⟩ := Option.ite_none_right_eq_some.mp h
    exact .startDevice hrunning
  | target i a =>
    obtain ⟨t, ht, hmap⟩ := Option.bind_eq_some_iff.mp h
    obtain ⟨t', ht', rfl⟩ := Option.map_eq_some_iff.mp hmap
    exact .target (List.mem_of_getElem? ht) (Probe.Step.of_step ht')
  | tree i a =>
    obtain ⟨t, ht, hmap⟩ := Option.bind_eq_some_iff.mp h
    obtain ⟨t', ht', rfl⟩ := Option.map_eq_some_iff.mp hmap
    exact .tree (List.mem_of_getElem? ht) ht'

/-! ## Between attempts -/

/-- Every command is killed when its task is dropped. -/
def Killed (s : State) : Prop := ∀ t ∈ s.trees, t.command.killOnDrop = true

/-- Nothing is left that could hold the probe. -/
def Over (s : State) : Prop :=
  (∀ t ∈ s.targets, t.worker = .exited) ∧ ∀ t ∈ s.trees, t.dead = true

/-- **The invariant.** -/
structure Kept (s : State) : Prop where
  killed : Killed s
  ended : s.running = false → Over s

theorem Over.released {s : State} (h : Over s) : Released s := by
  refine ⟨fun t ht => ?_, h.2⟩
  rw [Probe.State.holdsSession, h.1 t ht]

theorem Tree.dead_iff {t : Tree} : t.dead = true ↔ t.direct = false ∧ t.others = 0 := by
  simp [Tree.dead]

/-- Nothing happens to a dead tree. -/
theorem Tree.step_dead {t t' : Tree} {a : TreeAction} (h : t.dead = true) :
    t.step a ≠ some t' := by
  obtain ⟨hdirect, hothers⟩ := Tree.dead_iff.mp h
  cases a <;> simp [Tree.step, hdirect, hothers]

/-- What runs in a tree does not change its command. -/
theorem Tree.command_step {t t' : Tree} {a : TreeAction} (h : t.step a = some t') :
    t'.command = t.command := by
  cases a with
  | spawns =>
    obtain ⟨-, ⟨⟩⟩ := Option.ite_none_right_eq_some.mp h
    rfl
  | directExits =>
    obtain ⟨-, ⟨⟩⟩ := Option.ite_none_right_eq_some.mp h
    rfl
  | otherExits =>
    obtain ⟨-, ⟨⟩⟩ := Option.ite_none_right_eq_some.mp h
    rfl

/-- Nothing comes back to hold the probe while the workers and the processes that
are left go on by themselves. -/
def Background : Action → Prop
  | .target _ _ | .tree _ _ => True
  | _ => False

/-- Once everything is over, it stays so. -/
theorem Step.stays_over {s s' : State} {a : Action} (h : Step s a s') (hover : Over s)
    (ha : Background a) : Over s' := by
  cases h with
  | @target i a t t' ht hstep =>
    refine ⟨fun u hu => ?_, hover.2⟩
    obtain hu | rfl := List.mem_or_eq_of_mem_set hu
    · exact hover.1 u hu
    · exact hstep.exited (hover.1 t ht)
  | tree ht hstep => exact absurd hstep (Tree.step_dead (hover.2 _ ht))
  | _ => exact ha.elim

theorem Over.of_run {s s' : State} {more : List Action} (h : Over s)
    (hmore : ∀ a ∈ more, Background a) (hrun : Transition.run step s more = some s') :
    Over s' :=
  Transition.run_preserves_of_guarded
    (fun _ _ _ hover ha hstep => (Step.of_step hstep).stays_over hover ha) h
    (Transition.Guarded.of_forall hmore s) hrun

/-- **An attempt that ends quietly leaves nothing behind.** -/
theorem Quiet.over_of_end {s : State} (hquiet : Quiet s) (hkilled : Killed s) :
    Over ⟨false, s.targets.map Probe.State.abandon, s.trees.map Tree.dropTask⟩ := by
  refine ⟨fun t ht => ?_, fun t ht => ?_⟩
  · obtain ⟨u, hu, rfl⟩ := List.mem_map.mp ht
    exact hquiet.1 u hu
  · obtain ⟨u, hu, rfl⟩ := List.mem_map.mp ht
    refine Tree.dead_iff.mpr ⟨?_, hquiet.2 u hu⟩
    simp [Tree.dropTask, hkilled u hu]

theorem Step.killed {s s' : State} {a : Action} (h : Step s a s') (hk : Killed s) :
    Killed s' := by
  cases h with
  | startAttempt | openTarget | target => exact hk
  | endAttempt =>
    intro t ht
    obtain ⟨u, hu, rfl⟩ := List.mem_map.mp ht
    exact hk u hu
  | startDevice =>
    intro t ht
    obtain ht | ht := List.mem_append.mp ht
    · exact hk t ht
    · rw [List.mem_singleton.mp ht]
      rfl
  | @tree i a t t' ht hstep =>
    intro u hu
    obtain hu | rfl := List.mem_or_eq_of_mem_set hu
    · exact hk u hu
    · rw [Tree.command_step hstep]
      exact hk t ht

/-- **A step that ends no attempt early keeps the invariant.** -/
theorem Step.kept {s s' : State} {a : Action} (h : Step s a s') (hk : Kept s)
    (hquiet : EndsQuiet s a) : Kept s' := by
  refine ⟨h.killed hk.killed, fun hrunning => ?_⟩
  cases h with
  | startAttempt => simp at hrunning
  | endAttempt => exact (hquiet rfl).over_of_end hk.killed
  | openTarget hs | startDevice hs => exact absurd hrunning (by simp [hs])
  | target ht hstep => exact (Step.target ht hstep).stays_over (hk.ended hrunning) trivial
  | tree ht hstep => exact (Step.tree ht hstep).stays_over (hk.ended hrunning) trivial

theorem kept_initial : Kept .initial where
  killed _ ht := absurd ht List.not_mem_nil
  ended _ := ⟨fun _ ht => absurd ht List.not_mem_nil, fun _ ht => absurd ht List.not_mem_nil⟩

/-! ## When nothing is left -/

/-- **When nothing from an earlier attempt holds the probe.** In every run of
trials and attempts in which every attempt ends with its workers returned and
its device tests down to their direct child, every attempt starts with all
sessions released and all processes exited. -/
theorem starts_released (run : List Action)
    (h : Transition.Guarded step EndsQuiet .initial run) :
    Transition.Guarded step StartsReleased .initial run := by
  have hstart : ∀ s a s', Kept s → step s a = some s' → StartsReleased s a := by
    rintro s a s' hk hstep rfl
    cases Step.of_step hstep with
    | startAttempt hrunning => exact (hk.ended hrunning).released
  exact Transition.Guarded.of_invariant hstart
    (fun _ _ _ hk hquiet hstep => (Step.of_step hstep).kept hk hquiet) kept_initial h

/-- An attempt drops its target and awaits its device test, and is still there
when the worker and the last process of the test have returned. -/
def quietRun : List Action :=
  [.startAttempt, .openTarget, .target 0 (.sessionOpens (.ok ())), .target 0 .openReturns,
    .startDevice (.new "fw" "join") "tests::join_ok", .tree 0 .spawns, .tree 0 .otherExits,
    .tree 0 .directExits, .target 0 .dropTarget, .target 0 .disconnected, .endAttempt,
    .startAttempt]

/-- **The attempt after a quiet one finds the probe free.** -/
theorem quietRun_released :
    (Transition.run step .initial quietRun).isSome = true
      ∧ Transition.Guarded step StartsReleased .initial quietRun :=
  ⟨by decide +kernel, starts_released quietRun (by decide +kernel)⟩

/-- A worker that is still opening its session may yet hold one, whoever has
given up waiting for it. -/
theorem holdsSession_of_sessionOpens {t t' : Probe.State}
    (h : Probe.Step t (.sessionOpens (.ok ())) t') : t'.holdsSession = true := by
  cases h
  rfl

/-- **Nothing less will do.** After an attempt, however the workers and the
processes it leaves behind go on, the probe is free at every later moment – so
whenever the next attempt starts – exactly when the attempt ended quietly. -/
theorem released_iff_quiet {run : List Action} {s s' : State}
    (hs : Transition.run step .initial run = some s) (h : step s .endAttempt = some s') :
    (∀ more s'', (∀ a ∈ more, Background a) →
        Transition.run step s' more = some s'' → Released s'') ↔ Quiet s := by
  have hkilled : Killed s := Transition.run_preserves
    (fun _ _ _ hk hstep => (Step.of_step hstep).killed hk) kept_initial.killed hs
  cases Step.of_step h with
  | endAttempt =>
    refine ⟨fun hreleased => ?_, fun hquiet more s'' hmore hrun =>
      ((hquiet.over_of_end hkilled).of_run hmore hrun).released⟩
    have hnow := hreleased [] _ (fun _ ha => absurd ha List.not_mem_nil) rfl
    refine ⟨fun t ht => ?_, fun t ht => ?_⟩
    · have hfree : t.abandon.holdsSession = false := hnow.1 _ (List.mem_map_of_mem ht)
      cases hworker : t.worker with
      | exited => rfl
      | opening =>
        -- the session opens after the attempt has ended
        obtain ⟨i, hi, hget⟩ := List.mem_iff_getElem.mp ht
        obtain ⟨t', ht'⟩ : ∃ t', Probe.step t.abandon (.sessionOpens (.ok ())) = some t' :=
          ⟨_, if_pos hworker⟩
        have hlater := hreleased [.target i (.sessionOpens (.ok ()))] _
          (fun a ha => by rw [List.mem_singleton.mp ha]; trivial)
          (by simp [Transition.run, step, hi, hget, ht']; rfl)
        have hheld := hlater.1 t' (List.mem_of_getElem? (i := i) (by simp [hi]))
        rw [holdsSession_of_sessionOpens (Probe.Step.of_step ht')] at hheld
        simp at hheld
      | waiting => simp [Probe.State.holdsSession, Probe.State.abandon, hworker] at hfree
      | executing cmd => simp [Probe.State.holdsSession, Probe.State.abandon, hworker] at hfree
      | polling => simp [Probe.State.holdsSession, Probe.State.abandon, hworker] at hfree
    · exact (Tree.dead_iff.mp (hnow.2 _ (List.mem_map_of_mem ht))).2

/-! ## A flash nobody waits for -/

/-- An attempt fails while its flash is under way – a timeout around it, say –
and the next one starts. -/
def flashDropped : List Action :=
  [.startAttempt, .openTarget, .target 0 (.sessionOpens (.ok ())), .target 0 .openReturns,
    .target 0 (.call (.flash "fw.elf")), .target 0 .recv, .endAttempt, .startAttempt]

/-- **The worker of a dropped target holds the probe into the next attempt.** -/
theorem dropped_flash_holds_the_probe :
    ¬ ∀ run, Transition.Guarded step StartsReleased .initial run :=
  fun h => absurd (h flashDropped) (by decide +kernel)

end Teardown

end Banc
