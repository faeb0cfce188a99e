import Banc.Lib.Transition
import Banc.Device.DeviceTest
import Mathlib.Order.Nat

/-!
# The life of a device test

One `DeviceTest` and the child processes it spawns, over any sequence of calls.
`start` is synchronous; `verdict` and `failure_context` return at once, or
suspend awaiting the child (`State.pending`) and return when it has ended – or
their future is dropped, by a timeout or a `select!` around it. While a future
is pending it borrows the handle, so nothing else is called on it. (A future
dropped before it is first polled has done nothing.)

A started test is remembered by its state, which `verdict` moves into its
future while it awaits. Dropping that future forgets the child: the handle is
idle again, a verdict says that the test was never started, and a second
`start` spawns a second child (`dropped_verdict_forgets`). As long as no
pending future is dropped, one child is all there is, and every verdict is its
result; `faithful_iff` says that this is exactly when.
-/

namespace Banc

namespace Lifecycle

/-- A child process, and what the task that runs it has ended in. -/
structure Child where
  command : Command
  outcome : Option TaskOutcome
  deriving DecidableEq

/-- The two calls that suspend. -/
inductive Caller where
  | verdict
  | failureContext
  deriving DecidableEq

/-- A future awaiting a child, whose handle it holds. -/
structure Pending where
  caller : Caller
  child : ℕ
  deriving DecidableEq

/-- What a `start` that did not panic has done. -/
inductive Start where
  | missingDir
  | spawned (child : ℕ)
  deriving DecidableEq

/-- What a call has returned. -/
inductive Returned where
  | verdict (result : Except Failed Unit)
  | context (context : Option String)
  deriving DecidableEq

/-- A call that has returned, and whether that was after a `start`. -/
structure Report where
  started : Bool
  returned : Returned
  deriving DecidableEq

/-- A handle, its children in the order they were spawned, and its history. -/
structure State where
  test : DeviceTest ℕ
  children : List Child
  pending : Option Pending
  /-- The calls of `start` that did not panic. -/
  starts : List Start
  /-- The calls of `verdict` and `failure_context` that have returned, the
  last one first. -/
  reports : List Report
  deriving DecidableEq

/-- What may happen. -/
inductive Action where
  | start (isDir : Bool)
  | verdict
  | failureContext
  /-- The task of a child ends. -/
  | ends (child : ℕ) (outcome : TaskOutcome)
  /-- The pending future finds that its child has ended, and returns. -/
  | resume
  /-- The pending future is dropped. -/
  | drop
  deriving DecidableEq

namespace State

/-- A handle that has not been used. -/
def fresh (suite : DeviceSuite) (testPath : String) : State :=
  ⟨suite.test ℕ testPath, [], none, [], []⟩

/-- What a child has ended in, if it has. -/
def outcome (s : State) (child : ℕ) : Option TaskOutcome :=
  s.children[child]?.bind Child.outcome

/-- A call returns. -/
def report (s : State) (r : Returned) : State :=
  { s with reports := ⟨!s.starts.isEmpty, r⟩ :: s.reports }

/-- A child ends. -/
def setOutcome (s : State) (child : ℕ) (o : TaskOutcome) : State :=
  { s with children := s.children.modify child (fun c => { c with outcome := some o }) }

/-- What a caller of `verdict` returns with its result. -/
def returns (caller : Caller) (result : Except Failed Unit) : Returned :=
  match caller with
  | .verdict => .verdict result
  | .failureContext => .context (DeviceTest.contextOf result)

/-- `verdict` is first polled, on behalf of a caller. -/
def pollVerdict (s : State) (caller : Caller) : State :=
  match s.test.verdict with
  | (test, .returned result) => { s with test }.report (returns caller result)
  | (test, .awaiting child) => { s with test, pending := some ⟨caller, child⟩ }

end State

/-- The step function. -/
def step (s : State) : Action → Option State
  | .start isDir =>
    if s.pending.isSome then none
    else match s.test.start isDir s.children.length with
      | .error _ => some s
      | .ok (test, none) => some { s with test, starts := s.starts ++ [.missingDir] }
      | .ok (test, some command) =>
        some { s with
          test
          children := s.children ++ [⟨command, none⟩]
          starts := s.starts ++ [.spawned s.children.length] }
  | .verdict =>
    if s.pending.isSome then none else some (s.pollVerdict .verdict)
  | .failureContext =>
    if s.pending.isSome then none
    else if s.test.finished (fun child => (s.outcome child).isSome) then
      some (s.pollVerdict .failureContext)
    else some (s.report (.context none))
  | .ends child o =>
    if child < s.children.length ∧ s.outcome child = none then
      some (s.setOutcome child o)
    else none
  | .resume =>
    match s.pending with
    | none => none
    | some p =>
      (s.outcome p.child).map (fun o =>
        let r := s.test.resume o
        { s with test := r.1, pending := none }.report (State.returns p.caller r.2))
  | .drop => if s.pending.isSome then some { s with pending := none } else none

/-- The step function read as a relation: one constructor for each thing that can
happen, with what its guards have established. -/
inductive Step (s : State) : Action → State → Prop where
  /-- `start` panics. -/
  | refused {isDir : Bool} (hpending : s.pending = none) (hstate : s.test.state ≠ .idle) :
    Step s (.start isDir) s
  | missing (hpending : s.pending = none) (hstate : s.test.state = .idle) :
    Step s (.start false)
      { s with
        test := { s.test with state := .done (.error s.test.missingDir) }
        starts := s.starts ++ [.missingDir] }
  | spawned (hpending : s.pending = none) (hstate : s.test.state = .idle) :
    Step s (.start true)
      { s with
        test := { s.test with state := .running s.children.length }
        children := s.children ++ [⟨s.test.command, none⟩]
        starts := s.starts ++ [.spawned s.children.length] }
  | verdict (hpending : s.pending = none) : Step s .verdict (s.pollVerdict .verdict)
  | context (hpending : s.pending = none)
      (hfinished : s.test.finished (fun child => (s.outcome child).isSome) = true) :
    Step s .failureContext (s.pollVerdict .failureContext)
  | unfinished (hpending : s.pending = none) :
    Step s .failureContext (s.report (.context none))
  | ends {child : ℕ} {o : TaskOutcome} (hchild : child < s.children.length)
      (houtcome : s.outcome child = none) :
    Step s (.ends child o) (s.setOutcome child o)
  | resume {p : Pending} {o : TaskOutcome} (hpending : s.pending = some p)
      (houtcome : s.outcome p.child = some o) :
    Step s .resume
      ({ s with test := (s.test.resume o).1, pending := none }.report
        (State.returns p.caller (s.test.resume o).2))
  | drop {p : Pending} (hpending : s.pending = some p) :
    Step s .drop { s with pending := none }

/-- **Every step is one of these.** -/
theorem Step.of_step {s s' : State} {a : Action} (h : step s a = some s') :
    Step s a s' := by
  cases hpending : s.pending with
  | none =>
    cases a with
    | start isDir =>
      rw [step, if_neg (by simp [hpending])] at h
      by_cases hstate : s.test.state = .idle
      · rw [DeviceTest.start, hstate] at h
        cases isDir with
        | false => exact Option.some.inj h ▸ .missing hpending hstate
        | true => exact Option.some.inj h ▸ .spawned hpending hstate
      · rw [DeviceTest.start_of_ne_idle hstate] at h
        exact Option.some.inj h ▸ .refused hpending hstate
    | verdict =>
      rw [step, hpending] at h
      exact Option.some.inj h ▸ .verdict hpending
    | failureContext =>
      simp only [step, hpending] at h
      split at h
      · simp at h
      · split at h
        · rename_i hfinished
          exact Option.some.inj h ▸ .context hpending hfinished
        · exact Option.some.inj h ▸ .unfinished hpending
    | ends child o =>
      obtain ⟨⟨hchild, houtcome⟩, ⟨⟩⟩ := Option.ite_none_right_eq_some.mp h
      exact .ends hchild houtcome
    | resume => simp [step, hpending] at h
    | drop => simp [step, hpending] at h
  | some p =>
    cases a with
    | ends child o =>
      obtain ⟨⟨hchild, houtcome⟩, ⟨⟩⟩ := Option.ite_none_right_eq_some.mp h
      exact .ends hchild houtcome
    | resume =>
      rw [step, hpending] at h
      obtain ⟨o, ho, rfl⟩ := Option.map_eq_some_iff.mp h
      exact .resume hpending ho
    | drop =>
      rw [step, hpending] at h
      exact Option.some.inj h ▸ .drop hpending
    | start isDir => simp [step, hpending] at h
    | verdict => simp [step, hpending] at h
    | failureContext => simp [step, hpending] at h

/-- The result a `start` leads to: the error that the directory is missing, or
the result of the child, once that has ended. -/
def State.result (s : State) : Start → Option (Except String Unit)
  | .missingDir => some (.error s.test.missingDir)
  | .spawned child => (s.outcome child).map s.test.taskResult

/-- **A started test is not forgotten**: at most one `start` has not panicked
and at most one child has been spawned, and every verdict that has returned
since is the result of that start. -/
structure Faithful (s : State) : Prop where
  starts : s.starts.length ≤ 1
  children : s.children.length ≤ 1
  verdicts : ∀ rep ∈ s.reports, rep.started = true → ∀ r, rep.returned = .verdict r →
    ∃ x ∈ s.starts, ∃ result, s.result x = some result
      ∧ r = result.mapError Failed.fromMsg

/-! ## As long as no future is dropped -/

/-- Where a handle is whose futures all return. -/
inductive Remembers (s : State) : Prop where
  | idle (starts : s.starts = []) (children : s.children = [])
      (state : s.test.state = .idle) (pending : s.pending = none)
  | missing (starts : s.starts = [.missingDir]) (children : s.children = [])
      (state : s.test.state = .done (.error s.test.missingDir))
      (pending : s.pending = none)
  | running (c : Child) (starts : s.starts = [.spawned 0]) (children : s.children = [c])
      (state : s.test.state = .running 0) (pending : s.pending = none)
  | awaited (c : Child) (caller : Caller) (starts : s.starts = [.spawned 0])
      (children : s.children = [c]) (state : s.test.state = .idle)
      (pending : s.pending = some ⟨caller, 0⟩)
  | done (c : Child) (o : TaskOutcome) (starts : s.starts = [.spawned 0])
      (children : s.children = [c]) (outcome : c.outcome = some o)
      (state : s.test.state = .done (s.test.taskResult o)) (pending : s.pending = none)

/-- **The invariant.** -/
structure Kept (s : State) : Prop where
  remembers : Remembers s
  verdicts : ∀ rep ∈ s.reports, rep.started = true → ∀ r, rep.returned = .verdict r →
    ∃ x ∈ s.starts, ∃ result, s.result x = some result
      ∧ r = result.mapError Failed.fromMsg

theorem Remembers.length_starts_le {s : State} (h : Remembers s) :
    s.starts.length ≤ 1 := by
  cases h with
  | idle starts _ _ _ => rw [starts]; exact Nat.zero_le _
  | missing starts _ _ _ => rw [starts]; exact le_rfl
  | running _ starts _ _ _ => rw [starts]; exact le_rfl
  | awaited _ _ starts _ _ _ => rw [starts]; exact le_rfl
  | done _ _ starts _ _ _ _ => rw [starts]; exact le_rfl

theorem Remembers.length_children_le {s : State} (h : Remembers s) :
    s.children.length ≤ 1 := by
  cases h with
  | idle _ children _ _ => rw [children]; exact Nat.zero_le _
  | missing _ children _ _ => rw [children]; exact Nat.zero_le _
  | running _ _ children _ _ => rw [children]; exact le_rfl
  | awaited _ _ _ children _ _ => rw [children]; exact le_rfl
  | done _ _ _ children _ _ _ => rw [children]; exact le_rfl

/-- The result of the only child, once it has ended. -/
theorem State.result_onlyChild {s : State} {c : Child} {o : TaskOutcome}
    (children : s.children = [c]) (outcome : c.outcome = some o) :
    s.result (.spawned 0) = some (s.test.taskResult o) := by
  have houtcome : s.outcome 0 = some o := by
    rw [State.outcome, children]
    exact outcome
  rw [State.result, houtcome]
  rfl

theorem Kept.faithful {s : State} (h : Kept s) : Faithful s :=
  ⟨h.remembers.length_starts_le, h.remembers.length_children_le, h.verdicts⟩

theorem kept_fresh (suite : DeviceSuite) (testPath : String) :
    Kept (State.fresh suite testPath) where
  remembers := .idle rfl rfl rfl rfl
  verdicts _ hrep := absurd hrep List.not_mem_nil

namespace Kept

variable {s : State}

/-- A call returns: if it is a verdict after a start, it is that start's
result. -/
theorem report (hk : Kept s) {r : Returned}
    (hr : s.starts ≠ [] → ∀ v, r = .verdict v → ∃ x ∈ s.starts, ∃ result,
      s.result x = some result ∧ v = result.mapError Failed.fromMsg) :
    Kept (s.report r) where
  remembers := by
    cases hk.remembers with
    | idle starts children state pending => exact .idle starts children state pending
    | missing starts children state pending =>
      exact .missing starts children state pending
    | running c starts children state pending =>
      exact .running c starts children state pending
    | awaited c caller starts children state pending =>
      exact .awaited c caller starts children state pending
    | done c o starts children outcome state pending =>
      exact .done c o starts children outcome state pending
  verdicts rep hrep hstarted v hv := by
    obtain rfl | hrep := List.mem_cons.mp hrep
    · refine hr (fun hnil => ?_) v hv
      rw [hnil] at hstarted
      simp at hstarted
    · exact hk.verdicts rep hrep hstarted v hv

/-- A handle whose state is written back as it was. -/
theorem pollVerdict (hk : Kept s) (hpending : s.pending = none) (caller : Caller) :
    Kept (s.pollVerdict caller) := by
  have hsame {state : DeviceState ℕ} (h : s.test.state = state) :
      { s with test := { s.test with state } } = s := by
    subst h
    rfl
  cases hk.remembers with
  | idle starts children state pending =>
    rw [State.pollVerdict, DeviceTest.verdict, state]
    dsimp only
    rw [hsame state]
    exact hk.report (fun hne => absurd starts hne)
  | missing starts children state pending =>
    rw [State.pollVerdict, DeviceTest.verdict, state]
    dsimp only
    rw [hsame state]
    refine hk.report (fun _ v hv => ⟨.missingDir, by simp [starts], _, rfl, ?_⟩)
    cases caller with
    | verdict => exact (Returned.verdict.inj hv).symm
    | failureContext => simp [State.returns] at hv
  | running c starts children state pending =>
    rw [State.pollVerdict, DeviceTest.verdict, state]
    exact ⟨.awaited c caller starts children rfl rfl, hk.verdicts⟩
  | awaited c caller' starts children state pending =>
    rw [hpending] at pending
    simp at pending
  | done c o starts children outcome state pending =>
    have hresult := State.result_onlyChild children outcome
    rw [State.pollVerdict, DeviceTest.verdict, state]
    dsimp only
    rw [hsame state]
    refine hk.report (fun _ v hv => ⟨.spawned 0, by simp [starts], _, hresult, ?_⟩)
    cases caller with
    | verdict => exact (Returned.verdict.inj hv).symm
    | failureContext => simp [State.returns] at hv

/-- Before the first start, no report claims to come after one. -/
theorem not_started (hk : Kept s) (hstarts : s.starts = []) {rep : Report}
    (hrep : rep ∈ s.reports) (hstarted : rep.started = true) {v : Except Failed Unit} :
    rep.returned ≠ .verdict v := by
  intro hv
  obtain ⟨x, hx, -⟩ := hk.verdicts rep hrep hstarted v hv
  rw [hstarts] at hx
  exact absurd hx List.not_mem_nil

/-- An idle handle that no future borrows has not been started. -/
theorem unused_of_idle (hk : Kept s) (hpending : s.pending = none)
    (hstate : s.test.state = .idle) : s.starts = [] ∧ s.children = [] := by
  cases hk.remembers with
  | idle starts children state pending => exact ⟨starts, children⟩
  | awaited c caller starts children state pending => simp [hpending] at pending
  | missing starts children state pending => simp [hstate] at state
  | running c starts children state pending => simp [hstate] at state
  | done c o starts children outcome state pending => simp [hstate] at state

/-- A child ends. -/
theorem ends (hk : Kept s) {child : ℕ} {o : TaskOutcome}
    (hlt : child < s.children.length) (hnone : s.outcome child = none) :
    Kept (s.setOutcome child o) := by
  have hzero {c : Child} (children : s.children = [c]) : child = 0 := by
    rw [children, List.length_singleton] at hlt
    omega
  have hset {c : Child} (children : s.children = [c]) :
      (s.setOutcome child o).children = [{ c with outcome := some o }] := by
    rw [State.setOutcome, children, hzero children]
    rfl
  refine ⟨?_, fun rep hrep hstarted v hv => ?_⟩
  · cases hk.remembers with
    | idle starts children state pending => simp [children] at hlt
    | missing starts children state pending => simp [children] at hlt
    | running c starts children state pending =>
      exact .running _ starts (hset children) state pending
    | awaited c caller starts children state pending =>
      exact .awaited _ caller starts (hset children) state pending
    | done c o' starts children outcome state pending =>
      rw [hzero children, State.outcome, children] at hnone
      simp [outcome] at hnone
  · -- The result of a start that has one does not change.
    obtain ⟨x, hx, result, hresult, rfl⟩ := hk.verdicts rep hrep hstarted v hv
    refine ⟨x, hx, result, ?_, rfl⟩
    cases x with
    | missingDir => exact hresult
    | spawned i =>
      obtain ⟨o', ho', hresult⟩ := Option.map_eq_some_iff.mp hresult
      have hne : child ≠ i := by
        rintro rfl
        simp [ho'] at hnone
      refine Option.map_eq_some_iff.mpr ⟨o', ?_, hresult⟩
      show (s.children.modify child _)[i]?.bind Child.outcome = some o'
      rw [List.getElem?_modify_ne _ _ hne]
      exact ho'

/-- A pending future returns. -/
theorem resume (hk : Kept s) {p : Pending} {o : TaskOutcome} (hpending : s.pending = some p)
    (ho : s.outcome p.child = some o) :
    Kept ({ s with test := (s.test.resume o).1, pending := none }.report
      (State.returns p.caller (s.test.resume o).2)) := by
  cases hk.remembers with
  | awaited c caller starts children state pending =>
    obtain rfl := Option.some.inj (pending.symm.trans hpending)
    have hc : c.outcome = some o := by
      rw [State.outcome, children] at ho
      exact ho
    have hdone : Kept { s with test := (s.test.resume o).1, pending := none } :=
      ⟨.done c o starts children hc rfl rfl, hk.verdicts⟩
    refine hdone.report (fun _ v hv => ?_)
    refine ⟨.spawned 0, by simp [starts], s.test.taskResult o, ?_, ?_⟩
    · exact Option.map_eq_some_iff.mpr ⟨o, ho, rfl⟩
    · cases caller with
      | verdict => exact (Returned.verdict.inj hv).symm
      | failureContext => simp [State.returns] at hv
  | idle starts children state pending => simp [hpending] at pending
  | missing starts children state pending => simp [hpending] at pending
  | running c starts children state pending => simp [hpending] at pending
  | done c o starts children outcome state pending => simp [hpending] at pending

/-- **A step that drops no future keeps the invariant.** -/
theorem of_step {s' : State} {a : Action} (hk : Kept s) (ha : a ≠ .drop)
    (h : step s a = some s') : Kept s' := by
  cases Step.of_step h with
  | refused hpending hstate => exact hk
  | missing hpending hstate =>
    obtain ⟨starts, children⟩ := hk.unused_of_idle hpending hstate
    refine ⟨.missing ?_ children rfl hpending,
      fun rep hrep hstarted v hv => absurd hv (hk.not_started starts hrep hstarted)⟩
    simp [starts]
  | spawned hpending hstate =>
    obtain ⟨starts, children⟩ := hk.unused_of_idle hpending hstate
    refine ⟨.running ⟨s.test.command, none⟩ ?_ ?_ ?_ hpending,
      fun rep hrep hstarted v hv => absurd hv (hk.not_started starts hrep hstarted)⟩
    · simp [starts, children]
    · simp [children]
    · simp [children]
  | verdict hpending => exact hk.pollVerdict hpending _
  | context hpending hfinished => exact hk.pollVerdict hpending _
  | unfinished hpending => exact hk.report (fun _ v hv => by simp at hv)
  | ends hchild houtcome => exact hk.ends hchild houtcome
  | resume hpending houtcome => exact hk.resume hpending houtcome
  | drop hpending => exact absurd rfl ha

end Kept

/-! ## Once a future has been dropped -/

/-- The handle has been started, and does not know. -/
structure Forgotten (s : State) : Prop where
  starts : s.starts.length = 1
  state : s.test.state = .idle
  pending : s.pending = none

/-- Dropping a pending future forgets the child it awaited. -/
theorem Kept.drop {s s' : State} (hk : Kept s) (h : step s .drop = some s') :
    Forgotten s' := by
  cases Step.of_step h with
  | drop hpending =>
    cases hk.remembers with
    | awaited c caller starts children state pending =>
      exact ⟨by rw [starts]; rfl, state, rfl⟩
    | idle _ _ _ pending => simp [hpending] at pending
    | missing _ _ _ pending => simp [hpending] at pending
    | running _ _ _ _ pending => simp [hpending] at pending
    | done _ _ _ _ _ _ pending => simp [hpending] at pending

/-- Nothing but a second start makes a forgetful handle remember. -/
theorem Forgotten.of_step {s s' : State} {a : Action} (hf : Forgotten s)
    (h : step s a = some s') (hs' : s'.starts.length ≤ 1) : Forgotten s' := by
  obtain ⟨hstarts, hstate, hnone⟩ := hf
  have hpoll (caller : Caller) : Forgotten (s.pollVerdict caller) := by
    rw [State.pollVerdict, DeviceTest.verdict, hstate]
    exact ⟨hstarts, rfl, hnone⟩
  cases Step.of_step h with
  | refused hpending hne => exact absurd hstate hne
  | missing | spawned =>
    rw [List.length_append, hstarts] at hs'
    simp at hs'
  | verdict => exact hpoll _
  | context => exact hpoll _
  | unfinished => exact ⟨hstarts, hstate, hnone⟩
  | ends => exact ⟨hstarts, hstate, hnone⟩
  | resume hpending => simp [hnone] at hpending
  | drop hpending => simp [hnone] at hpending

/-- **A forgetful handle can be started again.** -/
theorem Forgotten.start_again {s : State} (hf : Forgotten s) :
    ∃ s', step s (.start true) = some s' ∧ s'.starts.length = 2 := by
  rw [step, hf.pending, DeviceTest.start, hf.state]
  refine ⟨_, rfl, ?_⟩
  rw [List.length_append, hf.starts]
  rfl

/-- A forgetful handle that stays faithful stays forgetful. -/
theorem Forgotten.run {s s' : State} {run : List Action} (hf : Forgotten s)
    (hrun : Transition.run step s run = some s')
    (hfaithful : Transition.Always step Faithful s run) : Forgotten s' := by
  induction run generalizing s with
  | nil => exact Option.some.inj hrun ▸ hf
  | cons a as ih =>
    obtain ⟨t, ht, hrest⟩ := Transition.run_cons_eq_some.mp hrun
    have ht' := hfaithful.2 t ht
    exact ih (hf.of_step ht ht'.head.starts) hrest ht'

/-- **A run in which no future is dropped** keeps the invariant. -/
theorem Kept.run {s s' : State} {run : List Action} (hk : Kept s)
    (hrun : Transition.run step s run = some s') (hdrop : Action.drop ∉ run) :
    Kept s' := by
  have hreturns : ∀ a ∈ run, a ≠ .drop := fun a ha h => hdrop (h ▸ ha)
  exact Transition.run_preserves_of_guarded
    (fun _ _ _ hk ha h => hk.of_step ha h) hk
    (Transition.Guarded.of_forall hreturns s) hrun

/-- **When a started test is not forgotten.** A run of a handle – any calls,
each future returning or dropped, the children ending whenever they do – can be
continued by calls that all return, without a second child or a wrong verdict
before or after, if and only if no future that awaited a child has been dropped
in it. -/
theorem faithful_iff (suite : DeviceSuite) (testPath : String) {run : List Action}
    {s : State} (hrun : Transition.run step (.fresh suite testPath) run = some s) :
    (∀ more, Action.drop ∉ more →
        Transition.Always step Faithful (.fresh suite testPath) (run ++ more))
      ↔ Action.drop ∉ run := by
  have hfresh := kept_fresh suite testPath
  constructor
  · intro h hdrop
    -- Look at the first future that is dropped.
    obtain ⟨pre, post, rfl, hpre⟩ := List.eq_append_cons_of_mem hdrop
    obtain ⟨t, ht, hrest⟩ := Transition.run_append_eq_some.mp hrun
    obtain ⟨u, hu, hpost⟩ := Transition.run_cons_eq_some.mp hrest
    have hfaithful := h [] List.not_mem_nil
    rw [List.append_nil] at hfaithful
    have hforgotten : Forgotten s :=
      ((hfresh.run ht hpre).drop hu).run hpost ((hfaithful.of_append ht).2 u hu)
    obtain ⟨s', hs', htwo⟩ := hforgotten.start_again
    have hagain := (h [.start true] (by simp)).of_append hrun
    have hle := (hagain.2 s' hs').head.starts
    omega
  · intro hdrop more hmore
    refine Transition.Always.of_guarded (fun _ hk => hk.faithful)
      (fun _ _ _ hk ha h => hk.of_step ha h) hfresh
      (Transition.Guarded.of_forall (fun a ha h => ?_) _)
    subst h
    exact (List.mem_append.mp ha).elim hdrop hmore

/-- A verdict is awaited to its end, and consulted again. -/
def awaitedRun : List Action :=
  [.start true, .verdict, .ends 0 (.exited (.exited 0)), .resume, .verdict]

/-- **A verdict that is awaited is remembered.** -/
theorem awaited_verdict_faithful :
    (Transition.run step (.fresh (.new "fw" "join") "tests::join_ok")
        awaitedRun).isSome = true
      ∧ ∀ more, Action.drop ∉ more → Transition.Always step Faithful
          (.fresh (.new "fw" "join") "tests::join_ok") (awaitedRun ++ more) := by
  have hsome : (Transition.run step (.fresh (.new "fw" "join") "tests::join_ok")
      awaitedRun).isSome = true := by decide
  obtain ⟨s, hs⟩ := Option.isSome_iff_exists.mp hsome
  exact ⟨hsome, (faithful_iff (.new "fw" "join") "tests::join_ok" hs).mpr (by decide)⟩

/-- A verdict is awaited under a timeout, which drops it; the test is started
again. -/
def droppedRun : List Action := [.start true, .verdict, .drop, .verdict, .start true]

/-- **A dropped verdict forgets the child.** The next verdict says that the test
was never started, and the next `start` spawns a second child. -/
theorem dropped_verdict_forgets :
    ¬ ∀ (suite : DeviceSuite) (testPath : String) (run : List Action),
        Transition.Always step Faithful (.fresh suite testPath) run := by
  intro h
  have hend : (Transition.run step (.fresh (.new "fw" "join") "tests::join_ok")
      droppedRun).map (fun s => s.children.length) = some 2 := by
    decide
  obtain ⟨s, hs, htwo⟩ := Option.map_eq_some_iff.mp hend
  have hle := ((h (.new "fw" "join") "tests::join_ok" droppedRun).last hs).children
  omega

end Lifecycle

end Banc
