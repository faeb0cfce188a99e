import Banc.Probe.Rtt
import Mathlib.Logic.Function.Basic

/-!
# The local probe transport

`LocalTarget` of `banc-probe/src/local.rs` and the worker thread behind it,
together with `CaptureHealth` and `RttCapture` of `banc-probe/src/lib.rs`, as
one system: the owner's calls on one side, the worker's loop on the other, and
the command channel between them.

The owner's calls are asynchronous. `flash`, `reset` and `start_rtt` take
`&mut self`, so at most one is under way; it sends its command, and returns
when the worker has replied. Its future may also be dropped at any point
(`Action.cancel`), which leaves the command in the channel, with nobody
waiting for the reply. Every call gets a number, and a capture is known by the
number of the `start_rtt` call it comes from.

An iteration of the worker is two or three steps, because other things happen
in between: it takes a command (or times out, with a capture active; or learns
that the target is gone), executes it, and then polls. `flash` discards the
RTT state when the command is *taken*, and a successful attach *replaces* it.
-/

namespace Banc

namespace Probe

/-- `CaptureHealth`: the first fault that ended a capture. -/
structure CaptureHealth where
  slot : Option String
  deriving DecidableEq

namespace CaptureHealth

/-- A capture starts healthy. -/
def healthy : CaptureHealth := ⟨none⟩

/-- Record the fault that ended the capture; the first one wins. -/
def fault (h : CaptureHealth) (msg : String) : CaptureHealth :=
  if h.slot.isNone then ⟨some msg⟩ else h

/-- `error`, of the health and of the `RttCapture` that shares it. -/
def error (h : CaptureHealth) : Option String := h.slot

/-- Once at fault, a capture stays at fault. -/
theorem error_fault_ne_none (h : CaptureHealth) (msg : String) :
    (h.fault msg).error ≠ none := by
  rw [fault, error]
  split
  · simp
  · rename_i hslot
    simpa using hslot

end CaptureHealth

/-- A command to the worker; the number is that of the call it comes from. -/
inductive Cmd where
  | flash (call : ℕ) (path : String)
  | reset (call : ℕ)
  | startRtt (call : ℕ)
  deriving DecidableEq

/-- The call a command comes from. -/
def Cmd.call : Cmd → ℕ
  | .flash call _ => call
  | .reset call => call
  | .startRtt call => call

/-- Where the sending half of a capture's stop channel is. -/
inductive Stop where
  /-- In the future of `start_rtt`. -/
  | future
  /-- In the `RttCapture`, which is alive. -/
  | handle
  /-- Dropped, or used to stop the capture. -/
  | gone
  deriving DecidableEq

/-- One capture, as far as it is shared between the worker and its owner. -/
structure Capture where
  stop : Stop
  health : CaptureHealth
  /-- What the sink has been handed. -/
  lines : List String
  deriving DecidableEq

/-- `RttState`: the capture the worker polls, and the bytes of the line under
way. Its sink, its stop receiver and its health are the capture's. -/
structure RttState where
  capture : ℕ
  pending : List UInt8
  deriving DecidableEq

/-- Where the worker thread is. -/
inductive Worker where
  /-- In `open_session`. -/
  | opening
  /-- At the top of its loop, waiting for a command. -/
  | waiting
  /-- Executing a command. -/
  | executing (cmd : Cmd)
  /-- Past the command, about to poll. -/
  | polling
  /-- Returned. -/
  | exited
  deriving DecidableEq

/-- Who has the `LocalTarget`, and with it the sending half of the command
channel. -/
inductive Owner where
  /-- The future of `open`, which may have its reply. -/
  | opening (ready : Option (Except String Unit))
  | target
  /-- Nobody: the target, or the future of `open`, has been dropped. -/
  | gone
  deriving DecidableEq

/-- A call under way. -/
structure Call where
  cmd : Cmd
  reply : Option (Except String Unit)
  deriving DecidableEq

/-- The target and its worker thread. -/
structure State where
  owner : Owner
  worker : Worker
  /-- The command channel, the oldest command first. -/
  queue : List Cmd
  /-- What the worker is capturing from, if it is. -/
  rtt : Option RttState
  /-- The call that waits for the worker. -/
  call : Option Call
  /-- The captures there have been, by the calls that started them. -/
  captures : ℕ → Capture
  /-- The number of the next call. -/
  next : ℕ

/-- What the probe answers while a command is executed. -/
structure Hardware where
  download : Except String Unit
  core : Except String Unit
  reset : Except String Unit
  attach : Except String Unit

/-- `reset_core`. -/
def resetCore (h : Hardware) : Except String Unit := do
  h.core.mapError ("core(0): " ++ ·)
  h.reset.mapError ("reset: " ++ ·)

/-- `attach_rtt`. -/
def attachRtt (h : Hardware) : Except String Unit := do
  h.core.mapError ("core(0): " ++ ·)
  h.attach.mapError ("attaching RTT: " ++ ·)

/-- The body of `Cmd::Flash`. -/
def flash (path : String) (h : Hardware) : Except String Unit := do
  h.download.mapError (("flashing " ++ path ++ ": ") ++ ·)
  resetCore h

/-- What the owner asks for. -/
inductive Request where
  | flash (path : String)
  | reset
  | startRtt
  deriving DecidableEq

/-- The command of a request. -/
def Request.cmd (call : ℕ) : Request → Cmd
  | .flash path => .flash call path
  | .reset => .reset call
  | .startRtt => .startRtt call

/-- What may happen. -/
inductive Action where
  /-- `open_session` returns. -/
  | sessionOpens (result : Except String Unit)
  /-- `LocalTarget::open` returns. -/
  | openReturns
  /-- The future of `LocalTarget::open` is dropped. -/
  | cancelOpen
  /-- A call of `flash`, `reset` or `start_rtt` begins. -/
  | call (req : Request)
  /-- The call under way returns. -/
  | callReturns
  /-- The future of the call under way is dropped. -/
  | cancel
  /-- An `RttCapture` is dropped. -/
  | dropCapture (capture : ℕ)
  /-- The `LocalTarget` is dropped. -/
  | dropTarget
  /-- The worker takes a command. -/
  | recv
  /-- The worker, with a capture active, finds no command. -/
  | timeout
  /-- The worker finds the channel closed. -/
  | disconnected
  /-- The worker is done with its command. -/
  | execute (h : Hardware)
  /-- The worker polls. -/
  | poll (ch : Channel)

namespace State

/-- A worker thread has been spawned, and `open` awaits its reply. -/
def opening : State where
  owner := .opening none
  worker := .opening
  queue := []
  rtt := none
  call := none
  captures := fun _ => ⟨.gone, .healthy, []⟩
  next := 0

/-- The capture the worker is polling. -/
def polled (s : State) : Option ℕ := s.rtt.map RttState.capture

/-- Change one capture. -/
def setCapture (s : State) (i : ℕ) (c : Capture) : State :=
  { s with captures := Function.update s.captures i c }

/-- The worker replies to the call a command came from, if it still waits. -/
def reply (s : State) (call : ℕ) (result : Except String Unit) : State :=
  { s with call := s.call.map (fun c =>
      if c.cmd.call = call then { c with reply := some result } else c) }

/-- The commands the worker has not executed yet. -/
def undone (s : State) : List Cmd :=
  match s.worker with
  | .executing cmd => cmd :: s.queue
  | _ => s.queue

/-- `start_rtt` creates the stop channel and the health of its capture. -/
def created (s : State) : Request → ℕ → Capture
  | .startRtt => Function.update s.captures s.next ⟨.future, .healthy, []⟩
  | _ => s.captures

/-- A call begins: the command is sent, unless the worker is gone. -/
def begin (s : State) (req : Request) : State :=
  if s.worker = .exited then s
  else
    let cmd := req.cmd s.next
    { s with
      queue := s.queue ++ [cmd]
      call := some ⟨cmd, none⟩
      captures := s.created req
      next := s.next + 1 }

/-- The sending half that the future of a `start_rtt` holds goes to `stop`. -/
def released (s : State) (stop : Stop) : Cmd → ℕ → Capture
  | .startRtt i => Function.update s.captures i { s.captures i with stop }
  | _ => s.captures

/-- The future of a call ends. -/
def finish (s : State) (cmd : Cmd) (stop : Stop) : State :=
  { s with call := none, captures := s.released stop cmd }

/-- The worker executes a command. -/
def execute (s : State) (cmd : Cmd) (h : Hardware) : State :=
  match cmd with
  | .flash i path => { s with worker := .polling }.reply i (flash path h)
  | .reset i => { s with worker := .polling }.reply i (resetCore h)
  | .startRtt i =>
    match attachRtt h with
    | .ok () =>
      { s with worker := .polling, rtt := some ⟨i, []⟩ }.reply i (.ok ())
    | .error e => { s with worker := .polling }.reply i (.error e)

/-- The end of an iteration: stop polling a capture whose handle is gone,
otherwise poll it, and record the fault that ends it. -/
def poll (s : State) (ch : Channel) : State :=
  match s.rtt with
  | none => { s with worker := .waiting }
  | some st =>
    let c := s.captures st.capture
    if c.stop = .gone then { s with worker := .waiting, rtt := none }
    else match pollRtt st.pending ch with
      | .ok (pending, lines) =>
        { s with worker := .waiting, rtt := some { st with pending } }.setCapture
          st.capture { c with lines := c.lines ++ lines }
      | .error e =>
        { s with worker := .waiting, rtt := none }.setCapture
          st.capture { c with health := c.health.fault ("rtt read error: " ++ e) }

end State

/-- The step function. -/
def step (s : State) : Action → Option State
  | .sessionOpens result =>
    if s.worker = .opening then
      some { s with
        owner := match s.owner with
          | .opening none => .opening (some result)
          | owner => owner
        worker := match result with
          | .ok () => .waiting
          | .error _ => .exited }
    else none
  | .openReturns =>
    match s.owner with
    | .opening (some (.ok ())) => some { s with owner := .target }
    | .opening (some (.error _)) => some { s with owner := .gone }
    | _ => none
  | .cancelOpen =>
    match s.owner with
    | .opening _ => some { s with owner := .gone }
    | _ => none
  | .call req =>
    if s.owner = .target ∧ s.call = none then some (s.begin req) else none
  | .callReturns =>
    match s.call with
    | some ⟨cmd, some (.ok ())⟩ => some (s.finish cmd .handle)
    | some ⟨cmd, some (.error _)⟩ => some (s.finish cmd .gone)
    | _ => none
  | .cancel =>
    match s.call with
    | some c => some (s.finish c.cmd .gone)
    | none => none
  | .dropCapture i =>
    if (s.captures i).stop = .handle then
      some (s.setCapture i { s.captures i with stop := .gone })
    else none
  | .dropTarget =>
    if s.owner = .target ∧ s.call = none then some { s with owner := .gone }
    else none
  | .recv =>
    match s.worker, s.queue with
    | .waiting, cmd :: queue =>
      some { s with
        worker := .executing cmd
        queue
        -- Flashing invalidates any RTT attachment.
        rtt := match cmd with
          | .flash _ _ => none
          | _ => s.rtt }
    | _, _ => none
  | .timeout =>
    if s.worker = .waiting ∧ s.rtt.isSome ∧ s.queue = [] ∧ s.owner ≠ .gone then
      some { s with worker := .polling }
    else none
  | .disconnected =>
    if s.worker = .waiting ∧ s.queue = [] ∧ s.owner = .gone then
      some { s with worker := .exited, rtt := none }
    else none
  | .execute h =>
    match s.worker with
    | .executing cmd => some (s.execute cmd h)
    | _ => none
  | .poll ch => if s.worker = .polling then some (s.poll ch) else none

/-! ## What a step can do -/

/-- The step function read as a relation: one constructor for each thing that can
happen, with what its guards have established. -/
inductive Step (s : State) : Action → State → Prop where
  | sessionOpens {result : Except String Unit} (hworker : s.worker = .opening) :
    Step s (.sessionOpens result)
      { s with
        owner := match s.owner with
          | .opening none => .opening (some result)
          | owner => owner
        worker := match result with
          | .ok () => .waiting
          | .error _ => .exited }
  | opened (howner : s.owner = .opening (some (.ok ()))) :
    Step s .openReturns { s with owner := .target }
  | openFailed {e : String} (howner : s.owner = .opening (some (.error e))) :
    Step s .openReturns { s with owner := .gone }
  | cancelOpen {ready : Option (Except String Unit)} (howner : s.owner = .opening ready) :
    Step s .cancelOpen { s with owner := .gone }
  | call {req : Request} (howner : s.owner = .target) (hcall : s.call = none) :
    Step s (.call req) (s.begin req)
  | returned {cmd : Cmd} (hcall : s.call = some ⟨cmd, some (.ok ())⟩) :
    Step s .callReturns (s.finish cmd .handle)
  | failed {cmd : Cmd} {e : String} (hcall : s.call = some ⟨cmd, some (.error e)⟩) :
    Step s .callReturns (s.finish cmd .gone)
  | cancel {c : Call} (hcall : s.call = some c) :
    Step s .cancel (s.finish c.cmd .gone)
  | dropCapture {i : ℕ} (hhandle : (s.captures i).stop = .handle) :
    Step s (.dropCapture i) (s.setCapture i { s.captures i with stop := .gone })
  | dropTarget (howner : s.owner = .target) (hcall : s.call = none) :
    Step s .dropTarget { s with owner := .gone }
  | recvFlash {call : ℕ} {path : String} {queue : List Cmd}
      (hworker : s.worker = .waiting) (hqueue : s.queue = .flash call path :: queue) :
    Step s .recv { s with worker := .executing (.flash call path), queue, rtt := none }
  | recv {cmd : Cmd} {queue : List Cmd} (hworker : s.worker = .waiting)
      (hqueue : s.queue = cmd :: queue) (hcmd : ∀ call path, cmd ≠ .flash call path) :
    Step s .recv { s with worker := .executing cmd, queue }
  | timeout (hworker : s.worker = .waiting) (hrtt : s.rtt.isSome = true)
      (hqueue : s.queue = []) (howner : s.owner ≠ .gone) :
    Step s .timeout { s with worker := .polling }
  | disconnected (hworker : s.worker = .waiting) (hqueue : s.queue = [])
      (howner : s.owner = .gone) :
    Step s .disconnected { s with worker := .exited, rtt := none }
  | execute {cmd : Cmd} {h : Hardware} (hworker : s.worker = .executing cmd) :
    Step s (.execute h) (s.execute cmd h)
  | poll {ch : Channel} (hworker : s.worker = .polling) : Step s (.poll ch) (s.poll ch)

/-- **Every step is one of these.** -/
theorem Step.of_step {s s' : State} {a : Action} (h : step s a = some s') :
    Step s a s' := by
  cases a with
  | sessionOpens result =>
    obtain ⟨hworker, ⟨⟩⟩ := Option.ite_none_right_eq_some.mp h
    exact .sessionOpens hworker
  | openReturns =>
    simp only [step] at h
    split at h
    · rename_i howner
      exact Option.some.inj h ▸ .opened howner
    · rename_i howner
      exact Option.some.inj h ▸ .openFailed howner
    · simp at h
  | cancelOpen =>
    simp only [step] at h
    split at h
    · rename_i howner
      exact Option.some.inj h ▸ .cancelOpen howner
    · simp at h
  | call req =>
    obtain ⟨hready, ⟨⟩⟩ := Option.ite_none_right_eq_some.mp h
    exact .call hready.1 hready.2
  | callReturns =>
    simp only [step] at h
    split at h
    · rename_i hcall
      exact Option.some.inj h ▸ .returned hcall
    · rename_i hcall
      exact Option.some.inj h ▸ .failed hcall
    · simp at h
  | cancel =>
    simp only [step] at h
    split at h
    · rename_i hcall
      exact Option.some.inj h ▸ .cancel hcall
    · simp at h
  | dropCapture i =>
    obtain ⟨hhandle, ⟨⟩⟩ := Option.ite_none_right_eq_some.mp h
    exact .dropCapture hhandle
  | dropTarget =>
    obtain ⟨hready, ⟨⟩⟩ := Option.ite_none_right_eq_some.mp h
    exact .dropTarget hready.1 hready.2
  | recv =>
    simp only [step] at h
    split at h
    · rename_i cmd queue hworker hqueue
      obtain rfl := Option.some.inj h
      cases cmd with
      | flash call path => exact .recvFlash hworker hqueue
      | reset call => exact .recv hworker hqueue (fun _ _ => by simp)
      | startRtt call => exact .recv hworker hqueue (fun _ _ => by simp)
    · simp at h
  | timeout =>
    obtain ⟨⟨hworker, hrtt, hqueue, howner⟩, ⟨⟩⟩ := Option.ite_none_right_eq_some.mp h
    exact .timeout hworker hrtt hqueue howner
  | disconnected =>
    obtain ⟨⟨hworker, hqueue, howner⟩, ⟨⟩⟩ := Option.ite_none_right_eq_some.mp h
    exact .disconnected hworker hqueue howner
  | execute hw =>
    simp only [step] at h
    split at h
    · rename_i hworker
      exact Option.some.inj h ▸ .execute hworker
    · simp at h
  | poll ch =>
    obtain ⟨hworker, ⟨⟩⟩ := Option.ite_none_right_eq_some.mp h
    exact .poll hworker

/-! ## What the operations leave alone -/

/-- A command is of its call. -/
@[simp] theorem Request.call_cmd (call : ℕ) (req : Request) :
    (req.cmd call).call = call := by
  cases req <;> rfl

namespace State

variable (s : State)

/-- One capture changes. -/
@[simp] theorem captures_setCapture_self (i : ℕ) (c : Capture) :
    (s.setCapture i c).captures i = c := Function.update_self _ _ _

/-- The others stay. -/
theorem captures_setCapture_of_ne {i j : ℕ} (c : Capture) (h : j ≠ i) :
    (s.setCapture i c).captures j = s.captures j := Function.update_of_ne h _ _

/-- What a capture that is set has in common with the one before it, every capture
keeps. -/
theorem apply_setCapture {α : Type*} (f : Capture → α) {i : ℕ} {c : Capture}
    (h : f c = f (s.captures i)) (j : ℕ) :
    f ((s.setCapture i c).captures j) = f (s.captures j) := by
  by_cases hj : j = i
  · rw [hj, s.captures_setCapture_self i c]
    exact h
  · rw [s.captures_setCapture_of_ne c hj]

@[simp] theorem undone_reply (call : ℕ) (result : Except String Unit) :
    (s.reply call result).undone = s.undone := rfl

@[simp] theorem undone_finish (cmd : Cmd) (stop : Stop) :
    (s.finish cmd stop).undone = s.undone := rfl

variable {s}

/-- What is being executed is undone, and first. -/
theorem undone_of_executing {cmd : Cmd} (h : s.worker = .executing cmd) :
    s.undone = cmd :: s.queue := by
  rw [undone, h]

/-- Otherwise it is what is queued. -/
theorem undone_of_not_executing (h : ∀ cmd, s.worker ≠ .executing cmd) :
    s.undone = s.queue := by
  rw [undone]
  split
  · rename_i cmd hcmd
    exact absurd hcmd (h cmd)
  · rfl

/-- A call that begins adds its command at the end. -/
theorem undone_begin (h : s.worker ≠ .exited) (req : Request) :
    (s.begin req).undone = s.undone ++ [req.cmd s.next] := by
  rw [begin, if_neg h]
  simp only [undone]
  cases s.worker <;> rfl

/-- And does not change what is polled. -/
theorem polled_begin (req : Request) : (s.begin req).polled = s.polled := by
  rw [begin]
  split <;> rfl

/-- The next call has the next number. -/
theorem next_begin (h : s.worker ≠ .exited) (req : Request) :
    (s.begin req).next = s.next + 1 := by
  rw [begin, if_neg h]

/-- It waits for its own command. -/
theorem call_begin (h : s.worker ≠ .exited) (req : Request) :
    (s.begin req).call = some ⟨req.cmd s.next, none⟩ := by
  rw [begin, if_neg h]

/-- Who owns the target stays the same. -/
theorem owner_begin (req : Request) : (s.begin req).owner = s.owner := by
  rw [begin]
  split <;> rfl

/-- A capture other than the new one is as it was. -/
theorem captures_begin_of_ne {i : ℕ} (hi : i ≠ s.next) (req : Request) :
    (s.begin req).captures i = s.captures i := by
  rw [begin]
  split
  · rfl
  · cases req with
    | startRtt => exact Function.update_of_ne hi _ _
    | flash path => rfl
    | reset => rfl

/-- Calls other than `start_rtt` create no capture. -/
theorem captures_begin_of_ne_startRtt {req : Request} (h : req ≠ .startRtt) :
    (s.begin req).captures = s.captures := by
  rw [begin]
  split
  · rfl
  · cases req with
    | startRtt => exact absurd rfl h
    | flash path => rfl
    | reset => rfl

/-- A capture that is asked for is one that is still to come, and healthy. -/
theorem captures_begin_startRtt (h : s.worker ≠ .exited) :
    (s.begin .startRtt).captures s.next = ⟨.future, .healthy, []⟩ := by
  rw [begin, if_neg h]
  exact Function.update_self _ _ _

/-- A capture other than the call's own is as it was. -/
theorem captures_finish_of_ne {cmd : Cmd} {i : ℕ} (h : cmd ≠ .startRtt i) (stop : Stop) :
    (s.finish cmd stop).captures i = s.captures i := by
  cases cmd with
  | startRtt j => exact Function.update_of_ne (fun hij => h (by rw [hij])) _ _
  | flash call path => rfl
  | reset call => rfl

/-- When it is returned only its stop is new. -/
theorem captures_finish_startRtt (i : ℕ) (stop : Stop) :
    (s.finish (.startRtt i) stop).captures i = { s.captures i with stop } :=
  Function.update_self _ _ _

/-- And no capture's health changes by it. -/
theorem health_finish (cmd : Cmd) (stop : Stop) (i : ℕ) :
    ((s.finish cmd stop).captures i).health = (s.captures i).health := by
  by_cases h : cmd = .startRtt i
  · rw [h, captures_finish_startRtt]
  · rw [captures_finish_of_ne h]

/-- What executing a command does, apart from the call that waits for it: an
attach that succeeds replaces the capture being polled. -/
theorem execute_cases (cmd : Cmd) (h : Hardware) :
    (∃ result, s.execute cmd h = { s with worker := .polling }.reply cmd.call result
        ∧ ∀ i, cmd = .startRtt i → result ≠ .ok ())
      ∨ ∃ i, cmd = .startRtt i ∧ attachRtt h = .ok ()
        ∧ s.execute cmd h
            = { s with worker := .polling, rtt := some ⟨i, []⟩ }.reply i (.ok ()) := by
  cases cmd with
  | flash i path => exact .inl ⟨flash path h, rfl, fun _ hcmd => by simp at hcmd⟩
  | reset i => exact .inl ⟨resetCore h, rfl, fun _ hcmd => by simp at hcmd⟩
  | startRtt i =>
    cases hattach : attachRtt h with
    | ok u => exact .inr ⟨i, rfl, rfl, by rw [execute, hattach]⟩
    | error e =>
      exact .inl ⟨.error e, by rw [execute, hattach]; rfl, fun _ _ => by simp⟩

end State

end Probe

end Banc
