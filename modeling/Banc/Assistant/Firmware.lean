import Mathlib.Algebra.Ring.Nat
import Mathlib.Data.List.FinRange
import Mathlib.Logic.Function.Basic
import Mathlib.Tactic.Common

/-!
# The assistant's firmware

What `banc-assistant/src/main.rs` does with its pins, and the requests of
`banc-icd` that are about them. One task, the dispatcher, takes the requests from the
host one after the other; it answers those of the GPIO endpoints itself, and for each
`PinMonitor` it starts a `pin_monitor_handler` from a pool. The tasks are on one
thread: they give way to each other, to the host and to the pins where they `await`,
and nowhere else. So a step of a task (`Turn`) is what it does from one `await` to
the next.

It awaits the lock on the pins, the stop signal and the edge, and the replies and
events it sends. A message goes on the wire at some moment of its sending, and the
task hears of it, or of a failure, at another; which of the tasks that are sending
comes first is open. A request's place among all those the host has sent stands for
its sequence number.

Of a `Signal` the model has whether it is set: it latches one value. `select` looks
at its first future first.
-/

namespace Banc

namespace Assistant

/-! ## The interface

The types of the requests, the replies and the events, as `banc-icd` has them. A pin is a
byte there, and becomes an entry of the table by `pinIndex`. -/

/-- banc pins 0..=7, which are GPIO 2..=9 of the chip: 0 and 1 are kept free for a UART. -/
def numPins : ℕ := 8

instance : NeZero numPins := ⟨by decide⟩

/-- An entry of the GPIO table, and of the table of the stop signals. -/
abbrev Pin := Fin numPins

/-- The entry that a request's pin is; `none` is out of range. No handler asks for anything else
about the number it is given. -/
def pinIndex (bancPin : UInt8) : Option Pin :=
  if h : bancPin.toNat < numPins then some ⟨bancPin.toNat, h⟩ else none

/-- What a pin is set to, or reads. The prefix is that of the import, for the driver has types
of these names too. -/
inductive IcdLevel where
  | low
  | high
  deriving DecidableEq

/-- The pull a request asks for. -/
inductive IcdPull where
  | none
  | up
  | down
  deriving DecidableEq

/-- What a pin is configured to be: only an input has a pull. -/
inductive PinMode where
  | input (pull : IcdPull)
  | output
  deriving DecidableEq

/-- `Error`: how a node refuses. -/
inductive IcdError where
  /-- Pin/bus index not wired up on this assistant. -/
  | unsupported
  /-- Pin/bus is claimed by another function: here, a monitor has the pin. -/
  | busy
  /-- The peripheral reported a fault. No handler of a pin says so. -/
  | hardware
  /-- Request out of range. Nor this: a pin out of range is `unsupported`. -/
  | invalid
  deriving DecidableEq

/-- The request that makes a pin an input or an output. -/
structure GpioConfig where
  pin : UInt8
  mode : PinMode
  deriving DecidableEq

/-- The request to drive a pin. It does not make it an output. -/
structure GpioSet where
  pin : UInt8
  level : IcdLevel
  deriving DecidableEq

/-- The request to read a pin. -/
structure GpioRead where
  pin : UInt8
  deriving DecidableEq

/-- The request to watch the edges of a pin, or to stop it. -/
structure PinMonitor where
  pin : UInt8
  /-- `true`: publish a best-effort `PinEdgeTopic` per observed edge; `false`: stop. -/
  enable : Bool
  deriving DecidableEq

/-- One observed edge. It is best-effort: the level and the time are those at which the
monitor's task got to look, and edges that come faster than it runs are one event, or
none. -/
structure PinEvent where
  pin : UInt8
  level : IcdLevel
  /-- The assistant's own clock, since it booted. -/
  timestampUs : UInt64
  deriving DecidableEq

/-- What a request is answered that asks for nothing. -/
abbrev AckResult := Except IcdError Unit

/-- What a `GpioRead` is answered. -/
abbrev LevelResult := Except IcdError IcdLevel

/-- What the GPIO endpoints are asked. -/
inductive Gpio where
  | config (rqst : GpioConfig)
  | set (rqst : GpioSet)
  | read (rqst : GpioRead)
  deriving DecidableEq

/-- The pin they have in common. -/
def Gpio.pin : Gpio → UInt8
  | .config rqst => rqst.pin
  | .set rqst => rqst.pin
  | .read rqst => rqst.pin

/-- The requests that have to do with pins. Those of the buses and of the capture are
answered `Unsupported`, and touch nothing. -/
inductive Request where
  | gpio (rqst : Gpio)
  | pinMonitor (rqst : PinMonitor)
  deriving DecidableEq

/-- It asks to monitor the pin. -/
def Request.Enables (p : Pin) : Request → Bool
  | .pinMonitor rqst => rqst.enable && pinIndex rqst.pin == some p
  | .gpio _ => false

/-- What a request is answered, whichever it was. -/
inductive Response where
  | ack (result : AckResult)
  | level (result : LevelResult)
  /-- There is no `pin_monitor_handler` left. -/
  | failedToSpawn
  deriving DecidableEq

/-- The error that the host gets to see. That nobody could be spawned is one of the transport,
not of a node. -/
def Response.error : Response → Option IcdError
  | .ack (.error e) => some e
  | .level (.error e) => some e
  | _ => none

/-- What the assistant sends. -/
inductive Message where
  | reply (seqNo : ℕ) (response : Response)
  /-- A `PinEdgeTopic`. `monitor` is not in the message, it is the sequence number of
  the request its monitor was started by. -/
  | pinEdge (monitor : ℕ) (seq : UInt16) (event : PinEvent)
  deriving DecidableEq

/-- The message is the reply to a request. -/
def Message.Answers (seqNo : ℕ) : Message → Bool
  | .reply n _ => n == seqNo
  | .pinEdge _ _ _ => false

/-- The message is an event of a monitor. -/
def Message.Of (monitor : ℕ) : Message → Bool
  | .reply _ _ => false
  | .pinEdge n _ _ => n == monitor

/-! ## GPIO

The drivers, the table of them, and the three handlers. A handler awaits the lock, and then
does what it does without giving way to anybody. -/

/-- The pull of the driver. -/
inductive Pull where
  | none
  | up
  | down
  deriving DecidableEq

/-- A pin's driver. -/
structure Flex where
  pull : Pull
  output : Bool
  /-- What it puts out, when it does. -/
  high : Bool
  deriving DecidableEq

namespace Flex

/-- High-Z, as the table is filled at the start. -/
def new : Flex := ⟨.none, false, false⟩

/-- The resistors of the pad. The direction stays. -/
def setPull (pin : Flex) (pull : Pull) : Flex := { pin with pull := pull }

/-- The pad is read; the level it was set to is kept. -/
def setAsInput (pin : Flex) : Flex := { pin with output := false }

/-- The pad is driven, with the level that was set last. -/
def setAsOutput (pin : Flex) : Flex := { pin with output := true }

/-- Also of an input: it shows once the pin is an output. -/
def setLow (pin : Flex) : Flex := { pin with high := false }

/-- Likewise. -/
def setHigh (pin : Flex) : Flex := { pin with high := true }

end Flex

/-- The GPIO table. `none` means that a monitor task owns the pin. -/
abbrev PinSlots := Pin → Option Flex

/-- From the interface's pull to the driver's. -/
def icdPull : IcdPull → Pull
  | .none => .none
  | .up => .up
  | .down => .down

/-- What `is_high` says, for the interface. -/
def icdLevel (high : Bool) : IcdLevel := if high then .high else .low

/-- A GPIO handler, once it has the lock: `Busy` for a pin that is owned by a monitor, and
`f` on the driver of one that is not. No other pin is touched. -/
def withPin {ρ : Type} (slots : PinSlots) (idx : Pin) (f : Flex → Flex × ρ) :
    Except IcdError ρ × PinSlots :=
  match slots idx with
  | none => (.error .busy, slots)
  | some pin => (.ok (f pin).2, Function.update slots idx (some (f pin).1))

/-- An output has no pull; an input has the one asked for, set before the direction. -/
def gpioConfigHandler (rqst : GpioConfig) (slots : PinSlots) (idx : Pin) :
    AckResult × PinSlots :=
  withPin slots idx (fun pin =>
    match rqst.mode with
    | .input pull => ((pin.setPull (icdPull pull)).setAsInput, ())
    | .output => ((pin.setPull .none).setAsOutput, ()))

/-- The level, of a pin of whatever direction. -/
def gpioSetHandler (rqst : GpioSet) (slots : PinSlots) (idx : Pin) : AckResult × PinSlots :=
  withPin slots idx (fun pin =>
    match rqst.level with
    | .low => (pin.setLow, ())
    | .high => (pin.setHigh, ()))

/-- `isHigh` is what the pin's pad reads. -/
def gpioReadHandler (isHigh : Bool) (slots : PinSlots) (idx : Pin) : LevelResult × PinSlots :=
  withPin slots idx (fun pin => (pin, icdLevel isHigh))

/-- The handler of the request, from the lock on. -/
def Gpio.handle (rqst : Gpio) (pad : Pin → Bool) (slots : PinSlots) (idx : Pin) :
    Response × PinSlots :=
  match rqst with
  | .config rqst => (gpioConfigHandler rqst slots idx).map .ack id
  | .set rqst => (gpioSetHandler rqst slots idx).map .ack id
  | .read _ => (gpioReadHandler (pad idx) slots idx).map .level id

/-- The handler returns an error. -/
def Gpio.refuse (rqst : Gpio) (e : IcdError) : Response :=
  match rqst with
  | .config _ => .ack (.error e)
  | .set _ => .ack (.error e)
  | .read _ => .level (.error e)

/-! ## The tasks

A `pin_monitor_handler` is at each moment in one of its phases, which is what the code has
at its `await`s in local variables. -/

/-- Where a `pin_monitor_handler` awaits. `written` says that what it is sending is on
the wire. -/
inductive Phase where
  /-- It has not been polled yet. -/
  | spawned
  /-- The lock, to take the pin. -/
  | locking (idx : Pin)
  /-- The reply it ends with. -/
  | replying (result : AckResult) (written : Bool)
  /-- The reply that it monitors the pin. -/
  | confirming (idx : Pin) (pin : Flex) (written : Bool)
  /-- `select`: the stop, or an edge. `edge` says that there was one. -/
  | selecting (idx : Pin) (pin : Flex) (seq : UInt16) (edge : Bool)
  /-- `publish`. -/
  | publishing (idx : Pin) (pin : Flex) (seq : UInt16) (event : PinEvent) (written : Bool)
  /-- The lock, to put the pin back. -/
  | restoring (idx : Pin) (pin : Flex)
  deriving DecidableEq

/-- The pin it owns. -/
def Phase.holds : Phase → Option Pin
  | .confirming idx _ _ | .selecting idx _ _ _ | .publishing idx _ _ _ _ | .restoring idx _ =>
    some idx
  | .spawned | .locking _ | .replying _ _ => none

/-- A `pin_monitor_handler` that runs. -/
structure Task where
  /-- The sequence number of its request, which its reply carries. -/
  seqNo : ℕ
  rqst : PinMonitor
  phase : Phase
  deriving DecidableEq

/-- There is an edge on a pin. -/
def Task.edge (p : Pin) (t : Task) : Task :=
  match t.phase with
  | .selecting idx pin seq edge => { t with phase := .selecting idx pin seq (edge || idx == p) }
  | _ => t

/-- What it has still to put on the wire, and that it has. -/
def Task.outgoing (t : Task) : Option (Message × Phase) :=
  match t.phase with
  | .replying result false => some (.reply t.seqNo (.ack result), .replying result true)
  | .confirming idx pin false => some (.reply t.seqNo (.ack (.ok ())), .confirming idx pin true)
  | .publishing idx pin seq event false =>
    some (.pinEdge t.seqNo seq event, .publishing idx pin seq event true)
  | _ => none

/-- What the dispatcher awaits. -/
inductive Dispatch where
  /-- A request. -/
  | receiving
  /-- The lock, for a GPIO handler. -/
  | locking (seqNo : ℕ) (rqst : Gpio) (idx : Pin)
  /-- The reply. -/
  | replying (seqNo : ℕ) (response : Response) (written : Bool)
  deriving DecidableEq

/-- A monitor for each pin, and headroom for the short-lived ones: those that are told to stop,
and those out of range, run on the same endpoint. -/
def poolSize : ℕ := numPins + 2

instance : NeZero poolSize := ⟨by decide⟩

/-- A place in the pool. -/
abbrev TaskId := Fin poolSize

/-- The assistant, with what has passed between it and the host. -/
structure State where
  slots : PinSlots
  /-- `MONITOR_STOP`: the signals that are set. -/
  stop : Pin → Bool
  /-- What the pads read. -/
  pad : Pin → Bool
  /-- Its clock, in microseconds. -/
  now : UInt64
  dispatch : Dispatch
  /-- The pool of the `pin_monitor_handler`s: `none` may be spawned. -/
  tasks : TaskId → Option Task
  /-- What the host has sent. -/
  requests : List Request
  /-- How much of it the dispatcher has taken. -/
  taken : ℕ
  /-- What the assistant has sent. -/
  wire : List Message
  /-- How much of it the host has received. -/
  received : ℕ

/-- The assistant starts. -/
def start (pad : Pin → Bool) (now : UInt64) : State where
  slots _ := some .new
  stop _ := false
  pad := pad
  now := now
  dispatch := .receiving
  tasks _ := none
  requests := []
  taken := 0
  wire := []
  received := 0

/-- The pin a task owns. -/
def State.holds (s : State) (i : TaskId) : Option Pin :=
  (s.tasks i).bind (fun t => t.phase.holds)

/-- What a task is woken by. -/
inductive Turn where
  /-- What it awaited, other than a sending, may be there. -/
  | poll
  /-- What it is sending goes on the wire. -/
  | put
  /-- The sending is over. -/
  | done (ok : Bool)
  deriving DecidableEq

/-- What may happen. -/
inductive Action where
  /-- The host sends a request. -/
  | send (rqst : Request)
  /-- It receives a message. -/
  | receive
  /-- There is an edge on a pin. -/
  | edge (p : Pin) (high : Bool)
  /-- Time passes. -/
  | tick (us : UInt64)
  | dispatch (turn : Turn)
  | task (i : TaskId) (turn : Turn)
  deriving DecidableEq

/-- What a `pin_monitor_handler` does to the pins and the signals, where it awaits
next, and what has gone on the wire. -/
structure Effect where
  slots : PinSlots
  stop : Pin → Bool
  /-- `none`: it has returned. -/
  phase : Option Phase
  message : Option Message

/-- It goes on. -/
def State.next (s : State) (phase : Phase) : Effect := ⟨s.slots, s.stop, some phase, none⟩

/-- The loop of a monitor, from the `select`. -/
def State.select (s : State) (rqst : PinMonitor) (idx : Pin) (pin : Flex) (seq : UInt16)
    (edge : Bool) : Effect :=
  -- `select` polls the stop first: with both there, the edge is not published
  if s.stop idx then
    { s.next (.restoring idx pin) with stop := Function.update s.stop idx false }
  else if edge then
    s.next (.publishing idx pin seq ⟨rqst.pin, icdLevel (s.pad idx), s.now⟩ false)
  else s.next (.selecting idx pin seq false)

/-- A `pin_monitor_handler` is polled, where it awaits something other than a sending.

A monitor takes its pin before it resets the signal, and nobody else runs between the
two: so what is signalled later is for it, and what was before is not. -/
def State.poll (s : State) (t : Task) : Option Effect :=
  match t.phase with
  | .spawned =>
    match pinIndex t.rqst.pin with
    | none => some (s.next (.replying (.error .unsupported) false))
    | some idx =>
      if t.rqst.enable then some (s.next (.locking idx))
      -- also when nobody monitors the pin
      else some { s.next (.replying (.ok ()) false) with stop := Function.update s.stop idx true }
  | .locking idx =>
    match s.slots idx with
    | none => some (s.next (.replying (.error .busy) false))
    | some pin =>
      some { s.next (.confirming idx pin false) with
        slots := Function.update s.slots idx none
        stop := Function.update s.stop idx false }
  | .selecting idx pin seq edge => some (s.select t.rqst idx pin seq edge)
  | .restoring idx pin =>
    -- the driver is the one that was taken: its configuration survives the monitor
    some ⟨Function.update s.slots idx (some pin), s.stop, none, none⟩
  -- what these await is a sending
  | .replying _ _ | .confirming _ _ _ | .publishing _ _ _ _ _ => none

/-- The `reply` or `publish` it awaits returns. It may fail with the message on the wire,
and does not return `Ok` before it is there. Only the reply that confirms the monitor is
looked at; what became of the others is not. -/
def State.done (s : State) (t : Task) (ok : Bool) : Option Effect :=
  match t.phase with
  | .replying _ written => if ok && !written then none else some ⟨s.slots, s.stop, none, none⟩
  | .confirming idx pin written =>
    if ok && !written then none
    else if ok then some (s.select t.rqst idx pin 0 false)
    -- nobody was told of the monitor, so there is none
    else some (s.next (.restoring idx pin))
  | .publishing idx pin seq _ written =>
    -- the event counts, sent or not; the sequence number wraps
    if ok && !written then none else some (s.select t.rqst idx pin (seq + 1) false)
  | .spawned | .locking _ | .selecting _ _ _ _ | .restoring _ _ => none

/-- A `pin_monitor_handler` has its turn. -/
def State.turn (s : State) (t : Task) : Turn → Option Effect
  | .poll => s.poll t
  | .put => t.outgoing.map (fun out => { s.next out.2 with message := some out.1 })
  | .done ok => s.done t ok

/-- The state after it. -/
def State.apply (s : State) (i : TaskId) (t : Task) (e : Effect) : State :=
  { s with
    slots := e.slots
    stop := e.stop
    tasks := Function.update s.tasks i (e.phase.map (fun phase => { t with phase := phase }))
    wire := s.wire ++ e.message.toList }

/-- A `pin_monitor_handler` that is not running. -/
def State.free (s : State) : Option TaskId :=
  (List.finRange poolSize).find? (fun i => (s.tasks i).isNone)

/-- The dispatcher takes a request: it spawns a `pin_monitor_handler`, or tells the host
that it could not, or it goes into the handler itself, up to the lock. -/
def State.take (s : State) (rqst : Request) : State :=
  let s' := { s with taken := s.taken + 1 }
  match rqst with
  | .pinMonitor rqst =>
    match s.free with
    | none => { s' with dispatch := .replying s.taken .failedToSpawn false }
    -- the reply is up to the task: the dispatcher goes on with the next request
    | some i => { s' with tasks := Function.update s.tasks i (some ⟨s.taken, rqst, .spawned⟩) }
  | .gpio rqst =>
    match pinIndex rqst.pin with
    | none => { s' with dispatch := .replying s.taken (rqst.refuse .unsupported) false }
    | some idx => { s' with dispatch := .locking s.taken rqst idx }

/-- The dispatcher has its turn. -/
def State.dispatchTurn (s : State) : Turn → Option State
  | .poll =>
    match s.dispatch with
    | .receiving => s.requests[s.taken]?.map s.take
    | .locking seqNo rqst idx =>
      let answer := rqst.handle s.pad s.slots idx
      some { s with slots := answer.2, dispatch := .replying seqNo answer.1 false }
    | .replying _ _ _ => none
  | .put =>
    match s.dispatch with
    | .replying seqNo response false =>
      some { s with
        dispatch := .replying seqNo response true
        wire := s.wire ++ [.reply seqNo response] }
    | _ => none
  | .done ok =>
    match s.dispatch with
    | .replying _ _ written =>
      if ok && !written then none else some { s with dispatch := .receiving }
    | _ => none

/-- The step function. -/
def step (s : State) : Action → Option State
  | .send rqst => some { s with requests := s.requests ++ [rqst] }
  | .receive =>
    if s.received < s.wire.length then some { s with received := s.received + 1 } else none
  | .edge p high =>
    some { s with
      pad := Function.update s.pad p high
      tasks := fun i => (s.tasks i).map (Task.edge p) }
  | .tick us => some { s with now := s.now + us }
  | .dispatch turn => s.dispatchTurn turn
  | .task i turn =>
    (s.tasks i).bind (fun t => (s.turn t turn).map (s.apply i t))

/-! ## What a turn does

The same once more, as a list of the ways there are: what is proved of the steps is proved
by cases of these, and the functions above are not unfolded again. -/

/-- A turn that comes to the `select` of the monitor's loop. -/
inductive Task.Selects (t : Task) : Turn → Pin → Flex → UInt16 → Bool → Prop where
  /-- For the first time: there cannot have been an edge. -/
  | confirmed {idx : Pin} {pin : Flex} (hphase : t.phase = .confirming idx pin true) :
    t.Selects (.done true) idx pin 0 false
  /-- Because of an edge, or the stop, or neither. -/
  | woken {idx : Pin} {pin : Flex} {seq : UInt16} {edge : Bool}
    (hphase : t.phase = .selecting idx pin seq edge) : t.Selects .poll idx pin seq edge
  /-- From `publish`. What edges there were meanwhile is lost. -/
  | published {idx : Pin} {pin : Flex} {seq : UInt16} {event : PinEvent} {written ok : Bool}
    (hphase : t.phase = .publishing idx pin seq event written) :
    t.Selects (.done ok) idx pin (seq + 1) false

/-- **The ways of a `pin_monitor_handler` from one `await` to the next.** -/
inductive Path (s : State) (t : Task) : Turn → Effect → Prop where
  /-- The pin is out of range. -/
  | unsupported (hphase : t.phase = .spawned) (hpin : pinIndex t.rqst.pin = none) :
    Path s t .poll (s.next (.replying (.error .unsupported) false))
  /-- The monitor is told to stop. -/
  | signal {idx : Pin} (hphase : t.phase = .spawned) (hpin : pinIndex t.rqst.pin = some idx)
    (henable : t.rqst.enable = false) :
    Path s t .poll
      { s.next (.replying (.ok ()) false) with stop := Function.update s.stop idx true }
  /-- The monitor is to start. -/
  | lock {idx : Pin} (hphase : t.phase = .spawned) (hpin : pinIndex t.rqst.pin = some idx)
    (henable : t.rqst.enable = true) : Path s t .poll (s.next (.locking idx))
  /-- There is a monitor. -/
  | busy {idx : Pin} (hphase : t.phase = .locking idx) (hslot : s.slots idx = none) :
    Path s t .poll (s.next (.replying (.error .busy) false))
  /-- The pin is taken, and the signal reset. -/
  | take {idx : Pin} {pin : Flex} (hphase : t.phase = .locking idx)
    (hslot : s.slots idx = some pin) :
    Path s t .poll
      { s.next (.confirming idx pin false) with
        slots := Function.update s.slots idx none
        stop := Function.update s.stop idx false }
  /-- What it sends goes on the wire. -/
  | put {message : Message} {phase : Phase} (hout : t.outgoing = some (message, phase)) :
    Path s t .put { s.next phase with message := some message }
  /-- It has replied, and returns. -/
  | finish {result : AckResult} {written ok : Bool}
    (hphase : t.phase = .replying result written) :
    Path s t (.done ok) ⟨s.slots, s.stop, none, none⟩
  /-- The reply that it monitors the pin has failed. -/
  | unconfirmed {idx : Pin} {pin : Flex} {written : Bool}
    (hphase : t.phase = .confirming idx pin written) :
    Path s t (.done false) (s.next (.restoring idx pin))
  /-- The `select` has the stop. -/
  | stopped {turn : Turn} {idx : Pin} {pin : Flex} {seq : UInt16} {edge : Bool}
    (hselect : t.Selects turn idx pin seq edge) (hstop : s.stop idx = true) :
    Path s t turn { s.next (.restoring idx pin) with stop := Function.update s.stop idx false }
  /-- The `select` has an edge. -/
  | edge {turn : Turn} {idx : Pin} {pin : Flex} {seq : UInt16}
    (hselect : t.Selects turn idx pin seq true) (hstop : s.stop idx = false) :
    Path s t turn
      (s.next (.publishing idx pin seq ⟨t.rqst.pin, icdLevel (s.pad idx), s.now⟩ false))
  /-- The `select` has neither. -/
  | wait {turn : Turn} {idx : Pin} {pin : Flex} {seq : UInt16}
    (hselect : t.Selects turn idx pin seq false) (hstop : s.stop idx = false) :
    Path s t turn (s.next (.selecting idx pin seq false))
  /-- The pin is put back. -/
  | restore {idx : Pin} {pin : Flex} (hphase : t.phase = .restoring idx pin) :
    Path s t .poll ⟨Function.update s.slots idx (some pin), s.stop, none, none⟩

/-- The ways of the dispatcher. -/
inductive Dispatches (s : State) : Turn → State → Prop where
  /-- It spawns a `pin_monitor_handler`, and is free for the next request. -/
  | spawn {rqst : PinMonitor} {i : TaskId} (hphase : s.dispatch = .receiving)
    (hrqst : s.requests[s.taken]? = some (.pinMonitor rqst)) (hfree : s.tasks i = none) :
    Dispatches s .poll
      { s with
        taken := s.taken + 1
        tasks := Function.update s.tasks i (some ⟨s.taken, rqst, .spawned⟩) }
  /-- There is none left to spawn. -/
  | full {rqst : PinMonitor} (hphase : s.dispatch = .receiving)
    (hrqst : s.requests[s.taken]? = some (.pinMonitor rqst)) :
    Dispatches s .poll
      { s with
        taken := s.taken + 1
        dispatch := .replying s.taken .failedToSpawn false }
  /-- The pin is out of range. -/
  | unsupported {rqst : Gpio} (hphase : s.dispatch = .receiving)
    (hrqst : s.requests[s.taken]? = some (.gpio rqst)) (hpin : pinIndex rqst.pin = none) :
    Dispatches s .poll
      { s with
        taken := s.taken + 1
        dispatch := .replying s.taken (rqst.refuse .unsupported) false }
  /-- It awaits the lock on the pins. -/
  | lock {rqst : Gpio} {idx : Pin} (hphase : s.dispatch = .receiving)
    (hrqst : s.requests[s.taken]? = some (.gpio rqst)) (hpin : pinIndex rqst.pin = some idx) :
    Dispatches s .poll
      { s with
        taken := s.taken + 1
        dispatch := .locking s.taken rqst idx }
  /-- It has the lock, does what is asked and gives it back. -/
  | handle {seqNo : ℕ} {rqst : Gpio} {idx : Pin} (hphase : s.dispatch = .locking seqNo rqst idx) :
    Dispatches s .poll
      { s with
        slots := (rqst.handle s.pad s.slots idx).2
        dispatch := .replying seqNo (rqst.handle s.pad s.slots idx).1 false }
  /-- The reply goes on the wire. -/
  | put {seqNo : ℕ} {response : Response} (hphase : s.dispatch = .replying seqNo response false) :
    Dispatches s .put
      { s with
        dispatch := .replying seqNo response true
        wire := s.wire ++ [.reply seqNo response] }
  /-- It is over, and whether it failed makes no difference. -/
  | finish {seqNo : ℕ} {response : Response} {written ok : Bool}
    (hphase : s.dispatch = .replying seqNo response written) :
    Dispatches s (.done ok) { s with dispatch := .receiving }

/-- **The steps.** What is proved of every run is proved of these. -/
inductive Steps (s : State) : Action → State → Prop where
  | send (rqst : Request) : Steps s (.send rqst) { s with requests := s.requests ++ [rqst] }
  | receive (hmore : s.received < s.wire.length) :
    Steps s .receive { s with received := s.received + 1 }
  | edge (p : Pin) (high : Bool) :
    Steps s (.edge p high)
      { s with
        pad := Function.update s.pad p high
        tasks := fun i => (s.tasks i).map (Task.edge p) }
  | tick (us : UInt64) : Steps s (.tick us) { s with now := s.now + us }
  | dispatch {turn : Turn} {s' : State} (hpath : Dispatches s turn s') :
    Steps s (.dispatch turn) s'
  | task {i : TaskId} {t : Task} {turn : Turn} {e : Effect} (ht : s.tasks i = some t)
    (hpath : Path s t turn e) : Steps s (.task i turn) (s.apply i t e)

section Steps

variable {s s' : State} {t : Task} {turn : Turn} {e : Effect} {a : Action}

/-- The `select` is one of three. -/
theorem Path.of_select {idx : Pin} {pin : Flex} {seq : UInt16} {edge : Bool}
    (hselect : t.Selects turn idx pin seq edge) :
    Path s t turn (s.select t.rqst idx pin seq edge) := by
  unfold State.select
  split
  case isTrue hstop => exact .stopped hselect hstop
  case isFalse hstop =>
    rw [Bool.not_eq_true] at hstop
    cases edge with
    | true => exact .edge hselect hstop
    | false => exact .wait hselect hstop

/-- **A turn takes one of the ways.** -/
theorem Path.of_turn (h : s.turn t turn = some e) : Path s t turn e := by
  cases turn with
  | poll =>
    replace h : s.poll t = some e := h
    unfold State.poll at h
    split at h
    case h_1 hphase =>
      split at h
      case h_1 hpin => exact Option.some.inj h ▸ .unsupported hphase hpin
      case h_2 idx hpin =>
        split at h
        case isTrue henable => exact Option.some.inj h ▸ .lock hphase hpin henable
        case isFalse henable =>
          exact Option.some.inj h ▸ .signal hphase hpin (Bool.not_eq_true _ ▸ henable)
    case h_2 idx hphase =>
      split at h
      case h_1 hslot => exact Option.some.inj h ▸ .busy hphase hslot
      case h_2 pin hslot => exact Option.some.inj h ▸ .take hphase hslot
    case h_3 idx pin seq edge hphase => exact Option.some.inj h ▸ .of_select (.woken hphase)
    case h_4 idx pin hphase => exact Option.some.inj h ▸ .restore hphase
    all_goals exact absurd h nofun
  | put =>
    obtain ⟨⟨message, phase⟩, hout, rfl⟩ := Option.map_eq_some_iff.mp h
    exact .put hout
  | done ok =>
    replace h : s.done t ok = some e := h
    unfold State.done at h
    split at h
    case h_1 result written hphase =>
      split at h
      case isTrue => exact absurd h nofun
      case isFalse => exact Option.some.inj h ▸ .finish hphase
    case h_2 idx pin written hphase =>
      cases ok with
      | false => exact Option.some.inj h ▸ .unconfirmed hphase
      | true =>
        cases written with
        | false => exact absurd h nofun
        | true => exact Option.some.inj h ▸ .of_select (.confirmed hphase)
    case h_3 idx pin seq event written hphase =>
      split at h
      case isTrue => exact absurd h nofun
      case isFalse => exact Option.some.inj h ▸ .of_select (.published hphase)
    all_goals exact absurd h nofun

/-- A place that is found in the pool is free. -/
theorem free_eq_some {i : TaskId} (h : s.free = some i) : s.tasks i = none := by
  have hnone : (s.tasks i).isNone = true := List.find?_some (p := fun i => (s.tasks i).isNone) h
  exact Option.isNone_iff_eq_none.mp hnone

/-- **And so does one of the dispatcher.** -/
theorem Dispatches.of_turn (h : s.dispatchTurn turn = some s') : Dispatches s turn s' := by
  unfold State.dispatchTurn at h
  cases turn with
  | poll =>
    dsimp only at h
    split at h
    case h_1 hphase =>
      obtain ⟨rqst, hrqst, rfl⟩ := Option.map_eq_some_iff.mp h
      cases rqst with
      | pinMonitor rqst =>
        unfold State.take
        dsimp only
        split
        case h_1 => exact .full hphase hrqst
        case h_2 i hfree => exact .spawn hphase hrqst (free_eq_some hfree)
      | gpio rqst =>
        unfold State.take
        dsimp only
        split
        case h_1 hpin => exact .unsupported hphase hrqst hpin
        case h_2 idx hpin => exact .lock hphase hrqst hpin
    case h_2 seqNo rqst idx hphase => exact Option.some.inj h ▸ .handle hphase
    case h_3 => exact absurd h nofun
  | put =>
    dsimp only at h
    split at h
    case h_1 seqNo response hphase => exact Option.some.inj h ▸ .put hphase
    case h_2 => exact absurd h nofun
  | done ok =>
    dsimp only at h
    split at h
    case h_1 seqNo response written hphase =>
      split at h
      case isTrue => exact absurd h nofun
      case isFalse => exact Option.some.inj h ▸ .finish hphase
    case h_2 => exact absurd h nofun

/-- **The step function takes the steps.** -/
theorem Steps.of_step (h : step s a = some s') : Steps s a s' := by
  cases a with
  | send rqst => exact Option.some.inj h ▸ .send rqst
  | receive =>
    unfold step at h
    dsimp only at h
    split at h
    case isTrue hmore => exact Option.some.inj h ▸ .receive hmore
    case isFalse => exact absurd h nofun
  | edge p high => exact Option.some.inj h ▸ .edge p high
  | tick us => exact Option.some.inj h ▸ .tick us
  | dispatch turn => exact .dispatch (.of_turn h)
  | task i turn =>
    obtain ⟨t, ht, hmap⟩ := Option.bind_eq_some_iff.mp h
    obtain ⟨e, he, rfl⟩ := Option.map_eq_some_iff.mp hmap
    exact .task ht (.of_turn he)

end Steps

end Assistant

end Banc
