import Mathlib.Algebra.Group.Nat.Defs
import Mathlib.Logic.Function.Basic
import Mathlib.Order.Nat
import Mathlib.Tactic.Common
import Banc.Lib.Purge
import Banc.Rig.Note

/-!
# The rig lock

The advisory lock of `banc-host/src/rig.rs` and the note in its file, shared by
any number of processes. `RigLock::take`, the drop of a `RigLock`,
`read_lock_holder` and `flock_status` are sequences of file operations, and what
a process has still to do of the function it is in is its `Phase`. One action is
one file operation, or one look at the clock; between any two of them the other
processes do what they like, and any of them may be killed.

Of the operating system the model has the file, which has a content once it has
been created, and the flock on it, which one process at most holds and which a
process that ends lets go of. The file is never unlinked. Opening it and locking
it may fail (`Action.fail`), and the functions return the error; writing to it
and reading it do not. Reading or writing the file is one operation, whatever its
length.

Besides what the processes return, a state keeps who held a `RigLock` in each
state since a running `flock_status` was called (`State.seen`), and whether the
last process to take the lock has dropped it (`State.dropped`).
-/

namespace Banc

/-- Whether a rig is held, and by whom, if the holder has left a legible note. -/
inductive FlockStatus where
  | free
  | held (holder : Option LockHolder)
  deriving DecidableEq

namespace Flock

/-- Where `read_lock_holder` returns to. -/
inductive Reader where
  /-- The process called it for itself. -/
  | caller
  /-- `RigLock::take`, which gives up after this time. -/
  | take (timeout : ℕ)
  /-- `flock_status`. -/
  | status
  deriving DecidableEq

/-- What a process is about to do. -/
inductive Phase where
  /-- Nothing with the lock. -/
  | idle
  /-- It was killed. -/
  | dead
  /-- `RigLock::take`: open the file, creating it. -/
  | creating (timeout : ℕ)
  /-- Set the deadline. -/
  | created (timeout : ℕ)
  /-- `try_lock_exclusive`. -/
  | locking (timeout deadline : ℕ)
  /-- It was not free: compare the clock to the deadline. -/
  | contended (timeout deadline : ℕ)
  /-- `thread::sleep`. -/
  | sleeping (timeout deadline wake : ℕ)
  /-- It was: `set_len(0)`. -/
  | clearing (note : LockHolder)
  /-- `seek`. -/
  | seeking (note : LockHolder)
  /-- `write_all`, at this offset. -/
  | writing (note : LockHolder) (offset : ℕ)
  /-- `take` has returned: it has a `RigLock`. -/
  | holding (note : LockHolder)
  /-- `drop`: `set_len(0)`. -/
  | erasing (note : LockHolder)
  /-- `unlock`. -/
  | unlocking
  /-- `read_lock_holder`: open the file. -/
  | opening (back : Reader)
  /-- Read it. -/
  | reading (back : Reader)
  /-- `flock_status`: open the file. -/
  | probing
  /-- `try_lock_exclusive`. -/
  | probeLocking
  /-- `unlock`. -/
  | probeUnlocking
  deriving DecidableEq

/-- The process has taken the flock in `RigLock::take`, and not let go of it. -/
def Phase.Locked : Phase → Bool
  | .clearing _ | .seeking _ | .writing _ _ | .holding _ | .erasing _ | .unlocking => true
  | _ => false

/-- The process has the flock. -/
def Phase.Owns (p : Phase) : Bool := p.Locked || p == .probeUnlocking

/-- The process is in `flock_status`. -/
def Phase.InStatus : Phase → Bool
  | .probing | .probeLocking | .probeUnlocking | .opening .status | .reading .status => true
  | _ => false

/-- What a function returns. -/
inductive Result where
  /-- `RigLock::take`: a lock. -/
  | taken
  /-- It bails out, naming the holder. -/
  | refused (timeout : ℕ) (holder : Option LockHolder)
  /-- `read_lock_holder`. -/
  | note (holder : Option LockHolder)
  /-- `flock_status`. -/
  | status (status : FlockStatus)
  /-- `RigLock::take`: an operation failed. -/
  | failed
  /-- `flock_status`: an operation failed. -/
  | statusFailed
  deriving DecidableEq

/-- What `read_lock_holder` has said. -/
def Result.read : Result → Option (Option LockHolder)
  | .refused _ holder => some holder
  | .note holder => some holder
  | .status (.held holder) => some holder
  | _ => none

/-- What `read_lock_holder` returned is returned. -/
def Reader.result (holder : Option LockHolder) : Reader → Result
  | .caller => .note holder
  | .take timeout => .refused timeout holder
  | .status => .status (.held holder)

/-- The functions a process may call. -/
inductive Routine where
  | take (timeout : ℕ)
  /-- The drop of its `RigLock`. -/
  | drop
  | readLockHolder
  | flockStatus
  deriving DecidableEq

variable {κ : Type}

/-- What the processes say of themselves, and the codec of the note. -/
structure Config (κ : Type) where
  /-- `holder_identity()`. -/
  holder : κ → String
  /-- `std::process::id()`. -/
  pid : κ → UInt32
  codec : NoteCodec

/-- The note describes the process. -/
def Config.Describes (cfg : Config κ) (k : κ) (note : LockHolder) : Prop :=
  note.holder = cfg.holder k ∧ note.pid = cfg.pid k

instance (cfg : Config κ) (k : κ) (note : LockHolder) : Decidable (cfg.Describes k note) :=
  inferInstanceAs (Decidable (_ ∧ _))

/-- A result, with who had a `RigLock` in each state from the call to the return
of a `flock_status`. -/
structure Entry (κ : Type) where
  process : κ
  result : Result
  during : List (Option κ)
  deriving DecidableEq

/-- The file, the lock on it, and the processes. -/
structure State (κ : Type) where
  now : ℕ
  /-- The file, once it has been created. -/
  file : Option (List UInt8)
  /-- Who has the flock. -/
  flock : Option κ
  phase : κ → Phase
  /-- The last process to take the lock has released it by dropping its
  `RigLock`. -/
  dropped : Bool
  /-- Who had a `RigLock`, in each state since the process called
  `flock_status`. -/
  seen : κ → List (Option κ)
  /-- What has been returned so far. -/
  log : List (Entry κ)

/-- Who has a `RigLock`. -/
def State.rigLock (s : State κ) : Option κ := s.flock.filter (fun k => (s.phase k).Locked)

/-- What `read_lock_holder` finds, when it reads the file. -/
def State.note (cfg : Config κ) (s : State κ) : Option LockHolder :=
  s.file.bind cfg.codec.fromStr

/-- What may happen. -/
inductive Action (κ : Type) where
  /-- Time passes. -/
  | tick (d : ℕ)
  /-- A process calls a function. -/
  | call (k : κ) (f : Routine)
  /-- It goes on: one file operation, or one look at the clock. `unixSecs` is what
  the system's clock says. -/
  | op (k : κ) (unixSecs : UInt64)
  /-- Its operation fails, and the function returns the error. -/
  | fail (k : κ)
  /-- It is killed. -/
  | kill (k : κ)
  deriving DecidableEq

/-- The process an action is of. -/
def Action.process : Action κ → Option κ
  | .tick _ => none
  | .call k _ => some k
  | .op k _ => some k
  | .fail k => some k
  | .kill k => some k

/-- What a process does to the file, the flock and itself. -/
structure Effect (κ : Type) where
  file : Option (List UInt8)
  flock : Option κ
  dropped : Bool
  phase : Phase
  result : Option Result

/-- It goes on, and everything else stays. -/
def State.next (s : State κ) (phase : Phase) : Effect κ :=
  ⟨s.file, s.flock, s.dropped, phase, none⟩

/-- It returns. -/
def State.returns (s : State κ) (result : Result) : Effect κ :=
  ⟨s.file, s.flock, s.dropped, .idle, some result⟩

/-- Write at an offset of a file. -/
def writeAt (content : List UInt8) (offset : ℕ) (data : List UInt8) : List UInt8 :=
  (content ++ List.replicate (offset - content.length) 0).take offset ++ data
    ++ content.drop (offset + data.length)

/-- A function is called. -/
def State.call (s : State κ) (k : κ) (f : Routine) : Option (Effect κ) :=
  match s.phase k, f with
  | .idle, .take timeout => some (s.next (.creating timeout))
  | .holding note, .drop => some (s.next (.erasing note))
  | .idle, .readLockHolder => some (s.next (.opening .caller))
  | .idle, .flockStatus => some (s.next .probing)
  | _, _ => none

/-- The next operation of a process. -/
def State.op (cfg : Config κ) (s : State κ) (k : κ) (unixSecs : UInt64) : Option (Effect κ) :=
  match s.phase k with
  | .creating timeout =>
    some { s.next (.created timeout) with file := some (s.file.getD []) }
  | .created timeout => some (s.next (.locking timeout (s.now + timeout)))
  | .locking timeout deadline =>
    if s.flock = none then
      some { s.next (.clearing ⟨cfg.holder k, cfg.pid k, unixSecs⟩) with
        flock := some k
        dropped := false }
    else some (s.next (.contended timeout deadline))
  | .contended timeout deadline =>
    if deadline ≤ s.now then some (s.next (.opening (.take timeout)))
    else some (s.next (.sleeping timeout deadline (s.now + 200000000)))
  | .sleeping timeout deadline wake =>
    if wake ≤ s.now then some (s.next (.locking timeout deadline)) else none
  | .clearing note => some { s.next (.seeking note) with file := some [] }
  | .seeking note => some (s.next (.writing note 0))
  | .writing note offset =>
    some { s.returns .taken with
      phase := .holding note
      file := match cfg.codec.toString note with
        | none => s.file
        | some json => s.file.map (fun content => writeAt content offset json) }
  | .erasing _ => some { s.next .unlocking with file := some [] }
  | .unlocking => some { s.next .idle with flock := none, dropped := true }
  | .opening back =>
    match s.file with
    | none => some (s.returns (back.result none))
    | some _ => some (s.next (.reading back))
  | .reading back => some (s.returns (back.result (s.note cfg)))
  | .probing =>
    match s.file with
    | none => some (s.returns (.status .free))
    | some _ => some (s.next .probeLocking)
  | .probeLocking =>
    if s.flock = none then some { s.next .probeUnlocking with flock := some k }
    else some (s.next (.opening .status))
  | .probeUnlocking => some { s.returns (.status .free) with flock := none }
  | .idle | .dead | .holding _ => none

/-- An operation that fails, where the function says `?`. -/
def State.fail (s : State κ) (k : κ) : Option (Effect κ) :=
  match s.phase k with
  | .creating _ | .locking _ _ => some (s.returns .failed)
  | .probing | .probeLocking => some (s.returns .statusFailed)
  | _ => none

variable [DecidableEq κ]

/-- The process is killed. -/
def State.kill (s : State κ) (k : κ) : Option (Effect κ) :=
  if s.phase k = .dead then none
  else some { s.next .dead with flock := if s.flock = some k then none else s.flock }

/-- What the action of a process does. -/
def State.effect (cfg : Config κ) (s : State κ) : Action κ → Option (κ × Effect κ)
  | .tick _ => none
  | .call k f => (s.call k f).map (fun e => (k, e))
  | .op k unixSecs => (s.op cfg k unixSecs).map (fun e => (k, e))
  | .fail k => (s.fail k).map (fun e => (k, e))
  | .kill k => (s.kill k).map (fun e => (k, e))

/-- The state after it. -/
def State.apply (s : State κ) (k : κ) (e : Effect κ) : State κ :=
  { s with
    file := e.file
    flock := e.flock
    dropped := e.dropped
    phase := Function.update s.phase k e.phase
    log := s.log ++ e.result.toList.map (fun r => ⟨k, r, s.seen k⟩) }

/-- Those in `flock_status` see who has a `RigLock`. -/
def State.look (s : State κ) : State κ :=
  { s with seen := fun k => if (s.phase k).InStatus then s.seen k ++ [s.rigLock] else [] }

/-- The step function. -/
def step (cfg : Config κ) (s : State κ) : Action κ → Option (State κ)
  | .tick d => some { s with now := s.now + d }
  | a => (s.effect cfg a).map (fun e => (s.apply e.1 e.2).look)

/-- **The processes begin**, on whatever file there is. -/
structure State.Initial (s : State κ) : Prop where
  flock : s.flock = none
  phase : ∀ k, s.phase k = .idle
  dropped : s.dropped = false
  seen : ∀ k, s.seen k = []
  log : s.log = []

/-! ## What an action does -/

section Effects

variable {cfg : Config κ} {s s' : State κ} {a : Action κ} {k : κ} {e : Effect κ}

/-- A step is the passing of time, or the effect of an action of a process. -/
theorem step_cases (h : step cfg s a = some s') :
    (∃ d, a = .tick d ∧ s' = { s with now := s.now + d })
      ∨ ∃ k e, s.effect cfg a = some (k, e) ∧ s' = (s.apply k e).look := by
  cases a with
  | tick d => exact .inl ⟨d, rfl, (Option.some.inj h).symm⟩
  | call k f =>
    obtain ⟨⟨k, e⟩, he, rfl⟩ := Option.map_eq_some_iff.mp h
    exact .inr ⟨k, e, he, rfl⟩
  | op k unixSecs =>
    obtain ⟨⟨k, e⟩, he, rfl⟩ := Option.map_eq_some_iff.mp h
    exact .inr ⟨k, e, he, rfl⟩
  | fail k =>
    obtain ⟨⟨k, e⟩, he, rfl⟩ := Option.map_eq_some_iff.mp h
    exact .inr ⟨k, e, he, rfl⟩
  | kill k =>
    obtain ⟨⟨k, e⟩, he, rfl⟩ := Option.map_eq_some_iff.mp h
    exact .inr ⟨k, e, he, rfl⟩

theorem effect_eq_some :
    s.effect cfg a = some (k, e)
      ↔ (∃ f, a = .call k f ∧ s.call k f = some e)
        ∨ (∃ unixSecs, a = .op k unixSecs ∧ s.op cfg k unixSecs = some e)
        ∨ (a = .fail k ∧ s.fail k = some e)
        ∨ (a = .kill k ∧ s.kill k = some e) := by
  cases a
  all_goals simp only [State.effect, Option.map_eq_some_iff, Prod.mk.injEq, Action.call.injEq,
    Action.op.injEq, Action.fail.injEq, Action.kill.injEq, reduceCtorEq, false_and, exists_false,
    false_or, or_false]
  all_goals grind

end Effects

end Flock

end Banc
