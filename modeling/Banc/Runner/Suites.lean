import Banc.Lib.Turns
import Banc.Rig.Status
import Banc.Runner.Trial

/-!
# Suites take turns

Hardware is exclusive. Within a process `run` never runs two trials at once; between
processes there is the flock, which the first trial of a process takes, in the
`OnceLock` that all its trials share, and which is dropped when `run` returns. With
nextest every test is a process of its own.

Here any number of processes run their suites on one lock file. A process calls
`RigLock::take` and the drop of its lock where the runner does, and is otherwise in
the hands of `Banc.Rig.Flock`: between any two file operations of a process the others
do what they like, programs that are no suites (`banc rig status`, say) among them, and
any of them may be killed.

What comes of it is that attempts of two processes never overlap, and more: the
processes take turns. All attempts of a process, over all its tests and retries, follow
each other without one of another process between them (`suites_take_turns`). Who has
its turn is who the note in the lock file names.

As in `Banc.Rig.Flock`, opening the lock file and locking it may fail, and writing to it
does not: the source ignores an error in writing its note, and on a full disk would have the
rig without one. And `acquire` returns. Where it panics, as for a deadline that is beyond
what the clock can say, `get_or_init` leaves the `OnceLock` empty and the next trial calls
it again; that path is left out.
-/

namespace Banc

namespace Suites

/-- Where a process is. -/
inductive Stage where
  /-- It runs no suite, or has not begun to. -/
  | other
  /-- Between two trials: what is in the `OnceLock`. -/
  | between (rig : Option (Except Unit Unit))
  /-- In `get_or_init`, in the first trial. -/
  | acquiring (test : BancTest)
  /-- In a trial, with a rig, about to begin this attempt. -/
  | armed (test : BancTest) (attempt : ℕ)
  /-- In an attempt. -/
  | attempting (test : BancTest) (attempt : ℕ)
  /-- The rig is being dropped. -/
  | dropping
  /-- `run` has returned, or the process was killed. -/
  | finished

/-- A process, and the tests it has still to run. -/
structure Suite where
  /-- How far it has got. -/
  stage : Stage
  tests : List BancTest

variable {κ : Type}

/-- An attempt: of which test, and the how manieth. -/
abbrev Begun := String × ℕ

/-- The processes, and what they share. -/
structure State (κ : Type) where
  flock : Flock.State κ
  suite : κ → Suite
  /-- The attempts that have begun, with their processes. -/
  log : List (κ × Begun)

/-- What may happen. -/
inductive Action (κ : Type) where
  /-- Time passes; a process goes on with the lock, or it fails; it is killed; or one
  that runs no suite calls a function. -/
  | lock (a : Flock.Action κ)
  /-- `run` is called. -/
  | run (k : κ) (tests : List BancTest)
  /-- The next trial begins. -/
  | trial (k : κ) (timeout : ℕ)
  /-- It does, and there is no rig: `acquire` does not get as far as the lock. -/
  | noRig (k : κ)
  /-- The next attempt does. -/
  | attempt (k : κ)
  /-- The attempt ends: `none` if it panics. -/
  | ends (k : κ) (result : Option (Except Failed Unit))
  /-- All trials have been run: `run` returns. -/
  | finish (k : κ)

/-- What becomes of a process when it has gone on with the lock. -/
def Stage.settle (phase : Flock.Phase) (stage : Stage) : Stage :=
  match phase, stage with
  | .dead, _ => .finished
  | .holding _, .acquiring test => .armed test 1
  | .idle, .acquiring _ => .between (some (.error ()))
  | .idle, .dropping => .finished
  | _, stage => stage

/-- The end of an attempt. -/
def Stage.ended (test : BancTest) (attempt : ℕ) : Option (Except Failed Unit) → Stage
  | some (.error _) =>
    if attempt < test.attempts then .armed test (attempt + 1) else .between (some (.ok ()))
  | _ => .between (some (.ok ()))

variable [DecidableEq κ]

/-- One process changes. -/
def State.set (s : State κ) (k : κ) (suite : Suite) : State κ :=
  { s with suite := Function.update s.suite k suite }

/-- A process goes on with the lock. -/
def State.settle (s : State κ) (k : κ) (flock : Flock.State κ) : State κ :=
  { s with flock }.set k { s.suite k with stage := (s.suite k).stage.settle (flock.phase k) }

/-- The lock does what it does. -/
def lockStep (cfg : Flock.Config κ) (s : State κ) (a : Flock.Action κ) : Option (State κ) :=
  (Flock.step cfg s.flock a).map (fun flock =>
    match a.process with
    | none => { s with flock }
    | some k => s.settle k flock)

/-- The step function. -/
def step (cfg : Flock.Config κ) (s : State κ) : Action κ → Option (State κ)
  | .lock (.call k f) =>
    match (s.suite k).stage with
    | .other => lockStep cfg s (.call k f)
    | _ => none
  | .lock a => lockStep cfg s a
  | .run k tests =>
    match (s.suite k).stage, s.flock.phase k with
    | .other, .idle => some (s.set k ⟨.between none, tests⟩)
    | _, _ => none
  | .trial k timeout =>
    match s.suite k with
    | ⟨.between none, test :: tests⟩ =>
      (Flock.step cfg s.flock (.call k (.take timeout))).map (fun flock =>
        { s with flock }.set k ⟨.acquiring test, tests⟩)
    | ⟨.between (some (.ok ())), test :: tests⟩ => some (s.set k ⟨.armed test 1, tests⟩)
    -- the trial fails: `rig unavailable`
    | ⟨.between (some (.error ())), _ :: tests⟩ =>
      some (s.set k ⟨.between (some (.error ())), tests⟩)
    | _ => none
  | .noRig k =>
    match s.suite k with
    | ⟨.between none, _ :: tests⟩ => some (s.set k ⟨.between (some (.error ())), tests⟩)
    | _ => none
  | .attempt k =>
    match s.suite k with
    | ⟨.armed test attempt, tests⟩ =>
      some { s.set k ⟨.attempting test attempt, tests⟩ with
        log := s.log ++ [(k, test.name, attempt)] }
    | _ => none
  | .ends k result =>
    match s.suite k with
    | ⟨.attempting test attempt, tests⟩ => some (s.set k ⟨.ended test attempt result, tests⟩)
    | _ => none
  | .finish k =>
    match s.suite k with
    | ⟨.between (some (.ok ())), []⟩ =>
      (Flock.step cfg s.flock (.call k .drop)).map (fun flock =>
        { s with flock }.set k ⟨.dropping, []⟩)
    | ⟨.between _, []⟩ => some (s.set k ⟨.finished, []⟩)
    | _ => none

/-- No process has begun. -/
structure State.Initial (s : State κ) : Prop where
  flock : s.flock.Initial
  suite : ∀ k, (s.suite k).stage = .other
  log : s.log = []

/-! ## A process and its lock -/

/-- The process is in `RigLock::take`. -/
def Taking : Flock.Phase → Prop
  | .creating _ | .created _ | .locking _ _ | .contended _ _ | .sleeping _ _ _ => True
  | .clearing _ | .seeking _ | .writing _ _ => True
  | .opening (.take _) | .reading (.take _) => True
  | _ => False

/-- It has a `RigLock`, for its tests. -/
def Stage.HasTurn : Stage → Prop
  | .between (some (.ok ())) | .armed _ _ | .attempting _ _ => True
  | _ => False

/-- It has had one, or will have none. -/
def Stage.Past : Stage → Prop
  | .dropping | .finished => True
  | _ => False

/-- Where a process is, it is with the lock. -/
def Stage.Fits (phase : Flock.Phase) : Stage → Prop
  | .other => True
  | .between none | .between (some (.error ())) | .finished => phase = .idle ∨ phase = .dead
  | .between (some (.ok ())) | .armed _ _ | .attempting _ _ => ∃ note, phase = .holding note
  | .acquiring _ => Taking phase
  | .dropping => (∃ note, phase = .erasing note) ∨ phase = .unlocking

/-- Who has the turn holds the lock. -/
theorem Stage.HasTurn.holding {phase : Flock.Phase} {stage : Stage} (hturn : stage.HasTurn)
    (h : stage.Fits phase) : ∃ note, phase = .holding note := by
  cases stage with
  | between rig =>
    match rig with
    | none => exact hturn.elim
    | some (.error ()) => exact hturn.elim
    | some (.ok ()) => exact h
  | armed test attempt => exact h
  | attempting test attempt => exact h
  | other => exact hturn.elim
  | acquiring test => exact hturn.elim
  | dropping => exact hturn.elim
  | finished => exact hturn.elim

/-- And who holds it may have the turn. -/
theorem Stage.HasTurn.fits {phase : Flock.Phase} {stage : Stage} (hturn : stage.HasTurn)
    (h : ∃ note, phase = .holding note) : stage.Fits phase := by
  cases stage with
  | between rig =>
    match rig with
    | none => exact hturn.elim
    | some (.error ()) => exact hturn.elim
    | some (.ok ()) => exact h
  | armed test attempt => exact h
  | attempting test attempt => exact h
  | other => exact hturn.elim
  | acquiring test => exact hturn.elim
  | dropping => exact hturn.elim
  | finished => exact hturn.elim

section Lock

variable {cfg : Flock.Config κ} {f f' : Flock.State κ} {k : κ} {e : Flock.Effect κ} {stage : Stage}

/-- A program that is no suite is where it likes. -/
theorem Stage.Fits.settle_other (phase : Flock.Phase) :
    (Stage.other.settle phase).Fits phase := by
  cases phase
  case dead => exact .inr rfl
  all_goals trivial

omit [DecidableEq κ] in
/-- `RigLock::take` goes on, or returns. -/
theorem Taking.op {unixSecs : UInt64} {test : BancTest} (h : Taking (f.phase k))
    (hop : f.op cfg k unixSecs = some e) :
    ((Stage.acquiring test).settle e.phase).Fits e.phase := by
  unfold Flock.State.op at hop
  cases hphase : f.phase k with
  | creating timeout | created timeout | clearing note | seeking note =>
    rw [hphase] at hop
    obtain rfl := Option.some.inj hop
    trivial
  | locking timeout deadline | contended timeout deadline =>
    rw [hphase] at hop
    dsimp only at hop
    split at hop
    · obtain rfl := Option.some.inj hop
      trivial
    · obtain rfl := Option.some.inj hop
      trivial
  | sleeping timeout deadline wake =>
    rw [hphase] at hop
    dsimp only at hop
    split at hop
    · obtain rfl := Option.some.inj hop
      trivial
    · exact absurd hop nofun
  | writing note offset =>
    rw [hphase] at hop
    obtain rfl := Option.some.inj hop
    exact ⟨note, rfl⟩
  | opening back =>
    rw [hphase] at h hop
    cases back with
    | take timeout =>
      dsimp only at hop
      split at hop
      · obtain rfl := Option.some.inj hop
        exact .inl rfl
      · obtain rfl := Option.some.inj hop
        trivial
    | caller => exact h.elim
    | status => exact h.elim
  | reading back =>
    rw [hphase] at h hop
    cases back with
    | take timeout =>
      obtain rfl := Option.some.inj hop
      exact .inl rfl
    | caller => exact h.elim
    | status => exact h.elim
  | idle | dead | holding note | erasing note | unlocking | probing | probeLocking
  | probeUnlocking =>
    rw [hphase] at h
    exact h.elim

omit [DecidableEq κ] in
/-- **A process goes on with the lock**, and is where it should be. -/
theorem Stage.Fits.op {unixSecs : UInt64} (h : stage.Fits (f.phase k))
    (hop : f.op cfg k unixSecs = some e) : (stage.settle e.phase).Fits e.phase := by
  have hrest (hphase : f.phase k = .idle ∨ f.phase k = .dead) : False := by
    unfold Flock.State.op at hop
    rcases hphase with hphase | hphase
    · rw [hphase] at hop
      exact absurd hop nofun
    · rw [hphase] at hop
      exact absurd hop nofun
  have hhold (hphase : ∃ note, f.phase k = .holding note) : False := by
    obtain ⟨note, hphase⟩ := hphase
    unfold Flock.State.op at hop
    rw [hphase] at hop
    exact absurd hop nofun
  cases stage with
  | other => exact settle_other _
  | between rig =>
    match rig with
    | none => exact (hrest h).elim
    | some (.error ()) => exact (hrest h).elim
    | some (.ok ()) => exact (hhold h).elim
  | armed test attempt => exact (hhold h).elim
  | attempting test attempt => exact (hhold h).elim
  | finished => exact (hrest h).elim
  | acquiring test => exact Taking.op h hop
  | dropping =>
    unfold Flock.State.op at hop
    rcases h with ⟨note, hphase⟩ | hphase
    · rw [hphase] at hop
      obtain rfl := Option.some.inj hop
      exact .inr rfl
    · rw [hphase] at hop
      obtain rfl := Option.some.inj hop
      exact .inl rfl

omit [DecidableEq κ] in
/-- An operation that fails is one of a function, which returns. -/
theorem phase_of_fail (hfail : f.fail k = some e) :
    e.phase = .idle ∧ ∀ note, f.phase k ≠ .holding note := by
  unfold Flock.State.fail at hfail
  cases hphase : f.phase k with
  | creating timeout | locking timeout deadline | probing | probeLocking =>
    rw [hphase] at hfail
    obtain rfl := Option.some.inj hfail
    exact ⟨rfl, nofun⟩
  | _ =>
    rw [hphase] at hfail
    exact absurd hfail nofun

omit [DecidableEq κ] in
/-- Its operation fails. -/
theorem Stage.Fits.fail (h : stage.Fits (f.phase k)) (hfail : f.fail k = some e) :
    (stage.settle e.phase).Fits e.phase := by
  obtain ⟨hidle, hhold⟩ := phase_of_fail hfail
  rw [hidle]
  cases stage with
  | other => trivial
  | acquiring test => exact .inl rfl
  | between rig =>
    match rig with
    | none => exact .inl rfl
    | some (.error ()) => exact .inl rfl
    | some (.ok ()) => exact (hhold _ h.choose_spec).elim
  | armed test attempt => exact (hhold _ h.choose_spec).elim
  | attempting test attempt => exact (hhold _ h.choose_spec).elim
  | dropping => exact .inl rfl
  | finished => exact .inl rfl

/-- **A process does something with the lock**, and is where it should be. -/
theorem Stage.Fits.effect {a : Flock.Action κ} (h : stage.Fits (f.phase k))
    (he : f.effect cfg a = some (k, e)) (hcall : ∀ r, a = .call k r → stage = .other) :
    (stage.settle e.phase).Fits e.phase := by
  rcases Flock.effect_eq_some.mp he with ⟨r, rfl, -⟩ | ⟨u, -, hop⟩ | ⟨-, hfail⟩ | ⟨-, hkill⟩
  · obtain rfl := hcall r rfl
    exact settle_other _
  · exact h.op hop
  · exact h.fail hfail
  · unfold Flock.State.kill at hkill
    split at hkill
    · exact absurd hkill nofun
    · obtain rfl := Option.some.inj hkill
      exact .inr rfl

omit [DecidableEq κ] in
/-- A call of `take` begins at the file. -/
theorem phase_of_take {timeout : ℕ} (h : f.call k (.take timeout) = some e) :
    e.phase = .creating timeout := by
  unfold Flock.State.call at h
  split at h
  case h_1 heq =>
    obtain rfl := Option.some.inj h
    obtain rfl := Flock.Routine.take.inj heq
    rfl
  case h_5 => exact absurd h nofun
  all_goals
    rename_i heq
    exact Flock.Routine.noConfusion heq

omit [DecidableEq κ] in
/-- A drop begins with the note. -/
theorem phase_of_drop (h : f.call k .drop = some e) : ∃ note, e.phase = .erasing note := by
  unfold Flock.State.call at h
  split at h
  case h_2 =>
    obtain rfl := Option.some.inj h
    exact ⟨_, rfl⟩
  case h_5 => exact absurd h nofun
  all_goals
    rename_i heq
    exact Flock.Routine.noConfusion heq

/-- Nobody else goes on. -/
theorem effect_of_step {a : Flock.Action κ} (h : Flock.step cfg f a = some f') :
    (a.process = none ∧ f'.phase = f.phase)
      ∨ ∃ k e, a.process = some k ∧ f.effect cfg a = some (k, e)
          ∧ f'.phase = Function.update f.phase k e.phase := by
  rcases Flock.step_cases h with ⟨d, rfl, rfl⟩ | ⟨k, e, he, rfl⟩
  · exact .inl ⟨rfl, rfl⟩
  · refine .inr ⟨k, e, ?_, he, rfl⟩
    rcases Flock.effect_eq_some.mp he with ⟨r, rfl, -⟩ | ⟨u, rfl, -⟩ | ⟨rfl, -⟩ | ⟨rfl, -⟩
    all_goals rfl

end Lock

/-! ## Turns -/

/-- A process may get from one stage to the other without a turn of its beginning, or
being taken away. -/
structure Stage.Keeps (stage stage' : Stage) : Prop where
  turn : stage'.HasTurn → stage.HasTurn
  begun : stage.HasTurn ∨ stage.Past → stage'.HasTurn ∨ stage'.Past

/-- The processes that have had a turn, in order; the last may be having it. -/
structure State.Turned (s : State κ) (ks : List κ) : Prop where
  inTurns : Turns.InTurns ks s.log
  begun : ∀ k ∈ ks, (s.suite k).stage.HasTurn ∨ (s.suite k).stage.Past
  last : ∀ k, (s.suite k).stage.HasTurn → ks.getLast? = some k

/-- **The processes in order.** -/
structure State.Ok (cfg : Flock.Config κ) (s : State κ) : Prop where
  flock : s.flock.Ok cfg
  fits : ∀ k, (s.suite k).stage.Fits (s.flock.phase k)
  turned : ∃ ks, s.Turned ks

section Run

variable {cfg : Flock.Config κ} {s s' : State κ} {f : Flock.State κ} {a : Action κ} {k : κ}

omit [DecidableEq κ] in
/-- Going on with the lock, a process keeps its turn, or begins it. -/
theorem Stage.settle_keeps (phase : Flock.Phase) (stage : Stage) :
    stage.Keeps (stage.settle phase)
      ∨ ∃ test note, stage = .acquiring test ∧ phase = .holding note := by
  unfold Stage.settle
  split
  · exact .inl ⟨False.elim, fun _ => .inr trivial⟩
  · exact .inr ⟨_, _, rfl, rfl⟩
  · exact .inl ⟨False.elim, fun h => h.elim False.elim False.elim⟩
  · exact .inl ⟨False.elim, fun _ => .inr trivial⟩
  · exact .inl ⟨id, id⟩

/-- An attempt that has ended leaves the process its turn, for the next or for another test. -/
theorem Stage.ended_hasTurn (test : BancTest) (attempt : ℕ)
    (result : Option (Except Failed Unit)) : (Stage.ended test attempt result).HasTurn := by
  unfold Stage.ended
  split
  · split
    · trivial
    · trivial
  · trivial

omit [DecidableEq κ] in
/-- Who has a turn has the lock. -/
theorem State.Ok.locked (h : s.Ok cfg) (hk : (s.suite k).stage.HasTurn) :
    (s.flock.phase k).Locked = true ∧ (s.flock.phase k).Cleared = true := by
  obtain ⟨note, hphase⟩ := hk.holding (h.fits k)
  rw [hphase]
  exact ⟨rfl, rfl⟩

omit [DecidableEq κ] in
/-- Nobody runs a suite yet. -/
theorem State.Ok.of_initial (h : s.Initial) : s.Ok cfg where
  flock := .of_initial h.flock
  fits k := by
    rw [h.suite k]
    trivial
  turned := by
    refine ⟨[], ?_, nofun, fun k hk => ?_⟩
    · rw [h.log]
      exact .nil
    · rw [h.suite k] at hk
      exact hk.elim

/-! ### One process changes -/

section Set

variable {suite : Suite} {ks : List κ}

/-- One process changes its stage. -/
theorem State.stage_set (s : State κ) (k j : κ) (suite : Suite) :
    ((s.set k suite).suite j).stage = if j = k then suite.stage else (s.suite j).stage := by
  show (Function.update s.suite k suite j).stage = _
  by_cases hj : j = k
  · subst hj
    rw [Function.update_self, if_pos rfl]
  · rw [Function.update_of_ne hj, if_neg hj]

/-- And the stages still fit the lock, if its own does. -/
theorem State.fits_set (h : ∀ j, (s.suite j).stage.Fits (s.flock.phase j))
    (hphase : ∀ j, j ≠ k → f.phase j = s.flock.phase j)
    (hfits : suite.stage.Fits (f.phase k)) (j : κ) :
    ((({ s with flock := f } : State κ).set k suite).suite j).stage.Fits (f.phase j) := by
  rw [stage_set]
  split
  · rename_i hj
    rw [hj]
    exact hfits
  · rename_i hj
    rw [hphase j hj]
    exact h j

/-- Its turn does not begin. -/
theorem State.Turned.set (h : s.Turned ks) (hkeeps : (s.suite k).stage.Keeps suite.stage) :
    (({ s with flock := f } : State κ).set k suite).Turned ks := by
  refine ⟨h.inTurns, fun j hj => ?_, fun j hj => ?_⟩
  · rw [stage_set]
    split
    · rename_i hjk
      exact hkeeps.begun (hjk ▸ h.begun j hj)
    · exact h.begun j hj
  · rw [stage_set] at hj
    split at hj
    · rename_i hjk
      exact h.last j (hjk ▸ hkeeps.turn hj)
    · exact h.last j hj

/-- It does, and nobody else has one. -/
theorem State.Turned.begin (h : s.Turned ks) (hturn : suite.stage.HasTurn)
    (hnew : ¬ ((s.suite k).stage.HasTurn ∨ (s.suite k).stage.Past))
    (hnone : ∀ j, ¬ (s.suite j).stage.HasTurn) :
    (({ s with flock := f } : State κ).set k suite).Turned (ks ++ [k]) := by
  refine ⟨.begin h.inTurns (fun hk => hnew (h.begun k hk)), fun j hj => ?_, fun j hj => ?_⟩
  · rw [stage_set]
    split
    · exact .inl hturn
    · rename_i hjk
      rcases List.mem_append.mp hj with hj | hj
      · exact h.begun j hj
      · exact absurd (List.mem_singleton.mp hj) hjk
  · rw [stage_set] at hj
    split at hj
    · rename_i hjk
      rw [hjk, List.getLast?_concat]
    · exact (hnone j hj).elim

/-- A process changes without getting a turn by it. If it had one it has it still, or is past
it. -/
theorem State.Ok.set (h : s.Ok cfg) (hflock : f.Ok cfg)
    (hphase : ∀ j, j ≠ k → f.phase j = s.flock.phase j)
    (hfits : suite.stage.Fits (f.phase k))
    (hkeeps : (s.suite k).stage.Keeps suite.stage) :
    (({ s with flock := f } : State κ).set k suite).Ok cfg where
  flock := hflock
  fits := State.fits_set h.fits hphase hfits
  turned := h.turned.imp (fun _ hks => hks.set hkeeps)

/-- A process goes on, not with the lock. -/
theorem State.Ok.moves (h : s.Ok cfg) (hfits : suite.stage.Fits (s.flock.phase k))
    (hkeeps : (s.suite k).stage.Keeps suite.stage) : (s.set k suite).Ok cfg :=
  h.set h.flock (fun _ _ => rfl) hfits hkeeps

end Set

/-- A process does something with the lock. -/
theorem State.Ok.lock (hcodec : cfg.codec.Faithful) (h : s.Ok cfg) {a : Flock.Action κ}
    (hcall : ∀ k r, a = .call k r → (s.suite k).stage = .other)
    (hstep : lockStep cfg s a = some s') : s'.Ok cfg := by
  obtain ⟨f, hf, rfl⟩ := Option.map_eq_some_iff.mp hstep
  have hflock : f.Ok cfg := h.flock.step hcodec hf
  rcases effect_of_step hf with ⟨hnone, hphase⟩ | ⟨k, e, hk, he, hphase⟩
  · rw [hnone]
    refine ⟨hflock, fun j => ?_, h.turned.imp (fun _ hks => ⟨hks.inTurns, hks.begun, hks.last⟩)⟩
    show (s.suite j).stage.Fits (f.phase j)
    rw [hphase]
    exact h.fits j
  · rw [hk]
    have hself : f.phase k = e.phase := by rw [hphase, Function.update_self]
    have hother (j : κ) (hj : j ≠ k) : f.phase j = s.flock.phase j := by
      rw [hphase, Function.update_of_ne hj]
    have hfits : ((s.suite k).stage.settle (f.phase k)).Fits (f.phase k) := by
      rw [hself]
      exact (h.fits k).effect he (hcall k)
    show State.Ok cfg (s.settle k f)
    rcases Stage.settle_keeps (f.phase k) (s.suite k).stage with hkeeps | ⟨test, n, hstage, hn⟩
    · exact h.set hflock hother hfits hkeeps
    · -- it has got the lock, so that no other has
      have hlocked : (f.phase k).Owns = true := by
        rw [hn]
        rfl
      have hnew : ¬ ((s.suite k).stage.HasTurn ∨ (s.suite k).stage.Past) := by
        rw [hstage]
        exact fun h => h.elim False.elim False.elim
      have hnobody (j : κ) : ¬ (s.suite j).stage.HasTurn := by
        intro hj
        by_cases hjk : j = k
        · exact hnew (.inl (hjk ▸ hj))
        · have howns := Flock.Phase.owns_of_locked (h.locked hj).1
          rw [← hother j hjk] at howns
          exact hjk (hflock.owner_unique howns hlocked)
      obtain ⟨ks, hks⟩ := h.turned
      refine ⟨hflock, State.fits_set h.fits hother hfits, ks ++ [k], ?_⟩
      refine hks.begin ?_ hnew hnobody
      rw [hstage, hn]
      trivial

/-- A suite calls a function of the lock. -/
theorem State.Ok.call (hcodec : cfg.codec.Faithful) (h : s.Ok cfg) {r : Flock.Routine}
    (hstep : Flock.step cfg s.flock (.call k r) = some f) {suite : Suite}
    (hfits : ∀ e, s.flock.call k r = some e → suite.stage.Fits e.phase)
    (hkeeps : (s.suite k).stage.Keeps suite.stage) :
    (({ s with flock := f } : State κ).set k suite).Ok cfg := by
  obtain ⟨⟨j, e⟩, he, rfl⟩ := Option.map_eq_some_iff.mp hstep
  obtain ⟨e, hcall, hje⟩ := Option.map_eq_some_iff.mp he
  obtain ⟨rfl, rfl⟩ := Prod.mk.inj hje
  refine h.set (h.flock.step hcodec hstep) (fun i hi => ?_) ?_ hkeeps
  · exact Function.update_of_ne hi _ _
  · show suite.stage.Fits (Function.update s.flock.phase k e.phase k)
    rw [Function.update_self]
    exact hfits e hcall

/-- **What one step keeps.** -/
theorem State.Ok.step (hcodec : cfg.codec.Faithful) (h : s.Ok cfg)
    (hstep : Suites.step cfg s a = some s') : s'.Ok cfg := by
  unfold Suites.step at hstep
  split at hstep
  -- a function is called by a program that is no suite
  · split at hstep
    · rename_i hother
      refine h.lock hcodec (fun k r heq => ?_) hstep
      obtain ⟨rfl, rfl⟩ := Flock.Action.call.inj heq
      exact hother
    · exact absurd hstep nofun
  · rename_i a hnocall
    exact h.lock hcodec (fun k r heq => (hnocall k r heq).elim) hstep
  -- run
  · rename_i k tests
    split at hstep
    · rename_i hstage hphase
      obtain rfl := Option.some.inj hstep
      refine h.moves (.inl hphase) ⟨False.elim, fun hk => ?_⟩
      rw [hstage] at hk
      exact hk.elim False.elim False.elim
    · exact absurd hstep nofun
  -- trial
  · rename_i k timeout
    have hfits := h.fits k
    split at hstep
    · rename_i test tests hsuite
      obtain ⟨f, hf, rfl⟩ := Option.map_eq_some_iff.mp hstep
      refine h.call hcodec hf (fun e he => ?_) ⟨False.elim, fun hk => ?_⟩
      · rw [phase_of_take he]
        trivial
      · rw [hsuite] at hk
        exact hk.elim False.elim False.elim
    · rename_i test tests hsuite
      obtain rfl := Option.some.inj hstep
      rw [hsuite] at hfits
      exact h.moves hfits (by rw [hsuite]; exact ⟨fun _ => trivial, fun _ => .inl trivial⟩)
    · rename_i test tests hsuite
      obtain rfl := Option.some.inj hstep
      rw [hsuite] at hfits
      exact h.moves hfits (by rw [hsuite]; exact ⟨id, id⟩)
    · exact absurd hstep nofun
  -- no rig
  · rename_i k
    have hfits := h.fits k
    split at hstep
    · rename_i test tests hsuite
      obtain rfl := Option.some.inj hstep
      rw [hsuite] at hfits
      exact h.moves hfits (by rw [hsuite]; exact ⟨id, id⟩)
    · exact absurd hstep nofun
  -- attempt
  · rename_i k
    have hfits := h.fits k
    split at hstep
    · rename_i test attempt tests hsuite
      obtain rfl := Option.some.inj hstep
      rw [hsuite] at hfits
      have hok : (s.set k ⟨.attempting test attempt, tests⟩).Ok cfg :=
        h.moves hfits (by rw [hsuite]; exact ⟨fun _ => trivial, fun _ => .inl trivial⟩)
      obtain ⟨ks, hks⟩ := hok.turned
      have hturn : ((s.set k ⟨.attempting test attempt, tests⟩).suite k).stage.HasTurn := by
        rw [State.stage_set, if_pos rfl]
        trivial
      obtain ⟨before, rfl⟩ := List.getLast?_eq_some_iff.mp (hks.last k hturn)
      exact ⟨hok.flock, hok.fits, before ++ [k],
        ⟨.act hks.inTurns (test.name, attempt), hks.begun, hks.last⟩⟩
    · exact absurd hstep nofun
  -- ends
  · rename_i k result
    have hfits := h.fits k
    split at hstep
    · rename_i test attempt tests hsuite
      obtain rfl := Option.some.inj hstep
      rw [hsuite] at hfits
      have hturn := Stage.ended_hasTurn test attempt result
      refine h.moves (hturn.fits hfits) ?_
      rw [hsuite]
      exact ⟨fun _ => trivial, fun _ => .inl hturn⟩
    · exact absurd hstep nofun
  -- finish
  · rename_i k
    have hfits := h.fits k
    split at hstep
    · rename_i hsuite
      obtain ⟨f, hf, rfl⟩ := Option.map_eq_some_iff.mp hstep
      refine h.call hcodec hf (fun e he => ?_) ⟨False.elim, fun _ => .inr trivial⟩
      exact .inl (phase_of_drop he)
    · rename_i rig hrig hsuite
      obtain rfl := Option.some.inj hstep
      rw [hsuite] at hfits
      refine h.moves ?_ ⟨False.elim, fun _ => .inr trivial⟩
      match rig with
      | none => exact hfits
      | some (.error ()) => exact hfits
      | some (.ok ()) => exact (hrig rfl).elim
    · exact absurd hstep nofun

end Run

/-- **Suites take turns.** Any number of processes run their suites on one lock file, and
programs that are no suites call what they like of the lock. In every state of every run:

* a process that has its rig, in an attempt or on its way to the next, has the rig lock
  to itself, and what is in the lock file is a note of that process, for what is written
  to it is there: so attempts never overlap, and whoever asks is told who makes them;
* what attempts have begun, have begun in turns: of each process all in one go, over all
  its tests and retries, and the process that has the rig has its turn last. -/
theorem suites_take_turns (cfg : Flock.Config κ) (hcodec : cfg.codec.Faithful)
    {s₀ s : State κ} {as : List (Action κ)} (hinit : s₀.Initial)
    (hrun : Transition.run (step cfg) s₀ as = some s) :
    (∀ k, (s.suite k).stage.HasTurn →
        s.flock.rigLock = some k ∧ ∃ note, s.flock.note cfg = some note ∧ cfg.Describes k note)
      ∧ ∃ turns : List (κ × List Begun),
          (turns.map Prod.fst).Nodup ∧ s.log = Turns.logOf turns
            ∧ ∀ k, (s.suite k).stage.HasTurn → (turns.map Prod.fst).getLast? = some k := by
  have hok : s.Ok cfg :=
    Transition.run_preserves (fun _ _ _ h => State.Ok.step hcodec h) (.of_initial hinit) hrun
  refine ⟨fun k hk => ⟨hok.flock.rigLock (hok.locked hk).1, ?_⟩, ?_⟩
  · obtain ⟨note, hphase⟩ := hk.holding (hok.fits k)
    have hfits := hok.flock.fits k
    rw [hphase] at hfits
    exact ⟨note, hfits.2, hfits.1⟩
  · obtain ⟨ks, hks⟩ := hok.turned
    obtain ⟨hnodup, turns, rfl, hlog⟩ := hks.inTurns.exists_turns
    exact ⟨turns, hnodup, hlog, hks.last⟩

/-! ### Two suites -/

/-- Process 1 and process 2 run a suite each. The test of the first passes at the second
attempt; meanwhile the second waits for the lock. -/
def twoSuites : List (Action ℕ) :=
  [.run 1 [(BancTest.new "joins" (fun _ => ⟨0, [], none, 0, []⟩)).allow 2],
    .run 2 [BancTest.new "boots" (fun _ => ⟨0, [], none, 0, []⟩)],
    .trial 1 0, .trial 2 1000000000, .lock (.op 2 0), .lock (.op 2 0),
    .lock (.op 1 0), .lock (.op 1 0), .lock (.op 1 1700000000), .lock (.op 1 0),
    .lock (.op 1 0), .lock (.op 1 0), .attempt 1, .lock (.op 2 0), .lock (.op 2 0),
    .ends 1 (some (.error ⟨some "no join"⟩)), .attempt 1, .lock (.tick 200000000),
    .lock (.op 2 0), .lock (.op 2 0), .lock (.op 2 0), .ends 1 (some (.ok ())), .finish 1,
    .lock (.op 1 0), .lock (.op 1 0), .lock (.tick 200000000), .lock (.op 2 0),
    .lock (.op 2 1700000009), .lock (.op 2 0), .lock (.op 2 0), .lock (.op 2 0), .attempt 2]

/-- There is no lock file yet, and no suite has begun. -/
def noSuites : State ℕ := ⟨Flock.noFile, fun _ => ⟨.other, []⟩, []⟩

/-- The second waits until the first has made all its attempts. -/
theorem twoSuites_turns :
    ∃ s turns, Transition.run (step Flock.ci) noSuites twoSuites = some s
      ∧ s.log = [(1, "joins", 1), (1, "joins", 2), (2, "boots", 1)]
      ∧ (turns.map Prod.fst).Nodup ∧ s.log = Turns.logOf turns := by
  have hend : (Transition.run (step Flock.ci) noSuites twoSuites).map (fun s => s.log)
      = some [(1, "joins", 1), (1, "joins", 2), (2, "boots", 1)] := by
    decide +kernel
  obtain ⟨s, hrun, hlog⟩ := Option.map_eq_some_iff.mp hend
  obtain ⟨-, turns, hnodup, hturns, -⟩ :=
    suites_take_turns Flock.ci NoteCodec.serdeJson_faithful
      ⟨Flock.noFile_initial, fun _ => rfl, rfl⟩ hrun
  exact ⟨s, turns, hrun, hlog, hnodup, hturns⟩

end Suites

end Banc
