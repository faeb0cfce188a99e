import Banc.Rig.Flock

/-!
# The note follows the holder

What a process is about to do says what is in the lock file (`Phase.Fits`): the
one that has taken the lock has the file to itself, from `set_len(0)` to `unlock`,
and while it holds its `RigLock` the file is its note. One lemma says what the
effect of any action may be (`Effect.Ok`); that the processes, the flock and the
file stay in order (`State.Ok`) follows from it alone.

So at most one process has a `RigLock`, nobody else changes the file, and whoever
reads it finds the holder's note, or none once the last holder has dropped its
lock (`note_follows_holder`). A killed holder leaves its note behind: then, until
the next one has cleared it, the file may say anything.
-/

namespace Banc

namespace Flock

variable {κ : Type} [DecidableEq κ]

section Effects

variable {cfg : Config κ} {s s' : State κ} {a : Action κ} {k : κ} {e : Effect κ}

/-- What the phase of a process says about the file. -/
def Phase.Fits (cfg : Config κ) (k : κ) (file : Option (List UInt8)) : Phase → Prop
  | .clearing note => cfg.Describes k note ∧ file.isSome = true
  | .seeking note => cfg.Describes k note ∧ file = some []
  | .writing note offset => cfg.Describes k note ∧ file = some [] ∧ offset = 0
  | .holding note | .erasing note =>
    cfg.Describes k note ∧ file.bind cfg.codec.fromStr = some note
  | .unlocking => file = some []
  | .created _ | .locking _ _ | .contended _ _ | .sleeping _ _ _ => file.isSome = true
  | .probeLocking | .probeUnlocking => file.isSome = true
  | .idle | .dead | .creating _ | .opening _ | .reading _ | .probing => True

/-- The process has taken the lock, and cleared the file. -/
def Phase.Cleared : Phase → Bool
  | .seeking _ | .writing _ _ | .holding _ | .erasing _ | .unlocking => true
  | _ => false

/-- **What the effect of an action may be.** -/
structure Effect.Ok (cfg : Config κ) (s : State κ) (k : κ) (e : Effect κ) : Prop where
  /-- It leaves the flock alone, takes it where it is free, or lets go of it. -/
  lock : (e.flock = s.flock ∧ e.phase.Owns = (s.phase k).Owns)
    ∨ (s.flock = none ∧ e.flock = some k ∧ e.phase.Owns = true)
    ∨ ((s.phase k).Owns = true ∧ e.flock = none ∧ e.phase.Owns = false)
  /-- It leaves the file alone, creates it, or has taken the lock. -/
  file : e.file = s.file ∨ (s.file = none ∧ e.file = some [])
    ∨ ((s.phase k).Locked = true ∧ e.phase.Cleared = true ∧ e.file.isSome = true)
  fits : e.phase.Fits cfg k e.file
  dropped : e.dropped = true → e.phase.Locked = false ∧ e.file = some []
    ∧ (s.dropped = true ∨ (s.phase k).Owns = true)

theorem writeAt_nil (data : List UInt8) : writeAt [] 0 data = data := by
  unfold writeAt
  simp

section Spec

variable {q : Phase}

omit [DecidableEq κ] in
/-- It goes on without touching file or flock, or returns. -/
theorem ok_quiet (p : Phase) (hq : s.phase k = q) (howns : p.Owns = q.Owns)
    (hlocked : p.Locked = q.Locked)
    (hdropped : s.dropped = true → s.file = some [] ∧ q.Locked = false)
    (hfits : p.Fits cfg k s.file) {result : Option Result} :
    Effect.Ok cfg s k ⟨s.file, s.flock, s.dropped, p, result⟩ where
  lock := .inl ⟨rfl, by rw [hq]; exact howns⟩
  file := .inl rfl
  fits := hfits
  dropped h := ⟨hlocked.trans (hdropped h).2, (hdropped h).1, .inl h⟩

omit [DecidableEq κ] in
/-- **An operation.** -/
theorem ok_op (hcodec : cfg.codec.Faithful) (hfits : (s.phase k).Fits cfg k s.file)
    (hdropped : s.dropped = true → s.file = some [] ∧ (s.phase k).Locked = false)
    {unixSecs : UInt64} (h : s.op cfg k unixSecs = some e) : e.Ok cfg s k := by
  unfold State.op at h
  split at h
  all_goals rename_i hphase
  all_goals rw [hphase] at hfits hdropped
  -- creating
  · obtain rfl := Option.some.inj h
    refine ⟨.inl ⟨rfl, by rw [hphase]; rfl⟩, ?_, rfl, fun hd => ?_⟩
    · cases hfile : s.file with
      | none => exact .inr (.inl ⟨rfl, rfl⟩)
      | some content => exact .inl rfl
    · show _ ∧ some (s.file.getD []) = some [] ∧ _
      rw [(hdropped hd).1]
      exact ⟨rfl, rfl, .inl hd⟩
  -- created
  · obtain rfl := Option.some.inj h
    exact ok_quiet (.locking _ _) hphase rfl rfl hdropped hfits
  -- locking
  · split at h
    · rename_i hfree
      obtain rfl := Option.some.inj h
      exact ⟨.inr (.inl ⟨hfree, rfl, rfl⟩), .inl rfl, ⟨⟨rfl, rfl⟩, hfits⟩, nofun⟩
    · obtain rfl := Option.some.inj h
      exact ok_quiet (.contended _ _) hphase rfl rfl hdropped hfits
  -- contended
  · split at h
    · obtain rfl := Option.some.inj h
      exact ok_quiet (.opening (.take _)) hphase rfl rfl hdropped trivial
    · obtain rfl := Option.some.inj h
      exact ok_quiet (.sleeping _ _ _) hphase rfl rfl hdropped hfits
  -- sleeping
  · split at h
    · obtain rfl := Option.some.inj h
      exact ok_quiet (.locking _ _) hphase rfl rfl hdropped hfits
    · simp at h
  -- clearing
  · obtain rfl := Option.some.inj h
    exact ⟨.inl ⟨rfl, by rw [hphase]; rfl⟩, .inr (.inr ⟨by rw [hphase]; rfl, rfl, rfl⟩),
      ⟨hfits.1, rfl⟩, fun hd => absurd (hdropped hd).2 nofun⟩
  -- seeking
  · obtain rfl := Option.some.inj h
    exact ok_quiet (.writing _ 0) hphase rfl rfl hdropped ⟨hfits.1, hfits.2, rfl⟩
  -- writing
  · rename_i note offset
    obtain ⟨hdescribes, hfile, rfl⟩ := hfits
    obtain ⟨json, hjson, hread⟩ := hcodec.note note
    rw [hjson, hfile] at h
    obtain rfl := Option.some.inj h
    refine ⟨.inl ⟨rfl, by rw [hphase]; rfl⟩, .inr (.inr ⟨by rw [hphase]; rfl, rfl, rfl⟩),
      ⟨hdescribes, ?_⟩, fun hd => absurd (hdropped hd).2 nofun⟩
    show cfg.codec.fromStr (writeAt [] 0 json) = some note
    rw [writeAt_nil, hread]
  -- erasing
  · obtain rfl := Option.some.inj h
    exact ⟨.inl ⟨rfl, by rw [hphase]; rfl⟩, .inr (.inr ⟨by rw [hphase]; rfl, rfl, rfl⟩),
      rfl, fun hd => absurd (hdropped hd).2 nofun⟩
  -- unlocking
  · obtain rfl := Option.some.inj h
    exact ⟨.inr (.inr ⟨by rw [hphase]; rfl, rfl, rfl⟩), .inl rfl, trivial,
      fun _ => ⟨rfl, hfits, .inr (by rw [hphase]; rfl)⟩⟩
  -- opening
  · split at h
    · obtain rfl := Option.some.inj h
      exact ok_quiet .idle hphase rfl rfl hdropped trivial
    · obtain rfl := Option.some.inj h
      exact ok_quiet (.reading _) hphase rfl rfl hdropped trivial
  -- reading
  · obtain rfl := Option.some.inj h
    exact ok_quiet .idle hphase rfl rfl hdropped trivial
  -- probing
  · split at h
    · obtain rfl := Option.some.inj h
      exact ok_quiet .idle hphase rfl rfl hdropped trivial
    · rename_i hfile
      obtain rfl := Option.some.inj h
      exact ok_quiet .probeLocking hphase rfl rfl hdropped (by rw [hfile]; rfl)
  -- probeLocking
  · split at h
    · rename_i hfree
      obtain rfl := Option.some.inj h
      exact ⟨.inr (.inl ⟨hfree, rfl, rfl⟩), .inl rfl, hfits,
        fun hd => ⟨rfl, (hdropped hd).1, .inl hd⟩⟩
    · obtain rfl := Option.some.inj h
      exact ok_quiet (.opening .status) hphase rfl rfl hdropped trivial
  -- probeUnlocking
  · obtain rfl := Option.some.inj h
    exact ⟨.inr (.inr ⟨by rw [hphase]; rfl, rfl, rfl⟩), .inl rfl, trivial,
      fun hd => ⟨rfl, (hdropped hd).1, .inl hd⟩⟩
  -- idle, dead and holding
  · simp at h
  · simp at h
  · simp at h

omit [DecidableEq κ] in
/-- A call. -/
theorem ok_call (hfits : (s.phase k).Fits cfg k s.file)
    (hdropped : s.dropped = true → s.file = some [] ∧ (s.phase k).Locked = false)
    {f : Routine} (h : s.call k f = some e) : e.Ok cfg s k := by
  unfold State.call at h
  split at h
  all_goals rename_i hphase
  all_goals try rw [hphase] at hfits hdropped
  · obtain rfl := Option.some.inj h
    exact ok_quiet (.creating _) hphase rfl rfl hdropped trivial
  · obtain rfl := Option.some.inj h
    exact ok_quiet (.erasing _) hphase rfl rfl hdropped hfits
  · obtain rfl := Option.some.inj h
    exact ok_quiet (.opening .caller) hphase rfl rfl hdropped trivial
  · obtain rfl := Option.some.inj h
    exact ok_quiet .probing hphase rfl rfl hdropped trivial
  · simp at h

omit [DecidableEq κ] in
/-- An operation that fails. -/
theorem ok_fail
    (hdropped : s.dropped = true → s.file = some [] ∧ (s.phase k).Locked = false)
    (h : s.fail k = some e) : e.Ok cfg s k := by
  unfold State.fail at h
  split at h
  all_goals rename_i hphase
  all_goals try rw [hphase] at hdropped
  · obtain rfl := Option.some.inj h
    exact ok_quiet .idle hphase rfl rfl hdropped trivial
  · obtain rfl := Option.some.inj h
    exact ok_quiet .idle hphase rfl rfl hdropped trivial
  · obtain rfl := Option.some.inj h
    exact ok_quiet .idle hphase rfl rfl hdropped trivial
  · obtain rfl := Option.some.inj h
    exact ok_quiet .idle hphase rfl rfl hdropped trivial
  · simp at h

/-- The end of a process. -/
theorem ok_kill (howner : (s.phase k).Owns = true ↔ s.flock = some k)
    (hdropped : s.dropped = true → s.file = some [] ∧ (s.phase k).Locked = false)
    (h : s.kill k = some e) : e.Ok cfg s k := by
  unfold State.kill at h
  split at h
  · simp at h
  · obtain rfl := Option.some.inj h
    refine ⟨?_, .inl rfl, trivial, fun hd => ⟨rfl, (hdropped hd).1, .inl hd⟩⟩
    by_cases hk : s.flock = some k
    · exact .inr (.inr ⟨howner.mpr hk, if_pos hk, rfl⟩)
    · have howns : (s.phase k).Owns = false := Bool.eq_false_iff.mpr (fun h => hk (howner.mp h))
      exact .inl ⟨if_neg hk, howns.symm⟩

end Spec

/-- **The processes, the flock and the file in order.** -/
structure State.Ok (cfg : Config κ) (s : State κ) : Prop where
  owner : ∀ k, (s.phase k).Owns = true ↔ s.flock = some k
  fits : ∀ k, (s.phase k).Fits cfg k s.file
  dropped : s.dropped = true → s.file = some [] ∧ ∀ k, (s.phase k).Locked = false

theorem Phase.owns_of_locked {p : Phase} (h : p.Locked = true) : p.Owns = true := by
  rw [Phase.Owns, h]
  rfl

omit [DecidableEq κ] in
/-- Who has cleared the file is the one a note in it describes. -/
theorem Phase.Fits.describes (hcodec : cfg.codec.Faithful) {p : Phase}
    {file : Option (List UInt8)} (h : p.Fits cfg k file) (hp : p.Cleared = true)
    {n : LockHolder} (hn : file.bind cfg.codec.fromStr = some n) : cfg.Describes k n := by
  have hempty : ¬ file = some [] := by
    rintro rfl
    exact absurd (hcodec.empty.symm.trans hn) nofun
  cases p
  case seeking => exact absurd h.2 hempty
  case writing => exact absurd h.2.1 hempty
  case holding =>
    obtain rfl := Option.some.inj (h.2.symm.trans hn)
    exact h.1
  case erasing =>
    obtain rfl := Option.some.inj (h.2.symm.trans hn)
    exact h.1
  case unlocking => exact absurd h hempty
  all_goals exact absurd hp nofun

omit [DecidableEq κ] in
/-- What the phase of a process without the flock says stays true of a file that
is not unlinked. -/
theorem Phase.Fits.of_not_owns {p : Phase} {file file' : Option (List UInt8)}
    (h : p.Fits cfg k file) (howns : p.Owns = false)
    (hfile : file.isSome = true → file'.isSome = true) : p.Fits cfg k file' := by
  cases p
  case created | locking | contended | sleeping | probeLocking => exact hfile h
  case idle | dead | creating | opening | reading | probing => trivial
  all_goals exact absurd howns nofun

omit [DecidableEq κ] in
/-- Nobody has the flock of a file that is not there. -/
theorem Phase.Fits.isSome {p : Phase} {file : Option (List UInt8)} (h : p.Fits cfg k file)
    (howns : p.Owns = true) : file.isSome = true := by
  cases file with
  | some content => rfl
  | none =>
    cases p
    case clearing => exact h.2
    case seeking => exact absurd h.2 nofun
    case writing => exact absurd h.2.1 nofun
    case holding => exact absurd h.2 nofun
    case erasing => exact absurd h.2 nofun
    case unlocking => exact absurd h nofun
    case probeUnlocking => exact h
    all_goals exact absurd howns nofun

namespace State.Ok

omit [DecidableEq κ] in
theorem of_initial (h : s.Initial) : s.Ok cfg where
  owner k := by
    rw [h.phase k, h.flock]
    exact iff_of_false nofun nofun
  fits k := by
    rw [h.phase k]
    trivial
  dropped hd := absurd (h.dropped.symm.trans hd) nofun

theorem effect (hcodec : cfg.codec.Faithful) (h : s.Ok cfg)
    (he : s.effect cfg a = some (k, e)) : e.Ok cfg s k := by
  have hdropped (hd : s.dropped = true) : s.file = some [] ∧ (s.phase k).Locked = false :=
    ⟨(h.dropped hd).1, (h.dropped hd).2 k⟩
  rcases effect_eq_some.mp he with ⟨f, -, hcall⟩ | ⟨u, -, hop⟩ | ⟨-, hfail⟩ | ⟨-, hkill⟩
  · exact ok_call (h.fits k) hdropped hcall
  · exact ok_op hcodec (h.fits k) hdropped hop
  · exact ok_fail hdropped hfail
  · exact ok_kill (h.owner k) hdropped hkill

omit [DecidableEq κ] in
theorem owner_unique {j : κ} (h : s.Ok cfg) (hj : (s.phase j).Owns = true)
    (hk : (s.phase k).Owns = true) : j = k :=
  Option.some.inj (((h.owner j).mp hj).symm.trans ((h.owner k).mp hk))

/-- **Every effect keeps the order.** -/
theorem apply (h : s.Ok cfg) (he : e.Ok cfg s k) : (s.apply k e).look.Ok cfg := by
  have hother {j : κ} (hj : j ≠ k) : e.flock = some j ↔ s.flock = some j := by
    rcases he.lock with ⟨hflock, -⟩ | ⟨hfree, hflock, -⟩ | ⟨howns, hflock, -⟩
    · rw [hflock]
    · rw [hflock, hfree]
      exact iff_of_false (fun heq => hj (Option.some.inj heq).symm) nofun
    · rw [hflock, (h.owner k).mp howns]
      exact iff_of_false nofun (fun heq => hj (Option.some.inj heq).symm)
  refine ⟨fun j => ?_, fun j => ?_, fun hd => ?_⟩
  · show (Function.update s.phase k e.phase j).Owns = true ↔ e.flock = some j
    by_cases hj : j = k
    · subst hj
      rw [Function.update_self]
      rcases he.lock with ⟨hflock, howns⟩ | ⟨-, hflock, howns⟩ | ⟨-, hflock, howns⟩
      · rw [howns, hflock]
        exact h.owner j
      · exact iff_of_true howns hflock
      · rw [howns, hflock]
        exact iff_of_false nofun nofun
    · rw [Function.update_of_ne hj, hother hj]
      exact h.owner j
  · show (Function.update s.phase k e.phase j).Fits cfg j e.file
    by_cases hj : j = k
    · subst hj
      rw [Function.update_self]
      exact he.fits
    · rw [Function.update_of_ne hj]
      rcases he.file with hfile | ⟨hnone, hsome⟩ | ⟨hlocked, -, hsome⟩
      · rw [hfile]
        exact h.fits j
      · have hfits := h.fits j
        rw [hnone] at hfits
        have howns : (s.phase j).Owns = false :=
          Bool.eq_false_iff.mpr (fun howns => absurd (hfits.isSome howns) nofun)
        exact hfits.of_not_owns howns nofun
      · have howns : (s.phase j).Owns = false := Bool.eq_false_iff.mpr
          (fun howns => hj (h.owner_unique howns (Phase.owns_of_locked hlocked)))
        exact (h.fits j).of_not_owns howns (fun _ => hsome)
  · obtain ⟨hlocked, hfile, hbefore⟩ := he.dropped hd
    refine ⟨hfile, fun j => ?_⟩
    show (Function.update s.phase k e.phase j).Locked = false
    by_cases hj : j = k
    · subst hj
      rw [Function.update_self]
      exact hlocked
    · rw [Function.update_of_ne hj]
      rcases hbefore with hbefore | howns
      · exact (h.dropped hbefore).2 j
      · exact Bool.eq_false_iff.mpr
          (fun hlocked => hj (h.owner_unique (Phase.owns_of_locked hlocked) howns))

theorem step (hcodec : cfg.codec.Faithful) (h : s.Ok cfg)
    (hstep : Flock.step cfg s a = some s') : s'.Ok cfg := by
  rcases step_cases hstep with ⟨d, -, rfl⟩ | ⟨k, e, he, rfl⟩
  · exact ⟨h.owner, h.fits, h.dropped⟩
  · exact h.apply (h.effect hcodec he)

end State.Ok

/-! ## What readers find -/

omit [DecidableEq κ] in
/-- `read_lock_holder` returns what is in the file when its last operation is
executed. -/
theorem read_op {unixSecs : UInt64} (h : s.op cfg k unixSecs = some e) {r : Result}
    (hr : e.result = some r) {n : Option LockHolder} (hn : r.read = some n) :
    n = s.note cfg := by
  have hresult {back : Reader} {m : Option LockHolder} (h : (back.result m).read = some n) :
      n = m := by
    cases back
    all_goals exact (Option.some.inj h).symm
  unfold State.op at h
  split at h
  case h_8 =>
    obtain rfl := Option.some.inj h
    obtain rfl := Option.some.inj hr
    exact absurd hn nofun
  case h_11 =>
    split at h
    · rename_i hfile
      obtain rfl := Option.some.inj h
      obtain rfl := Option.some.inj hr
      rw [hresult hn, State.note, hfile]
      rfl
    · obtain rfl := Option.some.inj h
      exact absurd hr nofun
  case h_12 =>
    obtain rfl := Option.some.inj h
    obtain rfl := Option.some.inj hr
    exact hresult hn
  case h_13 =>
    split at h
    · obtain rfl := Option.some.inj h
      obtain rfl := Option.some.inj hr
      exact absurd hn nofun
    · obtain rfl := Option.some.inj h
      exact absurd hr nofun
  case h_15 =>
    obtain rfl := Option.some.inj h
    obtain rfl := Option.some.inj hr
    exact absurd hn nofun
  -- the others do not return
  all_goals try split at h
  all_goals first
    | obtain rfl := Option.some.inj h
      exact absurd hr nofun
    | exact absurd h nofun

theorem read_effect (h : s.effect cfg a = some (k, e)) {r : Result}
    (hr : e.result = some r) {n : Option LockHolder} (hn : r.read = some n) :
    n = s.note cfg := by
  rcases effect_eq_some.mp h with ⟨f, -, hcall⟩ | ⟨u, -, hop⟩ | ⟨-, hfail⟩ | ⟨-, hkill⟩
  · unfold State.call at hcall
    split at hcall
    all_goals first
      | obtain rfl := Option.some.inj hcall
        exact absurd hr nofun
      | exact absurd hcall nofun
  · exact read_op hop hr hn
  · unfold State.fail at hfail
    split at hfail
    all_goals first
      | obtain rfl := Option.some.inj hfail
        obtain rfl := Option.some.inj hr
        exact absurd hn nofun
      | exact absurd hfail nofun
  · unfold State.kill at hkill
    split at hkill
    · exact absurd hkill nofun
    · obtain rfl := Option.some.inj hkill
      exact absurd hr nofun

/-- What a step adds to the log is what the process returns. -/
theorem State.log_apply {entry : Entry κ}
    (h : (s.apply k e).look.log = s.log ++ [entry]) :
    e.result = some entry.result ∧ entry = ⟨k, entry.result, s.seen k⟩ := by
  have hlog : s.log ++ e.result.toList.map (fun r => ⟨k, r, s.seen k⟩) = s.log ++ [entry] := h
  have hentry := List.append_cancel_left hlog
  cases hr : e.result with
  | none =>
    rw [hr] at hentry
    exact absurd hentry nofun
  | some r =>
    rw [hr] at hentry
    obtain rfl := (List.cons.inj hentry).1
    exact ⟨rfl, rfl⟩

/-- The content of the file; before it is created there is none. -/
def State.content (s : State κ) : List UInt8 := s.file.getD []

end Effects

/-- **The note follows its holder.** In every state of every run of any number of
processes:

* at most one of them has taken the lock and not let go of it;
* only the process that has the flock changes the content of the file;
* where a `take` has returned and its `RigLock` is not yet dropped, the file is
  there, and what is in it is the note of that process;
* where the last process to take the lock has dropped it, there is no note;
* and that is what a `read_lock_holder` returns whose last operation is executed
  in that state, whoever called it. -/
theorem note_follows_holder (cfg : Config κ) (hcodec : cfg.codec.Faithful)
    {s₀ s : State κ} {actions : List (Action κ)} (hinit : s₀.Initial)
    (hrun : Transition.run (step cfg) s₀ actions = some s) :
    (∀ j k, (s.phase j).Locked = true → (s.phase k).Locked = true → j = k)
      ∧ (∀ a s', step cfg s a = some s' → s'.content ≠ s.content →
          ∃ k, a.process = some k ∧ s.flock = some k)
      ∧ (∀ k note, s.phase k = .holding note →
          cfg.Describes k note ∧ s.file.isSome = true ∧ s.note cfg = some note)
      ∧ (s.dropped = true → s.note cfg = none)
      ∧ ∀ a s' entry n, step cfg s a = some s' → s'.log = s.log ++ [entry] →
          entry.result.read = some n → n = s.note cfg := by
  have hok : s.Ok cfg :=
    Transition.run_preserves (fun _ _ _ h => State.Ok.step hcodec h)
      (State.Ok.of_initial hinit) hrun
  refine ⟨fun j k hj hk => ?_, fun a s' hstep hne => ?_, fun k note hphase => ?_,
    fun hdropped => ?_, fun a s' entry n hstep hlog hn => ?_⟩
  · exact hok.owner_unique (Phase.owns_of_locked hj) (Phase.owns_of_locked hk)
  · rcases step_cases hstep with ⟨d, -, rfl⟩ | ⟨k, e, he, rfl⟩
    · exact absurd rfl hne
    · rcases (hok.effect hcodec he).file with hfile | ⟨hnone, hsome⟩ | ⟨hlocked, -⟩
      · have hsame : ((s.apply k e).look).content = s.content := by
          show e.file.getD [] = s.file.getD []
          rw [hfile]
        exact absurd hsame hne
      · have hsame : ((s.apply k e).look).content = s.content := by
          show e.file.getD [] = s.file.getD []
          rw [hnone, hsome]
          rfl
        exact absurd hsame hne
      · refine ⟨k, ?_, (hok.owner k).mp (Phase.owns_of_locked hlocked)⟩
        rcases effect_eq_some.mp he with ⟨f, rfl, -⟩ | ⟨u, rfl, -⟩ | ⟨rfl, -⟩ | ⟨rfl, -⟩
        all_goals rfl
  · have hfits := hok.fits k
    rw [hphase] at hfits
    have hsome := (hok.fits k).isSome (by rw [hphase]; rfl)
    exact ⟨hfits.1, hsome, hfits.2⟩
  · rw [State.note, (hok.dropped hdropped).1]
    exact hcodec.empty
  · rcases step_cases hstep with ⟨d, -, rfl⟩ | ⟨k, e, he, rfl⟩
    · exact absurd hlog (by simp)
    · exact read_effect he (State.log_apply hlog).1 hn

/-- Processes whose pids are their numbers, with a lock file that nobody has created
yet. -/
def ci : Config ℕ := ⟨fun _ => "ci", UInt32.ofNat, .serdeJson⟩

/-- There is no lock file yet, and nobody does anything. -/
def noFile : State ℕ := ⟨0, none, none, fun _ => .idle, false, fun _ => [], []⟩

theorem noFile_initial : noFile.Initial :=
  ⟨rfl, fun _ => rfl, rfl, fun _ => rfl, rfl⟩

/-- Process 1 takes the lock; process 2 does not wait for it, and is told who has it;
process 1 drops it; process 2 looks who has it now. -/
def handover : List (Action ℕ) :=
  [.call 1 (.take 0), .op 1 0, .op 1 0, .op 1 1700000000, .op 1 0, .op 1 0, .op 1 0,
    .call 2 (.take 0), .op 2 0, .op 2 0, .op 2 0, .op 2 0, .op 2 0, .op 2 0,
    .call 1 .drop, .op 1 0, .op 1 0,
    .call 2 .readLockHolder, .op 2 0, .op 2 0]

theorem handover_notes :
    ∃ s, Transition.run (step ci) noFile handover = some s
      ∧ s.log.map (fun entry => (entry.process, entry.result))
        = [(1, .taken), (2, .refused 0 (some ⟨"ci", 1, 1700000000⟩)), (2, .note none)]
      ∧ s.note ci = none := by
  have hend : (Transition.run (step ci) noFile handover).map
      (fun s => (s.log.map (fun entry => (entry.process, entry.result)), s.dropped))
        = some ([(1, .taken), (2, .refused 0 (some ⟨"ci", 1, 1700000000⟩)),
          (2, .note none)], true) := by
    decide +kernel
  obtain ⟨s, hrun, hs⟩ := Option.map_eq_some_iff.mp hend
  obtain ⟨hlog, hdropped⟩ := Prod.mk.inj hs
  exact ⟨s, hrun, hlog, (note_follows_holder ci NoteCodec.serdeJson_faithful noFile_initial
    hrun).2.2.2.1 hdropped⟩

end Flock

end Banc
