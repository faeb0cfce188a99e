import Banc.Rig.Holder

/-!
# What `flock_status` sees

`flock_status` tells whether the rig is held by trying to take its lock, and who
holds it by reading the note. Both are done with means the holders use as well:
while it has the lock, nobody else gets it, so another `flock_status` reports the
rig as held and a `take` is turned away; and a note that is read while its holder
is not yet known to have written it may be that of a process killed long before.

Where none of this happens (`Undisturbed`) the function is the observer it is
meant to be: it says that the rig is held, by whom, or that it is free, only if
that was so in some state since it was called, and the run goes on the same, every
`take` with the same outcome, if all its steps are left out (`status_truthful`).
-/

namespace Banc

namespace Flock

variable {κ : Type} [DecidableEq κ]

/-- The process is about to try the lock. -/
def Phase.Tries : Phase → Bool
  | .locking _ _ | .probeLocking => true
  | _ => false

/-- The process has taken the lock, but not yet cleared the file. -/
def Phase.Uncleared : Phase → Bool
  | .clearing _ => true
  | _ => false

/-- **The step does not meet the lock in a `flock_status`'s hands**, and if it is one
of a `flock_status`, it does not meet it in those of a process that has yet to clear
the note of another. -/
def Undisturbed (cfg : Config κ) (s : State κ) : Action κ → Prop
  | .op k _ =>
    ((s.phase k).Tries = true → ∀ j ∈ s.flock, s.phase j ≠ .probeUnlocking)
      ∧ (s.phase k = .probeLocking → ∀ j ∈ s.flock, (s.phase j).Uncleared = true →
        ∀ n ∈ s.note cfg, cfg.Describes j n)
  | _ => True

instance (cfg : Config κ) (s : State κ) : DecidablePred (Undisturbed cfg s)
  | .op _ _ => inferInstanceAs (Decidable (_ ∧ _))
  | .tick _ | .call _ _ | .fail _ | .kill _ => .isTrue trivial

/-- Somebody had a `RigLock`, and if a process is named, then it had. -/
def Held (cfg : Config κ) (n : Option LockHolder) (during : List (Option κ)) : Prop :=
  (∃ k, some k ∈ during) ∧ ∀ h ∈ n, ∃ k, some k ∈ during ∧ cfg.Describes k h

/-- **What a `flock_status` has returned is true**: of what it says, there was a
state since it was called in which it was so. -/
def Entry.Truthful (cfg : Config κ) (entry : Entry κ) : Prop :=
  match entry.result with
  | .status .free => none ∈ entry.during
  | .status (.held n) => Held cfg n entry.during
  | _ => True

/-- The result is one of `flock_status`. -/
def Result.OfStatus : Result → Bool
  | .status _ | .statusFailed => true
  | _ => false

/-- The step is one of `flock_status`. -/
def OfStatus (s : State κ) : Action κ → Prop
  | .tick _ | .kill _ => False
  | .call _ f => f = .flockStatus
  | .op k _ | .fail k => (s.phase k).InStatus = true

instance (s : State κ) : DecidablePred (OfStatus s)
  | .tick _ | .kill _ => .isFalse id
  | .call _ f => inferInstanceAs (Decidable (f = .flockStatus))
  | .op k _ | .fail k => inferInstanceAs (Decidable ((s.phase k).InStatus = true))

/-! ## The steps of `flock_status` -/

section Steps

variable {cfg : Config κ} {s s' : State κ} {a : Action κ} {k : κ} {e : Effect κ}

omit [DecidableEq κ] in
/-- **The operations of `flock_status`**, one after the other. -/
theorem op_status {unixSecs : UInt64} (hk : (s.phase k).InStatus = true)
    (h : s.op cfg k unixSecs = some e) :
    (s.file = none ∧ e = s.returns (.status .free))
      ∨ e = s.next .probeLocking
      ∨ (s.phase k = .probeLocking ∧ s.flock = none
          ∧ e = { s.next .probeUnlocking with flock := some k })
      ∨ (s.phase k = .probeLocking ∧ s.flock ≠ none ∧ e = s.next (.opening .status))
      ∨ (s.phase k = .probeUnlocking ∧ e = { s.returns (.status .free) with flock := none })
      ∨ (s.phase k = .opening .status ∧ e = s.next (.reading .status))
      ∨ ((s.phase k = .opening .status ∨ s.phase k = .reading .status)
          ∧ e = s.returns (.status (.held (s.note cfg)))) := by
  unfold State.op at h
  cases hphase : s.phase k
  case probing =>
    rw [hphase] at h
    dsimp only at h
    split at h
    · rename_i hfile
      exact .inl ⟨hfile, (Option.some.inj h).symm⟩
    · exact .inr (.inl (Option.some.inj h).symm)
  case probeLocking =>
    rw [hphase] at h
    dsimp only at h
    split at h
    · rename_i hfree
      exact .inr (.inr (.inl ⟨rfl, hfree, (Option.some.inj h).symm⟩))
    · rename_i hheld
      exact .inr (.inr (.inr (.inl ⟨rfl, hheld, (Option.some.inj h).symm⟩)))
  case probeUnlocking =>
    rw [hphase] at h
    exact .inr (.inr (.inr (.inr (.inl ⟨rfl, (Option.some.inj h).symm⟩))))
  case opening back =>
    cases back
    case status =>
      rw [hphase] at h
      dsimp only at h
      split at h
      · rename_i hfile
        have hnote : s.note cfg = none := by
          rw [State.note, hfile]
          rfl
        rw [hnote]
        exact .inr (.inr (.inr (.inr (.inr (.inr ⟨.inl rfl, (Option.some.inj h).symm⟩)))))
      · exact .inr (.inr (.inr (.inr (.inr (.inl ⟨rfl, (Option.some.inj h).symm⟩)))))
    all_goals
      rw [hphase] at hk
      exact absurd hk Bool.false_ne_true
  case reading back =>
    cases back
    case status =>
      rw [hphase] at h
      exact .inr (.inr (.inr (.inr (.inr (.inr ⟨.inr rfl, (Option.some.inj h).symm⟩)))))
    all_goals
      rw [hphase] at hk
      exact absurd hk Bool.false_ne_true
  all_goals
    rw [hphase] at hk
    exact absurd hk Bool.false_ne_true

omit [DecidableEq κ] in
/-- Nobody gets into `flock_status` but by calling it, and it alone returns what it
returns. -/
theorem op_not_status {unixSecs : UInt64} (hk : (s.phase k).InStatus = false)
    (h : s.op cfg k unixSecs = some e) :
    e.phase.InStatus = false ∧ ∀ r ∈ e.result, r.OfStatus = false := by
  unfold State.op at h
  split at h
  all_goals rename_i hphase
  all_goals rw [hphase] at hk
  case h_11 back =>
    cases back
    case status => exact absurd hk nofun
    all_goals
      split at h
      all_goals
        obtain rfl := Option.some.inj h
        exact ⟨rfl, by simp [State.next, State.returns, Reader.result, Result.OfStatus]⟩
  case h_12 back =>
    cases back
    case status => exact absurd hk nofun
    all_goals
      obtain rfl := Option.some.inj h
      exact ⟨rfl, by simp [State.returns, Reader.result, Result.OfStatus]⟩
  case h_13 => exact absurd hk nofun
  case h_14 => exact absurd hk nofun
  case h_15 => exact absurd hk nofun
  all_goals try split at h
  all_goals first
    | obtain rfl := Option.some.inj h
      exact ⟨rfl, by simp [State.next, State.returns, Result.OfStatus]⟩
    | exact absurd h nofun

omit [DecidableEq κ] in
/-- Who has a `RigLock` has the flock, and has returned from taking it. -/
theorem rigLock_eq_some {j : κ} :
    s.rigLock = some j ↔ s.flock = some j ∧ (s.phase j).Locked = true := by
  rw [State.rigLock, Option.filter_eq_some_iff]

omit [DecidableEq κ] in
/-- In a state in order there is no other who could have it. -/
theorem State.Ok.rigLock {j : κ} (h : s.Ok cfg) (hj : (s.phase j).Locked = true) :
    s.rigLock = some j :=
  rigLock_eq_some.mpr ⟨(h.owner j).mp (Phase.owns_of_locked hj), hj⟩

omit [DecidableEq κ] in
/-- Nobody has it while the flock is free. -/
theorem rigLock_of_free (h : s.flock = none) : s.rigLock = none := by
  rw [State.rigLock, h]
  rfl

omit [DecidableEq κ] in
/-- Whoever had it during a part of the time had it during the whole. -/
theorem Held.mono {n : Option LockHolder} {during during' : List (Option κ)}
    (h : Held cfg n during) (hsub : during ⊆ during') : Held cfg n during' :=
  ⟨h.1.imp (fun _ hj => hsub hj),
    fun m hm => (h.2 m hm).imp (fun _ hj => ⟨hsub hj.1, hj.2⟩)⟩

/-- **The `flock_status`es under way, and those that have returned, in order.** -/
structure State.Watched (cfg : Config κ) (s : State κ) : Prop where
  ok : s.Ok cfg
  current : ∀ j, (s.phase j).InStatus = true → s.rigLock ∈ s.seen j
  free : ∀ j, s.phase j = .probeUnlocking → none ∈ s.seen j
  held : ∀ j, s.phase j = .opening .status ∨ s.phase j = .reading .status →
    Held cfg (s.note cfg) (s.seen j)
  truthful : ∀ entry ∈ s.log, entry.Truthful cfg

namespace State.Watched

omit [DecidableEq κ] in
/-- Nobody has asked. -/
theorem of_initial (h : s.Initial) : s.Watched cfg where
  ok := .of_initial h
  current j hj := absurd (h.phase j ▸ hj) nofun
  free j hj := absurd ((h.phase j).symm.trans hj) nofun
  held j hj := by
    rw [h.phase j] at hj
    exact absurd hj (by simp)
  truthful entry hentry := by
    rw [h.log] at hentry
    exact absurd hentry List.not_mem_nil

omit [DecidableEq κ] in
/-- A `flock_status` that finds the lock taken, undisturbed. -/
theorem held_of_contended (hcodec : cfg.codec.Faithful) (h : s.Watched cfg)
    {unixSecs : UInt64} (hk : s.phase k = .probeLocking) (hheld : s.flock ≠ none)
    (hundisturbed : Undisturbed cfg s (.op k unixSecs)) :
    Held cfg (s.note cfg) (s.seen k) := by
  obtain ⟨j, hj⟩ := Option.ne_none_iff_exists'.mp hheld
  have hcurrent : s.rigLock ∈ s.seen k := h.current k (by rw [hk]; rfl)
  obtain ⟨hfree, hcleared⟩ := hundisturbed
  have howns := (h.ok.owner j).mpr hj
  -- it is a `take` that has it, and if that has not cleared the file, then the note
  -- is its own
  have hlocked : (s.phase j).Locked = true ∧ ∀ n ∈ s.note cfg, cfg.Describes j n := by
    cases hphase : s.phase j
    case probeUnlocking => exact absurd hphase (hfree (by rw [hk]; rfl) j hj)
    case clearing => exact ⟨rfl, hcleared hk j hj (by rw [hphase]; rfl)⟩
    all_goals
      rw [hphase] at howns
      first
        | exact ⟨rfl, fun n hn => (h.ok.fits j).describes hcodec (by rw [hphase]; rfl) hn⟩
        | exact absurd howns nofun
  rw [h.ok.rigLock hlocked.1] at hcurrent
  exact ⟨⟨j, hcurrent⟩, fun n hn => ⟨j, hcurrent, hlocked.2 n hn⟩⟩

/-- What the process that takes the step has seen. -/
theorem own (hcodec : cfg.codec.Faithful) (h : s.Watched cfg)
    (hundisturbed : Undisturbed cfg s a) (he : s.effect cfg a = some (k, e)) :
    (e.phase = .probeUnlocking → none ∈ s.seen k)
      ∧ (e.phase = .opening .status ∨ e.phase = .reading .status →
        e.file = s.file ∧ Held cfg (s.note cfg) (s.seen k))
      ∧ ∀ r ∈ e.result, Entry.Truthful cfg ⟨k, r, s.seen k⟩ := by
  have hquiet {p : Phase} {result : Option Result} (hp : p.InStatus = false)
      (hr : ∀ r ∈ result, r.OfStatus = false) :
      (p = .probeUnlocking → none ∈ s.seen k)
        ∧ (p = .opening .status ∨ p = .reading .status →
          e.file = s.file ∧ Held cfg (s.note cfg) (s.seen k))
        ∧ ∀ r ∈ result, Entry.Truthful cfg ⟨k, r, s.seen k⟩ := by
    refine ⟨?_, ?_, fun r hmem => ?_⟩
    · rintro rfl
      exact absurd hp nofun
    · rintro (rfl | rfl)
      · exact absurd hp nofun
      · exact absurd hp nofun
    · have hnot := hr r hmem
      cases r
      case status => exact absurd hnot nofun
      all_goals trivial
  have hfree (hk : (s.phase k).InStatus = true) (hflock : s.flock = none) :
      none ∈ s.seen k := by
    rw [← rigLock_of_free hflock]
    exact h.current k hk
  rcases effect_eq_some.mp he with ⟨f, rfl, hcall⟩ | ⟨u, rfl, hop⟩ | ⟨rfl, hfail⟩ | ⟨rfl, hkill⟩
  · unfold State.call at hcall
    split at hcall
    all_goals first
      | obtain rfl := Option.some.inj hcall
        exact hquiet rfl (fun _ => nofun)
      | obtain rfl := Option.some.inj hcall
        exact ⟨nofun, by simp [State.next], fun _ => nofun⟩
      | exact absurd hcall nofun
  · cases hk : (s.phase k).InStatus with
    | false => exact hquiet (op_not_status hk hop).1 (op_not_status hk hop).2
    | true =>
      rcases op_status hk hop with ⟨hfile, rfl⟩ | rfl | ⟨-, hflock, rfl⟩
        | ⟨hphase, hheld, rfl⟩ | ⟨hphase, rfl⟩ | ⟨hphase, rfl⟩ | ⟨hphase, rfl⟩
      · refine ⟨nofun, by simp [State.returns], ?_⟩
        rintro _ ⟨⟩
        refine hfree hk ?_
        cases hflock : s.flock with
        | none => rfl
        | some j =>
          have hsome := (h.ok.fits j).isSome ((h.ok.owner j).mpr hflock)
          rw [hfile] at hsome
          exact absurd hsome nofun
      · exact ⟨nofun, by simp [State.next], fun _ => nofun⟩
      · exact ⟨fun _ => hfree hk hflock, by simp [State.next], fun _ => nofun⟩
      · exact ⟨nofun, fun _ => ⟨rfl, h.held_of_contended hcodec hphase hheld hundisturbed⟩,
          fun _ => nofun⟩
      · refine ⟨nofun, by simp [State.returns], ?_⟩
        rintro _ ⟨⟩
        exact h.free k hphase
      · exact ⟨nofun, fun _ => ⟨rfl, h.held k (.inl hphase)⟩, fun _ => nofun⟩
      · refine ⟨nofun, by simp [State.returns], ?_⟩
        rintro _ ⟨⟩
        exact h.held k hphase
  · unfold State.fail at hfail
    split at hfail
    all_goals first
      | obtain rfl := Option.some.inj hfail
        refine ⟨nofun, by simp [State.returns], ?_⟩
        rintro _ ⟨⟩
        trivial
      | exact absurd hfail nofun
  · unfold State.kill at hkill
    split at hkill
    · exact absurd hkill nofun
    · obtain rfl := Option.some.inj hkill
      exact hquiet rfl (fun _ => nofun)

/-- **It stays so.** What others do only adds to what has been seen; what the asking process
does is to find out a little more, or to return. -/
theorem step (hcodec : cfg.codec.Faithful) (h : s.Watched cfg)
    (hundisturbed : Undisturbed cfg s a) (hstep : Flock.step cfg s a = some s') :
    s'.Watched cfg := by
  have hok : s'.Ok cfg := h.ok.step hcodec hstep
  rcases step_cases hstep with ⟨d, -, rfl⟩ | ⟨k, e, he, rfl⟩
  · exact ⟨hok, h.current, h.free, h.held, h.truthful⟩
  obtain ⟨hfree, hheld, htruthful⟩ := h.own hcodec hundisturbed he
  -- who is in `flock_status` has seen what it had seen, and what there is now
  have hseen {j : κ} (hj : ((s.apply k e).look.phase j).InStatus = true) :
      (s.apply k e).look.seen j = s.seen j ++ [(s.apply k e).look.rigLock] := if_pos hj
  have hsub {j : κ} (hj : ((s.apply k e).look.phase j).InStatus = true) :
      s.seen j ⊆ (s.apply k e).look.seen j := by
    rw [hseen hj]
    exact List.subset_append_left _ _
  have hself : (s.apply k e).look.phase k = e.phase := Function.update_self ..
  have hother {j : κ} (hj : j ≠ k) : (s.apply k e).look.phase j = s.phase j :=
    Function.update_of_ne hj ..
  refine ⟨hok, fun j hj => ?_, fun j hj => ?_, fun j hj => ?_, fun entry hentry => ?_⟩
  · rw [hseen hj]
    exact List.mem_append_right _ (List.mem_singleton_self _)
  · refine hsub (by rw [hj]; rfl) ?_
    by_cases hjk : j = k
    · subst hjk
      exact hfree (hself.symm.trans hj)
    · exact h.free j ((hother hjk).symm.trans hj)
  · have hstatus : ((s.apply k e).look.phase j).InStatus = true := by
      rcases hj with hj | hj
      · rw [hj]
        rfl
      · rw [hj]
        rfl
    have hsame (hfile : e.file = s.file) : (s.apply k e).look.note cfg = s.note cfg := by
      show e.file.bind _ = s.file.bind _
      rw [hfile]
    by_cases hjk : j = k
    · subst hjk
      rw [hself] at hj
      obtain ⟨hfile, hnow⟩ := hheld hj
      rw [hsame hfile]
      exact hnow.mono (hsub hstatus)
    · rw [hother hjk] at hj
      have hbefore := (h.held j hj).mono (hsub hstatus)
      rcases (h.ok.effect hcodec he).file with hfile | ⟨-, hempty⟩ | ⟨-, hcleared, -⟩
      · rw [hsame hfile]
        exact hbefore
      · have hnone : (s.apply k e).look.note cfg = none := by
          show e.file.bind _ = none
          rw [hempty]
          exact hcodec.empty
        rw [hnone]
        exact ⟨hbefore.1, fun _ => nofun⟩
      · -- the process that has changed the file has the lock, and is seen to
        have hlocked : ((s.apply k e).look.phase k).Locked = true := by
          rw [hself]
          cases hphase : e.phase
          all_goals
            rw [hphase] at hcleared
            first
              | rfl
              | exact absurd hcleared nofun
        have hmem : some k ∈ (s.apply k e).look.seen j := by
          rw [hseen hstatus, hok.rigLock hlocked]
          exact List.mem_append_right _ (List.mem_singleton_self _)
        have hfits := hok.fits k
        rw [hself] at hfits
        exact ⟨⟨k, hmem⟩, fun n hn => ⟨k, hmem, hfits.describes hcodec hcleared hn⟩⟩
  · have hlog : entry ∈ s.log ++ e.result.toList.map (fun r => ⟨k, r, s.seen k⟩) := hentry
    rcases List.mem_append.mp hlog with hmem | hmem
    · exact h.truthful entry hmem
    · obtain ⟨r, hr, rfl⟩ := List.mem_map.mp hmem
      exact htruthful r (Option.mem_toList.mp hr)

end State.Watched

/-! ## The run without `flock_status` -/

/-- **The second system is the first, as if nobody were in `flock_status`.** -/
structure Unobserved (cfg : Config κ) (s t : State κ) : Prop where
  ok : s.Ok cfg
  ok' : t.Ok cfg
  now : t.now = s.now
  file : t.file = s.file
  dropped : t.dropped = s.dropped
  phase : ∀ j, t.phase j = if (s.phase j).InStatus then .idle else s.phase j
  log : t.log.map (fun entry => (entry.process, entry.result))
    = (s.log.filter (fun entry => !entry.result.OfStatus)).map
        (fun entry => (entry.process, entry.result))

/-- The effect of an action is the same to the processes. -/
def Effect.Alike (e e' : Effect κ) : Prop :=
  e'.file = e.file ∧ e'.dropped = e.dropped ∧ e'.phase = e.phase ∧ e'.result = e.result

omit [DecidableEq κ] in
/-- An operation looks only at the process, the file, the clock, and whether the lock
is free. -/
theorem op_alike {t : State κ} {unixSecs : UInt64} (hphase : t.phase k = s.phase k)
    (hnow : t.now = s.now) (hfile : t.file = s.file) (hdropped : t.dropped = s.dropped)
    (hflock : ∀ timeout deadline, s.phase k = .locking timeout deadline →
      (t.flock = none ↔ s.flock = none))
    (hk : (s.phase k).InStatus = false) (h : s.op cfg k unixSecs = some e) :
    ∃ e', t.op cfg k unixSecs = some e' ∧ e.Alike e' := by
  have hnote : t.note cfg = s.note cfg := by
    rw [State.note, hfile]
    rfl
  unfold State.op at h ⊢
  rw [hphase]
  cases hp : s.phase k
  all_goals
    rw [hp] at h hk
    dsimp only at h ⊢
  case locking timeout deadline =>
    split at h
    · rename_i hfree
      obtain rfl := Option.some.inj h
      rw [if_pos ((hflock _ _ hp).mpr hfree)]
      exact ⟨_, rfl, hfile, rfl, rfl, rfl⟩
    · rename_i hheld
      obtain rfl := Option.some.inj h
      rw [if_neg (fun hfree => hheld ((hflock _ _ hp).mp hfree))]
      exact ⟨_, rfl, hfile, hdropped, rfl, rfl⟩
  case creating =>
    obtain rfl := Option.some.inj h
    exact ⟨_, rfl, by rw [hfile], hdropped, rfl, rfl⟩
  case created =>
    obtain rfl := Option.some.inj h
    rw [hnow]
    exact ⟨_, rfl, hfile, hdropped, rfl, rfl⟩
  case contended =>
    rw [hnow]
    split at h
    all_goals
      rename_i hdeadline
      obtain rfl := Option.some.inj h
    · rw [if_pos hdeadline]
      exact ⟨_, rfl, hfile, hdropped, rfl, rfl⟩
    · rw [if_neg hdeadline]
      exact ⟨_, rfl, hfile, hdropped, rfl, rfl⟩
  case sleeping =>
    rw [hnow]
    split at h
    · rename_i hwake
      obtain rfl := Option.some.inj h
      rw [if_pos hwake]
      exact ⟨_, rfl, hfile, hdropped, rfl, rfl⟩
    · exact absurd h (Option.some_ne_none e).symm
  case clearing =>
    obtain rfl := Option.some.inj h
    exact ⟨_, rfl, rfl, hdropped, rfl, rfl⟩
  case seeking =>
    obtain rfl := Option.some.inj h
    exact ⟨_, rfl, hfile, hdropped, rfl, rfl⟩
  case writing =>
    obtain rfl := Option.some.inj h
    rw [hfile]
    exact ⟨_, rfl, rfl, hdropped, rfl, rfl⟩
  case erasing =>
    obtain rfl := Option.some.inj h
    exact ⟨_, rfl, rfl, hdropped, rfl, rfl⟩
  case unlocking =>
    obtain rfl := Option.some.inj h
    exact ⟨_, rfl, hfile, rfl, rfl, rfl⟩
  case opening =>
    rw [hfile]
    split at h
    all_goals
      obtain rfl := Option.some.inj h
      exact ⟨_, rfl, hfile, hdropped, rfl, rfl⟩
  case reading =>
    obtain rfl := Option.some.inj h
    rw [hnote]
    exact ⟨_, rfl, hfile, hdropped, rfl, rfl⟩
  case idle => exact absurd h (Option.some_ne_none e).symm
  case dead => exact absurd h (Option.some_ne_none e).symm
  case holding => exact absurd h (Option.some_ne_none e).symm
  -- the rest is `flock_status`
  all_goals exact absurd hk Bool.false_ne_true.symm

namespace Unobserved

variable {t : State κ}

omit [DecidableEq κ] in
/-- Before anybody asks the two runs are one. -/
theorem of_initial (h : s.Initial) : Unobserved cfg s s where
  ok := .of_initial h
  ok' := .of_initial h
  now := rfl
  file := rfl
  dropped := rfl
  phase j := by
    rw [h.phase j]
    rfl
  log := by rw [h.log]; rfl

omit [DecidableEq κ] in
/-- Who does not ask is in both runs where he is in the one. -/
theorem phase_of_not (h : Unobserved cfg s t) (hk : (s.phase k).InStatus = false) :
    t.phase k = s.phase k := by
  rw [h.phase k, hk]
  rfl

omit [DecidableEq κ] in
/-- The lock is free for a `take` that is undisturbed, or for neither. -/
theorem flock_eq_none (h : Unobserved cfg s t)
    (hundisturbed : ∀ j ∈ s.flock, s.phase j ≠ .probeUnlocking) :
    t.flock = none ↔ s.flock = none := by
  refine ⟨fun hfree => ?_, fun hfree => ?_⟩
  · cases hheld : s.flock with
    | none => rfl
    | some j =>
      have howns := (h.ok.owner j).mpr hheld
      have hnot := hundisturbed j hheld
      have hstatus : (s.phase j).InStatus = false := by
        cases hphase : s.phase j
        case probeUnlocking => exact absurd hphase hnot
        all_goals
          rw [hphase] at howns
          first
            | rfl
            | exact absurd howns nofun
      rw [← h.phase_of_not hstatus] at howns
      exact absurd (((h.ok'.owner j).mp howns).symm.trans hfree) nofun
  · cases hheld : t.flock with
    | none => rfl
    | some j =>
      have howns := (h.ok'.owner j).mpr hheld
      rw [h.phase j] at howns
      split at howns
      · exact absurd howns nofun
      · exact absurd (((h.ok.owner j).mp howns).symm.trans hfree) nofun

/-- What a process does outside `flock_status`, it does as well where nobody is in
it. -/
theorem follow (h : Unobserved cfg s t) (hundisturbed : Undisturbed cfg s a)
    (ha : ¬ OfStatus s a) (he : s.effect cfg a = some (k, e)) :
    ∃ e', t.effect cfg a = some (k, e') ∧ e.Alike e' ∧ e.phase.InStatus = false
      ∧ ∀ r ∈ e.result, r.OfStatus = false := by
  rcases effect_eq_some.mp he with ⟨f, rfl, hcall⟩ | ⟨u, rfl, hop⟩ | ⟨rfl, hfail⟩ | ⟨rfl, hkill⟩
  · have hf : f ≠ .flockStatus := ha
    unfold State.call at hcall
    split at hcall
    case h_4 => exact absurd rfl hf
    case h_5 => exact absurd hcall nofun
    all_goals
      rename_i hphase
      have hsame := h.phase_of_not (k := k) (by rw [hphase]; rfl)
      obtain rfl := Option.some.inj hcall
      refine ⟨t.next _, effect_eq_some.mpr (.inl ⟨_, rfl, ?_⟩),
        ⟨h.file, h.dropped, rfl, rfl⟩, rfl, fun _ => nofun⟩
      unfold State.call
      rw [hsame, hphase]
  · have hk : (s.phase k).InStatus = false := Bool.eq_false_iff.mpr ha
    obtain ⟨e', he', halike⟩ := op_alike (h.phase_of_not hk) h.now h.file h.dropped
      (fun timeout deadline hphase =>
        h.flock_eq_none (hundisturbed.1 (by rw [hphase]; rfl))) hk hop
    exact ⟨e', effect_eq_some.mpr (.inr (.inl ⟨u, rfl, he'⟩)), halike, op_not_status hk hop⟩
  · have hk : (s.phase k).InStatus = false := Bool.eq_false_iff.mpr ha
    unfold State.fail at hfail
    split at hfail
    case h_3 hphase => exact absurd (hphase ▸ hk) nofun
    case h_4 hphase => exact absurd (hphase ▸ hk) nofun
    case h_5 => exact absurd hfail nofun
    all_goals
      rename_i hphase
      obtain rfl := Option.some.inj hfail
      refine ⟨t.returns .failed, effect_eq_some.mpr (.inr (.inr (.inl ⟨rfl, ?_⟩))),
        ⟨h.file, h.dropped, rfl, rfl⟩, rfl, ?_⟩
      · unfold State.fail
        rw [h.phase_of_not hk, hphase]
      · rintro _ ⟨⟩
        rfl
  · unfold State.kill at hkill
    split at hkill
    · exact absurd hkill nofun
    · rename_i hdead
      obtain rfl := Option.some.inj hkill
      have hdead' : t.phase k ≠ .dead := by
        rw [h.phase k]
        split
        · exact nofun
        · exact hdead
      refine ⟨{ t.next .dead with flock := if t.flock = some k then none else t.flock },
        effect_eq_some.mpr (.inr (.inr (.inr ⟨rfl, ?_⟩))), ⟨h.file, h.dropped, rfl, rfl⟩, rfl,
        fun _ => nofun⟩
      unfold State.kill
      rw [if_neg hdead']

/-- **A step that is not of an asking process is one of the run without them**, and does there
what it does here. -/
theorem kept (hcodec : cfg.codec.Faithful) (h : Unobserved cfg s t)
    (hundisturbed : Undisturbed cfg s a) (ha : ¬ OfStatus s a)
    (hstep : step cfg s a = some s') : ∃ t', step cfg t a = some t' ∧ Unobserved cfg s' t' := by
  have hok := h.ok.step hcodec hstep
  rcases step_cases hstep with ⟨d, rfl, rfl⟩ | ⟨k, e, he, rfl⟩
  · have hstep' : step cfg t (.tick d) = some { t with now := t.now + d } := rfl
    refine ⟨_, hstep', hok, h.ok'.step hcodec hstep', ?_, h.file, h.dropped, h.phase, h.log⟩
    show t.now + d = s.now + d
    rw [h.now]
  · obtain ⟨e', he', ⟨hfile, hdropped, hphase, hresult⟩, hout, hnot⟩ :=
      h.follow hundisturbed ha he
    have hstep' : step cfg t a = some (t.apply k e').look := by
      cases a
      case tick => exact absurd he' nofun
      all_goals
        show (t.effect cfg _).map _ = _
        rw [he']
        rfl
    refine ⟨_, hstep', hok, h.ok'.step hcodec hstep', h.now, hfile, hdropped, fun j => ?_, ?_⟩
    · show Function.update t.phase k e'.phase j
        = if (Function.update s.phase k e.phase j).InStatus then .idle
          else Function.update s.phase k e.phase j
      by_cases hj : j = k
      · subst hj
        rw [Function.update_self, Function.update_self, hphase, hout]
        rfl
      · rw [Function.update_of_ne hj, Function.update_of_ne hj]
        exact h.phase j
    · show (t.log ++ e'.result.toList.map _).map _
        = ((s.log ++ e.result.toList.map _).filter _).map _
      rw [List.filter_append, List.map_append, List.map_append, h.log, hresult]
      congr 1
      cases hr : e.result with
      | none => rfl
      | some r => simp [hnot r hr]

/-- The steps of `flock_status` leave the file alone, and return nothing to anybody
else. -/
theorem gone (hcodec : cfg.codec.Faithful) (h : Unobserved cfg s t) (ha : OfStatus s a)
    (hstep : step cfg s a = some s') : Unobserved cfg s' t := by
  have hok := h.ok.step hcodec hstep
  rcases step_cases hstep with ⟨d, rfl, rfl⟩ | ⟨k, e, he, rfl⟩
  · exact ha.elim
  have hidle : e.file = s.file ∧ e.dropped = s.dropped
      ∧ (s.phase k = .idle ∨ (s.phase k).InStatus = true)
      ∧ (e.phase = .idle ∨ e.phase.InStatus = true)
      ∧ ∀ r ∈ e.result, r.OfStatus = true := by
    rcases effect_eq_some.mp he with ⟨f, rfl, hcall⟩ | ⟨u, rfl, hop⟩ | ⟨rfl, hfail⟩ | ⟨rfl, -⟩
    · obtain rfl : f = .flockStatus := ha
      unfold State.call at hcall
      cases hphase : s.phase k
      case idle =>
        rw [hphase] at hcall
        obtain rfl := Option.some.inj hcall
        exact ⟨rfl, rfl, .inl rfl, .inr rfl, fun _ => nofun⟩
      all_goals
        rw [hphase] at hcall
        exact absurd hcall nofun
    · have hk : (s.phase k).InStatus = true := ha
      rcases op_status hk hop with ⟨-, rfl⟩ | rfl | ⟨-, -, rfl⟩ | ⟨-, -, rfl⟩ | ⟨-, rfl⟩
        | ⟨-, rfl⟩ | ⟨-, rfl⟩
      · exact ⟨rfl, rfl, .inr hk, .inl rfl, by rintro _ ⟨⟩; rfl⟩
      · exact ⟨rfl, rfl, .inr hk, .inr rfl, fun _ => nofun⟩
      · exact ⟨rfl, rfl, .inr hk, .inr rfl, fun _ => nofun⟩
      · exact ⟨rfl, rfl, .inr hk, .inr rfl, fun _ => nofun⟩
      · exact ⟨rfl, rfl, .inr hk, .inl rfl, by rintro _ ⟨⟩; rfl⟩
      · exact ⟨rfl, rfl, .inr hk, .inr rfl, fun _ => nofun⟩
      · exact ⟨rfl, rfl, .inr hk, .inl rfl, by rintro _ ⟨⟩; rfl⟩
    · have hk : (s.phase k).InStatus = true := ha
      unfold State.fail at hfail
      split at hfail
      case h_1 hphase => exact absurd (hphase ▸ hk) nofun
      case h_2 hphase => exact absurd (hphase ▸ hk) nofun
      case h_5 => exact absurd hfail nofun
      all_goals
        obtain rfl := Option.some.inj hfail
        exact ⟨rfl, rfl, .inr hk, .inl rfl, by rintro _ ⟨⟩; rfl⟩
    · exact ha.elim
  obtain ⟨hfile, hdropped, hbefore, hafter, hresult⟩ := hidle
  refine ⟨hok, h.ok', h.now, h.file.trans hfile.symm, h.dropped.trans hdropped.symm,
    fun j => ?_, ?_⟩
  · show t.phase j = if (Function.update s.phase k e.phase j).InStatus then .idle
      else Function.update s.phase k e.phase j
    by_cases hj : j = k
    · subst hj
      have hidle : t.phase j = .idle := by
        rw [h.phase j]
        rcases hbefore with hbefore | hbefore
        · rw [hbefore]
          rfl
        · rw [if_pos hbefore]
      rw [Function.update_self, hidle]
      rcases hafter with hafter | hafter
      · rw [hafter]
        rfl
      · rw [if_pos hafter]
    · rw [Function.update_of_ne hj]
      exact h.phase j
  · show t.log.map _ = ((s.log ++ e.result.toList.map _).filter _).map _
    rw [List.filter_append, List.map_append, h.log]
    cases hr : e.result with
    | none => exact (List.append_nil _).symm
    | some r => simp [hresult r hr]

end Unobserved

end Steps

/-- **`flock_status` tells the truth and leaves no trace**, wherever it is
undisturbed: what it has returned was so in some state since it was called, and the
run without any of its steps is a run, in which every other function has returned
the same. -/
theorem status_truthful (cfg : Config κ) (hcodec : cfg.codec.Faithful) {s₀ s : State κ}
    {actions : List (Action κ)} (hinit : s₀.Initial)
    (hundisturbed : Transition.Guarded (step cfg) (Undisturbed cfg) s₀ actions)
    (hrun : Transition.run (step cfg) s₀ actions = some s) :
    (∀ entry ∈ s.log, entry.Truthful cfg)
      ∧ ∃ t, Transition.run (step cfg) s₀
            (Transition.without (step cfg) OfStatus s₀ actions) = some t
          ∧ t.log.map (fun entry => (entry.process, entry.result))
            = (s.log.filter (fun entry => !entry.result.OfStatus)).map
                (fun entry => (entry.process, entry.result)) := by
  constructor
  · exact (Transition.run_preserves_of_guarded
      (fun _ _ _ h hok hstep => State.Watched.step hcodec h hok hstep)
      (State.Watched.of_initial hinit) hundisturbed hrun).truthful
  · obtain ⟨t, ht, hR⟩ := Transition.exists_run_without
      (fun _ _ _ _ h hok ha hstep => h.kept hcodec hok ha hstep)
      (fun _ _ _ _ h _ ha hstep => h.gone hcodec ha hstep)
      (Unobserved.of_initial hinit : Unobserved cfg s₀ s₀) hundisturbed hrun
    exact ⟨t, ht, hR.log⟩

/-- One at a time: process 2 asks before anybody has created the lock file, while
process 1 has the lock, and when process 1 has dropped it. -/
def askedRun : List (Action ℕ) :=
  [.call 2 .flockStatus, .op 2 0,
    .call 1 (.take 0), .op 1 0, .op 1 0, .op 1 1700000000, .op 1 0, .op 1 0, .op 1 0,
    .call 2 .flockStatus, .op 2 0, .op 2 0, .op 2 0, .op 2 0,
    .call 1 .drop, .op 1 0, .op 1 0,
    .call 2 .flockStatus, .op 2 0, .op 2 0, .op 2 0]

/-- Each answer was true of some moment of its call. -/
theorem askedRun_truthful :
    ∃ s, Transition.run (step ci) noFile askedRun = some s
      ∧ s.log.map (fun entry => (entry.process, entry.result))
        = [(2, .status .free), (1, .taken),
          (2, .status (.held (some ⟨"ci", 1, 1700000000⟩))), (2, .status .free)]
      ∧ ∀ entry ∈ s.log, entry.Truthful ci := by
  have hend : (Transition.run (step ci) noFile askedRun).map
      (fun s => s.log.map (fun entry => (entry.process, entry.result)))
        = some [(2, .status .free), (1, .taken),
          (2, .status (.held (some ⟨"ci", 1, 1700000000⟩))), (2, .status .free)] := by
    decide +kernel
  obtain ⟨s, hrun, hlog⟩ := Option.map_eq_some_iff.mp hend
  exact ⟨s, hrun, hlog, (status_truthful ci NoteCodec.serdeJson_faithful noFile_initial
    (by decide +kernel) hrun).1⟩

/-! ### Two at a time -/

/-- A lock file that somebody has created. -/
def freeFile : State ℕ := { noFile with file := some [] }

/-- Nobody does anything with it yet. -/
theorem freeFile_initial : freeFile.Initial :=
  ⟨rfl, fun _ => rfl, rfl, fun _ => rfl, rfl⟩

/-- Two processes ask, and the second finds the lock in the hands of the first. -/
def askedTwice : List (Action ℕ) :=
  [.call 1 .flockStatus, .op 1 0, .op 1 0,
    .call 2 .flockStatus, .op 2 0, .op 2 0, .op 2 0, .op 2 0]

/-- **`flock_status` is not always truthful.** The second process is told that the
rig is held, and nobody has a `RigLock`. -/
theorem askedTwice_untruthful :
    ¬ ∀ (cfg : Config ℕ), cfg.codec.Faithful → ∀ (s₀ s : State ℕ) (actions : List (Action ℕ)),
        s₀.Initial → Transition.run (step cfg) s₀ actions = some s →
          (∀ entry ∈ s.log, entry.Truthful cfg)
            ∧ ∃ t, Transition.run (step cfg) s₀
                  (Transition.without (step cfg) OfStatus s₀ actions) = some t
                ∧ t.log.map (fun entry => (entry.process, entry.result))
                  = (s.log.filter (fun entry => !entry.result.OfStatus)).map
                      (fun entry => (entry.process, entry.result)) := by
  intro h
  have hend : (Transition.run (step ci) freeFile askedTwice).map State.log
      = some [⟨2, .status (.held none), [none, none, none, none]⟩] := by
    decide +kernel
  obtain ⟨s, hrun, hlog⟩ := Option.map_eq_some_iff.mp hend
  obtain ⟨htruthful, -⟩ := h ci NoteCodec.serdeJson_faithful freeFile s askedTwice
    freeFile_initial hrun
  have hmem : ⟨2, .status (.held none), [none, none, none, none]⟩ ∈ s.log := by
    rw [hlog]
    exact List.mem_singleton_self _
  obtain ⟨⟨k, hk⟩, -⟩ : Held ci none [none, none, none, none] := htruthful _ hmem
  simp at hk

end Flock

end Banc
