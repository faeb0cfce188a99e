import Mathlib.Data.Fintype.Card
import Banc.Assistant.Requests
import Banc.Lib.Custody
import Banc.Lib.Transition

/-!
# The pins are conserved

A pin is in its slot of the table, or a monitor has it: at each `await` of each task,
in any order of their turns, and whatever becomes of their replies. So what the GPIO
handlers see in the table tells them who has the pin.
-/

namespace Banc

namespace Assistant

variable {s s' : State} {a : Action} {turn : Turn} {e : Effect} {t : Task} {i : TaskId}

/-! ## The GPIO handlers

Three handlers with one course: the range, the lock, the slot. What is proved of `withPin` is
proved of all of them. -/

section Handlers

variable {ρ : Type} {slots : PinSlots} {idx : Pin}

/-- A handler puts a driver where there was one, or leaves the table as it is. -/
theorem withPin_slots (f : Flex → Flex × ρ) :
    (withPin slots idx f).2 = slots
      ∨ ∃ pin, (slots idx).isSome = true
          ∧ (withPin slots idx f).2 = Function.update slots idx (some pin) := by
  unfold withPin
  split
  case h_1 => exact .inl rfl
  case h_2 pin hslot => exact .inr ⟨(f pin).1, by rw [hslot]; rfl, rfl⟩

/-- It says `Busy` exactly if there was none. -/
theorem withPin_fst (f : Flex → Flex × ρ) :
    (slots idx = none ∧ (withPin slots idx f).1 = .error .busy)
      ∨ (slots idx ≠ none ∧ ∃ r, (withPin slots idx f).1 = .ok r) := by
  unfold withPin
  split
  case h_1 hslot => exact .inl ⟨hslot, rfl⟩
  case h_2 pin hslot => exact .inr ⟨by rw [hslot]; exact nofun, (f pin).2, rfl⟩

/-- A handler changes a pin that is there, and no other. -/
theorem Gpio.handle_slots (rqst : Gpio) (pad : Pin → Bool) (slots : PinSlots) (idx : Pin) :
    (rqst.handle pad slots idx).2 = slots
      ∨ ∃ pin, (slots idx).isSome = true
          ∧ (rqst.handle pad slots idx).2 = Function.update slots idx (some pin) := by
  cases rqst with
  | config rqst => exact withPin_slots _
  | set rqst => exact withPin_slots _
  | read rqst => exact withPin_slots _

/-- **What a handler answers**, when it has the lock. -/
theorem Gpio.handle_error (rqst : Gpio) (pad : Pin → Bool) (slots : PinSlots) (idx : Pin) :
    (rqst.handle pad slots idx).1.error = if slots idx = none then some .busy else none := by
  have hanswer {ρ : Type} (f : Flex → Flex × ρ) (toResponse : Except IcdError ρ → Response)
      (herror : (toResponse (.error .busy)).error = some .busy)
      (hok : ∀ r, (toResponse (.ok r)).error = none) :
      (toResponse (withPin slots idx f).1).error
        = if slots idx = none then some .busy else none := by
    rcases withPin_fst f with ⟨hslot, hfst⟩ | ⟨hslot, r, hfst⟩
    · rw [hfst, if_pos hslot, herror]
    · rw [hfst, if_neg hslot, hok]
  cases rqst with
  | config rqst => exact hanswer _ .ack rfl (fun _ => rfl)
  | set rqst => exact hanswer _ .ack rfl (fun _ => rfl)
  | read rqst => exact hanswer _ .level rfl (fun _ => rfl)

/-- What a handler answers before it has the lock, is the error it was refused with. -/
theorem Gpio.refuse_error (rqst : Gpio) (err : IcdError) :
    (rqst.refuse err).error = some err := by
  cases rqst <;> rfl

end Handlers

/-! ## Slots and owners

The slots are those of `Custody`, and the tasks the owners. A turn of a task is one of the
three moves of custody there, so it is the library's invariant that is carried through the
run. -/

/-- The turn of a task changes what it owns itself. -/
theorem holds_apply : (s.apply i t e).holds
    = Function.update s.holds i (e.phase.bind Phase.holds) := by
  funext j
  show (Function.update s.tasks i _ j).bind _ = _
  by_cases hj : j = i
  · subst hj
    rw [Function.update_self, Function.update_self]
    cases e.phase <;> rfl
  · rw [Function.update_of_ne hj, Function.update_of_ne hj]
    rfl

/-- What a task owns is in its phase. -/
theorem holds_of_task (ht : s.tasks i = some t) : s.holds i = t.phase.holds := by
  rw [State.holds, ht]
  rfl

/-- A task that is spawned owns nothing yet. -/
theorem holds_update_of_none {j : TaskId} {rqst : PinMonitor} {n : ℕ}
    (hfree : s.tasks j = none) :
    (fun i => (Function.update s.tasks j (some ⟨n, rqst, .spawned⟩) i).bind
      (fun t => t.phase.holds)) = s.holds := by
  funext i
  by_cases hi : i = j
  · subst hi
    rw [Function.update_self, State.holds, hfree]
    rfl
  · rw [Function.update_of_ne hi]
    rfl

/-- **What a turn does to the pins.** It leaves them where they are, or the task takes
one, or puts one back. -/
theorem Path.custody (hpath : Path s t turn e) :
    (e.slots = s.slots ∧ e.phase.bind Phase.holds = t.phase.holds)
      ∨ (∃ idx, (s.slots idx).isSome = true ∧ e.stop idx = false ∧ t.phase = .locking idx
          ∧ e.slots = Function.update s.slots idx none
          ∧ e.phase.bind Phase.holds = some idx)
      ∨ ∃ idx pin, t.phase.holds = some idx
          ∧ e.slots = Function.update s.slots idx (some pin)
          ∧ e.phase.bind Phase.holds = none := by
  cases hpath with
  | unsupported hphase | signal hphase | lock hphase | busy hphase | finish hphase
  | unconfirmed hphase =>
    refine .inl ⟨rfl, ?_⟩
    rw [hphase]
    rfl
  | take hphase hslot =>
    exact .inr (.inl ⟨_, by rw [hslot]; rfl, Function.update_self .., hphase, rfl, rfl⟩)
  | put hout => exact .inl ⟨rfl, Task.holds_of_outgoing hout⟩
  -- a monitor in its loop has the pin before and after, whatever the `select` says
  | stopped hselect | edge hselect | wait hselect =>
    exact .inl ⟨rfl, hselect.holds.symm⟩
  | restore hphase => exact .inr (.inr ⟨_, _, by rw [hphase]; rfl, rfl, rfl⟩)

/-- An edge changes no owner. -/
theorem holds_edge (p : Pin) :
    (fun i => ((s.tasks i).map (Task.edge p)).bind (fun t => t.phase.holds)) = s.holds := by
  funext i
  rw [State.holds]
  cases s.tasks i with
  | none => rfl
  | some t => exact t.edge_holds p

/-- A task gets a pin from its slot, and resets the signal. -/
theorem Steps.take_of_holds (h : Steps s a s') {p : Pin} (hnot : s.holds i ≠ some p)
    (hi : s'.holds i = some p) :
    (s.slots p).isSome = true ∧ s'.stop p = false
      ∧ ∃ t, s.tasks i = some t ∧ t.phase = .locking p := by
  cases h with
  | send | receive | tick => exact absurd hi hnot
  | edge q =>
    replace hi : (fun i => ((s.tasks i).map (Task.edge q)).bind _) i = some p := hi
    rw [holds_edge] at hi
    exact absurd hi hnot
  | dispatch hpath =>
    -- the dispatcher has no pins to give
    cases hpath with
    | spawn _ _ hfree =>
      rw [← holds_update_of_none hfree] at hnot
      exact absurd hi hnot
    | full | unsupported | lock | handle | put | finish => exact absurd hi hnot
  | @task j t turn e ht hpath =>
    rw [holds_apply] at hi
    by_cases hij : i = j
    · subst hij
      rw [Function.update_self] at hi
      rw [holds_of_task ht] at hnot
      rcases hpath.custody with ⟨-, hsame⟩ | ⟨idx, hsome, hstop, hlocking, -, hidx⟩
        | ⟨_, _, -, -, hnone⟩
      · exact absurd (hsame.symm.trans hi) hnot
      · obtain rfl := Option.some.inj (hidx.symm.trans hi)
        exact ⟨hsome, hstop, t, ht, hlocking⟩
      · exact absurd (hnone.symm.trans hi) nofun
    · rw [Function.update_of_ne hij] at hi
      exact absurd hi hnot

/-- **The pins are in their slots, or owned.** -/
def State.Conserved (s : State) : Prop := Custody.Conserved s.slots s.holds

namespace State.Conserved

/-- All pins are in their slots. -/
theorem start (pad : Pin → Bool) (now : UInt64) : (start pad now).Conserved :=
  Custody.Conserved.of_full (fun _ => rfl) (fun _ => rfl)

/-- **A pin is where it was, or is taken out of its slot, or put back.** The one step in which a
task takes a pin is the one in which the slot is emptied. -/
theorem step (h : s.Conserved) (hsteps : Steps s a s') : s'.Conserved := by
  cases hsteps with
  | send | receive | tick => exact h
  | edge p =>
    unfold State.Conserved at h
    rw [← holds_edge p] at h
    exact h
  | dispatch hpath =>
    cases hpath with
    | spawn _ _ hfree =>
      unfold State.Conserved at h
      rw [← holds_update_of_none hfree] at h
      exact h
    | full | unsupported | lock | put | finish => exact h
    | @handle n rqst idx =>
      show Custody.Conserved (rqst.handle s.pad s.slots idx).2 s.holds
      rcases rqst.handle_slots s.pad s.slots idx with hslots | ⟨pin, hsome, hslots⟩
      · rw [hslots]
        exact h
      · rw [hslots]
        exact Custody.Conserved.store h hsome pin
  | @task i t turn e ht hpath =>
    show Custody.Conserved e.slots (s.apply i t e).holds
    rw [holds_apply]
    have hholds := holds_of_task ht
    rcases hpath.custody with ⟨hslots, hsame⟩ | ⟨idx, hsome, -, hlocking, hslots, hidx⟩
      | ⟨idx, pin, hidx, hslots, hnone⟩
    · rw [hslots, hsame, ← hholds, Function.update_eq_self]
      exact h
    -- the slot that is emptied was full, and the task owned nothing
    · rw [hslots, hidx]
      exact Custody.Conserved.take h hsome (hholds.trans (by rw [hlocking]; rfl))
    -- the slot that is filled was empty, for the task owned the pin
    · rw [hslots, hnone]
      exact Custody.Conserved.give h (hholds.trans hidx) pin

end State.Conserved

/-- **What holds in every reachable state.** -/
structure State.Sound (s : State) : Prop where
  numbered : s.Numbered
  conserved : s.Conserved

namespace State.Sound

/-- Both hold at the start. -/
theorem start (pad : Pin → Bool) (now : UInt64) : (start pad now).Sound :=
  ⟨.start pad now, .start pad now⟩

/-- Both invariants are kept by a step. -/
theorem step (h : s.Sound) (hstep : step s a = some s') : s'.Sound :=
  ⟨h.numbered.step (.of_step hstep), h.conserved.step (.of_step hstep)⟩

/-- **And so by a run.** -/
theorem run (h : s.Sound) {actions : List Action}
    (hrun : Transition.run Assistant.step s actions = some s') : s'.Sound :=
  Transition.run_preserves (fun _ _ _ h hstep => h.step hstep) h hrun

end State.Sound

/-! ## What the handlers answer

With the pins conserved, an empty slot says that there is an owner, and so does a `Busy`. -/

/-- A handler has returned the response. -/
def State.Responded (s : State) (n : ℕ) (response : Response) : Prop :=
  .reply n response ∈ s.wire ∨ ∃ written, s.dispatch = .replying n response written

/-- A GPIO handler returns the response in the next turn of the dispatcher, and its
error tells whether the pin is out of range, or owned by a monitor. -/
def State.Tells (s : State) (n : ℕ) (rqst : Gpio) (response : Response) : Prop :=
  (∃ s', step s (.dispatch .poll) = some s' ∧ s'.dispatch = .replying n response false)
    ∧ (response.error = some .unsupported ↔ pinIndex rqst.pin = none)
    ∧ (response.error = some .busy ↔ ∃ i p, pinIndex rqst.pin = some p ∧ s.holds i = some p)

/-- Each response of a GPIO handler is of a turn in which it tells. -/
theorem responded_step (h : s.Sound) (hstep : step s a = some s') {n : ℕ} {rqst : Gpio}
    {response : Response}
    (hafter : s'.requests[n]? = some (.gpio rqst) ∧ s'.Responded n response) :
    (s.requests[n]? = some (.gpio rqst) ∧ s.Responded n response)
      ∨ (a = .dispatch .poll ∧ s.Tells n rqst response) := by
  obtain ⟨hnumbered, hconserved⟩ := h
  obtain ⟨hrqst, hresponded⟩ := hafter
  have hsteps := Steps.of_step hstep
  -- a request that has been taken was there before
  have hold {n : ℕ} (hn : n < s.taken) (hrqst : s'.requests[n]? = some (.gpio rqst)) :
      s.requests[n]? = some (.gpio rqst) := by
    obtain ⟨more, hmore⟩ := hsteps.requests.1
    rwa [← hmore, List.getElem?_append_left (hn.trans_le hnumbered.taken)] at hrqst
  rcases hresponded with hreply | ⟨written, hdispatch⟩
  -- what is on the wire was returned by the handler before it got there
  · refine .inl ?_
    rcases hsteps.reply_origin hreply with hwire | ⟨-, hphase⟩ | ⟨i, t, _, -, ht, rfl, -⟩
    · exact ⟨hold (hnumbered.replied n response hwire) hrqst, .inl hwire⟩
    · exact ⟨hold (hnumbered.apart n (by rw [hphase]; rfl)).1 hrqst, .inr ⟨_, hphase⟩⟩
    -- a task replies to a request to monitor, which this one is not
    · have hmonitor := hsteps.request (hnumbered.task i t ht).2
      rw [hrqst] at hmonitor
      exact absurd hmonitor nofun
  · have hsame (hdispatch : s.dispatch = .replying n response written) :
        s.requests[n]? = some (.gpio rqst) ∧ s.Responded n response :=
      ⟨hold (hnumbered.apart n (by rw [hdispatch]; rfl)).1 hrqst, .inr ⟨_, hdispatch⟩⟩
    cases hsteps with
    | send | receive | edge | tick | task => exact .inl (hsame hdispatch)
    | dispatch hpath =>
      cases hpath with
      | spawn => exact .inl (hsame hdispatch)
      | full _ hmonitor =>
        obtain ⟨rfl, -, -⟩ := Dispatch.replying.inj hdispatch
        rw [hrqst] at hmonitor
        exact absurd hmonitor nofun
      -- out of range: an error whatever the pins are
      | @unsupported rqst' _ hrqst' hpin =>
        obtain ⟨rfl, rfl, rfl⟩ := Dispatch.replying.inj hdispatch
        obtain rfl : rqst = rqst' := Request.gpio.inj (Option.some.inj (hrqst.symm.trans hrqst'))
        refine .inr ⟨rfl, ⟨_, hstep, rfl⟩, ?_, ?_⟩
        · rw [Gpio.refuse_error]
          exact iff_of_true rfl hpin
        · rw [Gpio.refuse_error]
          refine iff_of_false nofun ?_
          rintro ⟨i, p, hp, -⟩
          rw [hpin] at hp
          exact absurd hp nofun
      | lock => exact absurd hdispatch nofun
      -- in range: the slot decides, and it is empty exactly if a task has the pin
      | @handle seqNo rqst' idx hphase =>
        obtain ⟨rfl, rfl, rfl⟩ := Dispatch.replying.inj hdispatch
        have hfits := hnumbered.dispatch
        rw [hphase] at hfits
        obtain ⟨hrqst', hpin⟩ := hfits
        obtain rfl : rqst = rqst' := Request.gpio.inj (Option.some.inj (hrqst.symm.trans hrqst'))
        refine .inr ⟨rfl, ⟨_, hstep, rfl⟩, ?_, ?_⟩
        · rw [Gpio.handle_error]
          refine iff_of_false ?_ (by rw [hpin]; exact nofun)
          split
          · exact nofun
          · exact nofun
        · rw [Gpio.handle_error]
          constructor
          · intro herror
            split at herror
            case isTrue hslot =>
              obtain ⟨i, hi⟩ := hconserved.slot_eq_none.mp hslot
              exact ⟨i, idx, hpin, hi⟩
            case isFalse => exact absurd herror nofun
          · rintro ⟨i, p, hp, hi⟩
            obtain rfl := Option.some.inj (hpin.symm.trans hp)
            exact if_pos (hconserved.slot_eq_none.mpr ⟨i, hi⟩)
      | put hphase =>
        obtain ⟨rfl, rfl, rfl⟩ := Dispatch.replying.inj hdispatch
        exact .inl ⟨hold (hnumbered.apart _ (by rw [hphase]; rfl)).1 hrqst, .inr ⟨_, hphase⟩⟩
      | finish => exact absurd hdispatch nofun

/-! ## One pin and the others

A request that names one pin is no matter for the rest. -/

/-- The pin number in the request that is worked on. -/
def State.subject (s : State) : Action → Option UInt8
  | .task i _ => (s.tasks i).map (fun t => t.rqst.pin)
  | .dispatch _ =>
    match s.dispatch with
    | .locking _ rqst _ => some rqst.pin
    | .receiving | .replying _ _ _ => none
  | .send _ | .receive | .edge _ _ | .tick _ => none

/-- **A request on one pin leaves the others alone.** -/
theorem others_unchanged (hnumbered : s.Numbered) (hsteps : Steps s a s') {q : Pin}
    (hq : (s.subject a).bind pinIndex ≠ some q) :
    s'.slots q = s.slots q ∧ s'.stop q = s.stop q := by
  cases hsteps with
  | send | receive | edge | tick => exact ⟨rfl, rfl⟩
  | dispatch hpath =>
    cases hpath with
    | spawn | full | unsupported | lock | put | finish => exact ⟨rfl, rfl⟩
    | @handle n rqst idx hphase =>
      have hfits := hnumbered.dispatch
      rw [hphase] at hfits
      have hidx : q ≠ idx := by
        rintro rfl
        refine hq ?_
        have hsubject : s.subject (.dispatch .poll) = some rqst.pin := by
          unfold State.subject
          dsimp only
          rw [hphase]
        rw [hsubject]
        exact hfits.2
      refine ⟨?_, rfl⟩
      show (rqst.handle s.pad s.slots idx).2 q = s.slots q
      rcases rqst.handle_slots s.pad s.slots idx with hslots | ⟨pin, -, hslots⟩
      · rw [hslots]
      · rw [hslots, Function.update_of_ne hidx]
  | @task i t turn e ht hpath =>
    have hsubject : pinIndex t.rqst.pin ≠ some q := by
      have hsubject : s.subject (.task i turn) = some t.rqst.pin := by
        show (s.tasks i).map _ = _
        rw [ht]
        rfl
      rw [hsubject] at hq
      exact hq
    have hother {idx : Pin} (hidx : t.phase.wants = some idx) : q ≠ idx := by
      rintro rfl
      exact hsubject ((hnumbered.fits i t ht).pin q hidx).2
    show e.slots q = s.slots q ∧ e.stop q = s.stop q
    cases hpath with
    | unsupported | lock | busy | put | finish | unconfirmed | edge | wait => exact ⟨rfl, rfl⟩
    | signal _ hpin =>
      refine ⟨rfl, Function.update_of_ne ?_ ..⟩
      rintro rfl
      exact hsubject hpin
    | take hphase =>
      have hidx := hother (by rw [hphase]; rfl)
      exact ⟨Function.update_of_ne hidx .., Function.update_of_ne hidx ..⟩
    | stopped hselect =>
      exact ⟨rfl, Function.update_of_ne (hother (Phase.wants_of_holds hselect.holds)) ..⟩
    | restore hphase =>
      exact ⟨Function.update_of_ne (hother (by rw [hphase]; rfl)) .., rfl⟩

/-- **The pins are conserved.** -/
theorem pins_conserved (pad : Pin → Bool) (now : UInt64) (actions : List Action) (s : State)
    (hrun : Transition.run step (start pad now) actions = some s) :
    (∀ p, ((s.slots p).isSome = true ∧ ∀ i, s.holds i ≠ some p)
        ∨ (s.slots p = none ∧ ∃! i, s.holds i = some p))
      ∧ (∀ n rqst response, s.requests[n]? = some (.gpio rqst) → s.Responded n response →
          ∃ before after u, actions = before ++ .dispatch .poll :: after
            ∧ Transition.run step (start pad now) before = some u ∧ u.Tells n rqst response)
      ∧ (∀ a s' i p, step s a = some s' → s.holds i ≠ some p → s'.holds i = some p →
          ∀ j, s.holds j ≠ some p)
      ∧ (∀ a s' q, step s a = some s' → (s.subject a).bind pinIndex ≠ some q →
          s'.slots q = s.slots q ∧ s'.stop q = s.stop q)
      ∧ (Finset.univ.filter (fun i => (s.holds i).isSome = true)).card ≤ numPins := by
  obtain ⟨hnumbered, hconserved⟩ := (State.Sound.start pad now).run hrun
  refine ⟨hconserved.exclusive, fun n rqst response hrqst hresponded => ?_,
    fun a s' i p hstep hnot hi =>
      (hconserved.slot p).mp ((Steps.of_step hstep).take_of_holds hnot hi).1,
    fun a s' q hstep hq => others_unchanged hnumbered (.of_step hstep) hq, ?_⟩
  · obtain ⟨before, a, after, u, u', rfl, hbefore, hstep, rfl, htells⟩ :=
      Transition.exists_origin
        (I := State.Sound)
        (P := fun u => u.requests[n]? = some (.gpio rqst) ∧ u.Responded n response)
        (E := fun u a _ => a = .dispatch .poll ∧ u.Tells n rqst response)
        (fun _ _ _ h hstep => h.step hstep)
        (fun _ _ _ h hstep hP => responded_step h hstep hP)
        (.start pad now) (by rintro ⟨⟨⟩, -⟩) hrun ⟨hrqst, hresponded⟩
    exact ⟨before, after, u, rfl, hbefore, htells⟩
  · calc (Finset.univ.filter (fun i => (s.holds i).isSome = true)).card
        ≤ Fintype.card Pin := hconserved.card_holders_le
      _ = numPins := Fintype.card_fin _

/-- Two requests to monitor pin 3, and two to read a pin: 3, which is then monitored,
and 9, which there is not. -/
def contestedRun : List Action :=
  [.send (.pinMonitor ⟨3, true⟩), .send (.pinMonitor ⟨3, true⟩),
    .send (.gpio (.read ⟨3⟩)), .send (.gpio (.read ⟨9⟩)),
    .dispatch .poll, .task 0 .poll, .dispatch .poll, .task 1 .poll, .task 0 .poll,
    .task 1 .poll, .task 0 .put, .task 0 (.done true), .task 1 .put,
    .dispatch .poll, .dispatch .poll, .dispatch .put, .dispatch (.done true),
    .dispatch .poll, .dispatch .put]

theorem contestedRun_conserved :
    ∃ s, Transition.run step (start (fun _ => false) 0) contestedRun = some s
      ∧ s.wire = [.reply 0 (.ack (.ok ())), .reply 1 (.ack (.error .busy)),
        .reply 2 (.level (.error .busy)), .reply 3 (.level (.error .unsupported))]
      ∧ s.slots 3 = none ∧ ∃! i, s.holds i = some 3 := by
  have hend : (Transition.run step (start (fun _ => false) 0) contestedRun).map
      (fun s => (s.wire, s.slots 3))
        = some ([.reply 0 (.ack (.ok ())), .reply 1 (.ack (.error .busy)),
          .reply 2 (.level (.error .busy)), .reply 3 (.level (.error .unsupported))], none) := by
    decide +kernel
  obtain ⟨s, hrun, hs⟩ := Option.map_eq_some_iff.mp hend
  obtain ⟨hwire, hslot⟩ := Prod.mk.inj hs
  refine ⟨s, hrun, hwire, hslot, ?_⟩
  rcases (pins_conserved _ _ _ s hrun).1 3 with ⟨hsome, -⟩ | ⟨-, howner⟩
  · rw [hslot] at hsome
    exact absurd hsome nofun
  · exact howner

end Assistant

end Banc
