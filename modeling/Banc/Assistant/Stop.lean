import Banc.Assistant.Conserved

/-!
# The stop of a monitor

One signal for each pin is shared by all the monitors the pin ever has. A disable sets
it, whoever has the pin, and a monitor resets it in the turn in which it takes the
pin, and takes it in its `select`. So a stop that is signalled while a monitor has the
pin stays there for that monitor, which has it in its next `select`, and a stop that
is signalled while nobody has the pin is for nobody.
-/

namespace Banc

namespace Assistant

variable {s s' u : State} {a : Action} {turn : Turn} {e : Effect} {t : Task} {i : TaskId}
  {n : ℕ} {p : Pin}

/-- The step is that in which a disable signals the stop of the pin. -/
def Signals (s : State) (a : Action) (p : Pin) : Prop :=
  ∃ j t, a = .task j .poll ∧ s.tasks j = some t ∧ t.phase = .spawned
    ∧ t.rqst.enable = false ∧ pinIndex t.rqst.pin = some p

/-- The task is the monitor that the request has started, and has the pin. -/
def State.Owns (s : State) (i : TaskId) (n : ℕ) (p : Pin) : Prop :=
  ∃ t, s.tasks i = some t ∧ t.seqNo = n ∧ t.phase.holds = some p

/-- The task has left the loop of its monitor, and is about to put the pin back. -/
def State.Restoring (s : State) (i : TaskId) (p : Pin) : Prop :=
  ∃ t pin, s.tasks i = some t ∧ t.phase = .restoring p pin

/-- The event it is publishing, while that is not on the wire. -/
def Task.pending (t : Task) : List Message :=
  match t.phase with
  | .publishing _ _ seq event false => [.pinEdge t.seqNo seq event]
  | _ => []

/-- That of the task, if it is running. -/
def State.pending (s : State) (i : TaskId) : List Message :=
  ((s.tasks i).map Task.pending).getD []

/-- What the monitor that the request has started has put on the wire. -/
def State.published (s : State) (n : ℕ) : List Message := s.wire.filter (Message.Of n)

/-- The task that the request has started is no more. -/
def State.Gone (s : State) (n : ℕ) : Prop := ∀ j t, s.tasks j = some t → t.seqNo ≠ n

/-- The task is resumed. -/
def Action.Resumes (i : TaskId) : Action → Bool
  | .task j .poll => j == i
  | .task j (.done _) => j == i
  | _ => false

/-- How often a monitor that has been told to stop has still to be resumed. -/
def Phase.turnsLeft : Phase → ℕ
  | .restoring _ _ => 1
  | _ => 2

/-- And of the task, if it is running. -/
def State.turnsLeft (s : State) (i : TaskId) : ℕ :=
  ((s.tasks i).map (fun t => t.phase.turnsLeft)).getD 0

/-! ## What a step does to the signal

It is set in one way only, by a disable, and reset in two: where a task takes the pin, and
where the owner takes the stop. Both are turns of one who then has the pin, so nobody else
can undo what was signalled to its owner. -/

/-- A signal that is set has been set before, or is set by a disable. -/
theorem Steps.stop_origin (h : Steps s a s') (hstop : s'.stop p = true) :
    s.stop p = true ∨ Signals s a p := by
  -- resetting a signal sets none
  have keep {q : Pin} (h : Function.update s.stop q false p = true) : s.stop p = true := by
    by_cases hpq : p = q
    · subst hpq
      rw [Function.update_self] at h
      exact absurd h nofun
    · rwa [Function.update_of_ne hpq] at h
  cases h with
  | send | receive | edge | tick => exact .inl hstop
  | dispatch hpath =>
    cases hpath with
    | spawn | full | unsupported | lock | handle | put | finish => exact .inl hstop
  | @task j t turn e ht hpath =>
    replace hstop : e.stop p = true := hstop
    cases hpath with
    | unsupported | lock | busy | put | finish | unconfirmed | edge | wait | restore =>
      exact .inl hstop
    | take | stopped => exact .inl (keep hstop)
    | @signal idx hphase hpin henable =>
      by_cases hpq : p = idx
      · subst hpq
        exact .inr ⟨j, t, rfl, ht, hphase, henable, hpin⟩
      · exact .inl ((Function.update_of_ne hpq ..).symm.trans hstop)

/-- A signal stays set until the pin's owner has its turn. -/
theorem Steps.stop_kept (h : Steps s a s') (hsound : s.Sound) (hi : s.holds i = some p)
    (hnot : ∀ turn, a ≠ .task i turn) (hstop : s.stop p = true) : s'.stop p = true := by
  have hslot : s.slots p = none := hsound.conserved.slot_eq_none.mpr ⟨i, hi⟩
  cases h with
  | send | receive | edge | tick => exact hstop
  | dispatch hpath =>
    cases hpath with
    | spawn | full | unsupported | lock | handle | put | finish => exact hstop
  | @task j t turn e ht hpath =>
    show e.stop p = true
    have hji : j ≠ i := by
      rintro rfl
      exact hnot turn rfl
    cases hpath with
    | unsupported | lock | busy | put | finish | unconfirmed | edge | wait | restore => exact hstop
    -- signalling it again leaves it set: a `Signal` latches
    | @signal idx =>
      by_cases hpq : p = idx
      · subst hpq
        exact Function.update_self ..
      · exact (Function.update_of_ne hpq ..).trans hstop
    -- a task that takes a pin resets the signal, but this pin is not there to be taken
    | @take idx pin _ hsome =>
      have hpq : p ≠ idx := by
        rintro rfl
        rw [hslot] at hsome
        exact absurd hsome nofun
      exact (Function.update_of_ne hpq ..).trans hstop
    | @stopped turn idx pin seq edge hselect =>
      -- the signal is taken by the owner of its pin
      have hpq : p ≠ idx := by
        rintro rfl
        exact hji (hsound.conserved.unique j i p ((holds_of_task ht).trans hselect.holds) hi)
      exact (Function.update_of_ne hpq ..).trans hstop

/-! ## What becomes of a monitor

From the stop on, a monitor may end the sending it is in, and leave its loop: a turn for the
one, if there is one, and a turn for the other. It begins no new sending, for with the stop
set its `select` does not come to the edge. -/

/-- What comes to the `select` has not left the loop. -/
theorem Task.Selects.not_restoring {idx q : Pin} {pin pin' : Flex} {seq : UInt16} {edge : Bool}
    (h : t.Selects turn idx pin seq edge) : t.phase ≠ .restoring q pin' := by
  cases h with
  | confirmed hphase | woken hphase | published hphase =>
    rw [hphase]
    exact nofun

/-- An edge changes no event that is there already. -/
theorem Task.edge_pending (q : Pin) (t : Task) : (t.edge q).pending = t.pending := by
  unfold Task.pending
  rw [Task.edge_seqNo]
  rcases t.edge_phase q with hsame | ⟨_, _, _, _, _, hphase, hphase'⟩
  · rw [hsame]
  · rw [hphase, hphase']

/-- Nor does it keep a monitor in its loop. -/
theorem Task.edge_turnsLeft (q : Pin) (t : Task) :
    (t.edge q).phase.turnsLeft = t.phase.turnsLeft := by
  rcases t.edge_phase q with hsame | ⟨_, _, _, _, _, hphase, hphase'⟩
  · rw [hsame]
  · rw [hphase, hphase']
    rfl

/-- A monitor on its way out does not see it. -/
theorem Task.edge_restoring {q : Pin} {pin : Flex} (h : t.phase = .restoring p pin) :
    (t.edge q).phase = .restoring p pin := by
  rcases t.edge_phase q with hsame | ⟨_, _, _, _, _, hphase, -⟩
  · exact hsame.trans h
  · exact absurd (hphase.symm.trans h) nofun

/-- In the steps that are not its own, a task stays as it is, but may see an edge. -/
theorem Steps.task_others (h : Steps s a s') (ht : s.tasks i = some t)
    (hnot : ∀ turn, a ≠ .task i turn) :
    s'.tasks i = some t ∨ ∃ q, s'.tasks i = some (t.edge q) := by
  cases h with
  | send | receive | tick => exact .inl ht
  | edge q =>
    refine .inr ⟨q, ?_⟩
    show (s.tasks i).map (Task.edge q) = _
    rw [ht]
    rfl
  | dispatch hpath =>
    cases hpath with
    | @spawn rqst j _ _ hfree =>
      have hij : i ≠ j := by
        rintro rfl
        exact absurd (ht.symm.trans hfree) nofun
      exact .inl ((Function.update_of_ne hij ..).trans ht)
    | full | unsupported | lock | handle | put | finish => exact .inl ht
  | @task j t turn e =>
    have hij : i ≠ j := by
      rintro rfl
      exact hnot turn rfl
    exact .inl ((Function.update_of_ne hij ..).trans ht)

/-- What a task puts on the wire are its own events, if they are any. -/
theorem Path.published (hpath : Path s t turn e) (hne : t.seqNo ≠ n) :
    e.message.toList.filter (Message.Of n) = [] := by
  cases hmessage : e.message with
  | none => rfl
  | some message =>
    obtain ⟨-, phase, hout⟩ := hpath.message hmessage
    rcases Task.outgoing_cases hout with ⟨_, -, rfl, -⟩ | ⟨_, _, -, rfl, -⟩
      | ⟨_, _, _, _, -, rfl, -⟩
    · rfl
    · rfl
    · exact List.filter_cons_of_neg (fun h => hne (beq_iff_eq.mp h))

/-- A turn publishes the event it puts on the wire, if it is one of this monitor. -/
theorem published_apply :
    (s.apply i t e).published n
      = s.published n ++ e.message.toList.filter (Message.Of n) :=
  List.filter_append _ _

/-- Steps that are not a monitor's publish nothing of it. -/
theorem Steps.published_others (h : Steps s a s')
    (hothers : ∀ j t turn, a = .task j turn → s.tasks j = some t → t.seqNo ≠ n) :
    s'.published n = s.published n := by
  cases h with
  | send | receive | edge | tick => rfl
  | dispatch hpath =>
    cases hpath with
    | spawn | full | unsupported | lock | handle | finish => rfl
    | put => exact (List.filter_append _ _).trans (List.append_nil _)
  | @task j t turn e ht hpath =>
    rw [published_apply, hpath.published (hothers j t turn rfl ht), List.append_nil]

/-- **The monitor is told to stop**, or is on its way out. -/
def State.Stopping (s : State) (i : TaskId) (n : ℕ) (p : Pin) : Prop :=
  ∃ t, s.tasks i = some t ∧ t.seqNo = n ∧ t.phase.holds = some p
    ∧ (s.stop p = true ∨ ∃ pin, t.phase = .restoring p pin)

/-- **The turn of a monitor that is told to stop.** It goes on sending what it has
begun to send; otherwise it leaves the loop, and from there it puts the pin back. -/
theorem Path.stopping (hpath : Path s t turn e) (hholds : t.phase.holds = some p)
    (hstop : s.stop p = true ∨ ∃ pin, t.phase = .restoring p pin) :
    (∃ phase, e.phase = some phase ∧ phase.holds = some p
        ∧ (e.stop p = true ∨ ∃ pin, phase = .restoring p pin)
        ∧ phase.turnsLeft + (if turn = .put then 0 else 1) ≤ t.phase.turnsLeft
        ∧ e.message.toList.filter (Message.Of t.seqNo)
            ++ Task.pending { t with phase := phase } <+: t.pending)
      ∨ (turn = .poll ∧ e.phase = none ∧ t.phase.turnsLeft = 1 ∧ (e.slots p).isSome = true
          ∧ e.message = none) := by
  -- a monitor in its loop has been told to stop
  have htold (hloop : ∀ pin, t.phase ≠ .restoring p pin) : s.stop p = true :=
    hstop.resolve_right (fun ⟨pin, hphase⟩ => hloop pin hphase)
  cases hpath with
  | unsupported hphase | signal hphase | lock hphase | busy hphase | take hphase
  | finish hphase =>
    rw [hphase] at hholds
    exact absurd hholds nofun
  -- the event goes from what is pending to what is published
  | put hout =>
    refine .inl ⟨_, rfl, (Task.holds_of_outgoing hout).trans hholds, .inl ?_, ?_, ?_⟩
    · refine htold (fun pin hphase => ?_)
      unfold Task.outgoing at hout
      rw [hphase] at hout
      exact absurd hout nofun
    · rcases Task.outgoing_cases hout with ⟨_, hphase, -, rfl⟩ | ⟨_, _, hphase, -, rfl⟩
        | ⟨_, _, _, _, hphase, -, rfl⟩
      all_goals
        rw [hphase]
        exact Nat.le_refl _
    · unfold Task.pending
      rcases Task.outgoing_cases hout with ⟨_, hphase, rfl, rfl⟩ | ⟨_, _, hphase, rfl, rfl⟩
        | ⟨_, _, seq, event, hphase, rfl, rfl⟩
      · exact List.nil_prefix
      · exact List.nil_prefix
      · rw [hphase]
        have hof : Message.Of t.seqNo (.pinEdge t.seqNo seq event) = true := beq_self_eq_true _
        show List.filter _ [_] ++ [] <+: [_]
        rw [List.append_nil, List.filter_cons_of_pos hof]
        exact List.prefix_rfl
  | unconfirmed hphase =>
    rw [hphase] at hholds
    obtain rfl := Option.some.inj hholds
    refine .inl ⟨_, rfl, rfl, .inr ⟨_, rfl⟩, ?_, List.nil_prefix⟩
    rw [hphase]
    exact Nat.le_refl _
  | stopped hselect =>
    obtain rfl := Option.some.inj (hselect.holds.symm.trans hholds)
    refine .inl ⟨_, rfl, rfl, .inr ⟨_, rfl⟩, ?_, List.nil_prefix⟩
    cases hselect with
    | confirmed hphase | woken hphase | published hphase =>
      rw [hphase]
      exact Nat.le_refl _
  -- the `select` polls the stop first, so it cannot have come to either of these
  | edge hselect hnot | wait hselect hnot =>
    obtain rfl := Option.some.inj (hselect.holds.symm.trans hholds)
    have hstop := htold (fun _ => hselect.not_restoring)
    rw [hnot] at hstop
    exact absurd hstop nofun
  | @restore idx pin hphase =>
    rw [hphase] at hholds
    obtain rfl := Option.some.inj hholds
    refine .inr ⟨rfl, rfl, by rw [hphase]; rfl, ?_, rfl⟩
    show (Function.update s.slots idx (some pin) idx).isSome = true
    rw [Function.update_self]
    rfl

/-- The turns of a task that is running. -/
theorem turnsLeft_of_task (ht : s.tasks i = some t) : s.turnsLeft i = t.phase.turnsLeft := by
  rw [State.turnsLeft, ht]
  rfl

/-- And its event. -/
theorem pending_of_task (ht : s.tasks i = some t) : s.pending i = t.pending := by
  rw [State.pending, ht]
  rfl

/-- **A step, while the monitor is stopping.** It stays so, with its turns counted and
no new event to publish; or it is gone, and the pin is back. -/
theorem State.Stopping.step (h : s.Stopping i n p) (hsound : s.Sound) (hsteps : Steps s a s') :
    (s'.Stopping i n p ∧ s'.turnsLeft i + (if a.Resumes i then 1 else 0) ≤ s.turnsLeft i
        ∧ s'.published n ++ s'.pending i <+: s.published n ++ s.pending i)
      ∨ (s'.Gone n ∧ (s'.slots p).isSome = true ∧ s'.published n = s.published n) := by
  obtain ⟨t, ht, rfl, hholds, hstop⟩ := h
  rw [turnsLeft_of_task ht, pending_of_task ht]
  by_cases hown : ∃ turn, a = .task i turn
  · obtain ⟨turn, rfl⟩ := hown
    cases hsteps with
    | @task _ t' _ e ht' hpath =>
      obtain rfl := Option.some.inj (ht.symm.trans ht')
      rcases hpath.stopping hholds hstop with ⟨phase, hphase, hholds', hstop', hturns, hevents⟩
        | ⟨rfl, hphase, -, hslot, hmessage⟩
      · have ht'' : (s.apply i t e).tasks i = some { t with phase := phase } := by
          show Function.update s.tasks i _ i = _
          rw [Function.update_self, hphase]
          rfl
        refine .inl ⟨⟨_, ht'', rfl, hholds', hstop'⟩, ?_, ?_⟩
        · rw [turnsLeft_of_task ht'']
          refine le_trans (Nat.add_le_add_left ?_ _) hturns
          cases turn with
          | poll | done => simp [Action.Resumes]
          | put => exact Nat.le_refl _
        · rw [pending_of_task ht'', published_apply, List.append_assoc]
          exact List.prefix_append_right_inj _ |>.mpr hevents
      · refine .inr ⟨fun j u hu heq => ?_, hslot, ?_⟩
        · rcases tasks_apply hu with ⟨rfl, _, hsome, -⟩ | ⟨hj, hu⟩
          · rw [hphase] at hsome
            exact absurd hsome nofun
          · exact hj (hsound.numbered.distinct j i u t hu ht heq)
        · rw [published_apply, hmessage]
          exact List.append_nil _
  -- a turn that is not its own publishes nothing of it, and keeps the stop for it
  · have hnot (turn : Turn) : a ≠ .task i turn := fun ha => hown ⟨turn, ha⟩
    have hpublished : s'.published t.seqNo = s.published t.seqNo := by
      refine hsteps.published_others (fun j u turn ha hu heq => hnot turn ?_)
      rw [ha, hsound.numbered.distinct j i u t hu ht heq]
    have hstop' : s.stop p = true → s'.stop p = true :=
      hsteps.stop_kept hsound ((holds_of_task ht).trans hholds) hnot
    have hresumes : a.Resumes i = false := by
      cases a with
      | task j turn =>
        have hji : j ≠ i := by
          rintro rfl
          exact hnot turn rfl
        cases turn with
        | poll | done => exact beq_false_of_ne hji
        | put => rfl
      | send | receive | edge | tick | dispatch => rfl
    rw [hresumes, hpublished]
    refine .inl ?_
    rcases hsteps.task_others ht hnot with ht' | ⟨q, ht'⟩
    · rw [turnsLeft_of_task ht', pending_of_task ht']
      exact ⟨⟨t, ht', rfl, hholds, hstop.imp hstop' id⟩, Nat.le_refl _, List.prefix_rfl⟩
    · rw [turnsLeft_of_task ht', pending_of_task ht', Task.edge_turnsLeft, Task.edge_pending]
      refine ⟨⟨_, ht', t.edge_seqNo q, (t.edge_holds q).trans hholds, hstop.imp hstop' ?_⟩,
        Nat.le_refl _, List.prefix_rfl⟩
      exact fun ⟨pin, hphase⟩ => ⟨pin, Task.edge_restoring hphase⟩

/-- What is gone does not come back. -/
theorem State.Gone.step (h : s.Gone n) (hn : n < s.taken) (hsteps : Steps s a s') :
    s'.Gone n ∧ s'.published n = s.published n := by
  refine ⟨fun j u hu heq => ?_, hsteps.published_others (fun j t _ _ ht => h j t ht)⟩
  rcases hsteps.task_origin hu with ⟨t, ht, hseq, -⟩ | ⟨-, hnew, -⟩
  · exact h j t ht (hseq.symm.trans heq)
  · rw [hnew] at heq
    exact hn.ne heq.symm

/-- Nor in a whole run, and nothing is published of it any more. -/
theorem State.Gone.run {actions : List Action} (h : s.Gone n) (hn : n < s.taken)
    (hrun : Transition.run Assistant.step s actions = some u) :
    u.Gone n ∧ u.published n = s.published n := by
  have hinv := Transition.run_preserves
    (I := fun v => n < v.taken ∧ v.Gone n ∧ v.published n = s.published n)
    (fun v a v' hv hstep => by
      obtain ⟨hlt, hgone, hpublished⟩ := hv
      obtain ⟨hgone', hsame⟩ := hgone.step hlt (.of_step hstep)
      exact ⟨hlt.trans_le (Steps.of_step hstep).taken_le, hgone', hsame.trans hpublished⟩)
    ⟨hn, h, rfl⟩ hrun
  exact hinv.2

/-- **A run, from where the monitor is stopping.** -/
theorem State.Stopping.run {actions : List Action} (h : s.Stopping i n p) (hsound : s.Sound)
    (hrun : Transition.run Assistant.step s actions = some u) :
    (u.Stopping i n p ∧ u.turnsLeft i + actions.countP (Action.Resumes i) ≤ s.turnsLeft i
        ∧ u.published n ++ u.pending i <+: s.published n ++ s.pending i)
      ∨ (u.Gone n ∧ u.published n <+: s.published n ++ s.pending i
          ∧ ∃ before after v, actions = before ++ after
              ∧ Transition.run Assistant.step s before = some v ∧ v.Gone n
              ∧ (v.slots p).isSome = true) := by
  induction actions generalizing s with
  | nil =>
    obtain rfl := Option.some.inj hrun
    exact .inl ⟨h, Nat.le_refl _, List.prefix_rfl⟩
  | cons a actions ih =>
    obtain ⟨s', hstep, hrest⟩ := Transition.run_cons_eq_some.mp hrun
    have hn : n < s'.taken := by
      obtain ⟨t, ht, rfl, -⟩ := h
      exact (hsound.numbered.task i t ht).1.trans_le (Steps.of_step hstep).taken_le
    rcases h.step hsound (.of_step hstep) with ⟨h', hturns, hevents⟩ | ⟨hgone, hslot, hsame⟩
    · rcases ih h' (hsound.step hstep) hrest with ⟨hstill, hturns', hevents'⟩
        | ⟨hgone, hevents', before, after, v, rfl, hbefore, hv⟩
      · refine .inl ⟨hstill, ?_, hevents'.trans hevents⟩
        rw [List.countP_cons, ← Nat.add_assoc]
        exact (Nat.add_le_add_right hturns' _).trans hturns
      -- it has put the pin back later on in the run
      · exact .inr ⟨hgone, hevents'.trans hevents, a :: before, after, v, rfl,
          Transition.run_cons_eq_some.mpr ⟨s', hstep, hbefore⟩, hv⟩
    -- or in this step, after which it is gone for good
    · obtain ⟨hgone', hsame'⟩ := hgone.run hn hrest
      refine .inr ⟨hgone', ?_, [a], actions, s', rfl,
        Transition.run_cons_eq_some.mpr ⟨s', hstep, rfl⟩, hgone, hslot⟩
      rw [hsame', hsame]
      exact List.prefix_append _ _

/-- A task that has the pin is never stuck, even if no sending fails. -/
theorem State.Owns.progress (h : s.Owns i n p) :
    ∃ turn s', turn ≠ .done false ∧ step s (.task i turn) = some s' := by
  obtain ⟨t, ht, -, hholds⟩ := h
  have hgo {turn : Turn} {e : Effect} (hturn : turn ≠ .done false)
      (he : s.turn t turn = some e) :
      ∃ turn s', turn ≠ .done false ∧ Assistant.step s (.task i turn) = some s' := by
    refine ⟨turn, s.apply i t e, hturn, ?_⟩
    show (s.tasks i).bind _ = _
    rw [ht, Option.bind_some, he]
    rfl
  cases hphase : t.phase with
  | spawned | locking | replying =>
    rw [hphase] at hholds
    exact absurd hholds nofun
  | confirming idx pin written =>
    cases written with
    | false => exact @hgo .put _ nofun (by unfold State.turn Task.outgoing; rw [hphase]; rfl)
    | true =>
      exact @hgo (.done true) _ nofun (by unfold State.turn State.done; rw [hphase]; rfl)
  | selecting idx pin seq edge =>
    exact @hgo .poll _ nofun (by unfold State.turn State.poll; rw [hphase])
  | publishing idx pin seq event written =>
    cases written with
    | false => exact @hgo .put _ nofun (by unfold State.turn Task.outgoing; rw [hphase]; rfl)
    | true =>
      exact @hgo (.done true) _ nofun (by unfold State.turn State.done; rw [hphase]; rfl)
  | restoring idx pin =>
    exact @hgo .poll _ nofun (by unfold State.turn State.poll; rw [hphase])

/-- **The owner of the pin is told to stop**, by a disable. -/
theorem State.Owns.stopping (h : s.Owns i n p) (hsignals : Signals s a p)
    (hsteps : Steps s a s') :
    s'.Stopping i n p ∧ s'.turnsLeft i ≤ 2
      ∧ s'.published n ++ s'.pending i = s.published n ++ s.pending i := by
  obtain ⟨t, ht, rfl, hholds⟩ := h
  obtain ⟨j, d, rfl, hd, hspawned, hdisable, hpin⟩ := hsignals
  -- the task of the disable has no pin, so it is another
  have hij : i ≠ j := by
    rintro rfl
    obtain rfl := Option.some.inj (ht.symm.trans hd)
    rw [hspawned] at hholds
    exact absurd hholds nofun
  have hnot (turn : Turn) : Action.task j .poll ≠ .task i turn := fun ha =>
    hij (Action.task.inj ha).1.symm
  have hstop : s'.stop p = true := by
    cases hsteps with
    | @task _ d' _ e hd' hpath =>
      obtain rfl := Option.some.inj (hd.symm.trans hd')
      show e.stop p = true
      cases hpath with
      | unsupported _ hnone => exact absurd (hpin.symm.trans hnone) nofun
      | signal _ hpin' =>
        obtain rfl := Option.some.inj (hpin.symm.trans hpin')
        exact Function.update_self ..
      | lock _ _ henable => exact absurd (hdisable.symm.trans henable) nofun
      | busy hphase | take hphase | restore hphase =>
        exact absurd (hspawned.symm.trans hphase) nofun
      | stopped hselect | edge hselect | wait hselect =>
        have hnone := hselect.holds
        rw [hspawned] at hnone
        exact absurd hnone nofun
  have hturns : t.phase.turnsLeft ≤ 2 := by
    unfold Phase.turnsLeft
    split
    · exact Nat.le_succ _
    · exact Nat.le_refl _
  have hpublished : s'.published t.seqNo = s.published t.seqNo := by
    -- a task that has just been spawned has nothing to publish
    cases hsteps with
    | @task _ d' _ e hd' hpath =>
      obtain rfl := Option.some.inj (hd.symm.trans hd')
      rw [published_apply]
      cases hmessage : e.message with
      | none => exact List.append_nil _
      | some message => exact absurd (hpath.message hmessage).1 nofun
  rw [hpublished, pending_of_task ht]
  rcases hsteps.task_others ht hnot with ht' | ⟨q, ht'⟩
  · rw [turnsLeft_of_task ht', pending_of_task ht']
    exact ⟨⟨t, ht', rfl, hholds, .inl hstop⟩, hturns, rfl⟩
  · rw [turnsLeft_of_task ht', pending_of_task ht', Task.edge_turnsLeft, Task.edge_pending]
    exact ⟨⟨_, ht', t.edge_seqNo q, (t.edge_holds q).trans hholds, .inl hstop⟩, hturns, rfl⟩

/-- A monitor leaves its loop when it has the stop, or when the host could not be told
that there is one. -/
theorem Steps.leaves (h : Steps s a s') (hnot : ¬ s.Restoring i p) (hleft : s'.Restoring i p) :
    (∃ n, s.Owns i n p)
      ∧ (s.stop p = true ∨ ∃ t pin written, a = .task i (.done false) ∧ s.tasks i = some t
          ∧ t.phase = .confirming p pin written) := by
  obtain ⟨t', pin, ht', hphase'⟩ := hleft
  cases h with
  | send | receive | tick => exact absurd ⟨t', pin, ht', hphase'⟩ hnot
  | edge q =>
    obtain ⟨t, ht, rfl⟩ := Option.map_eq_some_iff.mp ht'
    rcases t.edge_phase q with hsame | ⟨_, _, _, _, _, -, hselecting⟩
    · exact absurd ⟨t, pin, ht, hsame.symm.trans hphase'⟩ hnot
    · exact absurd (hselecting.symm.trans hphase') nofun
  | dispatch hpath =>
    cases hpath with
    | full | unsupported | lock | handle | put | finish =>
      exact absurd ⟨t', pin, ht', hphase'⟩ hnot
    | @spawn rqst j _ _ hfree =>
      replace ht' : Function.update s.tasks j _ i = some t' := ht'
      by_cases hij : i = j
      · subst hij
        rw [Function.update_self] at ht'
        obtain rfl := Option.some.inj ht'
        exact absurd hphase' nofun
      · rw [Function.update_of_ne hij] at ht'
        exact absurd ⟨t', pin, ht', hphase'⟩ hnot
  | @task j t turn e ht hpath =>
    rcases tasks_apply ht' with ⟨rfl, phase, hphase, rfl⟩ | ⟨-, hsame⟩
    · obtain rfl : phase = .restoring p pin := hphase'
      cases hpath with
      | unsupported | signal | lock | busy | take | finish | edge | wait | restore =>
        exact absurd hphase nofun
      | put hout =>
        rcases Task.outgoing_cases hout with ⟨_, -, -, hrest⟩ | ⟨_, _, -, -, hrest⟩
          | ⟨_, _, _, _, -, -, hrest⟩
        all_goals exact absurd ((Option.some.inj hphase).symm.trans hrest) nofun
      | unconfirmed hconfirming =>
        obtain ⟨rfl, rfl⟩ := Phase.restoring.inj (Option.some.inj hphase)
        exact ⟨⟨t.seqNo, t, ht, rfl, by rw [hconfirming]; rfl⟩,
          .inr ⟨t, _, _, rfl, ht, hconfirming⟩⟩
      | stopped hselect hstop =>
        obtain ⟨rfl, rfl⟩ := Phase.restoring.inj (Option.some.inj hphase)
        exact ⟨⟨t.seqNo, t, ht, rfl, hselect.holds⟩, .inl hstop⟩
    · exact absurd ⟨t', pin, hsame, hphase'⟩ hnot

/-! ## Who is stopped

The other way round, a monitor that leaves its loop had its stop set; and what is set while
it has the pin was not set when it took it, so it was signalled after that. -/

/-- The monitor that owns the pin holds it. -/
theorem State.Owns.holds (h : s.Owns i n p) : s.holds i = some p := by
  obtain ⟨t, ht, -, hholds⟩ := h
  exact (holds_of_task ht).trans hholds

/-- An owner whose stop is set owned the pin, and its stop was set, or is set now. -/
theorem Steps.owner_stop (h : Steps s a s') (howns : s'.Owns i n p) (hstop : s'.stop p = true) :
    s.Owns i n p ∧ (s.stop p = true ∨ Signals s a p) := by
  -- if the pin had just been taken, the signal would have been reset
  have hheld : s.holds i = some p := by
    by_contra hnot
    exact absurd (h.take_of_holds hnot howns.holds).2.1 (by rw [hstop]; exact nofun)
  obtain ⟨t', ht', rfl, hholds⟩ := howns
  refine ⟨?_, h.stop_origin hstop⟩
  rcases h.task_origin ht' with ⟨t, ht, hseq, -⟩ | ⟨-, hnew, -⟩
  · exact ⟨t, ht, hseq.symm, (holds_of_task ht).symm.trans hheld⟩
  · rw [hnew] at hholds
    exact absurd hholds nofun

/-- **A stop that an owner sees was signalled while it owned the pin**, if there was a
time when nobody did. -/
theorem signalled_while_owned (hsound : s.Sound) (hfree : ∀ j, s.holds j ≠ some p)
    {actions : List Action} (hrun : Transition.run step s actions = some u)
    (howns : u.Owns i n p) (hstop : u.stop p = true) :
    ∃ before a after v, actions = before ++ a :: after
      ∧ Transition.run step s before = some v ∧ Signals v a p ∧ v.Owns i n p := by
  obtain ⟨before, a, after, v, v', heq, hbefore, -, hsignals, howned⟩ :=
    Transition.exists_origin
      (I := State.Sound) (P := fun v => v.Owns i n p ∧ v.stop p = true)
      (E := fun v a _ => Signals v a p ∧ v.Owns i n p)
      (fun _ _ _ h hstep => h.step hstep)
      (fun _ _ _ _ hstep h => by
        obtain ⟨howned, hset | hsignals⟩ := (Steps.of_step hstep).owner_stop h.1 h.2
        · exact .inl ⟨howned, hset⟩
        · exact .inr ⟨hsignals, howned⟩)
      hsound (fun h => hfree i h.1.holds) hrun ⟨howns, hstop⟩
  exact ⟨before, a, after, v, heq, hbefore, hsignals, howned⟩

/-- **A stop is neither lost nor inherited.** -/
theorem stop_for_its_owner (pad : Pin → Bool) (now : UInt64) (actions : List Action)
    (s : State) (hrun : Transition.run step (start pad now) actions = some s) :
    -- one that is signalled while a monitor owns the pin
    (∀ a s' i n p, s.Owns i n p → Signals s a p → step s a = some s' →
        ∀ more u, Transition.run step s' more = some u →
          (u.Owns i n p → (u.stop p = true ∨ u.Restoring i p)
              ∧ ∃ turn u', turn ≠ .done false ∧ step u (.task i turn) = some u')
            ∧ u.published n <+: s.published n ++ s.pending i
            ∧ (2 ≤ more.countP (Action.Resumes i) →
                u.Gone n ∧ ∃ before after v, more = before ++ after
                  ∧ Transition.run step s' before = some v ∧ v.Gone n
                  ∧ (v.slots p).isSome = true))
      -- one that is signalled while none does: a monitor that is then stopped has one
      -- of its own
      ∧ ∀ p, (∀ j, s.holds j ≠ some p) → ∀ more a u u' i,
          Transition.run step s more = some u → step u a = some u' →
          ¬ u.Restoring i p → u'.Restoring i p →
          (∃ t pin written, a = .task i (.done false) ∧ u.tasks i = some t
              ∧ t.phase = .confirming p pin written)
            ∨ ∃ n before b after v, u.Owns i n p ∧ more = before ++ b :: after
                ∧ Transition.run step s before = some v ∧ Signals v b p ∧ v.Owns i n p := by
  have hsound := (State.Sound.start pad now).run hrun
  refine ⟨fun a s' i n p howns hsignals hstep more u hmore => ?_,
    fun p hfree more a u u' i hmore hstep hnot hleft => ?_⟩
  · obtain ⟨hstopping, hturns, hevents⟩ := howns.stopping hsignals (.of_step hstep)
    rw [← hevents]
    rcases hstopping.run (hsound.step hstep) hmore with ⟨hstill, hcount, hpublished⟩
      | ⟨hgone, hpublished, hback⟩
    · refine ⟨fun howns' => ⟨?_, howns'.progress⟩,
        (List.prefix_append _ _).trans hpublished, fun htwo => ?_⟩
      · obtain ⟨t, ht, -, -, hstop⟩ := hstill
        exact hstop.imp id (fun ⟨pin, hphase⟩ => ⟨t, pin, ht, hphase⟩)
      · -- it has been resumed twice, and there was nothing else left for it to do
        obtain ⟨t, ht, -, -⟩ := hstill
        have hleft : 1 ≤ t.phase.turnsLeft := by
          unfold Phase.turnsLeft
          split
          · exact Nat.le_refl _
          · exact Nat.le_succ _
        rw [turnsLeft_of_task ht] at hcount
        omega
    · refine ⟨fun ⟨t, ht, hseq, _⟩ => absurd hseq (hgone i t ht), hpublished,
        fun _ => ⟨hgone, hback⟩⟩
  · obtain ⟨⟨n, howns⟩, hstop | hunconfirmed⟩ := (Steps.of_step hstep).leaves hnot hleft
    · obtain ⟨before, b, after, v, heq, hbefore, hsignals, howned⟩ :=
        signalled_while_owned hsound hfree hmore howns hstop
      exact .inr ⟨n, before, b, after, v, howns, heq, hbefore, hsignals, howned⟩
    · exact .inl hunconfirmed

/-- A monitor of pin 2 is publishing an edge, and a disable has just been spawned. -/
def publishingRun : List Action :=
  [.send (.pinMonitor ⟨2, true⟩), .dispatch .poll, .task 0 .poll, .task 0 .poll, .task 0 .put,
    .task 0 (.done true), .edge 2 true, .task 0 .poll,
    .send (.pinMonitor ⟨2, false⟩), .dispatch .poll]

/-- The disable has replied; the monitor publishes the edge, and stops. -/
def stoppingRun : List Action :=
  [.task 1 .put, .task 1 (.done true), .edge 2 false, .task 0 .put, .task 0 (.done true),
    .task 0 .poll]

/-- The monitor is told to stop with its first event on the way. It publishes that one at most,
and is gone two turns later. -/
theorem publishingRun_stops :
    ∃ s s' u, Transition.run step (start (fun _ => false) 0) publishingRun = some s
      ∧ step s (.task 1 .poll) = some s' ∧ Transition.run step s' stoppingRun = some u
      ∧ u.Gone 0 ∧ u.published 0 <+: [.pinEdge 0 0 ⟨2, .high, 0⟩] := by
  have hrest : (Transition.run step (start (fun _ => false) 0)
      (publishingRun ++ .task 1 .poll :: stoppingRun)).isSome = true := by
    decide +kernel
  have hstate : (Transition.run step (start (fun _ => false) 0) publishingRun).map
      (fun s => (s.tasks 0, s.tasks 1, s.published 0))
        = some (some ⟨0, ⟨2, true⟩, .publishing 2 .new 0 ⟨2, .high, 0⟩ false⟩,
          some ⟨1, ⟨2, false⟩, .spawned⟩, []) := by
    decide +kernel
  obtain ⟨u, hu⟩ := Option.isSome_iff_exists.mp hrest
  obtain ⟨s, hrun, hu⟩ := Transition.run_append_eq_some.mp hu
  obtain ⟨s', hstep, hu⟩ := Transition.run_cons_eq_some.mp hu
  rw [hrun] at hstate
  obtain ⟨hmonitor, hrest⟩ := Prod.mk.inj (Option.some.inj hstate)
  obtain ⟨hdisable, hpublished⟩ := Prod.mk.inj hrest
  obtain ⟨-, hevents, hgone⟩ := (stop_for_its_owner _ _ _ s hrun).1 (.task 1 .poll) s' 0 0 2
    ⟨_, hmonitor, rfl, rfl⟩ ⟨1, _, rfl, hdisable, rfl, rfl, rfl⟩ hstep stoppingRun u hu
  rw [hpublished, pending_of_task hmonitor] at hevents
  exact ⟨s, s', u, hrun, hstep, hu, (hgone (by decide)).1, hevents⟩

end Assistant

end Banc
