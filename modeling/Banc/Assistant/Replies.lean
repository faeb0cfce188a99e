import Banc.Assistant.Stop
import Banc.Lib.Duty
import Banc.Lib.History

/-!
# Each request is answered once

The dispatcher and the `pin_monitor_handler`s are the workers: a request is taken by
one of them, who replies to it at some later turn, or gives the reply up because the
sending has failed. The model of the firmware refines the book of duties
(`Steps.duty`), where a request is at every moment either answered, or given up, or
owed by exactly one worker. A worker who owes a reply can always go on, and has
replied after three of its turns at the latest.
-/

namespace Banc

namespace Assistant

variable {s s' u : State} {a : Action} {turn : Turn} {e : Effect} {t : Task} {i : TaskId} {n : ℕ}

/-! ## Who owes what

The sequence number is what the host knows a reply by. A request is with the dispatcher
until it is answered there, or until a task is spawned for it, and then with the task. -/

/-- The dispatcher, or a task of the pool. -/
abbrev Worker := Option TaskId

/-- The turn of a worker. -/
def Worker.act : Worker → Turn → Action
  | none, turn => .dispatch turn
  | some i, turn => .task i turn

/-- It is a turn of the worker. -/
def Action.By : Worker → Action → Bool
  | none, .dispatch _ => true
  | some i, .task j _ => i == j
  | _, _ => false

/-- The request the dispatcher has still to answer. -/
def Dispatch.owes : Dispatch → Option ℕ
  | .locking seqNo _ _ => some seqNo
  | .replying seqNo _ false => some seqNo
  | .receiving | .replying _ _ true => none

/-- The request a task has still to answer. -/
def Task.owes (t : Task) : Option ℕ := if t.phase.Unreplied then some t.seqNo else none

/-- The request a worker has still to answer. -/
def State.owes (s : State) : Worker → Option ℕ
  | none => s.dispatch.owes
  | some i => (s.tasks i).bind Task.owes

/-- The request a message is the reply to. -/
def Message.replied : Message → Option ℕ
  | .reply n _ => some n
  | .pinEdge _ _ _ => none

/-- The requests that have been answered. -/
def State.replied (s : State) : List ℕ := s.wire.filterMap Message.replied

/-- The request whose reply fails in the step: the sending is over, and it is not on
the wire. -/
def State.givesUp (s : State) : Action → List ℕ
  | .dispatch (.done _) => s.dispatch.owes.toList
  | .task i (.done _) => (s.owes (some i)).toList
  | _ => []

/-- Nobody is answered by an edge. -/
theorem Task.edge_owes (p : Pin) (t : Task) : (t.edge p).owes = t.owes := by
  unfold Task.owes
  rw [t.edge_unreplied p, t.edge_seqNo p]

/-- What a task owes, as a worker. -/
theorem owes_of_task (ht : s.tasks i = some t) : s.owes (some i) = t.owes := by
  show (s.tasks i).bind Task.owes = _
  rw [ht]
  rfl

/-- Before it has replied, its request. -/
theorem owes_of_unreplied (h : t.phase.Unreplied = true) : t.owes = some t.seqNo := if_pos h

/-- Afterwards nothing, however long it runs. -/
theorem owes_of_replied (h : t.phase.Unreplied = false) : t.owes = none :=
  if_neg (by rw [h]; exact nofun)

/-- A monitor that comes to its `select` has replied. -/
theorem Task.Selects.replied {idx : Pin} {pin : Flex} {seq : UInt16} {edge : Bool}
    (h : t.Selects turn idx pin seq edge) : t.phase.Unreplied = false := by
  cases h with
  | confirmed hphase | woken hphase | published hphase =>
    rw [hphase]
    rfl

/-- **What a turn of a task does to its duty.** -/
theorem Path.owes (hpath : Path s t turn e) :
    (e.phase.bind (fun phase => Task.owes { t with phase := phase }) = t.owes
        ∧ e.message.toList.filterMap Message.replied = []
        ∧ (∀ ok, turn = .done ok → t.owes = none))
      ∨ (t.owes = some t.seqNo
          ∧ e.phase.bind (fun phase => Task.owes { t with phase := phase }) = none
          ∧ ((turn = .put ∧ e.message.toList.filterMap Message.replied = [t.seqNo])
            ∨ ((∃ ok, turn = .done ok)
              ∧ e.message.toList.filterMap Message.replied = []))) := by
  cases hpath with
  | unsupported hphase | signal hphase | lock hphase | busy hphase | take hphase =>
    rw [owes_of_unreplied (by rw [hphase]; rfl)]
    exact .inl ⟨rfl, rfl, nofun⟩
  | put hout =>
    rcases Task.outgoing_cases hout with ⟨_, hphase, rfl, rfl⟩ | ⟨_, _, hphase, rfl, rfl⟩
      | ⟨_, _, _, _, hphase, rfl, rfl⟩
    · exact .inr ⟨owes_of_unreplied (by rw [hphase]; rfl), rfl, .inl ⟨rfl, rfl⟩⟩
    · exact .inr ⟨owes_of_unreplied (by rw [hphase]; rfl), rfl, .inl ⟨rfl, rfl⟩⟩
    · rw [owes_of_replied (by rw [hphase]; rfl)]
      exact .inl ⟨rfl, rfl, nofun⟩
  | @finish result written ok hphase =>
    cases written with
    | false => exact .inr ⟨owes_of_unreplied (by rw [hphase]; rfl), rfl, .inr ⟨⟨ok, rfl⟩, rfl⟩⟩
    | true =>
      rw [owes_of_replied (by rw [hphase]; rfl)]
      exact .inl ⟨rfl, rfl, fun _ _ => rfl⟩
  | @unconfirmed idx pin written hphase =>
    cases written with
    | false => exact .inr ⟨owes_of_unreplied (by rw [hphase]; rfl), rfl, .inr ⟨⟨false, rfl⟩, rfl⟩⟩
    | true =>
      rw [owes_of_replied (by rw [hphase]; rfl)]
      exact .inl ⟨rfl, rfl, fun _ _ => rfl⟩
  | stopped hselect | edge hselect | wait hselect =>
    rw [owes_of_replied hselect.replied]
    exact .inl ⟨rfl, rfl, fun _ _ => rfl⟩
  | restore hphase =>
    rw [owes_of_replied (by rw [hphase]; rfl)]
    exact .inl ⟨rfl, rfl, nofun⟩

/-- The answered requests are counted message by message. -/
theorem replied_append (wire more : List Message) :
    (wire ++ more).filterMap Message.replied
      = wire.filterMap Message.replied ++ more.filterMap Message.replied :=
  List.filterMap_append

/-- How many turns a task that owes a reply is away from it. -/
def Phase.toReply : Phase → ℕ
  | .spawned => 3
  | .locking _ => 2
  | _ => 1

/-- The turns until the dispatcher has replied: the handler's, if it awaits the lock, and that
of the reply. -/
def Dispatch.toReply : Dispatch → ℕ
  | .locking _ _ _ => 2
  | .receiving | .replying _ _ _ => 1

/-- The turns until a worker has replied. -/
def State.toReply (s : State) : Worker → ℕ
  | none => s.dispatch.toReply
  | some i => ((s.tasks i).map (fun t => t.phase.toReply)).getD 0

/-- Those of a task are its phase's. -/
theorem toReply_of_task (ht : s.tasks i = some t) : s.toReply (some i) = t.phase.toReply := by
  show ((s.tasks i).map _).getD 0 = _
  rw [ht]
  rfl

/-- An edge brings no reply nearer, and puts none off. -/
theorem Task.edge_toReply (p : Pin) (t : Task) : (t.edge p).phase.toReply = t.phase.toReply := by
  rcases t.edge_phase p with h | ⟨_, _, _, _, _, hphase, hphase'⟩
  · rw [h]
  · rw [hphase, hphase']
    rfl

/-- A task that owes a reply after its turn has come closer to it. -/
theorem Path.toReply (hpath : Path s t turn e) {phase : Phase} (hphase' : e.phase = some phase)
    (hunreplied : phase.Unreplied = true) : phase.toReply + 1 ≤ t.phase.toReply := by
  cases hpath with
  | unsupported hphase | signal hphase | lock hphase | busy hphase | take hphase =>
    obtain rfl := Option.some.inj hphase'
    rw [hphase]
    simp [Phase.toReply]
  | put hout =>
    obtain rfl := Option.some.inj hphase'
    rcases Task.outgoing_cases hout with ⟨_, -, -, rfl⟩ | ⟨_, _, -, -, rfl⟩
      | ⟨_, _, _, _, -, -, rfl⟩
    all_goals exact absurd hunreplied nofun
  | unconfirmed | stopped | edge | wait =>
    obtain rfl := Option.some.inj hphase'
    exact absurd hunreplied nofun
  | finish | restore => exact absurd hphase' nofun

/-- **A step, while a worker owes a reply.** The reply is made, or given up, or it is
as near as it was, and nearer if the turn was the worker's. -/
theorem Steps.owed (h : Steps s a s') {w : Worker} (howes : s.owes w = some n) :
    (s'.owes w = some n ∧ s'.toReply w + (if a.By w then 1 else 0) ≤ s.toReply w)
      ∨ n ∈ s'.replied ∨ n ∈ s.givesUp a := by
  cases w with
  | none =>
    replace howes : s.dispatch.owes = some n := howes
    -- a dispatcher that owes a reply takes no request
    cases h with
    | send | receive | edge | tick | task => exact .inl ⟨howes, Nat.le_refl _⟩
    | dispatch hpath =>
      cases hpath with
      | spawn hphase | full hphase | unsupported hphase | lock hphase =>
        rw [hphase] at howes
        exact absurd howes nofun
      | handle hphase =>
        rw [hphase] at howes
        refine .inl ⟨howes, ?_⟩
        show 1 + 1 ≤ s.dispatch.toReply
        rw [hphase]
        exact Nat.le_refl _
      | put hphase =>
        rw [hphase] at howes
        obtain rfl := Option.some.inj howes
        refine .inr (.inl ?_)
        show _ ∈ (s.wire ++ [_]).filterMap Message.replied
        rw [replied_append]
        exact List.mem_append_right _ List.mem_cons_self
      | finish =>
        refine .inr (.inr ?_)
        show n ∈ s.dispatch.owes.toList
        rw [howes]
        exact List.mem_cons_self
  | some i =>
    obtain ⟨t, ht, hn⟩ := Option.bind_eq_some_iff.mp howes
    -- its own turn brings the reply nearer, or is that of the reply
    by_cases hown : ∃ turn, a = .task i turn
    · obtain ⟨turn, rfl⟩ := hown
      cases h with
      | @task _ t' _ e ht' hpath =>
        obtain rfl := Option.some.inj (ht.symm.trans ht')
        rcases hpath.owes with ⟨hphase, -, -⟩ | ⟨howes', -, hrest⟩
        · refine .inl ?_
          rw [hn] at hphase
          obtain ⟨phase, hphase', hphase⟩ := Option.bind_eq_some_iff.mp hphase
          have hunreplied : phase.Unreplied = true := by
            by_contra hnot
            rw [owes_of_replied (Bool.not_eq_true _ ▸ hnot)] at hphase
            exact absurd hphase nofun
          have ht'' : (s.apply i t e).tasks i = some { t with phase := phase } := by
            show Function.update s.tasks i _ i = _
            rw [Function.update_self, hphase']
            rfl
          have hby : (Action.task i turn).By (some i) = true := beq_self_eq_true i
          rw [owes_of_task ht'', hphase, toReply_of_task ht'', toReply_of_task ht, if_pos hby]
          exact ⟨rfl, hpath.toReply hphase' hunreplied⟩
        · rw [hn] at howes'
          obtain rfl := Option.some.inj howes'
          rcases hrest with ⟨-, hmessage⟩ | ⟨⟨ok, rfl⟩, -⟩
          · refine .inr (.inl ?_)
            show _ ∈ (s.wire ++ e.message.toList).filterMap Message.replied
            rw [replied_append, hmessage]
            exact List.mem_append_right _ List.mem_cons_self
          · refine .inr (.inr ?_)
            show _ ∈ (s.owes (some i)).toList
            rw [howes]
            exact List.mem_cons_self
    -- and any other leaves the task where it is
    · have hnot (turn : Turn) : a ≠ .task i turn := fun ha => hown ⟨turn, ha⟩
      have hby : a.By (some i) = false := by
        cases a with
        | task j turn =>
          refine beq_false_of_ne ?_
          rintro rfl
          exact hnot turn rfl
        | send | receive | edge | tick | dispatch => rfl
      rw [hby, toReply_of_task ht]
      refine .inl ?_
      rcases h.task_others ht hnot with ht' | ⟨q, ht'⟩
      · rw [owes_of_task ht', toReply_of_task ht']
        exact ⟨hn, Nat.le_refl _⟩
      · rw [owes_of_task ht', toReply_of_task ht', t.edge_owes q, t.edge_toReply q]
        exact ⟨hn, Nat.le_refl _⟩

/-- **What a request may be answered.** -/
inductive Request.Allows : Request → Response → Prop where
  /-- There is no such pin. -/
  | unsupported {rqst : Gpio} (hpin : pinIndex rqst.pin = none) :
    Allows (.gpio rqst) (rqst.refuse .unsupported)
  /-- There is, and a monitor has it. -/
  | busy {rqst : Gpio} (hpin : pinIndex rqst.pin ≠ none) :
    Allows (.gpio rqst) (rqst.refuse .busy)
  /-- It has been configured. -/
  | config {rqst : GpioConfig} (hpin : pinIndex rqst.pin ≠ none) :
    Allows (.gpio (.config rqst)) (.ack (.ok ()))
  /-- It has been set. -/
  | set {rqst : GpioSet} (hpin : pinIndex rqst.pin ≠ none) :
    Allows (.gpio (.set rqst)) (.ack (.ok ()))
  /-- It reads so. Only a read is answered a level. -/
  | read {rqst : GpioRead} (level : IcdLevel) (hpin : pinIndex rqst.pin ≠ none) :
    Allows (.gpio (.read rqst)) (.level (.ok level))
  /-- All the tasks of the pool are running. -/
  | full {rqst : PinMonitor} : Allows (.pinMonitor rqst) .failedToSpawn
  /-- There is no such pin, to monitor or to stop. -/
  | noPin {rqst : PinMonitor} (hpin : pinIndex rqst.pin = none) :
    Allows (.pinMonitor rqst) (.ack (.error .unsupported))
  /-- There is a monitor of the pin. -/
  | monitored {rqst : PinMonitor} (hpin : pinIndex rqst.pin ≠ none)
    (henable : rqst.enable = true) : Allows (.pinMonitor rqst) (.ack (.error .busy))
  /-- It is monitored, or its monitor was told to stop. -/
  | done {rqst : PinMonitor} (hpin : pinIndex rqst.pin ≠ none) :
    Allows (.pinMonitor rqst) (.ack (.ok ()))

/-- A handler that has the lock answers what it may. -/
theorem Gpio.handle_allowed (rqst : Gpio) (pad : Pin → Bool) (slots : PinSlots) (idx : Pin)
    (hpin : pinIndex rqst.pin ≠ none) :
    (Request.gpio rqst).Allows (rqst.handle pad slots idx).1 := by
  cases rqst with
  | config rqst =>
    show Request.Allows _ (.ack (withPin slots idx _).1)
    rcases withPin_fst _ with ⟨-, hfst⟩ | ⟨-, r, hfst⟩
    · rw [hfst]
      exact @Request.Allows.busy (.config rqst) hpin
    · rw [hfst]
      exact .config hpin
  | set rqst =>
    show Request.Allows _ (.ack (withPin slots idx _).1)
    rcases withPin_fst _ with ⟨-, hfst⟩ | ⟨-, r, hfst⟩
    · rw [hfst]
      exact @Request.Allows.busy (.set rqst) hpin
    · rw [hfst]
      exact .set hpin
  | read rqst =>
    show Request.Allows _ (.level (withPin slots idx _).1)
    rcases withPin_fst _ with ⟨-, hfst⟩ | ⟨-, r, hfst⟩
    · rw [hfst]
      exact @Request.Allows.busy (.read rqst) hpin
    · rw [hfst]
      exact .read r hpin

/-- The reply a task is about to end with is one its request may be answered. -/
def Task.Fitting (t : Task) : Prop :=
  ∀ result written, t.phase = .replying result written →
    (Request.pinMonitor t.rqst).Allows (.ack result)

/-- An edge does not change what is to be replied. -/
theorem Task.Fitting.edge (h : t.Fitting) (p : Pin) : (t.edge p).Fitting := by
  intro result written hphase'
  rw [Task.edge_rqst]
  rcases t.edge_phase p with hsame | ⟨_, _, _, _, _, -, hselecting⟩
  · exact h result written (hsame.symm.trans hphase')
  · exact absurd (hselecting.symm.trans hphase') nofun

/-- **What a task is to reply is what its request allows**, from turn to turn. -/
theorem Task.Fitting.path (h : t.Fitting) (hfits : t.Fits) (hpath : Path s t turn e)
    {phase : Phase} (hphase' : e.phase = some phase) : Task.Fitting { t with phase := phase } := by
  intro result written hreplying
  obtain rfl : phase = .replying result written := hreplying
  cases hpath with
  | unsupported hphase hpin =>
    obtain ⟨rfl, rfl⟩ := Phase.replying.inj (Option.some.inj hphase')
    exact .noPin hpin
  | signal hphase hpin =>
    obtain ⟨rfl, rfl⟩ := Phase.replying.inj (Option.some.inj hphase')
    exact .done (by rw [hpin]; exact nofun)
  | busy hphase =>
    obtain ⟨rfl, rfl⟩ := Phase.replying.inj (Option.some.inj hphase')
    obtain ⟨henable, hpin⟩ := hfits.pin _ (by rw [hphase]; rfl)
    exact .monitored (by rw [hpin]; exact nofun) henable
  | put hout =>
    rcases Task.outgoing_cases hout with ⟨_, hphase, -, hrest⟩ | ⟨_, _, -, -, hrest⟩
      | ⟨_, _, _, _, -, -, hrest⟩
    · obtain ⟨rfl, rfl⟩ := Phase.replying.inj ((Option.some.inj hphase').symm.trans hrest)
      exact h _ _ hphase
    · exact absurd ((Option.some.inj hphase').symm.trans hrest) nofun
    · exact absurd ((Option.some.inj hphase').symm.trans hrest) nofun
  | lock | take | finish | unconfirmed | stopped | edge | wait | restore =>
    exact absurd hphase' nofun

/-- **Every reply fits its request**, on the wire or about to be sent. -/
structure State.Fitting (s : State) : Prop where
  /-- What the host may read. -/
  wire : ∀ n response, .reply n response ∈ s.wire →
    ∃ rqst, s.requests[n]? = some rqst ∧ rqst.Allows response
  /-- What the dispatcher is to reply. -/
  dispatch : ∀ n response written, s.dispatch = .replying n response written →
    ∃ rqst, s.requests[n]? = some rqst ∧ rqst.Allows response
  /-- What a task is to reply, if it knows that already. -/
  task : ∀ i t, s.tasks i = some t → t.Fitting

namespace State.Fitting

/-- Nobody is to reply. -/
theorem start (pad : Pin → Bool) (now : UInt64) : (start pad now).Fitting where
  wire _ _ h := absurd h List.not_mem_nil
  dispatch _ _ _ h := absurd h nofun
  task _ _ h := absurd h nofun

/-- What a task sends fits its request. -/
theorem outgoing (h : s.Fitting) (hnumbered : s.Numbered) (ht : s.tasks i = some t)
    {response : Response} {phase : Phase} (hout : t.outgoing = some (.reply n response, phase)) :
    ∃ rqst, s.requests[n]? = some rqst ∧ rqst.Allows response := by
  rcases Task.outgoing_cases hout with ⟨result, hphase, hmessage, -⟩
    | ⟨idx, pin, hphase, hmessage, -⟩ | ⟨_, _, _, _, -, hmessage, -⟩
  · obtain ⟨rfl, rfl⟩ := Message.reply.inj hmessage
    exact ⟨_, (hnumbered.task i t ht).2, h.task i t ht result false hphase⟩
  · obtain ⟨rfl, rfl⟩ := Message.reply.inj hmessage
    have hpin := ((hnumbered.fits i t ht).pin idx (by rw [hphase]; rfl)).2
    exact ⟨_, (hnumbered.task i t ht).2, .done (by rw [hpin]; exact nofun)⟩
  · exact absurd hmessage nofun

/-- **And so of a step**: what is new on the wire was what its worker was to reply. -/
theorem step (h : s.Fitting) (hnumbered : s.Numbered) (hsteps : Steps s a s') : s'.Fitting where
  wire n response hreply := by
    have hold : (∃ rqst, s.requests[n]? = some rqst ∧ rqst.Allows response) →
        ∃ rqst, s'.requests[n]? = some rqst ∧ rqst.Allows response :=
      fun ⟨rqst, hn, hallows⟩ => ⟨rqst, hsteps.request hn, hallows⟩
    rcases hsteps.reply_origin hreply with hwire | ⟨-, hdispatch⟩ | ⟨i, t, _, -, ht, rfl, hout⟩
    · exact hold (h.wire n response hwire)
    · exact hold (h.dispatch n response false hdispatch)
    · exact hold (h.outgoing hnumbered ht hout)
  dispatch n response written hdispatch := by
    have hold (hdispatch : s.dispatch = .replying n response written) :
        ∃ rqst, s'.requests[n]? = some rqst ∧ rqst.Allows response := by
      obtain ⟨rqst, hn, hallows⟩ := h.dispatch n response written hdispatch
      exact ⟨rqst, hsteps.request hn, hallows⟩
    cases hsteps with
    | send | receive | edge | tick | task => exact hold hdispatch
    | dispatch hpath =>
      cases hpath with
      | spawn => exact hold hdispatch
      | full _ hrqst =>
        obtain ⟨rfl, rfl, -⟩ := Dispatch.replying.inj hdispatch
        exact ⟨_, hrqst, .full⟩
      | unsupported _ hrqst hpin =>
        obtain ⟨rfl, rfl, -⟩ := Dispatch.replying.inj hdispatch
        exact ⟨_, hrqst, .unsupported hpin⟩
      | lock => exact absurd hdispatch nofun
      | handle hphase =>
        obtain ⟨rfl, rfl, -⟩ := Dispatch.replying.inj hdispatch
        have hfits := hnumbered.dispatch
        rw [hphase] at hfits
        exact ⟨_, hfits.1, Gpio.handle_allowed _ _ _ _ (by rw [hfits.2]; exact nofun)⟩
      | put hphase =>
        obtain ⟨rfl, rfl, -⟩ := Dispatch.replying.inj hdispatch
        exact h.dispatch _ _ _ hphase
      | finish => exact absurd hdispatch nofun
  task j v hv := by
    cases hsteps with
    | send | receive | tick => exact h.task j v hv
    | edge p =>
      obtain ⟨t, ht, rfl⟩ := Option.map_eq_some_iff.mp hv
      exact (h.task j t ht).edge p
    | dispatch hpath =>
      cases hpath with
      | @spawn rqst i =>
        replace hv : Function.update s.tasks i _ j = some v := hv
        by_cases hj : j = i
        · subst hj
          rw [Function.update_self] at hv
          obtain rfl := Option.some.inj hv
          intro _ _ hphase
          exact absurd hphase nofun
        · rw [Function.update_of_ne hj] at hv
          exact h.task j v hv
      | full | unsupported | lock | handle | put | finish => exact h.task j v hv
    | task ht hpath =>
      rcases tasks_apply hv with ⟨rfl, phase, hphase, rfl⟩ | ⟨-, hsame⟩
      · exact (h.task _ _ ht).path (hnumbered.fits _ _ ht) hpath hphase
      · exact h.task j v hsame

/-- And of a run. -/
theorem run (h : s.Fitting) (hsound : s.Sound) {actions : List Action}
    (hrun : Transition.run Assistant.step s actions = some u) : u.Fitting :=
  (Transition.run_preserves (I := fun v => v.Fitting ∧ v.Sound)
    (fun _ _ _ hv hstep => ⟨hv.1.step hv.2.numbered (.of_step hstep), hv.2.step hstep⟩)
    ⟨h, hsound⟩ hrun).1

end State.Fitting

end Assistant

end Banc
