import Banc.Assistant.Stop

/-!
# What the host may conclude from the Ok of a disable

A disable signals the stop and replies, whatever the monitor is doing. The monitor may
be publishing an event, and publish it after the reply; it may not have had its turn
when the host has the reply, and sends a request for the pin. Neither can happen if no
such monitor is left where the reply goes on the wire, and where the host has it
(`Effective`): then the pin is free, and nobody publishes on it, until the host asks
to monitor it again.
-/

namespace Banc

namespace Assistant

variable {s s' u : State} {a : Action} {turn : Turn} {e : Effect} {t : Task} {i : TaskId}
  {n k : ℕ} {p : Pin}

/-- It asks to stop monitoring the pin. -/
def Request.Disables (p : Pin) : Request → Bool
  | .pinMonitor rqst => !rqst.enable && pinIndex rqst.pin == some p
  | .gpio _ => false

/-- The message is an event of the pin. -/
def Message.EdgeOf (p : Pin) : Message → Bool
  | .reply _ _ => false
  | .pinEdge _ _ event => pinIndex event.pin == some p

/-- The message is the Ok of a request to stop monitoring the pin. -/
def State.AcksDisable (s : State) (p : Pin) : Message → Bool
  | .reply n (.ack (.ok _)) => s.requests[n]?.any (Request.Disables p)
  | _ => false

/-- Among the requests is one to monitor the pin, and its reply is not among the
messages. -/
def Outstanding (p : Pin) (requests : List Request) (messages : List Message) : Prop :=
  ∃ n < requests.length, requests[n]?.any (Request.Enables p) = true
    ∧ messages.all (fun m => !m.Answers n) = true

instance (p : Pin) (requests : List Request) (messages : List Message) :
    Decidable (Outstanding p requests messages) :=
  inferInstanceAs (Decidable (∃ n < requests.length, _ ∧ _))

/-- The host has just received the Ok of a request to stop monitoring the pin, and it
has replies to all its requests to monitor it. -/
def State.Disabled (s : State) (p : Pin) : Prop :=
  (∃ k m, s.received = k + 1 ∧ s.wire[k]? = some m ∧ s.AcksDisable p m = true)
    ∧ ¬ Outstanding p s.requests (s.wire.take s.received)

/-- From the first state to the second, the pin is not monitored: no GPIO request for
it that is sent after the first is answered with `Busy`, and no event of it is sent
after what the host has then received. -/
def Unmonitored (p : Pin) (s u : State) : Prop :=
  (∀ n rqst response, s.requests.length ≤ n → u.requests[n]? = some (.gpio rqst) →
      pinIndex rqst.pin = some p → u.Responded n response →
      response.error ≠ some .busy)
    ∧ ∀ m ∈ u.wire.drop s.received, m.EdgeOf p = false

/-- It is about to put the pin back. -/
def Phase.Leaves : Phase → Bool
  | .restoring _ _ => true
  | _ => false

/-- The task does not have the pin; or it has been told to stop, and has no event left
to publish. -/
def State.Told (s : State) (p : Pin) (t : Task) : Prop :=
  t.phase.holds = some p → (s.stop p = true ∨ t.phase.Leaves = true) ∧ t.pending = []

instance (s : State) (p : Pin) (t : Task) : Decidable (s.Told p t) :=
  inferInstanceAs (Decidable (_ → _ ∧ _))

/-- **A disable is effective where it is acknowledged.** If its Ok goes on the wire,
then the pin's monitor has been told to stop, and has no event left to publish; if the
host receives it, then the pin has no monitor. There may be one if the host has asked
for it, and not yet received the reply. -/
def Effective (s : State) : Action → Prop
  | .task i .put =>
    ∀ m ∈ ((s.tasks i).bind Task.outgoing).map Prod.fst, ∀ p, s.AcksDisable p m = true →
      Outstanding p s.requests s.wire ∨ ∀ j, ∀ t ∈ s.tasks j, s.Told p t
  | .receive =>
    ∀ m ∈ s.wire[s.received]?, ∀ p, s.AcksDisable p m = true →
      Outstanding p s.requests (s.wire.take (s.received + 1)) ∨ (s.slots p).isSome = true
  | _ => True

instance (s : State) : DecidablePred (Effective s)
  | .task _ .put => inferInstanceAs (Decidable (∀ m ∈ Option.map _ _, ∀ _, _ → _ ∨ ∀ _, ∀ t ∈ _, _))
  | .receive => inferInstanceAs (Decidable (∀ m ∈ s.wire[s.received]?, ∀ _, _ → _ ∨ _))
  | .task _ .poll | .task _ (.done _) | .send _ | .edge _ _ | .tick _ | .dispatch _ =>
    .isTrue trivial

/-! ## Replies

A request to monitor a pin that is still to be acted on has no reply. So the host can tell,
from what it has received, whether there may be a monitor it has asked for. -/

/-- Who has not replied has no reply on the wire. -/
def State.Unanswered (s : State) : Prop :=
  ∀ i t, s.tasks i = some t → t.phase.Unreplied = true →
    ∀ m ∈ s.wire, m.Answers t.seqNo = false

/-- **It stays so.** A task that has not replied is one that had not before, and what is put on
the wire is the reply of another. -/
theorem State.Unanswered.step (h : s.Unanswered) (hnumbered : s.Numbered)
    (hsteps : Steps s a s') : s'.Unanswered := by
  intro j t' ht' hunreplied m hm
  rcases hsteps.task_origin ht' with ⟨t, ht, hseq, -, -, hbefore⟩ | ⟨ha, hnew, -⟩
  · obtain ⟨hunreplied, hput⟩ := hbefore hunreplied
    have hold := h j t ht hunreplied
    rw [hseq]
    rcases hsteps.wire with hwire | ⟨n, response, -, hphase, hwire⟩
      | ⟨i, u, message, phase, rfl, hu, hout, hwire⟩
    · exact hold m (hwire ▸ hm)
    · rw [hwire, List.mem_append, List.mem_singleton] at hm
      rcases hm with hm | rfl
      · exact hold m hm
      -- the dispatcher replies to a request that no task has
      · have hother := (hnumbered.apart n (by rw [hphase]; rfl)).2 j t ht
        exact beq_false_of_ne hother.symm
    · rw [hwire, List.mem_append, List.mem_singleton] at hm
      rcases hm with hm | rfl
      · exact hold m hm
      -- and two tasks have two requests
      · have hother : u.seqNo ≠ t.seqNo := by
          intro heq
          obtain rfl := hnumbered.distinct i j u t hu ht heq
          exact hput rfl
        rcases Task.outgoing_cases hout with ⟨_, -, rfl, -⟩ | ⟨_, _, -, rfl, -⟩
          | ⟨_, _, _, _, -, rfl, -⟩
        · exact beq_false_of_ne hother
        · exact beq_false_of_ne hother
        · rfl
  -- a task that was just spawned has a request that nobody can have answered
  · rw [hnew]
    rcases hsteps.wire with hwire | ⟨_, _, hput, -⟩ | ⟨_, _, _, _, hput, -⟩
    · rw [hwire] at hm
      cases m with
      | reply n response => exact beq_false_of_ne (hnumbered.replied n response hm).ne
      | pinEdge => rfl
    · exact absurd (ha.symm.trans hput) nofun
    · exact absurd (ha.symm.trans hput) nofun

/-- A request to monitor the pin that a task is about to act on is outstanding. -/
theorem State.Unanswered.outstanding (h : s.Unanswered) (hnumbered : s.Numbered)
    (ht : s.tasks i = some t) (hphase : t.phase = .locking p) (k : ℕ) :
    Outstanding p s.requests (s.wire.take k) := by
  obtain ⟨henable, hpin⟩ := (hnumbered.fits i t ht).pin p (by rw [hphase]; rfl)
  obtain ⟨hlt, hrequest⟩ := hnumbered.task i t ht
  refine ⟨t.seqNo, hlt.trans_le hnumbered.taken, ?_, ?_⟩
  · rw [hrequest]
    show (t.rqst.enable && pinIndex t.rqst.pin == some p) = true
    rw [henable, hpin]
    exact beq_self_eq_true _
  · refine List.all_eq_true.mpr (fun m hm => ?_)
    rw [h i t ht (by rw [hphase]; rfl) m (List.mem_of_mem_take hm)]
    rfl

/-- More requests make no reply come. -/
theorem Outstanding.mono {requests more : List Request} {messages : List Message}
    (h : Outstanding p requests messages) (hmore : requests <+: more) :
    Outstanding p more messages := by
  obtain ⟨n, hn, henables, hanswers⟩ := h
  obtain ⟨rest, rfl⟩ := hmore
  refine ⟨n, ?_, ?_, hanswers⟩
  · rw [List.length_append]
    exact hn.trans_le (Nat.le_add_right _ _)
  · rw [List.getElem?_append_left hn]
    exact henables

/-- What the host has received of the wire does not change. -/
theorem Steps.wire_take (h : Steps s a s') (hk : k ≤ s.wire.length) :
    s'.wire.take k = s.wire.take k := by
  rcases h.wire with hwire | ⟨_, _, -, -, hwire⟩ | ⟨_, _, _, _, -, -, -, hwire⟩
  · rw [hwire]
  · rw [hwire, List.take_append_of_le_length hk]
  · rw [hwire, List.take_append_of_le_length hk]

/-- What was outstanding then is so for as long as it is looked at from there. -/
theorem Steps.outstanding (h : Steps s a s') (hk : k ≤ s.wire.length)
    (hout : Outstanding p s.requests (s.wire.take k)) :
    Outstanding p s'.requests (s'.wire.take k) := by
  rw [h.wire_take hk]
  exact hout.mono h.requests.1

/-! ## After the reply

Two places on the wire matter. From the first, where the Ok goes on the wire, there are no
more events; from the second, where the host has it, the pin is in its slot. Both conditions
are on the state before the step in which the place is reached, and what follows from them
is carried through the rest of the run. -/

/-- From a place in what has been sent on, the monitors of the pin have nothing more to
say, unless the host had asked for one. -/
def State.Quiet (s : State) (p : Pin) (k : ℕ) : Prop :=
  ¬ Outstanding p s.requests (s.wire.take k) →
    (∀ i t, s.tasks i = some t → s.Told p t) ∧ ∀ m ∈ s.wire.drop k, m.EdgeOf p = false

/-- A monitor that was told is one that is stopping. -/
theorem State.Told.stopping (h : s.Told p t) (ht : s.tasks i = some t)
    (hholds : t.phase.holds = some p) : s.Stopping i t.seqNo p := by
  refine ⟨t, ht, rfl, hholds, (h hholds).1.imp id (fun hleaves => ?_)⟩
  cases hphase : t.phase
  case restoring idx pin =>
    rw [hphase] at hholds
    obtain rfl := Option.some.inj hholds
    exact ⟨pin, rfl⟩
  all_goals
    rw [hphase] at hleaves
    exact absurd hleaves nofun

/-- Nobody takes the pin, unless the host had asked for it. -/
theorem Steps.held_before (h : Steps s a s') (hsound : s.Sound) (hunanswered : s.Unanswered)
    (hnot : ¬ Outstanding p s.requests (s.wire.take k)) (hi : s'.holds i = some p) :
    s.holds i = some p := by
  by_contra hnew
  obtain ⟨-, -, t, ht, hlocking⟩ := h.take_of_holds hnew hi
  exact hnot (hunanswered.outstanding hsound.numbered ht hlocking k)

/-- Nothing is taken off the wire. -/
theorem Steps.wire_grows (h : Steps s a s') : s.wire <+: s'.wire := by
  rcases h.wire with hwire | ⟨_, _, -, -, hwire⟩ | ⟨_, _, _, _, -, -, -, hwire⟩
  · exact hwire ▸ List.prefix_rfl
  · exact hwire ▸ List.prefix_append _ _
  · exact hwire ▸ List.prefix_append _ _

/-- Nor an event of a monitor. -/
theorem Steps.published_le (h : Steps s a s') :
    (s.published n).length ≤ (s'.published n).length :=
  (h.wire_grows.filter _).length_le

/-- **It stays quiet.** A monitor that has the pin has had it before, was told to stop, and has
nothing left to publish; and no other takes the pin, for the host has not asked for one. -/
theorem State.Quiet.step (h : s.Quiet p k) (hsound : s.Sound) (hunanswered : s.Unanswered)
    (hk : k ≤ s.wire.length) (hsteps : Steps s a s') : s'.Quiet p k := by
  intro hnot
  have hnot' : ¬ Outstanding p s.requests (s.wire.take k) := fun hout =>
    hnot (hsteps.outstanding hk hout)
  obtain ⟨htold, hquiet⟩ := h hnot'
  constructor
  · intro j t' ht' hholds'
    have hheld : s.holds j = some p :=
      hsteps.held_before hsound hunanswered hnot' ((holds_of_task ht').trans hholds')
    obtain ⟨t, ht, hholds⟩ := Option.bind_eq_some_iff.mp hheld
    have hpending := (htold j t ht hholds).2
    rcases ((htold j t ht).stopping ht hholds).step hsound hsteps with ⟨hstill, -, hevents⟩
      | ⟨hgone, -⟩
    · obtain ⟨t'', ht'', hseq, -, hstop⟩ := hstill
      obtain rfl := Option.some.inj (ht'.symm.trans ht'')
      refine ⟨hstop.imp id (fun ⟨pin, hphase⟩ => by rw [hphase]; rfl), ?_⟩
      -- what it has still to say is a part of what it had
      rw [pending_of_task ht, pending_of_task ht', hpending, List.append_nil] at hevents
      have hlength := hevents.length_le
      rw [List.length_append] at hlength
      have hmore : (s.published t.seqNo).length ≤ (s'.published t.seqNo).length :=
        hsteps.published_le
      exact List.length_eq_zero_iff.mp (by omega)
    -- it is gone, so who has the pin now is somebody else, who cannot be
    · rcases hsteps.task_origin ht' with ⟨t₀, ht₀, hseq, -⟩ | ⟨-, hnew, -⟩
      · obtain rfl := Option.some.inj (ht.symm.trans ht₀)
        exact absurd hseq (hgone j t' ht')
      · rw [hnew] at hholds'
        exact absurd hholds' nofun
  · intro m hm
    rcases hsteps.wire with hwire | ⟨_, _, -, -, hwire⟩ | ⟨i, t, message, _, -, ht, hout, hwire⟩
    · exact hquiet m (hwire ▸ hm)
    · rw [hwire, List.drop_append_of_le_length hk, List.mem_append, List.mem_singleton] at hm
      rcases hm with hm | rfl
      · exact hquiet m hm
      · rfl
    · rw [hwire, List.drop_append_of_le_length hk, List.mem_append, List.mem_singleton] at hm
      rcases hm with hm | rfl
      · exact hquiet m hm
      · rcases Task.outgoing_cases hout with ⟨_, -, rfl, -⟩ | ⟨_, _, -, rfl, -⟩
          | ⟨idx, pin, seq, event, hphase, rfl, -⟩
        · rfl
        · rfl
        · -- the event is of the pin its monitor has
          have hfits := hsound.numbered.fits i t ht
          refine beq_false_of_ne (fun hpin => ?_)
          rw [hfits.event _ _ _ _ _ hphase, (hfits.pin idx (by rw [hphase]; rfl)).2] at hpin
          obtain rfl := Option.some.inj hpin
          have hpending := (htold i t ht (by rw [hphase]; rfl)).2
          unfold Task.pending at hpending
          rw [hphase] at hpending
          exact absurd hpending nofun

/-- The pin is in its slot, unless the host had asked for a monitor of it. -/
def State.Released (s : State) (p : Pin) (k : ℕ) : Prop :=
  ¬ Outstanding p s.requests (s.wire.take k) → (s.slots p).isSome = true

/-- **And the pin stays in its slot**, from where only a monitor would take it. -/
theorem State.Released.step (h : s.Released p k) (hsound : s.Sound) (hunanswered : s.Unanswered)
    (hk : k ≤ s.wire.length) (hstep : step s a = some s') : s'.Released p k := by
  intro hnot
  have hsteps := Steps.of_step hstep
  have hnot' : ¬ Outstanding p s.requests (s.wire.take k) := fun hout =>
    hnot (hsteps.outstanding hk hout)
  refine ((hsound.step hstep).conserved.slot p).mpr (fun i hi => ?_)
  exact (hsound.conserved.slot p).mp (h hnot') i
    (hsteps.held_before hsound hunanswered hnot' hi)

/-- The request an Ok is the reply to. -/
theorem acksDisable_iff {m : Message} :
    s.AcksDisable p m = true
      ↔ ∃ n rqst, m = .reply n (.ack (.ok ())) ∧ s.requests[n]? = some (.pinMonitor rqst)
          ∧ rqst.enable = false ∧ pinIndex rqst.pin = some p := by
  constructor
  · intro h
    unfold State.AcksDisable at h
    split at h
    case h_1 n _ =>
      obtain ⟨rqst, hrqst, hdisables⟩ := (Option.any_eq_true _ _).mp h
      cases rqst with
      | gpio => exact absurd hdisables nofun
      | pinMonitor rqst =>
        obtain ⟨hdisable, hpin⟩ := Bool.and_eq_true_iff.mp hdisables
        exact ⟨n, rqst, rfl, hrqst, Bool.not_eq_true' _ ▸ hdisable, beq_iff_eq.mp hpin⟩
    case h_2 => exact absurd h nofun
  · rintro ⟨n, rqst, rfl, hrqst, hdisable, hpin⟩
    show s.requests[n]?.any (Request.Disables p) = true
    rw [hrqst]
    show (!rqst.enable && pinIndex rqst.pin == some p) = true
    rw [hdisable, hpin]
    exact beq_self_eq_true _

/-- **What the acknowledged disables have brought about.** -/
structure State.Acknowledging (s : State) : Prop where
  /-- The invariants that do not depend on what is acknowledged. -/
  sound : s.Sound
  unanswered : s.Unanswered
  received : s.received ≤ s.wire.length
  /-- From the Ok on, wherever it is on the wire, no event of the pin follows. -/
  quiet : ∀ k m p, s.wire[k]? = some m → s.AcksDisable p m = true → s.Quiet p (k + 1)
  /-- From an Ok on that the host has received, nobody has the pin. -/
  released : ∀ k m p, k < s.received → s.wire[k]? = some m → s.AcksDisable p m = true →
    s.Released p (k + 1)

/-- An Ok that was on the wire was the same Ok. -/
theorem Steps.ack_before (h : Steps s a s') (hnumbered : s.Numbered) {m : Message}
    (hk : k < s.wire.length) (hm : s'.wire[k]? = some m) (hack : s'.AcksDisable p m = true) :
    s.wire[k]? = some m ∧ s.AcksDisable p m = true := by
  have hold : s.wire[k]? = some m := by
    rw [← hm, ← List.getElem?_take_of_succ (l := s.wire),
      ← List.getElem?_take_of_succ (l := s'.wire), h.wire_take hk]
  obtain ⟨n, rqst, rfl, hrqst, hdisables⟩ := acksDisable_iff.mp hack
  obtain ⟨more, hmore⟩ := h.requests.1
  have hn := (hnumbered.replied n _ (List.mem_of_getElem? hold)).trans_le hnumbered.taken
  rw [← hmore, List.getElem?_append_left hn] at hrqst
  exact ⟨hold, acksDisable_iff.mpr ⟨n, rqst, rfl, hrqst, hdisables⟩⟩

/-- An Ok of a disable is no reply to a request to monitor the pin. -/
theorem Outstanding.append {m : Message} (h : Outstanding p s.requests s.wire)
    (hack : s.AcksDisable p m = true) : Outstanding p s.requests (s.wire ++ [m]) := by
  obtain ⟨n, hn, henables, hanswers⟩ := h
  obtain ⟨n', rqst, rfl, hrqst, hdisable, -⟩ := acksDisable_iff.mp hack
  refine ⟨n, hn, henables, ?_⟩
  rw [List.all_append, hanswers]
  show (!(n' == n) && true) = true
  rw [Bool.and_true, Bool.not_eq_true']
  refine beq_false_of_ne ?_
  rintro rfl
  rw [hrqst] at henables
  have henable : (rqst.enable && pinIndex rqst.pin == some p) = true := henables
  rw [hdisable] at henable
  exact absurd henable nofun

/-- **The Ok of a disable goes on the wire.** -/
theorem Effective.quiet {m : Message} (hnumbered : s.Numbered) (hsteps : Steps s a s')
    (hok : Effective s a) (hnew : s'.wire = s.wire ++ [m]) (hack : s'.AcksDisable p m = true) :
    s'.Quiet p (s.wire.length + 1) := by
  have hlength : s'.wire.length = s.wire.length + 1 := by
    rw [hnew, List.length_append, List.length_singleton]
  obtain ⟨n, rqst, rfl, hrqst, hdisable, hpin⟩ := acksDisable_iff.mp hack
  have hsame {m' : Message} (hwire : s'.wire = s.wire ++ [m']) : .reply n (.ack (.ok ())) = m' :=
    List.singleton_inj.mp (List.append_cancel_left (hnew.symm.trans hwire))
  rcases hsteps.wire with hwire | ⟨n', response, -, hphase, hwire⟩
    | ⟨i, t, message, phase, rfl, ht, hout, hwire⟩
  · rw [hwire] at hlength
    exact absurd hlength (Nat.lt_succ_self _).ne
  · -- the dispatcher has no such request
    obtain ⟨rfl, rfl⟩ := Message.reply.inj (hsame hwire)
    have hfits := hnumbered.dispatch
    rw [hphase] at hfits
    rcases hfits with ⟨gpio, hgpio⟩ | hspawn
    · exact absurd (hrqst.symm.trans (hsteps.request hgpio)) nofun
    · exact absurd hspawn nofun
  · obtain rfl := hsame hwire
    have hseq : n = t.seqNo := by
      rcases Task.outgoing_cases hout with ⟨_, -, hm, -⟩ | ⟨_, _, -, hm, -⟩ | ⟨_, _, _, _, -, hm, -⟩
      · exact (Message.reply.inj hm).1
      · exact (Message.reply.inj hm).1
      · exact absurd hm nofun
    subst hseq
    have hrqst' := (hnumbered.task i t ht).2
    obtain rfl : rqst = t.rqst :=
      Request.pinMonitor.inj (Option.some.inj (hrqst.symm.trans (hsteps.request hrqst')))
    have hack' := acksDisable_iff.mpr ⟨t.seqNo, t.rqst, rfl, hrqst', hdisable, hpin⟩
    have hmem : .reply t.seqNo (.ack (.ok ())) ∈ ((s.tasks i).bind Task.outgoing).map Prod.fst := by
      rw [ht, Option.bind_some, hout]
      rfl
    intro hnot
    rw [List.take_of_length_le hlength.le, hnew] at hnot
    rcases hok _ hmem p hack' with hout' | htold
    · exact absurd ((hout'.append hack').mono hsteps.requests.1) hnot
    · refine ⟨fun j t' ht' hholds => ?_, fun m hm => ?_⟩
      · cases hsteps with
        | @task _ t₀ _ e ht₀ hpath =>
          obtain rfl := Option.some.inj (ht.symm.trans ht₀)
          cases hpath with
          | stopped hselect | edge hselect | wait hselect => exact nomatch hselect
          | put hout' =>
            rcases tasks_apply ht' with ⟨-, phase', hphase', rfl⟩ | ⟨-, hother⟩
            · -- a disable has no pin
              exfalso
              obtain rfl := Option.some.inj hphase'
              have hholds' := (Task.holds_of_outgoing hout').symm.trans hholds
              have henable := ((hnumbered.fits i t ht).pin p (Phase.wants_of_holds hholds')).1
              exact absurd (hdisable.symm.trans henable) nofun
            · exact htold j t' hother hholds
      · rw [List.drop_eq_nil_of_le hlength.le] at hm
        exact absurd hm List.not_mem_nil

/-- The host receives one message at a time. -/
theorem Steps.received (h : Steps s a s') :
    s'.received = s.received
      ∨ (a = .receive ∧ s.received < s.wire.length
        ∧ s' = { s with received := s.received + 1 }) := by
  cases h with
  | receive hmore => exact .inr ⟨rfl, hmore, rfl⟩
  | send | edge | tick | task => exact .inl rfl
  | dispatch hpath =>
    cases hpath with
    | spawn | full | unsupported | lock | handle | put | finish => exact .inl rfl

namespace State.Acknowledging

/-- Nothing is acknowledged. -/
theorem start (pad : Pin → Bool) (now : UInt64) : (start pad now).Acknowledging where
  sound := .start pad now
  unanswered _ _ h := absurd h nofun
  received := Nat.le_refl _
  quiet _ _ _ h := absurd h nofun
  released _ _ _ h := absurd h (Nat.not_lt_zero _)

/-- **Each disable that is acknowledged brings it about.** An older one has done so before; one
whose Ok goes on the wire in this step does so by `Effective`. -/
theorem step (h : s.Acknowledging) (hok : Effective s a) (hstep : step s a = some s') :
    s'.Acknowledging := by
  have hsteps := Steps.of_step hstep
  have hnumbered := h.sound.numbered
  refine ⟨h.sound.step hstep, h.unanswered.step hnumbered hsteps, ?_, fun k m p hm hack => ?_,
    fun k m p hk hm hack => ?_⟩
  · rcases hsteps.received with hsame | ⟨-, hmore, rfl⟩
    · exact hsame ▸ h.received.trans hsteps.wire_grows.length_le
    · exact hmore
  · by_cases hk : k < s.wire.length
    · obtain ⟨hold, hack'⟩ := hsteps.ack_before hnumbered hk hm hack
      exact (h.quiet k m p hold hack').step h.sound h.unanswered hk hsteps
    · -- it has just been put there
      have hput {m' : Message} (hwire : s'.wire = s.wire ++ [m']) : s'.Quiet p (k + 1) := by
        have hlt := (List.getElem?_eq_some_iff.mp hm).1
        rw [hwire, List.length_append, List.length_singleton] at hlt
        obtain rfl : k = s.wire.length := by omega
        rw [hwire, List.getElem?_concat_length] at hm
        obtain rfl := Option.some.inj hm
        exact hok.quiet hnumbered hsteps hwire hack
      rcases hsteps.wire with hwire | ⟨_, _, -, -, hwire⟩ | ⟨_, _, _, _, -, -, -, hwire⟩
      · rw [hwire] at hm
        exact absurd (List.getElem?_eq_some_iff.mp hm).1 hk
      · exact hput hwire
      · exact hput hwire
  · by_cases hreceived : k < s.received
    · obtain ⟨hold, hack'⟩ := hsteps.ack_before hnumbered (hreceived.trans_le h.received) hm hack
      exact (h.released k m p hreceived hold hack').step h.sound h.unanswered
        (hreceived.trans_le h.received) hstep
    · rcases hsteps.received with hsame | ⟨rfl, hmore, rfl⟩
      · exact absurd (hsame ▸ hk) hreceived
      · obtain rfl : k = s.received := Nat.le_antisymm (Nat.le_of_lt_succ hk)
          (Nat.not_lt.mp hreceived)
        exact fun hnot => (hok m hm p hack).resolve_left hnot

/-- And so in a run whose steps are effective. -/
theorem run (h : s.Acknowledging) {actions : List Action}
    (hok : Transition.Guarded Assistant.step Effective s actions)
    (hrun : Transition.run Assistant.step s actions = some u) : u.Acknowledging :=
  Transition.run_preserves_of_guarded (fun _ _ _ h hok hstep => h.step hok hstep) h hok hrun

end State.Acknowledging

/-! ## After the host has received it

What the host then sends is answered by handlers that find the pin in its slot. -/

/-- Unless the host had asked for a monitor of the pin, no request for it from a place
in the list of requests on is answered with `Busy`. -/
def State.NeverBusy (s : State) (p : Pin) (k m : ℕ) : Prop :=
  ¬ Outstanding p s.requests (s.wire.take k) →
    ∀ n rqst response, m ≤ n → s.requests[n]? = some (.gpio rqst) →
      pinIndex rqst.pin = some p → s.Responded n response → response.error ≠ some .busy

/-- **A handler says `Busy` of a pin that a monitor has**, and no monitor has this one. -/
theorem State.NeverBusy.step {m : ℕ} (h : s.NeverBusy p k m) (hsound : s.Sound)
    (hreleased : s.Released p k) (hk : k ≤ s.wire.length) (hstep : step s a = some s') :
    s'.NeverBusy p k m := by
  intro hnot n rqst response hn hrqst hpin hresponded
  have hnot' : ¬ Outstanding p s.requests (s.wire.take k) := fun hout =>
    hnot ((Steps.of_step hstep).outstanding hk hout)
  rcases responded_step hsound hstep ⟨hrqst, hresponded⟩ with ⟨hrqst', hresponded'⟩
    | ⟨-, -, -, hbusy⟩
  · exact h hnot' n rqst response hn hrqst' hpin hresponded'
  · intro herror
    obtain ⟨i, p', hpin', hi⟩ := hbusy.mp herror
    obtain rfl := Option.some.inj (hpin.symm.trans hpin')
    exact (hsound.conserved.slot p).mp (hreleased hnot') i hi

/-- The pin is free, and stays so. -/
structure State.Free (s : State) (p : Pin) (k m : ℕ) : Prop where
  /-- What the other parts are kept with. -/
  sound : s.Sound
  unanswered : s.Unanswered
  length : k ≤ s.wire.length
  quiet : s.Quiet p k
  released : s.Released p k
  neverBusy : s.NeverBusy p k m

/-- A free pin stays free. -/
theorem State.Free.step {m : ℕ} (h : s.Free p k m) (hstep : step s a = some s') :
    s'.Free p k m where
  sound := h.sound.step hstep
  unanswered := h.unanswered.step h.sound.numbered (.of_step hstep)
  length := h.length.trans (Steps.of_step hstep).wire_grows.length_le
  quiet := h.quiet.step h.sound h.unanswered h.length (.of_step hstep)
  released := h.released.step h.sound h.unanswered h.length hstep
  neverBusy := h.neverBusy.step h.sound h.released h.length hstep

/-- What has been sent stays sent. -/
theorem sent_grows {actions : List Action} (hrun : Transition.run step s actions = some u) :
    s.requests <+: u.requests ∧ s.wire <+: u.wire :=
  Transition.run_preserves (I := fun v => s.requests <+: v.requests ∧ s.wire <+: v.wire)
    (fun _ _ _ h hstep => ⟨h.1.trans (Steps.of_step hstep).requests.1,
      h.2.trans (Steps.of_step hstep).wire_grows⟩)
    ⟨List.prefix_rfl, List.prefix_rfl⟩ hrun

/-- **An acknowledged disable has taken effect**, in every run in which the disables
are effective where they are acknowledged. -/
theorem disable_taken_effect (pad : Pin → Bool) (now : UInt64) (before after : List Action)
    (s u : State) (p : Pin)
    (hok : Transition.Guarded step Effective (start pad now) before)
    (hbefore : Transition.run step (start pad now) before = some s)
    (hafter : Transition.run step s after = some u) (hdisabled : s.Disabled p)
    (hlater : ∀ rqst ∈ u.requests.drop s.requests.length, rqst.Enables p = false) :
    Unmonitored p s u := by
  obtain ⟨⟨k, m, hreceived, hm, hack⟩, hanswered⟩ := hdisabled
  have h := (State.Acknowledging.start pad now).run hok hbefore
  have hk : k + 1 ≤ s.wire.length := hreceived ▸ h.received
  rw [hreceived] at hanswered
  have hfree : s.Free p (k + 1) s.requests.length :=
    ⟨h.sound, h.unanswered, hk, h.quiet k m p hm hack,
      h.released k m p (hreceived ▸ Nat.lt_succ_self k) hm hack, by
        intro _ n rqst response hn hrqst
        exact absurd (List.getElem?_eq_some_iff.mp hrqst).1 (Nat.not_lt.mpr hn)⟩
  have hfree' : u.Free p (k + 1) s.requests.length :=
    Transition.run_preserves (I := fun v => v.Free p (k + 1) s.requests.length)
      (fun _ _ _ h hstep => h.step hstep) hfree hafter
  obtain ⟨⟨more, hmore⟩, ⟨rest, hrest⟩⟩ := sent_grows hafter
  -- of the requests to monitor the pin there are still only those that have been answered
  have hanswered' : ¬ Outstanding p u.requests (u.wire.take (k + 1)) := by
    rintro ⟨n, hn, henables, hmessages⟩
    rw [← hrest, List.take_append_of_le_length hk] at hmessages
    rw [← hmore] at henables
    by_cases hold : n < s.requests.length
    · rw [List.getElem?_append_left hold] at henables
      exact hanswered ⟨n, hold, henables, hmessages⟩
    · rw [List.getElem?_append_right (Nat.not_lt.mp hold)] at henables
      obtain ⟨rqst, hrqst, henables⟩ := (Option.any_eq_true _ _).mp henables
      have hnone := hlater rqst (by
        rw [← hmore, List.drop_left]
        exact List.mem_of_getElem? hrqst)
      rw [hnone] at henables
      exact absurd henables nofun
  unfold Unmonitored
  rw [hreceived]
  exact ⟨hfree'.neverBusy hanswered', (hfree'.quiet hanswered').2⟩

/-- Pin 2 is monitored, and the dispatcher is replying to a read of pin 3. -/
def monitoredRun : List Action :=
  [.send (.pinMonitor ⟨2, true⟩), .dispatch .poll, .task 0 .poll, .task 0 .poll, .task 0 .put,
    .task 0 (.done true), .receive,
    .send (.gpio (.read ⟨3⟩)), .dispatch .poll, .dispatch .poll]

/-- It has replied, and the monitor is told to stop. It has put the pin back where the
host receives the Ok. -/
def disabledRun : List Action :=
  monitoredRun ++ [.dispatch .put, .dispatch (.done true), .receive,
    .send (.pinMonitor ⟨2, false⟩), .dispatch .poll, .task 1 .poll, .task 1 .put,
    .task 1 (.done true), .task 0 .poll, .task 0 .poll, .receive]

/-- The host reads pin 2. -/
def readRun : List Action :=
  [.send (.gpio (.read ⟨2⟩)), .dispatch .poll, .dispatch .poll, .dispatch .put]

/-- The last message the host has received is the Ok of the disable. -/
theorem disabled_of_sent
    (hsent : s.requests = [.pinMonitor ⟨2, true⟩, .gpio (.read ⟨3⟩), .pinMonitor ⟨2, false⟩])
    (hwire : s.wire = [.reply 0 (.ack (.ok ())), .reply 1 (.level (.ok .low)),
      .reply 2 (.ack (.ok ()))])
    (hreceived : s.received = 3) : s.Disabled 2 := by
  refine ⟨⟨2, .reply 2 (.ack (.ok ())), hreceived, by rw [hwire]; rfl, ?_⟩, ?_⟩
  · show s.requests[2]?.any _ = true
    rw [hsent]
    rfl
  · rw [hsent, hwire, hreceived]
    decide

/-- This disable has taken effect: the read is answered with the level. -/
theorem disabledRun_unmonitored :
    ∃ s u, Transition.run step (start (fun _ => false) 0) disabledRun = some s
      ∧ Transition.run step s readRun = some u ∧ s.Disabled 2 ∧ Unmonitored 2 s u := by
  have hend : (Transition.run step (start (fun _ => false) 0) (disabledRun ++ readRun)).map
      State.requests = some [.pinMonitor ⟨2, true⟩, .gpio (.read ⟨3⟩), .pinMonitor ⟨2, false⟩,
        .gpio (.read ⟨2⟩)] := by
    decide +kernel
  have hstate : (Transition.run step (start (fun _ => false) 0) disabledRun).map
      (fun s => (s.requests, s.wire, s.received))
        = some ([.pinMonitor ⟨2, true⟩, .gpio (.read ⟨3⟩), .pinMonitor ⟨2, false⟩],
          [.reply 0 (.ack (.ok ())), .reply 1 (.level (.ok .low)), .reply 2 (.ack (.ok ()))],
          3) := by
    decide +kernel
  obtain ⟨u, hu, hrequests⟩ := Option.map_eq_some_iff.mp hend
  obtain ⟨s, hrun, hu⟩ := Transition.run_append_eq_some.mp hu
  rw [hrun] at hstate
  obtain ⟨hsent, hrest⟩ := Prod.mk.inj (Option.some.inj hstate)
  obtain ⟨hwire, hreceived⟩ := Prod.mk.inj hrest
  have hdisabled := disabled_of_sent hsent hwire hreceived
  refine ⟨s, u, hrun, hu, hdisabled, ?_⟩
  refine disable_taken_effect _ _ disabledRun readRun s u 2 (by decide +kernel) hrun hu hdisabled ?_
  rw [hrequests, hsent]
  decide

/-- There is an edge before the dispatcher has replied, and the monitor is about to
publish it; but first the disable is taken, and its Ok goes on the wire. -/
def overtakenRun : List Action :=
  monitoredRun ++ [.edge 2 true, .task 0 .poll, .dispatch .put, .dispatch (.done true), .receive,
    .send (.pinMonitor ⟨2, false⟩), .dispatch .poll, .task 1 .poll, .task 1 .put,
    .task 1 (.done true), .receive]

/-- **An acknowledged disable has not always taken effect.** The host's read of the pin
is answered with `Busy`, and the event comes after the Ok. -/
theorem overtakenRun_monitored :
    ¬ ∀ (pad : Pin → Bool) (now : UInt64) (before after : List Action) (s u : State) (p : Pin),
        Transition.run step (start pad now) before = some s →
        Transition.run step s after = some u → s.Disabled p →
        (∀ rqst ∈ u.requests.drop s.requests.length, rqst.Enables p = false) →
          Unmonitored p s u := by
  intro h
  have hend : (Transition.run step (start (fun _ => false) 0)
      (overtakenRun ++ (readRun ++ [.task 0 .put]))).map (fun u => (u.requests, u.wire))
        = some ([.pinMonitor ⟨2, true⟩, .gpio (.read ⟨3⟩), .pinMonitor ⟨2, false⟩,
            .gpio (.read ⟨2⟩)],
          [.reply 0 (.ack (.ok ())), .reply 1 (.level (.ok .low)), .reply 2 (.ack (.ok ())),
            .reply 3 (.level (.error .busy)), .pinEdge 0 0 ⟨2, .high, 0⟩]) := by
    decide +kernel
  have hstate : (Transition.run step (start (fun _ => false) 0) overtakenRun).map
      (fun s => (s.requests, s.wire, s.received))
        = some ([.pinMonitor ⟨2, true⟩, .gpio (.read ⟨3⟩), .pinMonitor ⟨2, false⟩],
          [.reply 0 (.ack (.ok ())), .reply 1 (.level (.ok .low)), .reply 2 (.ack (.ok ()))],
          3) := by
    decide +kernel
  obtain ⟨u, hu, hlast⟩ := Option.map_eq_some_iff.mp hend
  obtain ⟨hrequests, hlast⟩ := Prod.mk.inj hlast
  obtain ⟨s, hrun, hu⟩ := Transition.run_append_eq_some.mp hu
  rw [hrun] at hstate
  obtain ⟨hsent, hrest⟩ := Prod.mk.inj (Option.some.inj hstate)
  obtain ⟨hwire, hreceived⟩ := Prod.mk.inj hrest
  obtain ⟨-, hquiet⟩ := h _ _ overtakenRun _ s u 2 hrun hu
    (disabled_of_sent hsent hwire hreceived) (by
      rw [hrequests, hsent]
      decide)
  have hedge := hquiet (.pinEdge 0 0 ⟨2, .high, 0⟩) (by
    rw [hlast, hreceived]
    decide)
  exact absurd hedge (by decide)

end Assistant

end Banc
