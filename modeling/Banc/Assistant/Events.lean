import Banc.Assistant.Stop
import Banc.Lib.History

/-!
# The events of a monitor

A monitor sees an edge at one moment, when it reads the level and the clock, and the
event of it goes on the wire at some later one, if at all: the sending may fail, and
the monitor counts on. What the host can rely on is proved here for every run. A monitor
sends the events it has seen, in this order, each with its number modulo 2¹⁶, and does
not begin with the next before the sending of one is over. What is on the wire are
those whose sending has put them there: an event is missing exactly if its own sending
has failed, whatever becomes of the others and of those of other monitors, so a gap in
the numbers tells how many there are. They come after the reply that there is a monitor.
And the events of one pin, whatever monitors it has had, are in the order of their
times, as long as the clock does not wrap.
-/

namespace Banc

namespace Assistant

variable {s s' u : State} {a : Action} {turn : Turn} {e : Effect} {t : Task} {i : TaskId}
  {n : ℕ} {p : Pin}

/-! ## Edges that are seen

The host gets to know an edge by its event, and the event is made in the turn in which the
monitor looks: that is what is recorded here, for each monitor. How its sendings come out is
recorded beside it, so that it can be said which of the events are on the wire. -/

/-- The event of the edge that a monitor sees in its turn. -/
def State.sees (s : State) (t : Task) : Turn → List PinEvent
  | .poll =>
    match t.phase with
    | .selecting idx _ _ true =>
      if s.stop idx then [] else [⟨t.rqst.pin, icdLevel (s.pad idx), s.now⟩]
    | _ => []
  | .put | .done _ => []

/-- The event, with the request that has started the monitor. -/
def State.observes (s : State) : Action → List (ℕ × PinEvent)
  | .task i turn =>
    ((s.tasks i).map (fun t => (s.sees t turn).map (fun ev => (t.seqNo, ev)))).getD []
  | _ => []

/-- What the monitor that the request has started has seen. -/
def eventsOf (n : ℕ) (seen : List (ℕ × PinEvent)) : List PinEvent :=
  (seen.filter (fun x => x.1 == n)).map Prod.snd

/-- The messages of a monitor that has seen the events. -/
def numbered (n : ℕ) (events : List PinEvent) : List Message :=
  events.zipIdx.map (fun x => .pinEdge n (UInt16.ofNat x.2) x.1)

/-- What becomes of the event that a monitor is publishing: it goes on the wire, or the
sending of it fails before it is there. -/
def Task.settles (t : Task) : Turn → List (Message × Bool)
  | .put => t.pending.map (fun message => (message, true))
  | .done false => t.pending.map (fun message => (message, false))
  | .poll | .done true => []

/-- The same, of whichever task has its turn. -/
def State.settles (s : State) : Action → List (Message × Bool)
  | .task i turn => ((s.tasks i).map (fun t => t.settles turn)).getD []
  | _ => []

/-- The sendings of the events of the monitor that the request has started. -/
def sendingsOf (n : ℕ) (sendings : List (Message × Bool)) : List (Message × Bool) :=
  sendings.filter (fun x => Message.Of n x.1)

/-- What they have put on the wire. -/
def delivered (sendings : List (Message × Bool)) : List Message :=
  (sendings.filter Prod.snd).map Prod.fst

/-- The number of the next event. -/
def Phase.count : Phase → Option UInt16
  | .selecting _ _ seq _ => some seq
  | .publishing _ _ seq _ _ => some (seq + 1)
  | .spawned | .locking _ | .replying _ _ | .confirming _ _ _ => some 0
  | .restoring _ _ => none

/-- A monitor that sees one more event. -/
theorem eventsOf_append (n : ℕ) (seen : List (ℕ × PinEvent)) (event : PinEvent) :
    eventsOf n (seen ++ [(n, event)]) = eventsOf n seen ++ [event] := by
  unfold eventsOf
  rw [List.filter_append, List.map_append,
    List.filter_cons_of_pos (p := fun x : ℕ × PinEvent => x.1 == n) (beq_self_eq_true n)]
  rfl

/-- What another has seen is not among them. -/
theorem eventsOf_append_of_ne {m : ℕ} (hne : m ≠ n) (seen : List (ℕ × PinEvent))
    (events : List PinEvent) :
    eventsOf n (seen ++ events.map (fun ev => (m, ev))) = eventsOf n seen := by
  unfold eventsOf
  have hnone : (events.map (fun ev => (m, ev))).filter (fun x => x.1 == n) = [] := by
    refine List.filter_eq_nil_iff.mpr (fun x hx => ?_)
    obtain ⟨ev, -, rfl⟩ := List.mem_map.mp hx
    rw [beq_false_of_ne hne]
    exact nofun
  rw [List.filter_append, hnone, List.append_nil]

/-- The next event has the next number. -/
theorem numbered_append (n : ℕ) (events : List PinEvent) (event : PinEvent) :
    numbered n (events ++ [event])
      = numbered n events ++ [.pinEdge n (UInt16.ofNat events.length) event] := by
  unfold numbered
  rw [List.zipIdx_append, List.map_append]
  simp

/-- What a step observes is what its task sees. -/
theorem observes_of_task (ht : s.tasks i = some t) :
    s.observes (.task i turn) = (s.sees t turn).map (fun ev => (t.seqNo, ev)) := by
  unfold State.observes
  dsimp only
  rw [ht]
  rfl

/-- What a task still has to publish after its turn. -/
def Effect.pending (e : Effect) (t : Task) : List Message :=
  (e.phase.map (fun phase => Task.pending { t with phase := phase })).getD []

/-- An edge has no number until it is seen. -/
theorem Task.edge_count (p : Pin) (t : Task) : (t.edge p).phase.count = t.phase.count := by
  unfold Task.edge
  split
  case h_1 hphase =>
    rw [hphase]
    rfl
  case h_2 => rfl

/-- What a step settles is what its task does. -/
theorem settles_of_task (ht : s.tasks i = some t) : s.settles (.task i turn) = t.settles turn := by
  unfold State.settles
  dsimp only
  rw [ht]
  rfl

/-- A task that publishes nothing settles nothing. -/
theorem Task.settles_of_nil (h : t.pending = []) (turn : Turn) : t.settles turn = [] := by
  unfold Task.settles
  rw [h]
  cases turn with
  | poll | put => rfl
  | done ok =>
    cases ok with
    | true => rfl
    | false => rfl

/-- A sending that is over has failed, if the event is not on the wire. -/
theorem Task.settles_done {ok : Bool} (hdone : ok = true → t.pending = []) :
    (t.settles (.done ok)).map Prod.fst = t.pending ∧ delivered (t.settles (.done ok)) = [] := by
  cases ok with
  | true =>
    rw [t.settles_of_nil (hdone rfl), hdone rfl]
    exact ⟨rfl, rfl⟩
  | false =>
    show (t.pending.map (fun message => (message, false))).map Prod.fst = t.pending
      ∧ delivered (t.pending.map (fun message => (message, false))) = []
    unfold Task.pending
    split
    · exact ⟨rfl, rfl⟩
    · exact ⟨rfl, rfl⟩

/-- What is settled is of the monitor whose turn it is. -/
theorem Task.of_mem_settles {x : Message × Bool} (h : x ∈ t.settles turn) :
    Message.Of n x.1 = (t.seqNo == n) := by
  have hof : ∀ message ∈ t.pending, Message.Of n message = (t.seqNo == n) := by
    intro message hmessage
    unfold Task.pending at hmessage
    split at hmessage
    · rw [List.mem_singleton.mp hmessage]
      rfl
    · exact absurd hmessage List.not_mem_nil
  unfold Task.settles at h
  split at h
  · obtain ⟨message, hmessage, rfl⟩ := List.mem_map.mp h
    exact hof message hmessage
  · obtain ⟨message, hmessage, rfl⟩ := List.mem_map.mp h
    exact hof message hmessage
  all_goals exact absurd h List.not_mem_nil

/-- A sending of a monitor is the last of its own. -/
theorem sendingsOf_append (sendings : List (Message × Bool)) :
    sendingsOf t.seqNo (sendings ++ t.settles turn)
      = sendingsOf t.seqNo sendings ++ t.settles turn := by
  unfold sendingsOf
  rw [List.filter_append]
  congr 1
  refine List.filter_eq_self.mpr (fun x hx => ?_)
  rw [Task.of_mem_settles hx, beq_self_eq_true]

/-- And none of another's. -/
theorem sendingsOf_append_of_ne (hne : t.seqNo ≠ n) (sendings : List (Message × Bool)) :
    sendingsOf n (sendings ++ t.settles turn) = sendingsOf n sendings := by
  unfold sendingsOf
  have hnone : (t.settles turn).filter (fun x => Message.Of n x.1) = [] := by
    refine List.filter_eq_nil_iff.mpr (fun x hx => ?_)
    rw [Task.of_mem_settles hx, beq_false_of_ne hne]
    exact nofun
  rw [List.filter_append, hnone, List.append_nil]

/-- What is delivered is so sending by sending. -/
theorem delivered_append (sendings sendings' : List (Message × Bool)) :
    delivered (sendings ++ sendings') = delivered sendings ++ delivered sendings' := by
  unfold delivered
  rw [List.filter_append, List.map_append]

/-- **What a task was publishing is accounted for**: it is on the wire after the turn, or its
sending has failed, or it is still to be published. -/
def Effect.Accounts (e : Effect) (t : Task) (turn : Turn) : Prop :=
  (t.settles turn).map Prod.fst ++ e.pending t = t.pending
    ∧ delivered (t.settles turn) = e.message.toList.filter (Message.Of t.seqNo)

/-- A task is publishing only in the one phase. -/
theorem Task.pending_of_phase {phase : Phase} (hphase : t.phase = phase)
    (hnot : ∀ idx pin seq event, phase ≠ .publishing idx pin seq event false) :
    t.pending = [] := by
  unfold Task.pending
  rw [hphase]
  split
  · exact absurd rfl (hnot _ _ _ _)
  · rfl

/-- A turn in which nothing is being published. -/
theorem Effect.accounts_of_quiet (hnone : t.pending = []) (hpending : e.pending t = [])
    (hmessage : e.message = none) : e.Accounts t turn := by
  unfold Effect.Accounts
  rw [t.settles_of_nil hnone, hpending, hnone, hmessage]
  exact ⟨rfl, rfl⟩

/-- A turn in which a sending is over. -/
theorem Effect.accounts_of_done {ok : Bool} (hdone : ok = true → t.pending = [])
    (hpending : e.pending t = []) (hmessage : e.message = none) : e.Accounts t (.done ok) := by
  obtain ⟨hall, hno⟩ := Task.settles_done hdone
  unfold Effect.Accounts
  rw [hall, hno, hpending, hmessage, List.append_nil]
  exact ⟨rfl, rfl⟩

/-- A turn in which something goes on the wire, whether it is an event or a reply. -/
theorem Effect.accounts_of_put {message : Message} {phase : Phase}
    (hout : t.outgoing = some (message, phase)) :
    Effect.Accounts { s.next phase with message := some message } t .put := by
  unfold Effect.Accounts Task.settles Task.pending
  rcases Task.outgoing_cases hout with ⟨_, hphase, rfl, rfl⟩ | ⟨_, _, hphase, rfl, rfl⟩
    | ⟨_, _, seq, event, hphase, rfl, rfl⟩
  · rw [hphase]
    exact ⟨rfl, rfl⟩
  · rw [hphase]
    exact ⟨rfl, rfl⟩
  · rw [hphase]
    have hof : Message.Of t.seqNo (.pinEdge t.seqNo seq event) = true := beq_self_eq_true _
    exact ⟨rfl, (List.filter_cons_of_pos (l := []) hof).symm⟩

/-- **A turn sees an edge, and is to publish its event next; or it sees none**, and then what
it was publishing is accounted for. -/
theorem Path.events (hpath : Path s t turn e) (hdone : turn = .done true → t.pending = []) :
    (∃ idx pin seq event, s.sees t turn = [event] ∧ t.phase.count = some seq ∧ t.pending = []
        ∧ e.phase = some (.publishing idx pin seq event false) ∧ e.message = none)
      ∨ (s.sees t turn = []
        ∧ (∀ phase c, e.phase = some phase → phase.count = some c → t.phase.count = some c)
        ∧ e.Accounts t turn) := by
  cases hpath with
  | unsupported hphase | signal hphase | lock hphase | busy hphase | take hphase =>
    refine .inr ⟨?_, fun phase c hphase' hcount => ?_,
      Effect.accounts_of_quiet (Task.pending_of_phase hphase nofun) rfl rfl⟩
    · unfold State.sees
      rw [hphase]
    · obtain rfl := Option.some.inj hphase'
      rw [hphase]
      exact hcount
  | put hout =>
    refine .inr ⟨rfl, fun phase c hphase' hcount => ?_, Effect.accounts_of_put hout⟩
    obtain rfl := Option.some.inj hphase'
    rcases Task.outgoing_cases hout with ⟨_, hphase, -, rfl⟩ | ⟨_, _, hphase, -, rfl⟩
      | ⟨_, _, _, _, hphase, -, rfl⟩
    all_goals
      rw [hphase]
      exact hcount
  | finish hphase =>
    exact .inr ⟨rfl, fun _ _ hphase' => absurd hphase' nofun,
      Effect.accounts_of_quiet (Task.pending_of_phase hphase nofun) rfl rfl⟩
  | unconfirmed hphase =>
    refine .inr ⟨rfl, fun phase c hphase' hcount => ?_,
      Effect.accounts_of_quiet (Task.pending_of_phase hphase nofun) rfl rfl⟩
    obtain rfl := Option.some.inj hphase'
    exact absurd hcount nofun
  -- an edge that is there with the stop is not seen
  | @stopped _ idx pin seq edge hselect hstop =>
    have hcount (phase : Phase) (c : UInt16) (hphase' : some (Phase.restoring idx pin) = some phase)
        (hcount : phase.count = some c) : t.phase.count = some c := by
      obtain rfl := Option.some.inj hphase'
      exact absurd hcount nofun
    cases hselect with
    | confirmed hphase =>
      exact .inr ⟨rfl, hcount,
        Effect.accounts_of_quiet (Task.pending_of_phase hphase nofun) rfl rfl⟩
    | woken hphase =>
      refine .inr ⟨?_, hcount,
        Effect.accounts_of_quiet (Task.pending_of_phase hphase nofun) rfl rfl⟩
      unfold State.sees
      rw [hphase]
      cases edge with
      | true => exact if_pos hstop
      | false => rfl
    | published hphase =>
      exact .inr ⟨rfl, hcount, Effect.accounts_of_done (fun hok => hdone (hok ▸ rfl)) rfl rfl⟩
  -- the one way in which an event is seen
  | edge hselect hstop =>
    cases hselect with
    | woken hphase =>
      refine .inl ⟨_, _, _, _, ?_, by rw [hphase]; rfl, Task.pending_of_phase hphase nofun,
        rfl, rfl⟩
      unfold State.sees
      rw [hphase]
      exact if_neg (by rw [hstop]; exact nofun)
  | @wait _ idx pin seq hselect hstop =>
    have hcount (phase : Phase) (c : UInt16) (hcount : t.phase.count = some seq)
        (hphase' : some (Phase.selecting idx pin seq false) = some phase)
        (hcount' : phase.count = some c) : t.phase.count = some c := by
      obtain rfl := Option.some.inj hphase'
      exact hcount.trans hcount'
    cases hselect with
    | confirmed hphase =>
      exact .inr ⟨rfl, fun phase c => hcount phase c (by rw [hphase]; rfl),
        Effect.accounts_of_quiet (Task.pending_of_phase hphase nofun) rfl rfl⟩
    | woken hphase =>
      refine .inr ⟨?_, fun phase c => hcount phase c (by rw [hphase]; rfl),
        Effect.accounts_of_quiet (Task.pending_of_phase hphase nofun) rfl rfl⟩
      unfold State.sees
      rw [hphase]
    | published hphase =>
      exact .inr ⟨rfl, fun phase c => hcount phase c (by rw [hphase]; rfl),
        Effect.accounts_of_done (fun hok => hdone (hok ▸ rfl)) rfl rfl⟩
  | restore hphase =>
    refine .inr ⟨?_, fun _ _ hphase' => absurd hphase' nofun,
      Effect.accounts_of_quiet (Task.pending_of_phase hphase nofun) rfl rfl⟩
    unfold State.sees
    rw [hphase]

/-! ## What is published of what is seen

A monitor has at most one event that it is sending, and comes back to its `select` only when
that sending is over. So the sendings that are over, and the one that is not, are the events
it has seen. -/

/-- A sending that has not failed is one of what is on the wire. -/
theorem pending_of_done (hstep : step s (.task i (.done true)) = some s')
    (ht : s.tasks i = some t) : t.pending = [] := by
  obtain ⟨t', ht', hmap⟩ := Option.bind_eq_some_iff.mp hstep
  obtain rfl := Option.some.inj (ht.symm.trans ht')
  obtain ⟨e, he, -⟩ := Option.map_eq_some_iff.mp hmap
  replace he : s.done t true = some e := he
  unfold State.done at he
  unfold Task.pending
  split
  case h_1 hphase =>
    rw [hphase] at he
    exact absurd he nofun
  case h_2 => rfl

/-- **What a monitor has published and what it has seen.** -/
structure State.Observed (s : State) (seen : List (ℕ × PinEvent))
    (sendings : List (Message × Bool)) : Prop where
  /-- A request that was not taken has no monitor that could have seen something. -/
  fresh : ∀ n, s.taken ≤ n → eventsOf n seen = []
  /-- The number of the next event is how many it has seen. -/
  count : ∀ i t c, s.tasks i = some t → t.phase.count = some c →
    c = UInt16.ofNat (eventsOf t.seqNo seen).length
  /-- Each event it has seen has its own sending, in order, or is still to be sent. -/
  task : ∀ i t, s.tasks i = some t →
    (sendingsOf t.seqNo sendings).map Prod.fst ++ t.pending
      = numbered t.seqNo (eventsOf t.seqNo seen)
  /-- And once it is gone, none is still to be sent. -/
  gone : ∀ n, s.Gone n → (sendingsOf n sendings).map Prod.fst = numbered n (eventsOf n seen)
  /-- What is on the wire was put there by a sending. -/
  published : ∀ n, s.published n = delivered (sendingsOf n sendings)

namespace State.Observed

variable {seen : List (ℕ × PinEvent)} {sendings : List (Message × Bool)}

/-- Nothing was seen, and nothing sent. -/
theorem start (pad : Pin → Bool) (now : UInt64) : (start pad now).Observed [] [] where
  fresh _ _ := rfl
  count _ _ _ h := absurd h nofun
  task _ _ h := absurd h nofun
  gone _ _ := rfl
  published _ := rfl

/-- Steps of no task. -/
theorem others (h : s.Observed seen sendings) (htaken : s.taken ≤ s'.taken)
    (hpublished : ∀ n, s'.published n = s.published n)
    (hback : ∀ n, s'.Gone n → s.Gone n)
    (htasks : ∀ j u, s'.tasks j = some u →
      (∃ t, s.tasks j = some t ∧ u.seqNo = t.seqNo ∧ u.phase.count = t.phase.count
          ∧ u.pending = t.pending)
        ∨ (u.seqNo = s.taken ∧ s.Gone s.taken ∧ u.phase = .spawned)) :
    s'.Observed seen sendings where
  fresh n hn := h.fresh n (htaken.trans hn)
  count j u c hu hcount := by
    rcases htasks j u hu with ⟨t, ht, hseq, hsame, -⟩ | ⟨hseq, -, hspawned⟩
    · rw [hseq]
      exact h.count j t c ht (hsame.symm.trans hcount)
    · rw [hspawned] at hcount
      rw [hseq, h.fresh _ (Nat.le_refl _)]
      exact (Option.some.inj hcount).symm
  task j u hu := by
    rcases htasks j u hu with ⟨t, ht, hseq, -, hpending⟩ | ⟨hseq, hgone, hspawned⟩
    · rw [hseq, hpending]
      exact h.task j t ht
    · have hnone : u.pending = [] := by
        unfold Task.pending
        rw [hspawned]
      rw [hseq, hnone, List.append_nil]
      exact h.gone _ hgone
  gone n hn := h.gone n (hback n hn)
  published n := (hpublished n).trans (h.published n)

/-- Steps that leave the tasks as they are. -/
theorem same (h : s.Observed seen sendings) (htaken : s.taken ≤ s'.taken)
    (hpublished : ∀ n, s'.published n = s.published n) (htasks : s'.tasks = s.tasks) :
    s'.Observed seen sendings := by
  refine h.others htaken hpublished (fun n hn => ?_) (fun j u hu => .inl ⟨u, ?_, rfl, rfl, rfl⟩)
  · unfold State.Gone at hn
    rwa [htasks] at hn
  · rwa [htasks] at hu

/-- A task has its turn, and then is at `phase`, or has returned. -/
theorem resume (h : s.Observed seen sendings) (hsound : s.Sound) (ht : s.tasks i = some t)
    {events : List PinEvent}
    (hcount : ∀ phase c, e.phase = some phase → phase.count = some c →
      c = UInt16.ofNat (eventsOf t.seqNo (seen ++ events.map (fun ev => (t.seqNo, ev)))).length)
    (hsent : (sendingsOf t.seqNo sendings).map Prod.fst ++ ((t.settles turn).map Prod.fst
        ++ e.pending t)
      = numbered t.seqNo (eventsOf t.seqNo (seen ++ events.map (fun ev => (t.seqNo, ev)))))
    (hdelivered : delivered (t.settles turn) = e.message.toList.filter (Message.Of t.seqNo))
    (hothers : ∀ n, t.seqNo ≠ n → (s.apply i t e).published n = s.published n) :
    (s.apply i t e).Observed (seen ++ events.map (fun ev => (t.seqNo, ev)))
      (sendings ++ t.settles turn) where
  fresh n hn := by
    have hlt : t.seqNo < n := (hsound.numbered.task i t ht).1.trans_le hn
    rw [eventsOf_append_of_ne hlt.ne]
    exact h.fresh n hn
  count j u c hu hc := by
    rcases tasks_apply hu with ⟨rfl, phase, hphase, rfl⟩ | ⟨hj, hsame⟩
    · exact hcount phase c hphase hc
    · have hne : t.seqNo ≠ u.seqNo := fun heq =>
        hj (hsound.numbered.distinct j i u t hsame ht heq.symm)
      rw [eventsOf_append_of_ne hne]
      exact h.count j u c hsame hc
  task j u hu := by
    rcases tasks_apply hu with ⟨rfl, phase, hphase, rfl⟩ | ⟨hj, hsame⟩
    · have hpending : e.pending t = Task.pending { t with phase := phase } := by
        unfold Effect.pending
        rw [hphase]
        rfl
      show (sendingsOf t.seqNo _).map _ ++ Task.pending { t with phase := phase } = _
      rw [sendingsOf_append, List.map_append, List.append_assoc, ← hpending]
      exact hsent
    · have hne : t.seqNo ≠ u.seqNo := fun heq =>
        hj (hsound.numbered.distinct j i u t hsame ht heq.symm)
      rw [eventsOf_append_of_ne hne, sendingsOf_append_of_ne hne]
      exact h.task j u hsame
  gone n hn := by
    by_cases heq : t.seqNo = n
    · subst heq
      have hnone : e.phase = none := by
        cases hphase : e.phase with
        | none => rfl
        | some phase =>
          refine absurd rfl (hn i { t with phase := phase } ?_)
          show Function.update s.tasks i _ i = _
          rw [Function.update_self, hphase]
          rfl
      have hpending : e.pending t = [] := by
        unfold Effect.pending
        rw [hnone]
        rfl
      rw [hpending, List.append_nil, ← List.map_append, ← sendingsOf_append] at hsent
      exact hsent
    · rw [eventsOf_append_of_ne heq, sendingsOf_append_of_ne heq]
      refine h.gone n (fun j u hu hseq => ?_)
      by_cases hj : j = i
      · subst hj
        exact heq ((Option.some.inj (ht.symm.trans hu)) ▸ hseq)
      · exact hn j u ((Function.update_of_ne hj ..).trans hu) hseq
  published n := by
    by_cases heq : t.seqNo = n
    · subst heq
      rw [published_apply, sendingsOf_append, delivered_append, hdelivered, h.published]
    · rw [sendingsOf_append_of_ne heq, hothers n heq]
      exact h.published n

/-- **A step, with what it has seen, and what it has sent.** -/
theorem step (h : s.Observed seen sendings) (hsound : s.Sound)
    (hstep : Assistant.step s a = some s') :
    s'.Observed (seen ++ s.observes a) (sendings ++ s.settles a) := by
  have hnone (hseen : s.observes a = []) (hsettles : s.settles a = [])
      (hsame : s'.Observed seen sendings) :
      s'.Observed (seen ++ s.observes a) (sendings ++ s.settles a) := by
    rw [hseen, hsettles, List.append_nil, List.append_nil]
    exact hsame
  have hsteps : Steps s a s' := .of_step hstep
  cases hsteps with
  | send rqst | receive | tick =>
    exact hnone rfl rfl (h.same (Nat.le_refl _) (fun _ => rfl) rfl)
  | edge q high =>
    refine hnone rfl rfl (h.others (Nat.le_refl _) (fun _ => rfl) (fun n hn j t ht => ?_)
      (fun j u hu => .inl ?_))
    · have hu : (s.tasks j).map (Task.edge q) = some (t.edge q) := by rw [ht]; rfl
      exact t.edge_seqNo q ▸ hn j _ hu
    · obtain ⟨t, ht, rfl⟩ := Option.map_eq_some_iff.mp hu
      exact ⟨t, ht, t.edge_seqNo q, t.edge_count q, t.edge_pending q⟩
  | @dispatch turn s' hpath =>
    refine hnone rfl rfl ?_
    have hpublished (n : ℕ) : s'.published n = s.published n :=
      (Steps.dispatch hpath).published_others (fun _ _ _ ha => absurd ha nofun)
    have htaken := (Steps.dispatch hpath).taken_le
    cases hpath with
    | @spawn rqst i hphase hrqst hfree =>
      refine h.others htaken hpublished (fun n hn j t ht => ?_) (fun j u hu => ?_)
      · refine hn j t ((Function.update_of_ne ?_ ..).trans ht)
        rintro rfl
        exact absurd (ht.symm.trans hfree) nofun
      · replace hu : Function.update s.tasks i _ j = some u := hu
        by_cases hj : j = i
        · subst hj
          rw [Function.update_self] at hu
          obtain rfl := Option.some.inj hu
          refine .inr ⟨rfl, fun k v hv heq => ?_, rfl⟩
          exact absurd heq (hsound.numbered.task k v hv).1.ne
        · rw [Function.update_of_ne hj] at hu
          exact .inl ⟨u, hu, rfl, rfl, rfl⟩
    | full | unsupported | lock | handle | put | finish => exact h.same htaken hpublished rfl
  | @task i t turn e ht hpath =>
    rw [observes_of_task ht, settles_of_task ht]
    have hothers (n : ℕ) (hne : t.seqNo ≠ n) : (s.apply i t e).published n = s.published n := by
      rw [published_apply, hpath.published hne, List.append_nil]
    have hold := h.task i t ht
    -- a sending does not return `Ok` with the event not on the wire
    have hdone : turn = .done true → t.pending = [] := by
      rintro rfl
      exact pending_of_done hstep ht
    rcases hpath.events hdone with ⟨idx, pin, seq, event, hsees, hcount, hpending, hphase, hmessage⟩
      | ⟨hsees, hcount, hsettled, hdelivered⟩
    · -- one more event, under the next number
      have hseq := h.count i t seq ht hcount
      rw [hsees]
      refine h.resume hsound ht (fun phase c hphase' hc => ?_) ?_ ?_ hothers
      · obtain rfl := Option.some.inj (hphase.symm.trans hphase')
        rw [List.map_singleton, eventsOf_append, List.length_append]
        obtain rfl := Option.some.inj hc
        rw [hseq]
        exact (UInt16.ofNat_add _ 1).symm
      · rw [hpending, List.append_nil] at hold
        rw [List.map_singleton, eventsOf_append, numbered_append, ← hseq, ← hold,
          t.settles_of_nil hpending]
        unfold Effect.pending
        rw [hphase]
        rfl
      · rw [t.settles_of_nil hpending, hmessage]
        rfl
    · rw [hsees]
      have hsame : seen ++ [].map (fun ev => (t.seqNo, ev)) = seen := List.append_nil seen
      refine h.resume hsound ht (fun phase c hphase' hc => ?_) ?_ hdelivered hothers
      · rw [hsame]
        exact h.count i t c ht (hcount phase c hphase' hc)
      · rw [hsame, hsettled]
        exact hold

end State.Observed

/-! ## When the host is told that there is a monitor

A monitor waits for the end of that reply before it looks at its pin for the first time, and
returns if it has failed. A reply that failed with the message on the wire makes no
monitor, but one that has not failed is there. -/

/-- The monitor has told the host that there is one. -/
def Phase.Confirmed : Phase → Bool
  | .confirming _ _ true | .selecting _ _ _ _ | .publishing _ _ _ _ _ => true
  | _ => false

/-- The reply to a request to monitor a pin. -/
def monitoring (n : ℕ) : Message := .reply n (.ack (.ok ()))

/-- **The reply precedes the events.** -/
structure State.Announced (s : State) : Prop where
  /-- A monitor that has told the host has its reply on the wire. -/
  task : ∀ i t, s.tasks i = some t → t.phase.Confirmed = true → monitoring t.seqNo ∈ s.wire
  wire : ∀ k n seq event, s.wire[k]? = some (.pinEdge n seq event) →
    monitoring n ∈ s.wire.take k

/-- An edge confirms nothing. -/
theorem Task.edge_confirmed (p : Pin) (t : Task) :
    (t.edge p).phase.Confirmed = t.phase.Confirmed := by
  rcases t.edge_phase p with h | ⟨_, _, _, _, _, hphase, hphase'⟩
  · rw [h]
  · rw [hphase, hphase']
    rfl

/-- A monitor in its loop has told the host. -/
theorem Task.Selects.confirmed_phase {idx : Pin} {pin : Flex} {seq : UInt16} {edge : Bool}
    (h : t.Selects turn idx pin seq edge) : t.phase.Confirmed = true := by
  cases h with
  | confirmed hphase | woken hphase | published hphase =>
    rw [hphase]
    rfl

/-- A monitor has told the host before its turn, or does so in it. -/
theorem Path.confirmed (hpath : Path s t turn e) {phase : Phase} (hphase' : e.phase = some phase)
    (hconfirmed : phase.Confirmed = true) :
    t.phase.Confirmed = true ∨ e.message = some (monitoring t.seqNo) := by
  cases hpath with
  | unsupported | signal | lock | busy | take | unconfirmed =>
    obtain rfl := Option.some.inj hphase'
    exact absurd hconfirmed nofun
  | put hout =>
    obtain rfl := Option.some.inj hphase'
    rcases Task.outgoing_cases hout with ⟨_, -, -, rfl⟩ | ⟨_, _, -, rfl, -⟩
      | ⟨_, _, _, _, hphase, -, -⟩
    · exact absurd hconfirmed nofun
    · exact .inr rfl
    · exact .inl (by rw [hphase]; rfl)
  | stopped hselect | edge hselect | wait hselect => exact .inl hselect.confirmed_phase
  | finish | restore => exact absurd hphase' nofun

namespace State.Announced

/-- There are no events. -/
theorem start (pad : Pin → Bool) (now : UInt64) : (start pad now).Announced where
  task _ _ h := absurd h nofun
  wire _ _ _ _ h := absurd h nofun

/-- Messages are added at the end of the wire, and only a monitor that has told the host
adds an event. -/
theorem of_append (h : s.Announced) {messages : List Message} (hwire : s'.wire = s.wire ++ messages)
    (htask : ∀ i t, s'.tasks i = some t → t.phase.Confirmed = true →
      monitoring t.seqNo ∈ s'.wire)
    (hone : ∀ (k n : ℕ) seq event, messages[k]? = some (.pinEdge n seq event) →
      monitoring n ∈ s.wire) : s'.Announced where
  task := htask
  wire k n seq event hk := by
    rw [hwire] at hk ⊢
    by_cases hlt : k < s.wire.length
    · rw [List.getElem?_append_left hlt] at hk
      rw [List.take_append_of_le_length hlt.le]
      exact h.wire k n seq event hk
    · rw [List.getElem?_append_right (not_lt.mp hlt)] at hk
      rw [List.take_append]
      refine List.mem_append_left _ ?_
      rw [List.take_of_length_le (not_lt.mp hlt)]
      exact hone _ n seq event hk

/-- Steps that put nothing on the wire. -/
theorem quiet (h : s.Announced) (hwire : s'.wire = s.wire)
    (htask : ∀ i t, s'.tasks i = some t → t.phase.Confirmed = true →
      monitoring t.seqNo ∈ s.wire) : s'.Announced where
  task := hwire ▸ htask
  wire := hwire ▸ h.wire

/-- **It stays so.** The reply goes on the wire before the monitor comes to its `select`, and an
event comes from there. -/
theorem step (h : s.Announced) (hsteps : Steps s a s') : s'.Announced := by
  have hsame (htasks : s'.tasks = s.tasks) (hwire : s'.wire = s.wire) : s'.Announced := by
    refine h.quiet hwire (fun i t ht hc => ?_)
    rw [htasks] at ht
    exact h.task i t ht hc
  cases hsteps with
  | send | receive | tick => exact hsame rfl rfl
  | edge p =>
    refine h.quiet rfl (fun i u hu hc => ?_)
    obtain ⟨t, ht, rfl⟩ := Option.map_eq_some_iff.mp hu
    rw [t.edge_seqNo p]
    exact h.task i t ht ((t.edge_confirmed p).symm.trans hc)
  | dispatch hpath =>
    cases hpath with
    | @spawn rqst i =>
      refine h.quiet rfl (fun j u hu hc => ?_)
      replace hu : Function.update s.tasks i _ j = some u := hu
      by_cases hj : j = i
      · subst hj
        rw [Function.update_self] at hu
        obtain rfl := Option.some.inj hu
        exact absurd hc nofun
      · rw [Function.update_of_ne hj] at hu
        exact h.task j u hu hc
    | full | unsupported | lock | handle | finish => exact hsame rfl rfl
    | @put n response =>
      have hwire : s.wire ++ [.reply n response] = s.wire ++ [.reply n response] := rfl
      refine h.of_append hwire
        (fun i t ht hc => List.mem_append_left _ (h.task i t ht hc)) (fun k m seq event hk => ?_)
      cases k with
      | zero => exact absurd (Option.some.inj hk) nofun
      | succ k => exact absurd hk nofun
  | @task i t turn e ht hpath =>
    have hwire : (s.apply i t e).wire = s.wire ++ e.message.toList := rfl
    refine h.of_append hwire (fun j u hu hc => ?_) (fun k m seq event hk => ?_)
    · show monitoring u.seqNo ∈ s.wire ++ e.message.toList
      rw [List.mem_append]
      rcases tasks_apply hu with ⟨rfl, phase, hphase, rfl⟩ | ⟨-, hsame⟩
      · rcases hpath.confirmed hphase hc with hold | hmessage
        · exact .inl (h.task j t ht hold)
        · rw [hmessage]
          exact .inr List.mem_cons_self
      · exact .inl (h.task j u hsame hc)
    · cases hmessage : e.message with
      | none =>
        rw [hmessage] at hk
        exact absurd hk nofun
      | some message =>
        rw [hmessage] at hk
        cases k with
        | succ k => exact absurd hk nofun
        | zero =>
          obtain rfl := Option.some.inj hk
          obtain ⟨-, phase, hout⟩ := hpath.message hmessage
          rcases Task.outgoing_cases hout with ⟨_, -, hm, -⟩ | ⟨_, _, -, hm, -⟩
            | ⟨_, _, _, _, hphase, hm, -⟩
          · exact absurd hm nofun
          · exact absurd hm nofun
          · obtain ⟨rfl, -, -⟩ := Message.pinEdge.inj hm
            exact h.task i t ht (by rw [hphase]; rfl)

end State.Announced

/-! ## The times of the events

One pin has one monitor at a time, so its events are sent one after the other, whatever
monitors it has had. The clock is one for all of them. -/

/-- The time of an event, if it is one of the pin. -/
def Message.stamp (pin : UInt8) : Message → Option UInt64
  | .pinEdge _ _ event => if event.pin = pin then some event.timestampUs else none
  | .reply _ _ => none

/-- The times of the events of a pin, as they have gone on the wire. -/
def State.stamps (s : State) (pin : UInt8) : List UInt64 := s.wire.filterMap (Message.stamp pin)

/-- **The events of a pin are in order**, and one that is to be published is later than
those that have been. -/
structure State.Timed (s : State) : Prop where
  /-- Those on the wire, of whichever monitors. -/
  sorted : ∀ pin, (s.stamps pin).Pairwise (· ≤ ·)
  past : ∀ pin, ∀ x ∈ s.stamps pin, x ≤ s.now
  /-- The one that is to be published is not of the future either. -/
  pending : ∀ i t idx pin seq event, s.tasks i = some t →
    t.phase = .publishing idx pin seq event false →
      event.timestampUs ≤ s.now ∧ ∀ x ∈ s.stamps event.pin, x ≤ event.timestampUs

/-- What is to be published after a turn is what was seen in it, and not on the wire. -/
theorem Path.publishing (hpath : Path s t turn e) {idx : Pin} {pin : Flex} {seq : UInt16}
    {event : PinEvent} (hphase : e.phase = some (.publishing idx pin seq event false)) :
    event.timestampUs = s.now ∧ e.message = none := by
  cases hpath with
  | unsupported | signal | lock | busy | take | finish | unconfirmed | stopped | wait | restore =>
    exact absurd hphase nofun
  | put hout =>
    rcases Task.outgoing_cases hout with ⟨_, -, -, hrest⟩ | ⟨_, _, -, -, hrest⟩
      | ⟨_, _, _, _, -, -, hrest⟩
    all_goals exact absurd ((Option.some.inj hphase).symm.trans hrest) nofun
  | edge =>
    obtain ⟨-, -, -, rfl, -⟩ := Phase.publishing.inj (Option.some.inj hphase)
    exact ⟨rfl, rfl⟩

/-- Sending something, the task awaits that the sending is over. -/
theorem Path.put_phase (hpath : Path s t .put e) {message : Message} {phase : Phase}
    (hout : t.outgoing = some (message, phase)) : e.phase = some phase := by
  cases hpath with
  | put hout' =>
    obtain ⟨-, rfl⟩ := Prod.mk.inj (Option.some.inj (hout.symm.trans hout'))
    rfl
  | stopped hselect | edge hselect | wait hselect => exact absurd hselect nofun

/-- The times of the messages that are added come last. -/
theorem stamps_append {messages : List Message} (hwire : s'.wire = s.wire ++ messages)
    (pin : UInt8) : s'.stamps pin = s.stamps pin ++ messages.filterMap (Message.stamp pin) := by
  unfold State.stamps
  rw [hwire, List.filterMap_append]

namespace State.Timed

/-- There are no times yet. -/
theorem start (pad : Pin → Bool) (now : UInt64) : (start pad now).Timed where
  sorted _ := List.Pairwise.nil
  past _ _ h := absurd h List.not_mem_nil
  pending _ _ _ _ _ _ h := absurd h nofun

/-- Steps that publish nothing: a task that is then about to publish an event was so
before, or has just seen it. -/
theorem quiet (h : s.Timed) (hstamps : ∀ pin, s'.stamps pin = s.stamps pin)
    (hnow : s.now ≤ s'.now)
    (hpending : ∀ i t idx pin seq event, s'.tasks i = some t →
      t.phase = .publishing idx pin seq event false →
        event.timestampUs = s.now
          ∨ ∃ t', s.tasks i = some t' ∧ t'.phase = .publishing idx pin seq event false) :
    s'.Timed where
  sorted pin := by
    rw [hstamps]
    exact h.sorted pin
  past pin x hx := by
    rw [hstamps] at hx
    exact UInt64.le_trans (h.past pin x hx) hnow
  pending i t idx pin seq event ht hphase := by
    rw [hstamps]
    rcases hpending i t idx pin seq event ht hphase with htime | ⟨t', ht', hphase'⟩
    · rw [htime]
      exact ⟨hnow, h.past event.pin⟩
    · obtain ⟨hle, hlater⟩ := h.pending i t' idx pin seq event ht' hphase'
      exact ⟨UInt64.le_trans hle hnow, hlater⟩

/-- A monitor publishes its event. -/
theorem publish (h : s.Timed) (hsound : s.Sound) (ht : s.tasks i = some t) {idx : Pin}
    {pin : Flex} {seq : UInt16} {event : PinEvent}
    (hphase : t.phase = .publishing idx pin seq event false)
    (hmessage : e.message = some (.pinEdge t.seqNo seq event))
    (hphase' : e.phase = some (.publishing idx pin seq event true)) :
    (s.apply i t e).Timed := by
  obtain ⟨hle, hlater⟩ := h.pending i t idx pin seq event ht hphase
  have hstamps (q : UInt8) : (s.apply i t e).stamps q
      = s.stamps q ++ if event.pin = q then [event.timestampUs] else [] := by
    rw [stamps_append rfl, hmessage]
    congr 1
    show List.filterMap (Message.stamp q) [.pinEdge t.seqNo seq event] = _
    by_cases hpin : event.pin = q
    · have hsome : (Message.pinEdge t.seqNo seq event).stamp q = some event.timestampUs :=
        if_pos hpin
      rw [List.filterMap_cons_some hsome, if_pos hpin]
      rfl
    · have hnone : (Message.pinEdge t.seqNo seq event).stamp q = none := if_neg hpin
      rw [List.filterMap_cons_none hnone, if_neg hpin]
      rfl
  refine ⟨fun q => ?_, fun q x hx => ?_, fun j u idx' pin' seq' event' hu hpub => ?_⟩
  · rw [hstamps]
    split
    case isTrue hpin =>
      subst hpin
      refine List.pairwise_append.mpr ⟨h.sorted _, List.pairwise_singleton _ _, fun x hx y hy => ?_⟩
      rw [List.mem_singleton.mp hy]
      exact hlater x hx
    case isFalse =>
      rw [List.append_nil]
      exact h.sorted q
  · rw [hstamps, List.mem_append] at hx
    rcases hx with hx | hx
    · exact h.past q x hx
    · split at hx
      case isTrue =>
        rw [List.mem_singleton.mp hx]
        exact hle
      case isFalse => exact absurd hx List.not_mem_nil
  · rcases tasks_apply hu with ⟨rfl, phase, hsome, rfl⟩ | ⟨hj, hsame⟩
    · have hnot := hphase'.symm.trans hsome
      rw [show phase = _ from hpub] at hnot
      exact absurd (Option.some.inj hnot) nofun
    · -- two monitors that are about to publish have different pins
      have hne : event.pin ≠ event'.pin := fun heq => hj <| by
        have hfits := hsound.numbered.fits i t ht
        have hfits' := hsound.numbered.fits j u hsame
        obtain ⟨-, hpin⟩ := hfits.pin idx (by rw [hphase]; rfl)
        obtain ⟨-, hpin'⟩ := hfits'.pin idx' (by rw [hpub]; rfl)
        rw [← hfits.event _ _ _ _ _ hphase, heq, hfits'.event _ _ _ _ _ hpub, hpin'] at hpin
        obtain rfl := Option.some.inj hpin
        exact hsound.conserved.unique j i idx' ((holds_of_task hsame).trans (by rw [hpub]; rfl))
          ((holds_of_task ht).trans (by rw [hphase]; rfl))
      rw [hstamps, if_neg hne, List.append_nil]
      exact h.pending j u idx' pin' seq' event' hsame hpub

/-- **It stays so**, while the clock does not wrap: an event is stamped with the time it is seen
at, which is after those that are on the wire. -/
theorem step (h : s.Timed) (hsound : s.Sound) (hclock : ∀ us, a = .tick us → s.now ≤ s.now + us)
    (hsteps : Steps s a s') : s'.Timed := by
  cases hsteps with
  | send | receive =>
    exact h.quiet (fun _ => rfl) (UInt64.le_refl s.now)
      (fun i t idx pin seq event ht hphase => .inr ⟨t, ht, hphase⟩)
  | tick us =>
    exact h.quiet (fun _ => rfl) (hclock us rfl)
      (fun i t idx pin seq event ht hphase => .inr ⟨t, ht, hphase⟩)
  | edge q =>
    refine h.quiet (fun _ => rfl) (UInt64.le_refl s.now)
      (fun i u idx pin seq event hu hphase => .inr ?_)
    obtain ⟨t, ht, rfl⟩ := Option.map_eq_some_iff.mp hu
    rcases t.edge_phase q with hsame | ⟨_, _, _, _, _, -, hselecting⟩
    · exact ⟨t, ht, hsame.symm.trans hphase⟩
    · exact absurd (hselecting.symm.trans hphase) nofun
  | dispatch hpath =>
    cases hpath with
    | @spawn rqst j =>
      refine h.quiet (fun _ => rfl) (UInt64.le_refl s.now)
        (fun i u idx pin seq event hu hphase => .inr ?_)
      replace hu : Function.update s.tasks j _ i = some u := hu
      by_cases hij : i = j
      · subst hij
        rw [Function.update_self] at hu
        obtain rfl := Option.some.inj hu
        exact absurd hphase nofun
      · rw [Function.update_of_ne hij] at hu
        exact ⟨u, hu, hphase⟩
    | full | unsupported | lock | handle | finish =>
      exact h.quiet (fun _ => rfl) (UInt64.le_refl s.now)
        (fun i t idx pin seq event ht hphase => .inr ⟨t, ht, hphase⟩)
    | put =>
      exact h.quiet (fun pin => (stamps_append rfl pin).trans (List.append_nil _))
        (UInt64.le_refl s.now) (fun i t idx pin seq event ht hphase => .inr ⟨t, ht, hphase⟩)
  | @task i t turn e ht hpath =>
    have hquiet (hstamps : ∀ pin, e.message.toList.filterMap (Message.stamp pin) = []) :
        (s.apply i t e).Timed := by
      refine h.quiet (fun pin => ?_) (UInt64.le_refl s.now)
        (fun j u idx pin seq event hu hphase => ?_)
      · rw [stamps_append rfl, hstamps, List.append_nil]
      · rcases tasks_apply hu with ⟨rfl, phase, hphase', rfl⟩ | ⟨-, hsame⟩
        · exact .inl (hpath.publishing (hphase'.trans (congrArg some hphase))).1
        · exact .inr ⟨u, hsame, hphase⟩
    cases hmessage : e.message with
    | none => exact hquiet (fun pin => by rw [hmessage]; rfl)
    | some message =>
      obtain ⟨rfl, phase, hout⟩ := hpath.message hmessage
      rcases Task.outgoing_cases hout with ⟨_, -, rfl, -⟩ | ⟨_, _, -, rfl, -⟩
        | ⟨idx, pin, seq, event, hphase, rfl, rfl⟩
      · exact hquiet (fun pin => by rw [hmessage]; rfl)
      · exact hquiet (fun pin => by rw [hmessage]; rfl)
      · exact h.publish hsound ht hphase hmessage (hpath.put_phase hout)

end State.Timed

/-- If no sending fails, all of them have put their event on the wire. -/
theorem delivered_of_clean (pad : Pin → Bool) (now : UInt64) {actions : List Action}
    (hclean : ∀ i, .task i (.done false) ∉ actions) (n : ℕ) :
    delivered (sendingsOf n (Transition.history step State.settles (start pad now) actions))
      = (sendingsOf n (Transition.history step State.settles (start pad now) actions)).map
        Prod.fst := by
  unfold delivered
  congr 1
  refine List.filter_eq_self.mpr (fun x hx => ?_)
  obtain ⟨v, a, v', ha, -, hx⟩ := Transition.exists_of_mem_history (List.mem_filter.mp hx).1
  cases a with
  | send | receive | edge | tick | dispatch => exact absurd hx List.not_mem_nil
  | task i turn =>
    unfold State.settles at hx
    dsimp only at hx
    cases ht : v.tasks i with
    | none =>
      rw [ht] at hx
      exact absurd hx List.not_mem_nil
    | some t =>
      rw [ht] at hx
      replace hx : x ∈ t.settles turn := hx
      unfold Task.settles at hx
      split at hx
      · obtain ⟨message, -, rfl⟩ := List.mem_map.mp hx
        rfl
      · exact absurd ha (hclean i)
      all_goals exact absurd hx List.not_mem_nil

/-- **What a host can rely on, of the events it gets.** -/
theorem events_numbered (pad : Pin → Bool) (now : UInt64) (actions : List Action) (s : State)
    (hrun : Transition.run step (start pad now) actions = some s) :
    let seen := Transition.history step State.observes (start pad now) actions
    let sendings := Transition.history step State.settles (start pad now) actions
    -- a monitor sends the events it has seen, in order and numbered, one after the other,
    (∀ i t, s.tasks i = some t →
        (sendingsOf t.seqNo sendings).map Prod.fst ++ t.pending
          = numbered t.seqNo (eventsOf t.seqNo seen))
      ∧ (∀ n, s.Gone n →
        (sendingsOf n sendings).map Prod.fst = numbered n (eventsOf n seen))
      -- those on the wire are those whose own sending has not failed,
      ∧ (∀ n, s.published n = delivered (sendingsOf n sendings))
      -- and if no sending fails, all of them, but one that is still to be sent
      ∧ ((∀ i, .task i (.done false) ∉ actions) →
          (∀ i t, s.tasks i = some t →
              s.published t.seqNo ++ t.pending = numbered t.seqNo (eventsOf t.seqNo seen))
            ∧ ∀ n, s.Gone n → s.published n = numbered n (eventsOf n seen))
      -- the reply that there is a monitor comes before them
      ∧ (∀ k n seq event, s.wire[k]? = some (.pinEdge n seq event) →
          monitoring n ∈ s.wire.take k)
      -- and those of one pin are in the order of their times, if the clock does not wrap
      ∧ (Transition.Guarded step (fun s a => ∀ us, a = .tick us → s.now ≤ s.now + us)
            (start pad now) actions →
          ∀ pin, (s.stamps pin).Pairwise (· ≤ ·)) := by
  intro seen sendings
  obtain ⟨-, hobserved⟩ : s.Sound ∧ s.Observed seen sendings :=
    Transition.run_records_both (I := fun v seen sendings => v.Sound ∧ v.Observed seen sendings)
      (fun v seen sendings a v' h hstep => ⟨h.1.step hstep, h.2.step h.1 hstep⟩)
      ⟨.start pad now, .start pad now⟩ hrun
  refine ⟨hobserved.task, hobserved.gone, hobserved.published, fun hclean => ?_, ?_,
    fun hclock => ?_⟩
  · have hall (n : ℕ) : s.published n = (sendingsOf n sendings).map Prod.fst :=
      (hobserved.published n).trans (delivered_of_clean pad now hclean n)
    refine ⟨fun i t ht => ?_, fun n hn => (hall n).trans (hobserved.gone n hn)⟩
    rw [hall]
    exact hobserved.task i t ht
  · exact (Transition.run_preserves (I := State.Announced)
      (fun v a v' h hstep => h.step (.of_step hstep)) (.start pad now) hrun).wire
  · exact (Transition.run_preserves_of_guarded (I := fun v : State => v.Sound ∧ v.Timed)
      (fun v a v' h hok hstep => ⟨h.1.step hstep, h.2.step h.1 hok (.of_step hstep)⟩)
      ⟨.start pad now, .start pad now⟩ hclock hrun).2.sorted

/-- A monitor of pin 2 sees three edges, and the sending of the second event fails. -/
def gapRun : List Action :=
  [.send (.pinMonitor ⟨2, true⟩), .dispatch .poll, .task 0 .poll, .task 0 .poll, .task 0 .put,
    .task 0 (.done true), .edge 2 true, .tick 5, .task 0 .poll, .task 0 .put,
    .task 0 (.done true), .edge 2 false, .tick 5, .task 0 .poll, .task 0 (.done false),
    .edge 2 true, .tick 5, .task 0 .poll, .task 0 .put]

/-- The host sees that an event is missing, and that it is one. -/
theorem gapRun_numbered :
    ∃ s, Transition.run step (start (fun _ => false) 0) gapRun = some s
      ∧ s.published 0 = [.pinEdge 0 0 ⟨2, .high, 5⟩, .pinEdge 0 2 ⟨2, .high, 15⟩]
      ∧ (∀ i t, s.tasks i = some t → t.seqNo = 0 →
        [.pinEdge 0 0 ⟨2, .high, 5⟩, .pinEdge 0 1 ⟨2, .low, 10⟩, .pinEdge 0 2 ⟨2, .high, 15⟩]
            ++ t.pending
          = numbered 0 [⟨2, .high, 5⟩, ⟨2, .low, 10⟩, ⟨2, .high, 15⟩])
      ∧ monitoring 0 ∈ s.wire.take 1 := by
  have hend : (Transition.run step (start (fun _ => false) 0) gapRun).map (fun s => s.wire[1]?)
      = some (some (.pinEdge 0 0 ⟨2, .high, 5⟩)) := by
    decide +kernel
  obtain ⟨s, hrun, hfirst⟩ := Option.map_eq_some_iff.mp hend
  obtain ⟨hsent, -, hpublished, -, hannounced, -⟩ := events_numbered _ _ _ s hrun
  have hseen : Transition.history step State.observes (start (fun _ => false) 0) gapRun
      = [(0, ⟨2, .high, 5⟩), (0, ⟨2, .low, 10⟩), (0, ⟨2, .high, 15⟩)] := by
    decide +kernel
  have hsendings : Transition.history step State.settles (start (fun _ => false) 0) gapRun
      = [(.pinEdge 0 0 ⟨2, .high, 5⟩, true), (.pinEdge 0 1 ⟨2, .low, 10⟩, false),
        (.pinEdge 0 2 ⟨2, .high, 15⟩, true)] := by
    decide +kernel
  rw [hseen, hsendings] at hsent
  rw [hsendings] at hpublished
  refine ⟨s, hrun, hpublished 0, fun i t ht hseq => ?_, hannounced 1 0 0 _ hfirst⟩
  have hmine := hsent i t ht
  rw [hseq] at hmine
  exact hmine

end Assistant

end Banc
