import Banc.Assistant.Firmware

/-!
# Who works on which request

Each request is taken once, by the dispatcher or by a task it starts for it, and no
two of them work on the same one (`State.Numbered`). A `pin_monitor_handler` takes no
other pin than the one it was asked to monitor, and its events are of that pin
(`Task.Fits`).
-/

namespace Banc

namespace Assistant

variable {s s' : State} {a : Action} {turn : Turn} {e : Effect} {t : Task} {i : TaskId}

/-! ## The phases of a task

What a task does with its request and its pin can be read off its phase. An edge changes
nothing of that but what the `select` will say, so it is dealt with once for each of these. -/

/-- A monitor comes to its `select` with the pin. -/
theorem Task.Selects.holds {idx : Pin} {pin : Flex} {seq : UInt16} {edge : Bool}
    (h : t.Selects turn idx pin seq edge) : t.phase.holds = some idx := by
  cases h with
  | confirmed hphase => rw [hphase]; rfl
  | woken hphase => rw [hphase]; rfl
  | published hphase => rw [hphase]; rfl

/-- What a task is sending. -/
theorem Task.outgoing_cases {message : Message} {phase : Phase}
    (h : t.outgoing = some (message, phase)) :
    (∃ result, t.phase = .replying result false ∧ message = .reply t.seqNo (.ack result)
        ∧ phase = .replying result true)
      ∨ (∃ idx pin, t.phase = .confirming idx pin false
          ∧ message = .reply t.seqNo (.ack (.ok ())) ∧ phase = .confirming idx pin true)
      ∨ ∃ idx pin seq event, t.phase = .publishing idx pin seq event false
          ∧ message = .pinEdge t.seqNo seq event
          ∧ phase = .publishing idx pin seq event true := by
  unfold Task.outgoing at h
  split at h
  case h_1 result hphase =>
    obtain ⟨rfl, rfl⟩ := Prod.mk.inj (Option.some.inj h)
    exact .inl ⟨result, hphase, rfl, rfl⟩
  case h_2 idx pin hphase =>
    obtain ⟨rfl, rfl⟩ := Prod.mk.inj (Option.some.inj h)
    exact .inr (.inl ⟨idx, pin, hphase, rfl, rfl⟩)
  case h_3 idx pin seq event hphase =>
    obtain ⟨rfl, rfl⟩ := Prod.mk.inj (Option.some.inj h)
    exact .inr (.inr ⟨idx, pin, seq, event, hphase, rfl, rfl⟩)
  case h_4 => exact absurd h nofun

/-- Sending something it keeps its pin. -/
theorem Task.holds_of_outgoing {message : Message} {phase : Phase}
    (h : t.outgoing = some (message, phase)) : phase.holds = t.phase.holds := by
  rcases Task.outgoing_cases h with ⟨_, hphase, -, rfl⟩ | ⟨_, _, hphase, -, rfl⟩
    | ⟨_, _, _, _, hphase, -, rfl⟩
  all_goals
    rw [hphase]
    rfl

/-- An edge leaves a task at its request. -/
@[simp] theorem Task.edge_seqNo (p : Pin) (t : Task) : (t.edge p).seqNo = t.seqNo := by
  unfold Task.edge
  split <;> rfl

/-- And what the request says is not touched either. -/
@[simp] theorem Task.edge_rqst (p : Pin) (t : Task) : (t.edge p).rqst = t.rqst := by
  unfold Task.edge
  split <;> rfl

/-- An edge is seen by the `select` of a monitor, and by nothing else. -/
theorem Task.edge_phase (p : Pin) (t : Task) :
    (t.edge p).phase = t.phase
      ∨ ∃ idx pin seq edge edge', t.phase = .selecting idx pin seq edge
          ∧ (t.edge p).phase = .selecting idx pin seq edge' := by
  unfold Task.edge
  split
  case h_1 idx pin seq edge hphase => exact .inr ⟨idx, pin, seq, edge, _, hphase, rfl⟩
  case h_2 => exact .inl rfl

/-- Nor does an edge move a pin. -/
theorem Task.edge_holds (p : Pin) (t : Task) : (t.edge p).phase.holds = t.phase.holds := by
  rcases t.edge_phase p with h | ⟨_, _, _, _, _, hphase, hphase'⟩
  · rw [h]
  · rw [hphase, hphase']
    rfl

/-- It has still to send its reply. -/
def Phase.Unreplied : Phase → Bool
  | .spawned | .locking _ | .replying _ false | .confirming _ _ false => true
  -- from the `select` on it has, and so has one whose reply is on the wire
  | _ => false

/-- Nor is a reply sent by one. -/
theorem Task.edge_unreplied (p : Pin) (t : Task) :
    (t.edge p).phase.Unreplied = t.phase.Unreplied := by
  rcases t.edge_phase p with h | ⟨_, _, _, _, _, hphase, hphase'⟩
  · rw [h]
  · rw [hphase, hphase']
    rfl

/-- A task has not replied before, if it has not after its turn. -/
theorem Path.unreplied (h : Path s t turn e) {phase : Phase} (hphase' : e.phase = some phase)
    (hunreplied : phase.Unreplied = true) : t.phase.Unreplied = true ∧ turn ≠ .put := by
  cases h with
  | unsupported hphase | signal hphase | lock hphase | busy hphase | take hphase =>
    rw [hphase]
    exact ⟨rfl, nofun⟩
  | put hout =>
    obtain rfl := Option.some.inj hphase'
    rcases Task.outgoing_cases hout with ⟨_, -, -, rfl⟩ | ⟨_, _, -, -, rfl⟩
      | ⟨_, _, _, _, -, -, rfl⟩
    all_goals exact absurd hunreplied nofun
  | unconfirmed | stopped | edge | wait =>
    obtain rfl := Option.some.inj hphase'
    exact absurd hunreplied nofun
  | finish | restore => exact absurd hphase' nofun

/-- The pin it is to take, or owns. -/
def Phase.wants : Phase → Option Pin
  | .locking idx => some idx
  | phase => phase.holds

/-- What is owned was wanted. -/
theorem Phase.wants_of_holds {phase : Phase} {idx : Pin} (h : phase.holds = some idx) :
    phase.wants = some idx := by
  cases phase
  case locking => exact absurd h nofun
  all_goals exact h

/-- **The task keeps to its request.** -/
structure Task.Fits (t : Task) : Prop where
  /-- The pin it is after is the one it was asked to monitor, and it was asked to. -/
  pin : ∀ idx, t.phase.wants = some idx →
    t.rqst.enable = true ∧ pinIndex t.rqst.pin = some idx
  /-- So is the pin of the event it publishes. -/
  event : ∀ idx pin seq event written, t.phase = .publishing idx pin seq event written →
    event.pin = t.rqst.pin

namespace Task.Fits

/-- A task that has to do with no pin has nothing to keep to. -/
theorem of_none (h : t.phase.wants = none) : t.Fits where
  pin idx hidx := by
    rw [h] at hidx
    exact absurd hidx nofun
  event idx pin seq event written hphase := by
    rw [hphase] at h
    exact absurd h nofun

/-- A task that has to do with a pin, and what is to be shown of it. -/
theorem of_wants {idx : Pin} (hwants : t.phase.wants = some idx)
    (hpin : t.rqst.enable = true ∧ pinIndex t.rqst.pin = some idx)
    (hevent : ∀ idx pin seq event written, t.phase = .publishing idx pin seq event written →
      event.pin = t.rqst.pin) : t.Fits where
  pin idx' hidx' := by
    obtain rfl := Option.some.inj (hwants.symm.trans hidx')
    exact hpin
  event := hevent

/-- The `select` waits for its own pin, and has no event yet. -/
theorem edge (h : t.Fits) (p : Pin) : (t.edge p).Fits := by
  rcases t.edge_phase p with hsame | ⟨idx, pin, seq, _, _, hphase, hphase'⟩
  · constructor
    · rw [hsame, Task.edge_rqst]
      exact h.pin
    · rw [hsame, Task.edge_rqst]
      exact h.event
  · have hidx := h.pin idx (by rw [hphase]; rfl)
    rw [← Task.edge_rqst p] at hidx
    refine .of_wants (by rw [hphase']; rfl) hidx (fun _ _ _ _ _ hpub => ?_)
    rw [hphase'] at hpub
    exact absurd hpub nofun

/-- **A task keeps to its request with each of its turns.** -/
theorem path (h : t.Fits) (hpath : Path s t turn e) {phase : Phase}
    (hphase' : e.phase = some phase) : Task.Fits { t with phase := phase } := by
  cases hpath with
  | unsupported | signal | busy =>
    obtain rfl := Option.some.inj hphase'
    exact .of_none rfl
  | lock _ hpin henable =>
    obtain rfl := Option.some.inj hphase'
    exact .of_wants rfl ⟨henable, hpin⟩ nofun
  | take hphase =>
    obtain rfl := Option.some.inj hphase'
    exact .of_wants rfl (h.pin _ (by rw [hphase]; rfl)) nofun
  | put hout =>
    obtain rfl := Option.some.inj hphase'
    rcases Task.outgoing_cases hout with ⟨_, -, -, rfl⟩ | ⟨_, _, hphase, -, rfl⟩
      | ⟨_, _, _, _, hphase, -, rfl⟩
    · exact .of_none rfl
    · exact .of_wants rfl (h.pin _ (by rw [hphase]; rfl)) nofun
    · refine .of_wants rfl (h.pin _ (by rw [hphase]; rfl)) ?_
      rintro _ _ _ _ _ ⟨⟩
      exact h.event _ _ _ _ _ hphase
  | unconfirmed hphase =>
    obtain rfl := Option.some.inj hphase'
    exact .of_wants rfl (h.pin _ (by rw [hphase]; rfl)) nofun
  | stopped hselect | wait hselect =>
    obtain rfl := Option.some.inj hphase'
    exact .of_wants rfl (h.pin _ (Phase.wants_of_holds hselect.holds)) nofun
  | edge hselect =>
    obtain rfl := Option.some.inj hphase'
    refine .of_wants rfl (h.pin _ (Phase.wants_of_holds hselect.holds)) ?_
    rintro _ _ _ _ _ ⟨⟩
    rfl
  | finish | restore => exact absurd hphase' nofun

end Task.Fits

/-! ## The tasks

What one step does to the tasks, the wire and the requests, as far as anything in the
following modules needs it. None of them looks into the step function for it again. -/

/-- The task after its turn, and the others. -/
theorem tasks_apply {j : TaskId} {u : Task} (h : (s.apply i t e).tasks j = some u) :
    (j = i ∧ ∃ phase, e.phase = some phase ∧ u = { t with phase := phase })
      ∨ (j ≠ i ∧ s.tasks j = some u) := by
  by_cases hj : j = i
  · subst hj
    replace h : Function.update s.tasks j _ j = some u := h
    rw [Function.update_self] at h
    obtain ⟨phase, hphase, rfl⟩ := Option.map_eq_some_iff.mp h
    exact .inl ⟨rfl, phase, hphase, rfl⟩
  · replace h : Function.update s.tasks i _ j = some u := h
    rw [Function.update_of_ne hj] at h
    exact .inr ⟨hj, h⟩

/-- **Where the tasks come from.** A task was there before, at the same request, or
the dispatcher has just started it. -/
theorem Steps.task_origin (h : Steps s a s') {j : TaskId} {u : Task}
    (hu : s'.tasks j = some u) :
    (∃ t, s.tasks j = some t ∧ u.seqNo = t.seqNo ∧ u.rqst = t.rqst ∧ (t.Fits → u.Fits)
        ∧ (u.phase.Unreplied = true → t.phase.Unreplied = true ∧ a ≠ .task j .put))
      ∨ (a = .dispatch .poll ∧ u = ⟨s.taken, u.rqst, .spawned⟩ ∧ s'.taken = s.taken + 1
          ∧ s'.dispatch = .receiving
          ∧ s.requests[s.taken]? = some (.pinMonitor u.rqst)
          ∧ ∀ k, k ≠ j → s'.tasks k = s.tasks k) := by
  cases h with
  | send | receive | tick => exact .inl ⟨u, hu, rfl, rfl, id, fun h => ⟨h, nofun⟩⟩
  | edge p =>
    obtain ⟨t, ht, rfl⟩ := Option.map_eq_some_iff.mp hu
    exact .inl ⟨t, ht, t.edge_seqNo p, t.edge_rqst p, fun hfits => hfits.edge p,
      fun h => ⟨(t.edge_unreplied p).symm.trans h, nofun⟩⟩
  | dispatch hpath =>
    cases hpath with
    | @spawn rqst i hphase hrqst hfree =>
      by_cases hj : j = i
      · subst hj
        replace hu : Function.update s.tasks j _ j = some u := hu
        rw [Function.update_self] at hu
        obtain rfl := Option.some.inj hu
        exact .inr ⟨rfl, rfl, rfl, hphase, hrqst, fun k hk => Function.update_of_ne hk ..⟩
      · replace hu : Function.update s.tasks i _ j = some u := hu
        rw [Function.update_of_ne hj] at hu
        exact .inl ⟨u, hu, rfl, rfl, id, fun h => ⟨h, nofun⟩⟩
    | full | unsupported | lock | handle | put | finish =>
      exact .inl ⟨u, hu, rfl, rfl, id, fun h => ⟨h, nofun⟩⟩
  | task ht hpath =>
    rcases tasks_apply hu with ⟨rfl, phase, hphase, rfl⟩ | ⟨hj, hsame⟩
    · refine .inl ⟨_, ht, rfl, rfl, fun hfits => hfits.path hpath hphase, fun h => ?_⟩
      obtain ⟨hunreplied, hput⟩ := hpath.unreplied hphase h
      exact ⟨hunreplied, fun heq => hput (Action.task.inj heq).2⟩
    · exact .inl ⟨u, hsame, rfl, rfl, id, fun h => ⟨h, fun heq => hj (Action.task.inj heq).1.symm⟩⟩

/-- A task puts on the wire what it is sending. -/
theorem Path.message {message : Message} (h : Path s t turn e)
    (hmessage : e.message = some message) :
    turn = .put ∧ ∃ phase, t.outgoing = some (message, phase) := by
  cases h with
  | put hout =>
    obtain rfl := Option.some.inj hmessage
    exact ⟨rfl, _, hout⟩
  | unsupported | signal | lock | busy | take | finish | unconfirmed | stopped | edge | wait
  | restore => exact absurd hmessage nofun

/-- **What is new on the wire.** -/
theorem Steps.wire (h : Steps s a s') :
    s'.wire = s.wire
      ∨ (∃ n response, a = .dispatch .put ∧ s.dispatch = .replying n response false
          ∧ s'.wire = s.wire ++ [.reply n response])
      ∨ ∃ i t message phase, a = .task i .put ∧ s.tasks i = some t
          ∧ t.outgoing = some (message, phase) ∧ s'.wire = s.wire ++ [message] := by
  cases h with
  | send | receive | edge | tick => exact .inl rfl
  | dispatch hpath =>
    cases hpath with
    | put hphase => exact .inr (.inl ⟨_, _, rfl, hphase, rfl⟩)
    | spawn | full | unsupported | lock | handle | finish => exact .inl rfl
  | @task i t turn e ht hpath =>
    cases hmessage : e.message with
    | none =>
      refine .inl ?_
      show s.wire ++ e.message.toList = s.wire
      rw [hmessage]
      exact List.append_nil _
    | some message =>
      obtain ⟨rfl, phase, hout⟩ := hpath.message hmessage
      refine .inr (.inr ⟨i, t, message, phase, rfl, ht, hout, ?_⟩)
      show s.wire ++ e.message.toList = _
      rw [hmessage]
      rfl

/-- **Where the replies come from.** -/
theorem Steps.reply_origin (h : Steps s a s') {n : ℕ} {response : Response}
    (hreply : .reply n response ∈ s'.wire) :
    .reply n response ∈ s.wire
      ∨ (a = .dispatch .put ∧ s.dispatch = .replying n response false)
      ∨ ∃ i t phase, a = .task i .put ∧ s.tasks i = some t ∧ t.seqNo = n
          ∧ t.outgoing = some (.reply n response, phase) := by
  rcases h.wire with hwire | ⟨m, r, rfl, hphase, hwire⟩
    | ⟨i, t, message, phase, rfl, ht, hout, hwire⟩
  · exact .inl (hwire ▸ hreply)
  · rw [hwire, List.mem_append, List.mem_singleton] at hreply
    rcases hreply with hold | hnew
    · exact .inl hold
    · obtain ⟨rfl, rfl⟩ := Message.reply.inj hnew
      exact .inr (.inl ⟨rfl, hphase⟩)
  · rw [hwire, List.mem_append, List.mem_singleton] at hreply
    rcases hreply with hold | rfl
    · exact .inl hold
    · refine .inr (.inr ⟨i, t, phase, rfl, ht, ?_, hout⟩)
      rcases Task.outgoing_cases hout with ⟨_, -, hm, -⟩ | ⟨_, _, -, hm, -⟩
        | ⟨_, _, _, _, -, hm, -⟩
      · exact (Message.reply.inj hm).1.symm
      · exact (Message.reply.inj hm).1.symm
      · exact absurd hm nofun

/-- The requests of the host, and how many have been taken. -/
theorem Steps.requests (h : Steps s a s') :
    s.requests <+: s'.requests
      ∧ (s'.taken = s.taken ∨ (s'.taken = s.taken + 1 ∧ s.taken < s.requests.length)) := by
  cases h with
  | send rqst => exact ⟨List.prefix_append _ _, .inl rfl⟩
  | receive | edge | tick | task => exact ⟨List.prefix_rfl, .inl rfl⟩
  | dispatch hpath =>
    cases hpath with
    | spawn _ hrqst | full _ hrqst | unsupported _ hrqst | lock _ hrqst =>
      exact ⟨List.prefix_rfl, .inr ⟨rfl, (List.getElem?_eq_some_iff.mp hrqst).1⟩⟩
    | handle | put | finish => exact ⟨List.prefix_rfl, .inl rfl⟩

/-- The dispatcher does not go back. -/
theorem Steps.taken_le (h : Steps s a s') : s.taken ≤ s'.taken := by
  rcases h.requests.2 with htaken | ⟨htaken, -⟩
  · exact htaken.ge
  · rw [htaken]
    exact Nat.le_succ _

/-- A request stays where it is. -/
theorem Steps.request (h : Steps s a s') {n : ℕ} {rqst : Request}
    (hn : s.requests[n]? = some rqst) : s'.requests[n]? = some rqst := by
  obtain ⟨more, hmore⟩ := h.requests.1
  rw [← hmore, List.getElem?_append_left (List.getElem?_eq_some_iff.mp hn).1]
  exact hn

/-! ## The requests

The dispatcher counts the requests it takes, and the count is the number of the next one. A
number below it is with one worker at most. -/

/-- The request the dispatcher works on. -/
def Dispatch.seqNo : Dispatch → Option ℕ
  | .receiving => none
  | .locking seqNo _ _ => some seqNo
  | .replying seqNo _ _ => some seqNo

/-- The dispatcher keeps to its request. -/
def Dispatch.Fits (requests : List Request) : Dispatch → Prop
  | .receiving => True
  | .locking seqNo rqst idx =>
    requests[seqNo]? = some (.gpio rqst) ∧ pinIndex rqst.pin = some idx
  | .replying seqNo response _ =>
    (∃ rqst, requests[seqNo]? = some (.gpio rqst)) ∨ response = .failedToSpawn

/-- **Each request is worked on once.** -/
structure State.Numbered (s : State) : Prop where
  /-- Only what was sent is taken. -/
  taken : s.taken ≤ s.requests.length
  fits : ∀ i t, s.tasks i = some t → t.Fits
  /-- A task has a request that was taken, and that is for it. -/
  task : ∀ i t, s.tasks i = some t →
    t.seqNo < s.taken ∧ s.requests[t.seqNo]? = some (.pinMonitor t.rqst)
  /-- No two tasks have the same. -/
  distinct : ∀ i j t u, s.tasks i = some t → s.tasks j = some u → t.seqNo = u.seqNo → i = j
  dispatch : s.dispatch.Fits s.requests
  /-- And none has that of the dispatcher. -/
  apart : ∀ n, s.dispatch.seqNo = some n →
    n < s.taken ∧ ∀ i t, s.tasks i = some t → t.seqNo ≠ n
  /-- Nothing is answered before it is taken. -/
  replied : ∀ n response, .reply n response ∈ s.wire → n < s.taken

namespace State.Numbered

/-- Nothing was asked, and nobody works. -/
theorem start (pad : Pin → Bool) (now : UInt64) : (start pad now).Numbered where
  taken := Nat.le_refl _
  fits _ _ h := absurd h nofun
  task _ _ h := absurd h nofun
  distinct _ _ _ _ h := absurd h nofun
  dispatch := trivial
  apart _ h := absurd h nofun
  replied _ _ h := absurd h List.not_mem_nil

/-- What the dispatcher works on after a step. -/
theorem dispatch_step (h : s.Numbered) (hsteps : Steps s a s') :
    s'.dispatch.Fits s'.requests
      ∧ ∀ n, s'.dispatch.seqNo = some n →
        s.dispatch.seqNo = some n
          ∨ (n = s.taken ∧ s'.taken = s.taken + 1 ∧ s'.tasks = s.tasks) := by
  cases hsteps with
  | send rqst =>
    refine ⟨?_, fun n hn => .inl hn⟩
    have hrequest {n : ℕ} {rqst' : Request} (hn : s.requests[n]? = some rqst') :
        (s.requests ++ [rqst])[n]? = some rqst' := (Steps.send rqst).request hn
    have hfits := h.dispatch
    show s.dispatch.Fits (s.requests ++ [rqst])
    cases hdispatch : s.dispatch with
    | receiving => trivial
    | locking seqNo rqst idx =>
      rw [hdispatch] at hfits
      exact ⟨hrequest hfits.1, hfits.2⟩
    | replying seqNo response written =>
      rw [hdispatch] at hfits
      exact hfits.imp (fun ⟨rqst, hrqst⟩ => ⟨rqst, hrequest hrqst⟩) id
  | receive | edge | tick | task => exact ⟨h.dispatch, fun n hn => .inl hn⟩
  | dispatch hpath =>
    have hfits := h.dispatch
    cases hpath with
    | spawn => exact ⟨hfits, fun n hn => .inl hn⟩
    | full => exact ⟨.inr rfl, fun n hn => .inr ⟨(Option.some.inj hn).symm, rfl, rfl⟩⟩
    | unsupported _ hrqst =>
      exact ⟨.inl ⟨_, hrqst⟩, fun n hn => .inr ⟨(Option.some.inj hn).symm, rfl, rfl⟩⟩
    | lock _ hrqst hpin =>
      exact ⟨⟨hrqst, hpin⟩, fun n hn => .inr ⟨(Option.some.inj hn).symm, rfl, rfl⟩⟩
    | handle hphase =>
      rw [hphase] at hfits
      exact ⟨.inl ⟨_, hfits.1⟩, fun n hn => .inl (hphase ▸ hn)⟩
    | put hphase =>
      rw [hphase] at hfits
      exact ⟨hfits, fun n hn => .inl (hphase ▸ hn)⟩
    | finish => exact ⟨trivial, fun n hn => absurd hn nofun⟩

/-- **It stays so.** A request that the dispatcher takes has a number nobody works on, for these
are all below `taken`. -/
theorem step (h : s.Numbered) (hsteps : Steps s a s') : s'.Numbered where
  taken := by
    have hlength := hsteps.requests.1.length_le
    rcases hsteps.requests.2 with htaken | ⟨htaken, hmore⟩
    · exact htaken ▸ h.taken.trans hlength
    · exact htaken ▸ hmore.trans_le hlength
  fits j u hu := by
    rcases hsteps.task_origin hu with ⟨t, ht, -, -, hfits, -⟩ | ⟨-, hnew, -⟩
    · exact hfits (h.fits j t ht)
    · rw [hnew]
      exact .of_none rfl
  task j u hu := by
    rcases hsteps.task_origin hu with ⟨t, ht, hseq, hrqst, -⟩ | ⟨-, hnew, htaken, -, hrqst, -⟩
    · rw [hseq, hrqst]
      obtain ⟨hlt, hget⟩ := h.task j t ht
      exact ⟨hlt.trans_le hsteps.taken_le, hsteps.request hget⟩
    · rw [hnew, htaken]
      exact ⟨Nat.lt_succ_self _, hsteps.request hrqst⟩
  distinct j k u v hu hv heq := by
    rcases hsteps.task_origin hu with ⟨t, ht, hseq, -⟩ | ⟨-, hnew, -, -, -, hothers⟩
    · rcases hsteps.task_origin hv with ⟨t', ht', hseq', -⟩ | ⟨-, hnew', -⟩
      · exact h.distinct j k t t' ht ht' (hseq.symm.trans (heq.trans hseq'))
      · have hlt := (h.task j t ht).1
        rw [← hseq, heq, hnew'] at hlt
        exact absurd hlt (Nat.lt_irrefl _)
    · by_contra hjk
      have hv' : s.tasks k = some v := (hothers k (Ne.symm hjk)).symm.trans hv
      have hlt := (h.task k v hv').1
      rw [← heq, hnew] at hlt
      exact absurd hlt (Nat.lt_irrefl _)
  dispatch := (h.dispatch_step hsteps).1
  apart n hn := by
    rcases (h.dispatch_step hsteps).2 n hn with hold | ⟨rfl, htaken, htasks⟩
    · obtain ⟨hlt, hother⟩ := h.apart n hold
      refine ⟨hlt.trans_le hsteps.taken_le, fun j u hu => ?_⟩
      rcases hsteps.task_origin hu with ⟨t, ht, hseq, -⟩ | ⟨-, -, -, hreceiving, -⟩
      · exact hseq ▸ hother j t ht
      · rw [hreceiving] at hn
        exact absurd hn nofun
    · rw [htaken, htasks]
      exact ⟨Nat.lt_succ_self _, fun j u hu => (h.task j u hu).1.ne⟩
  replied n response hreply := by
    refine Nat.lt_of_lt_of_le ?_ hsteps.taken_le
    rcases hsteps.reply_origin hreply with hold | ⟨-, hdispatch⟩ | ⟨i, t, _, -, ht, rfl, -⟩
    · exact h.replied n response hold
    · exact (h.apart n (by rw [hdispatch]; rfl)).1
    · exact (h.task i t ht).1

end State.Numbered

end Assistant

end Banc
