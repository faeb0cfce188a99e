import Banc.Lib.Transition
import Banc.Probe.Chunking
import Banc.Probe.Local

/-!
# Bytes that never reach the sink

The line under way is kept in the state of the capture, and the worker gives that
state up in five places: it takes a flash, it attaches for another `start_rtt`, it
finds that the handle is gone, it cannot read, or it returns because the target is
gone. Nowhere does it look at what is pending, so the bytes of a line that had not
ended yet are gone with it, although they had been read from the target.

`Traced` is the system with two things on record for each capture: the bytes that
were read for it, and those its sink was handed, line by line. What is asked of it
is that no byte is missing once a capture is given up (`Drained`); and this holds in
exactly the runs that give a capture up when nothing is pending (`drained_iff`).
-/

namespace Banc

namespace Probe

/-- The read that ends the capture. -/
def Channel.fails : Channel → Bool
  | .coreFailed _ | .readFailed _ => true
  | .absent | .bytes _ => false

/-- The worker is about to give up the state of the capture it polls. -/
def Discards (s : State) (st : RttState) : Action → Prop
  | .recv => ∃ call path rest, s.queue = .flash call path :: rest
  | .execute h => (∃ i, s.worker = .executing (.startRtt i)) ∧ attachRtt h = .ok ()
  | .disconnected => True
  | .poll ch => (s.captures st.capture).stop = .gone ∨ ch.fails = true
  | _ => False

/-- The system, with what has gone through each capture. -/
structure Traced where
  state : State
  /-- The bytes read from the target. -/
  read : ℕ → List UInt8
  /-- The bytes of the lines that the sink was handed. -/
  handed : ℕ → List (List UInt8)

namespace Traced

/-- No target has been opened yet. -/
def start : Traced := ⟨.opening, fun _ => [], fun _ => []⟩

/-- What is under way in a capture: what its sink was handed, and what is pending. -/
def assembly (t : Traced) (st : RttState) : Assembly := ⟨t.handed st.capture, st.pending⟩

/-- What an action adds to the record: a poll that reads some bytes. -/
def passed (t : Traced) (a : Action) : Traced :=
  match a, t.state.rtt with
  | .poll (.bytes bs), some st =>
    -- a capture without its handle is not polled any more
    if (t.state.captures st.capture).stop = .gone then t
    else { t with
      read := Function.update t.read st.capture (t.read st.capture ++ bs)
      handed := Function.update t.handed st.capture ((t.assembly st).read bs).handed }
  | _, _ => t

/-- The step function. -/
def step (t : Traced) (a : Action) : Option Traced :=
  (Probe.step t.state a).map (fun s => { t.passed a with state := s })

end Traced

/-- **No byte is dropped**: of a capture that is not polled any more, all that was
read has been handed to its sink, as part of some line. -/
def Drained (t : Traced) : Prop :=
  ∀ i, t.state.polled ≠ some i →
    (t.state.captures i).lines = (t.handed i).map lineText ∧ (t.handed i).flatten = t.read i

/-- **The condition**: nothing is pending in the capture that is given up. -/
def NothingPending (t : Traced) (a : Action) : Prop :=
  ∀ st, t.state.rtt = some st → Discards t.state st a → st.pending = []

/-- **The invariant.** The first four say that an attach is for a capture that has
not been polled yet. -/
structure Accounted (t : Traced) : Prop where
  nodup : (t.state.undone.map Cmd.call).Nodup
  undone_lt : ∀ cmd ∈ t.state.undone, cmd.call < t.state.next
  polled_lt : ∀ i, t.state.polled = some i → i < t.state.next
  unstarted : ∀ i, Cmd.startRtt i ∈ t.state.undone → t.state.polled ≠ some i
  fresh : ∀ i, t.state.next ≤ i → t.read i = [] ∧ t.handed i = []
  assembled : ∀ st, t.state.rtt = some st → Assembly.Of (t.read st.capture) (t.assembly st)
  drained : ∀ i, t.state.polled ≠ some i → (t.handed i).flatten = t.read i
  lines : ∀ i, (t.state.captures i).lines = (t.handed i).map lineText

theorem accounted_start : Accounted .start where
  nodup := List.nodup_nil
  undone_lt _ hcmd := absurd hcmd List.not_mem_nil
  polled_lt i hi := absurd hi (Option.some_ne_none i).symm
  unstarted _ hi := absurd hi List.not_mem_nil
  fresh _ _ := ⟨rfl, rfl⟩
  assembled st hst := absurd hst (Option.some_ne_none st).symm
  drained _ _ := rfl
  lines _ := rfl

theorem State.polled_of_rtt {s : State} {st : RttState} (h : s.rtt = some st) :
    s.polled = some st.capture := by
  unfold State.polled
  rw [h]
  rfl

theorem State.polled_of_rtt_none {s : State} (h : s.rtt = none) : s.polled = none := by
  unfold State.polled
  rw [h]
  rfl

theorem State.lines_finish (s : State) (cmd : Cmd) (stop : Stop) (i : ℕ) :
    ((s.finish cmd stop).captures i).lines = (s.captures i).lines := by
  by_cases h : cmd = .startRtt i
  · rw [h, State.captures_finish_startRtt]
  · rw [State.captures_finish_of_ne h]

namespace Accounted

variable {t : Traced} {s : State}

/-- The worker and the owner go on, and the captures are left alone. -/
theorem of_same (hk : Accounted t) (hrtt : s.rtt = t.state.rtt)
    (hundone : s.undone.Sublist t.state.undone) (hnext : s.next = t.state.next)
    (hlines : ∀ i, (s.captures i).lines = (t.state.captures i).lines) :
    Accounted { t with state := s } := by
  have hpolled : s.polled = t.state.polled := congrArg (Option.map RttState.capture) hrtt
  exact {
    nodup := hk.nodup.sublist (hundone.map Cmd.call)
    undone_lt := fun cmd hcmd => hnext ▸ hk.undone_lt cmd (hundone.subset hcmd)
    polled_lt := fun i hi => hnext ▸ hk.polled_lt i (hpolled ▸ hi)
    unstarted := fun i hi => hpolled ▸ hk.unstarted i (hundone.subset hi)
    fresh := fun i hi => hk.fresh i (hnext ▸ hi)
    assembled := fun st hst => hk.assembled st (hrtt ▸ hst)
    drained := fun i hi => hk.drained i (hpolled ▸ hi)
    lines := fun i => (hlines i).trans (hk.lines i) }

/-- Where nothing is pending, the sink has everything of the capture polled as
well. -/
theorem flatten_handed (hk : Accounted t)
    (hpending : ∀ st, t.state.rtt = some st → st.pending = []) (i : ℕ) :
    (t.handed i).flatten = t.read i := by
  by_cases hi : t.state.polled = some i
  · obtain ⟨st, hst, rfl⟩ := Option.map_eq_some_iff.mp hi
    have hwhole := (hk.assembled st hst).whole
    unfold Traced.assembly at hwhole
    rwa [hpending st hst, List.append_nil] at hwhole
  · exact hk.drained i hi

/-- **The capture polled is given up**, with nothing pending. -/
theorem of_discard (hk : Accounted t)
    (hpending : ∀ st, t.state.rtt = some st → st.pending = []) (hrtt : s.rtt = none)
    (hundone : s.undone.Sublist t.state.undone) (hnext : s.next = t.state.next)
    (hlines : ∀ i, (s.captures i).lines = (t.state.captures i).lines) :
    Accounted { t with state := s } := by
  have hpolled : s.polled = none := State.polled_of_rtt_none hrtt
  exact {
    nodup := hk.nodup.sublist (hundone.map Cmd.call)
    undone_lt := fun cmd hcmd => hnext ▸ hk.undone_lt cmd (hundone.subset hcmd)
    polled_lt := fun i hi => absurd (hpolled.symm.trans hi) (Option.some_ne_none i).symm
    unstarted := fun i _ hi => absurd (hpolled.symm.trans hi) (Option.some_ne_none i).symm
    fresh := fun i hi => hk.fresh i (hnext ▸ hi)
    assembled := fun st hst => absurd (hrtt.symm.trans hst) (Option.some_ne_none st).symm
    drained := fun i _ => hk.flatten_handed hpending i
    lines := fun i => (hlines i).trans (hk.lines i) }

/-- **Another capture takes its place**, with nothing read and nothing pending. -/
theorem of_attach (hk : Accounted t)
    (hpending : ∀ st, t.state.rtt = some st → st.pending = []) {j : ℕ}
    (hrtt : s.rtt = some ⟨j, []⟩) (hundone : Cmd.startRtt j :: s.undone = t.state.undone)
    (hnext : s.next = t.state.next) (hcaptures : s.captures = t.state.captures) :
    Accounted { t with state := s } := by
  have hpolled : s.polled = some j := State.polled_of_rtt hrtt
  have hnodup := hk.nodup
  rw [← hundone, List.map_cons, List.nodup_cons] at hnodup
  have hsublist : s.undone.Sublist t.state.undone := hundone ▸ List.sublist_cons_self _ _
  have hmem : Cmd.startRtt j ∈ t.state.undone := hundone ▸ List.mem_cons_self
  exact {
    nodup := hnodup.2
    undone_lt := fun cmd hcmd => hnext ▸ hk.undone_lt cmd (hsublist.subset hcmd)
    polled_lt := fun i hi => by
      obtain rfl := Option.some.inj (hpolled.symm.trans hi)
      exact hnext ▸ hk.undone_lt _ hmem
    unstarted := fun i hi heq => by
      obtain rfl := Option.some.inj (hpolled.symm.trans heq)
      exact hnodup.1 (List.mem_map_of_mem hi)
    fresh := fun i hi => hk.fresh i (hnext ▸ hi)
    assembled := fun st hst => by
      obtain rfl := Option.some.inj (hrtt.symm.trans hst)
      refine ⟨?_, List.not_mem_nil, Nat.zero_le _⟩
      exact (List.append_nil _).trans (hk.drained j (hk.unstarted j hmem))
    drained := fun i _ => hk.flatten_handed hpending i
    lines := fun i => hcaptures ▸ hk.lines i }

/-- A call begins: the capture of a `start_rtt` is new. -/
theorem begin (hk : Accounted t) (req : Request) :
    Accounted { t with state := t.state.begin req } := by
  by_cases hexited : t.state.worker = .exited
  · rw [State.begin, if_pos hexited]
    exact hk
  have hrtt : (t.state.begin req).rtt = t.state.rtt := by
    rw [State.begin, if_neg hexited]
  have hundone := State.undone_begin hexited req
  have hnext := State.next_begin hexited req
  have hpolled := State.polled_begin (s := t.state) req
  have hlt : ∀ cmd ∈ t.state.undone, cmd.call ≠ t.state.next :=
    fun cmd hcmd => (hk.undone_lt cmd hcmd).ne
  refine ⟨?_, fun cmd hcmd => ?_, fun i hi => ?_, fun i hi => ?_, fun i hi => ?_,
    fun st hst => hk.assembled st (hrtt ▸ hst), fun i hi => hk.drained i (hpolled ▸ hi),
    fun i => ?_⟩
  · show ((t.state.begin req).undone.map Cmd.call).Nodup
    rw [hundone, List.map_append, List.nodup_append]
    refine ⟨hk.nodup, List.pairwise_singleton _ _, fun n hn m hm => ?_⟩
    obtain ⟨cmd, hcmd, rfl⟩ := List.mem_map.mp hn
    obtain rfl := List.mem_singleton.mp hm
    rw [Request.call_cmd]
    exact hlt cmd hcmd
  · change cmd ∈ (t.state.begin req).undone at hcmd
    show cmd.call < (t.state.begin req).next
    rw [hundone, List.mem_append, List.mem_singleton] at hcmd
    rw [hnext]
    obtain hcmd | rfl := hcmd
    · exact Nat.lt_succ_of_lt (hk.undone_lt cmd hcmd)
    · rw [Request.call_cmd]
      exact Nat.lt_succ_self _
  · exact hnext ▸ Nat.lt_succ_of_lt (hk.polled_lt i (hpolled ▸ hi))
  · change Cmd.startRtt i ∈ (t.state.begin req).undone at hi
    show (t.state.begin req).polled ≠ some i
    rw [hundone, List.mem_append, List.mem_singleton] at hi
    rw [hpolled]
    obtain hi | hi := hi
    · exact hk.unstarted i hi
    · intro hpolled'
      have hcall : i = t.state.next := (congrArg Cmd.call hi).trans (Request.call_cmd _ req)
      exact (hk.polled_lt i hpolled').ne hcall
  · exact hk.fresh i (Nat.le_of_succ_le (hnext.symm.le.trans hi))
  · show ((t.state.begin req).captures i).lines = _
    by_cases hi : i = t.state.next
    · cases req with
      | startRtt =>
        subst hi
        rw [State.captures_begin_startRtt hexited, (hk.fresh _ le_rfl).2]
        rfl
      | flash path =>
        rw [State.captures_begin_of_ne_startRtt Request.noConfusion]
        exact hk.lines i
      | reset =>
        rw [State.captures_begin_of_ne_startRtt Request.noConfusion]
        exact hk.lines i
    · rw [State.captures_begin_of_ne hi]
      exact hk.lines i

/-- A read is assembled. -/
theorem read (hk : Accounted t) {st : RttState} (hst : t.state.rtt = some st)
    (bs : List UInt8) {more : List String}
    (hmore : ((t.assembly st).read bs).handed.map lineText
      = (t.handed st.capture).map lineText ++ more)
    (hrtt : s.rtt = some { st with pending := ((t.assembly st).read bs).pending })
    (hundone : s.undone = t.state.undone) (hnext : s.next = t.state.next)
    (hself : (s.captures st.capture).lines = (t.state.captures st.capture).lines ++ more)
    (hother : ∀ i, i ≠ st.capture → (s.captures i).lines = (t.state.captures i).lines) :
    Accounted
      { state := s
        read := Function.update t.read st.capture (t.read st.capture ++ bs)
        handed := Function.update t.handed st.capture ((t.assembly st).read bs).handed } := by
  have hpolled : s.polled = t.state.polled :=
    (State.polled_of_rtt hrtt).trans (State.polled_of_rtt hst).symm
  have hpoll : t.state.polled = some st.capture := State.polled_of_rtt hst
  exact {
    nodup := hundone ▸ hk.nodup
    undone_lt := fun cmd hcmd => hnext ▸ hk.undone_lt cmd (hundone ▸ hcmd)
    polled_lt := fun i hi => hnext ▸ hk.polled_lt i (hpolled ▸ hi)
    unstarted := fun i hi => hpolled ▸ hk.unstarted i (hundone ▸ hi)
    fresh := fun i hi => by
      have hne : i ≠ st.capture := fun h =>
        absurd (hk.polled_lt _ hpoll) (not_lt.mpr (h ▸ hnext ▸ hi))
      dsimp only
      rw [Function.update_of_ne hne, Function.update_of_ne hne]
      exact hk.fresh i (hnext ▸ hi)
    assembled := fun st' hst' => by
      obtain rfl := Option.some.inj (hrtt.symm.trans hst')
      unfold Traced.assembly
      dsimp only
      rw [Function.update_self, Function.update_self]
      exact (hk.assembled st hst).read bs
    drained := fun i hi => by
      have hne : i ≠ st.capture := fun h => hi (hpolled.trans (h ▸ hpoll))
      dsimp only
      rw [Function.update_of_ne hne, Function.update_of_ne hne]
      exact hk.drained i (hpolled ▸ hi)
    lines := fun i => by
      by_cases hi : i = st.capture
      · subst hi
        dsimp only
        rw [Function.update_self, hmore, hself, hk.lines]
      · dsimp only
        rw [Function.update_of_ne hi, hother i hi]
        exact hk.lines i }

end Accounted

/-! ## Every step -/

section Steps

variable {t : Traced} {s : State}

/-- An action that is no poll with bytes in it passes nothing. -/
theorem Traced.passed_of_ne_bytes {a : Action} (h : ∀ bs, a ≠ .poll (.bytes bs)) :
    t.passed a = t := by
  unfold Traced.passed
  split
  · exact absurd rfl (h _)
  · rfl

/-- Neither does a poll of nothing, or of a capture without its handle. -/
theorem Traced.passed_of_not_polled {a : Action}
    (h : ∀ st, t.state.rtt = some st → (t.state.captures st.capture).stop = .gone) :
    t.passed a = t := by
  unfold Traced.passed
  split
  case h_1 bs st hst => exact if_pos (h st hst)
  case h_2 => rfl

/-- A poll that does not fail goes on with what is pending. -/
theorem exists_of_not_fails {stream : List UInt8} {a : Assembly} (h : Assembly.Of stream a)
    {ch : Channel} (hch : ch.fails = false) :
    (ch.fails = false ∧ ∀ bs, ch ≠ .bytes bs) ∧ pollRtt a.pending ch = .ok (a.pending, [])
      ∨ ∃ bs more, ch = .bytes bs ∧ pollRtt a.pending ch = .ok ((a.read bs).pending, more)
        ∧ (a.read bs).handed.map lineText = a.handed.map lineText ++ more := by
  cases ch with
  | coreFailed e => exact absurd hch.symm Bool.false_ne_true
  | readFailed e => exact absurd hch.symm Bool.false_ne_true
  | absent => exact .inl ⟨⟨hch, fun bs => Channel.noConfusion⟩, rfl⟩
  | bytes bs =>
    obtain ⟨more, hpoll, hmore⟩ := h.pollRtt bs
    exact .inr ⟨bs, more, rfl, hpoll, hmore⟩

theorem exists_of_fails {pending : List UInt8} {ch : Channel} (hch : ch.fails = true) :
    ∃ e, pollRtt pending ch = .error e := by
  cases ch with
  | coreFailed e => exact ⟨_, rfl⟩
  | readFailed e => exact ⟨_, rfl⟩
  | absent => exact absurd hch Bool.false_ne_true
  | bytes bs => exact absurd hch Bool.false_ne_true

/-- **The end of an iteration** of the worker. -/
theorem Accounted.poll (hk : Accounted t) (hworker : t.state.worker = .polling) {ch : Channel}
    (hpending : NothingPending t (.poll ch)) :
    Accounted { t.passed (.poll ch) with state := t.state.poll ch } := by
  have hundone : t.state.queue = t.state.undone :=
    (State.undone_of_not_executing (fun cmd => by simp [hworker])).symm
  unfold State.poll
  cases hrtt : t.state.rtt with
  | none =>
    rw [Traced.passed_of_not_polled (fun st hst => by simp [hrtt] at hst)]
    exact hk.of_same hrtt.symm (hundone ▸ List.Sublist.refl _) rfl (fun _ => rfl)
  | some st =>
    dsimp only
    by_cases hgone : (t.state.captures st.capture).stop = .gone
    · -- the handle is gone
      have hnot : ∀ st', t.state.rtt = some st' → (t.state.captures st'.capture).stop = .gone :=
        fun st' hst' => Option.some.inj (hrtt.symm.trans hst') ▸ hgone
      rw [if_pos hgone, Traced.passed_of_not_polled hnot]
      refine hk.of_discard (fun st' hst' => hpending st' hst' (.inl (hnot st' hst'))) rfl
        (hundone ▸ List.Sublist.refl _) rfl (fun _ => rfl)
    rw [if_neg hgone]
    cases hfails : ch.fails with
    | true =>
      obtain ⟨e, hpoll⟩ := @exists_of_fails st.pending ch hfails
      rw [hpoll, Traced.passed_of_ne_bytes (fun bs h => by
        obtain rfl := Action.poll.inj h
        exact absurd hfails Bool.false_ne_true)]
      exact hk.of_discard (fun st' hst' => hpending st' hst' (.inr hfails)) rfl
        (hundone ▸ List.Sublist.refl _) rfl (State.apply_setCapture _ Capture.lines rfl)
    | false =>
      obtain ⟨⟨-, hbytes⟩, hpoll⟩ | ⟨bs, more, rfl, hpoll, hmore⟩ :=
        exists_of_not_fails (hk.assembled st hrtt) hfails
      · change pollRtt st.pending ch = _ at hpoll
        rw [hpoll, Traced.passed_of_ne_bytes (fun bs h => hbytes bs (Action.poll.inj h))]
        exact hk.of_same hrtt.symm (hundone ▸ List.Sublist.refl _) rfl
          (State.apply_setCapture _ Capture.lines (List.append_nil _))
      · change pollRtt st.pending (.bytes bs) = _ at hpoll
        unfold Traced.passed
        rw [hpoll, hrtt]
        dsimp only
        rw [if_neg hgone]
        refine hk.read hrtt bs hmore rfl hundone rfl ?_ (fun i hi => ?_)
        · rw [State.captures_setCapture_self]
        · rw [State.captures_setCapture_of_ne _ _ hi]

/-- **A step that meets the condition keeps the invariant.** -/
theorem Accounted.step {t' : Traced} {a : Action} (hk : Accounted t) (hpending : NothingPending t a)
    (h : t.step a = some t') : Accounted t' := by
  obtain ⟨s, hs, rfl⟩ := Option.map_eq_some_iff.mp h
  by_cases hpoll : ∃ ch, a = .poll ch
  · obtain ⟨ch, rfl⟩ := hpoll
    cases Step.of_step hs with
    | poll hworker => exact hk.poll hworker hpending
  -- no other action passes anything
  rw [Traced.passed_of_ne_bytes (fun _ ha => hpoll ⟨_, ha⟩)]
  have hundone : ∀ w, t.state.worker = w → (∀ cmd, w ≠ .executing cmd) →
      t.state.undone = t.state.queue :=
    fun w hw hne => State.undone_of_not_executing (fun cmd => hw ▸ hne cmd)
  cases Step.of_step hs with
  | @sessionOpens result hworker =>
    refine hk.of_same rfl ?_ rfl (fun _ => rfl)
    rw [hundone _ hworker (by simp)]
    cases result <;> exact List.Sublist.refl _
  | opened | openFailed | cancelOpen | dropTarget =>
    exact hk.of_same rfl (List.Sublist.refl _) rfl (fun _ => rfl)
  | call howner hcall =>
    exact hk.begin _
  | @returned cmd hcall | @failed cmd e hcall | @cancel c hcall =>
    exact hk.of_same rfl (List.Sublist.refl _) rfl (fun i => State.lines_finish _ _ _ i)
  | @dropCapture i hhandle =>
    exact hk.of_same rfl (List.Sublist.refl _) rfl
      (State.apply_setCapture _ Capture.lines rfl)
  | @recvFlash call path queue hworker hqueue =>
    refine hk.of_discard (fun st hst => hpending st hst ⟨call, path, queue, hqueue⟩) rfl ?_ rfl
      (fun _ => rfl)
    rw [hundone _ hworker (by simp), hqueue]
    exact List.Sublist.refl _
  | recv hworker hqueue =>
    refine hk.of_same rfl ?_ rfl (fun _ => rfl)
    rw [hundone _ hworker (by simp), hqueue]
    exact List.Sublist.refl _
  | timeout hworker =>
    refine hk.of_same rfl ?_ rfl (fun _ => rfl)
    rw [hundone _ hworker (by simp)]
    exact List.Sublist.refl _
  | disconnected hworker =>
    refine hk.of_discard (fun st hst => hpending st hst trivial) rfl ?_ rfl (fun _ => rfl)
    rw [hundone _ hworker (by simp)]
    exact List.Sublist.refl _
  | @execute cmd hw hworker =>
    have hcons : cmd :: t.state.queue = t.state.undone :=
      (State.undone_of_executing hworker).symm
    obtain ⟨result, heq, -⟩ | ⟨i, rfl, hattach, heq⟩ := State.execute_cases cmd hw
    · rw [heq]
      exact hk.of_same rfl (hcons ▸ List.sublist_cons_self _ _) rfl (fun _ => rfl)
    · rw [heq]
      exact hk.of_attach (fun st hst => hpending st hst ⟨⟨i, hworker⟩, hattach⟩) rfl hcons rfl rfl
  | poll => exact absurd ⟨_, rfl⟩ hpoll

/-- What the sink lacks of a capture that is polled is what is pending. -/
theorem Accounted.pending_eq_nil (hk : Accounted t) {st : RttState} (hst : t.state.rtt = some st)
    (h : (t.handed st.capture).flatten = t.read st.capture) : st.pending = [] := by
  have hwhole := (hk.assembled st hst).whole
  rw [← h] at hwhole
  exact List.append_right_eq_self.mp hwhole

/-- Giving up a capture passes nothing, and it is not polled afterwards. -/
theorem Accounted.of_discards (hk : Accounted t) {st : RttState} (hst : t.state.rtt = some st)
    {a : Action} (hdiscards : Discards t.state st a) (hs : Probe.step t.state a = some s) :
    t.passed a = t ∧ s.polled ≠ some st.capture := by
  have hpolled : t.state.polled = some st.capture := State.polled_of_rtt hst
  have hnone : ∀ s : State, s.rtt = none → s.polled ≠ some st.capture :=
    fun s hrtt hi => Option.some_ne_none _ (hi.symm.trans (State.polled_of_rtt_none hrtt))
  cases Step.of_step hs with
  | recvFlash => exact ⟨Traced.passed_of_ne_bytes (fun _ => Action.noConfusion), hnone _ rfl⟩
  | recv hworker hqueue hcmd =>
    obtain ⟨call, path, rest, hflash⟩ := hdiscards
    exact absurd (List.cons.inj (hqueue.symm.trans hflash)).1 (hcmd call path)
  | disconnected => exact ⟨Traced.passed_of_ne_bytes (fun _ => Action.noConfusion), hnone _ rfl⟩
  | @execute cmd hw hworker =>
    refine ⟨Traced.passed_of_ne_bytes (fun _ => Action.noConfusion), ?_⟩
    obtain ⟨⟨i, hi⟩, hattach⟩ := hdiscards
    obtain rfl := Worker.executing.inj (hworker.symm.trans hi)
    have hstart : Cmd.startRtt i ∈ t.state.undone := by
      rw [State.undone_of_executing hworker]
      exact List.mem_cons_self
    have hattached : (t.state.execute (.startRtt i) hw).polled = some i := by
      rw [State.execute, hattach]
      rfl
    intro hsame
    obtain rfl := Option.some.inj (hattached.symm.trans hsame)
    exact hk.unstarted _ hstart hpolled
  | @poll ch hworker =>
    have hended : t.passed (.poll ch) = t ∧ (t.state.poll ch).rtt = none := by
      unfold State.poll
      rw [hst]
      dsimp only
      by_cases hgone : (t.state.captures st.capture).stop = .gone
      · rw [if_pos hgone]
        exact ⟨Traced.passed_of_not_polled
          (fun st' hst' => Option.some.inj (hst.symm.trans hst') ▸ hgone), rfl⟩
      · have hfails : ch.fails = true := hdiscards.resolve_left hgone
        obtain ⟨e, hpoll⟩ := @exists_of_fails st.pending ch hfails
        rw [if_neg hgone, hpoll]
        refine ⟨Traced.passed_of_ne_bytes (fun bs h => ?_), rfl⟩
        obtain rfl := Action.poll.inj h
        exact absurd hfails Bool.false_ne_true
    exact ⟨hended.1, hnone _ hended.2⟩
  | _ => exact hdiscards.elim

/-- **A step that does not meet it drops what was pending.** -/
theorem Accounted.nothingPending_of_drained {t' : Traced} {a : Action} (hk : Accounted t)
    (h : t.step a = some t') (hdrained : Drained t') : NothingPending t a := by
  obtain ⟨s, hs, rfl⟩ := Option.map_eq_some_iff.mp h
  intro st hst hdiscards
  obtain ⟨hpassed, hnot⟩ := hk.of_discards hst hdiscards hs
  have hall := (hdrained st.capture hnot).2
  rw [hpassed] at hall
  exact hk.pending_eq_nil hst hall

end Steps

/-- **When no byte is dropped.** In every run of a `LocalTarget` – any calls, any
polls, whichever way a capture ends – all bytes that were read for a capture have
been handed to its sink by the time it is given up, if and only if each step that
gives up a capture finds nothing pending in it. -/
theorem drained_iff (run : List Action) :
    Transition.Always Traced.step Drained Traced.start run
      ↔ Transition.Guarded Traced.step NothingPending Traced.start run :=
  Transition.always_iff_guarded (fun _ hk i hi => ⟨hk.lines i, hk.drained i hi⟩)
    (fun _ _ _ hk hpending h => hk.step hpending h)
    (fun _ _ _ hk h hdrained => hk.nothingPending_of_drained h hdrained) accounted_start

/-! ### A last line without a newline -/

/-- A capture reads the beginning of a line, and its handle is dropped. -/
def lastLineRun : List Action :=
  [.sessionOpens (.ok ()), .openReturns, .call .startRtt, .recv,
    .execute ⟨.ok (), .ok (), .ok (), .ok ()⟩, .callReturns, .poll (.bytes [0x6F, 0x6B]),
    .dropCapture 0, .timeout, .poll .absent]

/-- **The beginning of a line is dropped** with the capture. -/
theorem lastLine_dropped :
    ¬ ∀ run, Transition.Always Traced.step Drained Traced.start run := by
  intro h
  have hend : (Transition.run Traced.step Traced.start lastLineRun).map
      (fun t => (t.state.polled, t.read 0, t.handed 0)) = some (none, [0x6F, 0x6B], []) := by
    decide +kernel
  obtain ⟨t, hrun, ht⟩ := Option.map_eq_some_iff.mp hend
  simp only [Prod.mk.injEq] at ht
  obtain ⟨hpolled, hread, hhanded⟩ := ht
  have hall := ((h lastLineRun).last hrun 0 (by simp [hpolled])).2
  rw [hread, hhanded] at hall
  exact absurd hall (List.cons_ne_nil _ _).symm

end Probe

end Banc
