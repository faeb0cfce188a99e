import Mathlib.Data.List.Nodup
import Banc.Lib.History
import Banc.Probe.Local

/-!
# Every command once

`flash`, `reset` and `start_rtt` send a command to the worker thread and wait for its
reply. The channel between them is not tied to the futures that wait: a call whose
future is dropped leaves its command behind, and the target itself may be dropped with
commands still in the channel. What becomes of them?

The worker executes every command that was sent, once, in the order in which they were
sent, and does not exit before. A call that returns has the result of its own command,
and by then there is nothing that was sent and not executed. So a flash that has been
given up is executed before the next call returns, whatever that call is
(`commands_executed`).

The proof is about the history of a run: what has been sent, what has been executed,
with what the probe answered, and what has been returned. The invariant is that the
commands not yet executed are the rest of what has been sent (`Recorded`).
-/

namespace Banc

namespace Probe

/-- What a maintainer would log. -/
inductive Event where
  | sent (cmd : Cmd)
  | executed (cmd : Cmd) (h : Hardware)
  | returned (cmd : Cmd) (result : Except String Unit)

/-- What a step adds to the log. -/
def State.event (s : State) : Action → List Event
  | .call req => if s.worker = .exited then [] else [.sent (req.cmd s.next)]
  | .execute h =>
    match s.worker with
    | .executing cmd => [.executed cmd h]
    | _ => []
  | .callReturns =>
    match s.call with
    | some ⟨cmd, some result⟩ => [.returned cmd result]
    | _ => []
  | _ => []

/-- The result of a command, by what the probe answers. -/
def Cmd.result (h : Hardware) : Cmd → Except String Unit
  | .flash _ path => Probe.flash path h
  | .reset _ => resetCore h
  | .startRtt _ => attachRtt h

/-- The command that a call has sent, if it has. -/
def Event.sent? : Event → Option Cmd
  | .sent cmd => some cmd
  | _ => none

/-- The command that the worker has executed, if it has. -/
def Event.executed? : Event → Option Cmd
  | .executed cmd _ => some cmd
  | _ => none

/-- The commands that have been sent. -/
def sentCmds (log : List Event) : List Cmd := log.filterMap Event.sent?

/-- The commands that have been executed. -/
def executedCmds (log : List Event) : List Cmd := log.filterMap Event.executed?

@[simp] theorem sentCmds_append (log more : List Event) :
    sentCmds (log ++ more) = sentCmds log ++ sentCmds more :=
  List.filterMap_append

@[simp] theorem executedCmds_append (log more : List Event) :
    executedCmds (log ++ more) = executedCmds log ++ executedCmds more :=
  List.filterMap_append

theorem mem_executedCmds {log : List Event} {cmd : Cmd} :
    cmd ∈ executedCmds log ↔ ∃ h, .executed cmd h ∈ log := by
  unfold executedCmds
  rw [List.mem_filterMap]
  constructor
  · rintro ⟨event, hmem, hevent⟩
    cases event with
    | executed cmd' h =>
      obtain rfl := Option.some.inj hevent
      exact ⟨h, hmem⟩
    | sent cmd' => exact absurd hevent nofun
    | returned cmd' result => exact absurd hevent nofun
  · rintro ⟨h, hmem⟩
    exact ⟨_, hmem, rfl⟩

/-- **A call that returns** comes after all that was sent before it, and has the result
of its own command. -/
def Settled (log : List Event) (cmd : Cmd) (result : Except String Unit) : Prop :=
  executedCmds log = sentCmds log ∧ cmd ∈ (sentCmds log).getLast?
    ∧ ∃ h, .executed cmd h ∈ log ∧ result = cmd.result h

/-- **A state, and the log of the run that has led to it.** -/
structure Recorded (s : State) (log : List Event) : Prop where
  /-- What is still to be executed is the rest of what was sent. -/
  order : executedCmds log ++ s.undone = sentCmds log
  /-- The calls are numbered as they come. -/
  numbers : (sentCmds log).map Cmd.call = List.range s.next
  /-- The call under way is the last, and its reply is the worker's. -/
  call : ∀ c ∈ s.call, c.cmd ∈ (sentCmds log).getLast?
    ∧ ∀ r ∈ c.reply, ∃ h, .executed c.cmd h ∈ log ∧ r = c.cmd.result h
  returned : ∀ before cmd result after,
    log = before ++ .returned cmd result :: after → Settled before cmd result
  /-- Who has a target has a worker that serves it. -/
  served : s.owner = .target ∨ s.owner = .opening (some (.ok ())) →
    s.worker ≠ .opening ∧ s.worker ≠ .exited
  /-- The worker does not exit before it is done. -/
  exited : s.worker = .opening ∨ s.worker = .exited → s.undone = []

namespace Recorded

variable {s s' : State} {log : List Event}

theorem opening : Recorded .opening [] where
  order := rfl
  numbers := rfl
  call _ hc := absurd hc nofun
  returned before _ _ after h := by
    cases before <;> exact absurd h nofun
  served h := by rcases h with h | h <;> exact absurd h nofun
  exited _ := rfl

/-- A command is sent only once. -/
theorem nodup (h : Recorded s log) : (sentCmds log).Nodup := by
  have hnumbers : ((sentCmds log).map Cmd.call).Nodup := by
    rw [h.numbers]
    exact List.nodup_range
  exact List.Nodup.of_map _ hnumbers

/-- A call is known by its number. -/
theorem eq_of_call_eq (h : Recorded s log) {cmd cmd' : Cmd} (hcmd : cmd ∈ sentCmds log)
    (hcmd' : cmd' ∈ sentCmds log) (hcall : cmd.call = cmd'.call) : cmd = cmd' := by
  have hnumbers : ((sentCmds log).map Cmd.call).Nodup := by
    rw [h.numbers]
    exact List.nodup_range
  exact List.inj_on_of_nodup_map hnumbers hcmd hcmd' hcall

/-- What is sent last is executed last: when it has been, nothing is left. -/
theorem undone_eq_nil (h : Recorded s log) {cmd : Cmd} (hlast : cmd ∈ (sentCmds log).getLast?)
    (hdone : cmd ∈ executedCmds log) : s.undone = [] := by
  rcases List.eq_nil_or_concat s.undone with hnone | ⟨cmds, last, hcmds⟩
  · exact hnone
  · have horder := h.order
    rw [hcmds, List.concat_eq_append, ← List.append_assoc] at horder
    rw [← horder, List.getLast?_concat] at hlast
    obtain rfl := Option.some.inj hlast
    have hnodup := h.nodup
    rw [← horder, List.nodup_append] at hnodup
    exact absurd rfl (hnodup.2.2 _ (List.mem_append_left _ hdone) _ (List.mem_singleton_self last))

/-- Nothing is added to the log. -/
theorem of_same (h : Recorded s log) (hundone : s'.undone = s.undone) (hnext : s'.next = s.next)
    (hcall : ∀ c ∈ s'.call, c ∈ s.call)
    (hserved : s'.owner = .target ∨ s'.owner = .opening (some (.ok ())) →
      s'.worker ≠ .opening ∧ s'.worker ≠ .exited)
    (hexited : s'.worker = .opening ∨ s'.worker = .exited → s.undone = []) :
    Recorded s' (log ++ []) := by
  rw [List.append_nil]
  exact ⟨hundone ▸ h.order, hnext ▸ h.numbers, fun c hc => h.call c (hcall c hc), h.returned,
    hserved, fun hworker => hundone.trans (hexited hworker)⟩

/-- Something is added to it that is no return. -/
theorem returned_concat (h : Recorded s log) {event : Event}
    (hevent : ∀ cmd result, event ≠ .returned cmd result)
    (before : List Event) (cmd : Cmd) (result : Except String Unit) (after : List Event)
    (heq : log ++ [event] = before ++ .returned cmd result :: after) :
    Settled before cmd result := by
  rcases Transition.concat_eq_append_cons.mp heq with ⟨-, hreturned, -⟩ | ⟨more, -, hlog⟩
  · exact absurd hreturned.symm (hevent cmd result)
  · exact h.returned before cmd result more hlog

/-- A call begins. -/
theorem begin (h : Recorded s log) (howner : s.owner = .target) (req : Request) :
    Recorded (s.begin req) (log ++ s.event (.call req)) := by
  obtain ⟨hopening, hexited⟩ := h.served (.inl howner)
  have hevent : s.event (.call req) = [.sent (req.cmd s.next)] := if_neg hexited
  have hworker : (s.begin req).worker = s.worker := by
    unfold State.begin
    rw [if_neg hexited]
  rw [hevent]
  refine ⟨?_, ?_, ?_, h.returned_concat nofun, fun _ => hworker ▸ ⟨hopening, hexited⟩, ?_⟩
  · rw [State.undone_begin hexited, executedCmds_append, sentCmds_append, ← h.order]
    show executedCmds log ++ [] ++ (s.undone ++ [req.cmd s.next]) = _ ++ [req.cmd s.next]
    rw [List.append_nil, List.append_assoc]
  · rw [State.next_begin hexited, sentCmds_append, List.map_append, h.numbers, List.range_succ]
    exact congrArg _ (congrArg (fun n => [n]) (Request.call_cmd s.next req))
  · intro c hc
    rw [State.call_begin hexited] at hc
    obtain rfl := Option.some.inj hc
    refine ⟨?_, fun r hr => absurd hr nofun⟩
    rw [sentCmds_append]
    exact List.getLast?_concat
  · rw [hworker]
    rintro (hw | hw)
    · exact absurd hw hopening
    · exact absurd hw hexited

/-- The worker is done with a command. -/
theorem execute (h : Recorded s log) {cmd : Cmd} (hworker : s.worker = .executing cmd)
    (hw : Hardware) : Recorded (s.execute cmd hw) (log ++ s.event (.execute hw)) := by
  have hundone : s.undone = cmd :: s.queue := State.undone_of_executing hworker
  have hevent : s.event (.execute hw) = [.executed cmd hw] := by
    unfold State.event
    rw [hworker]
  have hsent : cmd ∈ sentCmds log := by
    rw [← h.order, hundone]
    exact List.mem_append_right _ List.mem_cons_self
  have hexecute : ∃ rtt, s.execute cmd hw
      = State.reply { s with worker := .polling, rtt } cmd.call (cmd.result hw) := by
    unfold State.execute
    cases cmd with
    | flash i path => exact ⟨s.rtt, rfl⟩
    | reset i => exact ⟨s.rtt, rfl⟩
    | startRtt i =>
      unfold Cmd.result
      dsimp only
      split
      · rename_i hattach
        rw [hattach]
        exact ⟨some ⟨i, []⟩, rfl⟩
      · rename_i hattach
        rw [hattach]
        exact ⟨s.rtt, rfl⟩
  obtain ⟨rtt, hexecute⟩ := hexecute
  rw [hexecute, hevent]
  refine ⟨?_, ?_, ?_, h.returned_concat nofun, fun _ => ⟨nofun, nofun⟩, ?_⟩
  · rw [executedCmds_append, sentCmds_append, State.undone_reply, List.append_assoc]
    show executedCmds log ++ ([cmd] ++ s.queue) = sentCmds log ++ []
    rw [List.append_nil, ← h.order, hundone]
    rfl
  · rw [sentCmds_append]
    show (sentCmds log ++ []).map Cmd.call = List.range s.next
    rw [List.append_nil]
    exact h.numbers
  · intro c hc
    have hlast : sentCmds (log ++ [.executed cmd hw]) = sentCmds log := by
      rw [sentCmds_append]
      exact List.append_nil _
    rw [hlast]
    obtain ⟨c, hcall, rfl⟩ := Option.map_eq_some_iff.mp hc
    obtain ⟨hsent', hreply⟩ := h.call c hcall
    by_cases hnumber : c.cmd.call = cmd.call
    · rw [if_pos hnumber]
      refine ⟨hsent', fun r hr => ?_⟩
      obtain rfl := Option.some.inj hr
      obtain rfl := h.eq_of_call_eq hsent (List.mem_of_getLast? hsent') hnumber.symm
      exact ⟨hw, List.mem_append_right _ (List.mem_singleton_self _), rfl⟩
    · rw [if_neg hnumber]
      refine ⟨hsent', fun r hr => ?_⟩
      obtain ⟨h', hmem, hresult⟩ := hreply r hr
      exact ⟨h', List.mem_append_left _ hmem, hresult⟩
  · rintro (h | h) <;> exact absurd h nofun

/-- A call returns what the worker has replied. -/
theorem finish (h : Recorded s log) {cmd : Cmd} {result : Except String Unit}
    (hcall : s.call = some ⟨cmd, some result⟩) (stop : Stop) :
    Recorded (s.finish cmd stop) (log ++ s.event .callReturns) := by
  have hevent : s.event .callReturns = [.returned cmd result] := by
    unfold State.event
    rw [hcall]
  obtain ⟨hlast, hreply⟩ := h.call _ hcall
  obtain ⟨hw, hexecuted, hresult⟩ := hreply result rfl
  have hundone := h.undone_eq_nil hlast (mem_executedCmds.mpr ⟨hw, hexecuted⟩)
  have horder := h.order
  rw [hundone, List.append_nil] at horder
  rw [hevent]
  refine ⟨?_, ?_, fun c hc => absurd hc nofun, fun before cmd' result' after heq => ?_, h.served,
    h.exited⟩
  · rw [executedCmds_append, sentCmds_append, State.undone_finish, hundone, ← horder]
    exact List.append_nil _
  · rw [sentCmds_append]
    show (sentCmds log ++ []).map Cmd.call = List.range s.next
    rw [List.append_nil]
    exact h.numbers
  · rcases Transition.concat_eq_append_cons.mp heq with ⟨-, hreturned, rfl⟩ | ⟨more, -, hlog⟩
    · obtain ⟨rfl, rfl⟩ := Event.returned.inj hreturned
      exact ⟨horder, hlast, hw, hexecuted, hresult⟩
    · exact h.returned before cmd' result' more hlog

theorem step {a : Action} (h : Recorded s log) (hstep : Probe.step s a = some s') :
    Recorded s' (log ++ s.event a) := by
  have hwaiting (hworker : s.worker = .waiting) : s.undone = s.queue :=
    State.undone_of_not_executing (by rw [hworker]; exact nofun)
  cases Step.of_step hstep with
  | @sessionOpens result hworker =>
    have hundone := h.exited (.inl hworker)
    refine h.of_same ?_ rfl (fun _ hc => hc) ?_ (fun _ => hundone)
    · have hqueue : s.undone = s.queue :=
        State.undone_of_not_executing (by rw [hworker]; exact nofun)
      rw [hqueue]
      cases result <;> rfl
    · -- the target is there only if the session is
      intro howner
      have hnot (howner : s.owner = .target ∨ s.owner = .opening (some (.ok ()))) : False :=
        (h.served howner).1 hworker
      cases result with
      | ok u => exact ⟨nofun, nofun⟩
      | error e =>
        refine (hnot ?_).elim
        cases hold : s.owner with
        | target => exact .inl rfl
        | gone =>
          simp only [hold] at howner
          exact howner
        | opening ready =>
          cases ready with
          | none =>
            simp only [hold] at howner
            rcases howner with howner | howner <;> exact absurd howner nofun
          | some ready =>
            simp only [hold] at howner
            exact howner
  | opened howner =>
    exact h.of_same rfl rfl (fun _ hc => hc) (fun _ => h.served (.inr howner)) h.exited
  | openFailed | cancelOpen | dropTarget =>
    refine h.of_same rfl rfl (fun _ hc => hc) (fun howner => ?_) h.exited
    rcases howner with howner | howner <;> exact absurd howner nofun
  | call howner hcall => exact h.begin howner _
  | returned hcall => exact h.finish hcall .handle
  | failed hcall => exact h.finish hcall .gone
  | cancel hcall =>
    exact h.of_same rfl rfl (fun _ hc => absurd hc nofun) h.served h.exited
  | dropCapture hhandle => exact h.of_same rfl rfl (fun _ hc => hc) h.served h.exited
  | recvFlash hworker hqueue | recv hworker hqueue =>
    refine h.of_same ((hwaiting hworker).trans hqueue).symm rfl (fun _ hc => hc)
      (fun _ => ⟨nofun, nofun⟩) (fun hw => ?_)
    rcases hw with hw | hw <;> exact absurd hw nofun
  | timeout hworker =>
    refine h.of_same (hwaiting hworker).symm rfl (fun _ hc => hc) (fun _ => ⟨nofun, nofun⟩)
      (fun hw => ?_)
    rcases hw with hw | hw <;> exact absurd hw nofun
  | disconnected hworker hqueue hgone =>
    refine h.of_same (hwaiting hworker).symm rfl (fun _ hc => hc) (fun howner => ?_)
      (fun _ => (hwaiting hworker).trans hqueue)
    rcases howner with howner | howner <;> exact absurd (hgone.symm.trans howner) nofun
  | execute hworker => exact h.execute hworker _
  | @poll ch hworker =>
    have hpolled : (s.poll ch).worker = .waiting ∧ (s.poll ch).queue = s.queue
        ∧ (s.poll ch).next = s.next ∧ (s.poll ch).call = s.call := by
      unfold State.poll
      split
      · exact ⟨rfl, rfl, rfl, rfl⟩
      · dsimp only
        split
        · exact ⟨rfl, rfl, rfl, rfl⟩
        · split <;> exact ⟨rfl, rfl, rfl, rfl⟩
    obtain ⟨hw, hqueue, hnext, hcall⟩ := hpolled
    refine h.of_same ?_ hnext (fun c hc => hcall ▸ hc) (fun _ => ?_) (fun hw' => ?_)
    · rw [State.undone_of_not_executing (by rw [hw]; exact nofun),
        State.undone_of_not_executing (by rw [hworker]; exact nofun), hqueue]
    · rw [hw]
      exact ⟨nofun, nofun⟩
    · rw [hw] at hw'
      rcases hw' with hw' | hw' <;> exact absurd hw' nofun

end Recorded

/-- **Every command is executed, once, and in the order in which they are sent.** In
every run of a target and its worker, with calls and captures dropped at any moment:

* the commands executed so far are the first of those sent, each once, and the rest is
  on its way to the worker;
* who has a target can send it commands: `probe worker thread gone` is no answer he
  gets;
* a call that returns has the result of its own command; it was the last to be sent,
  and all before it have been executed, also those of calls that were given up;
* when the worker has exited, all that was sent has been executed. -/
theorem commands_executed {s : State} {as : List Action}
    (hrun : Transition.run step .opening as = some s) :
    let log := Transition.history step State.event .opening as
    executedCmds log ++ s.undone = sentCmds log
      ∧ (sentCmds log).map Cmd.call = List.range s.next
      ∧ (s.owner = .target → s.worker ≠ .exited)
      ∧ (∀ before cmd result after, log = before ++ .returned cmd result :: after →
          Settled before cmd result)
      ∧ (s.worker = .exited → executedCmds log = sentCmds log) := by
  intro log
  have h : Recorded s log := Transition.run_records (I := Recorded)
    (fun s log a s' h hstep => h.step hstep) Recorded.opening hrun
  refine ⟨h.order, h.numbers, fun howner => (h.served (.inl howner)).2, h.returned,
    fun hexited => ?_⟩
  have horder := h.order
  rwa [h.exited (.inr hexited), List.append_nil] at horder

/-! ### A flash that is given up -/

/-- What answers everything, but does not let a program be flashed. -/
def emptyProbe : Hardware := ⟨.error "no such file", .ok (), .ok (), .ok ()⟩

/-- The future of a flash is dropped before the worker gets to it, and a reset follows. -/
def givenUpRun : List Action :=
  [.sessionOpens (.ok ()), .openReturns, .call (.flash "app.elf"), .cancel, .call .reset, .recv,
    .execute emptyProbe, .poll .absent, .recv, .execute emptyProbe, .callReturns]

/-- **It is flashed all the same**, before the reset returns; and the reset has the
result of the reset. -/
theorem givenUpRun_executed :
    ∃ s, Transition.run step .opening givenUpRun = some s
      ∧ executedCmds (Transition.history step State.event .opening givenUpRun)
        = [.flash 0 "app.elf", .reset 1]
      ∧ Settled ((Transition.history step State.event .opening givenUpRun).take 4) (.reset 1)
          (.ok ()) := by
  have hrun : ∃ s, Transition.run step .opening givenUpRun = some s := ⟨_, rfl⟩
  obtain ⟨s, hrun⟩ := hrun
  obtain ⟨horder, -, -, hreturned, -⟩ := commands_executed hrun
  exact ⟨s, hrun, rfl, hreturned _ _ _ [] rfl⟩

end Probe

end Banc
