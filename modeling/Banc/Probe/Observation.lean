import Banc.Lib.Transition
import Banc.Probe.Local

/-!
# Lost observation

A dead capture looks like a quiet channel, so `RttCapture::error` is there to
tell them apart: `None` means that the capture is healthy, or was stopped by
dropping its handle. Read as a property of the state, every handle that is
alive and reports no error is the capture the worker is polling (`Observed`).

The worker keeps that on the one path it has in mind, the read fault: the
fault is recorded before the capture is discarded. On three others it discards
a capture and records nothing – a flash, a second `start_rtt` that attaches,
and the end of the loop when the `LocalTarget` is dropped. So the property
fails (`flash_loses_observation`), and it holds throughout exactly those runs
in which the capture discarded on one of these paths has lost its handle
already (`observed_iff`).
-/

namespace Banc

namespace Probe

/-- **Lost observation is never silent**: a handle that is alive and reports
no error is the capture the worker is polling. -/
def Observed (s : State) : Prop :=
  ∀ i, (s.captures i).stop = .handle → (s.captures i).health.error = none →
    s.polled = some i

/-- No handle is alive on the capture the worker is polling, if any. -/
def Unwatched (s : State) : Prop :=
  ∀ i, s.polled = some i → (s.captures i).stop ≠ .handle

/-- **The condition**: where the worker is about to discard the capture it
polls for another reason than a fault or its handle – it takes a flash, it
attaches for another `start_rtt`, it finds the channel closed – no handle is
alive on that capture. -/
def Spares (s : State) (a : Action) : Prop :=
  match a with
  | .recv => ∀ call path rest, s.queue = .flash call path :: rest → Unwatched s
  | .execute h =>
    ∀ i, s.worker = .executing (.startRtt i) → attachRtt h = .ok () → Unwatched s
  | .disconnected => Unwatched s
  | _ => True

/-- What holds of the call under way: its command is the last the worker has
not executed, or its reply has come and there are none; and a `start_rtt` that
has succeeded is being polled, or has been and is at fault. -/
structure CallKept (s : State) (c : Call) : Prop where
  owner : s.owner = .target
  lt : c.cmd.call < s.next
  waiting : c.reply = none → s.undone.getLast? = some c.cmd
  replied : ∀ r, c.reply = some r → s.undone = []
  future : ∀ i, c.cmd = .startRtt i → (s.captures i).stop = .future
  started : ∀ i, c.cmd = .startRtt i → c.reply = some (.ok ()) →
    s.polled = some i ∨ (s.captures i).health.error ≠ none

/-- What holds of a capture the worker has not attached for. -/
structure Unstarted (s : State) (i : ℕ) : Prop where
  stop : (s.captures i).stop ≠ .handle
  polled : s.polled ≠ some i

/-- **The invariant.** -/
structure Kept (s : State) : Prop where
  observed : Observed s
  healthy : ∀ i, s.polled = some i → (s.captures i).health.error = none
  unstarted : ∀ i, Cmd.startRtt i ∈ s.undone → Unstarted s i
  pristine : ∀ i, Cmd.startRtt i ∈ s.undone → (s.captures i).health.error = none
  nodup : (s.undone.map Cmd.call).Nodup
  undone_lt : ∀ cmd ∈ s.undone, cmd.call < s.next
  polled_lt : ∀ i, s.polled = some i → i < s.next
  fresh : ∀ i, s.next ≤ i → (s.captures i).stop ≠ .handle
  call : ∀ c, s.call = some c → CallKept s c

namespace Kept

variable {s s' : State}

/-- A step that touches neither the stop channels nor the health of the
captures, nor the commands. -/
theorem of_same (hk : Kept s)
    (hstop : ∀ i, (s'.captures i).stop = (s.captures i).stop)
    (hhealth : ∀ i, (s'.captures i).health = (s.captures i).health)
    (hpolled : s'.polled = s.polled) (hundone : s'.undone = s.undone)
    (hnext : s'.next = s.next) (hcall : s'.call = s.call)
    (howner : ∀ c, s.call = some c → s'.owner = .target) : Kept s' where
  observed i := by
    rw [hstop, hhealth, hpolled]
    exact hk.observed i
  healthy i := by
    rw [hhealth, hpolled]
    exact hk.healthy i
  unstarted i hi := by
    rw [hundone] at hi
    obtain ⟨hlive, hnot⟩ := hk.unstarted i hi
    exact ⟨hstop i ▸ hlive, hpolled ▸ hnot⟩
  pristine i := by
    rw [hundone, hhealth]
    exact hk.pristine i
  nodup := hundone ▸ hk.nodup
  undone_lt := by
    rw [hundone, hnext]
    exact hk.undone_lt
  polled_lt := by
    rw [hpolled, hnext]
    exact hk.polled_lt
  fresh i := by
    rw [hnext, hstop]
    exact hk.fresh i
  call c hc := by
    rw [hcall] at hc
    obtain ⟨-, hlt, hwaiting, hreplied, hfuture, hstarted⟩ := hk.call c hc
    refine ⟨howner c hc, hnext ▸ hlt, ?_, ?_, fun i => ?_, fun i => ?_⟩
    · exact hundone ▸ hwaiting
    · exact hundone ▸ hreplied
    · rw [hstop]
      exact hfuture i
    · rw [hhealth, hpolled]
      exact hstarted i

/-- **Discarding a capture nobody watches.** -/
theorem of_discard (hk : Kept s) (hunwatched : Unwatched s)
    (hpending : ∀ c i, s.call = some c → c.cmd = .startRtt i →
      c.reply = some (.ok ()) → s.polled ≠ some i)
    (hcaptures : s'.captures = s.captures) (hpolled : s'.polled = none)
    (hundone : s'.undone = s.undone) (hnext : s'.next = s.next)
    (hcall : s'.call = s.call)
    (howner : ∀ c, s.call = some c → s'.owner = .target) : Kept s' where
  observed i hstop herror := by
    rw [hcaptures] at hstop herror
    exact absurd hstop (hunwatched i (hk.observed i hstop herror))
  healthy i hi := by
    rw [hpolled] at hi
    exact absurd hi (by simp)
  unstarted i hi := by
    rw [hundone] at hi
    exact ⟨hcaptures ▸ (hk.unstarted i hi).stop, by simp [hpolled]⟩
  pristine := by
    rw [hundone, hcaptures]
    exact hk.pristine
  nodup := hundone ▸ hk.nodup
  undone_lt := by
    rw [hundone, hnext]
    exact hk.undone_lt
  polled_lt i hi := by
    rw [hpolled] at hi
    exact absurd hi (by simp)
  fresh := by
    rw [hnext, hcaptures]
    exact hk.fresh
  call c hc := by
    rw [hcall] at hc
    have hck := hk.call c hc
    refine ⟨howner c hc, hnext ▸ hck.lt, ?_, ?_, ?_, fun i hi hr => .inr ?_⟩
    · exact hundone ▸ hck.waiting
    · exact hundone ▸ hck.replied
    · exact hcaptures ▸ hck.future
    · rw [hcaptures]
      exact (hck.started i hi hr).resolve_left (hpending c i hc hi hr)

/-- A call begins. -/
theorem begin (hk : Kept s) (howner : s.owner = .target) (req : Request) :
    Kept (s.begin req) := by
  by_cases hexited : s.worker = .exited
  · rw [State.begin, if_pos hexited]
    exact hk
  have hundone := State.undone_begin hexited req
  have hnext := State.next_begin hexited req
  have hmem : ∀ i, Cmd.startRtt i ∈ (s.begin req).undone →
      (Cmd.startRtt i ∈ s.undone ∧ i ≠ s.next) ∨ (i = s.next ∧ req = .startRtt) := by
    intro i hi
    rw [hundone] at hi
    obtain hi | hi := List.mem_append.mp hi
    · exact .inl ⟨hi, (hk.undone_lt _ hi).ne⟩
    · have hcmd := List.mem_singleton.mp hi
      cases req with
      | startRtt => exact .inr ⟨Cmd.startRtt.inj hcmd, rfl⟩
      | flash path => simp [Request.cmd] at hcmd
      | reset => simp [Request.cmd] at hcmd
  have hstop : ∀ i, s.next ≤ i → ((s.begin req).captures i).stop ≠ .handle := by
    intro i hle
    by_cases hreq : req = .startRtt
    · by_cases hne : i = s.next
      · simp [hne, hreq, State.captures_begin_startRtt hexited]
      · rw [State.captures_begin_of_ne hne]
        exact hk.fresh i hle
    · rw [State.captures_begin_of_ne_startRtt hreq]
      exact hk.fresh i hle
  constructor
  case observed =>
    intro i hhandle herror
    have hi : i ≠ s.next := fun hi => hstop i hi.ge hhandle
    rw [State.captures_begin_of_ne hi] at hhandle herror
    rw [State.polled_begin]
    exact hk.observed i hhandle herror
  case healthy =>
    intro i hi
    rw [State.polled_begin] at hi
    rw [State.captures_begin_of_ne (hk.polled_lt i hi).ne]
    exact hk.healthy i hi
  case unstarted =>
    intro i hi
    refine ⟨?_, ?_⟩
    · obtain ⟨hi, hne⟩ | ⟨rfl, -⟩ := hmem i hi
      · rw [State.captures_begin_of_ne hne]
        exact (hk.unstarted i hi).stop
      · exact hstop _ le_rfl
    · rw [State.polled_begin]
      obtain ⟨hi, -⟩ | ⟨rfl, -⟩ := hmem i hi
      · exact (hk.unstarted i hi).polled
      · exact fun hpolled => lt_irrefl _ (hk.polled_lt _ hpolled)
  case pristine =>
    intro i hi
    obtain ⟨hi, hne⟩ | ⟨rfl, hreq⟩ := hmem i hi
    · rw [State.captures_begin_of_ne hne]
      exact hk.pristine i hi
    · rw [hreq, State.captures_begin_startRtt hexited]
      rfl
  case nodup =>
    rw [hundone, List.map_append, List.nodup_append]
    refine ⟨hk.nodup, List.pairwise_singleton _ _, ?_⟩
    intro n hn m hm
    obtain ⟨cmd, hcmd, rfl⟩ := List.mem_map.mp hn
    have hm' : m = s.next := by
      rw [List.map_singleton, List.mem_singleton] at hm
      exact hm.trans (Request.call_cmd _ _)
    rw [hm']
    exact (hk.undone_lt cmd hcmd).ne
  case undone_lt =>
    intro cmd hcmd
    rw [hundone] at hcmd
    rw [hnext]
    obtain hcmd | hcmd := List.mem_append.mp hcmd
    · exact Nat.lt_succ_of_lt (hk.undone_lt cmd hcmd)
    · rw [List.mem_singleton.mp hcmd, Request.call_cmd]
      exact Nat.lt_succ_self _
  case polled_lt =>
    intro i hi
    rw [State.polled_begin] at hi
    rw [hnext]
    exact Nat.lt_succ_of_lt (hk.polled_lt i hi)
  case fresh =>
    intro i hi
    rw [hnext] at hi
    exact hstop i (Nat.le_of_succ_le hi)
  case call =>
    intro c hc
    rw [State.call_begin hexited] at hc
    obtain rfl := Option.some.inj hc
    refine ⟨(State.owner_begin req).trans howner, ?_, fun _ => ?_, ?_, ?_, ?_⟩
    · rw [hnext, Request.call_cmd]
      exact Nat.lt_succ_self _
    · rw [hundone, List.getLast?_concat]
    · exact fun r hr => by simp at hr
    · intro i hi
      cases req with
      | startRtt =>
        obtain rfl := Cmd.startRtt.inj hi
        rw [State.captures_begin_startRtt hexited]
      | flash path => simp [Request.cmd] at hi
      | reset => simp [Request.cmd] at hi
    · exact fun i _ hr => by simp at hr

/-- The future of a call ends: it becomes a handle only where the worker polls
the capture, or has recorded its fault. -/
theorem finish (hk : Kept s) {c : Call} (hc : s.call = some c) {stop : Stop}
    (hstop : stop = .handle → c.reply = some (.ok ())) :
    Kept (s.finish c.cmd stop) := by
  have hck := hk.call c hc
  have hlive : ∀ i, ((s.finish c.cmd stop).captures i).stop = .handle →
      (s.captures i).stop = .handle
        ∨ (c.cmd = .startRtt i ∧ c.reply = some (.ok ())) := by
    intro i hi
    by_cases hcmd : c.cmd = .startRtt i
    · rw [hcmd, State.captures_finish_startRtt] at hi
      exact .inr ⟨hcmd, hstop hi⟩
    · rw [State.captures_finish_of_ne hcmd] at hi
      exact .inl hi
  constructor
  case observed =>
    intro i hi hnone
    rw [State.health_finish] at hnone
    obtain hi | ⟨hcmd, hreply⟩ := hlive i hi
    · exact hk.observed i hi hnone
    · exact (hck.started i hcmd hreply).resolve_right (fun h => h hnone)
  case healthy =>
    intro i hi
    rw [State.health_finish]
    exact hk.healthy i hi
  case unstarted =>
    intro i hi
    refine ⟨fun hhandle => ?_, (hk.unstarted i hi).polled⟩
    obtain h | ⟨-, hreply⟩ := hlive i hhandle
    · exact (hk.unstarted i hi).stop h
    · rw [State.undone_finish, hck.replied _ hreply] at hi
      exact absurd hi List.not_mem_nil
  case pristine =>
    intro i hi
    rw [State.health_finish]
    exact hk.pristine i hi
  case nodup => exact hk.nodup
  case undone_lt => exact hk.undone_lt
  case polled_lt => exact hk.polled_lt
  case fresh =>
    intro i hle hhandle
    obtain h | ⟨hcmd, -⟩ := hlive i hhandle
    · exact hk.fresh i hle h
    · have hlt := hck.lt
      rw [hcmd] at hlt
      exact absurd hlt (not_lt.mpr hle)
  case call =>
    intro c' hc'
    exact absurd hc' (by simp [State.finish])

/-- Dropping a handle. -/
theorem dropCapture (hk : Kept s) {i : ℕ} (hi : (s.captures i).stop = .handle) :
    Kept (s.setCapture i { s.captures i with stop := .gone }) := by
  have hown : (s.setCapture i { s.captures i with stop := .gone }).captures i
      = { s.captures i with stop := .gone } := s.captures_setCapture_self i _
  have hsame : ∀ j, j ≠ i → (s.setCapture i { s.captures i with stop := .gone }).captures j
      = s.captures j := fun j hj => s.captures_setCapture_of_ne _ hj
  have herror : ∀ j, ((s.setCapture i { s.captures i with stop := .gone }).captures j).health
      = (s.captures j).health := s.apply_setCapture Capture.health rfl
  have hlive : ∀ j, ((s.setCapture i { s.captures i with stop := .gone }).captures j).stop
      = .handle → (s.captures j).stop = .handle := by
    intro j hj
    by_cases hji : j = i
    · rw [hji, hown] at hj
      simp at hj
    · rwa [hsame j hji] at hj
  constructor
  case observed =>
    intro j hj hnone
    rw [herror] at hnone
    exact hk.observed j (hlive j hj) hnone
  case healthy =>
    intro j hj
    rw [herror]
    exact hk.healthy j hj
  case unstarted =>
    intro j hj
    exact ⟨fun h => (hk.unstarted j hj).stop (hlive j h), (hk.unstarted j hj).polled⟩
  case pristine =>
    intro j hj
    rw [herror]
    exact hk.pristine j hj
  case nodup => exact hk.nodup
  case undone_lt => exact hk.undone_lt
  case polled_lt => exact hk.polled_lt
  case fresh =>
    exact fun j hle h => hk.fresh j hle (hlive j h)
  case call =>
    intro c hc
    have hck := hk.call c hc
    refine ⟨hck.owner, hck.lt, hck.waiting, hck.replied, fun j hj => ?_, fun j hj hr => ?_⟩
    · have hfuture := hck.future j hj
      rwa [hsame j (fun h => by rw [h, hi] at hfuture; simp at hfuture)]
    · rw [herror]
      exact hck.started j hj hr

/-- While a command is executed the call under way has no reply: it waits for this
command, which is then the last one, or for a later one. -/
theorem call_of_executing (hk : Kept s) {cmd : Cmd} (hcmd : s.worker = .executing cmd)
    {c : Call} (hc : s.call = some c) :
    c.reply = none ∧ (c.cmd = cmd ∧ s.queue = []
      ∨ c.cmd.call ≠ cmd.call ∧ s.queue.getLast? = some c.cmd) := by
  have hcons : s.undone = cmd :: s.queue := State.undone_of_executing hcmd
  have hnone : c.reply = none := by
    cases hr : c.reply with
    | none => rfl
    | some r => exact absurd ((hk.call c hc).replied r hr) (by simp [hcons])
  have hlast := (hk.call c hc).waiting hnone
  have hnodup := hk.nodup
  rw [hcons] at hlast hnodup
  rw [List.map_cons, List.nodup_cons] at hnodup
  refine ⟨hnone, ?_⟩
  cases hq : s.queue with
  | nil =>
    rw [hq] at hlast
    exact .inl ⟨(Option.some.inj hlast).symm, rfl⟩
  | cons q qs =>
    rw [hq, List.getLast?_cons_cons] at hlast
    refine .inr ⟨fun hsame => hnodup.1 ?_, hlast⟩
    rw [← hsame, hq]
    exact List.mem_map_of_mem (List.mem_of_getLast? hlast)

/-- A command has been executed, and its call, if it still waits, has its
reply. -/
theorem executed (hk : Kept s) {cmd : Cmd} (hcmd : s.worker = .executing cmd)
    (hundone : s'.undone = s.queue) (hcaptures : s'.captures = s.captures)
    (hnext : s'.next = s.next) (howner : s'.owner = s.owner)
    {result : Except String Unit}
    (hcall : s'.call = s.call.map (fun c =>
      if c.cmd.call = cmd.call then { c with reply := some result } else c))
    (hpolled : (s'.polled = s.polled ∧ ∀ i, cmd = .startRtt i → result ≠ .ok ())
      ∨ ∃ i, cmd = .startRtt i ∧ s'.polled = some i ∧ Unwatched s) : Kept s' := by
  have hcons : s.undone = cmd :: s.queue := State.undone_of_executing hcmd
  have hmem : ∀ c ∈ s'.undone, c ∈ s.undone := by
    intro c hc
    rw [hcons]
    exact List.mem_cons_of_mem _ (hundone ▸ hc)
  have hnodup := hk.nodup
  rw [hcons, List.map_cons, List.nodup_cons] at hnodup
  have hnotmem : cmd ∉ s'.undone := fun h =>
    hnodup.1 (List.mem_map_of_mem (hundone ▸ h))
  constructor
  case observed =>
    intro i hi hnone
    rw [hcaptures] at hi hnone
    obtain ⟨hsame, -⟩ | ⟨j, -, -, hunwatched⟩ := hpolled
    · rw [hsame]
      exact hk.observed i hi hnone
    · exact absurd hi (hunwatched i (hk.observed i hi hnone))
  case healthy =>
    intro i hi
    rw [hcaptures]
    obtain ⟨hsame, -⟩ | ⟨j, hj, hpolled, -⟩ := hpolled
    · exact hk.healthy i (hsame ▸ hi)
    · obtain rfl := Option.some.inj (hpolled.symm.trans hi)
      exact hk.pristine j (by rw [hcons, hj]; exact List.mem_cons_self)
  case unstarted =>
    intro i hi
    refine ⟨hcaptures ▸ (hk.unstarted i (hmem _ hi)).stop, ?_⟩
    obtain ⟨hsame, -⟩ | ⟨j, hj, hpolled, -⟩ := hpolled
    · exact hsame ▸ (hk.unstarted i (hmem _ hi)).polled
    · rw [hpolled]
      rintro ⟨rfl⟩
      exact hnotmem (hj ▸ hi)
  case pristine =>
    intro i hi
    rw [hcaptures]
    exact hk.pristine i (hmem _ hi)
  case nodup => exact hundone ▸ hnodup.2
  case undone_lt =>
    rw [hnext]
    exact fun c hc => hk.undone_lt c (hmem c hc)
  case polled_lt =>
    intro i hi
    rw [hnext]
    obtain ⟨hsame, -⟩ | ⟨j, hj, hpolled, -⟩ := hpolled
    · exact hk.polled_lt i (hsame ▸ hi)
    · obtain rfl := Option.some.inj (hpolled.symm.trans hi)
      have hlt := hk.undone_lt cmd (by rw [hcons]; exact List.mem_cons_self)
      rwa [hj] at hlt
  case fresh =>
    rw [hnext, hcaptures]
    exact hk.fresh
  case call =>
    intro c' hc'
    rw [hcall] at hc'
    obtain ⟨c, hc, rfl⟩ := Option.map_eq_some_iff.mp hc'
    have hck := hk.call c hc
    obtain ⟨hnone, ⟨rfl, hempty⟩ | ⟨hother, hlast⟩⟩ := hk.call_of_executing hcmd hc
    · rw [if_pos rfl]
      refine ⟨howner ▸ hck.owner, hnext ▸ hck.lt, fun h => by simp at h,
        fun _ _ => hundone.trans hempty, hcaptures ▸ hck.future, fun i hi hr => ?_⟩
      obtain ⟨-, hnot⟩ | ⟨j, hj, hpolled, -⟩ := hpolled
      · exact absurd (Option.some.inj hr) (hnot i hi)
      · left
        rw [hpolled, Cmd.startRtt.inj (hi.symm.trans hj)]
    · rw [if_neg hother]
      exact ⟨howner ▸ hck.owner, hnext ▸ hck.lt, fun _ => hundone ▸ hlast,
        fun r hr => by simp [hnone] at hr, hcaptures ▸ hck.future,
        fun i _ hr => by simp [hnone] at hr⟩

/-- **A read fault is recorded** where the owner sees it. -/
theorem fault (hk : Kept s) {k : ℕ} (hpolled : s.polled = some k) (msg : String)
    (hstop : ∀ i, (s'.captures i).stop = (s.captures i).stop)
    (hfault : (s'.captures k).health = (s.captures k).health.fault msg)
    (hother : ∀ i, i ≠ k → (s'.captures i).health = (s.captures i).health)
    (hpolled' : s'.polled = none) (hundone : s'.undone = s.undone)
    (hnext : s'.next = s.next) (hcall : s'.call = s.call)
    (howner : s'.owner = s.owner) : Kept s' where
  observed i hi hnone := by
    rw [hstop] at hi
    by_cases hik : i = k
    · rw [hik, hfault] at hnone
      exact absurd hnone (CaptureHealth.error_fault_ne_none _ _)
    · rw [hother i hik] at hnone
      have heq := (hk.observed i hi hnone).symm.trans hpolled
      exact absurd (Option.some.inj heq) hik
  healthy i hi := by
    rw [hpolled'] at hi
    exact absurd hi (by simp)
  unstarted i hi := by
    rw [hundone] at hi
    exact ⟨hstop i ▸ (hk.unstarted i hi).stop, by simp [hpolled']⟩
  pristine i hi := by
    rw [hundone] at hi
    have hik : i ≠ k := by
      rintro rfl
      exact (hk.unstarted i hi).polled hpolled
    rw [hother i hik]
    exact hk.pristine i hi
  nodup := hundone ▸ hk.nodup
  undone_lt := by
    rw [hundone, hnext]
    exact hk.undone_lt
  polled_lt i hi := by
    rw [hpolled'] at hi
    exact absurd hi (by simp)
  fresh i := by
    rw [hnext, hstop]
    exact hk.fresh i
  call c hc := by
    rw [hcall] at hc
    have hck := hk.call c hc
    refine ⟨howner ▸ hck.owner, hnext ▸ hck.lt, hundone ▸ hck.waiting,
      hundone ▸ hck.replied, fun i hi => ?_, fun i hi hr => .inr ?_⟩
    · rw [hstop]
      exact hck.future i hi
    · by_cases hik : i = k
      · rw [hik, hfault]
        exact CaptureHealth.error_fault_ne_none _ _
      · rw [hother i hik]
        refine (hck.started i hi hr).resolve_left (fun h => hik ?_)
        exact Option.some.inj (h.symm.trans hpolled)

/-- The end of an iteration. -/
theorem poll (hk : Kept s) (hpolling : s.worker = .polling) (ch : Channel) :
    Kept (s.poll ch) := by
  have hundone : s.queue = s.undone :=
    (State.undone_of_not_executing (fun cmd h => by simp [hpolling] at h)).symm
  have howner : ∀ c, s.call = some c → s.owner = .target :=
    fun c hc => (hk.call c hc).owner
  rw [State.poll]
  split
  · rename_i hrtt
    exact hk.of_same (fun _ => rfl) (fun _ => rfl) rfl hundone rfl rfl howner
  · rename_i st hrtt
    have hpolled : s.polled = some st.capture := by rw [State.polled, hrtt]; rfl
    dsimp only
    split
    · rename_i hgone
      refine hk.of_discard ?_ ?_ rfl rfl hundone rfl rfl howner
      · intro i hi
        obtain rfl := Option.some.inj (hpolled.symm.trans hi)
        simp [hgone]
      · intro c i hc hcmd _ hi
        obtain rfl := Option.some.inj (hpolled.symm.trans hi)
        have hfuture := (hk.call c hc).future st.capture hcmd
        simp [hgone] at hfuture
    · split
      · rename_i pending lines hok
        exact hk.of_same (State.apply_setCapture _ Capture.stop rfl)
          (State.apply_setCapture _ Capture.health rfl) hpolled.symm hundone rfl rfl howner
      · rename_i e herror
        refine hk.fault hpolled ("rtt read error: " ++ e)
          (State.apply_setCapture _ Capture.stop rfl) ?_ (fun i hi => ?_) rfl hundone rfl rfl rfl
        · rw [State.captures_setCapture_self]
        · rw [State.captures_setCapture_of_ne _ _ hi]

end Kept

/-- Nothing is captured yet. -/
theorem kept_opening : Kept State.opening where
  observed i hi := by simp [State.opening] at hi
  healthy i hi := by simp [State.opening, State.polled] at hi
  unstarted i hi := by simp [State.opening, State.undone] at hi
  pristine i hi := by simp [State.opening, State.undone] at hi
  nodup := List.nodup_nil
  undone_lt cmd hcmd := by simp [State.opening, State.undone] at hcmd
  polled_lt i hi := by simp [State.opening, State.polled] at hi
  fresh i _ := by simp [State.opening]
  call c hc := by simp [State.opening] at hc

/-- **A step that meets the condition keeps the invariant.** -/
theorem Step.kept {s s' : State} {a : Action} (h : Step s a s') (hk : Kept s)
    (hspares : Spares s a) : Kept s' := by
  have howner : ∀ c, s.call = some c → s.owner = .target :=
    fun c hc => (hk.call c hc).owner
  have hundone : ∀ w, s.worker = w → (∀ cmd, w ≠ .executing cmd) → s.queue = s.undone :=
    fun w hw hne => (State.undone_of_not_executing (fun cmd => hw ▸ hne cmd)).symm
  cases h with
  | @sessionOpens result hworker =>
    refine hk.of_same (fun _ => rfl) (fun _ => rfl) rfl ?_ rfl rfl (fun c hc => ?_)
    · rw [← hundone _ hworker (by simp)]
      cases result <;> rfl
    · simp [howner c hc]
  | opened howner' =>
    exact hk.of_same (fun _ => rfl) (fun _ => rfl) rfl rfl rfl rfl (fun _ _ => rfl)
  | openFailed howner' | cancelOpen howner' =>
    exact hk.of_same (fun _ => rfl) (fun _ => rfl) rfl rfl rfl rfl
      (fun c hc => absurd (howner c hc) (by simp [howner']))
  | call howner' hcall => exact hk.begin howner' _
  | returned hcall => exact hk.finish hcall (fun _ => rfl)
  | failed hcall | cancel hcall => exact hk.finish hcall (fun hgone => by simp at hgone)
  | dropCapture hhandle => exact hk.dropCapture hhandle
  | dropTarget howner' hcall =>
    exact hk.of_same (fun _ => rfl) (fun _ => rfl) rfl rfl rfl rfl
      (fun c hc => by simp [hcall] at hc)
  | @recvFlash call path queue hworker hqueue =>
    have hcons := hundone _ hworker (by simp)
    refine hk.of_discard (hspares call path queue hqueue) ?_ rfl rfl
      (hqueue.symm.trans hcons) rfl rfl howner
    intro c i hc _ hr
    have hnil := (hk.call c hc).replied _ hr
    simp [← hcons, hqueue] at hnil
  | recv hworker hqueue =>
    exact hk.of_same (fun _ => rfl) (fun _ => rfl) rfl
      (hqueue.symm.trans (hundone _ hworker (by simp))) rfl rfl howner
  | timeout hworker =>
    exact hk.of_same (fun _ => rfl) (fun _ => rfl) rfl (hundone _ hworker (by simp)) rfl rfl
      howner
  | disconnected hworker hqueue hgone =>
    have hnocall : ∀ c, s.call ≠ some c := fun c hc => by simp [howner c hc] at hgone
    exact hk.of_discard hspares (fun c i hc => absurd hc (hnocall c)) rfl rfl
      (hundone _ hworker (by simp)) rfl rfl (fun c hc => absurd hc (hnocall c))
  | @execute cmd hw hworker =>
    obtain ⟨result, heq, hnot⟩ | ⟨i, rfl, hattach, heq⟩ := State.execute_cases cmd hw
    · rw [heq]
      exact hk.executed hworker rfl rfl rfl rfl rfl (.inl ⟨rfl, hnot⟩)
    · rw [heq]
      exact hk.executed hworker rfl rfl rfl rfl rfl
        (.inr ⟨i, rfl, rfl, hspares i hworker hattach⟩)
  | @poll ch hworker => exact hk.poll hworker ch

/-- **A step that does not meet it loses an observation.** -/
theorem Kept.spares_of_observed {s s' : State} {a : Action} (hk : Kept s)
    (h : Step s a s') (hs' : Observed s') : Spares s a := by
  cases h with
  | recvFlash hworker hqueue =>
    rintro call path rest - i hpolled hhandle
    have hlost := hs' i hhandle (hk.healthy i hpolled)
    simp [State.polled] at hlost
  | recv hworker hqueue hcmd =>
    rintro call path rest hflash
    rw [hqueue] at hflash
    exact absurd (List.cons.inj hflash).1 (hcmd call path)
  | @execute cmd hw hworker =>
    rintro i hcmd hattach j hpolled hhandle
    obtain rfl := Worker.executing.inj (hworker.symm.trans hcmd)
    have hother : (s.execute (.startRtt i) hw).polled = some i := by
      rw [State.execute, hattach]
      rfl
    have hsame : (s.execute (.startRtt i) hw).captures = s.captures := by
      rw [State.execute, hattach]
      rfl
    have hlost := hs' j (hsame ▸ hhandle) (hsame ▸ hk.healthy j hpolled)
    obtain rfl := Option.some.inj (hother.symm.trans hlost)
    refine (hk.unstarted i ?_).polled hpolled
    rw [State.undone_of_executing hcmd]
    exact List.mem_cons_self
  | disconnected hworker hqueue hgone =>
    rintro i hpolled hhandle
    have hlost := hs' i hhandle (hk.healthy i hpolled)
    simp [State.polled] at hlost
  | _ => trivial

/-- **When lost observation is never silent.** In every run of a
`LocalTarget`, from the spawning of its worker – any calls, each returning or
dropped at any point, any handles dropped, polls that succeed or fault –
every handle that is alive and reports no error is being polled in every
state, if and only if each flash taken, each `start_rtt` attached for and the
closing of the channel find no live handle on the capture they discard. -/
theorem observed_iff (run : List Action) :
    Transition.Always step Observed State.opening run
      ↔ Transition.Guarded step Spares State.opening run :=
  Transition.always_iff_guarded (fun _ hk => hk.observed)
    (fun _ _ _ hk hspares h => (Step.of_step h).kept hk hspares)
    (fun _ _ _ hk h hs' => hk.spares_of_observed (Step.of_step h) hs') kept_opening

/-! ### A flash under a live capture -/

/-- A probe that does what it is asked. -/
def goodProbe : Hardware := ⟨.ok (), .ok (), .ok (), .ok ()⟩

/-- A capture is started, its handle kept, and the target flashed. -/
def flashRun : List Action :=
  [.sessionOpens (.ok ()), .openReturns, .call .startRtt, .recv, .execute goodProbe,
    .callReturns, .poll .absent, .call (.flash "fw.elf"), .recv]

/-- **Observation is lost silently.** The flash ends the capture; its handle is
alive, and reports no error. -/
theorem flash_loses_observation :
    ¬ ∀ run, Transition.Always step Observed State.opening run := by
  intro h
  have hend : (Transition.run step State.opening flashRun).map
      (fun s => (decide ((s.captures 0).stop = .handle),
        (s.captures 0).health.error, s.polled)) = some (true, none, none) := by
    decide +kernel
  obtain ⟨s, hrun, hs⟩ := Option.map_eq_some_iff.mp hend
  simp only [Prod.mk.injEq, decide_eq_true_eq] at hs
  obtain ⟨hhandle, herror, hpolled⟩ := hs
  have hobserved := (h flashRun).last hrun 0 hhandle herror
  simp [hpolled] at hobserved

end Probe

end Banc
