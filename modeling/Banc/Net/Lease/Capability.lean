import Banc.Lib.Purge
import Banc.Net.Lease.Eager

/-!
# The lease id is a capability

A request that does not carry the id of the current grant changes nothing
anybody can see: Status reads, and a Renew or a Release with another id is
turned away. But it does not leave the slot alone. Whatever the request, the
server first empties a slot that has expired, so a run with such requests and
the run without them pass through different states.

What the two runs share is the slot *as read from now on*: two servers are
related at an instant if no later instant tells them apart (`Alike`). Every
request keeps that relation, a request without the capability keeps it even
when only one of the two servers gets it, and related servers answer alike.
Unwinding does the rest: such requests can be taken out of a run, any number of
them, and no reply to the others changes (`powerless_unseen`).
-/

namespace Banc

/-- **The request does not act on the lease**: it reads, or it carries an id
other than that of the lease. -/
def LeaseRequest.Powerless (held : Option Held) : LeaseRequest → Prop
  | .acquire _ _ => False
  | .renew id => ∀ h ∈ held, h.id ≠ id
  | .release id => ∀ h ∈ held, h.id ≠ id
  | .status => True

instance (held : Option Held) : DecidablePred (LeaseRequest.Powerless held)
  | .acquire _ _ => .isFalse id
  | .renew id => inferInstanceAs (Decidable (∀ h ∈ held, h.id ≠ id))
  | .release id => inferInstanceAs (Decidable (∀ h ∈ held, h.id ≠ id))
  | .status => .isTrue trivial

namespace LeaseServer

/-- **No instant from `now` on tells the two servers apart.** -/
def Alike (now : ℕ) (srv srv' : LeaseServer) : Prop :=
  ∀ t, now ≤ t → srv.live t = srv'.live t

variable {srv srv' : LeaseServer} {now t : ℕ}

/-- A server is like itself. -/
theorem Alike.refl (now : ℕ) (srv : LeaseServer) : Alike now srv srv :=
  fun _ _ => rfl

/-- Servers that are alike have the same holder from then on. -/
theorem Alike.holder (h : Alike now srv srv') (ht : now ≤ t) :
    srv.holder t = srv'.holder t := by
  unfold LeaseServer.holder
  rw [h t ht]

/-- A slot that has been swept reads as it did. -/
theorem live_sweep (ht : now ≤ t) : (mk (srv.live now)).live t = srv.live t := by
  unfold live
  cases srv.state with
  | none => rfl
  | some held =>
    by_cases hlive : now < held.expiresAt
    · simp [Option.filter, hlive]
    · simp [Option.filter, hlive, not_lt.mpr ((not_lt.mp hlive).trans ht)]

/-- `handle` looks at the slot only as it reads at the instant. -/
theorem Alike.handle (h : Alike now srv srv') (ht : now ≤ t) (minted : UInt64)
    (req : LeaseRequest) : srv.handle t minted req = srv'.handle t minted req := by
  unfold LeaseServer.handle
  rw [sweep_eq_live, sweep_eq_live, h t ht]

/-- A request without the capability only sweeps. -/
theorem handle_powerless {req : LeaseRequest} (minted : UInt64)
    (h : req.Powerless (srv.live now)) :
    (srv.handle now minted req).1 = ⟨srv.live now⟩ := by
  cases req with
  | acquire holder ttlS => exact h.elim
  | renew id => rw [handle_renew_stale h]
  | release id => rw [handle_release_stale h]
  | status =>
    cases hlive : srv.live now with
    | none => rw [handle_status_free hlive]
    | some held => rw [handle_status_live hlive]

/-- A powerless request leaves a server like what it was like. -/
theorem Alike.handle_powerless {req : LeaseRequest} (h : Alike now srv srv')
    (ht : now ≤ t) (minted : UInt64) (hreq : req.Powerless (srv.live t)) :
    Alike t (srv.handle t minted req).1 srv' := by
  intro u hu
  rw [LeaseServer.handle_powerless minted hreq, live_sweep hu]
  exact h u (ht.trans hu)

/-! ## The server and its clock -/

/-- Answer a call, if the clock has not passed its instant. -/
def callStep (s : LeaseServer × ℕ) (c : Call) : Option (LeaseServer × ℕ) :=
  if s.2 ≤ c.now then some ((s.1.handle c.now c.minted c.req).1, c.now) else none

/-- The call with its reply. -/
def answer (s : LeaseServer × ℕ) (c : Call) : Handled :=
  ⟨c, (s.1.handle c.now c.minted c.req).2⟩

/-- A call is made at its time, which is not before the last. -/
theorem callStep_eq_some {s s' : LeaseServer × ℕ} {c : Call} :
    callStep s c = some s'
      ↔ s.2 ≤ c.now ∧ s' = ((s.1.handle c.now c.minted c.req).1, c.now) := by
  unfold callStep
  split
  · rename_i hle
    rw [Option.some.injEq, and_iff_right hle]
    exact eq_comm
  · rename_i hgt
    simp [hgt]

/-- The calls come in the order of their instants, none of them before
`now`. -/
def InOrder (now : ℕ) (calls : List Call) : Prop :=
  calls.Pairwise (fun a b => a.now ≤ b.now) ∧ ∀ c ∈ calls, now ≤ c.now

/-- `serve` is the run of `callStep`, and its history what `callStep`
answers. -/
theorem run_callStep (srv : LeaseServer) {calls : List Call} (h : InOrder now calls) :
    ∃ t, Transition.run callStep (srv, now) calls = some ((srv.serve calls).1, t)
      ∧ (∀ u, (∀ c ∈ calls, c.now ≤ u) → now ≤ u → t ≤ u)
      ∧ Transition.outputs callStep answer (srv, now) calls = (srv.serve calls).2 := by
  induction calls generalizing srv now with
  | nil => exact ⟨now, rfl, fun u _ hu => hu, rfl⟩
  | cons c calls ih =>
    obtain ⟨hsorted, hfrom⟩ := h
    obtain ⟨hc, hrest⟩ := List.pairwise_cons.mp hsorted
    have hstep : callStep (srv, now) c
        = some ((srv.handle c.now c.minted c.req).1, c.now) :=
      callStep_eq_some.mpr ⟨hfrom c List.mem_cons_self, rfl⟩
    obtain ⟨t, hrun, hle, hout⟩ :=
      ih (srv.handle c.now c.minted c.req).1 ⟨hrest, hc⟩
    refine ⟨t, Transition.run_cons_eq_some.mpr ⟨_, hstep, hrun⟩, fun u hu _ => ?_, ?_⟩
    · exact hle u (fun d hd => hu d (List.mem_cons_of_mem c hd))
        (hu c List.mem_cons_self)
    · rw [Transition.outputs, hstep]
      exact congrArg (answer (srv, now) c :: ·) hout

/-- Fewer calls are in order too. -/
theorem InOrder.sublist {calls calls' : List Call} (h : InOrder now calls)
    (hsub : calls'.Sublist calls) : InOrder now calls' :=
  ⟨h.1.sublist hsub, fun c hc => h.2 c (hsub.subset hc)⟩

/-- What is kept of calls in order is in order. -/
theorem InOrder.kept {run : List (Call × Bool)}
    (h : InOrder now (run.map Prod.fst)) : InOrder now (Transition.kept run) :=
  h.sublist (Transition.kept_sublist run)

/-! ## Requests that are left out -/

/-- Two servers with their clocks, the second one behind or level: no instant
from the first one's on tells them apart. -/
def Unwound (s s' : LeaseServer × ℕ) : Prop := s'.2 ≤ s.2 ∧ Alike s.2 s.1 s'.1

/-- The request is powerless where it arrives. -/
def Unheeded (s : LeaseServer × ℕ) (c : Call) : Prop :=
  c.req.Powerless (s.1.live c.now)

/-- A call that is kept is made on both sides, and leaves them alike. -/
theorem Unwound.kept {s s' u : LeaseServer × ℕ} {c : Call} (h : Unwound s u)
    (hs : callStep s c = some s') : ∃ u', callStep u c = some u' ∧ Unwound s' u' := by
  obtain ⟨hle, rfl⟩ := callStep_eq_some.mp hs
  refine ⟨_, callStep_eq_some.mpr ⟨h.1.trans hle, rfl⟩, le_rfl, ?_⟩
  show Alike c.now (s.1.handle c.now c.minted c.req).1 (u.1.handle c.now c.minted c.req).1
  rw [h.2.handle hle]
  exact Alike.refl _ _

/-- One that is left out leaves them alike. -/
theorem Unwound.gone {s s' u : LeaseServer × ℕ} {c : Call} (h : Unwound s u)
    (hc : Unheeded s c) (hs : callStep s c = some s') : Unwound s' u := by
  obtain ⟨hle, rfl⟩ := callStep_eq_some.mp hs
  exact ⟨h.1.trans hle, h.2.handle_powerless hle c.minted hc⟩

/-- And what is kept is answered the same. -/
theorem Unwound.answer {s s' u : LeaseServer × ℕ} {c : Call} (h : Unwound s u)
    (hs : callStep s c = some s') : answer s c = answer u c := by
  unfold LeaseServer.answer
  rw [h.2.handle (callStep_eq_some.mp hs).1]

/-- **The requests marked in the run are powerless where they arrive.** -/
def Meddles (srv : LeaseServer) (run : List (Call × Bool)) : Prop :=
  ∀ (i : ℕ) (c : Call), run[i]? = some (c, false) →
    c.req.Powerless ((srv.serve ((run.take i).map Prod.fst)).1.live c.now)

/-- The calls that are left out are all powerless. -/
theorem Meddles.leavesOut {run : List (Call × Bool)} (h : Meddles srv run) :
    Transition.LeavesOut callStep Unheeded (srv, now) run := by
  induction run generalizing srv now with
  | nil => trivial
  | cons x run ih =>
    obtain ⟨c, keep⟩ := x
    intro s' hs'
    obtain ⟨-, rfl⟩ := callStep_eq_some.mp hs'
    refine ⟨?_, ih (fun i d hi => h (i + 1) d hi)⟩
    rintro rfl
    exact h 0 c rfl

/-- So of a part of the run. -/
theorem Meddles.take {run : List (Call × Bool)} (h : Meddles srv run) (n : ℕ) :
    Meddles srv (run.take n) := by
  intro i c hi
  rw [List.getElem?_take] at hi
  split at hi
  · rename_i hlt
    rw [List.take_take, min_eq_left hlt.le]
    exact h i c hi
  · simp at hi

/-- **Where two runs part only in powerless requests**, the replies to all
others agree, and so do the holders from then on. -/
theorem serve_kept {run : List (Call × Bool)}
    (horder : InOrder now (run.map Prod.fst)) (h : Meddles srv run) :
    Transition.kept ((srv.serve (run.map Prod.fst)).2.zip (run.map Prod.snd))
        = (srv.serve (Transition.kept run)).2
      ∧ ∀ t, now ≤ t → (∀ c ∈ run.map Prod.fst, c.now ≤ t) →
          (srv.serve (run.map Prod.fst)).1.holder t
            = (srv.serve (Transition.kept run)).1.holder t := by
  have hleft : Transition.LeavesOut callStep Unheeded (srv, now) run := h.leavesOut
  have hR : Unwound (srv, now) (srv, now) := ⟨le_rfl, Alike.refl now srv⟩
  have hanswer : ∀ s u c s', Unwound s u → callStep s c = some s' →
      answer s c = answer u c := fun _ _ _ _ => Unwound.answer
  obtain ⟨u, hrun, hu, hout⟩ := run_callStep srv horder
  obtain ⟨u', hrun', -, hout'⟩ := run_callStep srv horder.kept
  constructor
  · rw [← hout, ← hout']
    exact Transition.kept_outputs (fun _ _ _ _ => Unwound.kept)
      (fun _ _ _ _ => Unwound.gone) hanswer hR hleft hrun
  · intro t ht hcalls
    obtain ⟨s', hs', hend⟩ := Transition.exists_run_kept (fun _ _ _ _ => Unwound.kept)
      (fun _ _ _ _ => Unwound.gone) hR hleft hrun
    obtain rfl : s' = ((srv.serve (Transition.kept run)).1, u') :=
      Option.some.inj (hs'.symm.trans hrun')
    exact hend.2.holder (hu t hcalls ht)

/-- **Without the capability nobody can influence a lease.** Take any run of
the server, and mark in it any requests that are Status, or a Renew or Release
with an id other than that of the grant current where it arrives. Without them
the run gives every other request the reply it gave before, and wherever one
looks in the run, `holder` says at any instant from there on what it said. -/
theorem powerless_unseen (srv : LeaseServer) (run : List (Call × Bool))
    (horder : (run.map Prod.fst).Pairwise (fun a b => a.now ≤ b.now))
    (hgone : ∀ (i : ℕ) (c : Call), run[i]? = some (c, false) →
      c.req.Powerless ((srv.serve ((run.take i).map Prod.fst)).1.live c.now)) :
    Transition.kept ((srv.serve (run.map Prod.fst)).2.zip (run.map Prod.snd))
        = (srv.serve (Transition.kept run)).2
      ∧ ∀ n t, (∀ c ∈ (run.take n).map Prod.fst, c.now ≤ t) →
          (srv.serve ((run.take n).map Prod.fst)).1.holder t
            = (srv.serve (Transition.kept (run.take n))).1.holder t := by
  have hmeddles : Meddles srv run := hgone
  have hfrom : InOrder 0 (run.map Prod.fst) := ⟨horder, fun _ _ => Nat.zero_le _⟩
  refine ⟨(serve_kept hfrom hmeddles).1, fun n t ht => ?_⟩
  have hprefix : InOrder 0 ((run.take n).map Prod.fst) := by
    rw [List.map_take]
    exact hfrom.sublist (List.take_sublist n _)
  exact (serve_kept hprefix (hmeddles.take n)).2 t (Nat.zero_le t) ht

/-- A holder with id 7, and somebody who asks who holds the lease, tries to
renew and to release it with another id, and does so again when it has
lapsed. -/
def meddledRun : List (Call × Bool) :=
  [(⟨0, 7, .acquire "a" 5⟩, true), (⟨1, 0, .status⟩, false),
    (⟨2, 0, .renew 8⟩, false), (⟨3, 0, .release 8⟩, false),
    (⟨Duration.fromSecs 4, 0, .renew 7⟩, true),
    (⟨Duration.fromSecs 9, 0, .status⟩, false),
    (⟨Duration.fromSecs 9, 0, .release 7⟩, false),
    (⟨Duration.fromSecs 10, 8, .acquire "b" 60⟩, true)]

/-- With the calls that are not the holders', or without them, theirs are answered the same. -/
theorem meddledRun_unseen :
    (meddledRun.map Prod.fst).Pairwise (fun a b => a.now ≤ b.now)
      ∧ (LeaseServer.new.serve (Transition.kept meddledRun)).2.map Handled.reply
          = [.granted 7, .ok, .granted 8]
      ∧ Transition.kept ((LeaseServer.new.serve (meddledRun.map Prod.fst)).2.zip
            (meddledRun.map Prod.snd))
          = (LeaseServer.new.serve (Transition.kept meddledRun)).2 := by
  have hgone : ∀ i < 8, ∀ x ∈ meddledRun[i]?, x.2 = false →
      x.1.req.Powerless
        ((LeaseServer.new.serve ((meddledRun.take i).map Prod.fst)).1.live x.1.now) := by
    decide
  refine ⟨by decide, by decide,
    (powerless_unseen LeaseServer.new meddledRun (by decide) (fun i c hi => ?_)).1⟩
  obtain ⟨hlt, -⟩ := List.getElem?_eq_some_iff.mp hi
  exact hgone i hlt (c, false) hi rfl

end LeaseServer

end Banc
