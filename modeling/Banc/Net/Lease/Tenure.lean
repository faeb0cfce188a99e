import Banc.Lib.History
import Banc.Net.Daemon

/-!
# Tenure

What a lease is good for: whoever has been given the rig, and has heard of it, has it for
a time to live from then on, unless it is released under its id. A holder need not ask
the server whether it still has the rig, it looks at its own clock.

That is a property of what a rig daemon has answered, on any number of connections, in
any interleaving. An answer that grants the lease, or renews it, begins a tenure
(`Begins`), and whatever is answered in the tenure leaves the holder its rig: no lease is
granted, and a Renew of this one is acknowledged (`tenures_respected`). What carries it
through a run is that the slot of the server keeps the lease no shorter than its last
tenure (`Tenured`).
-/

namespace Banc

/-- The grant that an answer makes: the id, and the time to live. -/
def Handled.grant (e : Handled) : Option (UInt64 × Ttl) :=
  match e.call.req, e.reply with
  | .acquire _ ttlS, .granted id => some (id, Ttl.clamp ttlS)
  | _, _ => none

namespace Tenure

/-- The last grant of a history. -/
def lastGrant (h : History) : Option (UInt64 × Ttl) := (h.filterMap Handled.grant).getLast?

/-- **A tenure begins**: the lease is granted, or renewed, for a time to live. -/
inductive Begins (before : History) (e : Handled) (id : UInt64) (ttl : Ttl) : Prop
  | granted (h : e.grant = some (id, ttl))
  | renewed (h : e.Renews id) (hlast : lastGrant before = some (id, ttl))

/-- What is answered in a tenure leaves the holder its rig. -/
structure Respects (id : UInt64) (e : Handled) : Prop where
  grant : e.grant = none
  renew : e.call.req = .renew id → e.reply = .ok

/-- **The slot keeps what has been promised.** -/
structure Tenured (h : History) (now : ℕ) (srv : LeaseServer) : Prop where
  past : ∀ e ∈ h, e.call.now ≤ now
  slot : ∀ held ∈ srv.state, lastGrant h = some (held.id, held.ttl)
  /-- A tenure that has not ended is that of the lease in the slot. -/
  kept : ∀ before e since id ttl, h = before ++ e :: since → Begins before e id ttl →
    (∀ x ∈ since, ¬ x.Releases id) → now < e.call.now + ttl.dur →
      ∃ held, srv.state = some held ∧ held.id = id ∧ held.ttl = ttl
        ∧ e.call.now + ttl.dur ≤ held.expiresAt
  respected : ∀ before e mid e' after id ttl, h = before ++ e :: (mid ++ e' :: after) →
    Begins before e id ttl → (∀ x ∈ mid, ¬ x.Releases id) →
      e'.call.now < e.call.now + ttl.dur → Respects id e'

theorem lastGrant_concat (h : History) (e : Handled) :
    lastGrant (h ++ [e]) = e.grant.or (lastGrant h) := by
  unfold lastGrant
  rw [List.filterMap_append, List.getLast?_append]
  cases hgrant : e.grant with
  | none =>
    rw [List.filterMap_cons_none hgrant]
    rfl
  | some g =>
    rw [List.filterMap_cons_some hgrant]
    rfl

/-! ## What a request comes to -/

/-- How a request that has been handled leaves the server. -/
inductive Outcome (srv : LeaseServer) (e : Handled) : LeaseServer → Prop
  | granted {holder : String} {ttlS : UInt32} (hlive : srv.live e.call.now = none)
      (hreq : e.call.req = .acquire holder ttlS) (hreply : e.reply = .granted e.call.minted) :
      Outcome srv e ⟨some ⟨e.call.minted, holder, e.call.now + (Ttl.clamp ttlS).dur,
        Ttl.clamp ttlS⟩⟩
  | renewed {held : Held} (hlive : srv.live e.call.now = some held)
      (hreq : e.call.req = .renew held.id) (hreply : e.reply = .ok) :
      Outcome srv e ⟨some { held with expiresAt := e.call.now + held.ttl.dur }⟩
  | released {held : Held} (hlive : srv.live e.call.now = some held)
      (hreq : e.call.req = .release held.id) : Outcome srv e ⟨none⟩
  | left (hgrant : e.grant = none) (hrenews : ∀ id, ¬ e.Renews id)
      (hreq : ∀ held, srv.live e.call.now = some held → e.call.req ≠ .renew held.id) :
      Outcome srv e ⟨srv.live e.call.now⟩

theorem grant_of_req {e : Handled} (h : ∀ holder ttlS, e.call.req ≠ .acquire holder ttlS) :
    e.grant = none := by
  unfold Handled.grant
  split
  · rename_i hreq hreply
    exact absurd hreq (h _ _)
  · rfl

theorem Outcome.of_handle {srv srv' : LeaseServer} {e : Handled}
    (h : srv.handle e.call.now e.call.minted e.call.req = (srv', e.reply)) :
    Outcome srv e srv' := by
  cases hreq : e.call.req with
  | acquire holder ttlS =>
    rw [hreq] at h
    cases hlive : srv.live e.call.now with
    | none =>
      rw [LeaseServer.handle_acquire_free hlive] at h
      obtain ⟨rfl, hreply⟩ := Prod.mk.inj h
      exact .granted hlive hreq hreply.symm
    | some held =>
      rw [LeaseServer.handle_acquire_live hlive] at h
      obtain ⟨rfl, hreply⟩ := Prod.mk.inj h
      rw [← hlive]
      refine .left ?_ (fun id hid => ?_) (fun held _ hrenew => ?_)
      · unfold Handled.grant
        rw [← hreply]
        split
        · rename_i heq
          exact absurd heq nofun
        · rfl
      · exact absurd (hreq.symm.trans hid.1) nofun
      · exact absurd (hreq.symm.trans hrenew) nofun
  | renew id =>
    have hgrant : e.grant = none := by
      refine grant_of_req (fun holder ttlS hacquire => ?_)
      exact absurd (hreq.symm.trans hacquire) nofun
    rw [hreq] at h
    by_cases hid : ∃ held, srv.live e.call.now = some held ∧ held.id = id
    · obtain ⟨held, hlive, rfl⟩ := hid
      rw [LeaseServer.handle_renew_current hlive] at h
      obtain ⟨rfl, hreply⟩ := Prod.mk.inj h
      exact .renewed hlive hreq hreply.symm
    · have hstale (held : Held) (hlive : srv.live e.call.now = some held) : held.id ≠ id :=
        fun heq => hid ⟨held, hlive, heq⟩
      rw [LeaseServer.handle_renew_stale hstale] at h
      obtain ⟨rfl, hreply⟩ := Prod.mk.inj h
      refine .left hgrant (fun id' hid' => ?_) (fun held hlive hrenew => ?_)
      · exact absurd (hreply.trans hid'.2) nofun
      · exact hstale held hlive (LeaseRequest.renew.inj (hreq.symm.trans hrenew)).symm
  | release id =>
    have hgrant : e.grant = none := by
      refine grant_of_req (fun holder ttlS hacquire => ?_)
      exact absurd (hreq.symm.trans hacquire) nofun
    rw [hreq] at h
    by_cases hid : ∃ held, srv.live e.call.now = some held ∧ held.id = id
    · obtain ⟨held, hlive, rfl⟩ := hid
      rw [LeaseServer.handle_release_current hlive] at h
      obtain ⟨rfl, -⟩ := Prod.mk.inj h
      exact .released hlive hreq
    · rw [LeaseServer.handle_release_stale (fun held hlive heq => hid ⟨held, hlive, heq⟩)] at h
      obtain ⟨rfl, -⟩ := Prod.mk.inj h
      refine .left hgrant (fun id' hid' => ?_) (fun held hlive hrenew => ?_)
      · exact absurd (hreq.symm.trans hid'.1) nofun
      · exact absurd (hreq.symm.trans hrenew) nofun
  | status =>
    have hgrant : e.grant = none := by
      refine grant_of_req (fun holder ttlS hacquire => ?_)
      exact absurd (hreq.symm.trans hacquire) nofun
    have hsrv : srv' = ⟨srv.live e.call.now⟩ := by
      rw [hreq] at h
      cases hlive : srv.live e.call.now with
      | none =>
        rw [LeaseServer.handle_status_free hlive] at h
        exact (Prod.mk.inj h).1.symm
      | some held =>
        rw [LeaseServer.handle_status_live hlive] at h
        exact (Prod.mk.inj h).1.symm
    rw [hsrv]
    refine .left hgrant (fun id' hid' => ?_) (fun held hlive hrenew => ?_)
    · exact absurd (hreq.symm.trans hid'.1) nofun
    · exact absurd (hreq.symm.trans hrenew) nofun

/-! ## The invariant -/

theorem not_nil_eq {before since : History} {e : Handled} : [] ≠ before ++ e :: since :=
  (List.append_ne_nil_of_right_ne_nil before (List.cons_ne_nil e since)).symm

theorem Tenured.nil (now : ℕ) : Tenured [] now .new where
  past _ he := absurd he List.not_mem_nil
  slot held hheld := absurd hheld (Option.not_mem_none held)
  kept _ _ _ _ _ h := absurd h not_nil_eq
  respected _ _ _ _ _ _ _ h := absurd h not_nil_eq

/-- Time passes. -/
theorem Tenured.mono {h : History} {now later : ℕ} {srv : LeaseServer} (ht : Tenured h now srv)
    (hle : now ≤ later) : Tenured h later srv where
  past e he := (ht.past e he).trans hle
  slot := ht.slot
  kept before e since id ttl heq hbegins hrel hlt :=
    ht.kept before e since id ttl heq hbegins hrel (hle.trans_lt hlt)
  respected := ht.respected

section Handle

variable {h : History} {now : ℕ} {srv srv' : LeaseServer} {e : Handled}

theorem Outcome.slot (ho : Outcome srv e srv')
    (hslot : ∀ held ∈ srv.state, lastGrant h = some (held.id, held.ttl)) :
    ∀ held ∈ srv'.state, lastGrant (h ++ [e]) = some (held.id, held.ttl) := by
  intro held' hheld'
  rw [lastGrant_concat]
  cases ho with
  | @granted holder ttlS hlive hreq hreply =>
    obtain rfl := Option.some.inj hheld'
    have hgrant : e.grant = some (e.call.minted, Ttl.clamp ttlS) := by
      unfold Handled.grant
      rw [hreq, hreply]
    rw [hgrant]
    rfl
  | @renewed held hlive hreq hreply =>
    obtain rfl := Option.some.inj hheld'
    have hgrant : e.grant = none :=
      grant_of_req (fun _ _ hacquire => absurd (hreq.symm.trans hacquire) nofun)
    rw [hgrant]
    exact hslot held (LeaseServer.live_eq_some.mp hlive).1
  | released hlive hreq => exact absurd hheld' (Option.not_mem_none held')
  | left hgrant hrenews hreq =>
    rw [hgrant]
    exact hslot held' (LeaseServer.live_eq_some.mp hheld').1

/-- **In a tenure the holder's lease is left to it**, unless it is released. -/
theorem Outcome.keeps (ho : Outcome srv e srv') {held : Held} {t : ℕ}
    (hstate : srv.state = some held) (ht : t ≤ held.expiresAt)
    (hnow : e.call.now < t) (hle : t ≤ e.call.now + held.ttl.dur)
    (hrel : ¬ e.Releases held.id) :
    ∃ held', srv'.state = some held' ∧ held'.id = held.id ∧ held'.ttl = held.ttl
      ∧ t ≤ held'.expiresAt := by
  have hlive : srv.live e.call.now = some held :=
    LeaseServer.live_eq_some.mpr ⟨hstate, hnow.trans_le ht⟩
  cases ho with
  | granted hlive' => exact absurd (hlive.symm.trans hlive') nofun
  | renewed hlive' =>
    obtain rfl := Option.some.inj (hlive.symm.trans hlive')
    exact ⟨_, rfl, rfl, rfl, hle⟩
  | released hlive' hreq =>
    obtain rfl := Option.some.inj (hlive.symm.trans hlive')
    exact absurd hreq hrel
  | left => exact ⟨held, hlive, rfl, rfl, ht⟩

/-- And nobody is told otherwise. -/
theorem Outcome.respects (ho : Outcome srv e srv') {held : Held}
    (hlive : srv.live e.call.now = some held) : Respects held.id e := by
  cases ho with
  | granted hlive' => exact absurd (hlive.symm.trans hlive') nofun
  | renewed hlive' hreq hreply =>
    exact ⟨grant_of_req (fun _ _ hacquire => absurd (hreq.symm.trans hacquire) nofun),
      fun _ => hreply⟩
  | released hlive' hreq =>
    exact ⟨grant_of_req (fun _ _ hacquire => absurd (hreq.symm.trans hacquire) nofun),
      fun hrenew => absurd (hreq.symm.trans hrenew) nofun⟩
  | left hgrant hrenews hreq => exact ⟨hgrant, fun hrenew => absurd hrenew (hreq held hlive)⟩

/-- A tenure begins with the lease in the slot. -/
theorem Outcome.begins (ho : Outcome srv e srv')
    (hslot : ∀ held ∈ srv.state, lastGrant h = some (held.id, held.ttl)) {id : UInt64}
    {ttl : Ttl} (hbegins : Begins h e id ttl) :
    ∃ held, srv'.state = some held ∧ held.id = id ∧ held.ttl = ttl
      ∧ e.call.now + ttl.dur ≤ held.expiresAt := by
  cases ho with
  | @granted holder ttlS hlive hreq hreply =>
    have hgrant : e.grant = some (e.call.minted, Ttl.clamp ttlS) := by
      unfold Handled.grant
      rw [hreq, hreply]
    cases hbegins with
    | granted hg =>
      obtain ⟨rfl, rfl⟩ := Prod.mk.inj (Option.some.inj (hgrant.symm.trans hg))
      exact ⟨_, rfl, rfl, rfl, le_rfl⟩
    | renewed hrenews => exact absurd (hreq.symm.trans hrenews.1) nofun
  | @renewed held hlive hreq hreply =>
    cases hbegins with
    | granted hg =>
      have hgrant : e.grant = none :=
        grant_of_req (fun _ _ hacquire => absurd (hreq.symm.trans hacquire) nofun)
      exact absurd (hgrant.symm.trans hg) nofun
    | renewed hrenews hlast =>
      have hid := LeaseRequest.renew.inj (hreq.symm.trans hrenews.1)
      have hheld := hslot held (LeaseServer.live_eq_some.mp hlive).1
      have httl := (Prod.mk.inj (Option.some.inj (hheld.symm.trans hlast))).2
      refine ⟨_, rfl, hid, httl, ?_⟩
      rw [httl]
  | released hlive hreq =>
    cases hbegins with
    | granted hg =>
      have hgrant : e.grant = none :=
        grant_of_req (fun _ _ hacquire => absurd (hreq.symm.trans hacquire) nofun)
      exact absurd (hgrant.symm.trans hg) nofun
    | renewed hrenews => exact absurd (hreq.symm.trans hrenews.1) nofun
  | left hgrant hrenews' =>
    cases hbegins with
    | granted hg => exact absurd (hgrant.symm.trans hg) nofun
    | renewed hrenews => exact absurd hrenews (hrenews' id)

/-- **What one request keeps.** -/
theorem Tenured.handle (ht : Tenured h now srv) (hnow : e.call.now = now)
    (hhandle : srv.handle e.call.now e.call.minted e.call.req = (srv', e.reply)) :
    Tenured (h ++ [e]) now srv' := by
  have ho := Outcome.of_handle hhandle
  refine ⟨fun x hx => ?_, ho.slot ht.slot, ?_, ?_⟩
  · rcases List.mem_append.mp hx with hx | hx
    · exact ht.past x hx
    · rw [List.mem_singleton.mp hx, hnow]
  · intro before x since id ttl heq hbegins hrel hlt
    rcases Transition.concat_eq_append_cons.mp heq with ⟨rfl, rfl, rfl⟩ | ⟨since', rfl, rfl⟩
    · exact ho.begins ht.slot hbegins
    · have hrel' := List.forall_mem_append.mp hrel
      obtain ⟨held, hstate, rfl, rfl, hexpires⟩ :=
        ht.kept before x since' id ttl rfl hbegins hrel'.1 hlt
      have hpast := ht.past x (List.mem_append_right _ List.mem_cons_self)
      refine ho.keeps hstate hexpires (hnow ▸ hlt) ?_ (hrel'.2 e (List.mem_singleton_self e))
      exact Nat.add_le_add_right (hnow ▸ hpast) _
  · intro before x mid e' after id ttl heq hbegins hrel hlt
    have heq' := heq.trans (List.append_assoc before (x :: mid) (e' :: after)).symm
    rcases Transition.concat_eq_append_cons.mp heq' with ⟨rfl, rfl, rfl⟩ | ⟨after', rfl, hh⟩
    · rw [hnow] at hlt
      obtain ⟨held, hstate, rfl, rfl, hexpires⟩ :=
        ht.kept before x mid id ttl rfl hbegins hrel hlt
      refine ho.respects (LeaseServer.live_eq_some.mpr ⟨hstate, ?_⟩)
      rw [hnow]
      exact hlt.trans_le hexpires
    · rw [List.append_assoc] at hh
      exact ht.respected before x mid e' after' id ttl hh hbegins hrel hlt

end Handle

/-! ## Over the runs of a daemon -/

section Runs

open Daemon (State)

variable {κ : Type} [DecidableEq κ] {cfg : Daemon.Config} {s₀ s s' : State κ}
  {a : Sessions.Action κ}

/-- **The invariant of a daemon**: its server keeps what its answers have promised. -/
def Kept (s : State κ) : Prop := Tenured (s.log.map Prod.snd) s.now s.server

omit [DecidableEq κ] in
theorem Kept.initial (hinit : s.Initial) (hnew : s.server = .new) : Kept s := by
  unfold Kept
  rw [hinit.log, hnew]
  exact Tenured.nil s.now

theorem Kept.step (hk : Kept s) (h : Daemon.step cfg s a = some s') : Kept s' := by
  unfold Kept
  rcases Daemon.log_cases h with ⟨hserver, hlog⟩ | ⟨i, data, e, rfl, hnow, -, hhandle, hlog⟩
  · rw [hserver, hlog]
    exact Tenured.mono hk (Daemon.now_le h)
  · rw [hlog, List.map_append, Daemon.now_eq h rfl]
    exact Tenured.handle hk hnow hhandle

omit [DecidableEq κ] in
/-- A request handled in a state of the daemon, with those before and after it. -/
theorem map_split {log before since : List (κ × Handled)} {x : κ × Handled}
    (h : log = before ++ x :: since) :
    log.map Prod.snd = before.map Prod.snd ++ x.2 :: since.map Prod.snd := by
  rw [h, List.map_append, List.map_cons]

/-- **Tenures are respected.** A daemon that starts on a new server has answered requests on
any number of connections in any interleaving. Say an answer `x` has granted the lease, or
renewed it, and it has not been released under its id since. For its time to live from the
moment of `x`:

* whoever asks, on whatever connection, is granted nothing, and if it is the holder that
  renews, it is acknowledged;
* the lease is live on the server, under its id and with no less than the time `x` has
  given it. -/
theorem tenures_respected (cfg : Daemon.Config) {s₀ s : State κ} {as : List (Sessions.Action κ)}
    (hinit : s₀.Initial) (hnew : s₀.server = .new)
    (hrun : Transition.run (Daemon.step cfg) s₀ as = some s) {before since : List (κ × Handled)}
    {x : κ × Handled} {id : UInt64} {ttl : Ttl} (hlog : s.log = before ++ x :: since)
    (hbegins : Begins (before.map Prod.snd) x.2 id ttl) :
    (∀ mid y after, since = mid ++ y :: after → (∀ z ∈ mid, ¬ z.2.Releases id) →
        y.2.call.now < x.2.call.now + ttl.dur → Respects id y.2)
      ∧ ((∀ z ∈ since, ¬ z.2.Releases id) → s.now < x.2.call.now + ttl.dur →
        ∃ held, s.server.live s.now = some held ∧ held.id = id
          ∧ x.2.call.now + ttl.dur ≤ held.expiresAt) := by
  have hkept : Kept s := Transition.run_preserves (fun _ _ _ hk hstep => Kept.step hk hstep)
    (Kept.initial hinit hnew) hrun
  constructor
  · rintro mid y after rfl hrel hlt
    have hsplit := map_split hlog
    rw [map_split rfl] at hsplit
    exact hkept.respected _ _ _ _ _ _ _ hsplit hbegins (List.forall_mem_map.mpr hrel) hlt
  · intro hrel hlt
    obtain ⟨held, hstate, hid, -, hexpires⟩ := hkept.kept _ _ _ _ _ (map_split hlog) hbegins
      (List.forall_mem_map.mpr hrel) hlt
    exact ⟨held, LeaseServer.live_eq_some.mpr ⟨hstate, hlt.trans_le hexpires⟩, hid, hexpires⟩

end Runs

/-! ### A lease that is renewed, and somebody who waits for it -/

/-- Client 0 acquires, for a minute, and renews after 40 s. Client 1 comes 30 s later. -/
def renewedRun : List (Sessions.Action ℕ) :=
  [.arrive 0 (frame (Hello.toPostcard ⟨0, .lease, "token"⟩)),
    .arrive 0 (frame (LeaseRequest.acquire "a" 60).toPostcard),
    .arrive 1 (frame (Hello.toPostcard ⟨0, .lease, "token"⟩)),
    .arrive 1 (frame (LeaseRequest.acquire "b" 60).toPostcard),
    .read 0 0,
    .write 0 100,
    .read 0 7,
    .write 0 100,
    .read 1 0,
    .write 1 100,
    .tick (Duration.fromSecs 40),
    .arrive 0 (frame (LeaseRequest.renew 7).toPostcard),
    .read 0 0,
    .write 0 100,
    .tick (Duration.fromSecs 30),
    .read 1 8]

/-- What is handled. -/
def renewedLog : List (ℕ × Handled) :=
  [(0, ⟨⟨0, 7, .acquire "a" 60⟩, .granted 7⟩),
    (0, ⟨⟨Duration.fromSecs 40, 0, .renew 7⟩, .ok⟩),
    (1, ⟨⟨Duration.fromSecs 70, 8, .acquire "b" 60⟩, .busy "a" 30⟩)]

/-- **The second is told that the rig is busy**, and so it is, although the minute that
the first was granted is past. -/
theorem renewedRun_respected :
    ∃ s, Transition.run (Daemon.step Daemon.postcardDaemon) Daemon.freeDaemon renewedRun = some s
      ∧ s.log = renewedLog ∧ s.now = Duration.fromSecs 70
      ∧ (∀ y ∈ s.log.drop 2, Respects 7 y.2)
      ∧ ∃ held, s.server.live s.now = some held ∧ held.id = 7
          ∧ Duration.fromSecs 100 ≤ held.expiresAt := by
  have hend : (Transition.run (Daemon.step Daemon.postcardDaemon) Daemon.freeDaemon
      renewedRun).map (fun s => (s.log, s.now)) = some (renewedLog, Duration.fromSecs 70) := by
    decide +kernel
  obtain ⟨s, hrun, hs⟩ := Option.map_eq_some_iff.mp hend
  obtain ⟨hlog, hnow⟩ := Prod.mk.inj hs
  have hsplit : s.log = renewedLog.take 1
      ++ (0, ⟨⟨Duration.fromSecs 40, 0, .renew 7⟩, .ok⟩) :: renewedLog.drop 2 := hlog
  have hbegins : Begins ((renewedLog.take 1).map Prod.snd)
      ⟨⟨Duration.fromSecs 40, 0, .renew 7⟩, .ok⟩ 7 (Ttl.clamp 60) :=
    .renewed ⟨rfl, rfl⟩ rfl
  obtain ⟨hrespects, hlive⟩ := tenures_respected Daemon.postcardDaemon ⟨fun _ => rfl, rfl⟩ rfl
    hrun hsplit hbegins
  refine ⟨s, hrun, hlog, hnow, ?_, hlive (by decide) (by rw [hnow]; decide)⟩
  rw [hlog]
  intro y hy
  obtain rfl := List.mem_singleton.mp hy
  exact hrespects [] _ [] rfl (by decide) (by decide)

end Tenure

end Banc
