import Banc.Net.Lease.Server
import Banc.Lib.Heartbeat
import Mathlib.Algebra.Order.BigOperators.Group.List
import Mathlib.Algebra.Order.Group.Nat

/-!
# The eager lease

What a lease is for, said without a slot and without an expiry instant: a
grant is live at an instant when nobody has released it and its holder has
never been silent for a whole time to live. That is a property of the
*history* – the requests handled so far with their instants and replies –
and the reference machine `Eager.answer` decides every reply by it.

`LeaseServer.handle` keeps one slot instead, and looks at the clock only
when a request happens to arrive. The two agree on every run whose instants
do not go backwards, and they agree reply by reply:
`serve_eq_eager_serve`. The invariant that carries the proof is `Linked`.
It says that the slot is the last grant of the history, kept with the
instant up to which that grant is live, and that every earlier grant is
dead for good – which is why one slot is enough.
-/

namespace Banc

/-- One call of `LeaseServer.handle`: what is asked, when, and the id the
random number generator draws should it be granted. -/
structure Call where
  now : ℕ
  minted : UInt64
  req : LeaseRequest
  deriving DecidableEq

/-- A call that has been handled, with its reply. -/
structure Handled where
  call : Call
  reply : LeaseReply
  deriving DecidableEq

/-- The calls handled so far, oldest first. -/
abbrev History := List Handled

/-- **A run of the server**: the slot it ends with and its history. -/
def LeaseServer.serve : LeaseServer → List Call → LeaseServer × History
  | srv, [] => (srv, [])
  | srv, c :: cs =>
    let next := srv.handle c.now c.minted c.req
    let rest := next.1.serve cs
    (rest.1, ⟨c, next.2⟩ :: rest.2)

namespace Handled

/-- The entry renews the lease `id`: it answered a Renew of it with Ok. -/
def Renews (e : Handled) (id : UInt64) : Prop :=
  e.call.req = .renew id ∧ e.reply = .ok

/-- The entry carries a Release of the lease `id`. -/
def Releases (e : Handled) (id : UInt64) : Prop :=
  e.call.req = .release id

instance (e : Handled) (id : UInt64) : Decidable (e.Renews id) :=
  inferInstanceAs (Decidable (_ ∧ _))

instance (e : Handled) (id : UInt64) : Decidable (e.Releases id) :=
  inferInstanceAs (Decidable (_ = _))

end Handled

namespace Eager

/-! ## Grants and when they are live -/

/-- A grant of the history, with what was handled since. -/
structure Grant where
  id : UInt64
  holder : String
  ttl : Ttl
  now : ℕ
  since : History

namespace Grant

/-- The instants of the grant's Ok renewals. -/
def renewals (g : Grant) : List ℕ :=
  (g.since.filter (fun e => e.Renews g.id)).map (fun e => e.call.now)

/-- The grant and its Ok renewals. -/
def beats (g : Grant) : List ℕ := g.now :: g.renewals

/-- A Release carrying the grant's id was handled since. -/
def Released (g : Grant) : Prop := ∃ e ∈ g.since, e.Releases g.id

instance (g : Grant) : Decidable g.Released :=
  inferInstanceAs (Decidable (∃ e ∈ _, _))

/-- **The grant is live at `t`**: nobody has released it, and every gap
between consecutive instants of the grant, its Ok renewals and `t` is
strictly less than its time to live. -/
def Live (g : Grant) (t : ℕ) : Prop :=
  ¬ g.Released ∧ Heartbeat.Alive g.ttl.dur g.beats t

instance (g : Grant) (t : ℕ) : Decidable (g.Live t) :=
  inferInstanceAs (Decidable (_ ∧ _))

/-- The instant of the grant's last sign of life. -/
def lastBeat (g : Grant) : ℕ := g.beats.getLast (List.cons_ne_nil _ _)

/-- What is left at `t` of the time to live that began with the last sign
of life. -/
def remaining (g : Grant) (t : ℕ) : ℕ :=
  g.lastBeat + g.ttl.dur - t

/-- The grant after one more entry has been handled. -/
def extend (g : Grant) (e : Handled) : Grant := { g with since := g.since ++ [e] }

end Grant

/-- The grants of a history, oldest first. -/
def grants : History → List Grant
  | [] => []
  | e :: h =>
    match e.call.req, e.reply with
    | .acquire holder ttlS, .granted id =>
      ⟨id, holder, Ttl.clamp ttlS, e.call.now, h⟩ :: grants h
    | _, _ => grants h

/-- The live grant of a history at an instant. -/
def live (h : History) (t : ℕ) : Option Grant :=
  (grants h).find? (fun g => g.Live t)

/-- **The reference machine**: the reply to a call, decided by the history
alone. Acquire is granted exactly when no grant is live; Renew is
acknowledged exactly when it carries the live grant's id; Status names the
live grant's holder; the seconds reported are the whole seconds of the time
that remains. -/
def answer (h : History) (c : Call) : LeaseReply :=
  match c.req with
  | .acquire _ _ =>
    match live h c.now with
    | some g => .busy g.holder (UInt32.ofNat (Duration.asSecs (g.remaining c.now)))
    | none => .granted c.minted
  | .renew id => if (live h c.now).any (fun g => g.id = id) then .ok else .gone
  | .release _ => .ok
  | .status =>
    match live h c.now with
    | some g =>
      .status (some g.holder) (UInt32.ofNat (Duration.asSecs (g.remaining c.now)))
    | none => .status none 0

/-- A run of the reference machine from a history. -/
def serve : History → List Call → History
  | h, [] => h
  | h, c :: cs => serve (h ++ [⟨c, answer h c⟩]) cs

/-! ## Extending a history by one entry -/

namespace Grant

@[simp] theorem ttl_extend (g : Grant) (e : Handled) : (g.extend e).ttl = g.ttl := rfl

/-- A grant is released if it was, or is now. -/
theorem released_extend (g : Grant) (e : Handled) :
    (g.extend e).Released ↔ g.Released ∨ e.Releases g.id := by
  unfold Released extend
  simp only [List.mem_append, List.mem_singleton, or_and_right, exists_or,
    exists_eq_left]

/-- One exchange more may be one beat more. -/
theorem beats_extend (g : Grant) (e : Handled) :
    (g.extend e).beats
      = g.beats ++ ([e].filter (fun e => e.Renews g.id)).map (fun e => e.call.now) := by
  show g.now :: ((g.since ++ [e]).filter (fun e => e.Renews g.id)).map _ = _
  rw [List.filter_append, List.map_append]
  rfl

/-- A Renew of this grant is one. -/
theorem beats_extend_of_renews {g : Grant} {e : Handled} (h : e.Renews g.id) :
    (g.extend e).beats = g.beats ++ [e.call.now] := by
  rw [beats_extend, List.filter_singleton, decide_eq_true h]
  rfl

/-- And nothing else is. -/
theorem beats_extend_of_not_renews {g : Grant} {e : Handled}
    (h : ¬ e.Renews g.id) : (g.extend e).beats = g.beats := by
  rw [beats_extend, List.filter_singleton, decide_eq_false h]
  exact List.append_nil _

/-- **The grant is dead from `t₀` on**, whatever happens at it. -/
def DeadFrom (g : Grant) (t₀ : ℕ) : Prop := ∀ t, t₀ ≤ t → ¬ g.Live t

/-- What is dead stays dead. -/
theorem DeadFrom.mono {g : Grant} {t₀ t₁ : ℕ} (h : g.DeadFrom t₀)
    (ht : t₀ ≤ t₁) : g.DeadFrom t₁ :=
  fun t h₁ => h t (ht.trans h₁)

/-- **What is dead stays dead.** An entry handled while a grant is dead does
not revive it: the Release stays in the history, and so does the gap. -/
theorem DeadFrom.extend {g : Grant} {e : Handled} (h : g.DeadFrom e.call.now) :
    (g.extend e).DeadFrom e.call.now := by
  rintro t ht ⟨hrel, halive⟩
  rw [released_extend, not_or] at hrel
  by_cases hren : e.Renews g.id
  · rw [beats_extend_of_renews hren, ttl_extend, Heartbeat.alive_concat] at halive
    exact h e.call.now le_rfl ⟨hrel.1, halive.1⟩
  · rw [beats_extend_of_not_renews hren] at halive
    exact h t ht ⟨hrel.1, halive⟩

/-- A grant that is released is dead at once. -/
theorem deadFrom_extend_of_releases {g : Grant} {e : Handled} (t₀ : ℕ)
    (h : e.Releases g.id) : (g.extend e).DeadFrom t₀ :=
  fun _ _ hl => hl.1 ((released_extend g e).mpr (Or.inr h))

/-- **The slot's lease is the grant**, from `t₀` on: the same identity, and
the grant is live exactly up to the instant the slot expires at. -/
structure Matches (g : Grant) (held : Held) (t₀ : ℕ) : Prop where
  id : g.id = held.id
  holder : g.holder = held.holder
  ttl : g.ttl = held.ttl
  expiresAt : g.lastBeat + g.ttl.dur = held.expiresAt
  beat_le : g.lastBeat ≤ t₀
  live : ∀ t, t₀ ≤ t → (g.Live t ↔ t < held.expiresAt)

/-- A lease keeps to its grant as time goes on. -/
theorem Matches.mono {g : Grant} {held : Held} {t₀ t₁ : ℕ}
    (h : g.Matches held t₀) (ht : t₀ ≤ t₁) : g.Matches held t₁ :=
  { h with
    beat_le := h.beat_le.trans ht
    live := fun t h₁ => h.live t (ht.trans h₁) }

/-- When its lease has run out the grant is dead. -/
theorem Matches.deadFrom {g : Grant} {held : Held} {t₀ : ℕ}
    (h : g.Matches held t₀) (hexp : held.expiresAt ≤ t₀) : g.DeadFrom t₀ :=
  fun t ht hl => absurd ((h.live t ht).mp hl) (not_lt.mpr (hexp.trans ht))

/-- An entry that neither renews nor releases the grant leaves it as it
is. -/
theorem Matches.extend {g : Grant} {held : Held} {t₀ : ℕ} {e : Handled}
    (h : g.Matches held t₀) (hren : ¬ e.Renews g.id)
    (hrel : ¬ e.Releases g.id) : (g.extend e).Matches held t₀ := by
  have hbeats : (g.extend e).beats = g.beats := beats_extend_of_not_renews hren
  have hlast : (g.extend e).lastBeat = g.lastBeat := by
    unfold lastBeat
    simp only [hbeats]
  refine ⟨h.id, h.holder, h.ttl, hlast ▸ h.expiresAt, hlast ▸ h.beat_le,
    fun t ht => ?_⟩
  rw [← h.live t ht]
  unfold Live
  rw [released_extend, hbeats, ttl_extend, or_iff_left hrel]

/-- An Ok renewal of a live grant moves the expiry to a whole time to live
after it. -/
theorem Matches.extend_of_renews {g : Grant} {held : Held} {e : Handled}
    (h : g.Matches held e.call.now) (hnow : e.call.now < held.expiresAt)
    (hren : e.Renews g.id) :
    (g.extend e).Matches { held with expiresAt := e.call.now + held.ttl.dur }
      e.call.now := by
  have hbeats := beats_extend_of_renews hren
  have hlast : (g.extend e).lastBeat = e.call.now := by
    unfold lastBeat
    simp only [hbeats, List.getLast_append_singleton]
  obtain ⟨hrel, halive⟩ := (h.live e.call.now le_rfl).mpr hnow
  have hrel' : ¬ (g.extend e).Released := by
    rw [released_extend, not_or]
    refine ⟨hrel, fun hr => ?_⟩
    rw [Handled.Releases, hren.1] at hr
    exact LeaseRequest.noConfusion hr
  refine ⟨h.id, h.holder, h.ttl, ?_, hlast.le, fun t _ => ?_⟩
  · rw [hlast, ttl_extend, h.ttl]
  · unfold Live
    rw [hbeats, ttl_extend, Heartbeat.alive_concat, ← h.ttl]
    exact ⟨fun hl => hl.2.2, fun ht => ⟨hrel', halive, ht⟩⟩

/-- A grant just made is the lease just put in the slot. -/
theorem matches_new (id : UInt64) (holder : String) (ttl : Ttl) (now : ℕ) :
    (Grant.mk id holder ttl now []).Matches ⟨id, holder, now + ttl.dur, ttl⟩ now := by
  refine ⟨rfl, rfl, rfl, rfl, le_rfl, fun t _ => ?_⟩
  have hrel : ¬ (Grant.mk id holder ttl now []).Released := by
    rintro ⟨e, he, -⟩
    exact List.not_mem_nil he
  exact ⟨fun h => (Heartbeat.alive_singleton _ _ _).mp h.2,
    fun h => ⟨hrel, (Heartbeat.alive_singleton _ _ _).mpr h⟩⟩

end Grant

/-- The grants of an extended history are the extended grants, and whatever
the new entry granted. -/
theorem grants_concat (h : History) (e : Handled) :
    grants (h ++ [e]) = (grants h).map (fun g => g.extend e) ++ grants [e] := by
  induction h with
  | nil => rfl
  | cons x h ih =>
    rw [List.cons_append, grants, grants]
    split
    · rw [ih, List.map_cons, List.cons_append]
      rfl
    · exact ih

/-! ## The slot and the history -/

/-- **The slot is the last grant of the history**, and every other grant is
dead for good. The instant `t₀` is that of the last call handled: nothing is
claimed about the instants before it. -/
inductive Linked (h : History) (t₀ : ℕ) : LeaseServer → Prop where
  | free (hdead : ∀ g ∈ grants h, g.DeadFrom t₀) : Linked h t₀ ⟨none⟩
  | held {held : Held} (past : List Grant) (g : Grant)
      (hgrants : grants h = past ++ [g]) (hdead : ∀ g' ∈ past, g'.DeadFrom t₀)
      (hmatches : g.Matches held t₀) : Linked h t₀ ⟨some held⟩

namespace Linked

variable {h : History} {t₀ t : ℕ} {srv : LeaseServer} {held : Held}
  {e : Handled}

/-- At the start there are no grants, and no lease. -/
theorem linked_nil (t₀ : ℕ) : Linked [] t₀ LeaseServer.new :=
  .free (fun _ hg => absurd hg List.not_mem_nil)

/-- **Sweeping keeps the link**: a slot is emptied only once its grant is
dead. -/
theorem sweep (hl : Linked h t₀ srv) (ht : t₀ ≤ t) : Linked h t ⟨srv.live t⟩ := by
  cases hl with
  | free hdead => exact .free (fun g hg => (hdead g hg).mono ht)
  | @held held past g hgrants hdead hmatches =>
    have hpast : ∀ g' ∈ past, g'.DeadFrom t := fun g' hg' => (hdead g' hg').mono ht
    by_cases hexp : t < held.expiresAt
    · rw [LeaseServer.live_eq_some.mpr ⟨rfl, hexp⟩]
      exact .held past g hgrants hpast (hmatches.mono ht)
    · have hnone : LeaseServer.live ⟨some held⟩ t = none := by
        simp [LeaseServer.live, Option.filter, hexp]
      rw [hnone]
      refine .free (fun g' hg' => ?_)
      rw [hgrants, List.mem_append, List.mem_singleton] at hg'
      rcases hg' with hg' | rfl
      · exact hpast g' hg'
      · exact (hmatches.mono ht).deadFrom (not_lt.mp hexp)

/-- With the slot empty no grant is live. -/
theorem live_free (hl : Linked h t₀ ⟨none⟩) (ht : t₀ ≤ t) : live h t = none := by
  cases hl with
  | free hdead =>
    refine List.find?_eq_none.mpr (fun g hg => ?_)
    rw [decide_eq_true_iff]
    exact hdead g hg t ht

/-- While the slot's lease has not expired, its grant is the live one. -/
theorem live_held (hl : Linked h t₀ ⟨some held⟩) (ht : t₀ ≤ t)
    (hexp : t < held.expiresAt) :
    ∃ g, live h t = some g ∧ g.Matches held t := by
  cases hl with
  | held past g hgrants hdead hmatches =>
    refine ⟨g, ?_, hmatches.mono ht⟩
    have hpast : past.find? (fun g' => decide (g'.Live t)) = none := by
      refine List.find?_eq_none.mpr (fun g' hg' => ?_)
      rw [decide_eq_true_iff]
      exact hdead g' hg' t ht
    have hg : g.Live t := (hmatches.live t ht).mpr hexp
    rw [live, hgrants, List.find?_append, hpast, Option.none_or,
      List.find?_singleton, if_pos (decide_eq_true hg)]

/-! ### What one entry does to the link -/

/-- Nor does an exchange bring a dead grant back. -/
theorem deadFrom_extend {gs : List Grant}
    (hdead : ∀ g ∈ gs, g.DeadFrom e.call.now) :
    ∀ g ∈ gs.map (fun g => g.extend e), g.DeadFrom e.call.now := by
  intro g hg
  obtain ⟨g', hg', rfl⟩ := List.mem_map.mp hg
  exact (hdead g' hg').extend

/-- An entry that grants nothing leaves an empty slot linked. -/
theorem free_extend (hl : Linked h e.call.now ⟨none⟩) (he : grants [e] = []) :
    Linked (h ++ [e]) e.call.now ⟨none⟩ := by
  cases hl with
  | free hdead =>
    refine .free ?_
    rw [grants_concat, he, List.append_nil]
    exact deadFrom_extend hdead

/-- An entry that concerns the slot's lease in no way leaves it linked. -/
theorem held_extend (hl : Linked h e.call.now ⟨some held⟩) (he : grants [e] = [])
    (hren : ¬ e.Renews held.id) (hrel : ¬ e.Releases held.id) :
    Linked (h ++ [e]) e.call.now ⟨some held⟩ := by
  cases hl with
  | held past g hgrants hdead hmatches =>
    refine .held (past.map (fun g => g.extend e)) (g.extend e) ?_
      (deadFrom_extend hdead) ?_
    · rw [grants_concat, he, hgrants, List.append_nil, List.map_append]
      rfl
    · rw [← hmatches.id] at hren hrel
      exact hmatches.extend hren hrel

/-- An Ok renewal of the slot's lease. -/
theorem held_renews (hl : Linked h e.call.now ⟨some held⟩) (he : grants [e] = [])
    (hren : e.Renews held.id) (hexp : e.call.now < held.expiresAt) :
    Linked (h ++ [e]) e.call.now
      ⟨some { held with expiresAt := e.call.now + held.ttl.dur }⟩ := by
  cases hl with
  | held past g hgrants hdead hmatches =>
    refine .held (past.map (fun g => g.extend e)) (g.extend e) ?_
      (deadFrom_extend hdead) ?_
    · rw [grants_concat, he, hgrants, List.append_nil, List.map_append]
      rfl
    · rw [← hmatches.id] at hren
      exact hmatches.extend_of_renews hexp hren

/-- A release of the slot's lease. -/
theorem held_releases (hl : Linked h e.call.now ⟨some held⟩)
    (he : grants [e] = []) (hrel : e.Releases held.id) :
    Linked (h ++ [e]) e.call.now ⟨none⟩ := by
  cases hl with
  | held past g hgrants hdead hmatches =>
    refine .free (fun g' hg' => ?_)
    rw [grants_concat, he, hgrants, List.append_nil, List.map_append,
      List.mem_append, List.map_singleton, List.mem_singleton] at hg'
    rcases hg' with hg' | rfl
    · exact deadFrom_extend hdead g' hg'
    · exact Grant.deadFrom_extend_of_releases _ (hmatches.id ▸ hrel)

/-- A grant into an empty slot. -/
theorem free_grant (hl : Linked h e.call.now ⟨none⟩) {holder : String}
    {ttlS : UInt32} {id : UInt64} (hreq : e.call.req = .acquire holder ttlS)
    (hreply : e.reply = .granted id) :
    Linked (h ++ [e]) e.call.now
      ⟨some ⟨id, holder, e.call.now + (Ttl.clamp ttlS).dur, Ttl.clamp ttlS⟩⟩ := by
  cases hl with
  | free hdead =>
    refine .held ((grants h).map (fun g => g.extend e))
      ⟨id, holder, Ttl.clamp ttlS, e.call.now, []⟩ ?_ (deadFrom_extend hdead)
      (Grant.matches_new _ _ _ _)
    rw [grants_concat]
    simp only [grants, hreq, hreply]

/-- **One call.** From a linked slot, `handle` gives the reply the history
decides, and the slot it leaves is linked to the extended history. The cases
are the request and whether the slot holds a lease that is still live; a
Renew or a Release is told apart further by whether it carries that lease's
id. -/
theorem handle (hl : Linked h t₀ srv) (c : Call) (ht : t₀ ≤ c.now) :
    (srv.handle c.now c.minted c.req).2 = answer h c
      ∧ Linked (h ++ [⟨c, answer h c⟩]) c.now
          (srv.handle c.now c.minted c.req).1 := by
  obtain ⟨now, minted, req⟩ := c
  have hs := hl.sweep ht
  cases hlive : srv.live now with
  | none =>
    rw [hlive] at hs
    have hfree : live h now = none := hs.live_free le_rfl
    have hstale : ∀ id held, srv.live now = some held → held.id ≠ id := by
      simp [hlive]
    cases req with
    | acquire holder ttlS =>
      rw [LeaseServer.handle_acquire_free hlive]
      simp only [answer, hfree]
      exact ⟨trivial, hs.free_grant (e := ⟨⟨now, minted, _⟩, _⟩) rfl rfl⟩
    | renew id =>
      rw [LeaseServer.handle_renew_stale (hstale id), hlive]
      simp only [answer, hfree, Option.any_none, Bool.false_eq_true, if_false]
      exact ⟨trivial, hs.free_extend (e := ⟨⟨now, minted, _⟩, _⟩) rfl⟩
    | release id =>
      rw [LeaseServer.handle_release_stale (hstale id), hlive]
      exact ⟨rfl, hs.free_extend (e := ⟨⟨now, minted, _⟩, _⟩) rfl⟩
    | status =>
      rw [LeaseServer.handle_status_free hlive]
      simp only [answer, hfree]
      exact ⟨trivial, hs.free_extend (e := ⟨⟨now, minted, _⟩, _⟩) rfl⟩
  | some held =>
    rw [hlive] at hs
    have hexp : now < held.expiresAt := (LeaseServer.live_eq_some.mp hlive).2
    obtain ⟨g, hg, hm⟩ := hs.live_held le_rfl hexp
    have hsecs : held.expiresInS now
        = UInt32.ofNat (Duration.asSecs (g.remaining now)) := by
      rw [Held.expiresInS, Grant.remaining, hm.expiresAt]
    -- a request that is neither a Renew nor a Release of the lease
    have hkeep : ∀ req reply, grants [⟨⟨now, minted, req⟩, reply⟩] = [] →
        (req = .renew held.id → reply ≠ .ok) → req ≠ .release held.id →
        Linked (h ++ [⟨⟨now, minted, req⟩, reply⟩]) now ⟨some held⟩ :=
      fun req reply he hren hrel =>
        hs.held_extend (e := ⟨⟨now, minted, req⟩, reply⟩) he
          (fun hr => hren hr.1 hr.2) hrel
    cases req with
    | acquire holder ttlS =>
      rw [LeaseServer.handle_acquire_live hlive]
      simp only [answer, hg, hm.holder, hsecs]
      exact ⟨trivial, hkeep _ _ rfl (by simp) (by simp)⟩
    | renew id =>
      by_cases hid : held.id = id
      · subst hid
        rw [LeaseServer.handle_renew_current hlive]
        simp only [answer, hg, Option.any_some, hm.id, decide_true, if_true]
        exact ⟨trivial, hs.held_renews (e := ⟨⟨now, minted, _⟩, _⟩) rfl
          ⟨rfl, rfl⟩ hexp⟩
      · have hstale : ∀ held', srv.live now = some held' → held'.id ≠ id := by
          simp [hlive, hid]
        rw [LeaseServer.handle_renew_stale hstale, hlive]
        simp only [answer, hg, Option.any_some, hm.id, hid, decide_false,
          Bool.false_eq_true, if_false]
        exact ⟨trivial, hkeep _ _ rfl (by simp) (by simp)⟩
    | release id =>
      by_cases hid : held.id = id
      · subst hid
        rw [LeaseServer.handle_release_current hlive]
        exact ⟨rfl, hs.held_releases (e := ⟨⟨now, minted, _⟩, _⟩) rfl rfl⟩
      · have hstale : ∀ held', srv.live now = some held' → held'.id ≠ id := by
          simp [hlive, hid]
        rw [LeaseServer.handle_release_stale hstale, hlive]
        exact ⟨rfl, hkeep _ _ rfl (by simp)
          (by simpa using fun h => hid h.symm)⟩
    | status =>
      rw [LeaseServer.handle_status_live hlive]
      simp only [answer, hg, hm.holder, hsecs]
      exact ⟨trivial, hkeep _ _ rfl (by simp) (by simp)⟩

/-- Time passes, and the lease may run out, as the grant does. -/
theorem mono (hl : Linked h t₀ srv) (ht : t₀ ≤ t) : Linked h t srv := by
  cases hl with
  | free hdead => exact .free (fun g hg => (hdead g hg).mono ht)
  | held past g hgrants hdead hmatches =>
    exact .held past g hgrants (fun g' hg' => (hdead g' hg').mono ht)
      (hmatches.mono ht)

/-- **A whole run.** By induction on the calls, with the link as the
invariant: the run of the server appends to the history what the run of the
reference machine appends to it. -/
theorem serve {cs : List Call} (hl : Linked h t₀ srv)
    (hmono : cs.Pairwise (fun a b => a.now ≤ b.now))
    (hcs : ∀ c ∈ cs, t₀ ≤ c.now ∧ c.now ≤ t) (ht : t₀ ≤ t) :
    h ++ (srv.serve cs).2 = Eager.serve h cs
      ∧ Linked (Eager.serve h cs) t (srv.serve cs).1 := by
  induction cs generalizing h t₀ srv with
  | nil => exact ⟨List.append_nil h, hl.mono ht⟩
  | cons c cs ih =>
    obtain ⟨hc, hmono'⟩ := List.pairwise_cons.mp hmono
    obtain ⟨hc₀, hct⟩ := hcs c List.mem_cons_self
    obtain ⟨hreply, hl'⟩ := hl.handle c hc₀
    obtain ⟨heq, hlinked⟩ := ih hl' hmono'
      (fun c' hc' => ⟨hc c' hc', (hcs c' (List.mem_cons_of_mem c hc')).2⟩) hct
    refine ⟨?_, hlinked⟩
    rw [List.append_assoc, List.singleton_append] at heq
    simp only [LeaseServer.serve, hreply]
    exact heq

/-! ## What the link says about an instant -/

/-- `holder` names the live grant's holder. -/
theorem holder_eq (hl : Linked h t srv) :
    srv.holder t = (live h t).map Grant.holder := by
  have hs := hl.sweep le_rfl
  unfold LeaseServer.holder
  cases hlive : srv.live t with
  | none =>
    rw [hlive] at hs
    rw [hs.live_free le_rfl]
    rfl
  | some held =>
    rw [hlive] at hs
    obtain ⟨g, hg, hm⟩ :=
      hs.live_held le_rfl (LeaseServer.live_eq_some.mp hlive).2
    rw [hg, Option.map_some, Option.map_some, hm.holder]

/-- No two grants of the history are live at once. -/
theorem length_filter_live_le (hl : Linked h t srv) :
    ((grants h).filter (fun g => g.Live t)).length ≤ 1 := by
  have hnil : ∀ gs : List Grant, (∀ g ∈ gs, g.DeadFrom t) →
      gs.filter (fun g => g.Live t) = [] := fun gs hdead =>
    List.filter_eq_nil_iff.mpr (fun g hg => by
      rw [decide_eq_true_iff]
      exact hdead g hg t le_rfl)
  cases hl with
  | free hdead => rw [hnil _ hdead]; exact Nat.zero_le 1
  | held past g hgrants hdead hmatches =>
    rw [hgrants, List.filter_append, hnil past hdead, List.nil_append]
    exact List.length_filter_le _ [g]

/-- The time that remains never exceeds the time to live, so its whole
seconds fit the field they are reported in. -/
theorem remaining_le (hl : Linked h t srv) {g : Grant}
    (hg : live h t = some g) : g.remaining t ≤ g.ttl.dur := by
  have hs := hl.sweep le_rfl
  cases hlive : srv.live t with
  | none =>
    rw [hlive] at hs
    rw [hs.live_free le_rfl] at hg
    exact absurd hg (by simp)
  | some held =>
    rw [hlive] at hs
    obtain ⟨g', hg', hm⟩ :=
      hs.live_held le_rfl (LeaseServer.live_eq_some.mp hlive).2
    obtain rfl : g' = g := Option.some.inj (hg'.symm.trans hg)
    have := hm.beat_le
    unfold Grant.remaining
    omega

end Linked

/-- Whole seconds of at most a time to live fit in 32 bits. -/
theorem toNat_asSecs_of_le (ttl : Ttl) {d : ℕ} (h : d ≤ ttl.dur) :
    (UInt32.ofNat (Duration.asSecs d)).toNat = Duration.asSecs d := by
  have hd : d ≤ Duration.fromSecs 3600 := h.trans ttl.le
  unfold Duration.fromSecs at hd
  have hsecs : Duration.asSecs d ≤ 3600 := by
    unfold Duration.asSecs
    omega
  rw [UInt32.toNat_ofNat']
  exact Nat.mod_eq_of_lt (lt_of_le_of_lt hsecs (by decide))

/-- **The lazily expiring server implements an eager lease.** On every run
whose instants do not go backwards the server's replies are the reference
machine's. At every later instant `holder` names the live grant's holder, at
most one grant is live, and the seconds reported for it are the whole
seconds of the time it has left, which is at most its time to live. -/
theorem serve_eq_eager_serve (calls : List Call)
    (hmono : calls.Pairwise (fun a b => a.now ≤ b.now)) :
    (LeaseServer.new.serve calls).2 = serve [] calls
      ∧ ∀ t, (∀ c ∈ calls, c.now ≤ t) →
          (LeaseServer.new.serve calls).1.holder t
              = (live (serve [] calls) t).map Grant.holder
            ∧ ((grants (serve [] calls)).filter (fun g => g.Live t)).length ≤ 1
            ∧ ∀ g, live (serve [] calls) t = some g →
                g.remaining t ≤ g.ttl.dur
                  ∧ (UInt32.ofNat (Duration.asSecs (g.remaining t))).toNat
                      = Duration.asSecs (g.remaining t) := by
  have hrun : ∀ t, (∀ c ∈ calls, c.now ≤ t) →
      (LeaseServer.new.serve calls).2 = serve [] calls
        ∧ Linked (serve [] calls) t (LeaseServer.new.serve calls).1 :=
    fun t ht => (Linked.linked_nil 0).serve hmono
      (fun c hc => ⟨Nat.zero_le _, ht c hc⟩) (Nat.zero_le t)
  constructor
  · have hbound : ∀ c ∈ calls, c.now ≤ (calls.map Call.now).sum :=
      fun c hc => List.single_le_sum (fun _ _ => Nat.zero_le _) _
        (List.mem_map_of_mem hc)
    exact (hrun _ hbound).1
  · intro t ht
    have hl := (hrun t ht).2
    refine ⟨hl.holder_eq, hl.length_filter_live_le, fun g hg => ?_⟩
    have hle := hl.remaining_le hg
    exact ⟨hle, toNat_asSecs_of_le g.ttl hle⟩

/-- A run in which a lease of five seconds is renewed, lapses at exactly the
instant its time to live is over, is granted again, and is then renewed with
the stale id. -/
def lapsingRun : List Call :=
  [⟨0, 7, .acquire "a" 5⟩, ⟨Duration.fromSecs 4, 0, .renew 7⟩,
    ⟨Duration.fromSecs 8, 0, .acquire "b" 60⟩,
    ⟨Duration.fromSecs 9, 8, .acquire "b" 60⟩,
    ⟨Duration.fromSecs 10, 0, .renew 7⟩, ⟨Duration.fromSecs 11, 0, .status⟩]

/-- The lease lapses, another gets it, and both machines say the same. -/
theorem lapsingRun_serve :
    lapsingRun.Pairwise (fun a b => a.now ≤ b.now)
      ∧ (serve [] lapsingRun).map Handled.reply
          = [.granted 7, .ok, .busy "a" 1, .granted 8, .gone,
              .status (some "b") 58]
      ∧ (LeaseServer.new.serve lapsingRun).2 = serve [] lapsingRun :=
  ⟨by decide, by decide, (serve_eq_eager_serve lapsingRun (by decide)).1⟩

end Eager

end Banc
