import Banc.Lib.Transition
import Banc.Net.Lease.Client

/-!
# Does a held lease survive a broken connection?

One lease holder – `LeaseClient::acquire`, then the renew thread – against a
`LeaseServer` that any number of contenders send Acquires to. The clock is
part of the state and every step happens at an instant: the contenders and
the breaks come whenever they like, and the promptness of the server and of
the network is a guard of `tick`, which does not let the clock pass the
instant by which a roundtrip on an intact connection is answered, nor the
instant at which the renew thread wakes up.

A break takes effect at once for the client, but a Renew already on the wire
may still be handled, then or much later, or be lost (`Delivery`,
`State.stale`). A fresh connection is intact, and the roundtrip on it
succeeds.

The lease does not survive. A failed Renew makes the loop reconnect and send
an *Acquire*, which the server refuses with Busy as long as the lease – the
holder's own – is live; so the loop goes back to the broken stream, and no
renewal can succeed before the lease has run out and the first Acquire to
arrive takes it (`break_loses_the_lease`). What the code does guarantee is
`no_contender_granted_iff`.
-/

namespace Banc

namespace Survival

/-- A connection of the holder, as far as the client can tell. -/
structure Conn where
  broken : Bool
  deriving DecidableEq

/-- Where the Renew of the roundtrip under way is. -/
inductive Delivery where
  /-- The connection was broken before it was written. -/
  | lost
  /-- Written, and not handled yet. -/
  | sent
  /-- Handled; the reply is on its way back. -/
  | answered (reply : LeaseReply)
  deriving DecidableEq

/-- Where the holder is in `acquire` and `renew_loop`. -/
inductive Phase where
  /-- In `acquire`, in the roundtrip that began at `began`. -/
  | acquiring (stream : Conn) (began : ℕ) (reply : Option LeaseReply)
  /-- In `acquire`, sleeping a second since `since`. -/
  | sleeping (stream : Conn) (since : ℕ)
  /-- `acquire` has returned an error. -/
  | failed (e : LeaseError)
  /-- In `renew_loop`, waiting on the stop channel since `since`. -/
  | waiting (st : Renewing Conn) (since : ℕ)
  /-- In `renew_loop`, in the Renew roundtrip that began at `woke`. -/
  | renewing (st : Renewing Conn) (woke : ℕ) (delivery : Delivery)
  /-- In `reacquire`, which began at `began`. -/
  | reacquiring (st : Renewing Conn) (began : ℕ) (reply : Option LeaseReply)
  /-- The loop has seen the stop channel close, released and returned. -/
  | exited
  deriving DecidableEq

/-- The holder, the server and the clock. -/
structure State where
  now : ℕ
  server : LeaseServer
  phase : Phase
  /-- Ids of Renews whose roundtrip has failed and that may yet arrive. -/
  stale : List UInt64
  /-- The lease is the holder's: granted to it, and not dropped. -/
  holding : Bool
  /-- The last instant at which the server granted the holder's Acquire or
  acknowledged a Renew. -/
  accepted : ℕ
  /-- A contender has been granted the lease while the holder had it. -/
  stolen : Bool
  deriving DecidableEq

/-- What the run is about: the holder's identity, the deadline of its
`acquire`, and how long a roundtrip on an intact connection may take. -/
structure Config where
  holder : String
  deadline : ℕ
  prompt : ℕ

/-- What may happen. -/
inductive Action where
  /-- Time passes. -/
  | tick (d : ℕ)
  /-- The holder's connection breaks. -/
  | disconnect
  /-- A contender's Acquire is handled. -/
  | contend (holder : String) (ttlS : UInt32) (minted : UInt64)
  /-- The holder's Acquire is handled, in `acquire` or in `reacquire`. -/
  | serveAcquire (minted : UInt64)
  /-- Its reply arrives. -/
  | acquireReturns
  /-- The roundtrip of `acquire` fails. -/
  | acquireFails
  /-- `acquire` wakes from its sleep. -/
  | retry
  /-- The renew thread wakes and sends a Renew. -/
  | wake
  /-- The Renew is handled. -/
  | serveRenew
  /-- Its reply arrives. -/
  | renewReturns
  /-- The Renew roundtrip fails; the request may still arrive or not. -/
  | renewFails (late : Bool)
  /-- A Renew given up on arrives after all. -/
  | serveStale (id : UInt64)
  /-- The reply to the Acquire of `reacquire` arrives. -/
  | reacquireReturns
  /-- The `LeaseClient` is dropped. -/
  | drop
  /-- The loop releases and returns. -/
  | release
  deriving DecidableEq

namespace Phase

/-- The connection the phase uses is broken. In `reacquire` that is the
connection the loop came with, not the fresh one. -/
def broken : Phase → Bool
  | .acquiring stream _ _ => stream.broken
  | .sleeping stream _ => stream.broken
  | .waiting st _ => st.stream.broken
  | .renewing st _ _ => st.stream.broken
  | .reacquiring st _ _ => st.stream.broken
  | .failed _ => false
  | .exited => false

/-- The phase once the connection it uses has broken. -/
def disconnect : Phase → Phase
  | .acquiring _ began reply => .acquiring ⟨true⟩ began reply
  | .sleeping _ since => .sleeping ⟨true⟩ since
  | .waiting st since => .waiting { st with stream := ⟨true⟩ } since
  | .renewing st woke delivery => .renewing { st with stream := ⟨true⟩ } woke delivery
  | .reacquiring st began reply =>
    .reacquiring { st with stream := ⟨true⟩ } began reply
  | p => p

/-- The instant the clock may not pass in this phase: the renew thread wakes
a period after it began to wait, and a roundtrip on an intact connection is
answered within `prompt`. -/
def limit (prompt : ℕ) : Phase → Option ℕ
  | .acquiring stream began _ =>
    if stream.broken then none else some (began + prompt)
  | .waiting _ since => some (since + period)
  | .renewing st woke _ => if st.stream.broken then none else some (woke + prompt)
  | .reacquiring _ began _ => some (began + prompt)
  | _ => none

end Phase

/-- Handle a request in the state. -/
def State.handle (s : State) (minted : UInt64) (req : LeaseRequest) :
    LeaseServer × LeaseReply :=
  s.server.handle s.now minted req

/-- A Renew is handled: the slot it leaves, and whether it was accepted. -/
def State.serveRenew (s : State) (id : UInt64) : State :=
  let r := s.handle 0 (.renew id)
  { s with
    server := r.1
    accepted := if r.2 = .ok then s.now else s.accepted }

/-- The step function. -/
def step (cfg : Config) (s : State) : Action → Option State
  | .tick d =>
    if ∀ t ∈ s.phase.limit cfg.prompt, s.now + d ≤ t then
      some { s with now := s.now + d }
    else none
  | .disconnect => some { s with phase := s.phase.disconnect }
  | .contend holder ttlS minted =>
    let r := s.handle minted (.acquire holder ttlS)
    some { s with
      server := r.1
      stolen := s.stolen || (s.holding && decide (r.2 = .granted minted)) }
  | .serveAcquire minted =>
    let r := s.handle minted (acquireRequest cfg.holder)
    let accepted := if r.2 = .granted minted then s.now else s.accepted
    match s.phase with
    | .acquiring stream began none =>
      some { s with
        server := r.1, accepted, phase := .acquiring stream began (some r.2)
        holding := decide (r.2 = .granted minted) }
    | .reacquiring st began none =>
      some { s with
        server := r.1, accepted, phase := .reacquiring st began (some r.2) }
    | _ => none
  | .acquireReturns =>
    match s.phase with
    | .acquiring stream _ (some reply) =>
      if stream.broken then none
      else match acquireReply s.now cfg.deadline reply with
        | .granted id => some { s with phase := .waiting ⟨stream, id⟩ s.now }
        | .sleep => some { s with phase := .sleeping stream s.now }
        | .bail e => some { s with phase := .failed e, holding := false }
    | _ => none
  | .acquireFails =>
    match s.phase with
    | .acquiring stream _ _ =>
      if stream.broken then some { s with phase := .failed .io, holding := false }
      else none
    | _ => none
  | .retry =>
    match s.phase with
    | .sleeping stream since =>
      if since + Duration.fromSecs 1 ≤ s.now then
        some { s with phase := .acquiring stream s.now none }
      else none
    | _ => none
  | .wake =>
    match s.phase with
    | .waiting st since =>
      if s.now = since + period ∧ s.holding then
        some { s with
          phase := .renewing st s.now (if st.stream.broken then .lost else .sent) }
      else none
    | _ => none
  | .serveRenew =>
    match s.phase with
    | .renewing st woke .sent =>
      some { s.serveRenew st.id with
        phase := .renewing st woke (.answered (s.handle 0 (.renew st.id)).2) }
    | _ => none
  | .renewReturns =>
    match s.phase with
    | .renewing st _ (.answered reply) =>
      if st.stream.broken then none
      else if reacquires (.ok reply) then
        some { s with phase := .reacquiring st s.now none }
      else some { s with phase := .waiting st s.now }
    | _ => none
  | .renewFails late =>
    match s.phase with
    | .renewing st _ delivery =>
      if st.stream.broken ∧ reacquires (.error .io) then
        some { s with
          phase := .reacquiring st s.now none
          stale := if late ∧ delivery = .sent then st.id :: s.stale else s.stale }
      else none
    | _ => none
  | .serveStale id =>
    if id ∈ s.stale then
      some { s.serveRenew id with stale := s.stale.erase id }
    else none
  | .reacquireReturns =>
    match s.phase with
    | .reacquiring st _ (some reply) =>
      let outcome := (reacquireReply reply).map (fun id => (Conn.mk false, id))
      some { s with phase := .waiting (st.afterReacquire outcome) s.now }
    | _ => none
  | .drop => if s.holding then some { s with holding := false } else none
  | .release =>
    match s.phase with
    | .waiting st _ =>
      if s.holding then none
      else if st.stream.broken then some { s with phase := .exited }
      else some { s with
        phase := .exited, server := (s.handle 0 (.release st.id)).1 }
    | _ => none

/-- **The holder has just connected**, at any instant and to a server in any
state, and is in the first roundtrip of `acquire`. -/
def State.Initial (s : State) : Prop :=
  s.phase = .acquiring ⟨false⟩ s.now none ∧ s.stale = [] ∧ s.holding = false
    ∧ s.stolen = false

/-! ## What a step can do -/

/-- The step function read as a relation: one constructor for each thing
that can happen, with what its guards have established. -/
inductive Step (cfg : Config) (s : State) : Action → State → Prop where
  | tick {d : ℕ} (hlimit : ∀ t ∈ s.phase.limit cfg.prompt, s.now + d ≤ t) :
    Step cfg s (.tick d) { s with now := s.now + d }
  | disconnect : Step cfg s .disconnect { s with phase := s.phase.disconnect }
  | contend {holder : String} {ttlS : UInt32} {minted : UInt64} :
    Step cfg s (.contend holder ttlS minted)
      { s with
        server := (s.handle minted (.acquire holder ttlS)).1
        stolen := s.stolen || (s.holding && decide
          ((s.handle minted (.acquire holder ttlS)).2 = .granted minted)) }
  | serveFirst {minted : UInt64} {stream : Conn} {began : ℕ}
      (hphase : s.phase = .acquiring stream began none) :
    Step cfg s (.serveAcquire minted)
      { s with
        server := (s.handle minted (acquireRequest cfg.holder)).1
        accepted :=
          if (s.handle minted (acquireRequest cfg.holder)).2 = .granted minted
          then s.now else s.accepted
        phase := .acquiring stream began
          (some (s.handle minted (acquireRequest cfg.holder)).2)
        holding := decide
          ((s.handle minted (acquireRequest cfg.holder)).2 = .granted minted) }
  | serveAgain {minted : UInt64} {st : Renewing Conn} {began : ℕ}
      (hphase : s.phase = .reacquiring st began none) :
    Step cfg s (.serveAcquire minted)
      { s with
        server := (s.handle minted (acquireRequest cfg.holder)).1
        accepted :=
          if (s.handle minted (acquireRequest cfg.holder)).2 = .granted minted
          then s.now else s.accepted
        phase := .reacquiring st began
          (some (s.handle minted (acquireRequest cfg.holder)).2) }
  | acquired {stream : Conn} {began : ℕ} {reply : LeaseReply} {id : UInt64}
      (hphase : s.phase = .acquiring stream began (some reply))
      (hbroken : stream.broken = false)
      (hnext : acquireReply s.now cfg.deadline reply = .granted id) :
    Step cfg s .acquireReturns { s with phase := .waiting ⟨stream, id⟩ s.now }
  | acquireBusy {stream : Conn} {began : ℕ} {reply : LeaseReply}
      (hphase : s.phase = .acquiring stream began (some reply))
      (hnext : acquireReply s.now cfg.deadline reply = .sleep) :
    Step cfg s .acquireReturns { s with phase := .sleeping stream s.now }
  | acquireBails {stream : Conn} {began : ℕ} {reply : LeaseReply} {e : LeaseError}
      (hphase : s.phase = .acquiring stream began (some reply)) :
    Step cfg s .acquireReturns { s with phase := .failed e, holding := false }
  | acquireFails : Step cfg s .acquireFails
      { s with phase := .failed .io, holding := false }
  | retry {stream : Conn} {since : ℕ} (hphase : s.phase = .sleeping stream since) :
    Step cfg s .retry { s with phase := .acquiring stream s.now none }
  | wake {st : Renewing Conn} {since : ℕ} (hphase : s.phase = .waiting st since)
      (hnow : s.now = since + period) :
    Step cfg s .wake { s with
      phase := .renewing st s.now (if st.stream.broken then .lost else .sent) }
  | serveRenew {st : Renewing Conn} {woke : ℕ}
      (hphase : s.phase = .renewing st woke .sent) :
    Step cfg s .serveRenew { s.serveRenew st.id with
      phase := .renewing st woke (.answered (s.handle 0 (.renew st.id)).2) }
  | renewed {st : Renewing Conn} {woke : ℕ} {reply : LeaseReply}
      (hphase : s.phase = .renewing st woke (.answered reply))
      (hbroken : st.stream.broken = false) (hnext : reacquires (.ok reply) = false) :
    Step cfg s .renewReturns { s with phase := .waiting st s.now }
  | gone {st : Renewing Conn} {woke : ℕ} {reply : LeaseReply}
      (hphase : s.phase = .renewing st woke (.answered reply))
      (hbroken : st.stream.broken = false) (hnext : reacquires (.ok reply) = true) :
    Step cfg s .renewReturns { s with phase := .reacquiring st s.now none }
  | renewFails {late : Bool} {st : Renewing Conn} {woke : ℕ} {delivery : Delivery}
      {stale : List UInt64} (hphase : s.phase = .renewing st woke delivery)
      (hbroken : st.stream.broken = true) :
    Step cfg s (.renewFails late)
      { s with phase := .reacquiring st s.now none, stale := stale }
  | serveStale {id : UInt64} {stale : List UInt64} :
    Step cfg s (.serveStale id) { s.serveRenew id with stale := stale }
  | reacquired {st : Renewing Conn} {began : ℕ} {reply : LeaseReply} {id : UInt64}
      (hphase : s.phase = .reacquiring st began (some reply))
      (hreply : reacquireReply reply = .ok id) :
    Step cfg s .reacquireReturns { s with phase := .waiting ⟨⟨false⟩, id⟩ s.now }
  | reacquireFails {st : Renewing Conn} {began : ℕ} {reply : LeaseReply}
      {e : LeaseError} (hphase : s.phase = .reacquiring st began (some reply))
      (hreply : reacquireReply reply = .error e) :
    Step cfg s .reacquireReturns { s with phase := .waiting st s.now }
  | drop : Step cfg s .drop { s with holding := false }
  | release {server : LeaseServer} (hholding : s.holding = false) :
    Step cfg s .release { s with phase := .exited, server := server }

/-- **Every step is one of these.** -/
theorem Step.of_step {cfg : Config} {s s' : State} {a : Action}
    (h : step cfg s a = some s') : Step cfg s a s' := by
  cases a with
  | tick d =>
    simp only [step, Option.ite_none_right_eq_some, Option.some.injEq] at h
    obtain ⟨hlimit, rfl⟩ := h
    exact .tick hlimit
  | disconnect => exact Option.some.inj h ▸ .disconnect
  | contend holder ttlS minted => exact Option.some.inj h ▸ .contend
  | serveAcquire minted =>
    cases hp : s.phase with
    | acquiring stream began reply =>
      cases reply with
      | none => simp only [step, hp, Option.some.injEq] at h; exact h ▸ .serveFirst hp
      | some reply => simp [step, hp] at h
    | reacquiring st began reply =>
      cases reply with
      | none => simp only [step, hp, Option.some.injEq] at h; exact h ▸ .serveAgain hp
      | some reply => simp [step, hp] at h
    | _ => simp [step, hp] at h
  | acquireReturns =>
    simp only [step] at h
    split at h
    · next stream began reply hp =>
      split at h
      · cases h
      · next hb =>
        split at h
        · next id hid =>
          exact Option.some.inj h ▸ .acquired hp (Bool.not_eq_true _ ▸ hb) hid
        · next hid => exact Option.some.inj h ▸ .acquireBusy hp hid
        · next e hid => exact Option.some.inj h ▸ .acquireBails hp
    · cases h
  | acquireFails =>
    simp only [step] at h
    split at h
    · split at h
      · exact Option.some.inj h ▸ .acquireFails
      · cases h
    · cases h
  | retry =>
    simp only [step] at h
    split at h
    · next stream since hp =>
      split at h
      · exact Option.some.inj h ▸ .retry hp
      · cases h
    · cases h
  | wake =>
    simp only [step] at h
    split at h
    · next st since hp =>
      split at h
      · next hw => exact Option.some.inj h ▸ .wake hp hw.1
      · cases h
    · cases h
  | serveRenew =>
    simp only [step] at h
    split at h
    · next st woke hp => exact Option.some.inj h ▸ .serveRenew hp
    · cases h
  | renewReturns =>
    simp only [step] at h
    split at h
    · next st woke reply hp =>
      split at h
      · cases h
      · next hb =>
        have hb' := Bool.not_eq_true _ ▸ hb
        split at h
        · next hr => exact Option.some.inj h ▸ .gone hp hb' hr
        · next hr =>
          exact Option.some.inj h ▸ .renewed hp hb' (Bool.not_eq_true _ ▸ hr)
    · cases h
  | renewFails late =>
    simp only [step] at h
    split at h
    · next st woke delivery hp =>
      split at h
      · next hb => exact Option.some.inj h ▸ .renewFails hp hb.1
      · cases h
    · cases h
  | serveStale id =>
    simp only [step] at h
    split at h
    · exact Option.some.inj h ▸ .serveStale
    · cases h
  | reacquireReturns =>
    simp only [step] at h
    split at h
    · next st began reply hp =>
      cases hr : reacquireReply reply with
      | ok id =>
        rw [hr] at h
        exact Option.some.inj h ▸ .reacquired hp hr
      | error e =>
        rw [hr] at h
        exact Option.some.inj h ▸ .reacquireFails hp hr
    · cases h
  | drop =>
    simp only [step] at h
    split at h
    · exact Option.some.inj h ▸ .drop
    · cases h
  | release =>
    simp only [step] at h
    split at h
    · split at h
      · cases h
      · next hh =>
        split at h
        · exact Option.some.inj h ▸ @Step.release cfg s s.server (Bool.not_eq_true _ ▸ hh)
        · exact Option.some.inj h ▸ .release (Bool.not_eq_true _ ▸ hh)
    · cases h

/-! ## The clock

What the guards of `tick` give, whoever holds the lease. -/

/-- The phase has not lasted longer than it may. -/
def Timely (cfg : Config) (s : State) : Prop :=
  match s.phase with
  | .acquiring stream began _ =>
    began ≤ s.now ∧ (stream.broken = false → s.now ≤ began + cfg.prompt)
  | .waiting _ since => s.now ≤ since + period
  | .renewing st woke _ =>
    woke ≤ s.now ∧ (st.stream.broken = false → s.now ≤ woke + cfg.prompt)
  | .reacquiring _ began _ => began ≤ s.now ∧ s.now ≤ began + cfg.prompt
  | _ => True

theorem Step.timely {cfg : Config} {s s' : State} {a : Action}
    (h : Step cfg s a s') (hs : Timely cfg s) : Timely cfg s' := by
  unfold Timely at *
  cases h with
  | tick hlimit =>
    cases hp : s.phase <;>
      simp only [hp, Phase.limit, Option.mem_def] at hs hlimit ⊢ <;> grind
  | disconnect =>
    cases hp : s.phase <;> simp only [hp, Phase.disconnect] at hs ⊢ <;> grind
  | contend => exact hs
  | serveFirst hp => rw [hp] at hs; exact hs
  | serveAgain hp => rw [hp] at hs; exact hs
  | acquired hp hb hnext => exact Nat.le_add_right _ _
  | acquireBusy hp hnext => trivial
  | acquireBails hp => trivial
  | acquireFails => trivial
  | retry hp => exact ⟨le_rfl, fun _ => Nat.le_add_right _ _⟩
  | wake hp hnow => exact ⟨le_rfl, fun _ => Nat.le_add_right _ _⟩
  | serveRenew hp => rw [hp] at hs; exact hs
  | renewed hp hb hnext => exact Nat.le_add_right _ _
  | gone hp hb hnext => exact ⟨le_rfl, Nat.le_add_right _ _⟩
  | renewFails hp hb => exact ⟨le_rfl, Nat.le_add_right _ _⟩
  | serveStale => exact hs
  | reacquired hp hreply => exact Nat.le_add_right _ _
  | reacquireFails hp hreply => exact Nat.le_add_right _ _
  | drop => exact hs
  | release hh => trivial

/-! ## The lease while the holder has it -/

/-- **The slot is the holder's lease.** It expires a TTL after the last
request of the holder the server accepted; it can be empty only once that
instant has passed, since only then does a request sweep it. -/
def SlotKept (s : State) : Prop :=
  match s.server.state with
  | some held => held.ttl.dur = defaultTtl ∧ held.expiresAt = s.accepted + defaultTtl
  | none => s.accepted + defaultTtl ≤ s.now

/-- A lease in the slot has this id. -/
def Owns (s : State) (id : UInt64) : Prop :=
  ∀ held, s.server.state = some held → held.id = id

/-- Where the holder stands, by phase. On an intact connection every phase
is a bounded time away from the last accepted request, and a Renew that has
been answered was answered Ok; on a broken one nothing is known but that the
roundtrip of `reacquire`, which is on a fresh connection, is prompt. -/
def Standing (cfg : Config) (s : State) : Prop :=
  match s.phase with
  | .acquiring stream began reply =>
    ∃ id, reply = some (.granted id) ∧ began ≤ s.accepted
      ∧ (stream.broken = false → Owns s id)
  | .waiting st since =>
    st.stream.broken = false → since ≤ s.accepted + cfg.prompt ∧ Owns s st.id
  | .renewing st woke delivery =>
    st.stream.broken = false → Owns s st.id ∧
      match delivery with
      | .lost => False
      | .sent => woke ≤ s.accepted + cfg.prompt + period
      | .answered reply => reply = .ok ∧ woke ≤ s.accepted
  | .reacquiring st began reply =>
    st.stream.broken = true ∧
      ∀ id, reply = some (.granted id) → began ≤ s.accepted ∧ Owns s id
  | _ => False

/-- **The invariant of a lease that has not been stolen.** -/
structure Kept (cfg : Config) (s : State) : Prop where
  timely : Timely cfg s
  notStolen : s.stolen = false
  slot : s.holding = true → SlotKept s
  accepted_le : s.holding = true → s.accepted ≤ s.now
  standing : s.holding = true → Standing cfg s

theorem defaultTtl_eq : defaultTtl = 3 * period := by decide

/-- **On an intact connection the lease is renewed in time**: a period and
two prompt roundtrips are less than the TTL. -/
theorem Kept.now_lt {cfg : Config} {s : State} (hk : Kept cfg s)
    (hprompt : cfg.prompt < period) (hh : s.holding = true)
    (hb : s.phase.broken = false) : s.now < s.accepted + defaultTtl := by
  have ht := hk.timely
  have hs := hk.standing hh
  rw [defaultTtl_eq]
  unfold Timely Standing at *
  cases hp : s.phase with
  | acquiring stream began reply =>
    simp only [hp, Phase.broken] at ht hs hb
    obtain ⟨id, -, hle, -⟩ := hs
    have := ht.2 hb
    omega
  | waiting st since =>
    simp only [hp, Phase.broken] at ht hs hb
    have := (hs hb).1
    omega
  | renewing st woke delivery =>
    simp only [hp, Phase.broken] at ht hs hb
    have hnow := ht.2 hb
    have hd := (hs hb).2
    cases delivery with
    | lost => exact absurd hd not_false
    | sent => simp only at hd; omega
    | answered reply => have := hd.2; omega
  | reacquiring st began reply =>
    simp only [hp, Phase.broken] at hs hb
    exact absurd hs.1 (by simp [hb])
  | _ => simp only [hp] at hs

/-- While the slot's lease has not expired, the server sees it. -/
theorem SlotKept.live_eq {s : State} (hs : SlotKept s)
    (hnow : s.now < s.accepted + defaultTtl) :
    ∃ held, s.server.live s.now = some held ∧ s.server.state = some held
      ∧ held.ttl.dur = defaultTtl := by
  unfold SlotKept at hs
  cases hstate : s.server.state with
  | none => rw [hstate] at hs; exact absurd hs (not_le.mpr hnow)
  | some held =>
    rw [hstate] at hs
    exact ⟨held, LeaseServer.live_eq_some.mpr ⟨hstate, hs.2 ▸ hnow⟩, rfl, hs.1⟩

/-- Once it has expired, the server sees the rig free. -/
theorem SlotKept.live_eq_none {s : State} (hs : SlotKept s)
    (hnow : s.accepted + defaultTtl ≤ s.now) : s.server.live s.now = none := by
  unfold SlotKept at hs
  cases hlive : s.server.live s.now with
  | none => rfl
  | some held =>
    obtain ⟨hstate, hexp⟩ := LeaseServer.live_eq_some.mp hlive
    rw [hstate] at hs
    omega

/-! ### What handling a Renew does to it -/

/-- A Renew leaves the slot the lease it was, whoever sent it: either it is
accepted and the expiry moves with `accepted`, or the slot is what was live
in it. -/
theorem SlotKept.serveRenew {s : State} (hs : SlotKept s) (id : UInt64) :
    SlotKept (s.serveRenew id) := by
  unfold SlotKept State.serveRenew State.handle
  by_cases hnow : s.now < s.accepted + defaultTtl
  · obtain ⟨held, hlive, hstate, httl⟩ := hs.live_eq hnow
    unfold SlotKept at hs
    rw [hstate] at hs
    by_cases hid : held.id = id
    · subst hid
      rw [LeaseServer.handle_renew_current hlive]
      exact ⟨httl, congrArg (s.now + ·) httl⟩
    · have hstale : ∀ held', s.server.live s.now = some held' → held'.id ≠ id := by
        simp [hlive, hid]
      rw [LeaseServer.handle_renew_stale hstale, hlive]
      exact hs
  · have hfree := hs.live_eq_none (not_lt.mp hnow)
    have hstale : ∀ held', s.server.live s.now = some held' → held'.id ≠ id := by
      simp [hfree]
    rw [LeaseServer.handle_renew_stale hstale, hfree]
    exact not_lt.mp hnow

/-- A Renew changes no id. -/
theorem Owns.serveRenew {s : State} {id : UInt64} (h : Owns s id) (id' : UInt64) :
    Owns (s.serveRenew id') id := by
  intro held' hheld'
  unfold State.serveRenew State.handle at hheld'
  cases hlive : s.server.live s.now with
  | none =>
    have hstale : ∀ held, s.server.live s.now = some held → held.id ≠ id' := by
      simp [hlive]
    rw [LeaseServer.handle_renew_stale hstale, hlive] at hheld'
    cases hheld'
  | some held =>
    have hid := h held (LeaseServer.live_eq_some.mp hlive).1
    by_cases hid' : held.id = id'
    · subst hid'
      rw [LeaseServer.handle_renew_current hlive] at hheld'
      exact Option.some.inj hheld' ▸ hid
    · have hstale : ∀ held, s.server.live s.now = some held → held.id ≠ id' := by
        simp [hlive, hid']
      rw [LeaseServer.handle_renew_stale hstale, hlive] at hheld'
      exact Option.some.inj hheld' ▸ hid

theorem accepted_le_serveRenew {s : State} (h : s.accepted ≤ s.now) (id : UInt64) :
    s.accepted ≤ (s.serveRenew id).accepted ∧ (s.serveRenew id).accepted ≤ s.now := by
  unfold State.serveRenew
  dsimp only
  split
  · exact ⟨h, le_rfl⟩
  · exact ⟨le_rfl, h⟩

/-- The holder's own Renew, arriving in time, is accepted. -/
theorem SlotKept.renew_ok {s : State} {id : UInt64} (hs : SlotKept s)
    (hnow : s.now < s.accepted + defaultTtl) (hid : Owns s id) :
    (s.handle 0 (.renew id)).2 = .ok ∧ (s.serveRenew id).accepted = s.now := by
  obtain ⟨held, hlive, hstate, -⟩ := hs.live_eq hnow
  have hok : (s.handle 0 (.renew id)).2 = .ok := by
    rw [State.handle, ← hid held hstate, LeaseServer.handle_renew_current hlive]
  exact ⟨hok, if_pos hok⟩

/-- Where the holder stands is unchanged by a later acceptance. -/
theorem Standing.serveRenew {cfg : Config} {s : State} (hs : Standing cfg s)
    (hle : s.accepted ≤ s.now) (id : UInt64) : Standing cfg (s.serveRenew id) := by
  have hacc := (accepted_le_serveRenew hle id).1
  have hphase : (s.serveRenew id).phase = s.phase := rfl
  unfold Standing at *
  rw [hphase]
  cases hp : s.phase with
  | acquiring stream began reply =>
    simp only [hp] at hs ⊢
    obtain ⟨id₁, hreply, hbegan, howns⟩ := hs
    exact ⟨id₁, hreply, hbegan.trans hacc, fun hb => (howns hb).serveRenew id⟩
  | waiting st since =>
    simp only [hp] at hs ⊢
    exact fun hb => ⟨by have := (hs hb).1; omega, (hs hb).2.serveRenew id⟩
  | renewing st woke delivery =>
    simp only [hp] at hs ⊢
    refine fun hb => ⟨(hs hb).1.serveRenew id, ?_⟩
    have hd := (hs hb).2
    cases delivery with
    | lost => exact hd
    | sent => simp only at hd ⊢; omega
    | answered reply => exact ⟨hd.1, hd.2.trans hacc⟩
  | reacquiring st began reply =>
    simp only [hp] at hs ⊢
    exact ⟨hs.1, fun id₁ hid₁ =>
      ⟨(hs.2 id₁ hid₁).1.trans hacc, (hs.2 id₁ hid₁).2.serveRenew id⟩⟩
  | _ => simp only [hp] at hs

/-! ### The step lemma -/

/-- **The condition.** A contender's Acquire that is handled while the
holder has the lease finds the holder's connection intact, or finds less than
the TTL gone since the last request of the holder the server accepted. -/
def Calm (s : State) (a : Action) : Prop :=
  match a with
  | .contend _ _ _ =>
    s.holding = true → s.phase.broken = false ∨ s.now < s.accepted + defaultTtl
  | _ => True

/-- Refusing an Acquire changes nothing. -/
theorem SlotKept.handle_acquire {s : State} (hs : SlotKept s)
    (hnow : s.now < s.accepted + defaultTtl) (minted : UInt64) (holder : String)
    (ttlS : UInt32) :
    (s.handle minted (.acquire holder ttlS)).1 = s.server
      ∧ (s.handle minted (.acquire holder ttlS)).2 ≠ .granted minted := by
  obtain ⟨held, hlive, hstate, -⟩ := hs.live_eq hnow
  rw [State.handle, LeaseServer.handle_acquire_live hlive]
  refine ⟨?_, by simp⟩
  rw [← hstate]

/-- An Acquire that is granted puts in the slot a lease that expires a TTL
later, under the id that was minted. -/
theorem handle_acquireRequest_free (cfg : Config) {s : State} (minted : UInt64)
    (hfree : s.server.live s.now = none) :
    ∃ held, s.handle minted (acquireRequest cfg.holder)
        = (⟨some held⟩, .granted minted)
      ∧ held.ttl.dur = defaultTtl ∧ held.expiresAt = s.now + defaultTtl
      ∧ held.id = minted :=
  ⟨_, LeaseServer.handle_acquire_free hfree _ _, clamp_acquire_ttl,
    congrArg (s.now + ·) clamp_acquire_ttl, rfl⟩

/-- What answered the holder's Acquire, and what it left: a grant of a lease
that runs from now, or anything else and no grant. -/
theorem handle_acquireRequest (cfg : Config) (s : State) (minted : UInt64) :
    (∃ held, s.handle minted (acquireRequest cfg.holder)
        = (⟨some held⟩, .granted minted)
      ∧ held.ttl.dur = defaultTtl ∧ held.expiresAt = s.now + defaultTtl
      ∧ held.id = minted)
    ∨ ∀ id, (s.handle minted (acquireRequest cfg.holder)).2 ≠ .granted id := by
  cases hlive : s.server.live s.now with
  | none => exact Or.inl (handle_acquireRequest_free cfg minted hlive)
  | some held =>
    refine Or.inr (fun id => ?_)
    rw [State.handle, acquireRequest, LeaseServer.handle_acquire_live hlive]
    simp

theorem reacquireReply_eq_ok {reply : LeaseReply} {id : UInt64}
    (h : reacquireReply reply = .ok id) : reply = .granted id := by
  cases reply <;> simp_all [reacquireReply]

theorem acquireReply_eq_granted {now deadline : ℕ} {reply : LeaseReply}
    {id : UInt64} (h : acquireReply now deadline reply = .granted id) :
    reply = .granted id := by
  cases reply <;> simp_all [acquireReply]
  split at h <;> cases h

theorem SlotKept.tick {s : State} (hs : SlotKept s) (d : ℕ) :
    SlotKept { s with now := s.now + d } := by
  unfold SlotKept at *
  cases hstate : s.server.state with
  | none => rw [hstate] at hs; exact hs.trans (Nat.le_add_right _ _)
  | some held => rw [hstate] at hs; exact hs

/-- A break takes away what is only known of an intact connection. -/
theorem Standing.disconnect {cfg : Config} {s : State} (hs : Standing cfg s) :
    Standing cfg { s with phase := s.phase.disconnect } := by
  unfold Standing at *
  cases hp : s.phase with
  | acquiring stream began reply =>
    simp only [hp] at hs
    obtain ⟨id, hreply, hbegan, -⟩ := hs
    exact ⟨id, hreply, hbegan, by simp⟩
  | waiting st since => exact fun hb => absurd hb (by simp)
  | renewing st woke delivery => exact fun hb => absurd hb (by simp)
  | reacquiring st began reply =>
    simp only [hp] at hs
    exact ⟨rfl, hs.2⟩
  | _ => simp only [hp] at hs

/-- **One step.** The invariant is kept by every step that meets the
condition. -/
theorem Step.kept {cfg : Config} (hprompt : cfg.prompt < period) {s s' : State}
    {a : Action} (h : Step cfg s a s') (hk : Kept cfg s) (hok : Calm s a) :
    Kept cfg s' := by
  have ht' := h.timely hk.timely
  have ht := hk.timely
  cases h with
  | tick hlimit =>
    exact ⟨ht', hk.notStolen, fun hh => (hk.slot hh).tick _,
      fun hh => (hk.accepted_le hh).trans (Nat.le_add_right _ _), hk.standing⟩
  | disconnect =>
    exact ⟨ht', hk.notStolen, hk.slot, hk.accepted_le,
      fun hh => (hk.standing hh).disconnect⟩
  | @contend holder ttlS minted =>
    by_cases hh : s.holding = true
    · -- the condition makes the slot live, so the Acquire is refused
      have hnow : s.now < s.accepted + defaultTtl :=
        (hok hh).elim (hk.now_lt hprompt hh) id
      obtain ⟨hserver, hreply⟩ := (hk.slot hh).handle_acquire hnow minted holder ttlS
      simp only [hserver, hreply, decide_false, Bool.and_false, Bool.or_false]
      exact hk
    · refine ⟨ht', ?_, fun h => absurd h hh, fun h => absurd h hh,
        fun h => absurd h hh⟩
      simp [hk.notStolen, hh]
  | @serveFirst minted stream began hp =>
    simp only [Timely, hp] at ht
    rcases handle_acquireRequest cfg s minted with ⟨held, heq, httl, hexp, hid⟩ | hbusy
    · simp only [heq, if_true]
      refine ⟨?_, hk.notStolen, fun _ => ⟨httl, hexp⟩, fun _ => le_rfl, fun _ => ?_⟩
      · exact ht
      · exact ⟨minted, rfl, ht.1, fun _ held' h' => Option.some.inj h' ▸ hid⟩
    · refine ⟨ht', hk.notStolen, ?_, ?_, ?_⟩ <;> simp [hbusy]
  | @serveAgain minted st began hp =>
    simp only [Timely, hp] at ht
    have hst := fun hh => hk.standing hh
    simp only [Standing, hp] at hst
    rcases handle_acquireRequest cfg s minted with ⟨held, heq, httl, hexp, hid⟩ | hbusy
    · simp only [heq, if_true]
      refine ⟨ht, hk.notStolen, fun _ => ⟨httl, hexp⟩, fun _ => le_rfl, fun hh => ?_⟩
      refine ⟨(hst hh).1, fun id hid' => ⟨ht.1, fun held' h' => ?_⟩⟩
      rw [← Option.some.inj h', hid]
      exact LeaseReply.granted.inj (Option.some.inj hid')
    · have hnow : s.holding = true → s.now < s.accepted + defaultTtl := by
        intro hh
        by_contra hcon
        obtain ⟨held, heq, -⟩ := handle_acquireRequest_free cfg minted
          ((hk.slot hh).live_eq_none (not_lt.mp hcon))
        exact hbusy minted (by rw [heq])
      refine ⟨ht', hk.notStolen, fun hh => ?_, fun hh => ?_, fun hh => ?_⟩
      · have hserver := ((hk.slot hh).handle_acquire (hnow hh) minted cfg.holder
          (UInt32.ofNat (Duration.asSecs defaultTtl))).1
        have hslot := hk.slot hh
        unfold SlotKept at hslot ⊢
        rw [← acquireRequest] at hserver
        simp only [if_neg (hbusy minted), hserver]
        exact hslot
      · simpa [hbusy] using hk.accepted_le hh
      · exact ⟨(hst hh).1, fun id hid => absurd (Option.some.inj hid) (hbusy id)⟩
  | @acquired stream began reply id hp hb hnext =>
    refine ⟨ht', hk.notStolen, hk.slot, hk.accepted_le, fun hh => ?_⟩
    have hst := hk.standing hh
    simp only [Timely, hp] at ht
    simp only [Standing, hp] at hst
    obtain ⟨id', hreply, hbegan, howns⟩ := hst
    obtain rfl := acquireReply_eq_granted hnext
    obtain rfl := LeaseReply.granted.inj (Option.some.inj hreply)
    refine fun _ => ⟨?_, howns hb⟩
    have := ht.2 hb
    show s.now ≤ s.accepted + cfg.prompt
    omega
  | acquireBusy hp hnext =>
    refine ⟨ht', hk.notStolen, hk.slot, hk.accepted_le, fun hh => ?_⟩
    -- a granted Acquire is not slept on
    have hst := hk.standing hh
    simp only [Standing, hp] at hst
    obtain ⟨id, hreply, -⟩ := hst
    rw [Option.some.inj hreply] at hnext
    cases hnext
  | acquireBails hp => exact ⟨ht', hk.notStolen, by simp, by simp, by simp⟩
  | acquireFails => exact ⟨ht', hk.notStolen, by simp, by simp, by simp⟩
  | retry hp =>
    refine ⟨ht', hk.notStolen, hk.slot, hk.accepted_le, fun hh => ?_⟩
    have hst := hk.standing hh
    simp only [Standing, hp] at hst
  | @wake st since hp hnow =>
    refine ⟨ht', hk.notStolen, hk.slot, hk.accepted_le, fun hh => ?_⟩
    have hst := hk.standing hh
    simp only [Standing, hp] at hst
    refine fun hb => ⟨(hst hb).2, ?_⟩
    have := (hst hb).1
    simp only [hb, Bool.false_eq_true, if_false]
    omega
  | @serveRenew st woke hp =>
    refine ⟨ht', hk.notStolen, fun hh => (hk.slot hh).serveRenew _,
      fun hh => (accepted_le_serveRenew (hk.accepted_le hh) _).2, fun hh => ?_⟩
    have hst := hk.standing hh
    simp only [Timely, hp] at ht
    simp only [Standing, hp] at hst
    refine fun hb => ⟨((hst hb).1).serveRenew _, ?_⟩
    have hnow := hk.now_lt hprompt hh (by rw [hp]; exact hb)
    obtain ⟨hreply, hacc⟩ := (hk.slot hh).renew_ok hnow (hst hb).1
    exact ⟨hreply, hacc ▸ ht.1⟩
  | @renewed st woke reply hp hb hnext =>
    refine ⟨ht', hk.notStolen, hk.slot, hk.accepted_le, fun hh => ?_⟩
    have hst := hk.standing hh
    simp only [Timely, hp] at ht
    simp only [Standing, hp] at hst
    refine fun hb => ⟨?_, (hst hb).1⟩
    have := ht.2 hb
    have := (hst hb).2.2
    show s.now ≤ s.accepted + cfg.prompt
    omega
  | gone hp hb hnext =>
    refine ⟨ht', hk.notStolen, hk.slot, hk.accepted_le, fun hh => ?_⟩
    -- on an intact connection the Renew was answered Ok
    have hst := hk.standing hh
    simp only [Standing, hp] at hst
    rw [(hst hb).2.1] at hnext
    cases hnext
  | renewFails hp hb =>
    exact ⟨ht', hk.notStolen, hk.slot, hk.accepted_le, fun _ => ⟨hb, by simp⟩⟩
  | serveStale =>
    exact ⟨ht', hk.notStolen, fun hh => (hk.slot hh).serveRenew _,
      fun hh => (accepted_le_serveRenew (hk.accepted_le hh) _).2,
      fun hh => (hk.standing hh).serveRenew (hk.accepted_le hh) _⟩
  | @reacquired st began reply id hp hreply =>
    refine ⟨ht', hk.notStolen, hk.slot, hk.accepted_le, fun hh => ?_⟩
    have hst := hk.standing hh
    simp only [Timely, hp] at ht
    simp only [Standing, hp] at hst
    obtain ⟨hbegan, howns⟩ := hst.2 id (congrArg some (reacquireReply_eq_ok hreply))
    refine fun _ => ⟨?_, howns⟩
    have := ht.2
    show s.now ≤ s.accepted + cfg.prompt
    omega
  | reacquireFails hp hreply =>
    refine ⟨ht', hk.notStolen, hk.slot, hk.accepted_le, fun hh => ?_⟩
    have hst := hk.standing hh
    simp only [Standing, hp] at hst
    exact fun hb => absurd hst.1 (by simp [hb])
  | drop => exact ⟨ht', hk.notStolen, by simp, by simp, by simp⟩
  | release hh =>
    exact ⟨ht', hk.notStolen, fun h => absurd h (by simp [hh]),
      fun h => absurd h (by simp [hh]), fun h => absurd h (by simp [hh])⟩

/-- A contender's Acquire that does not meet the condition is granted. -/
theorem Kept.calm_of_notStolen {cfg : Config} {s s' : State} {a : Action}
    (hk : Kept cfg s)
    (h : step cfg s a = some s') (hs' : s'.stolen = false) : Calm s a := by
  cases a with
  | contend holder ttlS minted =>
    intro hh
    by_contra hcon
    obtain ⟨-, hlate⟩ := not_or.mp hcon
    have hfree := (hk.slot hh).live_eq_none (not_lt.mp hlate)
    obtain rfl := Option.some.inj h
    simp [State.handle, LeaseServer.handle_acquire_free hfree, hh] at hs'
  | _ => trivial

theorem kept_of_initial {cfg : Config} {s : State} (h : s.Initial) : Kept cfg s := by
  obtain ⟨hphase, -, hholding, hstolen⟩ := h
  refine ⟨?_, hstolen, ?_, ?_, ?_⟩
  · simp only [Timely, hphase]
    exact ⟨le_rfl, fun _ => Nat.le_add_right _ _⟩
  all_goals simp [hholding]

/-- **When a held lease survives.** In every run in which a roundtrip on an
intact connection takes less than a third of the TTL, no contender is
granted the lease between the holder's grant and its drop if and only if
every Acquire of a contender that is handled in between finds the holder's
connection intact, or comes less than the TTL after the last request of the
holder the server accepted. -/
theorem no_contender_granted_iff (cfg : Config) (hprompt : cfg.prompt < period)
    (s : State) (hs : s.Initial) (run : List Action) :
    Transition.Always (step cfg) (fun s => s.stolen = false) s run
      ↔ Transition.Guarded (step cfg) Calm s run :=
  Transition.always_iff_guarded (fun _ hk => hk.notStolen)
    (fun _ _ _ hk hok h => (Step.of_step h).kept hprompt hk hok)
    (fun _ _ _ hk h hs' => hk.calm_of_notStolen h hs')
    (kept_of_initial hs)

/-- A connection stays intact until it breaks. -/
theorem Step.unbroken {cfg : Config} {s s' : State} {a : Action}
    (h : Step cfg s a s') (ha : a ≠ .disconnect) (hb : s.phase.broken = false) :
    s'.phase.broken = false := by
  cases h with
  | disconnect => exact absurd rfl ha
  | tick hlimit => exact hb
  | contend => exact hb
  | serveStale => exact hb
  | drop => exact hb
  | acquireBails hp => rfl
  | acquireFails => rfl
  | release hh => rfl
  | acquired hp hb' hnext => exact hb'
  | reacquired hp hreply => rfl
  | serveFirst hp | serveAgain hp | acquireBusy hp hnext | retry hp | wake hp hnow
  | serveRenew hp | renewed hp hb' hnext | gone hp hb' hnext | renewFails hp hb'
  | reacquireFails hp hreply =>
    rw [hp] at hb
    exact hb

/-- **Without a break the lease is kept**, whatever the contenders do. -/
theorem no_contender_granted_of_unbroken (cfg : Config)
    (hprompt : cfg.prompt < period) (s : State) (hs : s.Initial)
    (run : List Action) (hrun : ∀ a ∈ run, a ≠ .disconnect) :
    Transition.Always (step cfg) (fun s => s.stolen = false) s run := by
  have hb : s.phase.broken = false := by rw [hs.1]; rfl
  refine Transition.Always.of_guarded
    (I := fun s => Kept cfg s ∧ s.phase.broken = false)
    (fun _ hk => hk.1.notStolen) (fun s a s' hk ha h => ?_)
    ⟨kept_of_initial hs, hb⟩ (Transition.Guarded.of_forall hrun s)
  have hcalm : Calm s a := by
    cases a with
    | contend holder ttlS minted => exact fun _ => Or.inl hk.2
    | _ => trivial
  exact ⟨(Step.of_step h).kept hprompt hk.1 hcalm, (Step.of_step h).unbroken ha hk.2⟩

/-! ### A break that loses the lease -/

/-- A holder whose roundtrips take a millisecond. -/
def promptHolder : Config := ⟨"holder", Duration.fromSecs 300, 1000000⟩

/-- The holder connects to a server whose rig is free. -/
def freeRig : State :=
  ⟨0, LeaseServer.new, .acquiring ⟨false⟩ 0 none, [], false, 0, false⟩

/-- One iteration of the loop on a broken connection: the Renew fails, the
fresh connection's Acquire is answered, and the loop waits again. -/
def brokenIteration : List Action :=
  [.tick period, .wake, .renewFails false, .serveAcquire 8, .reacquireReturns]

/-- The connection breaks once, right after the grant; a contender asks a
minute later. -/
def breakRun : List Action :=
  [.serveAcquire 7, .acquireReturns, .disconnect] ++ brokenIteration
    ++ brokenIteration ++ [.tick period, .contend "contender" 60 9]

/-- **The lease does not survive a broken connection.** The holder reconnects
and asks for the lease twice before it runs out, is refused both times
because it holds it, and loses it to the contender. -/
theorem break_loses_the_lease :
    ¬ ∀ (cfg : Config) (s : State) (run : List Action), cfg.prompt < period →
        s.Initial →
        Transition.Always (step cfg) (fun s => s.stolen = false) s run := by
  intro h
  have hrun := h promptHolder freeRig breakRun (by decide) ⟨rfl, rfl, rfl, rfl⟩
  have hend : (Transition.run (step promptHolder) freeRig breakRun).map State.stolen
      = some true := by decide +kernel
  obtain ⟨s, hs, hstolen⟩ := Option.map_eq_some_iff.mp hend
  exact absurd (hrun.last hs) (by simp [hstolen])

/-- The same run with an intact connection keeps its lease: the renewals of
the first and the second third of the minute are accepted. -/
def intactRun : List Action :=
  [.serveAcquire 7, .acquireReturns, .tick period, .wake, .serveRenew,
    .renewReturns, .tick period, .wake, .serveRenew, .renewReturns,
    .tick period, .contend "contender" 60 9, .drop, .release]

theorem intactRun_keeps_the_lease :
    freeRig.Initial ∧ promptHolder.prompt < period
      ∧ ((Transition.run (step promptHolder) freeRig intactRun).isSome = true)
      ∧ (Transition.Always (step promptHolder) (fun s => s.stolen = false) freeRig
            intactRun
          ↔ Transition.Guarded (step promptHolder) Calm freeRig intactRun) :=
  ⟨⟨rfl, rfl, rfl, rfl⟩, by decide, by decide +kernel,
    no_contender_granted_iff promptHolder (by decide) freeRig ⟨rfl, rfl, rfl, rfl⟩
      intactRun⟩

end Survival

end Banc
