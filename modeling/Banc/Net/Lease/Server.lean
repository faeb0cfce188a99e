import Mathlib.Order.Basic
import Mathlib.Order.Lattice
import Mathlib.Tactic.Common

/-!
# The lease server

The server half of the rig lease (`banc-host/src/net/lease.rs`): the two
message types of the protocol, the single slot a `LeaseServer` keeps, and
`LeaseServer.handle`, which answers one request.

Expiry is lazy. The slot keeps the instant it expires at, and nothing
happens at that instant: the next request to arrive, whatever it asks,
empties a slot whose instant has passed before it is answered
(`LeaseServer.sweep`). Reading the holder does not empty it, so
`LeaseServer.holder` filters instead. Both look at the same thing, the
slot *as read at an instant* – `LeaseServer.live` – and the lemmas at the
end say what each request answers and leaves behind in terms of it.

The clock and the random number generator are arguments: a call of `handle`
takes the instant `Instant::now()` reads inside the lock and the id
`mint_lease_id` would draw. Instants and durations are numbers of
nanoseconds.
-/

namespace Banc

/-- `Duration::from_secs`. -/
def Duration.fromSecs (s : ℕ) : ℕ := s * 1000000000

/-- `Duration::as_secs`: the whole seconds of a span. -/
def Duration.asSecs (d : ℕ) : ℕ := d / 1000000000

/-- A request of the lease protocol. -/
inductive LeaseRequest where
  | acquire (holder : String) (ttlS : UInt32)
  | renew (id : UInt64)
  | release (id : UInt64)
  /-- Who holds the lease, without contending for it. -/
  | status
  deriving DecidableEq, Repr

/-- A reply of the lease protocol. -/
inductive LeaseReply where
  | granted (id : UInt64)
  /-- Someone else holds the lease. -/
  | busy (holder : String) (expiresInS : UInt32)
  /-- Renew and Release acknowledged. -/
  | ok
  /-- The lease id is not current. -/
  | gone
  /-- The current holder, `none` when the rig is free. -/
  | status (holder : Option String) (expiresInS : UInt32)
  deriving DecidableEq, Repr

/-- The time to live of a lease. The server clamps what it is asked for, so
a held lease never has one outside these bounds. -/
structure Ttl where
  dur : ℕ
  ge : Duration.fromSecs 5 ≤ dur
  le : dur ≤ Duration.fromSecs 3600
  deriving DecidableEq

/-- `Duration::from_secs(ttl_s.clamp(5, 3600) as u64)`. -/
def Ttl.clamp (ttlS : UInt32) : Ttl where
  dur := Duration.fromSecs (max 5 (min ttlS.toNat 3600))
  ge := Nat.mul_le_mul_right _ (le_max_left _ _)
  le := Nat.mul_le_mul_right _ (max_le (by decide) (min_le_right _ _))

/-- The lease in the slot. -/
structure Held where
  id : UInt64
  holder : String
  expiresAt : ℕ
  ttl : Ttl
  deriving DecidableEq

/-- `held.expires_at.saturating_duration_since(now).as_secs() as u32`. -/
def Held.expiresInS (held : Held) (now : ℕ) : UInt32 :=
  UInt32.ofNat (Duration.asSecs (held.expiresAt - now))

/-- Single-slot lease state of a rig daemon. -/
structure LeaseServer where
  state : Option Held
  deriving DecidableEq

namespace LeaseServer

/-- `LeaseServer::new`: nobody holds the rig. -/
def new : LeaseServer := ⟨none⟩

/-- The slot as read at an instant: the lease in it, unless it has
expired. -/
def live (srv : LeaseServer) (now : ℕ) : Option Held :=
  srv.state.filter (fun h => now < h.expiresAt)

/-- Who currently holds the lease, if anyone. -/
def holder (srv : LeaseServer) (now : ℕ) : Option String :=
  (srv.live now).map Held.holder

/-- The first thing `handle` does: empty a slot that has expired. -/
def sweep (srv : LeaseServer) (now : ℕ) : Option Held :=
  if srv.state.any (fun h => h.expiresAt ≤ now) then none else srv.state

/-- Answer one request, handled at `now`; `minted` is the id the random
number generator draws if the request is granted. -/
def handle (srv : LeaseServer) (now : ℕ) (minted : UInt64)
    (req : LeaseRequest) : LeaseServer × LeaseReply :=
  let state := srv.sweep now
  match req with
  | .acquire holder ttlS =>
    match state with
    | some held => (⟨state⟩, .busy held.holder (held.expiresInS now))
    | none =>
      let ttl := Ttl.clamp ttlS
      (⟨some { id := minted, holder, expiresAt := now + ttl.dur, ttl }⟩,
        .granted minted)
  | .renew id =>
    match state with
    | some held =>
      if held.id = id then
        (⟨some { held with expiresAt := now + held.ttl.dur }⟩, .ok)
      else (⟨state⟩, .gone)
    | none => (⟨state⟩, .gone)
  | .release id =>
    if state.any (fun h => h.id = id) then (⟨none⟩, .ok) else (⟨state⟩, .ok)
  | .status =>
    match state with
    | some held => (⟨state⟩, .status (some held.holder) (held.expiresInS now))
    | none => (⟨state⟩, .status none 0)

/-! ## What a request answers, by what is live when it arrives -/

/-- `sweep` leaves what is live. -/
theorem sweep_eq_live (srv : LeaseServer) (now : ℕ) :
    srv.sweep now = srv.live now := by
  unfold sweep live
  cases srv.state with
  | none => rfl
  | some held => by_cases h : held.expiresAt ≤ now <;> simp [Option.filter, h]

/-- Live is what has not run out. -/
theorem live_eq_some {srv : LeaseServer} {now : ℕ} {held : Held} :
    srv.live now = some held ↔ srv.state = some held ∧ now < held.expiresAt := by
  simp [live]

section Handle

variable {srv : LeaseServer} {now : ℕ} {minted : UInt64}

/-- Who asks while it is held is told by whom, and for how long. -/
theorem handle_acquire_live {held : Held} (h : srv.live now = some held)
    (holder : String) (ttlS : UInt32) :
    srv.handle now minted (.acquire holder ttlS)
      = (⟨some held⟩, .busy held.holder (held.expiresInS now)) := by
  simp only [handle, sweep_eq_live, h]

/-- Who asks while it is free has it. -/
theorem handle_acquire_free (h : srv.live now = none)
    (holder : String) (ttlS : UInt32) :
    srv.handle now minted (.acquire holder ttlS)
      = (⟨some ⟨minted, holder, now + (Ttl.clamp ttlS).dur, Ttl.clamp ttlS⟩⟩,
        .granted minted) := by
  simp only [handle, sweep_eq_live, h]

/-- The holder's Renew begins the time anew. -/
theorem handle_renew_current {held : Held} (h : srv.live now = some held) :
    srv.handle now minted (.renew held.id)
      = (⟨some { held with expiresAt := now + held.ttl.dur }⟩, .ok) := by
  simp only [handle, sweep_eq_live, h, if_true]

/-- Anybody else's finds it gone. -/
theorem handle_renew_stale {id : UInt64}
    (h : ∀ held, srv.live now = some held → held.id ≠ id) :
    srv.handle now minted (.renew id) = (⟨srv.live now⟩, .gone) := by
  simp only [handle, sweep_eq_live]
  cases hl : srv.live now with
  | none => rfl
  | some held => simp only [h held hl, if_false]

/-- The holder's Release frees it. -/
theorem handle_release_current {held : Held} (h : srv.live now = some held) :
    srv.handle now minted (.release held.id) = (⟨none⟩, .ok) := by
  simp [handle, sweep_eq_live, h]

/-- Anybody else's is answered the same and frees nothing. -/
theorem handle_release_stale {id : UInt64}
    (h : ∀ held, srv.live now = some held → held.id ≠ id) :
    srv.handle now minted (.release id) = (⟨srv.live now⟩, .ok) := by
  simp only [handle, sweep_eq_live]
  cases hl : srv.live now with
  | none => rfl
  | some held => simp [h held hl]

/-- A Status tells the holder and the time left. -/
theorem handle_status_live {held : Held} (h : srv.live now = some held) :
    srv.handle now minted .status
      = (⟨some held⟩, .status (some held.holder) (held.expiresInS now)) := by
  simp only [handle, sweep_eq_live, h]

/-- Or that there is none. -/
theorem handle_status_free (h : srv.live now = none) :
    srv.handle now minted .status = (⟨none⟩, .status none 0) := by
  simp only [handle, sweep_eq_live, h]

end Handle

end LeaseServer

end Banc
