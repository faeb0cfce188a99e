import Banc.Net.Lease.Server

/-!
# The lease client

The client half of the rig lease: what `LeaseClient::acquire`, `renew_loop`
and `reacquire` do with the outcome of a roundtrip. None of it depends on
what a stream is or on why a roundtrip fails, so the stream is a type
variable here; the systems of `Banc.Net.Lease.Survival` (where it is a
connection that may break) and of `Banc.Net.Lease.Pairing` (where it is two
streams of bytes) run this code over theirs.

Two of its decisions matter below. A failed Renew leads to `reacquire`,
which opens a *fresh* connection and sends an *Acquire* on it. And when that
does not come back Granted, the loop goes on with the stream and the id it
had (`Renewing.afterReacquire`).
-/

namespace Banc

/-- `DEFAULT_TTL`. -/
def defaultTtl : ℕ := Duration.fromSecs 60

/-- The `period` of `renew_loop`: a third of the TTL. -/
def period : ℕ := defaultTtl / 3

/-- Why a step of the client did not go through. -/
inductive LeaseError where
  /-- Connecting, writing, reading or decoding failed. -/
  | io
  /-- `lease now held by '{other}'`. -/
  | heldBy (other : String)
  /-- `rig lease held by '{other}' (expires in {expires_in_s}s), gave up`. -/
  | gaveUp (other : String) (expiresInS : UInt32)
  /-- `unexpected reply to Acquire: {other:?}`. -/
  | unexpected (other : LeaseReply)
  deriving DecidableEq, Repr

/-- The Acquire both `acquire` and `reacquire` send. -/
def acquireRequest (holder : String) : LeaseRequest :=
  .acquire holder (UInt32.ofNat (Duration.asSecs defaultTtl))

/-- What the loop of `LeaseClient::acquire` does with a reply. -/
inductive AcquireNext where
  | granted (id : UInt64)
  | sleep
  | bail (e : LeaseError)
  deriving DecidableEq, Repr

/-- The `match` of the loop of `LeaseClient::acquire`, at the instant the
reply came back. -/
def acquireReply (now deadline : ℕ) : LeaseReply → AcquireNext
  | .granted id => .granted id
  | .busy other expiresInS =>
    if deadline ≤ now then .bail (.gaveUp other expiresInS) else .sleep
  | other => .bail (.unexpected other)

/-- The `match` of `reacquire`. -/
def reacquireReply : LeaseReply → Except LeaseError UInt64
  | .granted id => .ok id
  | .busy other _ => .error (.heldBy other)
  | other => .error (.unexpected other)

/-- What `renew_loop` carries from one iteration to the next. -/
structure Renewing (S : Type) where
  stream : S
  id : UInt64
  deriving DecidableEq, Repr

/-- Whether `renew_loop` calls `reacquire` after a Renew roundtrip: when the
lease is gone and when the roundtrip failed, but not on a reply it did not
expect. -/
def reacquires : Except LeaseError LeaseReply → Bool
  | .ok .ok => false
  | .ok .gone => true
  | .ok _ => false
  | .error _ => true

/-- What `renew_loop` goes on with after `reacquire`: the new stream and id,
or, where that failed, the ones it had. -/
def Renewing.afterReacquire {S : Type} (st : Renewing S) :
    Except LeaseError (S × UInt64) → Renewing S
  | .ok (stream, id) => ⟨stream, id⟩
  | .error _ => st

/-- The TTL the client asks for is the one it is granted: it lies within the
bounds the server clamps to. -/
theorem clamp_acquire_ttl :
    (Ttl.clamp (UInt32.ofNat (Duration.asSecs defaultTtl))).dur = defaultTtl := by
  decide

end Banc
