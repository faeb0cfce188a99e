import Banc.Lib.Postcard
import Banc.Net.Lease.Server

/-!
# Lease messages on the wire

Requests and replies travel as postcard messages, one to a frame. Postcard is
not part of the repository, so what is proved over bytes takes the codec as a
parameter, with the properties of the format it rests on: an encoding
decodes to what was encoded, none of its strict prefixes decodes at all, and
what does decode is a value a program can hold (`LeaseCodec.Exact`).

`LeaseCodec.postcard` is the format itself – an enum as the index of its
variant and then its fields, in the order of their declaration – and has that
property.
-/

namespace Banc

/-- A string a program can hold: its length in bytes is a `usize`. -/
def Representable (s : String) : Prop := s.utf8ByteSize < 2 ^ 64

instance : DecidablePred Representable := fun _ => inferInstanceAs (Decidable (_ < _))

/-- A request a program can hold. -/
def LeaseRequest.Representable : LeaseRequest → Prop
  | .acquire holder _ => Banc.Representable holder
  | _ => True

instance : DecidablePred LeaseRequest.Representable
  | .acquire holder _ => inferInstanceAs (Decidable (Banc.Representable holder))
  | .renew _ => isTrue trivial
  | .release _ => isTrue trivial
  | .status => isTrue trivial

/-- A reply a program can hold. -/
def LeaseReply.Representable : LeaseReply → Prop
  | .busy holder _ => Banc.Representable holder
  | .status (some holder) _ => Banc.Representable holder
  | _ => True

/-- A server whose slot a program can hold. -/
def LeaseServer.Representable (srv : LeaseServer) : Prop :=
  ∀ held ∈ srv.state, Banc.Representable held.holder

theorem LeaseServer.Representable.live {srv : LeaseServer}
    (h : srv.Representable) {now : ℕ} {held : Held}
    (hlive : srv.live now = some held) : Banc.Representable held.holder :=
  h held (LeaseServer.live_eq_some.mp hlive).1

/-- The server makes up no strings. -/
theorem LeaseServer.Representable.handle {srv : LeaseServer}
    (h : srv.Representable) (now : ℕ) (minted : UInt64) {req : LeaseRequest}
    (hreq : req.Representable) :
    (srv.handle now minted req).1.Representable
      ∧ (srv.handle now minted req).2.Representable := by
  have hsome {held : Held} (hheld : Banc.Representable held.holder) :
      (LeaseServer.mk (some held)).Representable := by
    rintro _ ⟨⟩
    exact hheld
  have hnone : (LeaseServer.mk none).Representable := by
    rintro _ ⟨⟩
  have hstate : (LeaseServer.mk (srv.live now)).Representable :=
    fun held hheld => h.live hheld
  cases req with
  | acquire holder ttlS =>
    cases hlive : srv.live now with
    | none =>
      rw [LeaseServer.handle_acquire_free hlive]
      exact ⟨hsome hreq, trivial⟩
    | some held =>
      rw [LeaseServer.handle_acquire_live hlive]
      exact ⟨hsome (h.live hlive), h.live hlive⟩
  | renew id =>
    by_cases hid : ∃ held, srv.live now = some held ∧ held.id = id
    · obtain ⟨held, hlive, rfl⟩ := hid
      have hholder := h.live hlive
      rw [LeaseServer.handle_renew_current hlive]
      exact ⟨hsome hholder, trivial⟩
    · rw [LeaseServer.handle_renew_stale
        (fun held hlive hheld => hid ⟨held, hlive, hheld⟩)]
      exact ⟨hstate, trivial⟩
  | release id =>
    by_cases hid : ∃ held, srv.live now = some held ∧ held.id = id
    · obtain ⟨held, hlive, rfl⟩ := hid
      rw [LeaseServer.handle_release_current hlive]
      exact ⟨hnone, trivial⟩
    · rw [LeaseServer.handle_release_stale
        (fun held hlive hheld => hid ⟨held, hlive, hheld⟩)]
      exact ⟨hstate, trivial⟩
  | status =>
    cases hlive : srv.live now with
    | none =>
      rw [LeaseServer.handle_status_free hlive]
      exact ⟨hnone, trivial⟩
    | some held =>
      rw [LeaseServer.handle_status_live hlive]
      exact ⟨hsome (h.live hlive), h.live hlive⟩

/-- `postcard::to_stdvec` and `postcard::from_bytes`, at the two message
types. -/
structure LeaseCodec where
  encodeRequest : LeaseRequest → List UInt8
  decodeRequest : List UInt8 → Option LeaseRequest
  encodeReply : LeaseReply → List UInt8
  decodeReply : List UInt8 → Option LeaseReply

/-- A codec whose encodings decode, and whose truncated encodings do not;
what decodes is a value. -/
structure LeaseCodec.Exact (codec : LeaseCodec) : Prop where
  request_whole : ∀ req : LeaseRequest, req.Representable →
    codec.decodeRequest (codec.encodeRequest req) = some req
  request_cut : ∀ req : LeaseRequest, req.Representable →
    ∀ n < (codec.encodeRequest req).length,
      codec.decodeRequest ((codec.encodeRequest req).take n) = none
  request_representable : ∀ (bs : List UInt8) (req : LeaseRequest),
    codec.decodeRequest bs = some req → req.Representable
  reply_whole : ∀ reply : LeaseReply, reply.Representable →
    codec.decodeReply (codec.encodeReply reply) = some reply
  reply_cut : ∀ reply : LeaseReply, reply.Representable →
    ∀ n < (codec.encodeReply reply).length,
      codec.decodeReply ((codec.encodeReply reply).take n) = none

/-! ## The postcard format -/

open Postcard

/-- The encoding of a request. -/
def LeaseRequest.toPostcard : LeaseRequest → List UInt8
  | .acquire holder ttlS => varint 5 0 ++ (string holder ++ u32 ttlS)
  | .renew id => varint 5 1 ++ u64 id
  | .release id => varint 5 2 ++ u64 id
  | .status => varint 5 3

/-- Read a request. -/
def readLeaseRequest : Reader LeaseRequest := do
  let tag ← readUint 5 32
  match tag with
  | 0 => do
    let holder ← readString
    let ttlS ← readU32
    pure (.acquire holder ttlS)
  | 1 => do
    let id ← readU64
    pure (.renew id)
  | 2 => do
    let id ← readU64
    pure (.release id)
  | 3 => pure .status
  | _ => lift none

/-- The encoding of a reply. -/
def LeaseReply.toPostcard : LeaseReply → List UInt8
  | .granted id => varint 5 0 ++ u64 id
  | .busy holder expiresInS => varint 5 1 ++ (string holder ++ u32 expiresInS)
  | .ok => varint 5 2
  | .gone => varint 5 3
  | .status holder expiresInS =>
    varint 5 4 ++ (option string holder ++ u32 expiresInS)

/-- Read a reply. -/
def readLeaseReply : Reader LeaseReply := do
  let tag ← readUint 5 32
  match tag with
  | 0 => do
    let id ← readU64
    pure (.granted id)
  | 1 => do
    let holder ← readString
    let expiresInS ← readU32
    pure (.busy holder expiresInS)
  | 2 => pure .ok
  | 3 => pure .gone
  | 4 => do
    let holder ← readOption readString
    let expiresInS ← readU32
    pure (.status holder expiresInS)
  | _ => lift none

/-- Postcard, at the two message types. -/
def LeaseCodec.postcard : LeaseCodec where
  encodeRequest := LeaseRequest.toPostcard
  decodeRequest := fromBytes readLeaseRequest
  encodeReply := LeaseReply.toPostcard
  decodeReply := fromBytes readLeaseReply

theorem Representable.reads {s : String} (hs : Representable s) :
    Reads readString (string s) s := by
  refine reads_string ?_
  exact hs

theorem reads_leaseRequest {req : LeaseRequest} (hreq : req.Representable) :
    Reads readLeaseRequest req.toPostcard req := by
  cases req with
  | acquire holder ttlS =>
    refine (reads_tag 0 (by decide)).bind ?_
    exact hreq.reads.bind ((reads_u32 ttlS).map _)
  | renew id => exact (reads_tag 1 (by decide)).bind ((reads_u64 id).map _)
  | release id => exact (reads_tag 2 (by decide)).bind ((reads_u64 id).map _)
  | status =>
    exact (reads_tag 3 (by decide)).last (Reads.pure LeaseRequest.status)

theorem yields_leaseRequest : Yields readLeaseRequest LeaseRequest.Representable := by
  have hany {α : Type} (p : Reader α) : Yields p (fun _ => True) :=
    Yields.of_forall (fun _ => trivial) p
  refine (hany _).bind (fun tag _ => ?_)
  split
  · exact yields_string.bind (fun holder hholder =>
      (hany _).bind (fun ttlS _ => Yields.pure hholder))
  · exact (hany _).bind (fun id _ => Yields.pure trivial)
  · exact (hany _).bind (fun id _ => Yields.pure trivial)
  · exact Yields.pure trivial
  · exact yields_lift (fun _ hnone => by simp at hnone)

theorem reads_leaseReply {reply : LeaseReply} (hreply : reply.Representable) :
    Reads readLeaseReply reply.toPostcard reply := by
  cases reply with
  | granted id => exact (reads_tag 0 (by decide)).bind ((reads_u64 id).map _)
  | busy holder expiresInS =>
    refine (reads_tag 1 (by decide)).bind ?_
    exact hreply.reads.bind ((reads_u32 expiresInS).map _)
  | ok => exact (reads_tag 2 (by decide)).last (Reads.pure LeaseReply.ok)
  | gone => exact (reads_tag 3 (by decide)).last (Reads.pure LeaseReply.gone)
  | status holder expiresInS =>
    refine (reads_tag 4 (by decide)).bind ?_
    cases holder with
    | none =>
      exact (reads_option_none readString string).bind
        ((reads_u32 expiresInS).map _)
    | some holder =>
      exact (reads_option_some hreply.reads).bind ((reads_u32 expiresInS).map _)

/-- **Postcard is exact.** -/
theorem LeaseCodec.postcard_exact : LeaseCodec.postcard.Exact where
  request_whole _ hreq := (reads_leaseRequest hreq).fromBytes
  request_cut _ hreq _ hn := (reads_leaseRequest hreq).fromBytes_take hn
  request_representable _ _ h := yields_leaseRequest.fromBytes h
  reply_whole _ hreply := (reads_leaseReply hreply).fromBytes
  reply_cut _ hreply _ hn := (reads_leaseReply hreply).fromBytes_take hn

end Banc
