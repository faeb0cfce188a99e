import Banc.Lib.PostcardSize
import Banc.Net.Lease.Eager
import Banc.Net.Lease.Wire
import Banc.Net.Stream

/-!
# How long a reply is

A request arrives in a frame of at most `MAX_FRAME` bytes; does the reply to it
fit one? The only thing in a reply without a bound of its own is the holder's
name, and that has come in a request: with the name, the request carried at
least the byte of its tag and the time to live that was asked for.

`Busy` carries no more than that. Its tag is as long, and the seconds it reports
are at most those of the lease, which the server has clamped to what takes no
more bytes than what was asked for. `Status` carries one byte more, the tag of
its option, and that byte may be one too many: a name can be so long that the
`Acquire` just fits and the `Status` does not (`longName_refused`). Which
replies fit is said exactly (`replies_carried_iff`).
-/

namespace Banc

open Chunked Postcard

/-- **The reply reaches the client**: its encoding is within the limit, so that
the `debug_assert!` of `write_frame` holds and `read_frame_sync` returns it. -/
structure LeaseReply.Carried (reply : LeaseReply) : Prop where
  fits : reply.toPostcard.length ≤ maxFrame
  written : writeFrame true reply.toPostcard = some (frame reply.toPostcard)
  accepted : ∀ (stream : Stream) (later : List UInt8),
    contents stream = frame reply.toPostcard ++ later →
    (Io.blocking.readFrame stream).1 = .ok reply.toPostcard

/-- A reply is carried exactly if it fits a frame. -/
theorem LeaseReply.carried_iff {reply : LeaseReply} :
    reply.Carried ↔ reply.toPostcard.length ≤ maxFrame := by
  refine ⟨Carried.fits, fun h => ⟨h, Io.blocking.writeFrame_eq h, fun stream later hs => ?_⟩⟩
  obtain ⟨rest, hread, -⟩ := Io.blocking.readFrame_frame h hs
  rw [hread]

/-- **The request arrived in a frame** within the limit. -/
def LeaseRequest.Arrived (req : LeaseRequest) : Prop :=
  ∃ data, data.length ≤ maxFrame ∧ fromBytes readLeaseRequest data = some req

/-- A request that was read would not take more to write. -/
theorem takes_leaseRequest : Takes 0 readLeaseRequest (fun req => req.toPostcard.length) := by
  refine (takes_uint 5 32).bind (fun tag => ?_)
  split
  · refine takes_string.bind (fun holder => takes_u32.bind (fun ttlS => Takes.pure ?_))
    simp only [LeaseRequest.toPostcard, List.length_append]
    omega
  · refine takes_u64.bind (fun id => Takes.pure ?_)
    simp only [LeaseRequest.toPostcard, List.length_append]
    omega
  · refine takes_u64.bind (fun id => Takes.pure ?_)
    simp only [LeaseRequest.toPostcard, List.length_append]
    omega
  · exact Takes.pure (Nat.zero_add _).ge
  · exact Takes.lift (fun _ hnone => by simp at hnone)

/-- The encoding of a request is within the limit its frame was. -/
theorem LeaseRequest.Arrived.length_le {req : LeaseRequest} (h : req.Arrived) :
    req.toPostcard.length ≤ maxFrame := by
  obtain ⟨data, hdata, hdecode⟩ := h
  exact (takes_leaseRequest.fromBytes hdecode).trans hdata

/-! ## What a lease takes -/

/-- The number in a request takes a byte at least. -/
theorem length_u32_pos (n : UInt32) : 0 < (u32 n).length :=
  length_varint_pos (by decide)

/-- The seconds of a clamped time to live take no more bytes than those asked
for. -/
theorem length_u32_clamp {secs ttlS : UInt32}
    (h : secs.toNat ≤ max 5 (min ttlS.toNat 3600)) :
    (u32 secs).length ≤ (u32 ttlS).length := by
  by_cases hle : secs.toNat ≤ ttlS.toNat
  · exact length_varint_mono 5 hle
  · have hone : (u32 secs).length = 1 := length_varint_one (by decide) (by omega)
    rw [hone]
    exact length_u32_pos ttlS

/-- **The lease came in a frame**: its holder's name with some time to live is
an `Acquire` within the limit, and the lease has no more than that left. -/
structure Held.Framed (held : Held) (now : ℕ) : Prop where
  framed : ∃ ttlS, (LeaseRequest.acquire held.holder ttlS).toPostcard.length ≤ maxFrame
    ∧ held.ttl = Ttl.clamp ttlS
  left : held.expiresAt ≤ now + held.ttl.dur

namespace Held.Framed

variable {held : Held} {now t : ℕ}

/-- The time that is left only gets less. -/
theorem mono (h : held.Framed now) (ht : now ≤ t) : held.Framed t :=
  ⟨h.framed, h.left.trans (Nat.add_le_add_right ht _)⟩

/-- A renewal brings back the time it had. -/
theorem renewed (h : held.Framed now) :
    Held.Framed { held with expiresAt := t + held.ttl.dur } t :=
  ⟨h.framed, le_rfl⟩

/-- A request that has arrived has a holder that leaves room for the id. -/
theorem granted {holder : String} {ttlS : UInt32}
    (h : (LeaseRequest.acquire holder ttlS).Arrived) (id : UInt64) :
    Held.Framed ⟨id, holder, now + (Ttl.clamp ttlS).dur, Ttl.clamp ttlS⟩ now :=
  ⟨⟨ttlS, h.length_le, rfl⟩, le_rfl⟩

/-- The whole seconds left, as they are reported. -/
theorem toNat_expiresInS (h : held.Framed now) :
    (held.expiresInS now).toNat = Duration.asSecs (held.expiresAt - now) := by
  have := h.left
  exact Eager.toNat_asSecs_of_le held.ttl (by omega)

/-- **The name and the seconds that are reported** take no more than the
`Acquire` did after its tag. -/
theorem name_secs_le (h : held.Framed now) :
    1 + (string held.holder).length + (u32 (held.expiresInS now)).length ≤ maxFrame := by
  obtain ⟨ttlS, hframed, httl⟩ := h.framed
  have hsecs : (held.expiresInS now).toNat ≤ max 5 (min ttlS.toNat 3600) := by
    have hleft := h.left
    rw [h.toNat_expiresInS, Duration.asSecs]
    rw [httl] at hleft
    simp only [Ttl.clamp, Duration.fromSecs] at hleft
    omega
  have hlen := length_u32_clamp hsecs
  rw [LeaseRequest.toPostcard, List.length_append, List.length_append,
    length_varint_one (by decide) (by decide)] at hframed
  omega

/-- A Busy has the holder that came in an Acquire, and not more beside it. -/
theorem busy_carried (h : held.Framed now) :
    (LeaseReply.busy held.holder (held.expiresInS now)).Carried := by
  have := h.name_secs_le
  rw [LeaseReply.carried_iff, LeaseReply.toPostcard, List.length_append,
    List.length_append, length_varint_one (by decide) (by decide)]
  omega

/-- The seconds that are reported take one byte below 128, and two from there. -/
theorem length_secs (h : held.Framed now) :
    (u32 (held.expiresInS now)).length
      = if held.expiresAt < now + Duration.fromSecs 128 then 1 else 2 := by
  have hleft := h.left
  have hmax := held.ttl.le
  rw [u32, h.toNat_expiresInS, Duration.asSecs]
  unfold Duration.fromSecs at hmax ⊢
  by_cases hlt : held.expiresAt < now + 128 * 1000000000
  · rw [if_pos hlt]
    exact length_varint_one (by decide) (by omega)
  · rw [if_neg hlt]
    exact length_varint_two (by decide) (by omega) (by omega)

/-- **Whether a `Status` fits.** -/
theorem status_carried_iff (h : held.Framed now) :
    (LeaseReply.status (some held.holder) (held.expiresInS now)).Carried
      ↔ (utf8 held.holder).length
          + (if held.expiresAt < now + Duration.fromSecs 128 then 6 else 7) ≤ maxFrame := by
  have hname := h.name_secs_le
  have hsecs := h.length_secs
  rw [LeaseReply.carried_iff, LeaseReply.toPostcard, List.length_append,
    List.length_append, length_varint_one (by decide) (by decide), option,
    List.length_cons]
  rw [length_string] at hname ⊢
  by_cases hshort : (utf8 held.holder).length < 16384
  · -- a name this short leaves room for anything
    have hlen : (varint 10 (utf8 held.holder).length).length ≤ 2 :=
      (length_varint_mono 10 (Nat.le_of_lt_succ hshort)).trans
        (length_varint_two (by decide) (by decide) (by decide)).le
    have hroom : 16384 + 10 ≤ maxFrame := by decide
    split at hsecs <;> split <;> omega
  · have hlong : (utf8 held.holder).length < 2097152 := by
      have : maxFrame < 2097152 := by decide
      omega
    rw [length_varint_three (by decide) (not_lt.mp hshort) hlong, hsecs]
    split <;> omega

end Held.Framed

/-! ## Runs -/

/-- The slot holds nothing but what came in a frame. -/
def LeaseServer.Framed (srv : LeaseServer) (now : ℕ) : Prop :=
  ∀ held ∈ srv.state, held.Framed now

/-- **A `Status` has room for its answer**: no lease is live, or its holder's
name leaves seven bytes of the limit, or six when less than 128 seconds are
left. -/
def LeaseServer.StatusFits (srv : LeaseServer) (now : ℕ) : Prop :=
  ∀ held, srv.live now = some held →
    (utf8 held.holder).length
      + (if held.expiresAt < now + Duration.fromSecs 128 then 6 else 7) ≤ maxFrame

instance (srv : LeaseServer) (now : ℕ) : Decidable (srv.StatusFits now) :=
  inferInstanceAs (Decidable (∀ held ∈ srv.live now, _ ≤ maxFrame))

section Runs

variable {srv : LeaseServer} {now t : ℕ} {held : Held}

/-- What is live fits. -/
theorem LeaseServer.Framed.live (h : srv.Framed now) (ht : now ≤ t)
    (hlive : srv.live t = some held) : held.Framed t :=
  (h held (LeaseServer.live_eq_some.mp hlive).1).mono ht

/-- A server with a lease. -/
theorem LeaseServer.framed_some (h : held.Framed now) :
    (LeaseServer.mk (some held)).Framed now := by
  rintro _ ⟨⟩
  exact h

/-- And without. -/
theorem LeaseServer.framed_none (now : ℕ) : (LeaseServer.mk none).Framed now := by
  rintro _ ⟨⟩

/-- Short replies are carried. -/
theorem LeaseReply.carried_of_short {reply : LeaseReply} (h : reply.toPostcard.length ≤ 11) :
    reply.Carried :=
  LeaseReply.carried_iff.mpr (h.trans (by decide))

/-- A Granted is short. -/
theorem LeaseReply.granted_carried (id : UInt64) : (LeaseReply.granted id).Carried := by
  refine LeaseReply.carried_of_short ?_
  have := length_varint_le 10 id.toNat
  rw [LeaseReply.toPostcard, List.length_append, length_varint_one (by decide) (by decide), u64]
  omega

/-- **A request that arrived in a frame** leaves a slot that holds what came in
frames, and is answered by a reply that fits, unless it is a `Status` without
room. -/
theorem LeaseServer.Framed.handle (h : srv.Framed now) (ht : now ≤ t) (minted : UInt64)
    {req : LeaseRequest} (hreq : req.Arrived) :
    (srv.handle t minted req).1.Framed t
      ∧ ((srv.handle t minted req).2.Carried ↔ (req = .status → srv.StatusFits t)) := by
  have hstate : (LeaseServer.mk (srv.live t)).Framed t :=
    fun held hheld => h.live ht hheld
  have hok : LeaseReply.ok.Carried := LeaseReply.carried_of_short (by decide)
  have hgone : LeaseReply.gone.Carried := LeaseReply.carried_of_short (by decide)
  cases req with
  | acquire holder ttlS =>
    cases hlive : srv.live t with
    | none =>
      rw [LeaseServer.handle_acquire_free hlive]
      exact ⟨LeaseServer.framed_some (Held.Framed.granted hreq minted),
        iff_of_true (LeaseReply.granted_carried minted) (fun h => by simp at h)⟩
    | some held =>
      rw [LeaseServer.handle_acquire_live hlive]
      exact ⟨LeaseServer.framed_some (h.live ht hlive),
        iff_of_true (h.live ht hlive).busy_carried (fun h => by simp at h)⟩
  | renew id =>
    by_cases hid : ∃ held, srv.live t = some held ∧ held.id = id
    · obtain ⟨held, hlive, rfl⟩ := hid
      rw [LeaseServer.handle_renew_current hlive]
      exact ⟨LeaseServer.framed_some (h.live ht hlive).renewed,
        iff_of_true hok (fun h => by simp at h)⟩
    · rw [LeaseServer.handle_renew_stale
        (fun held hlive hheld => hid ⟨held, hlive, hheld⟩)]
      exact ⟨hstate, iff_of_true hgone (fun h => by simp at h)⟩
  | release id =>
    by_cases hid : ∃ held, srv.live t = some held ∧ held.id = id
    · obtain ⟨held, hlive, rfl⟩ := hid
      rw [LeaseServer.handle_release_current hlive]
      exact ⟨LeaseServer.framed_none t, iff_of_true hok (fun h => by simp at h)⟩
    · rw [LeaseServer.handle_release_stale
        (fun held hlive hheld => hid ⟨held, hlive, hheld⟩)]
      exact ⟨hstate, iff_of_true hok (fun h => by simp at h)⟩
  | status =>
    cases hlive : srv.live t with
    | none =>
      rw [LeaseServer.handle_status_free hlive]
      refine ⟨LeaseServer.framed_none t,
        iff_of_true (LeaseReply.carried_of_short (by decide)) (fun _ held hheld => ?_)⟩
      rw [hlive] at hheld
      simp at hheld
    | some held =>
      rw [LeaseServer.handle_status_live hlive]
      refine ⟨LeaseServer.framed_some (h.live ht hlive), ?_⟩
      rw [(h.live ht hlive).status_carried_iff]
      refine ⟨fun hfits _ held' hheld' => ?_, fun hfits => hfits rfl held hlive⟩
      obtain rfl := Option.some.inj (hlive.symm.trans hheld')
      exact hfits

/-- Runs from any slot that holds what came in frames. -/
theorem LeaseServer.Framed.serve {calls : List Call} (h : srv.Framed now)
    (hmono : calls.Pairwise (fun a b => a.now ≤ b.now)) (hfrom : ∀ c ∈ calls, now ≤ c.now)
    (harrived : ∀ c ∈ calls, c.req.Arrived) :
    (∀ e ∈ (srv.serve calls).2, e.reply.Carried)
      ↔ ∀ (i : ℕ) (c : Call), calls[i]? = some c → c.req = .status →
          (srv.serve (calls.take i)).1.StatusFits c.now := by
  induction calls generalizing srv now with
  | nil => simp [LeaseServer.serve]
  | cons c calls ih =>
    obtain ⟨hc, hrest⟩ := List.pairwise_cons.mp hmono
    obtain ⟨hcnow, hfrom'⟩ := List.forall_mem_cons.mp hfrom
    obtain ⟨hcreq, harrived'⟩ := List.forall_mem_cons.mp harrived
    obtain ⟨hnext, hreply⟩ := h.handle hcnow c.minted hcreq
    rw [LeaseServer.serve, List.forall_mem_cons, hreply, ih hnext hrest hc harrived']
    constructor
    · rintro ⟨hhead, htail⟩ i d hd hstatus
      cases i with
      | zero =>
        obtain rfl := Option.some.inj hd
        exact hhead hstatus
      | succ i => exact htail i d hd hstatus
    · exact fun hall => ⟨hall 0 c rfl, fun i d hd => hall (i + 1) d hd⟩

end Runs

/-- **Which replies fit a frame the client accepts.** In every run of requests
each of which arrived in a frame within the limit, every reply is carried if and
only if every `Status` of the run finds room for its answer. -/
theorem replies_carried_iff (calls : List Call)
    (hmono : calls.Pairwise (fun a b => a.now ≤ b.now))
    (harrived : ∀ c ∈ calls, c.req.Arrived) :
    (∀ e ∈ (LeaseServer.new.serve calls).2, e.reply.Carried)
      ↔ ∀ (i : ℕ) (c : Call), calls[i]? = some c → c.req = .status →
          (LeaseServer.new.serve (calls.take i)).1.StatusFits c.now :=
  (LeaseServer.framed_none 0).serve hmono (fun _ _ => Nat.zero_le _) harrived

/-- A short name, and somebody asks who holds the lease. -/
def shortNameRun : List Call := [⟨0, 7, .acquire "a" 60⟩, ⟨1, 0, .status⟩]

/-- With a short name both replies are carried. -/
theorem shortNameRun_carried :
    (LeaseServer.new.serve shortNameRun).2.map Handled.reply
        = [.granted 7, .status (some "a") 59]
      ∧ ∀ e ∈ (LeaseServer.new.serve shortNameRun).2, e.reply.Carried := by
  have hroom : ∀ i < 2, ∀ c ∈ shortNameRun[i]?, c.req = .status →
      (LeaseServer.new.serve (shortNameRun.take i)).1.StatusFits c.now := by
    decide
  have harrived : ∀ c ∈ shortNameRun, c.req.Arrived := fun c hc =>
    ⟨c.req.toPostcard, by revert c hc; decide,
      (reads_leaseRequest (by revert c hc; decide)).fromBytes⟩
  refine ⟨by decide,
    (replies_carried_iff shortNameRun (by decide) harrived).mpr (fun i c hi => ?_)⟩
  obtain ⟨hlt, -⟩ := List.getElem?_eq_some_iff.mp hi
  exact hroom i hlt c hi

/-! ### A name that is too long -/

/-- A name of 262139 bytes. -/
def longName : String := String.ofList (List.replicate 262139 'a')

/-- The name is as long as a frame has room for. -/
theorem length_longName : (utf8 longName).length = 262139 := by
  unfold longName
  generalize 262139 = n
  induction n with
  | zero => rfl
  | succ n ih =>
    rw [List.replicate_succ, ← List.singleton_append, String.ofList_append, utf8_append,
      List.length_append, ih, Nat.add_comm]
    rfl

section LongName

variable {holder : String}

/-- With its length before it. -/
theorem length_string_long (hname : (utf8 holder).length = 262139) :
    (string holder).length = 262142 := by
  rw [length_string, hname, length_varint_three (by decide) (by decide) (by decide)]

/-- An `Acquire` of a name that long, for a minute, is exactly as long as a frame
may be. -/
theorem acquire_long_arrived (hname : (utf8 holder).length = 262139) :
    (LeaseRequest.acquire holder 60).Arrived := by
  have hsecs : (u32 60).length = 1 := length_varint_one (by decide) (by decide)
  refine ⟨(LeaseRequest.acquire holder 60).toPostcard, ?_, (reads_leaseRequest ?_).fromBytes⟩
  · rw [LeaseRequest.toPostcard, List.length_append, List.length_append,
      length_string_long hname, length_varint_one (by decide) (by decide), hsecs]
    exact le_rfl
  · show (utf8 holder).length < 2 ^ 64
    rw [hname]
    decide

/-- A `Status` that names its holder is one byte longer. -/
theorem status_long_refused (hname : (utf8 holder).length = 262139) :
    ¬ (LeaseReply.status (some holder) 60).Carried := by
  have hsecs : (u32 60).length = 1 := length_varint_one (by decide) (by decide)
  rw [LeaseReply.carried_iff, LeaseReply.toPostcard, List.length_append,
    List.length_append, option, List.length_cons, length_string_long hname,
    length_varint_one (by decide) (by decide), hsecs]
  exact Nat.not_succ_le_self 262144

/-- What the server says, whoever the holder is. -/
theorem serve_acquire_status (holder : String) :
    (LeaseServer.new.serve [⟨0, 7, .acquire holder 60⟩, ⟨0, 0, .status⟩]).2
      = [⟨⟨0, 7, .acquire holder 60⟩, .granted 7⟩,
          ⟨⟨0, 0, .status⟩, .status (some holder) 60⟩] := by
  simp [LeaseServer.serve, LeaseServer.handle, LeaseServer.sweep, LeaseServer.new,
    Ttl.clamp, Duration.fromSecs, Held.expiresInS, Duration.asSecs]

end LongName

/-- **Not every reply fits.** The rig is acquired under the long name, and
somebody asks who holds it. -/
theorem longName_refused :
    ¬ ∀ calls : List Call, calls.Pairwise (fun a b => a.now ≤ b.now) →
        (∀ c ∈ calls, c.req.Arrived) →
        ∀ e ∈ (LeaseServer.new.serve calls).2, e.reply.Carried := by
  intro h
  have hstatus : LeaseRequest.status.Arrived :=
    ⟨LeaseRequest.status.toPostcard, by decide,
      (@reads_leaseRequest .status trivial).fromBytes⟩
  have hall := h [⟨0, 7, .acquire longName 60⟩, ⟨0, 0, .status⟩] (by simp)
    (by simp [acquire_long_arrived length_longName, hstatus])
  rw [serve_acquire_status] at hall
  exact status_long_refused length_longName
    (hall ⟨⟨0, 0, .status⟩, .status (some longName) 60⟩ (by simp))

end Banc
