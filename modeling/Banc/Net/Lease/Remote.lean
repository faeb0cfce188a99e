import Banc.Net.Daemon
import Banc.Net.Lease.Client

/-!
# Calls on a daemon

`query_status`, `reacquire` and the first round of `LeaseClient::acquire` are the same
call: connect, shake hands, send one request, read one reply. It blocks, it is given up
at the first read that fails, and nobody else has anything to do with its connection.

Here it is made on the daemon of `Banc.Net.Daemon`, with any other peers there are.
What ties the two together is no more than that a connection loses and invents nothing:
what the client has read is the beginning of what the daemon has sent, and what has
arrived at the daemon the beginning of what the client has written.

The call is then as good as a call of `handle`. It takes place at one moment of the run
or at none; where it returns a reply it has taken place, and the reply is the one of
that moment (`calls_linearized`). What it is that makes this more than a fact about one
stream is the handshake, of which the request is no part, and the lock, which all
connections share.
-/

namespace Banc

namespace Remote

open Chunked
open Daemon (Link State Opened Answers greeting)

/-- Why a call failed. -/
inductive CallError where
  | handshake (e : HandshakeError)
  /-- A frame could not be read: `read_frame_sync` failed or timed out. -/
  | io (e : FrameError)
  /-- It could not be decoded. -/
  | decode
  /-- The `debug_assert!` of `write_frame_sync` failed. -/
  | panic
  /-- `unexpected reply to Status: {other:?}`. -/
  | unexpected (other : LeaseReply)
  | lease (e : LeaseError)
  deriving DecidableEq, Repr

/-- One call: its result, what is left of the stream it read, and what it wrote. -/
structure Call (α : Type) where
  outcome : Except CallError α
  rest : Stream
  written : List UInt8

/-- Make something of the result. -/
def Call.andThen {α β : Type} (c : Call α) (f : α → Except CallError β) : Call β :=
  ⟨c.outcome.bind f, c.rest, c.written⟩

theorem andThen_eq_ok {α β : Type} {c : Call α} {f : α → Except CallError β} {b : β}
    (h : (c.andThen f).outcome = .ok b) : ∃ a, c.outcome = .ok a ∧ f a = .ok b := by
  unfold Call.andThen at h
  dsimp only at h
  cases houtcome : c.outcome with
  | error e =>
    rw [houtcome] at h
    exact absurd h nofun
  | ok a =>
    rw [houtcome] at h
    exact ⟨a, rfl, h⟩

section Client

variable (hello : HelloCodec) (codec : LeaseCodec) (debugAssertions : Bool)

/-- `roundtrip`. -/
def roundtrip (stream : Stream) (req : LeaseRequest) : Call LeaseReply :=
  match Io.blocking.writeFrame debugAssertions (codec.encodeRequest req) with
  | none => ⟨.error .panic, stream, []⟩
  | some bs =>
    match Io.blocking.readFrame stream with
    | (.error e, rest) => ⟨.error (.io e), rest, bs⟩
    | (.ok data, rest) =>
      match codec.decodeReply data with
      | none => ⟨.error .decode, rest, bs⟩
      | some reply => ⟨.ok reply, rest, bs⟩

/-- `connect`, once there is a connection, and `roundtrip` on it. -/
def call (token : String) (req : LeaseRequest) (stream : Stream) : Call LeaseReply :=
  let half := handshakeClientSync hello debugAssertions .lease token stream
  match half.outcome with
  | .error e => ⟨.error (.handshake e), half.rest, half.written⟩
  | .ok () =>
    let c := roundtrip codec debugAssertions half.rest req
    { c with written := half.written ++ c.written }

/-- What `query_status` returns. -/
structure LeaseStatus where
  holder : Option String
  expiresInS : UInt32
  deriving DecidableEq, Repr

/-- The `match` of `query_status`. -/
def statusReply : LeaseReply → Except CallError LeaseStatus
  | .status holder expiresInS => .ok ⟨holder, expiresInS⟩
  | other => .error (.unexpected other)

/-- `query_status`. -/
def queryStatus (token : String) (stream : Stream) : Call LeaseStatus :=
  (call hello codec debugAssertions token .status stream).andThen statusReply

/-- `reacquire`. -/
def reacquire (token holder : String) (stream : Stream) : Call UInt64 :=
  (call hello codec debugAssertions token (acquireRequest holder) stream).andThen
    (fun reply => (reacquireReply reply).mapError .lease)

end Client

/-! ## The client -/

section Client

variable {hello : HelloCodec} {codec : LeaseCodec} {debugAssertions : Bool}
  {token : String} {req : LeaseRequest} {got : Stream}

/-- The frame a lease client begins with. -/
def hail (hello : HelloCodec) (token : String) : List UInt8 :=
  frame (hello.encodeHello ⟨netVersion, .lease, token⟩)

/-- What a blocking reader has returned, the stream began with. -/
theorem contents_of_readFrame {data : List UInt8} {rest : Stream}
    (h : Io.blocking.readFrame got = (.ok data, rest)) :
    data.length ≤ maxFrame ∧ contents got = frame data ++ contents rest := by
  have hread := Io.blocking.readFrame_eq got
  rw [h] at hread
  exact readFrame_eq_ok.mp hread.symm

theorem roundtrip_written :
    (roundtrip codec debugAssertions got req).written <+: frame (codec.encodeRequest req) := by
  unfold roundtrip
  split
  · exact List.nil_prefix
  · rename_i bs hwrite
    obtain rfl := writeFrame_eq_some hwrite
    split
    · exact List.prefix_rfl
    · split
      · exact List.prefix_rfl
      · exact List.prefix_rfl

theorem roundtrip_ok {reply : LeaseReply}
    (h : (roundtrip codec debugAssertions got req).outcome = .ok reply) :
    ∃ data rest, data.length ≤ maxFrame ∧ contents got = frame data ++ rest
      ∧ codec.decodeReply data = some reply := by
  unfold roundtrip at h
  split at h
  · exact absurd h nofun
  · split at h
    · exact absurd h nofun
    · rename_i data rest hread
      obtain ⟨hdata, hgot⟩ := contents_of_readFrame hread
      split at h
      · exact absurd h nofun
      · rename_i hdecode
        exact ⟨data, _, hdata, hgot, hdecode.trans (congrArg some (Except.ok.inj h))⟩

theorem handshake_written :
    (handshakeClientSync hello debugAssertions .lease token got).written <+: hail hello token := by
  unfold handshakeClientSync greet
  split
  · exact List.nil_prefix
  · rename_i bs hwrite
    obtain rfl := writeFrame_eq_some hwrite
    split
    · exact List.prefix_rfl
    · split
      · exact List.prefix_rfl
      · exact List.prefix_rfl
      · exact List.prefix_rfl

theorem handshake_ok
    (h : (handshakeClientSync hello debugAssertions .lease token got).outcome = .ok ()) :
    (handshakeClientSync hello debugAssertions .lease token got).written = hail hello token
      ∧ ∃ data rigName, data.length ≤ maxFrame
          ∧ contents got = frame data
            ++ contents (handshakeClientSync hello debugAssertions .lease token got).rest
          ∧ hello.decodeReply data = some (.ok rigName) := by
  unfold handshakeClientSync greet at h ⊢
  split at h
  · exact absurd h nofun
  · rename_i bs hwrite
    obtain rfl := writeFrame_eq_some hwrite
    split at h
    · exact absurd h nofun
    · rename_i data rest hread
      obtain ⟨hdata, hgot⟩ := contents_of_readFrame hread
      split at h
      · exact absurd h nofun
      · rename_i rigName hdecode
        exact ⟨rfl, data, rigName, hdata, hgot, hdecode⟩
      · exact absurd h nofun

/-- **It writes its two frames**, or the beginning of them. -/
theorem call_written :
    (call hello codec debugAssertions token req got).written
      <+: hail hello token ++ frame (codec.encodeRequest req) := by
  unfold call
  dsimp only
  split
  · exact handshake_written.trans (List.prefix_append _ _)
  · rename_i hok
    rw [(handshake_ok hok).1]
    exact (List.prefix_append_right_inj _).mpr roundtrip_written

/-- **It reads two frames**, if it returns a reply. -/
theorem call_ok {reply : LeaseReply}
    (h : (call hello codec debugAssertions token req got).outcome = .ok reply) :
    ∃ data rigName data' rest, data.length ≤ maxFrame ∧ data'.length ≤ maxFrame
      ∧ contents got = frame data ++ (frame data' ++ rest)
      ∧ hello.decodeReply data = some (.ok rigName) ∧ codec.decodeReply data' = some reply := by
  unfold call at h
  dsimp only at h
  split at h
  · exact absurd h nofun
  · rename_i hok
    obtain ⟨-, data, rigName, hdata, hgot, hdecode⟩ := handshake_ok hok
    obtain ⟨data', rest, hdata', hgot', hdecode'⟩ := roundtrip_ok h
    rw [hgot'] at hgot
    exact ⟨data, rigName, data', rest, hdata, hdata', hgot, hdecode, hdecode'⟩

end Client

/-! ## The daemon -/

/-- A frame is the beginning of frames only of itself. -/
theorem frame_append_inj {data data' more more' : List UInt8} (hdata : data.length ≤ maxFrame)
    (hdata' : data'.length ≤ maxFrame) (h : frame data ++ more <+: frame data' ++ more') :
    data = data' ∧ more <+: more' := by
  obtain ⟨rest, hrest⟩ := h
  rw [List.append_assoc] at hrest
  have hread := readFrame_eq_ok.mpr ⟨hdata, rfl (a := frame data ++ (more ++ rest))⟩
  rw [hrest, readFrame_eq_ok.mpr ⟨hdata', rfl⟩] at hread
  simp only [Prod.mk.injEq, Except.ok.injEq] at hread
  exact ⟨hread.1.symm, rest, hread.2.symm⟩

/-- What more arrives adds requests, and changes none. -/
theorem requests_mono {codec : LeaseCodec} (bs more : List UInt8) :
    Sessions.requests codec bs <+: Sessions.requests codec (bs ++ more) := by
  induction bs using Sessions.requests.induct codec with
  | case1 bs e rest hread =>
    rw [Sessions.requests_of_error hread]
    exact List.nil_prefix
  | case2 bs data rest hread hdecode =>
    rw [Sessions.requests_of_undecodable hread hdecode]
    exact List.nil_prefix
  | case3 bs data rest hread req hdecode ih =>
    rw [Sessions.requests_of_decoded hread hdecode,
      Sessions.requests_of_decoded (readFrame_append hread more) hdecode]
    exact (List.prefix_cons_inj req).mpr ih

theorem requests_frame {codec : LeaseCodec} (hcodec : codec.Exact) {req : LeaseRequest}
    (hreq : req.Representable) (hfits : (codec.encodeRequest req).length ≤ maxFrame) :
    Sessions.requests codec (frame (codec.encodeRequest req)) = [req] := by
  have hread : readFrame (frame (codec.encodeRequest req)) = (.ok (codec.encodeRequest req), []) :=
    readFrame_eq_ok.mpr ⟨hfits, (List.append_nil _).symm⟩
  rw [Sessions.requests_of_decoded hread (hcodec.request_whole req hreq),
    Sessions.requests_of_error (e := .short) rfl]

variable {κ : Type} [DecidableEq κ]

/-- **A client at one end of a connection**: what it has read the daemon has sent, and
what has arrived it has written. -/
structure Peer (s : State κ) (i : κ) (got : Stream) (written : List UInt8) : Prop where
  read : contents got <+: (s.links i).sent
  wrote : (s.links i).stream <+: written

/-- **The moment of a request**: the run has come to `u`, there the request is handled,
and the server is `srv` then. -/
def TakesPlace (cfg : Daemon.Config) (s₀ : State κ) (as : List (Sessions.Action κ)) (i : κ)
    (e : Handled) (u : State κ) (srv : LeaseServer) : Prop :=
  ∃ bs cs u', as = bs ++ .read i e.call.minted :: cs
    ∧ Transition.run (Daemon.step cfg) s₀ bs = some u
    ∧ Daemon.step cfg u (.read i e.call.minted) = some u' ∧ u'.server = srv
    ∧ u.server.handle u.now e.call.minted e.call.req = (srv, e.reply)

section Daemon

variable {cfg : Daemon.Config} {s₀ s : State κ} {as : List (Sessions.Action κ)} {i : κ}
  {token : String} {req : LeaseRequest}

/-- The server makes up no strings, and neither do its peers. -/
theorem representable_of_run (hcodec : cfg.sessions.codec.Exact) (hinit : s₀.Initial)
    (hsrv : s₀.server.Representable) (hrun : Transition.run (Daemon.step cfg) s₀ as = some s) :
    s.server.Representable ∧ ∀ x ∈ s.log, x.2.reply.Representable := by
  refine Transition.run_preserves (I := fun s : State κ => s.server.Representable
    ∧ ∀ x ∈ s.log, x.2.reply.Representable) ?_ ⟨hsrv, by rw [hinit.log]; exact nofun⟩ hrun
  rintro u a u' ⟨hserver, hlog⟩ hstep
  rcases Daemon.log_cases hstep with ⟨h, h'⟩ | ⟨i, data, e, -, -, hdecode, hhandle, hnew⟩
  · rw [h, h']
    exact ⟨hserver, hlog⟩
  · have hreq := hcodec.request_representable _ _ hdecode
    have hnext := hserver.handle e.call.now e.call.minted hreq
    rw [hhandle] at hnext
    refine ⟨hnext.1, fun x hx => ?_⟩
    rw [hnew, List.mem_append, List.mem_singleton] at hx
    rcases hx with hx | rfl
    · exact hlog x hx
    · exact hnext.2

/-- **What has been handled took place** at some moment. -/
theorem exists_takesPlace (hinit : s₀.Initial)
    (hrun : Transition.run (Daemon.step cfg) s₀ as = some s) {e : Handled}
    (he : e ∈ s.handled i) : ∃ u srv, TakesPlace cfg s₀ as i e u srv := by
  obtain ⟨bs, a, cs, u, u', has, hbs, hstep, rfl, hhandle⟩ := Transition.exists_origin
    (I := fun _ : State κ => True) (P := fun s : State κ => (i, e) ∈ s.log)
    (E := fun u a u' => a = .read i e.call.minted
      ∧ u.server.handle u.now e.call.minted e.call.req = (u'.server, e.reply))
    (fun _ _ _ _ _ => trivial)
    (fun u a u' _ hstep hmem => by
      rcases Daemon.log_cases hstep with ⟨-, h⟩ | ⟨j, data, e', rfl, hnow, -, hhandle, hnew⟩
      · exact .inl (h ▸ hmem)
      · rw [hnew, List.mem_append, List.mem_singleton] at hmem
        rcases hmem with hmem | hmem
        · exact .inl hmem
        · obtain ⟨rfl, rfl⟩ := Prod.mk.inj hmem
          exact .inr ⟨rfl, hnow ▸ hhandle⟩)
    trivial (by rw [hinit.log]; exact nofun) hrun (Daemon.mem_handled.mp he)
  exact ⟨u, u'.server, bs, cs, u', has, hbs, hstep, rfl, hhandle⟩

/-- What a client's connection was opened with is its own `Hello`. -/
theorem hello_of_peer (hhello : cfg.hello.Faithful)
    (hfits : (cfg.hello.encodeHello ⟨netVersion, .lease, token⟩).length ≤ maxFrame)
    {bs data rest : List UInt8}
    (hbs : bs <+: hail cfg.hello token ++ frame (cfg.sessions.codec.encodeRequest req))
    {hello : Hello} (hdata : data.length ≤ maxFrame)
    (hstream : bs = frame data ++ rest) (hdecode : cfg.hello.decodeHello data = some hello) :
    hello = ⟨netVersion, .lease, token⟩
      ∧ rest <+: frame (cfg.sessions.codec.encodeRequest req) := by
  rw [hstream] at hbs
  obtain ⟨rfl, hrest⟩ := frame_append_inj hdata hfits hbs
  rw [hhello.hello _ hfits] at hdecode
  exact ⟨(Option.some.inj hdecode).symm, hrest⟩

/-- What a lease client and a daemon are to each other: their messages read back, and
what either has to say at all times fits a frame. -/
structure Suited (cfg : Daemon.Config) (token : String) (req : LeaseRequest) : Prop where
  hello : cfg.hello.Faithful
  codec : cfg.sessions.codec.Exact
  rigName : (cfg.hello.encodeReply (.ok cfg.rigName)).length ≤ maxFrame
  denied : (cfg.hello.encodeReply .denied).length ≤ maxFrame
  token : (cfg.hello.encodeHello ⟨netVersion, .lease, token⟩).length ≤ maxFrame
  representable : req.Representable
  request : (cfg.sessions.codec.encodeRequest req).length ≤ maxFrame

theorem Suited.reply (h : Suited cfg token req) (hello : Hello) :
    (cfg.hello.encodeReply (hello.reply cfg.token cfg.rigName)).length ≤ maxFrame := by
  unfold Hello.reply
  split
  · exact h.rigName
  · exact h.denied

section Peer

variable {written : List UInt8} {got : Stream} {srv : LeaseServer}

/-- **Of a client's requests no more is handled than the one**, and not even that
without the token. -/
theorem Suited.handled (h : Suited cfg token req) (hok : s.Ok cfg)
    (hserved : s.sessions.Ok cfg.sessions srv) (hpeer : Peer s i got written)
    (hwritten : written
      <+: hail cfg.hello token ++ frame (cfg.sessions.codec.encodeRequest req)) :
    (s.handled i).map (fun e => e.call.req) <+: [req] ∧ (s.handled i ≠ [] → token = cfg.token) := by
  by_cases hnone : s.handled i = []
  · rw [hnone]
    exact ⟨List.nil_prefix, fun hne => absurd rfl hne⟩
  · obtain ⟨rest, ⟨data, hello, hdata, hstream, hdecode, hacc, -⟩, hreqs⟩ :=
      Daemon.handled_opened hok hserved hnone
    obtain ⟨rfl, hrest⟩ := hello_of_peer h.hello h.token (hpeer.wrote.trans hwritten) hdata
      hstream hdecode
    obtain ⟨more, hmore⟩ := hrest
    refine ⟨?_, fun _ => Postcard.utf8_inj.mp hacc.2⟩
    rw [← requests_frame h.codec h.representable h.request, ← hmore]
    exact hreqs.trans (requests_mono rest more)

/-- The bytes of a reply the client has read are those the server has encoded. -/
theorem reply_of_frame {codec : LeaseCodec} (hcodec : codec.Exact) {data rest : List UInt8}
    {reply reply' : LeaseReply} (hreply : reply'.Representable)
    (hdecode : codec.decodeReply data = some reply)
    (h : frame data ++ rest <+: frame (codec.encodeReply reply')) : reply' = reply := by
  obtain ⟨more, hmore⟩ := h
  unfold frame at hmore
  rw [List.append_assoc, List.append_assoc] at hmore
  have hdata : data ++ (rest ++ more) = codec.encodeReply reply' :=
    (List.append_inj hmore rfl).2
  have htake : data = (codec.encodeReply reply').take data.length := by
    rw [← hdata, List.take_left]
  by_cases hlen : data.length < (codec.encodeReply reply').length
  · have hnone := hcodec.reply_cut reply' hreply data.length hlen
    rw [← htake, hdecode] at hnone
    exact absurd hnone nofun
  · rw [List.take_of_length_le (not_lt.mp hlen)] at htake
    rw [htake, hcodec.reply_whole reply' hreply] at hdecode
    exact Option.some.inj hdecode

omit [DecidableEq κ] in
/-- Who has read a frame has been sent something. -/
theorem ne_nil_of_frame {data rest more : List UInt8} (h : frame data ++ rest <+: more) :
    more ≠ [] := by
  rintro rfl
  exact absurd (List.prefix_nil.mp h) nofun

/-- **What a client reads after the `Ok` to its `Hello`** are replies of the server. -/
theorem replies_of_read (hhello : cfg.hello.Faithful)
    (hreply : ∀ hello : Hello,
      (cfg.hello.encodeReply (hello.reply cfg.token cfg.rigName)).length ≤ maxFrame)
    (htoken : (cfg.hello.encodeHello ⟨netVersion, .lease, token⟩).length ≤ maxFrame)
    (hok : s.Ok cfg) (hserved : s.sessions.Ok cfg.sessions srv)
    (hstream : (s.links i).stream
      <+: hail cfg.hello token ++ frame (cfg.sessions.codec.encodeRequest req))
    {data more : List UInt8} {rigName : String} (hdata : data.length ≤ maxFrame)
    (hread : frame data ++ more <+: (s.links i).sent)
    (hdecode : cfg.hello.decodeReply data = some (.ok rigName)) :
    more <+: Sessions.replyFrames cfg.sessions (s.handled i) := by
  rcases (hok i).answers hserved with hsent | ⟨hail, hello, rest, hhail, hsaid, hhello', hsent⟩
  · exact absurd hsent (ne_nil_of_frame hread)
  · obtain ⟨rfl, -⟩ := hello_of_peer hhello htoken hstream hhail hsaid hhello'
    have hadmitted := Daemon.helloReply_admits cfg.token cfg.rigName ⟨netVersion, .lease, token⟩
    unfold Answers at hsent
    split at hsent
    case h_1 hadmits =>
      -- it would have read the refusal
      rw [← List.append_nil (greeting cfg _)] at hsent
      obtain ⟨rfl, -⟩ := frame_append_inj hdata (hreply _) (hread.trans hsent)
      have hdenied := hreply ⟨netVersion, .lease, token⟩
      rw [← hadmitted, hadmits] at hdecode hdenied
      rw [hhello.reply _ hdenied] at hdecode
      exact absurd (Option.some.inj hdecode) (by simp [Daemon.helloReply])
    case h_3 hadmits =>
      exact absurd (Daemon.admits_eq_some.mp hadmits).2 (by simp)
    case h_2 => exact (frame_append_inj hdata (hreply _) (hread.trans hsent)).2

/-- **A reply has been given.** -/
theorem Suited.answered (h : Suited cfg token req) (hok : s.Ok cfg)
    (hserved : s.sessions.Ok cfg.sessions srv) (hlog : ∀ x ∈ s.log, x.2.reply.Representable)
    (hpeer : Peer s i got written)
    (hwritten : written
      <+: hail cfg.hello token ++ frame (cfg.sessions.codec.encodeRequest req))
    {data data' rest : List UInt8} {rigName : String} {reply : LeaseReply}
    (hdata : data.length ≤ maxFrame)
    (hgot : contents got = frame data ++ (frame data' ++ rest))
    (hdecode : cfg.hello.decodeReply data = some (.ok rigName))
    (hdecode' : cfg.sessions.codec.decodeReply data' = some reply) :
    ∃ e, s.handled i = [e] ∧ e.call.req = req ∧ e.reply = reply := by
  have hread := hpeer.read
  rw [hgot] at hread
  have hreplies := replies_of_read h.hello h.reply h.token hok hserved
    (hpeer.wrote.trans hwritten) hdata hread hdecode
  obtain ⟨hreqs, -⟩ := h.handled hok hserved hpeer hwritten
  cases hhandled : s.handled i with
  | nil =>
    rw [hhandled] at hreplies
    exact absurd rfl (ne_nil_of_frame hreplies)
  | cons e es =>
    rw [hhandled, List.map_cons, List.cons_prefix_cons, List.prefix_nil,
      List.map_eq_nil_iff] at hreqs
    obtain ⟨hreq, rfl⟩ := hreqs
    rw [hhandled, Sessions.replyFrames, List.flatMap_singleton] at hreplies
    have hmem : (i, e) ∈ s.log := Daemon.mem_handled.mp (hhandled ▸ List.mem_singleton_self e)
    exact ⟨e, rfl, hreq, reply_of_frame h.codec (hlog _ hmem) hdecode' hreplies⟩

end Peer

/-- **A reply was given at one moment**, and there has been no other. -/
theorem Suited.takesPlace (h : Suited cfg token req) (hinit : s₀.Initial)
    (hsrv : s₀.server.Representable) (hrun : Transition.run (Daemon.step cfg) s₀ as = some s)
    {debugAssertions : Bool} {got : Stream} {reply : LeaseReply}
    (hpeer : Peer s i got
      (call cfg.hello cfg.sessions.codec debugAssertions token req got).written)
    (hreply : (call cfg.hello cfg.sessions.codec debugAssertions token req got).outcome
      = .ok reply) :
    ∃ e u srv, s.handled i = [e] ∧ e.call.req = req ∧ e.reply = reply
      ∧ TakesPlace cfg s₀ as i e u srv := by
  obtain ⟨hok, hserved, -⟩ := Daemon.ok_of_run hinit hrun
  obtain ⟨-, hlog⟩ := representable_of_run h.codec hinit hsrv hrun
  obtain ⟨data, rigName, data', rest, hdata, -, hgot, hdecode, hdecode'⟩ := call_ok hreply
  obtain ⟨e, hhandled, hreq, rfl⟩ := h.answered hok hserved hlog hpeer call_written hdata hgot
    hdecode hdecode'
  obtain ⟨u, srv, hplace⟩ :=
    exists_takesPlace hinit hrun (hhandled ▸ List.mem_singleton_self e)
  exact ⟨e, u, srv, hhandled, hreq, rfl, hplace⟩

end Daemon

/-! ## What a client may rely on -/

/-- What `handle` says of the lease, it says of the lease at that moment. -/
theorem status_eq {srv srv' : LeaseServer} {now : ℕ} {minted : UInt64} {reply : LeaseReply}
    {status : LeaseStatus} (hhandle : srv.handle now minted .status = (srv', reply))
    (hstatus : statusReply reply = .ok status) :
    srv'.live now = srv.live now ∧ status.holder = srv.holder now
      ∧ status.expiresInS = ((srv.live now).map (fun held => held.expiresInS now)).getD 0 := by
  unfold LeaseServer.holder
  cases hlive : srv.live now with
  | none =>
    rw [LeaseServer.handle_status_free hlive] at hhandle
    obtain ⟨rfl, rfl⟩ := Prod.mk.inj hhandle
    obtain rfl := Except.ok.inj hstatus
    exact ⟨rfl, rfl, rfl⟩
  | some held =>
    rw [LeaseServer.handle_status_live hlive] at hhandle
    obtain ⟨rfl, rfl⟩ := Prod.mk.inj hhandle
    obtain rfl := Except.ok.inj hstatus
    refine ⟨?_, rfl, rfl⟩
    exact LeaseServer.live_eq_some.mpr ⟨rfl, (LeaseServer.live_eq_some.mp hlive).2⟩

/-- What is granted was free, and is held for `DEFAULT_TTL`. -/
theorem granted_eq {srv srv' : LeaseServer} {now : ℕ} {minted id : UInt64} {holder : String}
    {reply : LeaseReply} (hhandle : srv.handle now minted (acquireRequest holder) = (srv', reply))
    (hgranted : (reacquireReply reply).mapError CallError.lease = .ok id) :
    srv.live now = none ∧ ∃ held, srv'.state = some held ∧ held.id = id ∧ held.holder = holder
      ∧ held.expiresAt = now + defaultTtl := by
  cases hlive : srv.live now with
  | none =>
    unfold acquireRequest at hhandle
    rw [LeaseServer.handle_acquire_free hlive] at hhandle
    obtain ⟨rfl, rfl⟩ := Prod.mk.inj hhandle
    obtain rfl := Except.ok.inj hgranted
    exact ⟨rfl, _, rfl, rfl, rfl, congrArg (now + ·) clamp_acquire_ttl⟩
  | some held =>
    unfold acquireRequest at hhandle
    rw [LeaseServer.handle_acquire_live hlive] at hhandle
    obtain ⟨-, rfl⟩ := Prod.mk.inj hhandle
    exact absurd hgranted nofun

/-- **Calls are linearizable.** A client makes one call on a daemon, over a connection
that neither loses nor invents bytes, and at some moment of the run has read `got`, in
whatever pieces:

* of its requests the daemon has handled at most the one, and none if its token is not
  the daemon's; so much is true also of a call that has failed or is going on;
* if the call has returned a reply, that one has been handled at a moment of the run,
  and the reply is what the server answered at that moment;
* if `query_status` has returned, who it says holds the lease, and for how long, was so
  at a moment of the run, and asking has changed nothing;
* if `reacquire` has returned an id, then at a moment of the run the rig was free, and
  the lease has been given to this holder under this id for `DEFAULT_TTL`. -/
theorem calls_linearized (cfg : Daemon.Config) {s₀ s : State κ}
    {as : List (Sessions.Action κ)} (hinit : s₀.Initial) (hsrv : s₀.server.Representable)
    (hrun : Transition.run (Daemon.step cfg) s₀ as = some s) (debugAssertions : Bool)
    (token : String) (i : κ) (got : Stream) :
    (∀ req, Suited cfg token req → ∀ c,
        c = call cfg.hello cfg.sessions.codec debugAssertions token req got →
        Peer s i got c.written →
        (s.handled i).map (fun e => e.call.req) <+: [req]
          ∧ (s.handled i ≠ [] → token = cfg.token)
          ∧ ∀ reply, c.outcome = .ok reply → ∃ e u srv, s.handled i = [e] ∧ e.call.req = req
              ∧ e.reply = reply ∧ TakesPlace cfg s₀ as i e u srv)
      ∧ (Suited cfg token .status → ∀ c,
        c = queryStatus cfg.hello cfg.sessions.codec debugAssertions token got →
        Peer s i got c.written → ∀ status, c.outcome = .ok status →
          ∃ e u srv, TakesPlace cfg s₀ as i e u srv ∧ srv.live u.now = u.server.live u.now
            ∧ status.holder = u.server.holder u.now
            ∧ status.expiresInS
                = ((u.server.live u.now).map (fun held => held.expiresInS u.now)).getD 0)
      ∧ ∀ holder, Suited cfg token (acquireRequest holder) → ∀ c,
        c = reacquire cfg.hello cfg.sessions.codec debugAssertions token holder got →
        Peer s i got c.written → ∀ id, c.outcome = .ok id →
          ∃ e u srv, TakesPlace cfg s₀ as i e u srv ∧ u.server.live u.now = none
            ∧ ∃ held, srv.state = some held ∧ held.id = id ∧ held.holder = holder
                ∧ held.expiresAt = u.now + defaultTtl := by
  obtain ⟨hok, hserved, -⟩ := Daemon.ok_of_run hinit hrun
  refine ⟨?_, ?_, ?_⟩
  · rintro req h c rfl hpeer
    obtain ⟨honce, htoken⟩ := h.handled hok hserved hpeer call_written
    exact ⟨honce, htoken, fun reply => h.takesPlace hinit hsrv hrun hpeer⟩
  · rintro h c rfl hpeer status hstatus
    obtain ⟨reply, hreply, hresult⟩ := andThen_eq_ok hstatus
    obtain ⟨e, u, srv, -, hreq, rfl, hplace⟩ := h.takesPlace hinit hsrv hrun hpeer hreply
    obtain ⟨bs, cs, u', has, hbs, hstep, hserver, hhandle⟩ := hplace
    refine ⟨e, u, srv, ⟨bs, cs, u', has, hbs, hstep, hserver, hhandle⟩, ?_⟩
    rw [hreq] at hhandle
    exact status_eq hhandle hresult
  · rintro holder h c rfl hpeer id hid
    obtain ⟨reply, hreply, hresult⟩ := andThen_eq_ok hid
    obtain ⟨e, u, srv, -, hreq, rfl, hplace⟩ := h.takesPlace hinit hsrv hrun hpeer hreply
    obtain ⟨bs, cs, u', has, hbs, hstep, hserver, hhandle⟩ := hplace
    refine ⟨e, u, srv, ⟨bs, cs, u', has, hbs, hstep, hserver, hhandle⟩, ?_⟩
    rw [hreq] at hhandle
    exact granted_eq hhandle hresult

/-! ### Asking while another client acquires -/

theorem suited_postcardDaemon {req : LeaseRequest} (hreq : req.Representable)
    (hfits : req.toPostcard.length ≤ maxFrame) : Suited Daemon.postcardDaemon "token" req where
  hello := HelloCodec.postcard_faithful
  codec := LeaseCodec.postcard_exact
  rigName := by decide
  denied := by decide
  token := by decide
  representable := hreq
  request := hfits

/-- Client 0 asks for the status before client 1 acquires, and is answered after. -/
def queryRun : List (Sessions.Action ℕ) :=
  [.arrive 0 (hail HelloCodec.postcard "token"),
    .arrive 1 (hail HelloCodec.postcard "token" ++ frame (acquireRequest "a").toPostcard),
    .read 0 0,
    .write 0 100,
    .arrive 0 (frame LeaseRequest.status.toPostcard),
    .read 1 0,
    .write 1 100,
    .read 1 7,
    .tick (Duration.fromSecs 1),
    .read 0 0,
    .write 0 100]

/-- What client 0 reads, in three pieces. -/
def queryReply : Stream :=
  [.bytes 7 [0, 0, 0, 0, 5, 98], .bytes 101 [110, 99, 104, 5, 0], .bytes 0 [0, 4, 1, 1, 97, 59]]

/-- **What it is told was so**, when it was told so. -/
theorem queryRun_linearized :
    (queryStatus HelloCodec.postcard LeaseCodec.postcard true "token" queryReply).outcome
        = .ok ⟨some "a", 59⟩
      ∧ ∃ e u srv, TakesPlace Daemon.postcardDaemon Daemon.freeDaemon queryRun 0 e u srv
          ∧ u.server.holder u.now = some "a" := by
  have houtcome : (queryStatus HelloCodec.postcard LeaseCodec.postcard true "token"
      queryReply).outcome = .ok ⟨some "a", 59⟩ := by
    decide +kernel
  have hend : (Transition.run (Daemon.step Daemon.postcardDaemon) Daemon.freeDaemon queryRun).map
      (fun s => ((s.links 0).sent, (s.links 0).stream))
      = some (contents queryReply, (queryStatus HelloCodec.postcard LeaseCodec.postcard true
          "token" queryReply).written) := by
    decide +kernel
  obtain ⟨s, hrun, hs⟩ := Option.map_eq_some_iff.mp hend
  obtain ⟨hsent, hstream⟩ := Prod.mk.inj hs
  have hpeer : Peer s 0 queryReply (queryStatus HelloCodec.postcard LeaseCodec.postcard true
      "token" queryReply).written := ⟨hsent ▸ List.prefix_rfl, hstream ▸ List.prefix_rfl⟩
  have hinit : Daemon.freeDaemon.Initial := ⟨fun _ => rfl, rfl⟩
  obtain ⟨-, hstatus, -⟩ := calls_linearized Daemon.postcardDaemon hinit nofun hrun true "token" 0
    queryReply
  obtain ⟨e, u, srv, hplace, -, hholder, -⟩ :=
    hstatus (suited_postcardDaemon trivial (by decide)) _ rfl hpeer _ houtcome
  exact ⟨houtcome, e, u, srv, hplace, hholder.symm⟩

end Remote

end Banc
