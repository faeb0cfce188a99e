import Banc.Lib.Transition
import Banc.Net.Frame
import Banc.Net.Lease.Client
import Banc.Net.Lease.Wire

/-!
# Pairing replies with requests

A lease connection carries no correlation ids: `roundtrip` writes a request
and takes the next frame that arrives for its reply. This module runs the
client of `Banc.Net.Lease.Client` against a `LeaseServer` over connections
that are two streams of bytes, and asks when the next frame *is* the reply.

A connection keeps every byte either side has written since the handshake,
and how many of them the other side has consumed. A write may stop after any
number of bytes, a read when any number have arrived, so both time out at any
position; what a read has consumed by then is gone. The server reads its side
at its own pace, and other connections' requests are handled in between. Each
answer records which bytes of the connection it read and which it wrote
(`Answer`); each roundtrip that returns a reply records the connection before
and after (`Exchange`).

A roundtrip that timed out leaves its connection with a request still to be
answered, or with a reply still to be read, or part of one. The loop then
reconnects; but where `reacquire` fails it goes back to that connection
(`Renewing.afterReacquire`), and what it reads there belongs to an earlier
request (`lateReply_mispaired`). A reply is the answer to the request
it is returned for exactly when nothing was outstanding on the connection when
the request was sent (`paired_iff_settled`).
-/

namespace Banc

namespace Pairing

/-- One request the server has answered on a connection: the bytes of the
connection it took for the request, and those it wrote in reply. -/
structure Answer where
  request : LeaseRequest
  reply : LeaseReply
  reqStart : ℕ
  reqEnd : ℕ
  repStart : ℕ
  repEnd : ℕ
  deriving DecidableEq

/-- An authenticated connection, from the first frame after the handshake. -/
structure Conn where
  /-- All bytes the client has written. -/
  sent : List UInt8
  /-- How many of them the server has consumed. -/
  served : ℕ
  /-- All bytes the server has written. -/
  replied : List UInt8
  /-- How many of them the client has consumed. -/
  read : ℕ
  /-- `serve_conn` has returned. -/
  closed : Bool
  answers : List Answer
  deriving DecidableEq

/-- A roundtrip that returned a reply. -/
structure Exchange where
  before : Conn
  after : Conn
  request : LeaseRequest
  reply : LeaseReply
  deriving DecidableEq

/-- The calls of `roundtrip`. -/
inductive Call where
  /-- In the loop of `acquire`. -/
  | acquire
  /-- In `renew_loop`, on its stream. -/
  | renew (id : UInt64)
  /-- In `reacquire`, on a fresh connection. -/
  | reacquire (st : Renewing Conn)
  /-- In `renew_loop`, on its way out. -/
  | release (id : UInt64)
  deriving DecidableEq

/-- Where the client is. -/
inductive Phase where
  /-- About to call `roundtrip`. -/
  | ready (call : Call) (conn : Conn)
  /-- In `roundtrip`, the request written; `before` is the connection as it
  was before that. -/
  | calling (call : Call) (before conn : Conn)
  /-- In `renew_loop`, waiting on the stop channel. -/
  | waiting (st : Renewing Conn)
  /-- In `reacquire`, connecting. -/
  | connecting (st : Renewing Conn)
  /-- The client has failed or exited. -/
  | done
  deriving DecidableEq

/-- The server, its clock, and the one client. -/
structure State where
  now : ℕ
  server : LeaseServer
  phase : Phase
  /-- The roundtrips that returned a reply, the first one first. -/
  log : List Exchange
  deriving DecidableEq

/-- The codec, the build profile, the holder, and the deadline of its
`acquire`. -/
structure Config where
  codec : LeaseCodec
  debugAssertions : Bool
  holder : String
  deadline : ℕ

/-- What may happen. -/
inductive Action where
  /-- Time passes. -/
  | tick (d : ℕ)
  /-- A request of another client, or one left on a connection this client
  has closed, is handled. -/
  | other (req : LeaseRequest) (minted : UInt64)
  /-- The server reads the next frame of the client's connection. -/
  | serve (minted : UInt64)
  /-- The server reads the next frame of the connection `reacquire` is about
  to replace. -/
  | serveKept (minted : UInt64)
  /-- The request is written. -/
  | write
  /-- Writing it stops after `k` bytes. -/
  | writeFails (k : ℕ)
  /-- The read of the reply ends, `n` bytes having arrived. -/
  | receive (n : ℕ)
  /-- The renew thread wakes up. -/
  | wake
  /-- The stop channel closes. -/
  | stop
  | connected
  | connectFails
  deriving DecidableEq

namespace Conn

/-- A connection just past its handshake. -/
def fresh : Conn := ⟨[], 0, [], 0, false, []⟩

/-- The server has answered a request: the connection it leaves. -/
def answer (c : Conn) (req : LeaseRequest) (reply : LeaseReply) (served : ℕ)
    (bs : List UInt8) : Conn :=
  { c with
    served
    replied := c.replied ++ bs
    answers := ⟨req, reply, c.served, served, c.replied.length,
      c.replied.length + bs.length⟩ :: c.answers }

/-- The client writes. -/
def write (c : Conn) (bs : List UInt8) : Conn := { c with sent := c.sent ++ bs }

/-- One iteration of `serve_conn`, if a frame has arrived: read it, decode
it, handle it, and write the reply. A frame that cannot be read or decoded
ends the connection, as does the panic of a debug build on an oversized
reply. -/
def serve (cfg : Config) (now : ℕ) (minted : UInt64) (srv : LeaseServer)
    (c : Conn) : Option (LeaseServer × Conn) :=
  if c.closed then none
  else match readFrame (c.sent.drop c.served) with
    | (.error .short, _) => none
    | (.error (.tooLong _), _) => some (srv, { c with closed := true })
    | (.ok data, rest) =>
      match cfg.codec.decodeRequest data with
      | none => some (srv, { c with closed := true })
      | some req =>
        let r := srv.handle now minted req
        match writeFrame cfg.debugAssertions (cfg.codec.encodeReply r.2) with
        | none => some (r.1, { c with closed := true })
        | some bs => some (r.1, c.answer req r.2 (c.sent.length - rest.length) bs)

/-- The second half of `roundtrip`: `n` bytes of the reply stream arrive. -/
def receive (cfg : Config) (n : ℕ) (c : Conn) :
    Except LeaseError LeaseReply × Conn :=
  let arrived := (c.replied.drop c.read).take n
  let r := readFrame arrived
  let c' := { c with read := c.read + (arrived.length - r.2.length) }
  match r.1 with
  | .error _ => (.error .io, c')
  | .ok data =>
    match cfg.codec.decodeReply data with
    | none => (.error .io, c')
    | some reply => (.ok reply, c')

/-- Nothing is outstanding: the server has consumed all the client has
written, and the client all the server has. -/
def Settled (c : Conn) : Prop := c.served = c.sent.length ∧ c.read = c.replied.length

instance (c : Conn) : Decidable c.Settled := inferInstanceAs (Decidable (_ ∧ _))

end Conn

/-- **The reply is the server's answer to that very request**: the server has
answered, on this connection, the request made of exactly the bytes this
roundtrip wrote, with exactly the bytes this roundtrip read. -/
def Exchange.Paired (x : Exchange) : Prop :=
  ∃ a ∈ x.after.answers, a.request = x.request ∧ a.reply = x.reply
    ∧ a.reqStart = x.before.sent.length ∧ a.reqEnd = x.after.sent.length
    ∧ a.repStart = x.before.read ∧ a.repEnd = x.after.read

instance (x : Exchange) : Decidable x.Paired :=
  inferInstanceAs (Decidable (∃ a ∈ _, _))

/-- The request of a call. -/
def Call.request (cfg : Config) : Call → LeaseRequest
  | .acquire => acquireRequest cfg.holder
  | .renew id => .renew id
  | .reacquire _ => acquireRequest cfg.holder
  | .release id => .release id

/-- Where the client goes when `roundtrip` returns. -/
def Call.after (cfg : Config) (now : ℕ) (conn : Conn)
    (outcome : Except LeaseError LeaseReply) : Call → Phase
  | .acquire =>
    match outcome with
    | .error _ => .done
    | .ok reply =>
      match acquireReply now cfg.deadline reply with
      | .granted id => .waiting ⟨conn, id⟩
      | .sleep => .ready .acquire conn
      | .bail _ => .done
  | .renew id =>
    if reacquires outcome then .connecting ⟨conn, id⟩ else .waiting ⟨conn, id⟩
  | .reacquire st =>
    .waiting (st.afterReacquire
      ((outcome.bind reacquireReply).map (fun id => (conn, id))))
  | .release _ => .done

/-- The server serves the connection the client is using. -/
def Phase.serve (f : Conn → Option (LeaseServer × Conn)) :
    Phase → Option (LeaseServer × Phase)
  | .ready call conn => (f conn).map (fun r => (r.1, .ready call r.2))
  | .calling call before conn =>
    (f conn).map (fun r => (r.1, .calling call before r.2))
  | .waiting st => (f st.stream).map (fun r => (r.1, .waiting ⟨r.2, st.id⟩))
  | .connecting st => (f st.stream).map (fun r => (r.1, .connecting ⟨r.2, st.id⟩))
  | .done => none

/-- The server serves the connection `reacquire` came with. -/
def Phase.serveKept (f : Conn → Option (LeaseServer × Conn)) :
    Phase → Option (LeaseServer × Phase)
  | .ready (.reacquire st) conn =>
    (f st.stream).map (fun r => (r.1, .ready (.reacquire ⟨r.2, st.id⟩) conn))
  | .calling (.reacquire st) before conn =>
    (f st.stream).map
      (fun r => (r.1, .calling (.reacquire ⟨r.2, st.id⟩) before conn))
  | _ => none

/-- The step function. -/
def step (cfg : Config) (s : State) : Action → Option State
  | .tick d => some { s with now := s.now + d }
  | .other req minted =>
    if req.Representable then
      some { s with server := (s.server.handle s.now minted req).1 }
    else none
  | .serve minted =>
    (s.phase.serve (Conn.serve cfg s.now minted s.server)).map
      (fun r => { s with server := r.1, phase := r.2 })
  | .serveKept minted =>
    (s.phase.serveKept (Conn.serve cfg s.now minted s.server)).map
      (fun r => { s with server := r.1, phase := r.2 })
  | .write =>
    match s.phase with
    | .ready call conn =>
      match writeFrame cfg.debugAssertions
          (cfg.codec.encodeRequest (call.request cfg)) with
      | none => some { s with phase := .done }
      | some bs => some { s with phase := .calling call conn (conn.write bs) }
    | _ => none
  | .writeFails k =>
    match s.phase with
    | .ready call conn =>
      match writeFrame cfg.debugAssertions
          (cfg.codec.encodeRequest (call.request cfg)) with
      | none => none
      | some bs =>
        if k < bs.length then
          some { s with
            phase := call.after cfg s.now (conn.write (bs.take k)) (.error .io) }
        else none
    | _ => none
  | .receive n =>
    match s.phase with
    | .calling call before conn =>
      let r := conn.receive cfg n
      some { s with
        phase := call.after cfg s.now r.2 r.1
        log := match r.1 with
          | .ok reply => s.log ++ [⟨before, r.2, call.request cfg, reply⟩]
          | .error _ => s.log }
    | _ => none
  | .wake =>
    match s.phase with
    | .waiting st => some { s with phase := .ready (.renew st.id) st.stream }
    | _ => none
  | .stop =>
    match s.phase with
    | .waiting st => some { s with phase := .ready (.release st.id) st.stream }
    | _ => none
  | .connected =>
    match s.phase with
    | .connecting st => some { s with phase := .ready (.reacquire st) Conn.fresh }
    | _ => none
  | .connectFails =>
    match s.phase with
    | .connecting st =>
      some { s with phase := .waiting (st.afterReacquire (.error .io)) }
    | _ => none

/-- **The client begins `acquire`**, on a connection just past its handshake,
with a server in any state. -/
structure State.Initial (s : State) : Prop where
  phase : s.phase = .ready .acquire Conn.fresh
  log : s.log = []
  server : s.server.Representable

/-! ## What each side does to a connection -/

/-- **One iteration of `serve_conn`** either ends the connection, or answers
the next frame on it. -/
theorem Conn.serve_cases {cfg : Config} {now : ℕ} {minted : UInt64}
    {srv srv' : LeaseServer} {c c' : Conn}
    (h : c.serve cfg now minted srv = some (srv', c')) :
    (c' = { c with closed := true }
        ∧ (srv' = srv ∨ ∃ data req, cfg.codec.decodeRequest data = some req
            ∧ srv' = (srv.handle now minted req).1))
      ∨ ∃ data rest req, c.closed = false
          ∧ readFrame (c.sent.drop c.served) = (.ok data, rest)
          ∧ cfg.codec.decodeRequest data = some req
          ∧ srv' = (srv.handle now minted req).1
          ∧ c' = c.answer req (srv.handle now minted req).2
              (c.sent.length - rest.length)
              (frame (cfg.codec.encodeReply (srv.handle now minted req).2)) := by
  rw [Conn.serve] at h
  split at h
  · simp at h
  rename_i hopen
  split at h
  · simp at h
  · obtain ⟨rfl, rfl⟩ := Prod.mk.inj (Option.some.inj h)
    exact .inl ⟨rfl, .inl rfl⟩
  rename_i data rest hread
  split at h
  · obtain ⟨rfl, rfl⟩ := Prod.mk.inj (Option.some.inj h)
    exact .inl ⟨rfl, .inl rfl⟩
  rename_i req hreq
  dsimp only at h
  split at h
  · obtain ⟨rfl, rfl⟩ := Prod.mk.inj (Option.some.inj h)
    exact .inl ⟨rfl, .inr ⟨data, req, hreq, rfl⟩⟩
  · rename_i bs hbs
    obtain rfl := writeFrame_eq_some hbs
    obtain ⟨rfl, rfl⟩ := Prod.mk.inj (Option.some.inj h)
    exact .inr ⟨data, rest, req, Bool.eq_false_iff.mpr hopen, hread, hreq, rfl, rfl⟩

/-- **A roundtrip that returns a reply** has read one frame, and decoded it. -/
theorem Conn.receive_ok {cfg : Config} {n : ℕ} {c c' : Conn} {reply : LeaseReply}
    (h : c.receive cfg n = (.ok reply, c')) :
    ∃ data rest, readFrame ((c.replied.drop c.read).take n) = (.ok data, rest)
      ∧ cfg.codec.decodeReply data = some reply
      ∧ c' = { c with
          read := c.read + (((c.replied.drop c.read).take n).length - rest.length) } := by
  rw [Conn.receive] at h
  split at h
  · simp at h
  rename_i data hdata
  split at h
  · simp at h
  rename_i reply' hreply
  simp only [Prod.mk.injEq, Except.ok.injEq] at h
  obtain ⟨rfl, rfl⟩ := h
  exact ⟨data, _, Prod.ext hdata rfl, hreply, rfl⟩

/-! ## Connections stay in order -/

/-- Neither side is ahead of the other, and answers are to what has been
consumed. -/
structure Conn.Valid (c : Conn) : Prop where
  served_le : c.served ≤ c.sent.length
  read_le : c.read ≤ c.replied.length
  answered : ∀ a ∈ c.answers, a.reqStart < c.served

namespace Conn.Valid

theorem fresh : Conn.fresh.Valid where
  served_le := le_rfl
  read_le := le_rfl
  answered _ ha := absurd ha List.not_mem_nil

theorem write {c : Conn} (hc : c.Valid) (bs : List UInt8) : (c.write bs).Valid where
  served_le := by
    show c.served ≤ (c.sent ++ bs).length
    rw [List.length_append]
    exact hc.served_le.trans (Nat.le_add_right _ _)
  read_le := hc.read_le
  answered := hc.answered

theorem receive {cfg : Config} {n : ℕ} {c : Conn} (hc : c.Valid) :
    (c.receive cfg n).2.Valid := by
  have hread : ∀ k, c.read + (((c.replied.drop c.read).take n).length - k)
      ≤ c.replied.length := by
    intro k
    have := hc.read_le
    rw [List.length_take, List.length_drop]
    omega
  rw [Conn.receive]
  split
  · exact ⟨hc.served_le, hread _, hc.answered⟩
  · split <;> exact ⟨hc.served_le, hread _, hc.answered⟩

theorem close {c : Conn} (hc : c.Valid) : ({ c with closed := true } : Conn).Valid :=
  ⟨hc.served_le, hc.read_le, hc.answered⟩

/-- How far the server gets by reading a frame. -/
theorem served_lt {c : Conn} (hc : c.Valid) {data rest : List UInt8}
    (h : readFrame (c.sent.drop c.served) = (.ok data, rest)) :
    c.served < c.sent.length - rest.length := by
  have hlen := length_of_readFrame h
  have := hc.served_le
  rw [List.length_drop] at hlen
  omega

theorem serve {cfg : Config} {now : ℕ} {minted : UInt64}
    {srv srv' : LeaseServer} {c c' : Conn} (hc : c.Valid)
    (h : c.serve cfg now minted srv = some (srv', c')) : c'.Valid := by
  obtain ⟨rfl, -⟩ | ⟨data, rest, req, -, hread, -, -, rfl⟩ := Conn.serve_cases h
  · exact hc.close
  · have hlt := hc.served_lt hread
    refine ⟨Nat.sub_le _ _, ?_, ?_⟩
    · show c.read ≤ (c.replied ++ _).length
      rw [List.length_append]
      exact hc.read_le.trans (Nat.le_add_right _ _)
    · intro a ha
      obtain rfl | ha := List.mem_cons.mp ha
      · exact hlt
      · exact (hc.answered a ha).trans hlt

end Conn.Valid

/-! ## A roundtrip under way -/

/-- A roundtrip that began with nothing outstanding: its request is the next
thing the server reads, and what the server replies is the next thing the
client reads. -/
inductive Due (cfg : Config) (req : LeaseRequest) (before conn : Conn) : Prop where
  | unanswered (replied : conn.replied.length = before.read)
      (served : conn.served = before.sent.length)
  | unanswerable (replied : conn.replied.length = before.read)
      (closed : conn.closed = true)
  | answered (a : Answer) (mem : a ∈ conn.answers) (request : a.request = req)
      (reqStart : a.reqStart = before.sent.length)
      (reqEnd : a.reqEnd = conn.sent.length)
      (repStart : a.repStart = before.read)
      (repEnd : a.repEnd = conn.replied.length)
      (representable : a.reply.Representable)
      (reply : conn.replied.drop before.read
        = frame (cfg.codec.encodeReply a.reply))
      (served : conn.served = conn.sent.length)

/-- A roundtrip that began with something outstanding: the server has not got
to its request, or the client has a reply to read before the one to it. -/
structure Behind (before conn : Conn) : Prop where
  behind : before.read < conn.replied.length ∨ conn.served < before.sent.length
  later : ∀ a ∈ conn.answers, before.sent.length ≤ a.reqStart →
    before.read < a.repStart

/-- **What holds while a reply is awaited.** -/
structure Awaiting (cfg : Config) (req : LeaseRequest) (before conn : Conn) :
    Prop where
  valid : conn.Valid
  sent : conn.sent = before.sent ++ frame (cfg.codec.encodeRequest req)
  read : conn.read = before.read
  settled : before.Settled → Due cfg req before conn
  unsettled : ¬ before.Settled → Behind before conn

namespace Awaiting

variable {cfg : Config} {req : LeaseRequest} {before conn : Conn}

/-- Sending the request. -/
theorem of_write (hconn : conn.Valid) :
    Awaiting cfg req conn (conn.write (frame (cfg.codec.encodeRequest req))) where
  valid := hconn.write _
  sent := rfl
  read := rfl
  settled h := .unanswered h.2.symm h.1
  unsettled h := by
    refine ⟨?_, fun a ha hle => ?_⟩
    · show conn.read < conn.replied.length ∨ conn.served < conn.sent.length
      by_contra hcon
      obtain ⟨hread, hserved⟩ := not_or.mp hcon
      exact h ⟨le_antisymm hconn.served_le (not_lt.mp hserved),
        le_antisymm hconn.read_le (not_lt.mp hread)⟩
    · exact absurd ((hconn.answered a ha).trans_le hconn.served_le) (not_lt.mpr hle)

/-- The server, having nothing else to read, reads the request. -/
theorem serve_due {now : ℕ} {minted : UInt64} {srv srv' : LeaseServer}
    {conn' : Conn} (hcodec : cfg.codec.Exact) (hreq : req.Representable)
    (hsrv : srv.Representable) (h : Awaiting cfg req before conn)
    (hdue : Due cfg req before conn)
    (hserve : conn.serve cfg now minted srv = some (srv', conn')) :
    Due cfg req before conn' := by
  obtain ⟨rfl, -⟩ | ⟨data, rest, req', hopen, hread, hdecode, -, rfl⟩ :=
    Conn.serve_cases hserve
  · cases hdue with
    | unanswered replied served => exact .unanswerable replied rfl
    | unanswerable replied closed => exact .unanswerable replied rfl
    | answered a mem request reqStart reqEnd repStart repEnd representable reply served =>
      exact .answered a mem request reqStart reqEnd repStart repEnd representable
        reply served
  · cases hdue with
    | unanswered replied served =>
      -- The unread bytes are the frame of the request, and nothing else.
      have hunread : conn.sent.drop conn.served
          = (frame (cfg.codec.encodeRequest req)).take
            (frame (cfg.codec.encodeRequest req)).length := by
        rw [h.sent, served, List.drop_left, List.take_length]
      rw [hunread] at hread
      obtain ⟨rfl, rfl, -⟩ | ⟨k, hk, rfl⟩ := readFrame_take_frame hread
      · rw [hcodec.request_whole req hreq] at hdecode
        obtain rfl := Option.some.inj hdecode
        refine .answered _ List.mem_cons_self rfl served rfl replied
          (by rw [Conn.answer, List.length_append])
          (hsrv.handle now minted hreq).2 ?_ (Nat.sub_zero _)
        show (conn.replied ++ _).drop before.read = _
        rw [← replied, List.drop_left]
      · rw [hcodec.request_cut req hreq k hk] at hdecode
        simp at hdecode
    | unanswerable replied closed =>
      rw [closed] at hopen
      simp at hopen
    | answered a mem request reqStart reqEnd repStart repEnd representable reply served =>
      have hlt := h.valid.served_lt hread
      omega

/-- The server, whatever it reads, does not get ahead of what was
outstanding. -/
theorem serve_behind {now : ℕ} {minted : UInt64} {srv srv' : LeaseServer}
    {conn' : Conn} (h : Awaiting cfg req before conn)
    (hbehind : Behind before conn)
    (hserve : conn.serve cfg now minted srv = some (srv', conn')) :
    Behind before conn' := by
  have hread := h.read ▸ h.valid.read_le
  obtain ⟨rfl, -⟩ | ⟨data, rest, req', -, -, -, -, rfl⟩ := Conn.serve_cases hserve
  · exact ⟨hbehind.behind, hbehind.later⟩
  · refine ⟨.inl ?_, fun a ha hle => ?_⟩
    · show before.read < (conn.replied ++ frame _).length
      rw [List.length_append, length_frame]
      omega
    · obtain rfl | ha := List.mem_cons.mp ha
      · exact hbehind.behind.resolve_right (not_lt.mpr hle)
      · exact hbehind.later a ha hle

theorem serve {now : ℕ} {minted : UInt64} {srv srv' : LeaseServer} {conn' : Conn}
    (hcodec : cfg.codec.Exact) (hreq : req.Representable)
    (hsrv : srv.Representable) (h : Awaiting cfg req before conn)
    (hserve : conn.serve cfg now minted srv = some (srv', conn')) :
    Awaiting cfg req before conn' where
  valid := h.valid.serve hserve
  sent := by
    obtain ⟨rfl, -⟩ | ⟨_, _, _, -, -, -, -, rfl⟩ := Conn.serve_cases hserve
    · exact h.sent
    · exact h.sent
  read := by
    obtain ⟨rfl, -⟩ | ⟨_, _, _, -, -, -, -, rfl⟩ := Conn.serve_cases hserve
    · exact h.read
    · exact h.read
  settled hs := serve_due hcodec hreq hsrv h (h.settled hs) hserve
  unsettled hs := serve_behind h (h.unsettled hs) hserve

/-- **What a roundtrip returns**: the answer to its request if nothing was
outstanding when it began, and otherwise something else. -/
theorem paired_iff {n : ℕ} {reply : LeaseReply} {after : Conn}
    (hcodec : cfg.codec.Exact) (h : Awaiting cfg req before conn)
    (hreceive : conn.receive cfg n = (.ok reply, after)) :
    Exchange.Paired ⟨before, after, req, reply⟩ ↔ before.Settled := by
  obtain ⟨data, rest, hread, hdecode, rfl⟩ := Conn.receive_ok hreceive
  constructor
  · rintro ⟨a, ha, -, -, hreqStart, -, hrepStart, -⟩
    by_contra hs
    have hlater := (h.unsettled hs).later a ha hreqStart.ge
    exact absurd hrepStart.symm hlater.ne
  · intro hs
    rw [h.read] at hread
    cases h.settled hs with
    | unanswered replied served =>
      have hlen := length_of_readFrame hread
      rw [List.length_take, List.length_drop, replied] at hlen
      omega
    | unanswerable replied closed =>
      have hlen := length_of_readFrame hread
      rw [List.length_take, List.length_drop, replied] at hlen
      omega
    | answered a mem request reqStart reqEnd repStart repEnd representable hreply served =>
      rw [hreply] at hread
      obtain ⟨rfl, rfl, hn⟩ | ⟨k, hk, rfl⟩ := readFrame_take_frame hread
      · rw [hcodec.reply_whole a.reply representable] at hdecode
        obtain rfl := Option.some.inj hdecode
        refine ⟨a, mem, request, rfl, reqStart, reqEnd, repStart, ?_⟩
        show a.repEnd = conn.read + (_ - 0)
        have hlen := congrArg List.length hreply
        have := h.valid.read_le
        rw [List.length_drop, length_frame] at hlen
        rw [h.read] at this ⊢
        rw [hreply, List.length_take, length_frame, repEnd]
        omega
      · rw [hcodec.reply_cut a.reply representable k hk] at hdecode
        simp at hdecode

end Awaiting

/-! ## Whole runs -/

/-- The connection `reacquire` may fall back on is in order. -/
def Call.Ok : Call → Prop
  | .reacquire st => st.stream.Valid
  | _ => True

/-- The connections of the client are in order. -/
def Phase.Ok (cfg : Config) : Phase → Prop
  | .ready call conn => call.Ok ∧ conn.Valid
  | .calling call before conn =>
    call.Ok ∧ Awaiting cfg (call.request cfg) before conn
  | .waiting st => st.stream.Valid
  | .connecting st => st.stream.Valid
  | .done => True

/-- **The invariant.** -/
structure Inv (cfg : Config) (s : State) : Prop where
  server : s.server.Representable
  phase : s.phase.Ok cfg
  log : ∀ x ∈ s.log, x.Paired ↔ x.before.Settled

section Preservation

variable {cfg : Config}

theorem Call.request_representable (hholder : Representable cfg.holder)
    (call : Call) : (call.request cfg).Representable := by
  cases call with
  | acquire => exact hholder
  | renew id => trivial
  | reacquire st => exact hholder
  | release id => trivial

/-- Wherever the client goes from a roundtrip, it takes connections in order
with it. -/
theorem Call.Ok.after {call : Call} (hcall : call.Ok) (now : ℕ) {conn : Conn}
    (hconn : conn.Valid) (outcome : Except LeaseError LeaseReply) :
    (call.after cfg now conn outcome).Ok cfg := by
  cases call with
  | acquire =>
    cases outcome with
    | error e => trivial
    | ok reply =>
      show Phase.Ok cfg (match acquireReply now cfg.deadline reply with
        | .granted id => .waiting ⟨conn, id⟩
        | .sleep => .ready .acquire conn
        | .bail _ => .done)
      split
      · exact hconn
      · exact ⟨trivial, hconn⟩
      · trivial
  | renew id =>
    show Phase.Ok cfg (if reacquires outcome then _ else _)
    split <;> exact hconn
  | reacquire st =>
    show (st.afterReacquire _).stream.Valid
    cases outcome.bind reacquireReply with
    | error e => exact hcall
    | ok id => exact hconn
  | release id => trivial

/-- The server handles only what a program can hold. -/
theorem Conn.serve_representable {now : ℕ} {minted : UInt64}
    {srv srv' : LeaseServer} {c c' : Conn} (hcodec : cfg.codec.Exact)
    (hsrv : srv.Representable)
    (h : c.serve cfg now minted srv = some (srv', c')) : srv'.Representable := by
  obtain ⟨-, rfl | ⟨data, req, hreq, rfl⟩⟩ | ⟨data, rest, req, -, -, hreq, rfl, -⟩ :=
    Conn.serve_cases h
  · exact hsrv
  · exact (hsrv.handle now minted (hcodec.request_representable data req hreq)).1
  · exact (hsrv.handle now minted (hcodec.request_representable data req hreq)).1

/-- Serving the connection the client is using. -/
theorem Phase.Ok.serve {now : ℕ} {minted : UInt64} {srv srv' : LeaseServer}
    {p p' : Phase} (hcodec : cfg.codec.Exact) (hholder : Representable cfg.holder)
    (hsrv : srv.Representable) (hp : p.Ok cfg)
    (h : p.serve (Conn.serve cfg now minted srv) = some (srv', p')) :
    srv'.Representable ∧ p'.Ok cfg := by
  cases p with
  | ready call conn =>
    obtain ⟨⟨srv'', conn'⟩, hserve, heq⟩ := Option.map_eq_some_iff.mp h
    obtain ⟨rfl, rfl⟩ := Prod.mk.inj heq
    exact ⟨Conn.serve_representable hcodec hsrv hserve, hp.1, hp.2.serve hserve⟩
  | calling call before conn =>
    obtain ⟨⟨srv'', conn'⟩, hserve, heq⟩ := Option.map_eq_some_iff.mp h
    obtain ⟨rfl, rfl⟩ := Prod.mk.inj heq
    exact ⟨Conn.serve_representable hcodec hsrv hserve, hp.1,
      hp.2.serve hcodec (call.request_representable hholder) hsrv hserve⟩
  | waiting st =>
    obtain ⟨⟨srv'', conn'⟩, hserve, heq⟩ := Option.map_eq_some_iff.mp h
    obtain ⟨rfl, rfl⟩ := Prod.mk.inj heq
    exact ⟨Conn.serve_representable hcodec hsrv hserve, Conn.Valid.serve hp hserve⟩
  | connecting st =>
    obtain ⟨⟨srv'', conn'⟩, hserve, heq⟩ := Option.map_eq_some_iff.mp h
    obtain ⟨rfl, rfl⟩ := Prod.mk.inj heq
    exact ⟨Conn.serve_representable hcodec hsrv hserve, Conn.Valid.serve hp hserve⟩
  | done => exact absurd h (by simp [Phase.serve])

/-- Serving the connection the client may fall back on. -/
theorem Phase.Ok.serveKept {now : ℕ} {minted : UInt64} {srv srv' : LeaseServer}
    {p p' : Phase} (hcodec : cfg.codec.Exact) (hsrv : srv.Representable)
    (hp : p.Ok cfg)
    (h : p.serveKept (Conn.serve cfg now minted srv) = some (srv', p')) :
    srv'.Representable ∧ p'.Ok cfg := by
  unfold Phase.serveKept at h
  split at h
  · obtain ⟨⟨srv'', conn'⟩, hserve, heq⟩ := Option.map_eq_some_iff.mp h
    obtain ⟨rfl, rfl⟩ := Prod.mk.inj heq
    exact ⟨Conn.serve_representable hcodec hsrv hserve,
      Conn.Valid.serve hp.1 hserve, hp.2⟩
  · obtain ⟨⟨srv'', conn'⟩, hserve, heq⟩ := Option.map_eq_some_iff.mp h
    obtain ⟨rfl, rfl⟩ := Prod.mk.inj heq
    exact ⟨Conn.serve_representable hcodec hsrv hserve,
      Conn.Valid.serve hp.1 hserve, hp.2⟩
  · simp at h

/-- **A step keeps the invariant.** -/
theorem Inv.step {s s' : State} {a : Action} (hcodec : cfg.codec.Exact)
    (hholder : Representable cfg.holder) (hs : Inv cfg s)
    (h : step cfg s a = some s') : Inv cfg s' := by
  have hphase := hs.phase
  cases a with
  | tick d =>
    obtain rfl := Option.some.inj h
    exact ⟨hs.server, hs.phase, hs.log⟩
  | other req minted =>
    rw [Pairing.step] at h
    split at h
    · rename_i hreq
      obtain rfl := Option.some.inj h
      exact ⟨(hs.server.handle s.now minted hreq).1, hs.phase, hs.log⟩
    · simp at h
  | serve minted =>
    obtain ⟨⟨srv', p'⟩, hserve, rfl⟩ := Option.map_eq_some_iff.mp h
    obtain ⟨hsrv, hp⟩ := hphase.serve hcodec hholder hs.server hserve
    exact ⟨hsrv, hp, hs.log⟩
  | serveKept minted =>
    obtain ⟨⟨srv', p'⟩, hserve, rfl⟩ := Option.map_eq_some_iff.mp h
    obtain ⟨hsrv, hp⟩ := hphase.serveKept hcodec hs.server hserve
    exact ⟨hsrv, hp, hs.log⟩
  | write =>
    rw [Pairing.step] at h
    split at h
    · rename_i call conn hready
      rw [hready] at hphase
      split at h
      · obtain rfl := Option.some.inj h
        exact ⟨hs.server, trivial, hs.log⟩
      · rename_i bs hbs
        obtain rfl := writeFrame_eq_some hbs
        obtain rfl := Option.some.inj h
        exact ⟨hs.server, ⟨hphase.1, Awaiting.of_write hphase.2⟩, hs.log⟩
    · simp at h
  | writeFails k =>
    rw [Pairing.step] at h
    split at h
    · rename_i call conn hready
      rw [hready] at hphase
      split at h
      · simp at h
      · rename_i bs hbs
        split at h
        · obtain rfl := Option.some.inj h
          exact ⟨hs.server,
            hphase.1.after s.now (hphase.2.write (bs.take k)) (.error .io), hs.log⟩
        · simp at h
    · simp at h
  | receive n =>
    rw [Pairing.step] at h
    split at h
    · rename_i call before conn hcalling
      rw [hcalling] at hphase
      obtain rfl := Option.some.inj h
      refine ⟨hs.server, hphase.1.after _ hphase.2.valid.receive _, ?_⟩
      generalize hr : conn.receive cfg n = r
      obtain ⟨outcome, conn'⟩ := r
      cases outcome with
      | error e => exact hs.log
      | ok reply =>
        intro x hx
        obtain hx | hx := List.mem_append.mp hx
        · exact hs.log x hx
        · obtain rfl := List.mem_singleton.mp hx
          exact hphase.2.paired_iff hcodec hr
    · simp at h
  | wake =>
    rw [Pairing.step] at h
    split at h
    · rename_i st hwaiting
      rw [hwaiting] at hphase
      obtain rfl := Option.some.inj h
      exact ⟨hs.server, ⟨trivial, hphase⟩, hs.log⟩
    · simp at h
  | stop =>
    rw [Pairing.step] at h
    split at h
    · rename_i st hwaiting
      rw [hwaiting] at hphase
      obtain rfl := Option.some.inj h
      exact ⟨hs.server, ⟨trivial, hphase⟩, hs.log⟩
    · simp at h
  | connected =>
    rw [Pairing.step] at h
    split at h
    · rename_i st hconnecting
      rw [hconnecting] at hphase
      obtain rfl := Option.some.inj h
      exact ⟨hs.server, ⟨hphase, Conn.Valid.fresh⟩, hs.log⟩
    · simp at h
  | connectFails =>
    rw [Pairing.step] at h
    split at h
    · rename_i st hconnecting
      rw [hconnecting] at hphase
      obtain rfl := Option.some.inj h
      exact ⟨hs.server, hphase, hs.log⟩
    · simp at h

theorem Inv.of_initial {s : State} (hs : s.Initial) : Inv cfg s where
  server := hs.server
  phase := by
    rw [hs.phase]
    exact ⟨trivial, Conn.Valid.fresh⟩
  log := by
    rw [hs.log]
    exact fun x hx => absurd hx List.not_mem_nil

end Preservation

/-- **When a reply is paired with its request.** In every run of the client –
with writes and reads that stop after any number of bytes, replies that come
as late as they like, and other clients' requests in between – a roundtrip
that returns a reply returns the server's answer to its own request if and
only if nothing was outstanding on the connection when it began. -/
theorem paired_iff_settled (cfg : Config) (hcodec : cfg.codec.Exact)
    (hholder : Representable cfg.holder) {s s' : State} (hs : s.Initial)
    {run : List Action} (hrun : Transition.run (step cfg) s run = some s') :
    ∀ x ∈ s'.log, x.Paired ↔ x.before.Settled :=
  (Transition.run_preserves (fun _ _ _ hi h => Inv.step hcodec hholder hi h)
    (Inv.of_initial hs) hrun).log

/-! ### A reply that comes late -/

/-- A holder whose messages are postcard. -/
def postcardHolder : Config := ⟨LeaseCodec.postcard, true, "holder", 0⟩

/-- It connects to a server whose rig is free. -/
def freeRig : State := ⟨0, LeaseServer.new, .ready .acquire Conn.fresh, []⟩

theorem freeRig_initial : freeRig.Initial where
  phase := rfl
  log := rfl
  server _ hheld := absurd hheld (by simp [freeRig, LeaseServer.new])

/-- The lease is granted, and the first Renew acknowledged. -/
def promptRun : List Action :=
  [.write, .serve 7, .receive 14, .wake, .write, .serve 0, .receive 5]

/-- **On a connection that is kept up with, replies are paired**: both
roundtrips of this run begin with nothing outstanding. -/
theorem promptRun_paired :
    ∃ s, Transition.run (step postcardHolder) freeRig promptRun = some s
      ∧ s.log.length = 2 ∧ ∀ x ∈ s.log, x.Paired := by
  have hend : (Transition.run (step postcardHolder) freeRig promptRun).map
      (fun s => decide (s.log.length = 2 ∧ ∀ x ∈ s.log, x.before.Settled))
        = some true := by
    decide +kernel
  obtain ⟨s, hrun, hlog⟩ := Option.map_eq_some_iff.mp hend
  obtain ⟨hlength, hsettled⟩ := of_decide_eq_true hlog
  refine ⟨s, hrun, hlength, fun x hx => ?_⟩
  exact (paired_iff_settled postcardHolder LeaseCodec.postcard_exact
    (by decide +kernel) freeRig_initial hrun x hx).mpr (hsettled x hx)

/-- The first Renew is answered, but its reply takes longer than the client
waits; the Acquire on the fresh connection finds the lease held – by the
client itself; and the second Renew goes out on the first connection. -/
def lateRun : List Action :=
  [.write, .serve 7, .receive 14,
    .wake, .write, .receive 0,
    .connected, .serveKept 0, .write, .serve 8, .receive 32,
    .wake, .write, .receive 5]

/-- **Replies are not always paired with their requests.** The second Renew
returns Ok before the server has read it. -/
theorem lateReply_mispaired :
    ¬ ∀ (cfg : Config), cfg.codec.Exact → Representable cfg.holder →
        ∀ (s s' : State) (run : List Action), s.Initial →
          Transition.run (step cfg) s run = some s' → ∀ x ∈ s'.log, x.Paired := by
  intro h
  have hend : (Transition.run (step postcardHolder) freeRig lateRun).map
      (fun s => decide (∃ x ∈ s.log, ¬ x.Paired)) = some true := by
    decide +kernel
  obtain ⟨s, hrun, hlog⟩ := Option.map_eq_some_iff.mp hend
  obtain ⟨x, hx, hnot⟩ := of_decide_eq_true hlog
  exact hnot (h postcardHolder LeaseCodec.postcard_exact (by decide +kernel)
    freeRig s lateRun freeRig_initial hrun x hx)

end Pairing

end Banc
