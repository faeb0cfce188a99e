import Mathlib.Logic.Function.Basic
import Banc.Lib.Purge
import Banc.Net.Frame
import Banc.Net.Lease.Capability
import Banc.Net.Lease.Wire

/-!
# Lease sessions

`LeaseServer::serve_conn` runs once for every authenticated connection, all of
them on the same server. This module runs any number of them side by side. Bytes
arrive on each connection when they like, a connection may be hung up or break
at any moment, and a session goes on wherever it was suspended: in reading a
frame, or in writing one, of which the transport takes as many bytes at a time as
it likes. Between reading a frame and writing the reply nothing is awaited, and
`handle` holds the lock, so one request is handled in one step.

What the sessions share is the server and nothing else. There is one order in
which all requests are handled, the order of the `log`, and the server is where
that run of `handle` leaves it; each session has its own part of the log, which
answers the well-formed frames of its own stream in order, up to the first that
is not (`requests`). A session that ends, for whatever reason, is no event for
any other: the run goes on the same without that step (`sessions_isolated`).
-/

namespace Banc

namespace Sessions

/-- Where `serve_conn` is. -/
inductive Phase where
  /-- In `read_frame`. -/
  | reading
  /-- In `write_frame`, with these bytes still to be written. -/
  | writing (rest : List UInt8)
  /-- It has returned, or panicked. -/
  | done
  deriving DecidableEq

/-- One connection. -/
structure Conn where
  /-- All bytes that have arrived from the peer. -/
  arrived : List UInt8
  /-- No more will: the peer has hung up. -/
  hungUp : Bool
  /-- How many of them made up the frames read so far. -/
  taken : ℕ
  /-- All bytes the transport has taken. -/
  written : List UInt8
  phase : Phase
  deriving DecidableEq

/-- A connection just past its handshake. -/
def Conn.fresh : Conn := ⟨[], false, 0, [], .reading⟩

/-- The codec and the build profile. -/
structure Config where
  codec : LeaseCodec
  debugAssertions : Bool

/-- `serve_conn` goes on in `read_frame`: the server and the connection after
it, and the request it has handled, if it has. It is suspended while a frame is
incomplete and the peer has not hung up. -/
def Conn.read (cfg : Config) (now : ℕ) (minted : UInt64) (srv : LeaseServer) (c : Conn) :
    Option (LeaseServer × Conn × Option Handled) :=
  match readFrame (c.arrived.drop c.taken) with
  | (.error .short, _) =>
    if c.hungUp then some (srv, { c with phase := .done }, none) else none
  | (.error (.tooLong _), _) => some (srv, { c with phase := .done }, none)
  | (.ok data, rest) =>
    match cfg.codec.decodeRequest data with
    | none => some (srv, { c with phase := .done }, none)
    | some req =>
      let r := srv.handle now minted req
      let phase := match writeFrame cfg.debugAssertions (cfg.codec.encodeReply r.2) with
        | none => Phase.done
        | some bs => .writing bs
      some (r.1, { c with taken := c.arrived.length - rest.length, phase },
        some ⟨⟨now, minted, req⟩, r.2⟩)

/-- `serve_conn` goes on in `write_frame`, the transport having taken `n` more
bytes. -/
def Conn.write (n : ℕ) (c : Conn) (rest : List UInt8) : Conn :=
  { c with
    written := c.written ++ rest.take n
    phase := match rest.drop n with
      | [] => .reading
      | rest => .writing rest }

variable {κ : Type}

/-- The server, its clock, and its connections. -/
structure State (κ : Type) where
  now : ℕ
  server : LeaseServer
  conns : κ → Conn
  /-- The requests handled so far, with the connections they came on. -/
  log : List (κ × Handled)

/-- What may happen. -/
inductive Action (κ : Type) where
  /-- Time passes. -/
  | tick (d : ℕ)
  /-- Bytes arrive on a connection. -/
  | arrive (i : κ) (bs : List UInt8)
  /-- The end of its stream does. -/
  | hangUp (i : κ)
  /-- Its session goes on reading; `minted` is the id drawn for a grant. -/
  | read (i : κ) (minted : UInt64)
  /-- Its session goes on writing. -/
  | write (i : κ) (n : ℕ)
  /-- A read or a write fails: the connection is broken. -/
  | fail (i : κ)
  deriving DecidableEq

/-- The connection an action is on. -/
def Action.conn : Action κ → Option κ
  | .tick _ => none
  | .arrive i _ => some i
  | .hangUp i => some i
  | .read i _ => some i
  | .write i _ => some i
  | .fail i => some i

variable [DecidableEq κ]

/-- One connection changes. -/
def State.set (s : State κ) (i : κ) (c : Conn) : State κ :=
  { s with conns := Function.update s.conns i c }

/-- The step function. -/
def step (cfg : Config) (s : State κ) : Action κ → Option (State κ)
  | .tick d => some { s with now := s.now + d }
  | .arrive i bs =>
    let c := s.conns i
    if c.hungUp then none else some (s.set i { c with arrived := c.arrived ++ bs })
  | .hangUp i => some (s.set i { s.conns i with hungUp := true })
  | .read i minted =>
    if (s.conns i).phase = .reading then
      ((s.conns i).read cfg s.now minted s.server).map (fun r =>
        { s.set i r.2.1 with
          server := r.1
          log := s.log ++ r.2.2.toList.map (fun e => (i, e)) })
    else none
  | .write i n =>
    match (s.conns i).phase with
    | .writing rest => some (s.set i ((s.conns i).write n rest))
    | _ => none
  | .fail i =>
    if (s.conns i).phase = .done then none
    else some (s.set i { s.conns i with phase := .done })

/-- **The sessions begin**, on a server in any state. -/
structure State.Initial (s : State κ) : Prop where
  conns : ∀ i, s.conns i = Conn.fresh
  log : s.log = []

/-- What has been handled of a connection's requests. -/
def State.handled (s : State κ) (i : κ) : List Handled :=
  (s.log.filter (fun e => e.1 = i)).map Prod.snd

/-- **The requests in a stream**: those of its complete well-formed frames, up to
the first frame that is undecodable, oversized or truncated. -/
def requests (codec : LeaseCodec) (bs : List UInt8) : List LeaseRequest :=
  match _hread : readFrame bs with
  | (.error _, _) => []
  | (.ok data, rest) =>
    match codec.decodeRequest data with
    | none => []
    | some req => req :: requests codec rest
termination_by bs.length
decreasing_by
  have := length_of_readFrame _hread
  omega

/-- The frames of the replies to what has been handled. -/
def replyFrames (cfg : Config) (handled : List Handled) : List UInt8 :=
  handled.flatMap (fun e => frame (cfg.codec.encodeReply e.reply))

/-! ## The requests in a stream -/

section Requests

variable {codec : LeaseCodec} {bs data rest : List UInt8}

/-- Behind a frame that cannot be read there are no requests, -/
theorem requests_of_error {e : FrameError} (h : readFrame bs = (.error e, rest)) :
    requests codec bs = [] := by
  rw [requests]
  split
  · rfl
  · rename_i hok
    simp [h] at hok

/-- nor behind one that cannot be decoded; -/
theorem requests_of_undecodable (h : readFrame bs = (.ok data, rest))
    (hdecode : codec.decodeRequest data = none) : requests codec bs = [] := by
  rw [requests]
  split
  · rfl
  · rename_i hok
    rw [h] at hok
    simp only [Prod.mk.injEq, Except.ok.injEq] at hok
    obtain ⟨rfl, rfl⟩ := hok
    rw [hdecode]

/-- and one that can be is the first of them. -/
theorem requests_of_decoded {req : LeaseRequest} (h : readFrame bs = (.ok data, rest))
    (hdecode : codec.decodeRequest data = some req) :
    requests codec bs = req :: requests codec rest := by
  rw [requests]
  split
  · rename_i herror
    simp [h] at herror
  · rename_i hok
    rw [h] at hok
    simp only [Prod.mk.injEq, Except.ok.injEq] at hok
    obtain ⟨rfl, rfl⟩ := hok
    rw [hdecode]

end Requests

/-! ## What a step does -/

/-- The bytes that have arrived and are not yet read. -/
def Conn.unread (c : Conn) : List UInt8 := c.arrived.drop c.taken

/-- **`read_frame` and what follows it** either end the session and touch
nothing else, or handle the next request of the stream. -/
theorem Conn.read_cases {cfg : Config} {now : ℕ} {minted : UInt64}
    {srv srv' : LeaseServer} {c c' : Conn} {e : Option Handled}
    (h : c.read cfg now minted srv = some (srv', c', e)) :
    (requests cfg.codec c.unread = [] ∧ srv' = srv ∧ c' = { c with phase := .done }
        ∧ e = none)
      ∨ ∃ data rest req,
        readFrame c.unread = (.ok data, rest) ∧ cfg.codec.decodeRequest data = some req
          ∧ srv' = (srv.handle now minted req).1
          ∧ e = some ⟨⟨now, minted, req⟩, (srv.handle now minted req).2⟩
          ∧ c' = { c with
              taken := c.arrived.length - rest.length
              phase := match writeFrame cfg.debugAssertions
                  (cfg.codec.encodeReply (srv.handle now minted req).2) with
                | none => .done
                | some bs => .writing bs } := by
  unfold Conn.read at h
  split at h
  · rename_i hread
    split at h
    · simp only [Option.some.injEq, Prod.mk.injEq] at h
      obtain ⟨rfl, rfl, rfl⟩ := h
      exact .inl ⟨requests_of_error hread, rfl, rfl, rfl⟩
    · simp at h
  · rename_i hread
    simp only [Option.some.injEq, Prod.mk.injEq] at h
    obtain ⟨rfl, rfl, rfl⟩ := h
    exact .inl ⟨requests_of_error hread, rfl, rfl, rfl⟩
  · rename_i data rest hread
    split at h
    · rename_i hdecode
      simp only [Option.some.injEq, Prod.mk.injEq] at h
      obtain ⟨rfl, rfl, rfl⟩ := h
      exact .inl ⟨requests_of_undecodable hread hdecode, rfl, rfl, rfl⟩
    · rename_i req hdecode
      simp only [Option.some.injEq, Prod.mk.injEq] at h
      obtain ⟨rfl, rfl, rfl⟩ := h
      exact .inr ⟨data, rest, req, hread, hdecode, rfl, rfl, rfl⟩

/-! ## One connection -/

/-- What has been written answers what has been handled, as far as the session
has come. -/
def Conn.Replied (cfg : Config) (handled : List Handled) (c : Conn) : Prop :=
  match c.phase with
  | .reading => c.written = replyFrames cfg handled
  | .writing rest => c.written ++ rest = replyFrames cfg handled
  | .done => c.written <+: replyFrames cfg handled

/-- **A connection in order**: what has been handled on it are the requests its
stream begins with, whatever is still to arrive, and what has been written
answers them. -/
structure Conn.Ok (cfg : Config) (handled : List Handled) (c : Conn) : Prop where
  taken : c.taken ≤ c.arrived.length
  requests : ∀ more, requests cfg.codec (c.arrived ++ more)
    = handled.map (fun e => e.call.req) ++ Sessions.requests cfg.codec (c.unread ++ more)
  replied : c.Replied cfg handled

namespace Conn.Ok

variable {cfg : Config} {handled : List Handled} {c : Conn}

/-- Nothing has arrived, and nothing was handled. -/
theorem fresh : Conn.fresh.Ok cfg [] where
  taken := le_rfl
  requests _ := rfl
  replied := rfl

/-- What is written is a part of the replies. -/
theorem writes_answers (h : c.Ok cfg handled) : c.written <+: replyFrames cfg handled := by
  have hreplied := h.replied
  unfold Conn.Replied at hreplied
  split at hreplied
  · exact hreplied ▸ List.prefix_rfl
  · rw [← hreplied]
    exact List.prefix_append _ _
  · exact hreplied

/-- What was handled is a part of the requests that have arrived. -/
theorem handles_requests (h : c.Ok cfg handled) :
    handled.map (fun e => e.call.req) <+: Sessions.requests cfg.codec c.arrived := by
  have hrequests := h.requests []
  rw [List.append_nil] at hrequests
  rw [hrequests]
  exact List.prefix_append _ _

/-- More bytes make more requests, behind those that were handled. -/
theorem arrive (h : c.Ok cfg handled) (bs : List UInt8) :
    { c with arrived := c.arrived ++ bs }.Ok cfg handled where
  taken := h.taken.trans (by rw [List.length_append]; exact Nat.le_add_right _ _)
  requests more := by
    show Sessions.requests cfg.codec (c.arrived ++ bs ++ more)
      = _ ++ Sessions.requests cfg.codec ((c.arrived ++ bs).drop c.taken ++ more)
    rw [List.drop_append_of_le_length h.taken, List.append_assoc, List.append_assoc]
    exact h.requests (bs ++ more)
  replied := h.replied

/-- The end of the stream adds none. -/
theorem hangUp (h : c.Ok cfg handled) : { c with hungUp := true }.Ok cfg handled where
  taken := h.taken
  requests := h.requests
  replied := h.replied

/-- A connection that ends has done what it has done. -/
theorem finish (h : c.Ok cfg handled) : { c with phase := .done }.Ok cfg handled where
  taken := h.taken
  requests := h.requests
  replied := h.writes_answers

/-- A part of a reply goes out. -/
theorem write {rest : List UInt8} (h : c.Ok cfg handled) (hphase : c.phase = .writing rest)
    (n : ℕ) : (c.write n rest).Ok cfg handled where
  taken := h.taken
  requests := h.requests
  replied := by
    have hreplied : c.written ++ rest = replyFrames cfg handled := by
      have := h.replied
      rwa [Conn.Replied, hphase] at this
    have hwhole : (c.written ++ rest.take n) ++ rest.drop n = replyFrames cfg handled := by
      rw [List.append_assoc, List.take_append_drop, hreplied]
    unfold Conn.write Conn.Replied
    dsimp only
    cases hdrop : rest.drop n with
    | nil => rwa [hdrop, List.append_nil] at hwhole
    | cons b bs => rwa [hdrop] at hwhole

/-- The next request of the stream is handled, and its reply is to be written. -/
theorem handle {data rest : List UInt8} {e : Handled} (h : c.Ok cfg handled)
    (hphase : c.phase = .reading) (hread : readFrame c.unread = (.ok data, rest))
    (hdecode : cfg.codec.decodeRequest data = some e.call.req) :
    { c with
      taken := c.arrived.length - rest.length
      phase := match writeFrame cfg.debugAssertions (cfg.codec.encodeReply e.reply) with
        | none => .done
        | some bs => .writing bs }.Ok cfg (handled ++ [e]) where
  taken := Nat.sub_le _ _
  requests more := by
    have hsuffix : rest <:+ c.arrived := by
      have hrest : rest <:+ c.unread := by
        have hsuffix : (readFrame c.unread).2 <:+ c.unread := readFrame_suffix
        rwa [hread] at hsuffix
      exact hrest.trans (List.drop_suffix _ _)
    show Sessions.requests cfg.codec (c.arrived ++ more)
      = _ ++ Sessions.requests cfg.codec
          (c.arrived.drop (c.arrived.length - rest.length) ++ more)
    rw [← List.suffix_iff_eq_drop.mp hsuffix, h.requests more,
      requests_of_decoded (readFrame_append hread more) hdecode, List.map_append,
      List.append_assoc]
    rfl
  replied := by
    have hwritten : c.written = replyFrames cfg handled := by
      have := h.replied
      rwa [Conn.Replied, hphase] at this
    have happend : replyFrames cfg (handled ++ [e])
        = replyFrames cfg handled ++ frame (cfg.codec.encodeReply e.reply) := by
      simp [replyFrames]
    unfold Conn.Replied
    dsimp only
    rw [hwritten, happend]
    cases hwrite : writeFrame cfg.debugAssertions (cfg.codec.encodeReply e.reply) with
    | none => exact List.prefix_append _ _
    | some bs => rw [writeFrame_eq_some hwrite]

end Conn.Ok

/-! ## All of them together -/

section System

variable {cfg : Config} {s s' : State κ} {a : Action κ} {i j : κ}

/-- The step ends a session without handling a request: the connection is
broken, or the session reads the end of its stream or a frame that is not a
request. -/
def Ends (cfg : Config) (s : State κ) : Action κ → Prop
  | .fail _ => True
  | .read i _ => requests cfg.codec (s.conns i).unread = []
  | _ => False

/-- **Every step is one of four**: time passes, a session ends, a connection
goes on by itself, or the next request of a stream is handled. -/
theorem step_cases (h : step cfg s a = some s') :
    (∃ d, a = .tick d ∧ s' = { s with now := s.now + d })
      ∨ (∃ i, a.conn = some i ∧ Ends cfg s a
          ∧ s' = s.set i { s.conns i with phase := .done })
      ∨ (∃ i c', a.conn = some i ∧ ¬ Ends cfg s a ∧ (∀ m, a ≠ .read i m)
          ∧ s' = s.set i c'
          ∧ ∀ handled, (s.conns i).Ok cfg handled → c'.Ok cfg handled)
      ∨ ∃ i minted data rest req,
        a = .read i minted ∧ (s.conns i).phase = .reading
          ∧ readFrame (s.conns i).unread = (.ok data, rest)
          ∧ cfg.codec.decodeRequest data = some req
          ∧ s' = { s.set i { s.conns i with
                taken := (s.conns i).arrived.length - rest.length
                phase := match writeFrame cfg.debugAssertions
                    (cfg.codec.encodeReply (s.server.handle s.now minted req).2) with
                  | none => .done
                  | some bs => .writing bs } with
              server := (s.server.handle s.now minted req).1
              log := s.log ++ [(i, ⟨⟨s.now, minted, req⟩,
                (s.server.handle s.now minted req).2⟩)] } := by
  cases a with
  | tick d =>
    exact .inl ⟨d, rfl, (Option.some.inj h).symm⟩
  | arrive i bs =>
    unfold step at h
    dsimp only at h
    split at h
    · simp at h
    · exact .inr (.inr (.inl ⟨i, _, rfl, id, fun _ => nofun, (Option.some.inj h).symm,
        fun _ hok => hok.arrive bs⟩))
  | hangUp i =>
    exact .inr (.inr (.inl ⟨i, _, rfl, id, fun _ => nofun, (Option.some.inj h).symm,
      fun _ hok => hok.hangUp⟩))
  | read i minted =>
    unfold step at h
    dsimp only at h
    split at h
    · rename_i hphase
      obtain ⟨⟨srv, c, e⟩, hread, rfl⟩ := Option.map_eq_some_iff.mp h
      rcases Conn.read_cases hread with
        ⟨hnone, rfl, rfl, rfl⟩ | ⟨data, rest, req, hframe, hdecode, rfl, rfl, rfl⟩
      · exact .inr (.inl ⟨i, rfl, hnone, by simp [State.set]⟩)
      · exact .inr (.inr (.inr ⟨i, minted, data, rest, req, rfl, hphase, hframe, hdecode,
          rfl⟩))
    · simp at h
  | write i n =>
    unfold step at h
    dsimp only at h
    split at h
    · rename_i hphase
      exact .inr (.inr (.inl ⟨i, _, rfl, id, fun _ => nofun, (Option.some.inj h).symm,
        fun _ hok => hok.write hphase n⟩))
    · simp at h
  | fail i =>
    unfold step at h
    dsimp only at h
    split at h
    · simp at h
    · exact .inr (.inl ⟨i, rfl, trivial, (Option.some.inj h).symm⟩)

/-- The connection that changes. -/
@[simp] theorem State.conns_set (s : State κ) (i : κ) (c : Conn) :
    (s.set i c).conns i = c :=
  Function.update_self ..

/-- The others stay as they are. -/
theorem State.conns_set_of_ne (s : State κ) (c : Conn) (h : j ≠ i) :
    (s.set i c).conns j = s.conns j :=
  Function.update_of_ne h ..

/-- A request is handled for its own connection. -/
theorem State.handled_append {e : Handled} (h : s'.log = s.log ++ [(i, e)]) :
    s'.handled j = s.handled j ++ if i = j then [e] else [] := by
  unfold State.handled
  rw [h, List.filter_append, List.map_append, List.filter_singleton]
  by_cases hij : i = j
  · simp [hij]
  · simp [hij]

/-- **A system in order.** -/
structure State.Ok (cfg : Config) (srv : LeaseServer) (s : State κ) : Prop where
  served : srv.serve (s.log.map (fun e => e.2.call)) = (s.server, s.log.map Prod.snd)
  instants : (s.log.map (fun e => e.2.call)).Pairwise (fun a b => a.now ≤ b.now)
  past : ∀ e ∈ s.log, e.2.call.now ≤ s.now
  conns : ∀ i, (s.conns i).Ok cfg (s.handled i)

/-- A system that begins is in order. -/
theorem State.Initial.ok (h : s.Initial) : s.Ok cfg s.server where
  served := by rw [h.log]; rfl
  instants := by rw [h.log]; exact List.Pairwise.nil
  past := by rw [h.log]; exact fun _ => nofun
  conns i := by
    rw [h.conns i, State.handled, h.log]
    exact Conn.Ok.fresh

/-- One more call. -/
theorem serve_concat (srv : LeaseServer) (calls : List Call) (c : Call) :
    srv.serve (calls ++ [c])
      = (((srv.serve calls).1.handle c.now c.minted c.req).1,
        (srv.serve calls).2 ++ [⟨c, ((srv.serve calls).1.handle c.now c.minted c.req).2⟩]) := by
  induction calls generalizing srv with
  | nil => rfl
  | cons d calls ih =>
    rw [List.cons_append, LeaseServer.serve, ih]
    rfl

/-- One connection changes, and stays in order. -/
theorem State.Ok.set {srv : LeaseServer} {c' : Conn} (h : s.Ok cfg srv)
    (hc : ∀ handled, (s.conns i).Ok cfg handled → c'.Ok cfg handled) :
    (s.set i c').Ok cfg srv where
  served := h.served
  instants := h.instants
  past := h.past
  conns j := by
    by_cases hj : j = i
    · subst hj
      rw [State.conns_set]
      exact hc _ (h.conns j)
    · rw [State.conns_set_of_ne _ _ hj]
      exact h.conns j

/-- **It stays in order.** The server handles one request after the other, whoever it came from.
-/
theorem State.Ok.step {srv : LeaseServer} (h : s.Ok cfg srv)
    (hstep : Sessions.step cfg s a = some s') : s'.Ok cfg srv := by
  rcases step_cases hstep with ⟨d, rfl, rfl⟩ | ⟨i, -, -, rfl⟩ | ⟨i, c', -, -, -, rfl, hc⟩
    | ⟨i, minted, data, rest, req, rfl, hphase, hread, hdecode, rfl⟩
  · exact ⟨h.served, h.instants, fun e he => (h.past e he).trans (Nat.le_add_right _ _),
      h.conns⟩
  · exact h.set (fun _ hok => hok.finish)
  · exact h.set hc
  · refine ⟨?_, ?_, ?_, fun j => ?_⟩
    · show srv.serve ((s.log ++ [_]).map _) = _
      rw [List.map_append, List.map_append, List.map_singleton, List.map_singleton,
        serve_concat, h.served]
    · show ((s.log ++ [_]).map _).Pairwise _
      rw [List.map_append, List.pairwise_append]
      refine ⟨h.instants, List.pairwise_singleton _ _, ?_⟩
      intro c hc d hd
      obtain ⟨e, he, rfl⟩ := List.mem_map.mp hc
      obtain rfl := List.mem_singleton.mp hd
      exact h.past e he
    · show ∀ e ∈ s.log ++ [_], _
      intro e he
      rcases List.mem_append.mp he with he | he
      · exact h.past e he
      · obtain rfl := List.mem_singleton.mp he
        exact le_rfl
    · rw [State.handled_append rfl]
      show (Function.update s.conns i _ j).Ok cfg _
      by_cases hj : j = i
      · subst hj
        rw [Function.update_self, if_pos rfl]
        exact (h.conns j).handle (e := ⟨⟨s.now, minted, req⟩, _⟩) hphase hread hdecode
      · rw [Function.update_of_ne hj, if_neg (Ne.symm hj), List.append_nil]
        exact h.conns j

/-- A session that waits for its peer has handled all there is. -/
theorem requests_of_read_none {minted : UInt64} (hphase : (s.conns i).phase = .reading)
    (h : step cfg s (.read i minted) = none) :
    requests cfg.codec (s.conns i).unread = [] := by
  unfold step at h
  dsimp only at h
  rw [if_pos hphase, Option.map_eq_none_iff] at h
  unfold Conn.read at h
  split at h
  · rename_i hread
    exact requests_of_error hread
  · simp at h
  · split at h
    · simp at h
    · simp at h

/-! ## Sessions that end are no event -/

/-- **The two systems differ in nothing but sessions that have ended** in the
first. -/
structure Parted (s t : State κ) : Prop where
  now : t.now = s.now
  server : t.server = s.server
  log : t.log = s.log
  conns : ∀ i, t.conns i = s.conns i ∨ s.conns i = { t.conns i with phase := .done }

namespace Parted

variable {t : State κ}

omit [DecidableEq κ] in
/-- A state is like itself. -/
theorem refl (s : State κ) : Parted s s := ⟨rfl, rfl, rfl, fun _ => .inl rfl⟩

omit [DecidableEq κ] in
/-- A connection that goes on is the same in both. -/
theorem live (h : Parted s t) (hi : (s.conns i).phase ≠ .done) : t.conns i = s.conns i := by
  rcases h.conns i with heq | heq
  · exact heq
  · exact absurd (by rw [heq]) hi

/-- It does in both what it does. -/
theorem set {c c' : Conn} (h : Parted s t) (hc : c' = c ∨ c = { c' with phase := .done }) :
    Parted (s.set i c) (t.set i c') where
  now := h.now
  server := h.server
  log := h.log
  conns j := by
    by_cases hj : j = i
    · subst hj
      rwa [State.conns_set, State.conns_set]
    · rw [State.conns_set_of_ne _ _ hj, State.conns_set_of_ne _ _ hj]
      exact h.conns j

/-- An ending session leaves a system as it was. -/
theorem gone (h : Parted s t) (ha : Ends cfg s a) (hstep : step cfg s a = some s') :
    Parted s' t := by
  have hend : ∃ i, s' = s.set i { s.conns i with phase := .done } := by
    rcases step_cases hstep with ⟨d, rfl, -⟩ | ⟨i, -, -, rfl⟩ | ⟨i, c', -, hnot, -⟩
      | ⟨i, minted, data, rest, req, rfl, -, hread, hdecode, -⟩
    · exact ha.elim
    · exact ⟨i, rfl⟩
    · exact absurd ha hnot
    · have hnil : requests cfg.codec (s.conns i).unread = [] := ha
      rw [requests_of_decoded hread hdecode] at hnil
      exact absurd hnil (List.cons_ne_nil _ _)
  obtain ⟨i, rfl⟩ := hend
  refine ⟨h.now, h.server, h.log, fun j => ?_⟩
  by_cases hj : j = i
  · subst hj
    rw [State.conns_set]
    right
    rcases h.conns j with heq | heq
    · rw [heq]
    · rw [heq]
  · rw [State.conns_set_of_ne _ _ hj]
    exact h.conns j

/-- What the first system does, the second can do. -/
theorem kept (h : Parted s t) (hstep : step cfg s a = some s') :
    ∃ t', step cfg t a = some t' ∧ Parted s' t' := by
  cases a with
  | tick d =>
    obtain rfl := Option.some.inj hstep
    refine ⟨_, rfl, ?_, h.server, h.log, h.conns⟩
    show t.now + d = s.now + d
    rw [h.now]
  | arrive i bs =>
    have hhungUp : (t.conns i).hungUp = (s.conns i).hungUp := by
      rcases h.conns i with heq | heq
      · rw [heq]
      · rw [heq]
    unfold step at hstep ⊢
    dsimp only at hstep ⊢
    rw [hhungUp]
    split at hstep
    · simp at hstep
    · rename_i hup
      obtain rfl := Option.some.inj hstep
      rw [if_neg hup]
      refine ⟨_, rfl, h.set ?_⟩
      rcases h.conns i with heq | heq
      · exact .inl (by rw [heq])
      · exact .inr (by rw [heq])
  | hangUp i =>
    obtain rfl := Option.some.inj hstep
    refine ⟨_, rfl, h.set ?_⟩
    rcases h.conns i with heq | heq
    · exact .inl (by rw [heq])
    · exact .inr (by rw [heq])
  | read i minted =>
    unfold step at hstep ⊢
    dsimp only at hstep ⊢
    split at hstep
    · rename_i hphase
      have hconn : t.conns i = s.conns i := h.live (by rw [hphase]; exact nofun)
      rw [hconn, h.now, h.server, if_pos hphase]
      obtain ⟨r, hread, rfl⟩ := Option.map_eq_some_iff.mp hstep
      refine ⟨_, Option.map_eq_some_iff.mpr ⟨r, hread, rfl⟩, h.now, rfl, ?_, ?_⟩
      · show t.log ++ _ = s.log ++ _
        rw [h.log]
      · exact (h.set (.inl rfl)).conns
    · simp at hstep
  | write i n =>
    unfold step at hstep ⊢
    dsimp only at hstep ⊢
    split at hstep
    · rename_i rest hphase
      have hconn : t.conns i = s.conns i := h.live (by rw [hphase]; exact nofun)
      obtain rfl := Option.some.inj hstep
      rw [hconn, hphase]
      exact ⟨_, rfl, h.set (.inl rfl)⟩
    · simp at hstep
  | fail i =>
    unfold step at hstep ⊢
    dsimp only at hstep ⊢
    split at hstep
    · simp at hstep
    · rename_i hphase
      obtain rfl := Option.some.inj hstep
      rw [h.live hphase, if_neg hphase]
      exact ⟨_, rfl, h.set (.inl rfl)⟩

end Parted

end System

/-- **Sessions are isolated, and their ends harmless.** After any run of any
number of sessions on one server:

* the calls of `handle` come in one order, and the server is where that run of
  calls leaves it;
* each session has handled the first so many requests of its own stream, and
  written the frames of its replies to them, in order, up to some byte;
* a session that waits for its peer has handled and answered all of them;
* a step leaves every other connection as it is, and what it reads changes the
  server only if the next frame of the stream is complete and well-formed;
* the run goes on the same – with the same calls, replies and lease, and every
  session that is not itself ended where it was – without any of the steps in
  which a session ends on a bad frame, at the end of its stream, or because its
  connection breaks. -/
theorem sessions_isolated (cfg : Config) {s₀ s : State κ} {actions : List (Action κ)}
    (hinit : s₀.Initial)
    (hrun : Transition.run (step cfg) s₀ actions = some s) :
    (s₀.server.serve (s.log.map (fun e => e.2.call)) = (s.server, s.log.map Prod.snd)
        ∧ (s.log.map (fun e => e.2.call)).Pairwise (fun a b => a.now ≤ b.now))
      ∧ (∀ i, (s.handled i).map (fun e => e.call.req)
            <+: requests cfg.codec (s.conns i).arrived
          ∧ (s.conns i).written <+: replyFrames cfg (s.handled i))
      ∧ (∀ i minted, (s.conns i).phase = .reading → step cfg s (.read i minted) = none →
          (s.handled i).map (fun e => e.call.req)
              = requests cfg.codec (s.conns i).arrived
            ∧ (s.conns i).written = replyFrames cfg (s.handled i))
      ∧ (∀ a s', step cfg s a = some s' →
          (∀ j, a.conn ≠ some j → s'.conns j = s.conns j)
            ∧ ((∀ i minted, a = .read i minted →
                  requests cfg.codec (s.conns i).unread = []) →
                s'.server = s.server ∧ s'.log = s.log))
      ∧ ∀ r : List (Action κ × Bool), r.map Prod.fst = actions →
          Transition.LeavesOut (step cfg) (Ends cfg) s₀ r →
          ∃ t, Transition.run (step cfg) s₀ (Transition.kept r) = some t
            ∧ t.server = s.server ∧ t.log = s.log
            ∧ (∀ i, (t.conns i).written = (s.conns i).written)
            ∧ ∀ i, (s.conns i).phase ≠ .done → t.conns i = s.conns i := by
  have hok : s.Ok cfg s₀.server :=
    Transition.run_preserves (fun _ _ _ => State.Ok.step) hinit.ok hrun
  refine ⟨⟨hok.served, hok.instants⟩,
    fun i => ⟨(hok.conns i).handles_requests, (hok.conns i).writes_answers⟩, ?_, ?_, ?_⟩
  · intro i minted hphase hwaits
    have hrequests := (hok.conns i).requests []
    have hreplied := (hok.conns i).replied
    rw [List.append_nil, List.append_nil, requests_of_read_none hphase hwaits,
      List.append_nil] at hrequests
    rw [Conn.Replied, hphase] at hreplied
    exact ⟨hrequests.symm, hreplied⟩
  · intro a s' hstep
    rcases step_cases hstep with ⟨d, rfl, rfl⟩ | ⟨i, ha, -, rfl⟩ | ⟨i, c', ha, -, -, rfl, -⟩
      | ⟨i, minted, data, rest, req, rfl, -, hread, hdecode, rfl⟩
    · exact ⟨fun _ _ => rfl, fun _ => ⟨rfl, rfl⟩⟩
    · exact ⟨fun j hj => State.conns_set_of_ne _ _ (by rintro rfl; exact hj ha),
        fun _ => ⟨rfl, rfl⟩⟩
    · exact ⟨fun j hj => State.conns_set_of_ne _ _ (by rintro rfl; exact hj ha),
        fun _ => ⟨rfl, rfl⟩⟩
    · refine ⟨fun j hj => Function.update_of_ne (by rintro rfl; exact hj rfl) _ _,
        fun hbad => ?_⟩
      have hnil := hbad i minted rfl
      rw [requests_of_decoded hread hdecode] at hnil
      exact absurd hnil (List.cons_ne_nil _ _)
  · rintro r rfl hleft
    obtain ⟨t, ht, hR⟩ := Transition.exists_run_kept (fun _ _ _ _ h => h.kept)
      (fun _ _ _ _ h => h.gone) (Parted.refl s₀) hleft hrun
    refine ⟨t, ht, hR.server, hR.log, fun i => ?_, fun i => hR.live⟩
    rcases hR.conns i with heq | heq
    · rw [heq]
    · rw [heq]

/-! ### Three sessions, two of which break off -/

/-- Whether there is a request is seen from the first frame. -/
theorem requests_eq_nil {codec : LeaseCodec} {bs : List UInt8} :
    requests codec bs = []
      ↔ (match readFrame bs with
        | (.ok data, _) => codec.decodeRequest data
        | (.error _, _) => none) = none := by
  cases hread : readFrame bs with
  | mk outcome rest =>
    cases outcome with
    | error e => exact iff_of_true (requests_of_error hread) rfl
    | ok data =>
      cases hdecode : codec.decodeRequest data with
      | none => exact iff_of_true (requests_of_undecodable hread hdecode) hdecode
      | some req =>
        refine iff_of_false ?_ (by simp [hdecode])
        rw [requests_of_decoded hread hdecode]
        exact List.cons_ne_nil _ _

instance Ends.decidable (cfg : Config) (s : State κ) : DecidablePred (Ends cfg s)
  | .fail _ => .isTrue trivial
  | .read _ _ => decidable_of_iff _ requests_eq_nil.symm
  | .tick _ => .isFalse id
  | .arrive _ _ => .isFalse id
  | .hangUp _ => .isFalse id
  | .write _ _ => .isFalse id

/-- Sessions whose messages are postcard, on a rig that is free. -/
def postcardSessions : Config := ⟨LeaseCodec.postcard, true⟩

/-- Nobody has the rig, and nothing has arrived yet. -/
def freeRig : State ℕ := ⟨0, LeaseServer.new, fun _ => Conn.fresh, []⟩

/-- On connection 0 an Acquire arrives in two parts, and while its reply is being
written the connection breaks; on connection 1 a frame arrives that is too
long; on connection 2 a Status is asked afterwards. The steps in which the first
two end are marked. -/
def brokenRun : List (Action ℕ × Bool) :=
  [(.arrive 0 ((frame (LeaseRequest.acquire "a" 60).toPostcard).take 5), true),
    (.arrive 1 [0, 0, 0, 1], true),
    (.read 1 0, false),
    (.arrive 0 ((frame (LeaseRequest.acquire "a" 60).toPostcard).drop 5), true),
    (.read 0 7, true),
    (.write 0 3, true),
    (.fail 0, false),
    (.tick (Duration.fromSecs 1), true),
    (.arrive 2 (frame LeaseRequest.status.toPostcard), true),
    (.read 2 0, true),
    (.write 2 100, true)]

/-- **The ends go unnoticed.** Connection 2 is told that "a" holds the lease for
another 59 s, and so it is without them. -/
theorem brokenRun_isolated :
    ∃ s, Transition.run (step postcardSessions) freeRig (brokenRun.map Prod.fst) = some s
      ∧ (s.conns 2).written = frame (LeaseReply.status (some "a") 59).toPostcard
      ∧ ∃ t, Transition.run (step postcardSessions) freeRig (Transition.kept brokenRun)
            = some t
          ∧ t.server = s.server ∧ (t.conns 2).written = (s.conns 2).written := by
  have hend : (Transition.run (step postcardSessions) freeRig
      (brokenRun.map Prod.fst)).map (fun s => (s.conns 2).written)
        = some (frame (LeaseReply.status (some "a") 59).toPostcard) := by
    decide +kernel
  obtain ⟨s, hrun, hwritten⟩ := Option.map_eq_some_iff.mp hend
  have hleft : Transition.Guarded (fun s x => step postcardSessions s x.1)
      (fun s x => x.2 = false → Ends postcardSessions s x.1) freeRig brokenRun := by
    decide +kernel
  have hinit : freeRig.Initial := ⟨fun _ => rfl, rfl⟩
  obtain ⟨-, -, -, -, hkept⟩ := sessions_isolated postcardSessions hinit hrun
  obtain ⟨t, ht, hserver, -, hsame, -⟩ := hkept brokenRun rfl hleft
  exact ⟨s, hrun, hwritten, t, ht, hserver, hsame 2⟩

end Sessions

end Banc
