import Banc.Lib.Simulation
import Banc.Net.Handshake
import Banc.Net.Lease.Sessions

/-!
# The rig daemon

A rig daemon listens on one port and is made of the pieces of `net`: on every
connection it runs `handshake_server`, and hands the connection over by the role it
returns, a `Lease` to `serve_conn` on the one `LeaseServer`, a `Node` to what answers
its frames. A connection whose handshake fails is dropped. This is the daemon the
tests of `net` run, with any number of connections side by side, each suspended
wherever it awaits the transport.

The daemon is more than its sessions: it is what decides which connections become one.
It simulates them (`sessions_simulate`), so what is proved about sessions holds of the
daemon. A request is handled only on a connection that was opened by the `Hello` of a
lease client with the right token, and connections that were not might as well not be
there (`daemon_guards`).
-/

namespace Banc

namespace Daemon

open Sessions (Conn)

/-- What a connection is to be, and the frame that is to be answered, if it is a node. -/
structure Config where
  sessions : Sessions.Config
  hello : HelloCodec
  token : String
  rigName : String
  /-- What the node answers to a frame. `none`: it fails, and the connection ends. -/
  answer : List UInt8 → Option (List UInt8)

/-- How far a connection has come. -/
inductive Stage where
  /-- In `handshake_server`, reading the `Hello`. -/
  | greeting
  /-- Writing the reply. `none`: the handshake has failed. -/
  | replying (role : Option Role)
  /-- In `serve_conn`. -/
  | lease
  /-- It is a node. -/
  | node
  deriving DecidableEq

/-- A connection. `conn` is what it is to the function it is in: it begins anew when
the connection is handed over, with what has arrived since the `Hello`. -/
structure Link where
  stage : Stage
  /-- The frame of the `Hello`, when it has been read. -/
  opening : List UInt8
  /-- The frame of the reply, when it has been written. -/
  greeted : List UInt8
  conn : Conn
  deriving DecidableEq

namespace Link

/-- A connection that has been accepted. -/
def fresh : Link := ⟨.greeting, [], [], Conn.fresh⟩

/-- All bytes that have arrived. -/
def stream (l : Link) : List UInt8 := l.opening ++ l.conn.arrived

/-- All bytes that have been written. -/
def sent (l : Link) : List UInt8 := l.greeted ++ l.conn.written

/-- It is dropped. -/
def close (l : Link) : Link := { l with conn := { l.conn with phase := .done } }

end Link

/-- What `handshake_server` returns to a `Hello`, if it is no error. -/
def admits (token : String) (hello : Hello) : Option Role :=
  if hello.version ≠ netVersion || !tokenEq hello.token token then none else some hello.role

/-- What `handshake_server` says: `Denied` where the token or the version is not right. -/
def helloReply (rigName : String) : Option Role → HelloReply
  | none => .denied
  | some _ => .ok rigName

/-- `handshake_server` goes on reading. -/
def Link.greet (cfg : Config) (l : Link) : Option Link :=
  match readFrame l.conn.arrived with
  | (.error .short, _) => if l.conn.hungUp then some l.close else none
  | (.error (.tooLong _), _) => some l.close
  | (.ok data, rest) =>
    match cfg.hello.decodeHello data with
    | none => some l.close
    | some hello =>
      let role := admits cfg.token hello
      match writeFrame cfg.sessions.debugAssertions
          (cfg.hello.encodeReply (helloReply cfg.rigName role)) with
      | none => some l.close
      | some bs =>
        some { l with
          stage := .replying role
          opening := l.conn.arrived.take (l.conn.arrived.length - rest.length)
          conn := { l.conn with arrived := rest, phase := .writing bs } }

/-- A node goes on reading. -/
def nodeRead (cfg : Config) (c : Conn) : Option Conn :=
  match readFrame (c.arrived.drop c.taken) with
  | (.error .short, _) => if c.hungUp then some { c with phase := .done } else none
  | (.error (.tooLong _), _) => some { c with phase := .done }
  | (.ok data, rest) =>
    match cfg.answer data with
    | none => some { c with phase := .done }
    | some reply =>
      some { c with
        taken := c.arrived.length - rest.length
        phase := match writeFrame cfg.sessions.debugAssertions reply with
          | none => .done
          | some bs => .writing bs }

/-- The reply of the handshake is written: the connection is handed over. -/
def Link.handOver (l : Link) (role : Option Role) : Link :=
  match role with
  | none => l.close
  | some .lease => { l with
      stage := .lease
      greeted := l.conn.written
      conn := { l.conn with written := [] } }
  | some .node => { l with
      stage := .node
      greeted := l.conn.written
      conn := { l.conn with written := [] } }

/-- The transport takes `n` more bytes of what is being written. -/
def Link.write (n : ℕ) (l : Link) (rest : List UInt8) : Link :=
  let l' := { l with conn := l.conn.write n rest }
  match l.stage, l'.conn.phase with
  | .replying role, .reading => l'.handOver role
  | _, _ => l'

variable {κ : Type}

/-- The daemon, with its server and its connections. -/
structure State (κ : Type) where
  now : ℕ
  server : LeaseServer
  links : κ → Link
  /-- The requests handled so far, with the connections they came on. -/
  log : List (κ × Handled)

/-- The daemon starts, on a server in any state. -/
structure State.Initial (s : State κ) : Prop where
  links : ∀ i, s.links i = Link.fresh
  log : s.log = []

/-- What has been handled of a connection's requests. -/
def State.handled [DecidableEq κ] (s : State κ) (i : κ) : List Handled :=
  (s.log.filter (fun e => e.1 = i)).map Prod.snd

variable [DecidableEq κ]

/-- One connection changes. -/
def State.set (s : State κ) (i : κ) (l : Link) : State κ :=
  { s with links := Function.update s.links i l }

/-- The step function, of the actions of `Sessions`. -/
def step (cfg : Config) (s : State κ) : Sessions.Action κ → Option (State κ)
  | .tick d => some { s with now := s.now + d }
  | .arrive i bs =>
    let l := s.links i
    if l.conn.hungUp then none
    else some (s.set i { l with conn := { l.conn with arrived := l.conn.arrived ++ bs } })
  | .hangUp i =>
    let l := s.links i
    some (s.set i { l with conn := { l.conn with hungUp := true } })
  | .read i minted =>
    let l := s.links i
    if l.conn.phase = .reading then
      match l.stage with
      | .greeting => (l.greet cfg).map (s.set i)
      | .replying _ => none
      | .node => (nodeRead cfg l.conn).map (fun c => s.set i { l with conn := c })
      | .lease =>
        (l.conn.read cfg.sessions s.now minted s.server).map (fun r =>
          { s.set i { l with conn := r.2.1 } with
            server := r.1
            log := s.log ++ r.2.2.toList.map (fun e => (i, e)) })
    else none
  | .write i n =>
    match (s.links i).conn.phase with
    | .writing rest => some (s.set i ((s.links i).write n rest))
    | _ => none
  | .fail i =>
    if (s.links i).conn.phase = .done then none else some (s.set i (s.links i).close)

/-- **The stream was opened by an admitted `Hello`**, with this role, and goes on with
`rest`. -/
def Opened (cfg : Config) (role : Role) (bs rest : List UInt8) : Prop :=
  ∃ data hello, data.length ≤ maxFrame ∧ bs = frame data ++ rest
    ∧ cfg.hello.decodeHello data = some hello ∧ hello.Accepted cfg.token ∧ hello.role = role

/-- Admitted is who has the version and the token, and as what he says he is. -/
theorem admits_eq_some {token : String} {hello : Hello} {role : Role} :
    admits token hello = some role ↔ hello.Accepted token ∧ hello.role = role := by
  unfold admits
  rw [Hello.accepted_iff]
  cases hello.version ≠ netVersion || !tokenEq hello.token token with
  | true => simp
  | false => simp

/-! ## The handshake -/

section Handshake

variable {cfg : Config} {l l' : Link}

/-- **The ways of a connection whose `Hello` is being read.** -/
theorem Link.greet_cases (h : l.greet cfg = some l') :
    l' = l.close
      ∨ ∃ data rest hello bs, data.length ≤ maxFrame ∧ l.conn.arrived = frame data ++ rest
          ∧ cfg.hello.decodeHello data = some hello
          ∧ bs = frame (cfg.hello.encodeReply (helloReply cfg.rigName (admits cfg.token hello)))
          ∧ l' = { l with
              stage := .replying (admits cfg.token hello)
              opening := frame data
              conn := { l.conn with arrived := rest, phase := .writing bs } } := by
  unfold Link.greet at h
  split at h
  case h_1 =>
    split at h
    case isTrue => exact .inl (Option.some.inj h).symm
    case isFalse => exact absurd h nofun
  case h_2 => exact .inl (Option.some.inj h).symm
  case h_3 data rest hread =>
    obtain ⟨hdata, harrived⟩ := readFrame_eq_ok.mp hread
    split at h
    case h_1 => exact .inl (Option.some.inj h).symm
    case h_2 hello hdecode =>
      dsimp only at h
      split at h
      case h_1 => exact .inl (Option.some.inj h).symm
      case h_2 bs hwrite =>
        have hopening : l.conn.arrived.take (l.conn.arrived.length - rest.length)
            = frame data := by
          rw [harrived, List.length_append, Nat.add_sub_cancel]
          exact List.take_left
        rw [hopening] at h
        exact .inr ⟨data, rest, hello, bs, hdata, harrived, hdecode, writeFrame_eq_some hwrite,
          (Option.some.inj h).symm⟩

/-- **It does what `handshake_server` does** with the bytes of the connection, in
whatever pieces they come. -/
theorem Link.greet_eq_handshakeServer (h : l.greet cfg = some l') {t : Chunked.Stream}
    (ht : Chunked.contents t = l.conn.arrived) :
    let half := handshakeServer cfg.hello cfg.sessions.debugAssertions cfg.token cfg.rigName t
    (l' = l.close ∧ half.written = [] ∧ ∃ e, half.outcome = .error e)
      ∨ ∃ role bs, l'.stage = .replying role ∧ l'.conn.phase = .writing bs ∧ half.written = bs
          ∧ half.outcome.toOption = role ∧ Chunked.contents half.rest = l'.conn.arrived := by
  have hread := Io.tokio.readFrame_eq t
  rw [ht] at hread
  unfold handshakeServer
  unfold Link.greet at h
  rw [← hread] at h
  cases hframe : Io.tokio.readFrame t with
  | mk outcome rest =>
    rw [hframe] at h
    cases outcome with
    | error e =>
      refine .inl ⟨?_, rfl, .io e, rfl⟩
      cases e with
      | short =>
        dsimp only at h
        split at h
        case isTrue => exact (Option.some.inj h).symm
        case isFalse => exact absurd h nofun
      | tooLong len => exact (Option.some.inj h).symm
    | ok data =>
      dsimp only at h ⊢
      cases hdecode : cfg.hello.decodeHello data with
      | none =>
        rw [hdecode] at h
        exact .inl ⟨(Option.some.inj h).symm, rfl, .decode, rfl⟩
      | some hello =>
        rw [hdecode] at h
        dsimp only at h ⊢
        -- the two differ in where they look at the version and the token
        have hhalf : (if hello.version ≠ netVersion || !tokenEq hello.token cfg.token then
              Half.writing (Io.tokio.writeFrame cfg.sessions.debugAssertions
                (cfg.hello.encodeReply .denied)) rest
                (.error (.denied hello.version (tokenEq hello.token cfg.token)))
            else Half.writing (Io.tokio.writeFrame cfg.sessions.debugAssertions
                (cfg.hello.encodeReply (.ok cfg.rigName))) rest (.ok hello.role))
            = Half.writing (writeFrame cfg.sessions.debugAssertions
                (cfg.hello.encodeReply (helloReply cfg.rigName (admits cfg.token hello)))) rest
                (match admits cfg.token hello with
                | none => .error (.denied hello.version (tokenEq hello.token cfg.token))
                | some role => .ok role) := by
          unfold admits
          split <;> rfl
        rw [hhalf]
        cases hwrite : writeFrame cfg.sessions.debugAssertions
            (cfg.hello.encodeReply (helloReply cfg.rigName (admits cfg.token hello))) with
        | none =>
          rw [hwrite] at h
          exact .inl ⟨(Option.some.inj h).symm, rfl, .panic, rfl⟩
        | some bs =>
          rw [hwrite] at h
          obtain rfl := Option.some.inj h
          refine .inr ⟨_, bs, rfl, rfl, rfl, ?_, rfl⟩
          unfold Half.writing
          dsimp only
          cases admits cfg.token hello <;> rfl

end Handshake

/-! ## What holds of a connection -/

section Links

variable {cfg : Config} {l l' : Link} {s s' : State κ} {a : Sessions.Action κ} {i j : κ}

/-- The frame the daemon replies to a `Hello` with. -/
def replyFrame (cfg : Config) (role : Option Role) : List UInt8 :=
  frame (cfg.hello.encodeReply (helloReply cfg.rigName role))

/-- The frame of a `Hello`, and what it is admitted as. -/
def Greeted (cfg : Config) (opening : List UInt8) (role : Option Role) : Prop :=
  ∃ data hello, data.length ≤ maxFrame ∧ opening = frame data
    ∧ cfg.hello.decodeHello data = some hello ∧ admits cfg.token hello = role

/-- **A connection in order**, in each of its stages. -/
def Link.Ok (cfg : Config) (l : Link) : Prop :=
  match l.stage with
  | .greeting => l.opening = [] ∧ l.greeted = [] ∧ l.conn.taken = 0 ∧ l.conn.written = []
      ∧ (l.conn.phase = .reading ∨ l.conn.phase = .done)
  | .replying role => Greeted cfg l.opening role ∧ l.greeted = [] ∧ l.conn.taken = 0
      ∧ match l.conn.phase with
        | .reading => False
        | .writing rest => l.conn.written ++ rest = replyFrame cfg role
        | .done => l.conn.written <+: replyFrame cfg role
  | .lease => Greeted cfg l.opening (some .lease) ∧ l.greeted = replyFrame cfg (some .lease)
  | .node => Greeted cfg l.opening (some .node) ∧ l.greeted = replyFrame cfg (some .node)

namespace Link.Ok

/-- Nothing has arrived. -/
theorem fresh : Link.fresh.Ok cfg := ⟨rfl, rfl, rfl, rfl, .inl rfl⟩

/-- Bytes that arrive are those that may still be read. -/
theorem arrive (h : l.Ok cfg) (bs : List UInt8) :
    { l with conn := { l.conn with arrived := l.conn.arrived ++ bs } }.Ok cfg := h

/-- That no more will come changes nothing that was done. -/
theorem hangUp (h : l.Ok cfg) : { l with conn := { l.conn with hungUp := true } }.Ok cfg := h

/-- What is closed has no more said to it. -/
theorem close (h : l.Ok cfg) : l.close.Ok cfg := by
  obtain ⟨stage, opening, greeted, conn⟩ := l
  cases stage with
  | greeting =>
    obtain ⟨hopening, hgreeted, htaken, hwritten, -⟩ := h
    exact ⟨hopening, hgreeted, htaken, hwritten, .inr rfl⟩
  | replying role =>
    obtain ⟨hopening, hgreeted, htaken, hphase⟩ := h
    refine ⟨hopening, hgreeted, htaken, ?_⟩
    show conn.written <+: _
    split at hphase
    · exact hphase.elim
    · exact hphase ▸ List.prefix_append _ _
    · exact hphase
  | lease => exact h
  | node => exact h

/-- **The first frame is answered as `handshake_server` answers it**, or not at all. -/
theorem greet (h : l.Ok cfg) (hstage : l.stage = .greeting) (hgreet : l.greet cfg = some l') :
    l'.Ok cfg := by
  rcases Link.greet_cases hgreet with rfl | ⟨data, rest, hello, bs, hdata, -, hdecode, rfl, rfl⟩
  · exact h.close
  · unfold Link.Ok at h
    rw [hstage] at h
    obtain ⟨-, hgreeted, htaken, hwritten, -⟩ := h
    refine ⟨⟨data, hello, hdata, rfl, hdecode, rfl⟩, hgreeted, htaken, ?_⟩
    show l.conn.written ++ frame _ = _
    rw [hwritten]
    rfl

/-- A link that was admitted begins with the bytes behind the greeting. -/
theorem handOver {role : Option Role} (hgreeted : Greeted cfg l.opening role)
    (hstage : l.stage = .replying role) (hnone : l.greeted = []) (htaken : l.conn.taken = 0)
    (hwritten : l.conn.written = replyFrame cfg role) : (l.handOver role).Ok cfg := by
  cases role with
  | none =>
    unfold Link.handOver Link.close Link.Ok
    dsimp only
    rw [hstage]
    exact ⟨hgreeted, hnone, htaken, hwritten ▸ List.prefix_rfl⟩
  | some role =>
    cases role with
    | lease => exact ⟨hgreeted, hwritten⟩
    | node => exact ⟨hgreeted, hwritten⟩

/-- A part of what is to be written goes out. -/
theorem write {rest : List UInt8} (h : l.Ok cfg) (hphase : l.conn.phase = .writing rest) (n : ℕ) :
    (l.write n rest).Ok cfg := by
  obtain ⟨stage, opening, greeted, conn⟩ := l
  unfold Link.write
  cases stage with
  | greeting =>
    obtain ⟨-, -, -, -, hreading | hdone⟩ := h
    · exact absurd (hphase.symm.trans hreading) nofun
    · exact absurd (hphase.symm.trans hdone) nofun
  | lease => exact h
  | node => exact h
  | replying role =>
    obtain ⟨hopening, hgreeted, htaken, hreply⟩ := h
    rw [hphase] at hreply
    have hwhole : (conn.written ++ rest.take n) ++ rest.drop n = replyFrame cfg role := by
      rw [List.append_assoc, List.take_append_drop]
      exact hreply
    cases hdrop : rest.drop n with
    | nil =>
      have hwrite : conn.write n rest
          = { conn with written := conn.written ++ rest.take n, phase := .reading } := by
        unfold Sessions.Conn.write
        rw [hdrop]
      rw [hdrop, List.append_nil] at hwhole
      dsimp only
      rw [hwrite]
      exact handOver hopening rfl hgreeted htaken hwhole
    | cons b bs =>
      have hwrite : conn.write n rest
          = { conn with written := conn.written ++ rest.take n, phase := .writing (b :: bs) } := by
        unfold Sessions.Conn.write
        rw [hdrop]
      rw [hdrop] at hwhole
      dsimp only
      rw [hwrite]
      exact ⟨hopening, hgreeted, htaken, hwhole⟩

end Link.Ok

/-! ## The sessions of the daemon -/

/-- What `serve_conn` has of a connection. -/
def Link.session (l : Link) : Conn :=
  match l.stage with
  | .lease => l.conn
  | .greeting | .replying _ | .node => Conn.fresh

/-- The sessions that the daemon has begun, the others still to begin. -/
def State.sessions (s : State κ) : Sessions.State κ :=
  ⟨s.now, s.server, fun i => (s.links i).session, s.log⟩

/-- All connections are in order. -/
def State.Ok (cfg : Config) (s : State κ) : Prop := ∀ i, (s.links i).Ok cfg

omit [DecidableEq κ] in
/-- A link that is no lease connection is one where nothing has happened. -/
theorem Link.session_of_ne (h : l.stage ≠ .lease) : l.session = Conn.fresh := by
  unfold Link.session
  split
  case h_1 hlease => exact absurd hlease h
  case h_2 | h_3 | h_4 => rfl

/-- The others stay as they are. -/
theorem links_set_of_ne (s : State κ) (l : Link) (h : j ≠ i) : (s.set i l).links j = s.links j :=
  Function.update_of_ne h ..

/-- The one that changes. -/
@[simp] theorem links_set (s : State κ) (i : κ) (l : Link) : (s.set i l).links i = l :=
  Function.update_self ..

/-- One link changes, and stays in order. -/
theorem State.Ok.set (h : s.Ok cfg) (hl : l.Ok cfg) : (s.set i l).Ok cfg := by
  intro j
  by_cases hj : j = i
  · subst hj
    rw [links_set]
    exact hl
  · rw [links_set_of_ne _ _ hj]
    exact h j

/-- And so does its session. -/
theorem sessions_set (s : State κ) (i : κ) (l : Link) :
    (s.set i l).sessions = s.sessions.set i l.session := by
  have hconns : (fun j => ((s.set i l).links j).session)
      = Function.update (fun j => (s.links j).session) i l.session := by
    funext j
    by_cases hj : j = i
    · subst hj
      rw [Function.update_self, links_set]
    · rw [Function.update_of_ne hj, links_set_of_ne _ _ hj]
  exact congrArg (fun conns => Sessions.State.mk s.now s.server conns s.log) hconns

/-- A connection goes on, and its session does not. -/
theorem sessions_set_eq (h : l.session = (s.links i).session) :
    (s.set i l).sessions = s.sessions := by
  rw [sessions_set, h]
  unfold Sessions.State.set State.sessions
  congr
  exact Function.update_eq_self i _

/-- A connection that is handed over to `serve_conn` is one on which what has arrived
so far arrives. -/
theorem exists_run_handOver {c : Conn} (hnone : (s.links i).session = Conn.fresh)
    (htaken : c.taken = 0) (hwritten : c.written = []) (hphase : c.phase = .reading) :
    ∃ bs, Transition.run (Sessions.step cfg.sessions) s.sessions bs
      = some (s.sessions.set i c) := by
  obtain ⟨arrived, hungUp, _, _, _⟩ := c
  obtain rfl := htaken
  obtain rfl := hwritten
  obtain rfl := hphase
  have harrive : Sessions.step cfg.sessions s.sessions (.arrive i arrived)
      = some (s.sessions.set i ⟨arrived, false, 0, [], .reading⟩) := by
    show (if (s.links i).session.hungUp then none else some (s.sessions.set i
      { (s.links i).session with arrived := (s.links i).session.arrived ++ arrived })) = _
    rw [hnone]
    rfl
  cases hungUp with
  | false => exact ⟨[.arrive i arrived], Transition.run_cons_eq_some.mpr ⟨_, harrive, rfl⟩⟩
  | true =>
    refine ⟨[.arrive i arrived, .hangUp i], Transition.run_cons_eq_some.mpr ⟨_, harrive, ?_⟩⟩
    refine Transition.run_cons_eq_some.mpr ⟨_, rfl, ?_⟩
    rw [Sessions.State.conns_set]
    unfold Sessions.State.set
    dsimp only
    rw [Function.update_idem]
    rfl

omit [DecidableEq κ] in
/-- The session of a lease connection is its connection. -/
theorem sessions_conns (hstage : (s.links i).stage = .lease) :
    s.sessions.conns i = (s.links i).conn := by
  show (s.links i).session = _
  unfold Link.session
  rw [hstage]

/-- A session goes on. -/
theorem sessions_set_lease {c : Conn} (hstage : l.stage = .lease) :
    (s.set i { l with conn := c }).sessions = s.sessions.set i c := by
  rw [sessions_set]
  unfold Link.session
  dsimp only
  rw [hstage]

/-- Whoever is past the greeting only has his bytes written. -/
theorem Link.write_of_ne {rest : List UInt8} (n : ℕ) (hstage : ∀ role, l.stage ≠ .replying role) :
    l.write n rest = { l with conn := l.conn.write n rest } := by
  unfold Link.write
  dsimp only
  split
  case h_1 role hrole _ => exact absurd hrole (hstage role)
  case h_2 => rfl

/-- The reply to the greeting is written in parts, and with the last the link goes on. -/
theorem Link.write_cases {role : Option Role} (n : ℕ) (rest : List UInt8)
    (hstage : l.stage = .replying role) :
    (l.write n rest = { l with conn := l.conn.write n rest }.handOver role
        ∧ (l.conn.write n rest).phase = .reading)
      ∨ l.write n rest = { l with conn := l.conn.write n rest } := by
  unfold Link.write
  dsimp only
  split
  case h_1 role' hrole hreading =>
    obtain rfl := Stage.replying.inj (hstage.symm.trans hrole)
    exact .inl ⟨rfl, hreading⟩
  case h_2 => exact .inr rfl

/-- What a connection is handed over to is `serve_conn`, or no session. -/
theorem Link.handOver_session {role : Option Role} (hstage : l.stage = .replying role) :
    (l.handOver role).session = Conn.fresh
      ∨ (l.handOver role).session = { l.conn with written := [] } := by
  cases role with
  | none =>
    refine .inl (Link.session_of_ne ?_)
    show l.stage ≠ .lease
    rw [hstage]
    exact nofun
  | some role =>
    cases role with
    | lease => exact .inr rfl
    | node => exact .inl rfl

/-- **The daemon is simulated by its sessions.** -/
theorem sessions_simulate (cfg : Config) :
    Transition.Simulates (step cfg) (Sessions.step (κ := κ) cfg.sessions)
      (fun s t => s.Ok cfg ∧ t = s.sessions) := by
  rintro s t a s' ⟨hok, rfl⟩ hstep
  -- a session goes on,
  have hgo {b : Sessions.Action κ} (hb : Sessions.step cfg.sessions s.sessions b = some s'.sessions)
      (hok' : s'.Ok cfg) : ∃ bs t', Transition.run (Sessions.step cfg.sessions) s.sessions bs
        = some t' ∧ s'.Ok cfg ∧ t' = s'.sessions :=
    ⟨[b], _, Transition.run_cons_eq_some.mpr ⟨_, hb, rfl⟩, hok', rfl⟩
  -- or a connection that is none yet, or never will be
  have hstay {i : κ} {l : Link} (hs' : s' = s.set i l) (hl : l.Ok cfg)
      (hsame : l.session = (s.links i).session) :
      ∃ bs t', Transition.run (Sessions.step cfg.sessions) s.sessions bs = some t'
        ∧ s'.Ok cfg ∧ t' = s'.sessions := by
    subst hs'
    exact ⟨[], _, rfl, hok.set hl, (sessions_set_eq hsame).symm⟩
  have hboth {l l' : Link} (hl : l.stage ≠ .lease) (hl' : l'.stage ≠ .lease) :
      l'.session = l.session := (Link.session_of_ne hl').trans (Link.session_of_ne hl).symm
  cases a with
  | tick d =>
    obtain rfl := Option.some.inj hstep
    exact @hgo (.tick d) rfl hok
  | arrive i bs =>
    unfold step at hstep
    dsimp only at hstep
    split at hstep
    · exact absurd hstep nofun
    · rename_i hup
      obtain rfl := Option.some.inj hstep
      have hl := (hok i).arrive bs
      by_cases hstage : (s.links i).stage = .lease
      · refine @hgo (.arrive i bs) ?_ (hok.set hl)
        unfold Sessions.step
        dsimp only
        rw [sessions_conns hstage, if_neg hup, sessions_set_lease hstage]
      · exact hstay rfl hl (hboth hstage hstage)
  | hangUp i =>
    obtain rfl := Option.some.inj hstep
    have hl := (hok i).hangUp
    by_cases hstage : (s.links i).stage = .lease
    · refine @hgo (.hangUp i) ?_ (hok.set hl)
      unfold Sessions.step
      dsimp only
      rw [sessions_conns hstage, sessions_set_lease hstage]
    · exact hstay rfl hl (hboth hstage hstage)
  | read i minted =>
    unfold step at hstep
    dsimp only at hstep
    split at hstep
    · rename_i hphase
      split at hstep
      · rename_i hstage
        obtain ⟨l', hl', rfl⟩ := Option.map_eq_some_iff.mp hstep
        refine hstay rfl ((hok i).greet hstage hl') (hboth (by rw [hstage]; exact nofun) ?_)
        rcases Link.greet_cases hl' with rfl | ⟨_, _, _, _, -, -, -, -, rfl⟩
        · show (s.links i).stage ≠ .lease
          rw [hstage]
          exact nofun
        · exact nofun
      · exact absurd hstep nofun
      · rename_i hstage
        obtain ⟨c, -, rfl⟩ := Option.map_eq_some_iff.mp hstep
        have hnot : (s.links i).stage ≠ .lease := by rw [hstage]; exact nofun
        refine hstay rfl ?_ (hboth hnot hnot)
        have hl := hok i
        unfold Link.Ok at hl ⊢
        dsimp only
        rw [hstage] at hl ⊢
        exact hl
      · rename_i hstage
        obtain ⟨r, hr, rfl⟩ := Option.map_eq_some_iff.mp hstep
        have hl : Link.Ok cfg { s.links i with conn := r.2.1 } := by
          have hl := hok i
          unfold Link.Ok at hl ⊢
          dsimp only
          rw [hstage] at hl ⊢
          exact hl
        refine @hgo (.read i minted) ?_ (hok.set hl)
        unfold Sessions.step
        dsimp only
        rw [sessions_conns hstage, if_pos hphase]
        refine Option.map_eq_some_iff.mpr ⟨r, hr, ?_⟩
        rw [← sessions_set_lease hstage]
        rfl
    · exact absurd hstep nofun
  | write i n =>
    unfold step at hstep
    dsimp only at hstep
    split at hstep
    · rename_i rest hphase
      obtain rfl := Option.some.inj hstep
      have hl := (hok i).write hphase n
      cases hstage : (s.links i).stage with
      | lease =>
        refine @hgo (.write i n) ?_ (hok.set hl)
        rw [Link.write_of_ne n (by rw [hstage]; exact fun _ => nofun)]
        unfold Sessions.step
        dsimp only
        rw [sessions_conns hstage, hphase, sessions_set_lease hstage]
      | greeting | node =>
        refine hstay rfl hl (hboth (by rw [hstage]; exact nofun) ?_)
        rw [Link.write_of_ne n (by rw [hstage]; exact fun _ => nofun)]
        show (s.links i).stage ≠ .lease
        rw [hstage]
        exact nofun
      | replying role =>
        have hnone := Link.session_of_ne (l := s.links i) (by rw [hstage]; exact nofun)
        have htaken : (s.links i).conn.taken = 0 := by
          have hl := hok i
          unfold Link.Ok at hl
          rw [hstage] at hl
          exact hl.2.2.1
        rcases Link.write_cases n rest hstage with ⟨hwrite, hreading⟩ | hwrite
        · rw [hwrite] at hl hstay ⊢
          rcases Link.handOver_session
            (l := { s.links i with conn := (s.links i).conn.write n rest }) hstage
            with hfresh | hsession
          · exact hstay rfl hl (hfresh.trans hnone.symm)
          · have hrun : ∃ bs, Transition.run (Sessions.step cfg.sessions) s.sessions bs
                = some (s.sessions.set i { (s.links i).conn.write n rest with written := [] }) :=
              exists_run_handOver hnone htaken rfl hreading
            obtain ⟨bs, hbs⟩ := hrun
            refine ⟨bs, _, hbs, hok.set hl, ?_⟩
            rw [sessions_set, hsession]
        · rw [hwrite] at hl hstay ⊢
          refine hstay rfl hl ((Link.session_of_ne ?_).trans hnone.symm)
          show (s.links i).stage ≠ .lease
          rw [hstage]
          exact nofun
    · exact absurd hstep nofun
  | fail i =>
    unfold step at hstep
    dsimp only at hstep
    split at hstep
    · exact absurd hstep nofun
    · rename_i hdone
      obtain rfl := Option.some.inj hstep
      have hl := (hok i).close
      by_cases hstage : (s.links i).stage = .lease
      · refine @hgo (.fail i) ?_ (hok.set hl)
        unfold Sessions.step
        dsimp only
        rw [sessions_conns hstage, if_neg hdone]
        unfold Link.close
        rw [sessions_set_lease hstage]
      · exact hstay rfl hl (hboth hstage hstage)

/-! ## Connections that are not admitted -/

/-- **What a step is**: time passes; or one connection goes on, with all else as it is,
or handles a request, as the lease server does at that moment. -/
theorem step_cases (h : step cfg s a = some s') :
    (∃ d, a = .tick d ∧ s' = { s with now := s.now + d })
      ∨ ∃ i l', a.conn = some i
          ∧ (s' = s.set i l'
            ∨ ∃ data srv', ∃ e : Handled, a = .read i e.call.minted ∧ e.call.now = s.now
                ∧ cfg.sessions.codec.decodeRequest data = some e.call.req
                ∧ s.server.handle e.call.now e.call.minted e.call.req = (srv', e.reply)
                ∧ s' = { s.set i l' with
                    server := srv'
                    log := s.log ++ [(i, e)] }) := by
  cases a with
  | tick d => exact .inl ⟨d, rfl, (Option.some.inj h).symm⟩
  | arrive i bs =>
    unfold step at h
    dsimp only at h
    split at h
    · exact absurd h nofun
    · exact .inr ⟨i, _, rfl, .inl (Option.some.inj h).symm⟩
  | hangUp i =>
    exact .inr ⟨i, { s.links i with conn := { (s.links i).conn with hungUp := true } }, rfl,
      .inl (Option.some.inj h).symm⟩
  | read i minted =>
    unfold step at h
    dsimp only at h
    split at h
    · split at h
      · obtain ⟨l', -, rfl⟩ := Option.map_eq_some_iff.mp h
        exact .inr ⟨i, l', rfl, .inl rfl⟩
      · exact absurd h nofun
      · obtain ⟨c, -, rfl⟩ := Option.map_eq_some_iff.mp h
        exact .inr ⟨i, _, rfl, .inl rfl⟩
      · obtain ⟨⟨srv, c, e⟩, hr, rfl⟩ := Option.map_eq_some_iff.mp h
        refine .inr ⟨i, { s.links i with conn := c }, rfl, ?_⟩
        rcases Conn.read_cases hr with ⟨-, rfl, -, rfl⟩ | ⟨data, _, req, -, hdecode, rfl, rfl, -⟩
        · refine .inl ?_
          show { s.set i _ with
              server := s.server
              log := s.log ++ [] } = s.set i _
          rw [List.append_nil]
          rfl
        · exact .inr ⟨data, _, _, rfl, rfl, hdecode, rfl, rfl⟩
    · exact absurd h nofun
  | write i n =>
    unfold step at h
    dsimp only at h
    split at h
    · exact .inr ⟨i, _, rfl, .inl (Option.some.inj h).symm⟩
    · exact absurd h nofun
  | fail i =>
    unfold step at h
    dsimp only at h
    split at h
    · exact absurd h nofun
    · exact .inr ⟨i, (s.links i).close, rfl, .inl (Option.some.inj h).symm⟩

/-- **A step handles no request, or one.** -/
theorem log_cases (h : step cfg s a = some s') :
    (s'.server = s.server ∧ s'.log = s.log)
      ∨ ∃ i data, ∃ e : Handled, a = .read i e.call.minted ∧ e.call.now = s.now
          ∧ cfg.sessions.codec.decodeRequest data = some e.call.req
          ∧ s.server.handle e.call.now e.call.minted e.call.req = (s'.server, e.reply)
          ∧ s'.log = s.log ++ [(i, e)] := by
  rcases step_cases h with ⟨d, -, rfl⟩ | ⟨i, l', -, rfl | ⟨data, srv', e, ha, hnow, hdecode,
    hhandle, rfl⟩⟩
  · exact .inl ⟨rfl, rfl⟩
  · exact .inl ⟨rfl, rfl⟩
  · exact .inr ⟨i, data, e, ha, hnow, hdecode, hhandle, rfl⟩

/-- No time passes while a connection does something. -/
theorem now_eq (h : step cfg s a = some s') (hi : a.conn = some i) : s'.now = s.now := by
  rcases step_cases h with ⟨d, rfl, -⟩ | ⟨j, l', -, rfl | ⟨_, _, _, -, -, -, -, rfl⟩⟩
  · exact absurd hi nofun
  · rfl
  · rfl

/-- The clock does not go back. -/
theorem now_le (h : step cfg s a = some s') : s.now ≤ s'.now := by
  rcases step_cases h with ⟨d, -, rfl⟩ | ⟨j, l', hj, -⟩
  · exact Nat.le_add_right s.now d
  · exact (now_eq h hj).ge

/-- What has been handled of a link is in the log under its name. -/
theorem mem_handled {e : Handled} : e ∈ s.handled i ↔ (i, e) ∈ s.log := by
  unfold State.handled
  rw [List.mem_map]
  constructor
  · rintro ⟨⟨j, e⟩, hmem, rfl⟩
    obtain ⟨hlog, hj⟩ := List.mem_filter.mp hmem
    obtain rfl := of_decide_eq_true hj
    exact hlog
  · exact fun h => ⟨(i, e), List.mem_filter.mpr ⟨h, decide_eq_true rfl⟩, rfl⟩

/-- What has been handled stays so. -/
theorem handled_mono (h : step cfg s a = some s') {e : Handled} (he : e ∈ s.handled i) :
    e ∈ s'.handled i := by
  rw [mem_handled] at he ⊢
  rcases log_cases h with ⟨-, hlog⟩ | ⟨j, data, e', -, -, -, -, hlog⟩
  · exact hlog ▸ he
  · exact hlog ▸ List.mem_append_left _ he

/-- The states agree but for the connections that are not kept. -/
structure Alike (keep : κ → Bool) (s t : State κ) : Prop where
  now : t.now = s.now
  server : t.server = s.server
  log : t.log = s.log
  links : ∀ i, keep i = true → t.links i = s.links i

/-- Two states that are alike stay so if the same link changes in the same way. -/
theorem Alike.set {keep : κ → Bool} {t : State κ} (h : Alike keep s t) (i : κ) (l : Link) :
    Alike keep (s.set i l) (t.set i l) where
  now := h.now
  server := h.server
  log := h.log
  links j hj := by
    by_cases hij : j = i
    · subst hij
      rw [links_set, links_set]
    · rw [links_set_of_ne _ _ hij, links_set_of_ne _ _ hij]
      exact h.links j hj

/-- **A step looks at nothing but its own connection**, the clock and the server. -/
theorem Alike.kept {keep : κ → Bool} {t : State κ} (h : Alike keep s t)
    (ha : a.conn.all keep = true) (hstep : step cfg s a = some s') :
    ∃ t', step cfg t a = some t' ∧ Alike keep s' t' := by
  cases a with
  | tick d =>
    obtain rfl := Option.some.inj hstep
    exact ⟨_, rfl, congrArg (· + d) h.now, h.server, h.log, h.links⟩
  | arrive i bs =>
    have hlink := h.links i ha
    unfold step at hstep ⊢
    dsimp only at hstep ⊢
    rw [hlink]
    split at hstep
    · exact absurd hstep nofun
    · rename_i hup
      obtain rfl := Option.some.inj hstep
      exact ⟨_, if_neg hup, h.set i _⟩
  | hangUp i =>
    obtain rfl := Option.some.inj hstep
    refine ⟨_, rfl, ?_⟩
    rw [h.links i ha]
    exact h.set i _
  | read i minted =>
    have hlink := h.links i ha
    unfold step at hstep ⊢
    dsimp only at hstep ⊢
    rw [hlink]
    split at hstep
    · rename_i hphase
      rw [if_pos hphase]
      split at hstep
      · rename_i hstage
        obtain ⟨l', hl', rfl⟩ := Option.map_eq_some_iff.mp hstep
        exact ⟨_, Option.map_eq_some_iff.mpr ⟨l', hl', rfl⟩, h.set i l'⟩
      · exact absurd hstep nofun
      · rename_i hstage
        obtain ⟨c, hc, rfl⟩ := Option.map_eq_some_iff.mp hstep
        exact ⟨_, Option.map_eq_some_iff.mpr ⟨c, hc, rfl⟩, h.set i _⟩
      · rename_i hstage
        obtain ⟨r, hr, rfl⟩ := Option.map_eq_some_iff.mp hstep
        rw [h.now, h.server]
        refine ⟨_, Option.map_eq_some_iff.mpr ⟨r, hr, rfl⟩, h.now, rfl, ?_, (h.set i _).links⟩
        exact congrArg (· ++ _) h.log
    · exact absurd hstep nofun
  | write i n =>
    have hlink := h.links i ha
    unfold step at hstep ⊢
    dsimp only at hstep ⊢
    rw [hlink]
    split at hstep
    · rename_i rest hphase
      obtain rfl := Option.some.inj hstep
      exact ⟨_, rfl, h.set i _⟩
    · exact absurd hstep nofun
  | fail i =>
    have hlink := h.links i ha
    unfold step at hstep ⊢
    dsimp only at hstep ⊢
    rw [hlink]
    split at hstep
    · exact absurd hstep nofun
    · rename_i hdone
      obtain rfl := Option.some.inj hstep
      exact ⟨_, if_neg hdone, h.set i _⟩

/-- **A step of a connection that is not kept**, and on which nothing is handled. -/
theorem Alike.silent {keep : κ → Bool} {t : State κ} (h : Alike keep s t)
    (ha : a.conn.all keep ≠ true) (hstep : step cfg s a = some s')
    (hsilent : ∀ i, keep i = false → s'.handled i = []) : Alike keep s' t := by
  rcases step_cases hstep with ⟨d, rfl, -⟩ | ⟨i, l', hi, hcases⟩
  · exact absurd rfl ha
  · have hkeep : keep i = false := by
      rw [hi, Option.all_some] at ha
      exact Bool.not_eq_true _ ▸ ha
    rcases hcases with rfl | ⟨data, srv', e, -, -, -, -, hs'⟩
    · refine ⟨h.now, h.server, h.log, fun j hj => ?_⟩
      rw [links_set_of_ne, h.links j hj]
      rintro rfl
      exact absurd (hj.symm.trans hkeep) nofun
    · have hmem : (i, e) ∈ s'.log := by
        rw [hs']
        exact List.mem_append_right s.log (List.mem_singleton_self (i, e))
      exact absurd (mem_handled.mpr hmem) (hsilent i hkeep ▸ List.not_mem_nil)

/-- **What does not come to a request might as well not be there.** -/
theorem exists_run_of_silent {s₀ : State κ} {as : List (Sessions.Action κ)}
    (hrun : Transition.run (step cfg) s₀ as = some s) {keep : κ → Bool}
    (hsilent : ∀ i, keep i = false → s.handled i = []) :
    ∃ t, Transition.run (step cfg) s₀ (as.filter (fun a => a.conn.all keep)) = some t
      ∧ Alike keep s t := by
  have hall := Transition.Guarded.to_last (P := fun s : State κ =>
    ∀ i, keep i = false → s.handled i = []) (fun u a u' hstep hu i hi => by
      rw [List.eq_nil_iff_forall_not_mem]
      exact fun e he => absurd (handled_mono hstep he) (hu i hi ▸ List.not_mem_nil)) hrun hsilent
  have hfilter : as.filter (fun a => a.conn.all keep)
      = Transition.without (step cfg) (fun _ a => ¬ a.conn.all keep = true) s₀ as := by
    rw [Transition.without_eq_filter hrun]
    exact List.filter_congr (fun a _ => by simp)
  rw [hfilter]
  refine Transition.exists_run_without (R := Alike keep) ?_ ?_ ⟨rfl, rfl, rfl, fun _ _ => rfl⟩
    hall hrun
  · exact fun u v a u' halike _ ha hstep => halike.kept (not_not.mp ha) hstep
  · exact fun u v a u' halike hlater ha hstep => halike.silent ha hstep (hlater u' hstep)

/-! ## What was opened -/

/-- A connection of `serve_conn` was opened for it. -/
theorem Link.Ok.opened (h : l.Ok cfg) (hstage : l.stage = .lease) :
    Opened cfg .lease l.stream l.conn.arrived := by
  unfold Link.Ok at h
  rw [hstage] at h
  obtain ⟨⟨data, hello, hdata, hopening, hdecode, hadmits⟩, -⟩ := h
  obtain ⟨hacc, hrole⟩ := admits_eq_some.mp hadmits
  refine ⟨data, hello, hdata, ?_, hdecode, hacc, hrole⟩
  rw [Link.stream, hopening]

/-- Whether a stream has been opened can be computed. -/
theorem exists_opened_iff {role : Role} {bs : List UInt8} :
    (∃ rest, Opened cfg role bs rest)
      ↔ (match readFrame bs with
        | (.ok data, _) => (cfg.hello.decodeHello data).bind (admits cfg.token)
        | (.error _, _) => none) = some role := by
  constructor
  · rintro ⟨rest, data, hello, hdata, hbs, hdecode, hopened⟩
    rw [readFrame_eq_ok.mpr ⟨hdata, hbs⟩]
    dsimp only
    rw [hdecode]
    exact admits_eq_some.mpr hopened
  · intro h
    split at h
    case h_1 data rest hread =>
      obtain ⟨hdata, hbs⟩ := readFrame_eq_ok.mp hread
      obtain ⟨hello, hdecode, hadmits⟩ := Option.bind_eq_some_iff.mp h
      exact ⟨rest, data, hello, hdata, hbs, hdecode, admits_eq_some.mp hadmits⟩
    case h_2 => exact absurd h nofun

omit [DecidableEq κ] in
/-- A daemon that starts is in order. -/
theorem State.Initial.ok (h : s.Initial) : s.Ok cfg :=
  fun i => h.links i ▸ Link.Ok.fresh

omit [DecidableEq κ] in
/-- And its sessions are at their beginning. -/
theorem State.Initial.sessions (h : s.Initial) : s.sessions.Initial where
  conns i := by
    show (s.links i).session = _
    rw [h.links i]
    rfl
  log := h.log

/-- Nothing has been handled where there is no session. -/
theorem handled_eq_nil {srv : LeaseServer} (h : s.sessions.Ok cfg.sessions srv)
    (hstage : (s.links i).stage ≠ .lease) : s.handled i = [] := by
  have hconn : Conn.Ok cfg.sessions (s.handled i) (s.links i).session := h.conns i
  rw [Link.session_of_ne hstage] at hconn
  have hnone : Sessions.requests cfg.sessions.codec Conn.fresh.arrived = [] :=
    Sessions.requests_of_error (e := .short) rfl
  have hprefix := hconn.handles_requests
  rw [hnone] at hprefix
  exact List.map_eq_nil_iff.mp (List.prefix_nil.mp hprefix)

/-- What holds at the end of a run. -/
theorem ok_of_run {s₀ : State κ} {as : List (Sessions.Action κ)} (hinit : s₀.Initial)
    (hrun : Transition.run (Daemon.step cfg) s₀ as = some s) :
    s.Ok cfg ∧ s.sessions.Ok cfg.sessions s₀.server
      ∧ ∃ bs, Transition.run (Sessions.step cfg.sessions) s₀.sessions bs = some s.sessions := by
  obtain ⟨bs, _, hsessions, hok, rfl⟩ := (sessions_simulate cfg).exists_run
    (t := s₀.sessions) ⟨hinit.ok, rfl⟩ hrun
  refine ⟨hok, ?_, bs, hsessions⟩
  exact Transition.run_preserves (fun _ _ _ => Sessions.State.Ok.step) hinit.sessions.ok hsessions

/-- **What is handled has been let in.** -/
theorem handled_opened {srv : LeaseServer} (hok : s.Ok cfg)
    (hserved : s.sessions.Ok cfg.sessions srv) (hi : s.handled i ≠ []) :
    ∃ rest, Opened cfg .lease (s.links i).stream rest
      ∧ (s.handled i).map (fun e => e.call.req) <+: Sessions.requests cfg.sessions.codec rest := by
  have hstage : (s.links i).stage = .lease := by
    by_contra hstage
    exact hi (handled_eq_nil hserved hstage)
  refine ⟨_, (hok i).opened hstage, ?_⟩
  have hconn : Conn.Ok cfg.sessions (s.handled i) (s.sessions.conns i) := hserved.conns i
  rw [sessions_conns hstage] at hconn
  exact hconn.handles_requests

/-- The daemon's reply is the handshake's. -/
theorem helloReply_admits (token rigName : String) (hello : Hello) :
    helloReply rigName (admits token hello) = hello.reply token rigName := by
  unfold Hello.reply
  cases hadmits : admits token hello with
  | none =>
    rw [if_neg]
    · rfl
    · intro hacc
      exact absurd (hadmits.symm.trans (admits_eq_some.mpr ⟨hacc, rfl⟩)) nofun
  | some role =>
    rw [if_pos (admits_eq_some.mp hadmits).1]
    rfl

/-- The frame a `Hello` is replied to with. -/
def greeting (cfg : Config) (hello : Hello) : List UInt8 :=
  frame (cfg.hello.encodeReply (hello.reply cfg.token cfg.rigName))

/-- So are its bytes. -/
theorem replyFrame_admits (cfg : Config) (hello : Hello) :
    replyFrame cfg (admits cfg.token hello) = greeting cfg hello := by
  unfold replyFrame greeting
  rw [helloReply_admits]

/-- **What a peer may be sent**, of which the requests handled are these. -/
def Answers (cfg : Config) (handled : List Handled) (hello : Hello) (sent : List UInt8) : Prop :=
  match admits cfg.token hello with
  | none => sent <+: greeting cfg hello
  | some .lease => sent <+: greeting cfg hello ++ Sessions.replyFrames cfg.sessions handled
  | some .node => sent <+: greeting cfg hello ∨ greeting cfg hello <+: sent

/-- **Nothing is sent before the `Hello`**, and to none that is not admitted more than
the refusal. -/
theorem Link.Ok.answers {srv : LeaseServer} (h : (s.links i).Ok cfg)
    (hsessions : s.sessions.Ok cfg.sessions srv) :
    (s.links i).sent = []
      ∨ ∃ data hello rest, data.length ≤ maxFrame ∧ (s.links i).stream = frame data ++ rest
          ∧ cfg.hello.decodeHello data = some hello
          ∧ Answers cfg (s.handled i) hello (s.links i).sent := by
  have hconn : Conn.Ok cfg.sessions (s.handled i) (s.links i).session := hsessions.conns i
  unfold Link.session at hconn
  unfold Link.Ok at h
  cases hstage : (s.links i).stage with
  | greeting =>
    rw [hstage] at h
    obtain ⟨-, hgreeted, -, hwritten, -⟩ := h
    refine .inl ?_
    rw [Link.sent, hgreeted, hwritten]
    rfl
  | replying role =>
    rw [hstage] at h
    obtain ⟨⟨data, hello, hdata, hopening, hdecode, rfl⟩, hgreeted, -, hphase⟩ := h
    refine .inr ⟨data, hello, (s.links i).conn.arrived, hdata, ?_, hdecode, ?_⟩
    · rw [Link.stream, hopening]
    have hsent : (s.links i).sent <+: greeting cfg hello := by
      rw [replyFrame_admits] at hphase
      rw [Link.sent, hgreeted, List.nil_append]
      split at hphase
      · exact hphase.elim
      · exact hphase ▸ List.prefix_append _ _
      · exact hphase
    unfold Answers
    split
    · exact hsent
    · exact hsent.trans (List.prefix_append _ _)
    · exact .inl hsent
  | lease =>
    rw [hstage] at h hconn
    obtain ⟨⟨data, hello, hdata, hopening, hdecode, hadmits⟩, hgreeted⟩ := h
    refine .inr ⟨data, hello, (s.links i).conn.arrived, hdata, ?_, hdecode, ?_⟩
    · rw [Link.stream, hopening]
    · have hreply := replyFrame_admits cfg hello
      rw [hadmits] at hreply
      unfold Answers
      rw [hadmits, Link.sent, hgreeted, hreply]
      exact (List.prefix_append_right_inj _).mpr hconn.writes_answers
  | node =>
    rw [hstage] at h
    obtain ⟨⟨data, hello, hdata, hopening, hdecode, hadmits⟩, hgreeted⟩ := h
    refine .inr ⟨data, hello, (s.links i).conn.arrived, hdata, ?_, hdecode, ?_⟩
    · rw [Link.stream, hopening]
    · have hreply := replyFrame_admits cfg hello
      rw [hadmits] at hreply
      unfold Answers
      rw [hadmits, Link.sent, hgreeted, hreply]
      exact .inr (List.prefix_append _ _)

end Links

/-- **The daemon guards its sessions.** After any run, with any number of connections
side by side:

* what the connections in `serve_conn` have done is a run of sessions on this server;
* a request has been handled on a connection only if that was opened by the `Hello` of
  a lease client with the daemon's token, and it is one of the first of what follows;
* a peer has been sent nothing, or it has sent a `Hello`: refused, it has been sent no
  more than the refusal; admitted, the reply comes first, and to a lease client what
  answers its requests next;
* if any number of connections that were not opened so had not been there, the daemon
  would have done the same: the clock, the lease, the requests handled in their order,
  and everything about the other connections are as they are. -/
theorem daemon_guards (cfg : Config) {s₀ s : State κ} {as : List (Sessions.Action κ)}
    (hinit : s₀.Initial) (hrun : Transition.run (step cfg) s₀ as = some s) :
    (s₀.sessions.Initial
        ∧ ∃ bs, Transition.run (Sessions.step cfg.sessions) s₀.sessions bs = some s.sessions)
      ∧ (∀ i, s.handled i ≠ [] → ∃ rest, Opened cfg .lease (s.links i).stream rest
          ∧ (s.handled i).map (fun e => e.call.req)
              <+: Sessions.requests cfg.sessions.codec rest)
      ∧ (∀ i, (s.links i).sent = []
          ∨ ∃ data hello rest, data.length ≤ maxFrame ∧ (s.links i).stream = frame data ++ rest
              ∧ cfg.hello.decodeHello data = some hello
              ∧ Answers cfg (s.handled i) hello (s.links i).sent)
      ∧ ∀ keep : κ → Bool,
          (∀ i, keep i = false → ¬ ∃ rest, Opened cfg .lease (s.links i).stream rest) →
          ∃ t, Transition.run (step cfg) s₀ (as.filter (fun a => a.conn.all keep)) = some t
            ∧ Alike keep s t := by
  obtain ⟨hok, hserved, hsessions⟩ := ok_of_run hinit hrun
  refine ⟨⟨hinit.sessions, hsessions⟩, fun i => handled_opened hok hserved,
    fun i => (hok i).answers hserved, fun keep hkeep => ?_⟩
  refine exists_run_of_silent hrun (fun i hi => ?_)
  by_contra hne
  obtain ⟨rest, hopened, -⟩ := handled_opened hok hserved hne
  exact hkeep i hi ⟨rest, hopened⟩

/-! ### A lease client, and one that does not know the token -/

/-- A daemon whose messages are postcard, and whose nodes answer nothing. -/
def postcardDaemon : Config :=
  ⟨Sessions.postcardSessions, HelloCodec.postcard, "token", "bench", fun _ => none⟩

/-- On a rig that is free. -/
def freeDaemon : State ℕ := ⟨0, LeaseServer.new, fun _ => Link.fresh, []⟩

/-- The two send the same but for the token: their `Hello`s, and Acquires at once. -/
def intruderRun : List (Sessions.Action ℕ) :=
  [.arrive 1 (frame (Hello.toPostcard ⟨0, .lease, "guess"⟩)),
    .arrive 1 (frame (LeaseRequest.acquire "b" 60).toPostcard),
    .arrive 0 (frame (Hello.toPostcard ⟨0, .lease, "token"⟩)),
    .read 1 0,
    .read 0 0,
    .write 0 3,
    .arrive 0 (frame (LeaseRequest.acquire "a" 60).toPostcard),
    .write 1 100,
    .write 0 100,
    .read 0 7,
    .write 0 100]

/-- **The one is granted the lease, the other refused**, and the rest goes on as if it
were not there. -/
theorem intruderRun_guarded :
    ∃ s, Transition.run (step postcardDaemon) freeDaemon intruderRun = some s
      ∧ (s.handled 0).map Handled.reply = [.granted 7] ∧ s.handled 1 = []
      ∧ (s.links 1).sent = frame HelloReply.denied.toPostcard
      ∧ ∃ t, Transition.run (step postcardDaemon) freeDaemon
            (intruderRun.filter (fun a => a.conn.all (· ≠ 1))) = some t
          ∧ t.server = s.server ∧ t.links 0 = s.links 0 := by
  have hend : (Transition.run (step postcardDaemon) freeDaemon intruderRun).map
      (fun s => ((s.handled 0).map Handled.reply, (s.handled 1).length, (s.links 1).sent,
        (s.links 1).stream))
      = some ([.granted 7], 0, frame HelloReply.denied.toPostcard,
          frame (Hello.toPostcard ⟨0, .lease, "guess"⟩)
            ++ frame (LeaseRequest.acquire "b" 60).toPostcard) := by
    decide +kernel
  obtain ⟨s, hrun, hs⟩ := Option.map_eq_some_iff.mp hend
  simp only [Prod.mk.injEq, List.length_eq_zero_iff] at hs
  obtain ⟨hreplies, hnone, hsent, hstream⟩ := hs
  have hinit : freeDaemon.Initial := ⟨fun _ => rfl, rfl⟩
  obtain ⟨-, -, -, hkept⟩ := daemon_guards postcardDaemon hinit hrun
  have hclosed (i : ℕ) (hi : decide (i ≠ 1) = false) :
      ¬ ∃ rest, Opened postcardDaemon .lease (s.links i).stream rest := by
    obtain rfl : i = 1 := by simpa using hi
    rw [hstream, exists_opened_iff]
    decide +kernel
  obtain ⟨t, ht, halike⟩ := hkept (fun i => i ≠ 1) hclosed
  exact ⟨s, hrun, hreplies, hnone, hsent, t, ht, halike.server, halike.links 0 rfl⟩

end Daemon

end Banc
