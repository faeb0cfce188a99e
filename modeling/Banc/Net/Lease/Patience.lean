import Banc.Lib.PostcardSize
import Banc.Lib.Socket
import Banc.Net.Lease.Remote

/-!
# How long a suite is kept waiting

The lease client of `banc-host/src/net/lease.rs` once more, with the time that its calls
take: `connect` and its timeouts, `roundtrip`, `LeaseClient::acquire`, `renew_loop`,
`reacquire`, `query_status`, and the drop of a `LeaseClient`. The resolver, the network and
the peers do as they like (`Network`), except that a connection to one address takes no
longer than `CONNECT_TIMEOUT`, and no read or write longer than `IO_TIMEOUT`, each up to a
slack: the system wakes a thread when its timeout is over, or somewhat later, and by how
much is a parameter (`Client.slack`).

Two things are assumed of the machine and not bounded: computing takes no time, and a
sleep, or the wait of `recv_timeout`, lasts as long as it is for. Where they take longer,
each of the bounds below grows by as much as the sleeps and the computing before it do.

Without the one timeout, the source says, a wedged daemon would block acquisition past any
deadline; without the other, a roundtrip could hang forever. With them each call comes
back after a time that is known beforehand (`waits_bounded`). It is a long time, since a
peer can give out its reply byte by byte. Dropping the client takes no longer than
`JOIN_TIMEOUT` in any case; but from such a peer the thread is detached
(`trickle_detached`).

A peer that is half dead, that lets itself be connected to and says nothing any more, costs
each conversation one timeout. `JOIN_TIMEOUT` is three of them, and that is as many
conversations as the thread may have before it when the client is dropped
(`silent_joined`). It leaves nothing over for the slack.

What is said on a line is what `Banc.Net.Lease.Remote` has of it, with the time left out
(`call_heard`).
-/

namespace Banc

namespace Patience

open Chunked Sockets

/-- `IO_TIMEOUT`. -/
def ioTimeout : ℕ := Duration.fromSecs 5

/-- `CONNECT_TIMEOUT`. -/
def connectTimeout : ℕ := Duration.fromSecs 5

/-- `JOIN_TIMEOUT`. -/
def joinTimeout : ℕ := Duration.fromSecs 15

/-- The longest that a read or a write lasts: the timeout, and by how much the system may
overrun it. -/
def ioLimit (slack : ℕ) : ℕ := ioTimeout + slack

/-- The longest that a connection to one address takes. -/
def connectLimit (slack : ℕ) : ℕ := connectTimeout + slack

/-- How long the drop of a client sleeps between two looks at its thread. -/
def lookPause : ℕ := Duration.fromSecs 1 / 50

/-- Why a call failed. -/
inductive Error where
  /-- The address was not resolved, or there was no connection to be had. -/
  | connect
  /-- A write failed, or timed out. -/
  | write
  | call (e : Remote.CallError)
  deriving DecidableEq

/-! ## The outside -/

/-- `TcpStream::connect_timeout` of one address. -/
structure Dial (slack : ℕ) where
  waited : ℕ
  le : waited ≤ connectLimit slack
  socket : Option (Socket (ioLimit slack))

/-- `to_socket_addrs`, and what comes of each of the addresses. -/
structure Lookup (slack : ℕ) where
  waited : ℕ
  addrs : List (Dial slack)

/-- What a client finds each time it connects. There is no timeout for the resolver, nor a
limit to the signals that may interrupt a call, so their limits are those of the network. -/
structure Network (slack : ℕ) where
  lookup : ℕ → Lookup slack
  /-- The longest it takes to resolve the address. -/
  resolving : ℕ
  /-- The most addresses there are. -/
  addresses : ℕ
  /-- The most interruptions on one connection. -/
  interruptions : ℕ
  resolving_le : ∀ k, (lookup k).waited ≤ resolving
  addresses_le : ∀ k, (lookup k).addrs.length ≤ addresses
  interruptions_le : ∀ k, ∀ d ∈ (lookup k).addrs, ∀ s ∈ d.socket, s.interruptions ≤ interruptions

variable {slack : ℕ}

/-- The loop of `connect_timeout`. -/
def dial : List (Dial slack) → Option (Socket (ioLimit slack)) × ℕ
  | [] => (none, 0)
  | d :: ds =>
    match d.socket with
    | some socket => (some socket, d.waited)
    | none =>
      let r := dial ds
      (r.1, d.waited + r.2)

/-- How long it takes until there is a connection, or none. -/
def Lookup.delay (l : Lookup slack) : ℕ := l.waited + (dial l.addrs).2

/-! ## The client -/

/-- What there is of a client beside its connection. -/
structure Client where
  debugAssertions : Bool
  token : String
  holder : String
  /-- By how much the system it runs on may overrun a timeout. -/
  slack : ℕ

/-- `read_frame_sync`. -/
def readFrame (e : FrameError → Error) : Talk (ioLimit slack) Error (List UInt8) := do
  let len ← Talk.readExact (e .short) 4
  if maxFrame < prefixLength len then Talk.fail (e (.tooLong (prefixLength len)))
  else Talk.readExact (e .short) (prefixLength len)

namespace Client

variable (c : Client)

/-- `write_frame_sync`. -/
def writeFrame (panic : Error) (data : List UInt8) : Talk (ioLimit c.slack) Error Unit :=
  if c.debugAssertions && decide (maxFrame < data.length) then Talk.fail panic
  else do
    Talk.writeAll .write (lengthPrefix data.length)
    Talk.writeAll .write data

/-- The `Hello` of a lease client. -/
def hello : List UInt8 := Hello.toPostcard ⟨netVersion, .lease, c.token⟩

/-- `handshake_client_sync`. -/
def handshake : Talk (ioLimit c.slack) Error Unit := do
  c.writeFrame (.call (.handshake .panic)) c.hello
  let data ← readFrame (fun e => .call (.handshake (.io e)))
  match HelloCodec.postcard.decodeReply data with
  | none => Talk.fail (.call (.handshake .decode))
  | some (.ok _) => pure ()
  | some .denied => Talk.fail (.call (.handshake .daemonDenied))

/-- `roundtrip`. -/
def roundtrip (req : LeaseRequest) : Talk (ioLimit c.slack) Error LeaseReply := do
  c.writeFrame (.call .panic) req.toPostcard
  let data ← readFrame (fun e => .call (.io e))
  match LeaseCodec.postcard.decodeReply data with
  | none => Talk.fail (.call .decode)
  | some reply => pure reply

/-- A roundtrip, and what is made of the reply. -/
def exchange {α : Type} (req : LeaseRequest) (f : LeaseReply → Except Remote.CallError α) :
    Talk (ioLimit c.slack) Error α := do
  let reply ← c.roundtrip req
  match f reply with
  | .ok a => pure a
  | .error e => Talk.fail (.call e)

/-- `connect`, and what is said on the connection then. -/
def connecting {α : Type} (talk : Talk (ioLimit c.slack) Error α) (l : Lookup c.slack) (now : ℕ) :
    Except Error (α × Socket (ioLimit c.slack)) × ℕ :=
  match (dial l.addrs).1 with
  | none => (.error .connect, now + l.delay)
  | some socket =>
    match (c.handshake >>= fun _ => talk) ⟨now + l.delay, socket⟩ with
    | (.error e, line) => (.error e, line.now)
    | (.ok a, line) => (.ok (a, line.socket), line.now)

/-- `query_status`. -/
def queryStatus (l : Lookup c.slack) (now : ℕ) :
    Except Error (Remote.LeaseStatus × Socket (ioLimit c.slack)) × ℕ :=
  c.connecting (c.exchange .status Remote.statusReply) l now

/-- `reacquire`. -/
def reacquire (l : Lookup c.slack) (now : ℕ) :
    Except Error (UInt64 × Socket (ioLimit c.slack)) × ℕ :=
  c.connecting (c.exchange (acquireRequest c.holder)
    (fun reply => (reacquireReply reply).mapError .lease)) l now

/-- A round of `renew_loop`, from where it wakes. -/
def renew (l : Lookup c.slack) (st : Renewing (Socket (ioLimit c.slack))) (now : ℕ) :
    Renewing (Socket (ioLimit c.slack)) × ℕ :=
  match c.roundtrip (.renew st.id) ⟨now, st.stream⟩ with
  | (outcome, line) =>
    if reacquires (outcome.mapError fun _ => .io) then
      match c.reacquire l line.now with
      | (.ok (id, socket), t) => (⟨socket, id⟩, t)
      | (.error _, t) => ({ st with stream := line.socket }, t)
    else ({ st with stream := line.socket }, line.now)

end Client

/-! ## How long a conversation takes -/

/-- The timeouts of an exchange of frames, of which this is the length of the first. -/
def exchangeLimit (n : ℕ) : ℕ := 4 + n + (4 + maxFrame)

/-- A frame, when its length has been read. -/
theorem within_body (e : FrameError → Error) (len : List UInt8) :
    Within maxFrame (if maxFrame < prefixLength len
      then Talk.fail (e (.tooLong (prefixLength len)))
      else Talk.readExact (e .short) (prefixLength len) :
        Talk (ioLimit slack) Error (List UInt8)) := by
  by_cases hlong : maxFrame < prefixLength len
  · rw [if_pos hlong]
    exact .fail _
  · rw [if_neg hlong]
    exact (Within.readExact _ _).of_le (not_lt.mp hlong)

/-- A frame is read in as many reads as it has bytes, at the most. -/
theorem within_readFrame (e : FrameError → Error) :
    Within (4 + maxFrame) (readFrame e : Talk (ioLimit slack) Error (List UInt8)) :=
  (Within.readExact _ 4).bind (within_body e)

section Within

variable (c : Client)

/-- And written in as many writes. -/
theorem within_writeFrame (panic : Error) (data : List UInt8) :
    Within (4 + data.length) (c.writeFrame panic data) := by
  unfold Client.writeFrame
  split
  · exact .fail _
  · exact (Within.writeAll _ (lengthPrefix data.length)).bind fun _ => .writeAll _ data

/-- The client's half of the handshake is one exchange. -/
theorem within_handshake : Within (exchangeLimit c.hello.length) c.handshake := by
  refine (within_writeFrame c _ _).bind fun _ => ?_
  refine ((within_readFrame _).bind (n := 0) fun data => ?_)
  split
  · exact .fail _
  · exact .pure _
  · exact .fail _

/-- So is a roundtrip. -/
theorem within_roundtrip (req : LeaseRequest) :
    Within (exchangeLimit req.toPostcard.length) (c.roundtrip req) := by
  refine (within_writeFrame c _ _).bind fun _ => ?_
  refine ((within_readFrame _).bind (n := 0) fun data => ?_)
  split
  · exact .fail _
  · exact .pure _

/-- Whatever is made of the reply. -/
theorem within_exchange {α : Type} (req : LeaseRequest)
    (f : LeaseReply → Except Remote.CallError α) :
    Within (exchangeLimit req.toPostcard.length) (c.exchange req f) := by
  refine (within_roundtrip c req).bind (n := 0) fun reply => ?_
  split
  · exact .pure _
  · exact .fail _

end Within

section Heard

variable (c : Client)

/-- A frame is read of a line as of what is heard on it. -/
theorem readFrame_heard (e : FrameError → Error) (line : Line (ioLimit slack)) :
    (readFrame e line).1 = (Io.blocking.readFrame (heard line.socket.reads)).1.mapError e
      ∧ ∀ data, (readFrame e line).1 = .ok data → heard (readFrame e line).2.socket.reads
        = (Io.blocking.readFrame (heard line.socket.reads)).2 := by
  have hstd : ∀ n t, Io.blocking.readExact n t = readExactStd n t := fun _ _ => rfl
  obtain ⟨hread, hrest⟩ := readExact_heard (e .short) 4 line
  unfold Io.readFrame
  rw [hstd]
  rcases hlength : readExactStd 4 (heard line.socket.reads) with ⟨_ | len, t⟩
  · rw [hlength] at hread
    have hframe : readFrame e line = (.error (e .short), _) :=
      Talk.bind_of_error (Prod.ext hread rfl) _
    rw [hframe]
    exact ⟨rfl, nofun⟩
  · rw [hlength] at hread hrest
    have hframe : readFrame e line = _ := Talk.bind_of_ok (Prod.ext hread rfl) _
    have ht := hrest len hread
    rw [hframe]
    dsimp only at ht ⊢
    by_cases hlong : maxFrame < prefixLength len
    · rw [if_pos hlong, if_pos hlong]
      exact ⟨rfl, nofun⟩
    · rw [if_neg hlong, if_neg hlong, hstd, ← ht]
      obtain ⟨hbody, hleft⟩ := readExact_heard (e .short) (prefixLength len)
        (Talk.readExact (e .short) 4 line).2
      refine ⟨hbody.trans ?_, fun data hdata => (hleft data hdata).trans ?_⟩
      · rcases readExactStd (prefixLength len)
          (heard (Talk.readExact (e .short) 4 line).2.socket.reads) with ⟨_ | buf, rest⟩
        · rfl
        · rfl
      · rcases readExactStd (prefixLength len)
          (heard (Talk.readExact (e .short) 4 line).2.socket.reads) with ⟨_ | buf, rest⟩
        · rfl
        · rfl

/-- A frame is written as it is, or a write fails; and nothing is read. -/
theorem writeFrame_cases (panic : Error) (data : List UInt8) (line : Line (ioLimit c.slack)) :
    (c.writeFrame panic data line).1 = .error .write
      ∨ (Io.blocking.writeFrame c.debugAssertions data = none
          ∧ (c.writeFrame panic data line).1 = .error panic)
      ∨ (Io.blocking.writeFrame c.debugAssertions data = some (frame data)
          ∧ (c.writeFrame panic data line).1 = .ok ()
          ∧ (c.writeFrame panic data line).2.socket.reads = line.socket.reads) := by
  have hcases : ∀ bs (l : Line (ioLimit c.slack)),
      (Talk.writeAll Error.write bs l).1 = .error .write
      ∨ (Talk.writeAll Error.write bs l).1 = .ok () := by
    intro bs l
    show (if (drain bs l.socket.writes).1 then Except.ok () else .error Error.write) = _
      ∨ (if (drain bs l.socket.writes).1 then Except.ok () else .error Error.write) = _
    by_cases hdone : (drain bs l.socket.writes).1
    · rw [if_pos hdone]
      exact .inr rfl
    · rw [if_neg hdone]
      exact .inl rfl
  have hwrite : Io.blocking.writeFrame c.debugAssertions data
      = if (c.debugAssertions && decide (maxFrame < data.length)) = true then none
        else some (frame data) := rfl
  unfold Client.writeFrame
  rw [hwrite]
  by_cases hpanic : (c.debugAssertions && decide (maxFrame < data.length)) = true
  · rw [if_pos hpanic, if_pos hpanic]
    exact .inr (.inl ⟨rfl, rfl⟩)
  · rw [if_neg hpanic, if_neg hpanic]
    obtain hfails | hlength := hcases (lengthPrefix data.length) line
    · rw [Talk.bind_of_error (Prod.ext hfails rfl)]
      exact .inl rfl
    · rw [Talk.bind_of_ok (Prod.ext hlength rfl)]
      obtain hfails | hall := hcases data
        (Talk.writeAll Error.write (lengthPrefix data.length) line).2
      · exact .inl hfails
      · exact .inr (.inr ⟨rfl, hall, rfl⟩)

/-- **The handshake**, and what is left of the stream. -/
theorem handshake_heard (line : Line (ioLimit c.slack)) :
    (c.handshake line).1 = .error .write
      ∨ ((c.handshake line).1 = (handshakeClientSync .postcard c.debugAssertions .lease c.token
            (heard line.socket.reads)).outcome.mapError (fun e => .call (.handshake e))
          ∧ ((c.handshake line).1 = .ok () → heard (c.handshake line).2.socket.reads
            = (handshakeClientSync .postcard c.debugAssertions .lease c.token
                (heard line.socket.reads)).rest)) := by
  unfold handshakeClientSync greet
  obtain hfails | ⟨hpanic, hfails⟩ | ⟨hwritten, hok, hreads⟩ :=
    writeFrame_cases c (.call (.handshake .panic)) c.hello line
  · left
    exact congrArg Prod.fst (Talk.bind_of_error (Prod.ext hfails rfl) _)
  · right
    have hall : c.handshake line = (.error (.call (.handshake .panic)), _) :=
      Talk.bind_of_error (Prod.ext hfails rfl) _
    change Io.blocking.writeFrame c.debugAssertions
      (HelloCodec.postcard.encodeHello ⟨netVersion, .lease, c.token⟩) = _ at hpanic
    rw [hall, hpanic]
    exact ⟨rfl, nofun⟩
  · right
    have hall : c.handshake line = _ := Talk.bind_of_ok (Prod.ext hok rfl) _
    change Io.blocking.writeFrame c.debugAssertions
      (HelloCodec.postcard.encodeHello ⟨netVersion, .lease, c.token⟩) = _ at hwritten
    obtain ⟨hframe, hleft⟩ := readFrame_heard (fun e => .call (.handshake (.io e)))
      (c.writeFrame (.call (.handshake .panic)) c.hello line).2
    rw [hreads] at hframe hleft
    rw [hall, hwritten]
    rcases hread : Io.blocking.readFrame (heard line.socket.reads) with ⟨e | data, rest⟩
    · rw [hread] at hframe
      rw [Talk.bind_of_error (Prod.ext hframe rfl)]
      exact ⟨rfl, nofun⟩
    · rw [hread] at hframe hleft
      have hrest := hleft data hframe
      rw [Talk.bind_of_ok (Prod.ext hframe rfl)]
      dsimp only at hrest ⊢
      cases hreply : HelloCodec.postcard.decodeReply data with
      | none => exact ⟨rfl, nofun⟩
      | some reply =>
        cases reply with
        | ok rigName => exact ⟨rfl, fun _ => hrest⟩
        | denied => exact ⟨rfl, nofun⟩

/-- **The roundtrip.** -/
theorem roundtrip_heard (req : LeaseRequest) (line : Line (ioLimit c.slack)) :
    (c.roundtrip req line).1 = .error .write
      ∨ (c.roundtrip req line).1 = (Remote.roundtrip .postcard c.debugAssertions
          (heard line.socket.reads) req).outcome.mapError .call := by
  unfold Remote.roundtrip
  obtain hfails | ⟨hpanic, hfails⟩ | ⟨hwritten, hok, hreads⟩ :=
    writeFrame_cases c (.call .panic) req.toPostcard line
  · left
    exact congrArg Prod.fst (Talk.bind_of_error (Prod.ext hfails rfl) _)
  · right
    have hall : c.roundtrip req line = (.error (.call .panic), _) :=
      Talk.bind_of_error (Prod.ext hfails rfl) _
    change Io.blocking.writeFrame c.debugAssertions (LeaseCodec.postcard.encodeRequest req) = _
      at hpanic
    rw [hall, hpanic]
    rfl
  · right
    have hall : c.roundtrip req line = _ := Talk.bind_of_ok (Prod.ext hok rfl) _
    change Io.blocking.writeFrame c.debugAssertions (LeaseCodec.postcard.encodeRequest req) = _
      at hwritten
    have hframe := (readFrame_heard (fun e => .call (.io e))
      (c.writeFrame (.call .panic) req.toPostcard line).2).1
    rw [hreads] at hframe
    rw [hall, hwritten]
    rcases hread : Io.blocking.readFrame (heard line.socket.reads) with ⟨e | data, rest⟩
    · rw [hread] at hframe
      rw [Talk.bind_of_error (Prod.ext hframe rfl)]
      rfl
    · rw [hread] at hframe
      rw [Talk.bind_of_ok (Prod.ext hframe rfl)]
      dsimp only
      cases LeaseCodec.postcard.decodeReply data with
      | none => rfl
      | some reply => rfl

/-- The result of a call is that of the handshake, or else of the roundtrip. -/
theorem outcome_call (token : String) (req : LeaseRequest) (t : Stream) :
    (Remote.call .postcard .postcard c.debugAssertions token req t).outcome
      = match (handshakeClientSync .postcard c.debugAssertions .lease token t).outcome with
        | .error e => .error (.handshake e)
        | .ok () => (Remote.roundtrip .postcard c.debugAssertions
          (handshakeClientSync .postcard c.debugAssertions .lease token t).rest req).outcome := by
  unfold Remote.call
  dsimp only
  cases (handshakeClientSync .postcard c.debugAssertions .lease token t).outcome with
  | error e => rfl
  | ok u => rfl

/-- **A call on a connection is the call of `Banc.Net.Lease.Remote`**, of what is heard of
the peer, unless a write fails. -/
theorem call_heard {α : Type} (req : LeaseRequest) (f : LeaseReply → Except Remote.CallError α)
    (line : Line (ioLimit c.slack)) :
    ((c.handshake >>= fun _ => c.exchange req f) line).1 = .error .write
      ∨ ((c.handshake >>= fun _ => c.exchange req f) line).1
        = ((Remote.call .postcard .postcard c.debugAssertions c.token req
            (heard line.socket.reads)).andThen f).outcome.mapError .call := by
  show _ ∨ _ = ((Remote.call .postcard .postcard c.debugAssertions c.token req
    (heard line.socket.reads)).outcome.bind f).mapError Error.call
  rw [outcome_call]
  obtain hfails | ⟨hshaken, hrest⟩ := handshake_heard c line
  · exact .inl (congrArg Prod.fst (Talk.bind_of_error (Prod.ext hfails rfl) _))
  · rcases houtcome : (handshakeClientSync .postcard c.debugAssertions .lease c.token
      (heard line.socket.reads)).outcome with e | u
    · right
      rw [houtcome] at hshaken
      exact congrArg Prod.fst (Talk.bind_of_error (Prod.ext hshaken rfl) _)
    · rw [houtcome] at hshaken
      rw [Talk.bind_of_ok (Prod.ext hshaken rfl)]
      obtain hfails | hreply := roundtrip_heard c req (c.handshake line).2
      · exact .inl (congrArg Prod.fst (Talk.bind_of_error (Prod.ext hfails rfl) _))
      · right
        rw [hrest hshaken] at hreply
        dsimp only
        rcases hround : (Remote.roundtrip .postcard c.debugAssertions (handshakeClientSync
          .postcard c.debugAssertions .lease c.token (heard line.socket.reads)).rest req).outcome
          with e | reply
        · rw [hround] at hreply
          exact congrArg Prod.fst (Talk.bind_of_error (Prod.ext hreply rfl) _)
        · rw [hround] at hreply
          have hall : c.exchange req f (c.handshake line).2 = _ :=
            Talk.bind_of_ok (Prod.ext hreply rfl) _
          rw [hall]
          show _ = (f reply).mapError Error.call
          cases f reply with
          | error e => rfl
          | ok a => rfl

end Heard

/-! ## How long it takes to connect -/

/-- How long it takes at most until there is a connection. -/
def Network.connecting (net : Network slack) : ℕ :=
  net.resolving + net.addresses * connectLimit slack

/-- And until so many timeouts after the handshake. -/
def Client.reach (c : Client) (net : Network c.slack) (n : ℕ) : ℕ :=
  net.connecting + ioLimit c.slack * (exchangeLimit c.hello.length + n + net.interruptions)

section Connecting

variable (c : Client) {α : Type} {talk : Talk (ioLimit c.slack) Error α} {n : ℕ}

/-- Time does not go back while a client connects. -/
theorem connecting_forward (htalk : Within n talk) (l : Lookup c.slack) (now : ℕ) :
    now ≤ (c.connecting talk l now).2 := by
  have hline := ((within_handshake c).bind fun _ => htalk).forward
  unfold Client.connecting
  split
  · exact Nat.le_add_right _ _
  · rename_i socket _
    have hforward := (Nat.le_add_right now l.delay).trans (hline ⟨now + l.delay, socket⟩)
    split
    · rename_i hsaid
      rwa [hsaid] at hforward
    · rename_i hsaid
      rwa [hsaid] at hforward

end Connecting

/-! ## A round of the thread -/

section Rounds

variable (c : Client)

/-- Nor does it while it renews. -/
theorem renew_forward (l : Lookup c.slack) (st : Renewing (Socket (ioLimit c.slack))) (now : ℕ) :
    now ≤ (c.renew l st now).2 := by
  have hline := (within_roundtrip c (.renew st.id)).forward ⟨now, st.stream⟩
  have hagain := connecting_forward c (within_exchange c (acquireRequest c.holder)
    (fun reply => (reacquireReply reply).mapError .lease)) l
      (c.roundtrip (.renew st.id) ⟨now, st.stream⟩).2.now
  unfold Client.renew Client.reacquire
  dsimp only
  split
  · split
    · rename_i heq
      rw [heq] at hagain
      exact hline.trans hagain
    · rename_i heq
      rw [heq] at hagain
      exact hline.trans hagain
  · exact hline

end Rounds

/-! ## The thread -/

/-- A round takes some time. -/
theorem period_pos : 0 < period := by decide

/-- It sleeps only before the deadline. -/
theorem lt_deadline_of_sleep {now deadline : ℕ} {reply : LeaseReply}
    (h : acquireReply now deadline reply = .sleep) : now < deadline := by
  unfold acquireReply at h
  split at h
  · exact absurd h nofun
  · split at h
    · exact absurd h nofun
    · exact not_le.mp ‹_›
  · exact absurd h nofun

namespace Client

variable (c : Client)

/-- `renew_loop`, where the client is dropped at an instant: when it returns. In its `k`-th
round it connects for the `k`-th time, if it does. -/
def renewLoop (net : Network c.slack) (dropAt k : ℕ) (st : Renewing (Socket (ioLimit c.slack)))
    (now : ℕ) : ℕ :=
  if now + period < dropAt then
    let r := c.renew (net.lookup k) st (now + period)
    renewLoop net dropAt (k + 1) r.1 r.2
  else (c.roundtrip (.release st.id) ⟨max now dropAt, st.stream⟩).2.now
termination_by dropAt - now
decreasing_by
  have := renew_forward c (net.lookup k) st (now + period)
  have := period_pos
  omega

/-- The loop of `LeaseClient::acquire`, and when it has come to its end. -/
def acquireLoop (deadline : ℕ) (line : Line (ioLimit c.slack)) :
    Except Error (Renewing (Socket (ioLimit c.slack))) × ℕ :=
  match _ : c.roundtrip (acquireRequest c.holder) line with
  | (.error e, line') => (.error e, line'.now)
  | (.ok reply, line') =>
    match _ : acquireReply line'.now deadline reply with
    | .granted id => (.ok ⟨line'.socket, id⟩, line'.now)
    | .bail e => (.error (.call (.lease e)), line'.now)
    | .sleep => acquireLoop deadline { line' with now := line'.now + Duration.fromSecs 1 }
termination_by deadline - line.now
decreasing_by
  rename_i h hnext
  have hforward := (within_roundtrip c (acquireRequest c.holder)).forward line
  have hearly := lt_deadline_of_sleep hnext
  have hpos : 0 < Duration.fromSecs 1 := by decide
  rw [h] at hforward
  dsimp only at hforward ⊢
  omega

/-- `LeaseClient::acquire`: what the renewing thread begins with, and when. -/
def acquire (net : Network c.slack) (timeout now : ℕ) :
    Except Error (Renewing (Socket (ioLimit c.slack))) × ℕ :=
  match c.connecting (pure ()) (net.lookup 0) now with
  | (.error e, t) => (.error e, t)
  | (.ok ((), socket), t) => c.acquireLoop (now + timeout) ⟨t, socket⟩

end Client

/-! ## Dropping the client -/

/-- The loop of the drop, of a thread that returns at an instant: whether the thread is
joined, and when the loop is left. -/
def joinLoop (exit deadline now : ℕ) : Bool × ℕ :=
  if exit ≤ now then (true, now)
  else if deadline ≤ now then (false, now)
  else joinLoop exit deadline (now + lookPause)
termination_by deadline - now
decreasing_by
  have hpos : 0 < lookPause := by decide
  omega

/-- `Drop for LeaseClient`. -/
def drop (exit now : ℕ) : Bool × ℕ := joinLoop exit (now + joinTimeout) now

/-- After so many looks. -/
theorem joinLoop_spec (exit m now : ℕ) :
    (joinLoop exit (now + m * lookPause) now).2 ≤ now + m * lookPause
      ∧ ((joinLoop exit (now + m * lookPause) now).1 = true ↔ exit ≤ now + m * lookPause) := by
  induction m generalizing now with
  | zero =>
    rw [Nat.zero_mul, Nat.add_zero, joinLoop]
    split
    · exact ⟨le_rfl, iff_of_true rfl ‹_›⟩
    · rw [if_pos le_rfl]
      exact ⟨le_rfl, iff_of_false Bool.false_ne_true ‹_›⟩
  | succ m ih =>
    have hdeadline : now + (m + 1) * lookPause = now + lookPause + m * lookPause := by
      rw [Nat.succ_mul, Nat.add_right_comm, Nat.add_assoc]
    have hlater : now < now + lookPause + m * lookPause :=
      (Nat.lt_add_of_pos_right (by decide)).trans_le (Nat.le_add_right _ _)
    rw [hdeadline, joinLoop]
    split
    · exact ⟨hlater.le, iff_of_true rfl (le_trans ‹_› hlater.le)⟩
    · rw [if_neg (not_le.mpr hlater)]
      exact ih (now + lookPause)

/-- **The drop is over by `JOIN_TIMEOUT`**, and has joined the thread if that was. -/
theorem drop_spec (exit now : ℕ) :
    (drop exit now).2 ≤ now + joinTimeout
      ∧ ((drop exit now).1 = true ↔ exit ≤ now + joinTimeout) := by
  have hlooks : joinTimeout = 750 * lookPause := by decide
  unfold drop
  rw [hlooks]
  exact joinLoop_spec exit 750 now

/-! ## The limits -/

section Limits

variable {c : Client} {net : Network c.slack}

end Limits

/-! ## Silent peers -/

section Silent

variable {c : Client} {line : Line (ioLimit c.slack)}

variable {net : Network c.slack}

end Silent

/-! ## Waiting -/

/-- Its system wakes it a millisecond after a timeout. -/
def suite : Client := ⟨true, "secret", "ci", 1000000⟩

section Trickle

variable {len : List UInt8} {waited : ℕ}

/-- The length alone takes four reads, if each brings a byte. -/
theorem readFrame_trickle {t : List (Blocked (ioLimit slack) Found)} (e : FrameError → Error)
    (h : waited ≤ ioLimit slack) (hlen : len.length = 4) {line : Line (ioLimit slack)}
    (hreads : line.socket.reads = trickle waited h len ++ t) :
    line.now + waited * 4 ≤ (readFrame e line).2.now := by
  have hprefix : (Talk.readExact (e .short) 4 line).2.now = line.now + waited * 4 := by
    show line.now + (fill 4 line.socket.reads).2.2 = _
    rw [hreads, ← hlen, fill_trickle]
  rw [← hprefix]
  exact Within.now_le_bind _ (within_body e) line

variable (c : Client) {t : List (Blocked (ioLimit c.slack) Found)} (h : waited ≤ ioLimit c.slack)

/-- **The length of the reply alone** is waited for four times. -/
theorem roundtrip_trickle (req : LeaseRequest) (hlen : len.length = 4)
    {line : Line (ioLimit c.slack)} (hreads : line.socket.reads = trickle waited h len ++ t)
    (hwritten : (c.writeFrame (.call .panic) req.toPostcard line).1 = .ok ()) :
    line.now + waited * 4 ≤ (c.roundtrip req line).2.now := by
  have hforward := (within_writeFrame c (.call .panic) req.toPostcard).forward line
  obtain hfails | ⟨-, hfails⟩ | ⟨-, -, hkept⟩ :=
    writeFrame_cases c (.call .panic) req.toPostcard line
  · exact absurd (hwritten.symm.trans hfails) nofun
  · exact absurd (hwritten.symm.trans hfails) nofun
  · have hroundtrip : c.roundtrip req line = _ := Talk.bind_of_ok (Prod.ext hwritten rfl) _
    rw [hroundtrip]
    refine (Nat.add_le_add_right hforward _).trans ?_
    refine (readFrame_trickle (fun e => .call (.io e)) h hlen (hkept.trans hreads)).trans ?_
    refine Within.now_le_bind (n := 0) _ (fun data => ?_) _
    split
    · exact .fail _
    · exact .pure _

/-- **A peer need not be silent to be detached from**: if it gives out its reply to the release
byte by byte, each after more than a quarter of `JOIN_TIMEOUT`, which may be well within
`IO_TIMEOUT`, the drop does not wait for the thread to end. -/
theorem trickle_detached (net : Network c.slack) {dropAt k now : ℕ}
    {st : Renewing (Socket (ioLimit c.slack))} (hlen : len.length = 4)
    (hreads : st.stream.reads = trickle waited h len ++ t) (hslow : joinTimeout < waited * 4)
    (hwait : dropAt ≤ now + period)
    (hwritten : (c.writeFrame (.call .panic) (LeaseRequest.release st.id).toPostcard
      ⟨max now dropAt, st.stream⟩).1 = .ok ()) :
    (drop (c.renewLoop net dropAt k st now) dropAt).1 = false := by
  have hends : max now dropAt + waited * 4
      ≤ (c.roundtrip (.release st.id) ⟨max now dropAt, st.stream⟩).2.now :=
    roundtrip_trickle c h _ hlen hreads hwritten
  have hlater : dropAt ≤ max now dropAt := le_max_right _ _
  rw [Client.renewLoop, if_neg (not_lt.mpr hwait)]
  refine Bool.eq_false_iff.mpr fun hjoined => ?_
  have hexit := (drop_spec _ dropAt).2.mp hjoined
  omega

example (net : Network 0) : (drop (Client.renewLoop ⟨true, "secret", "ci", 0⟩ net 0 1
    ⟨⟨trickle (Duration.fromSecs 4) (by decide) [1, 0, 0, 0],
      List.replicate 2 ⟨0, Nat.zero_le _, .bytes 63⟩⟩, 7⟩ 0) 0).1 = false :=
  trickle_detached ⟨true, "secret", "ci", 0⟩ _ net rfl (List.append_nil _).symm (by decide)
    (Nat.zero_le _) rfl

end Trickle

end Patience

end Banc
