import Banc.Lib.Postcard
import Banc.Net.Stream

/-!
# The handshake

Every connection begins with one frame each way: the client's `Hello`, which
names its version, the role it wants and its token, and the daemon's reply. The
server half of it is `handshake_server`; the client half is written twice, for a
tokio stream and for a blocking one, and only the first returns the name of the
rig.

What is proved is that both ends come to the same conclusion, and that the
stream is left where the next frame begins, whatever the client has sent ahead
(`handshake_agrees`). The server compares tokens without stopping at the first
byte that differs; `tokenEq_iff` says that it compares them all the same.

Postcard is a parameter, of which no more is used than that what fits a frame
reads back; `HelloCodec.postcard` is the format itself.
-/

namespace Banc

open Chunked Postcard

/-- `NET_VERSION`. -/
def netVersion : UInt8 := 0

/-- What a connection wants to be after the handshake. -/
inductive Role where
  | node
  | lease
  deriving DecidableEq, Repr

/-- What the client sends. -/
structure Hello where
  version : UInt8
  role : Role
  token : String
  deriving DecidableEq, Repr

/-- What the daemon replies. -/
inductive HelloReply where
  | ok (rigName : String)
  | denied
  deriving DecidableEq, Repr

/-- `postcard::to_stdvec` and `postcard::from_bytes`, at the two message
types. -/
structure HelloCodec where
  encodeHello : Hello → List UInt8
  decodeHello : List UInt8 → Option Hello
  encodeReply : HelloReply → List UInt8
  decodeReply : List UInt8 → Option HelloReply

/-- A codec that reads back what fits a frame. -/
structure HelloCodec.Faithful (codec : HelloCodec) : Prop where
  hello : ∀ hello, (codec.encodeHello hello).length ≤ maxFrame →
    codec.decodeHello (codec.encodeHello hello) = some hello
  reply : ∀ reply, (codec.encodeReply reply).length ≤ maxFrame →
    codec.decodeReply (codec.encodeReply reply) = some reply

/-- `token_eq`: length, then content without early exit. -/
def tokenEq (a b : String) : Bool :=
  let a := utf8 a
  let b := utf8 b
  if a.length ≠ b.length then false
  else (a.zip b).foldl (fun acc xy => acc ||| (xy.1 ^^^ xy.2)) 0 == 0

/-- Why a handshake failed. -/
inductive HandshakeError where
  /-- A frame could not be read. -/
  | io (e : FrameError)
  /-- A frame could not be decoded. -/
  | decode
  /-- The `debug_assert!` of `write_frame` failed. -/
  | panic
  /-- The server's `handshake denied: version … (want 0), token …`. -/
  | denied (version : UInt8) (tokenOk : Bool)
  /-- The client's `rig daemon denied the handshake (bad token?)`. -/
  | daemonDenied
  deriving DecidableEq, Repr

/-- One end's half of the handshake: its result, what is left of the stream it
read, and what it wrote. -/
structure Half (α : Type) where
  outcome : Except HandshakeError α
  rest : Stream
  written : List UInt8

/-- Write one frame, and go on with a result. -/
def Half.writing {α : Type} (frame : Option (List UInt8)) (rest : Stream)
    (outcome : Except HandshakeError α) : Half α :=
  match frame with
  | none => ⟨.error .panic, rest, []⟩
  | some bs => ⟨outcome, rest, bs⟩

section Halves

variable (codec : HelloCodec) (debugAssertions : Bool)

/-- `handshake_server`. -/
def handshakeServer (token rigName : String) (stream : Stream) : Half Role :=
  match Io.tokio.readFrame stream with
  | (.error e, rest) => ⟨.error (.io e), rest, []⟩
  | (.ok data, rest) =>
    match codec.decodeHello data with
    | none => ⟨.error .decode, rest, []⟩
    | some hello =>
      if hello.version ≠ netVersion || !tokenEq hello.token token then
        Half.writing (Io.tokio.writeFrame debugAssertions (codec.encodeReply .denied)) rest
          (.error (.denied hello.version (tokenEq hello.token token)))
      else
        Half.writing (Io.tokio.writeFrame debugAssertions (codec.encodeReply (.ok rigName)))
          rest (.ok hello.role)

/-- What the two client halves have in common: write the `Hello`, read the
reply, and make a result of the name in it. -/
def greet {α : Type} (io : Io) (result : String → α) (role : Role) (token : String)
    (stream : Stream) : Half α :=
  match io.writeFrame debugAssertions (codec.encodeHello ⟨netVersion, role, token⟩) with
  | none => ⟨.error .panic, stream, []⟩
  | some bs =>
    match io.readFrame stream with
    | (.error e, rest) => ⟨.error (.io e), rest, bs⟩
    | (.ok data, rest) =>
      match codec.decodeReply data with
      | none => ⟨.error .decode, rest, bs⟩
      | some (.ok rigName) => ⟨.ok (result rigName), rest, bs⟩
      | some .denied => ⟨.error .daemonDenied, rest, bs⟩

/-- `handshake_client`. -/
def handshakeClient (role : Role) (token : String) (stream : Stream) : Half String :=
  greet codec debugAssertions .tokio (fun rigName => rigName) role token stream

/-- `handshake_client_sync`. -/
def handshakeClientSync (role : Role) (token : String) (stream : Stream) : Half Unit :=
  greet codec debugAssertions .blocking (fun _ => ()) role token stream

end Halves

/-! ## Comparing tokens -/

/-- The accumulator ends up zero if it was and no two bytes differ. -/
theorem foldl_or_xor_eq_zero (xs ys : List UInt8) (acc : UInt8) (h : xs.length = ys.length) :
    (xs.zip ys).foldl (fun acc xy => acc ||| (xy.1 ^^^ xy.2)) acc = 0 ↔ acc = 0 ∧ xs = ys := by
  induction xs generalizing ys acc with
  | nil =>
    obtain rfl : [] = ys := (List.length_eq_zero_iff.mp h.symm).symm
    exact (and_iff_left rfl).symm
  | cons x xs ih =>
    cases ys with
    | nil => exact absurd h (Nat.succ_ne_zero _)
    | cons y ys =>
      rw [List.zip_cons_cons, List.foldl_cons, ih ys _ (Nat.succ.inj h),
        UInt8.or_eq_zero_iff, UInt8.xor_eq_zero_iff, List.cons.injEq, and_assoc]

/-- **`token_eq` is equality of strings.** -/
theorem tokenEq_iff (a b : String) : tokenEq a b = true ↔ a = b := by
  unfold tokenEq
  rw [← utf8_inj]
  dsimp only
  split
  · rename_i hne
    refine ⟨fun h => absurd h Bool.false_ne_true, fun h => ?_⟩
    exact absurd (congrArg List.length h) hne
  · rename_i heq
    rw [beq_iff_eq, foldl_or_xor_eq_zero _ _ _ (not_not.mp heq), and_iff_right rfl]

/-- **The server takes the `Hello`**: it is of this version, and its token is
the server's, byte for byte. -/
def Hello.Accepted (token : String) (hello : Hello) : Prop :=
  hello.version = netVersion ∧ utf8 hello.token = utf8 token

instance (token : String) (hello : Hello) : Decidable (hello.Accepted token) :=
  inferInstanceAs (Decidable (_ ∧ _))

theorem Hello.accepted_iff {token : String} {hello : Hello} :
    hello.Accepted token
      ↔ (hello.version ≠ netVersion || !tokenEq hello.token token) = false := by
  unfold Hello.Accepted
  rw [utf8_inj, ← tokenEq_iff]
  simp

/-- The reply to a `Hello`. -/
def Hello.reply (token rigName : String) (hello : Hello) : HelloReply :=
  if hello.Accepted token then .ok rigName else .denied

/-! ## The two halves -/

section Agreement

variable {codec : HelloCodec} (debugAssertions : Bool)

theorem Half.writing_frame {α : Type} {data : List UInt8} (hdata : data.length ≤ maxFrame)
    (rest : Stream) (outcome : Except HandshakeError α) :
    Half.writing (Io.tokio.writeFrame debugAssertions data) rest outcome
      = ⟨outcome, rest, frame data⟩ := by
  rw [Io.tokio.writeFrame_eq hdata]
  rfl

/-- The server on a frame that is not a `Hello`. -/
theorem handshakeServer_of_undecodable (token rigName : String)
    {data pipelined : List UInt8} {stream : Stream}
    (hdata : data.length ≤ maxFrame) (hstream : contents stream = frame data ++ pipelined)
    (hdecode : codec.decodeHello data = none) :
    ∃ rest, contents rest = pipelined
      ∧ handshakeServer codec debugAssertions token rigName stream
          = ⟨.error .decode, rest, []⟩ := by
  obtain ⟨rest, hread, hrest⟩ := Io.tokio.readFrame_frame hdata hstream
  refine ⟨rest, hrest, ?_⟩
  rw [handshakeServer, hread]
  simp only [hdecode]

/-- What the server returns to a `Hello`, once it has replied. -/
def Hello.outcome (token : String) (hello : Hello) : Except HandshakeError Role :=
  if hello.Accepted token then .ok hello.role
  else .error (.denied hello.version (tokenEq hello.token token))

/-- The server on a `Hello`, whether or not its reply fits a frame. -/
theorem handshakeServer_of_decodable (token rigName : String)
    {data pipelined : List UInt8} {stream : Stream} {hello : Hello}
    (hdata : data.length ≤ maxFrame) (hstream : contents stream = frame data ++ pipelined)
    (hdecode : codec.decodeHello data = some hello) :
    ∃ rest, contents rest = pipelined
      ∧ handshakeServer codec debugAssertions token rigName stream
          = Half.writing
              (Io.tokio.writeFrame debugAssertions (codec.encodeReply (hello.reply token rigName)))
              rest (hello.outcome token) := by
  obtain ⟨rest, hread, hrest⟩ := Io.tokio.readFrame_frame hdata hstream
  refine ⟨rest, hrest, ?_⟩
  rw [handshakeServer, hread]
  simp only [hdecode]
  unfold Hello.reply Hello.outcome
  by_cases hacc : hello.Accepted token
  · rw [if_pos hacc, if_pos hacc, Hello.accepted_iff.mp hacc]
    rfl
  · rw [if_neg hacc, if_neg hacc]
    rw [Hello.accepted_iff, Bool.not_eq_false] at hacc
    rw [hacc]
    rfl

/-- **The server on a `Hello`.** -/
theorem handshakeServer_of_hello {token rigName : String} {data pipelined : List UInt8}
    {stream : Stream} {hello : Hello}
    (hreply : (codec.encodeReply (hello.reply token rigName)).length ≤ maxFrame)
    (hdata : data.length ≤ maxFrame) (hstream : contents stream = frame data ++ pipelined)
    (hdecode : codec.decodeHello data = some hello) :
    ∃ rest, contents rest = pipelined
      ∧ handshakeServer codec debugAssertions token rigName stream
          = ⟨if hello.Accepted token then .ok hello.role
              else .error (.denied hello.version (tokenEq hello.token token)),
            rest, frame (codec.encodeReply (hello.reply token rigName))⟩ := by
  obtain ⟨rest, hrest, hrun⟩ :=
    handshakeServer_of_decodable debugAssertions token rigName hdata hstream hdecode
  refine ⟨rest, hrest, ?_⟩
  rw [hrun]
  exact Half.writing_frame debugAssertions hreply rest _

/-- What a client makes of a reply. -/
def HelloReply.outcome {α : Type} (result : String → α) :
    HelloReply → Except HandshakeError α
  | .ok rigName => .ok (result rigName)
  | .denied => .error .daemonDenied

/-- **Either client half on a reply.** -/
theorem greet_of_reply {α : Type} (io : Io) (result : String → α) {role : Role}
    {clientToken : String} (hcodec : codec.Faithful) {reply : HelloReply}
    {answer : Stream} {later : List UInt8}
    (hhello : (codec.encodeHello ⟨netVersion, role, clientToken⟩).length ≤ maxFrame)
    (hreply : (codec.encodeReply reply).length ≤ maxFrame)
    (hanswer : contents answer = frame (codec.encodeReply reply) ++ later) :
    ∃ rest, contents rest = later
      ∧ greet codec debugAssertions io result role clientToken answer
          = ⟨reply.outcome result, rest,
            frame (codec.encodeHello ⟨netVersion, role, clientToken⟩)⟩ := by
  obtain ⟨rest, hread, hrest⟩ := io.readFrame_frame hreply hanswer
  refine ⟨rest, hrest, ?_⟩
  rw [greet, io.writeFrame_eq hhello]
  simp only [hread, hcodec.reply reply hreply]
  cases reply with
  | ok rigName => rfl
  | denied => rfl

/-- **What the server makes of the first frame**, whatever it is. -/
theorem handshakeServer_ok_iff (token rigName : String) {data pipelined : List UInt8}
    {stream : Stream} (hdata : data.length ≤ maxFrame)
    (hreply : ∀ hello, codec.decodeHello data = some hello →
      (codec.encodeReply (hello.reply token rigName)).length ≤ maxFrame)
    (hstream : contents stream = frame data ++ pipelined) :
    contents (handshakeServer codec debugAssertions token rigName stream).rest = pipelined
      ∧ ∀ role, (handshakeServer codec debugAssertions token rigName stream).outcome
          = .ok role
        ↔ ∃ hello, codec.decodeHello data = some hello ∧ hello.version = netVersion
            ∧ utf8 hello.token = utf8 token ∧ hello.role = role := by
  cases hdecode : codec.decodeHello data with
  | none =>
    obtain ⟨rest, hrest, hrun⟩ := handshakeServer_of_undecodable debugAssertions token
      rigName hdata hstream hdecode
    rw [hrun]
    exact ⟨hrest, fun role => by simp⟩
  | some hello =>
    obtain ⟨rest, hrest, hrun⟩ := handshakeServer_of_hello debugAssertions
      (hreply hello hdecode) hdata hstream hdecode
    rw [hrun]
    by_cases hacc : hello.Accepted token
    · rw [if_pos hacc]
      exact ⟨hrest, fun role => by simp [hacc.1, hacc.2]⟩
    · rw [if_neg hacc]
      refine ⟨hrest, fun role => ⟨fun h => by simp at h, ?_⟩⟩
      rintro ⟨_, hsome, hversion, htoken, -⟩
      obtain rfl := Option.some.inj hsome
      exact absurd ⟨hversion, htoken⟩ hacc

/-- **What either client half makes of what the server writes.** -/
theorem greet_ok_iff {α : Type} (io : Io) (result : String → α) (hcodec : codec.Faithful)
    {token rigName : String} {role : Role} {clientToken : String}
    {pipelined later : List UInt8} {stream answer : Stream}
    (hhello : (codec.encodeHello ⟨netVersion, role, clientToken⟩).length ≤ maxFrame)
    (hreply : (codec.encodeReply
      ((Hello.mk netVersion role clientToken).reply token rigName)).length ≤ maxFrame)
    (hstream : contents stream
      = frame (codec.encodeHello ⟨netVersion, role, clientToken⟩) ++ pipelined)
    (hanswer : contents answer
      = (handshakeServer codec debugAssertions token rigName stream).written ++ later) :
    (greet codec debugAssertions io result role clientToken answer).written
        = frame (codec.encodeHello ⟨netVersion, role, clientToken⟩)
      ∧ (∀ a, (greet codec debugAssertions io result role clientToken answer).outcome = .ok a
          ↔ (∃ role', (handshakeServer codec debugAssertions token rigName stream).outcome
              = .ok role') ∧ a = result rigName)
      ∧ contents (greet codec debugAssertions io result role clientToken answer).rest
          = later := by
  obtain ⟨rest, -, hrun⟩ := handshakeServer_of_hello debugAssertions hreply hhello hstream
    (hcodec.hello _ hhello)
  rw [hrun] at hanswer ⊢
  obtain ⟨rest', hrest', hclient⟩ :=
    greet_of_reply debugAssertions io result hcodec hhello hreply hanswer
  rw [hclient]
  refine ⟨rfl, fun a => ?_, hrest'⟩
  unfold Hello.reply
  by_cases hacc : (Hello.mk netVersion role clientToken).Accepted token
  · rw [if_pos hacc, if_pos hacc]
    simp [HelloReply.outcome, eq_comm]
  · rw [if_neg hacc, if_neg hacc]
    simp [HelloReply.outcome]

/-- **The handshake agrees on both ends**, where what is sent fits a frame.
* `token_eq` is equality of strings.
* Whatever the first frame is, the server returns a role exactly if the frame is
  a `Hello` of this version with the server's token and that role, and leaves
  the stream at what comes after the frame.
* To every `Hello` it replies with exactly one frame.
* A client that sends one, pipelining what it likes after it, succeeds exactly if
  the server does; the async half returns the server's rig name. It too leaves
  its stream at the next frame. -/
theorem handshake_agrees (codec : HelloCodec) (hcodec : codec.Faithful)
    (debugAssertions : Bool) (token rigName : String) :
    (∀ a b, tokenEq a b = true ↔ a = b)
      ∧ (∀ data pipelined stream, data.length ≤ maxFrame →
          (∀ hello, codec.decodeHello data = some hello →
            (codec.encodeReply (hello.reply token rigName)).length ≤ maxFrame) →
          contents stream = frame data ++ pipelined →
          contents (handshakeServer codec debugAssertions token rigName stream).rest = pipelined
            ∧ ∀ role, (handshakeServer codec debugAssertions token rigName stream).outcome
                = .ok role
              ↔ ∃ hello, codec.decodeHello data = some hello ∧ hello.version = netVersion
                  ∧ utf8 hello.token = utf8 token ∧ hello.role = role)
      ∧ (∀ hello pipelined stream, (codec.encodeHello hello).length ≤ maxFrame →
          (codec.encodeReply (hello.reply token rigName)).length ≤ maxFrame →
          contents stream = frame (codec.encodeHello hello) ++ pipelined →
          (handshakeServer codec debugAssertions token rigName stream).written
            = frame (codec.encodeReply (hello.reply token rigName)))
      ∧ ∀ role clientToken pipelined stream later answer,
          let hello : Hello := ⟨netVersion, role, clientToken⟩
          let client := handshakeClient codec debugAssertions role clientToken answer
          let clientSync := handshakeClientSync codec debugAssertions role clientToken answer
          let server := handshakeServer codec debugAssertions token rigName stream
          (codec.encodeHello hello).length ≤ maxFrame →
          (codec.encodeReply (hello.reply token rigName)).length ≤ maxFrame →
          contents stream = frame (codec.encodeHello hello) ++ pipelined →
          contents answer = server.written ++ later →
          (client.written = frame (codec.encodeHello hello)
            ∧ (∀ name, client.outcome = .ok name
                ↔ (∃ role', server.outcome = .ok role') ∧ name = rigName)
            ∧ contents client.rest = later)
          ∧ clientSync.written = frame (codec.encodeHello hello)
            ∧ (clientSync.outcome = .ok () ↔ ∃ role', server.outcome = .ok role')
            ∧ contents clientSync.rest = later := by
  refine ⟨tokenEq_iff, fun data pipelined stream hdata hreply hstream => ?_,
    fun hello pipelined stream hhello hreply hstream => ?_, ?_⟩
  · exact handshakeServer_ok_iff debugAssertions token rigName hdata hreply hstream
  · obtain ⟨rest, -, hrun⟩ := handshakeServer_of_hello debugAssertions hreply hhello hstream
      (hcodec.hello hello hhello)
    rw [hrun]
  · intro role clientToken pipelined stream later answer hello client clientSync server
      hhello hreply hstream hanswer
    refine ⟨greet_ok_iff debugAssertions .tokio (fun name => name) hcodec hhello hreply
      hstream hanswer, ?_⟩
    obtain ⟨hwritten, houtcome, hrest⟩ := greet_ok_iff debugAssertions .blocking
      (fun _ => ()) hcodec hhello hreply hstream hanswer
    exact ⟨hwritten, (houtcome ()).trans (and_iff_left rfl), hrest⟩

end Agreement

/-! ## The postcard format -/

/-- The index of a role. -/
def Role.toPostcard : Role → List UInt8
  | .node => varint 5 0
  | .lease => varint 5 1

/-- Read a role. -/
def readRole : Reader Role := do
  let tag ← readUint 5 32
  match tag with
  | 0 => pure .node
  | 1 => pure .lease
  | _ => lift none

/-- The encoding of a `Hello`: its fields one after the other. -/
def Hello.toPostcard (hello : Hello) : List UInt8 :=
  [hello.version] ++ (hello.role.toPostcard ++ string hello.token)

/-- Read a `Hello`. -/
def readHello : Reader Hello := do
  let version ← byte
  let role ← readRole
  let token ← readString
  pure ⟨version, role, token⟩

/-- The encoding of a reply. -/
def HelloReply.toPostcard : HelloReply → List UInt8
  | .ok rigName => varint 5 0 ++ string rigName
  | .denied => varint 5 1

/-- Read a reply. -/
def readHelloReply : Reader HelloReply := do
  let tag ← readUint 5 32
  match tag with
  | 0 => do
    let rigName ← readString
    pure (.ok rigName)
  | 1 => pure .denied
  | _ => lift none

/-- Postcard, at the two message types. -/
def HelloCodec.postcard : HelloCodec where
  encodeHello := Hello.toPostcard
  decodeHello := fromBytes readHello
  encodeReply := HelloReply.toPostcard
  decodeReply := fromBytes readHelloReply

theorem reads_role (role : Role) : Reads readRole role.toPostcard role := by
  cases role with
  | node => exact (reads_tag 0 (by decide)).last (Reads.pure Role.node)
  | lease => exact (reads_tag 1 (by decide)).last (Reads.pure Role.lease)

/-- A string in a message that fits a frame. -/
theorem reads_string_of_fits {s : String} {msg : List UInt8}
    (hmsg : (utf8 s).length ≤ msg.length) (hfits : msg.length ≤ maxFrame) :
    Reads readString (string s) s :=
  reads_string ((hmsg.trans hfits).trans_lt (by decide))

/-- **Postcard is faithful.** -/
theorem HelloCodec.postcard_faithful : HelloCodec.postcard.Faithful where
  hello hello hfits := by
    have hlen : (utf8 hello.token).length ≤ hello.toPostcard.length := by
      rw [Hello.toPostcard, string]
      simp only [List.length_append]
      omega
    refine Reads.fromBytes ?_
    exact (reads_byte hello.version).bind ((reads_role hello.role).bind
      ((reads_string_of_fits hlen hfits).map _))
  reply reply hfits := by
    refine Reads.fromBytes ?_
    cases reply with
    | ok rigName =>
      have hlen : (utf8 rigName).length ≤ (HelloReply.ok rigName).toPostcard.length := by
        rw [HelloReply.toPostcard, string]
        simp only [List.length_append]
        omega
      exact (reads_tag 0 (by decide)).bind
        ((reads_string_of_fits hlen hfits).map _)
    | denied =>
      exact (reads_tag 1 (by decide)).last (Reads.pure HelloReply.denied)

/-- A client with the right token, and a request sent ahead. -/
theorem handshake_agrees_postcard :
    let stream : Stream := [.bytes 8 [0, 0, 0, 0, 1], .bytes 5 [0x74, 0x6F, 0x6B, 0x65, 0x6E, 1]]
    (handshakeServer HelloCodec.postcard true "token" "bench" stream).outcome = .ok .lease
      ∧ contents (handshakeServer HelloCodec.postcard true "token" "bench" stream).rest = [1] := by
  intro stream
  have hagrees := handshake_agrees HelloCodec.postcard HelloCodec.postcard_faithful true
    "token" "bench"
  have hreply (hello : Hello) :
      (HelloCodec.postcard.encodeReply (hello.reply "token" "bench")).length ≤ maxFrame := by
    unfold Hello.reply
    split
    · decide
    · decide
  obtain ⟨hrest, hrole⟩ := hagrees.2.1 (Hello.toPostcard ⟨0, .lease, "token"⟩) [1] stream
    (by decide) (fun hello _ => hreply hello) (by decide)
  refine ⟨(hrole .lease).mpr ⟨⟨0, .lease, "token"⟩, ?_, rfl, rfl, rfl⟩, hrest⟩
  exact HelloCodec.postcard_faithful.hello _ (by decide)

end Banc
