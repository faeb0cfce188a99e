import Banc.Net.Oversized

/-!
# Telling a peer that it is refused

`handshake_server` says of itself that on failure the peer got `Denied`. What the
peer has got by the time it returns is what it wrote, and there are two ways of
returning `Err`: it replies, and then fails; or it fails on the way to a reply. A
first frame that does not decode – the `Hello` of another version, say, with a role
this one does not know – is of the second kind, and its sender is not told anything.
It finds the end of the stream where it expects a reply.

So the peer is told exactly if its first frame decodes and the reply to it can be
written (`told_iff`).
-/

namespace Banc

open Chunked

/-- What was written is exactly one frame, and it decodes as this reply, with whichever
half the peer reads it, and in whatever pieces it arrives. -/
def Received (codec : HelloCodec) (written : List UInt8) (reply : HelloReply) : Prop :=
  ∀ (io : Io) (answer : Stream), contents answer = written →
    ∃ payload rest, io.readFrame answer = (.ok payload, rest) ∧ contents rest = []
      ∧ codec.decodeReply payload = some reply

/-- **The peer is told** what came of its handshake. A server that panics has not
returned. -/
structure Told (codec : HelloCodec) (rigName : String) (server : Half Role) : Prop where
  denied : ∀ e, server.outcome = .error e → e ≠ .panic → Received codec server.written .denied
  ok : ∀ role, server.outcome = .ok role → Received codec server.written (.ok rigName)

section Received

variable {codec : HelloCodec} {reply : HelloReply}

/-- A reply that fits is received. -/
theorem received_frame (hcodec : codec.Faithful)
    (hfits : (codec.encodeReply reply).length ≤ maxFrame) :
    Received codec (frame (codec.encodeReply reply)) reply := by
  intro io answer hanswer
  rw [← List.append_nil (frame _)] at hanswer
  obtain ⟨rest, hread, hrest⟩ := io.readFrame_frame hfits hanswer
  exact ⟨_, rest, hread, hrest, hcodec.reply reply hfits⟩

/-- Of a frame beyond the limit something is left over, if it can be read at all. -/
theorem not_received_oversized {data : List UInt8} (h : maxFrame < data.length) :
    ¬ Received codec (frame data) reply := by
  intro hreceived
  have hanswer : contents (putBack (frame data) []) = frame data ++ [] := contents_putBack _ _
  obtain ⟨payload, rest, hread, hrest, -⟩ :=
    hreceived .tokio _ (hanswer.trans (List.append_nil _))
  have hleft := congrArg Prod.snd (Io.tokio.readFrame_eq (putBack (frame data) []))
  obtain ⟨-, j, hj, hdrop⟩ := readFrame_oversized h []
  rw [hanswer, hdrop, List.append_nil, hread] at hleft
  change contents rest = data.drop j at hleft
  rw [hrest] at hleft
  exact absurd (List.drop_eq_nil_iff.mp hleft.symm) (not_le.mpr hj)

/-- Where nothing was written, nothing is received. -/
theorem not_received_nil : ¬ Received codec [] reply := by
  intro hreceived
  obtain ⟨payload, rest, hread, -, -⟩ := hreceived .tokio [] rfl
  obtain ⟨hfailed, -⟩ := Prod.mk.inj hread
  obtain ⟨⟩ := hfailed

/-- **What a client makes of a reply that it has received.** -/
theorem Received.greet {α : Type} {written : List UInt8} (hreceived : Received codec written reply)
    (debugAssertions : Bool) (io : Io) (result : String → α) {role : Role} {clientToken : String}
    (hhello : (codec.encodeHello ⟨netVersion, role, clientToken⟩).length ≤ maxFrame)
    {answer : Stream} (hanswer : contents answer = written) :
    (greet codec debugAssertions io result role clientToken answer).outcome
      = reply.outcome result := by
  obtain ⟨payload, rest, hread, -, hdecode⟩ := hreceived io answer hanswer
  rw [Banc.greet, io.writeFrame_eq hhello]
  simp only [hread, hdecode]
  cases reply with
  | ok rigName => rfl
  | denied => rfl

/-- And of none: the end of the stream, which says nothing about the token. -/
theorem greet_of_nothing {α : Type} (debugAssertions : Bool) (io : Io) (result : String → α)
    {role : Role} {clientToken : String}
    (hhello : (codec.encodeHello ⟨netVersion, role, clientToken⟩).length ≤ maxFrame)
    {answer : Stream} (hanswer : contents answer = []) :
    (greet codec debugAssertions io result role clientToken answer).outcome
      = .error (.io .short) := by
  obtain ⟨hread, -⟩ := Prod.mk.inj (io.readFrame_eq answer)
  rw [hanswer] at hread
  change (io.readFrame answer).1 = .error .short at hread
  rw [Banc.greet, io.writeFrame_eq hhello]
  cases hframe : io.readFrame answer with
  | mk outcome rest =>
    rw [hframe] at hread
    obtain rfl : outcome = .error .short := hread
    rfl

/-- A server that replies to a `Hello` tells its peer what it returns if the reply is
received. -/
theorem told_iff_received {token rigName : String} {hello : Hello} {rest : Stream}
    {written : List UInt8} :
    Told codec rigName ⟨hello.outcome token, rest, written⟩
      ↔ Received codec written (hello.reply token rigName) := by
  unfold Hello.reply Hello.outcome
  by_cases hacc : hello.Accepted token
  · rw [if_pos hacc, if_pos hacc]
    refine ⟨fun htold => htold.ok hello.role rfl, fun hreceived => ⟨fun e he => ?_, ?_⟩⟩
    · obtain ⟨⟩ := he
    · exact fun role _ => hreceived
  · rw [if_neg hacc, if_neg hacc]
    refine ⟨fun htold => htold.denied _ rfl HandshakeError.noConfusion,
      fun hreceived => ⟨fun e _ _ => hreceived, fun role hrole => ?_⟩⟩
    obtain ⟨⟩ := hrole

/-- A server that panics has not told its peer anything, and not returned. -/
theorem told_of_panic {rigName : String} {rest : Stream} :
    Told codec rigName ⟨.error .panic, rest, []⟩ where
  denied e he hne := absurd (Except.error.inj he).symm hne
  ok role hrole := by obtain ⟨⟩ := hrole

end Received

/-- **When a peer is told.** Whatever the first frame is, and whatever the token: if
`handshake_server` returns `Err` the peer has received one frame, with `Denied`, and if
it returns `Ok` one with the name of the rig – exactly if the frame decodes as a
`Hello`, and the reply to it fits a frame. One that does not fit is written all the
same, unless there are debug assertions, and then nothing is returned. -/
theorem told_iff (codec : HelloCodec) (hcodec : codec.Faithful) (debugAssertions : Bool)
    (token rigName : String) {data pipelined : List UInt8} {stream : Stream}
    (hdata : data.length ≤ maxFrame) (hstream : contents stream = frame data ++ pipelined) :
    Told codec rigName (handshakeServer codec debugAssertions token rigName stream)
      ↔ ∃ hello, codec.decodeHello data = some hello
        ∧ (debugAssertions = true
          ∨ (codec.encodeReply (hello.reply token rigName)).length ≤ maxFrame) := by
  cases hdecode : codec.decodeHello data with
  | none =>
    obtain ⟨rest, -, hrun⟩ := handshakeServer_of_undecodable debugAssertions token rigName
      hdata hstream hdecode
    rw [hrun]
    refine ⟨fun h => ?_, fun ⟨hello, hsome, _⟩ => absurd hsome.symm (Option.some_ne_none hello)⟩
    exact absurd (h.denied .decode rfl HandshakeError.noConfusion) not_received_nil
  | some hello =>
    obtain ⟨rest, -, hrun⟩ := handshakeServer_of_decodable debugAssertions token rigName
      hdata hstream hdecode
    rw [hrun]
    by_cases hfits : (codec.encodeReply (hello.reply token rigName)).length ≤ maxFrame
    · rw [Half.writing_frame debugAssertions hfits, told_iff_received]
      exact iff_of_true (received_frame hcodec hfits) ⟨hello, rfl, .inr hfits⟩
    · have hlong := not_le.mp hfits
      cases debugAssertions with
      | true =>
        have hpanic : Io.tokio.writeFrame true (codec.encodeReply (hello.reply token rigName))
            = none := if_pos (decide_eq_true hlong)
        rw [hpanic]
        exact iff_of_true told_of_panic ⟨hello, rfl, .inl rfl⟩
      | false =>
        show Told codec rigName ⟨hello.outcome token, rest, frame _⟩ ↔ _
        rw [told_iff_received]
        refine iff_of_false (not_received_oversized hlong) ?_
        rintro ⟨hello', hsome, hdebug | hfits'⟩
        · exact Bool.false_ne_true hdebug
        · exact hfits (Option.some.inj hsome ▸ hfits')

/-- A `Hello` with the wrong token is refused, and its sender is told. -/
theorem told_wrongToken :
    Told HelloCodec.postcard "bench"
      (handshakeServer HelloCodec.postcard false "token" "bench"
        (putBack (frame (Hello.toPostcard ⟨0, .node, "guess"⟩)) [])) := by
  have hstream : contents (putBack (frame (Hello.toPostcard ⟨0, .node, "guess"⟩)) [])
      = frame (Hello.toPostcard ⟨0, .node, "guess"⟩) ++ [] := contents_putBack _ _
  refine (told_iff HelloCodec.postcard HelloCodec.postcard_faithful false "token" "bench"
    (by decide) hstream).mpr ⟨⟨0, .node, "guess"⟩, ?_, .inr (by decide)⟩
  exact HelloCodec.postcard_faithful.hello _ (by decide)

/-! ### A role of another version -/

/-- A `Hello` whose role this version does not know. -/
def unknownRole : List UInt8 := [0, 2, 0]

/-- **Its sender is refused, and not told so.** -/
theorem unknownRole_untold :
    ¬ ∀ (debugAssertions : Bool) (token rigName : String) (data pipelined : List UInt8)
      (stream : Stream), data.length ≤ maxFrame → contents stream = frame data ++ pipelined →
      Told HelloCodec.postcard rigName
        (handshakeServer HelloCodec.postcard debugAssertions token rigName stream) := by
  intro h
  have htold := h false "token" "bench" unknownRole [] (putBack (frame unknownRole) [])
    (by decide) (contents_putBack _ _)
  have hdecode : HelloCodec.postcard.decodeHello unknownRole = none := by decide
  obtain ⟨rest, -, hrun⟩ := handshakeServer_of_undecodable false "token" "bench"
    (by decide) (contents_putBack (frame unknownRole) []) hdecode
  rw [hrun] at htold
  exact not_received_nil (htold.denied .decode rfl HandshakeError.noConfusion)

end Banc
