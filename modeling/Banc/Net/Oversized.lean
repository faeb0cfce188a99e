import Banc.Lib.PostcardSize
import Banc.Net.Handshake
import Banc.Net.Lease.Wire
import Banc.Rig.Acquire

/-!
# Frames beyond the limit

What becomes of a payload that is longer than `MAX_FRAME`. The reader has a check for
it, and an error; of the two writers, either has a `debug_assert!`, and nothing where
that is compiled out. So such a payload does not fail at the writer: it panics, or it
is written, with its length modulo 2³² in front (`oversized_clean_iff`). The reader then
returns an error, or the beginning of the payload as all of it, and what it reads next
begins in the payload.

Nor does any of the callers look at the length of what it passes on. A token, the name
of a holder, and a message over the wire may be of any length.
-/

namespace Banc

open Chunked Fs Postcard

/-! ## The writers, on a stream that may fail -/

/-- The stream that is written to. -/
structure WriteHalf where
  /-- How many bytes it takes before a write fails. -/
  room : ℕ
  /-- Whether `flush` succeeds. -/
  flushes : Bool

/-- How a call of `write_frame` ends. -/
inductive Written where
  | panicked
  /-- It returned, `Ok` or not, and these bytes have got onto the stream. -/
  | returned (ok : Bool) (bytes : List UInt8)
  deriving DecidableEq

/-- `write_all`: whether it succeeds, what has got onto the stream, and the room that
is left. -/
def writeAll (room : ℕ) (bs : List UInt8) : Bool × List UInt8 × ℕ :=
  if bs.length ≤ room then (true, bs, room - bs.length) else (false, bs.take room, 0)

/-- `write_frame` and `write_frame_sync`. -/
def writeFrameTo (debugAssertions : Bool) (w : WriteHalf) (data : List UInt8) : Written :=
  if debugAssertions && decide (maxFrame < data.length) then .panicked
  else match writeAll w.room (lengthPrefix data.length) with
    | (false, bs, _) => .returned false bs
    | (true, bs, room) =>
      match writeAll room data with
      | (false, bs', _) => .returned false (bs ++ bs')
      | (true, bs', _) => .returned w.flushes (bs ++ bs')

/-- The writer of either half. -/
def Io.writeFrameTo : Io → Bool → WriteHalf → List UInt8 → Written
  | .tokio, debugAssertions, w, data => Banc.writeFrameTo debugAssertions w data
  | .blocking, debugAssertions, w, data => Banc.writeFrameTo debugAssertions w data

@[simp] theorem Io.writeFrameTo_eq (io : Io) : io.writeFrameTo = Banc.writeFrameTo := by
  funext debugAssertions w data
  cases io with
  | tokio => rfl
  | blocking => rfl

/-- An error that leaves nothing behind. -/
def Written.Clean (w : Written) : Prop := w = .returned false []

/-! ## What is written -/

section Writing

variable {debugAssertions : Bool} {w : WriteHalf} {data : List UInt8}

/-- Where there is room for the frame, what is written is what `writeFrame` says. -/
theorem writeFrameTo_of_room (hroom : (frame data).length ≤ w.room) :
    writeFrameTo debugAssertions w data = match writeFrame debugAssertions data with
      | none => .panicked
      | some bs => .returned w.flushes bs := by
  rw [length_frame] at hroom
  have hprefix : (lengthPrefix data.length).length ≤ w.room :=
    (Nat.le_add_right 4 data.length).trans hroom
  have hdata : data.length ≤ w.room - (lengthPrefix data.length).length :=
    Nat.le_sub_of_add_le' hroom
  unfold writeFrameTo writeFrame
  split
  case isTrue => rfl
  case isFalse =>
    unfold writeAll
    rw [if_pos hprefix]
    dsimp only
    rw [if_pos hdata]
    rfl

/-- Where there is none, the length is not written, and nothing follows it. -/
theorem writeFrameTo_of_room_eq_zero (hroom : w.room = 0) :
    writeFrameTo false w data = .returned false [] := by
  have hprefix : ¬ (lengthPrefix data.length).length ≤ w.room := by
    rw [hroom, length_lengthPrefix]
    exact Nat.not_succ_le_zero 3
  unfold writeFrameTo
  rw [Bool.false_and, if_neg Bool.false_ne_true, writeAll, if_neg hprefix, hroom, List.take_zero]

/-- Something of a frame gets onto a stream that takes anything. -/
theorem writeFrameTo_not_clean (hroom : 0 < w.room) :
    ¬ (writeFrameTo debugAssertions w data).Clean := by
  have hnil : ∀ {ok : Bool} {bs : List UInt8}, bs ≠ [] → ¬ (Written.returned ok bs).Clean :=
    fun hbs hclean => hbs (Written.returned.inj hclean).2
  unfold writeFrameTo
  split
  case isTrue => exact Written.noConfusion
  case isFalse =>
    unfold writeAll
    by_cases hprefix : (lengthPrefix data.length).length ≤ w.room
    · rw [if_pos hprefix]
      dsimp only
      split
      case h_1 => exact hnil (List.cons_ne_nil _ _)
      case h_2 => exact hnil (List.cons_ne_nil _ _)
    · rw [if_neg hprefix]
      refine hnil (fun htake => ?_)
      rw [List.take_eq_nil_iff] at htake
      exact htake.elim hroom.ne' (List.cons_ne_nil _ _)

theorem writeFrameTo_panics (h : maxFrame < data.length) :
    writeFrameTo true w data = .panicked := by
  unfold writeFrameTo
  exact if_pos (decide_eq_true h)

/-- **When a frame beyond the limit fails cleanly**: when the stream itself fails. -/
theorem writeFrameTo_clean_iff (h : maxFrame < data.length) :
    (writeFrameTo debugAssertions w data).Clean ↔ debugAssertions = false ∧ w.room = 0 := by
  constructor
  · intro hclean
    constructor
    · refine Bool.eq_false_of_not_eq_true (fun hdebug => ?_)
      rw [hdebug, writeFrameTo_panics h] at hclean
      obtain ⟨⟩ := hclean
    · exact Nat.eq_zero_of_not_pos (fun hroom => writeFrameTo_not_clean hroom hclean)
  · rintro ⟨rfl, hroom⟩
    exact writeFrameTo_of_room_eq_zero hroom

end Writing

/-! ## What is read -/

/-- **A reader is left in the payload** of a frame beyond the limit, and does not
return it. -/
theorem readFrame_oversized {data : List UInt8} (h : maxFrame < data.length)
    (rest : List UInt8) :
    (readFrame (frame data ++ rest)).1 ≠ .ok data
      ∧ ∃ j < data.length, (readFrame (frame data ++ rest)).2 = data.drop j ++ rest := by
  rw [frame, List.append_assoc, readFrame, readExact_append (length_lengthPrefix _)]
  simp only [prefixLength_lengthPrefix]
  split
  case isTrue hlimit =>
    refine ⟨fun hok => ?_, 0, Nat.zero_lt_of_lt h, rfl⟩
    obtain ⟨⟩ := hok
  case isFalse hlimit =>
    -- the length has wrapped around
    have hlt : data.length % 2 ^ 32 < data.length := (not_lt.mp hlimit).trans_lt h
    generalize data.length % 2 ^ 32 = len at hlt
    have hlen : ¬ (data ++ rest).length < len := by
      rw [List.length_append]
      omega
    unfold readExact
    rw [if_neg hlen]
    refine ⟨fun hok => ?_, len, hlt, List.drop_append_of_le_length hlt.le⟩
    have htake : (data ++ rest).take len = data := Except.ok.inj hok
    have hlength := congrArg List.length htake
    rw [List.length_take, List.length_append] at hlength
    omega

/-! ## Who writes them -/

/-- The callers that pass on what may be of any length. -/
inductive Caller where
  /-- `handshake_client` and `handshake_client_sync`. -/
  | hello (io : Io) (role : Role) (token : String)
  /-- `LeaseClient::acquire`. -/
  | acquire (holder : String) (ttlS : UInt32)
  /-- `TcpWireTx::send`. -/
  | send (message : List UInt8)

namespace Caller

/-- The writer it calls. -/
def io : Caller → Io
  | .hello io _ _ => io
  | .acquire _ _ => .blocking
  | .send _ => .tokio

/-- What it calls it with. -/
def payload : Caller → List UInt8
  | .hello _ role token => Hello.toPostcard ⟨netVersion, role, token⟩
  | .acquire holder ttlS => LeaseRequest.toPostcard (.acquire holder ttlS)
  | .send message => message

/-- A string is written after its length. -/
theorem length_utf8_lt (s : String) : (utf8 s).length < (string s).length := by
  rw [string, List.length_append]
  exact Nat.lt_add_of_pos_left (length_varint_pos (Nat.succ_pos 9))

/-- A token of a file that is long enough. -/
theorem oversized_of_token {token : String} (h : maxFrame ≤ (utf8 token).length) (io : Io)
    (role : Role) : maxFrame < (hello io role token).payload.length := by
  have hstring := h.trans_lt (length_utf8_lt token)
  show maxFrame < ([netVersion] ++ (role.toPostcard ++ string token)).length
  rw [List.length_append, List.length_append]
  omega

/-- A holder's name that is long enough, as `BANC_LEASE_HOLDER` has it. -/
theorem oversized_of_holder {env : Env} {holder : String}
    (henv : env.bancLeaseHolder = some (utf8 holder)) (h : maxFrame ≤ (utf8 holder).length)
    (ttlS : UInt32) : maxFrame < (acquire env.holderIdentity ttlS).payload.length := by
  have hholder : env.holderIdentity = holder := by
    rw [Env.holderIdentity, henv, envVar, Option.bind_some, fromUTF8?_utf8]
    rfl
  have hstring := h.trans_lt (length_utf8_lt holder)
  show maxFrame < (varint 5 0 ++ (string env.holderIdentity ++ u32 ttlS)).length
  rw [hholder, List.length_append, List.length_append]
  omega

end Caller

/-! ## No clean failure -/

/-- **A frame beyond the limit fails cleanly only where any frame would**, whichever
writer it is: on a stream that takes no byte, and without debug assertions. With debug
assertions it panics; without, it is written, and the only error is one of the stream.
A reader of either half that gets to it does not return it, and is left in the
payload. -/
theorem oversized_clean_iff {data : List UInt8} (h : maxFrame < data.length) (io : Io)
    (debugAssertions : Bool) (w : WriteHalf) :
    ((io.writeFrameTo debugAssertions w data).Clean ↔ debugAssertions = false ∧ w.room = 0)
      ∧ (debugAssertions = true → io.writeFrameTo debugAssertions w data = .panicked)
      ∧ (debugAssertions = false → (frame data).length ≤ w.room →
        io.writeFrameTo debugAssertions w data = .returned w.flushes (frame data))
      ∧ ∀ (reader : Io) (t : Stream) (rest : List UInt8), contents t = frame data ++ rest →
        (reader.readFrame t).1 ≠ .ok data
          ∧ ∃ j < data.length, contents (reader.readFrame t).2 = data.drop j ++ rest := by
  rw [io.writeFrameTo_eq]
  refine ⟨writeFrameTo_clean_iff h, fun hdebug => ?_, fun hdebug hfits => ?_,
    fun reader t rest ht => ?_⟩
  · rw [hdebug]
    exact writeFrameTo_panics h
  · rw [writeFrameTo_of_room hfits, hdebug]
    rfl
  · obtain ⟨hread, hrest⟩ := Prod.mk.inj (reader.readFrame_eq t)
    rw [hread, hrest, ht]
    exact readFrame_oversized h rest

/-- The name of a holder that fills a frame by itself. -/
def frameName : String := String.ofList (List.replicate maxFrame 'x')

theorem length_frameName : (utf8 frameName).length = maxFrame := by
  have htoList : frameName.toList = List.replicate maxFrame 'x' := String.toList_ofList
  rw [length_utf8_of_ascii, htoList, List.length_replicate]
  intro c hc
  rw [htoList] at hc
  rw [List.eq_of_mem_replicate hc]
  decide

/-- It is what `BANC_LEASE_HOLDER` is set to. -/
def frameEnv : Env := ⟨none, none, some (utf8 frameName), none, 1⟩

theorem oversized_frameEnv :
    maxFrame < (Caller.acquire frameEnv.holderIdentity 60).payload.length :=
  Caller.oversized_of_holder rfl length_frameName.ge 60

/-- A stream that takes all that is written to it here. -/
def wide : WriteHalf := ⟨2 ^ 20, true⟩

theorem wide_room : wide.room ≠ 0 := (Nat.two_pow_pos 20).ne'

theorem oversized_clean_iff_frameEnv :
    ¬ (Io.blocking.writeFrameTo true wide
        (Caller.acquire frameEnv.holderIdentity 60).payload).Clean
      ∧ ¬ (Io.blocking.writeFrameTo false wide
        (Caller.acquire frameEnv.holderIdentity 60).payload).Clean :=
  ⟨fun h => wide_room ((oversized_clean_iff oversized_frameEnv .blocking true wide).1.mp h).2,
    fun h => wide_room ((oversized_clean_iff oversized_frameEnv .blocking false wide).1.mp h).2⟩

/-- **A long name of a holder makes either build fail**, and not cleanly. -/
theorem longHolder_not_clean :
    ¬ ∀ (data : List UInt8), maxFrame < data.length → ∀ (io : Io) (debugAssertions : Bool)
      (w : WriteHalf), (io.writeFrameTo debugAssertions w data).Clean := by
  intro h
  have hclean := h _ oversized_frameEnv .blocking false wide
  rw [Io.writeFrameTo_eq] at hclean
  exact wide_room ((writeFrameTo_clean_iff oversized_frameEnv).mp hclean).2

end Banc
