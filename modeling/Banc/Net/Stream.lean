import Banc.Lib.Chunked
import Banc.Net.Frame

/-!
# Frames on a stream

`Banc.Net.Frame` says what a frame is and what a reader makes of the bytes that
have arrived. Here the readers are run: `read_frame` on a tokio stream and
`read_frame_sync` on a blocking one, each filling its buffers with the
`read_exact` of its own library, from a stream that comes in whatever pieces the
transport likes.

Neither sees the pieces (`Io.readFrame_eq`), so both make the same of the same
bytes, and a stream written by either half of `net` is read by either half of it
as the payloads that went in, in order (`frames_roundTrip`). Cut anywhere, it is
read as the payloads whose frames are complete, and then as an error.
-/

namespace Banc

open Chunked

/-- The two halves of every function in `net` that reads or writes. -/
inductive Io where
  /-- On a tokio stream. -/
  | tokio
  /-- On a blocking stream: the functions in `_sync`. -/
  | blocking
  deriving DecidableEq, Repr

namespace Io

/-- `read_exact` of tokio and of the standard library. -/
def readExact : Io → ℕ → Stream → Option (List UInt8) × Stream
  | .tokio, n, t => readExactTokio n [] t
  | .blocking, n, t => readExactStd n t

/-- `read_frame` and `read_frame_sync`: the outcome, and the stream left. -/
def readFrame (io : Io) (t : Stream) : Except FrameError (List UInt8) × Stream :=
  match io.readExact 4 t with
  | (none, t) => (.error .short, t)
  | (some len, t) =>
    if maxFrame < prefixLength len then (.error (.tooLong (prefixLength len)), t)
    else match io.readExact (prefixLength len) t with
      | (none, t) => (.error .short, t)
      | (some buf, t) => (.ok buf, t)

/-- `write_frame` and `write_frame_sync`: the same bytes. -/
def writeFrame : Io → Bool → List UInt8 → Option (List UInt8)
  | .tokio, debugAssertions, data => Banc.writeFrame debugAssertions data
  | .blocking, debugAssertions, data => Banc.writeFrame debugAssertions data

/-- Write one frame after the other: what is on the stream, `none` where a
`debug_assert!` panics. -/
def writeFrames (debugAssertions : Bool) : List (Io × List UInt8) → Option (List UInt8)
  | [] => some []
  | (io, data) :: msgs => do
    let bs ← io.writeFrame debugAssertions data
    let more ← writeFrames debugAssertions msgs
    return bs ++ more

/-- Read one frame after the other, whether or not the last could be read: the
outcomes. -/
def readFrames : List Io → Stream → List (Except FrameError (List UInt8))
  | [], _ => []
  | io :: ios, t => (io.readFrame t).1 :: readFrames ios (io.readFrame t).2

end Io

/-- The outcomes of `k` reads that find the payloads and then the end of the
stream. -/
def outcomes : ℕ → List (List UInt8) → List (Except FrameError (List UInt8))
  | 0, _ => []
  | k + 1, [] => .error .short :: outcomes k []
  | k + 1, p :: ps => .ok p :: outcomes k ps

/-- The payloads whose frames are complete when the stream is cut after `n`
bytes. -/
def completeBefore : ℕ → List (List UInt8) → List (List UInt8)
  | _, [] => []
  | n, p :: ps =>
    if (frame p).length ≤ n then p :: completeBefore (n - (frame p).length) ps else []

/-! ## One frame -/

/-- **Either `read_exact`** fails at the end of the stream, or returns what is
at its front. -/
theorem Io.readExact_cases (io : Io) (n : ℕ) (t : Stream) :
    ((contents t).length < n ∧ ∃ t', io.readExact n t = (none, t') ∧ contents t' = [])
      ∨ (¬ (contents t).length < n ∧ ∃ t', io.readExact n t = (some ((contents t).take n), t')
          ∧ contents t' = (contents t).drop n) := by
  have heq : (io.readExact n t).1 = exactly n (contents t)
      ∧ contents (io.readExact n t).2 = (contents t).drop n := by
    cases io with
    | tokio => exact readExactTokio_eq n t
    | blocking => exact readExactStd_eq n t
  obtain ⟨hread, hrest⟩ := heq
  by_cases hlt : (contents t).length < n
  · rw [exactly, if_pos hlt] at hread
    rw [List.drop_eq_nil_of_le hlt.le] at hrest
    exact .inl ⟨hlt, _, Prod.ext hread rfl, hrest⟩
  · rw [exactly, if_neg hlt] at hread
    exact .inr ⟨hlt, _, Prod.ext hread rfl, hrest⟩

/-- **Either reader makes of a stream what there is to make of its bytes**, and
leaves what there is to leave. -/
theorem Io.readFrame_eq (io : Io) (t : Stream) :
    ((io.readFrame t).1, contents (io.readFrame t).2) = Banc.readFrame (contents t) := by
  unfold Io.readFrame Banc.readFrame
  obtain ⟨hlt, t₁, hread, hrest⟩ | ⟨hlt, t₁, hread, hrest⟩ := io.readExact_cases 4 t
  · rw [hread, Banc.readExact, if_pos hlt]
    simp only [hrest]
  · rw [hread, Banc.readExact, if_neg hlt]
    simp only
    split
    · simp only [hrest]
    · generalize prefixLength ((contents t).take 4) = len
      rw [← hrest]
      obtain ⟨hlt, t₂, hread, hrest⟩ | ⟨hlt, t₂, hread, hrest⟩ := io.readExact_cases len t₁
      · rw [hread, Banc.readExact, if_pos hlt]
        simp only [hrest]
      · rw [hread, Banc.readExact, if_neg hlt]
        simp only [hrest]

/-- A frame at the front of a stream is read, and the stream left at the
next. -/
theorem Io.readFrame_frame (io : Io) {t : Stream} {data rest : List UInt8}
    (hdata : data.length ≤ maxFrame) (ht : contents t = frame data ++ rest) :
    ∃ t', io.readFrame t = (.ok data, t') ∧ contents t' = rest := by
  have heq := io.readFrame_eq t
  rw [ht, Banc.readFrame_frame hdata] at heq
  obtain ⟨hread, hrest⟩ := Prod.mk.inj heq
  exact ⟨_, Prod.ext hread rfl, hrest⟩

/-- A payload within the limit is written as its frame. -/
theorem Io.writeFrame_eq (io : Io) {debugAssertions : Bool} {data : List UInt8}
    (hdata : data.length ≤ maxFrame) :
    io.writeFrame debugAssertions data = some (frame data) := by
  have hfits : decide (maxFrame < data.length) = false :=
    decide_eq_false (not_lt.mpr hdata)
  cases io <;>
    rw [Io.writeFrame, Banc.writeFrame, hfits, Bool.and_false, if_neg Bool.false_ne_true]

/-! ## Many frames -/

/-- **What is written**: the frames one after the other, if none is too
long. -/
theorem Io.writeFrames_eq {debugAssertions : Bool} {msgs : List (Io × List UInt8)}
    (hmax : ∀ m ∈ msgs, m.2.length ≤ maxFrame) :
    Io.writeFrames debugAssertions msgs = some ((msgs.map Prod.snd).flatMap frame) := by
  induction msgs with
  | nil => rfl
  | cons m msgs ih =>
    obtain ⟨io, data⟩ := m
    obtain ⟨hdata, hmsgs⟩ := List.forall_mem_cons.mp hmax
    rw [Io.writeFrames, io.writeFrame_eq hdata, ih hmsgs]
    rfl

/-- **What is read of a stream that was cut**, whichever readers take turns. -/
theorem Io.readFrames_take {ps : List (List UInt8)} (hmax : ∀ p ∈ ps, p.length ≤ maxFrame)
    (ios : List Io) {t : Stream} {n : ℕ} (ht : contents t = (ps.flatMap frame).take n) :
    Io.readFrames ios t = outcomes ios.length (completeBefore n ps) := by
  induction ios generalizing t n ps with
  | nil => rfl
  | cons io ios ih =>
    have hread := io.readFrame_eq t
    -- one read gives its outcome and leaves a stream on which the others go on
    have hnext : ∀ {out qs m}, Banc.readFrame (contents t) = (out, (qs.flatMap frame).take m) →
        (∀ p ∈ qs, p.length ≤ maxFrame) →
        Io.readFrames (io :: ios) t = out :: outcomes ios.length (completeBefore m qs) := by
      intro out qs m hout hqs
      obtain ⟨hfst, hsnd⟩ := Prod.mk.inj (hread.trans hout)
      rw [Io.readFrames, hfst, ih hqs hsnd]
    cases ps with
    | nil =>
      rw [List.flatMap_nil, List.take_nil] at ht
      refine hnext (m := 0) ?_ (fun p hp => absurd hp List.not_mem_nil)
      rw [ht]
      rfl
    | cons p ps =>
      obtain ⟨hp, hps⟩ := List.forall_mem_cons.mp hmax
      rw [List.flatMap_cons] at ht
      rw [completeBefore]
      by_cases hle : (frame p).length ≤ n
      · rw [if_pos hle]
        refine hnext ?_ hps
        rw [ht, List.take_append, List.take_of_length_le hle]
        exact Banc.readFrame_frame hp _
      · rw [if_neg hle]
        rw [not_le] at hle
        refine @hnext _ [] 0 ?_ (fun q hq => absurd hq List.not_mem_nil)
        rw [ht, List.take_append_of_le_length hle.le]
        exact readFrame_take_of_lt hp hle

theorem completeBefore_of_le {ps : List (List UInt8)} {n : ℕ}
    (h : (ps.flatMap frame).length ≤ n) : completeBefore n ps = ps := by
  induction ps generalizing n with
  | nil => rfl
  | cons p ps ih =>
    rw [List.flatMap_cons, List.length_append] at h
    rw [completeBefore, if_pos (by omega), ih (by omega)]

/-- **Framing round-trips over whole streams.** Whatever payloads are written,
by whichever writers, and in whatever pieces the stream arrives: the readers,
whichever take turns, return the payloads in order and then the end of the
stream. If the stream is cut, they return the payloads whose frames are complete
and then the end of the stream, however often they are asked. -/
theorem frames_roundTrip (debugAssertions : Bool) (msgs : List (Io × List UInt8))
    (hmax : ∀ m ∈ msgs, m.2.length ≤ maxFrame) :
    ∃ sent, Io.writeFrames debugAssertions msgs = some sent
      ∧ (∀ (t : Stream) (ios : List Io), contents t = sent →
          Io.readFrames ios t = outcomes ios.length (msgs.map Prod.snd))
      ∧ ∀ (n : ℕ) (t : Stream) (ios : List Io), contents t = sent.take n →
          Io.readFrames ios t
            = outcomes ios.length (completeBefore n (msgs.map Prod.snd)) := by
  have hps : ∀ p ∈ msgs.map Prod.snd, p.length ≤ maxFrame := by
    intro p hp
    obtain ⟨m, hm, rfl⟩ := List.mem_map.mp hp
    exact hmax m hm
  refine ⟨_, Io.writeFrames_eq hmax, fun t ios ht => ?_, fun n t ios ht => ?_⟩
  · have hwhole := Io.readFrames_take hps ios (ht.trans (List.take_length).symm)
    rwa [completeBefore_of_le le_rfl] at hwhole
  · exact Io.readFrames_take hps ios ht

/-- Two frames, the second one empty, written by one half and the other, and cut
after the ninth byte; they arrive in pieces that end in the middle of the
prefix and of the payload. -/
theorem frames_roundTrip_cut :
    Io.readFrames [.blocking, .tokio, .blocking]
        [.bytes 2 [0], .again, .bytes 0 [0, 7], .bytes 8 [0, 0], .bytes 0 []]
      = [.ok [7, 8], .error .short, .error .short] := by
  obtain ⟨sent, hsent, -, hcut⟩ :=
    frames_roundTrip true [(.tokio, [7, 8]), (.blocking, [])] (by decide)
  obtain rfl : [2, 0, 0, 0, 7, 8, 0, 0, 0, 0] = sent := Option.some.inj hsent
  exact hcut 9 _ [.blocking, .tokio, .blocking] rfl

end Banc
