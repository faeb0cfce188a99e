import Banc.Lib.Chunked

/-!
# Sockets with timeouts

A blocking socket on which no read and no write takes longer than a timeout. What a call
finds, and after how long, is the peer's business: some bytes, as many as it likes;
nothing, because the call was interrupted, to be made again with the whole timeout before
it; or that it fails.

The loops of the standard library that fill a buffer and empty one make as many of these
calls as they have to. What bounds them is not the timeout but progress: a call gets a
byte further at least, or it is the last, or it was interrupted. `Line.due` is the measure
for that, the time and what the interruptions that are left may cost; `Within n` says that
a conversation raises it by no more than `n` timeouts, and what takes place one after the
other adds up (`Within.bind`).

With the time left out, the loop that fills a buffer is the one of `Chunked`
(`fill_heard`).
-/

namespace Sockets

open Chunked

/-- A call that blocks: for how long, and what comes of it. -/
structure Blocked (timeout : ℕ) (α : Type) where
  waited : ℕ
  le : waited ≤ timeout
  result : α

/-- What a read finds. -/
inductive Found where
  /-- At least one byte has arrived. -/
  | bytes (first : UInt8) (more : List UInt8)
  | interrupted
  /-- It has timed out, or the connection is broken. -/
  | failed
  deriving DecidableEq

/-- What a write achieves. -/
inductive Taken where
  /-- A byte is taken, and so many more if there are as many. -/
  | bytes (more : ℕ)
  | interrupted
  | failed
  deriving DecidableEq

/-- A socket: what its reads find one after the other, and then the end of the stream;
and what its writes achieve, until they fail. -/
structure Socket (timeout : ℕ) where
  reads : List (Blocked timeout Found)
  writes : List (Blocked timeout Taken)

variable {timeout : ℕ}

/-! ## The loops -/

/-- What did not fit the buffer is there for the next read, at once. -/
def unread : List UInt8 → List (Blocked timeout Found) → List (Blocked timeout Found)
  | [], t => t
  | b :: bs, t => ⟨0, Nat.zero_le _, .bytes b bs⟩ :: t

/-- `std::io::Read::read_exact`, with `n` bytes of the buffer left to fill: the bytes, the
reads that are left, and how long it has taken. -/
def fill : ℕ → List (Blocked timeout Found) →
    Option (List UInt8) × List (Blocked timeout Found) × ℕ
  | 0, t => (some [], t, 0)
  | _ + 1, [] => (none, [], 0)
  | n + 1, ⟨d, _, .interrupted⟩ :: t =>
    let r := fill (n + 1) t
    (r.1, r.2.1, d + r.2.2)
  | _ + 1, ⟨d, _, .failed⟩ :: t => (none, t, d)
  | n + 1, ⟨d, _, .bytes b bs⟩ :: t =>
    if bs.length ≤ n then
      let r := fill (n - bs.length) t
      (r.1.map (fun rest => b :: bs ++ rest), r.2.1, d + r.2.2)
    else (some ((b :: bs).take (n + 1)), unread ((b :: bs).drop (n + 1)) t, d)

/-- `std::io::Write::write_all`: whether all is written, the writes that are left, and how
long it has taken. -/
def drain : List UInt8 → List (Blocked timeout Taken) → Bool × List (Blocked timeout Taken) × ℕ
  | [], t => (true, t, 0)
  | _ :: _, [] => (false, [], 0)
  | b :: bs, ⟨d, _, .interrupted⟩ :: t =>
    let r := drain (b :: bs) t
    (r.1, r.2.1, d + r.2.2)
  | _ :: _, ⟨d, _, .failed⟩ :: t => (false, t, d)
  | _ :: bs, ⟨d, _, .bytes k⟩ :: t =>
    let r := drain (bs.drop k) t
    (r.1, r.2.1, d + r.2.2)

/-! ## Conversations -/

/-- A socket at a moment. -/
structure Line (timeout : ℕ) where
  now : ℕ
  socket : Socket timeout

/-- What is said on a line: an outcome, and the line that is left. -/
def Talk (timeout : ℕ) (E A : Type) := Line timeout → Except E A × Line timeout

namespace Talk

variable {E A B : Type}

instance : Monad (Talk timeout E) where
  pure a line := (.ok a, line)
  bind c f line :=
    match c line with
    | (.ok a, line) => f a line
    | (.error e, line) => (.error e, line)

/-- Say no more. -/
def fail (e : E) : Talk timeout E A := fun line => (.error e, line)

/-- Fill a buffer of `n` bytes, or fail. -/
def readExact (e : E) (n : ℕ) : Talk timeout E (List UInt8) := fun line =>
  let r := fill n line.socket.reads
  (r.1.elim (.error e) .ok, ⟨line.now + r.2.2, { line.socket with reads := r.2.1 }⟩)

/-- Write all of the bytes, or fail. -/
def writeAll (e : E) (bs : List UInt8) : Talk timeout E Unit := fun line =>
  let r := drain bs line.socket.writes
  (if r.1 then .ok () else .error e,
    ⟨line.now + r.2.2, { line.socket with writes := r.2.1 }⟩)

/-- A conversation goes on with what has been said. -/
theorem bind_of_ok {c : Talk timeout E A} {line line' : Line timeout} {a : A}
    (h : c line = (.ok a, line')) (f : A → Talk timeout E B) : (c >>= f) line = f a line' := by
  show (match c line with
    | (.ok a, line) => f a line
    | (.error e, line) => (.error e, line)) = _
  rw [h]

/-- And ends with the first error. -/
theorem bind_of_error {c : Talk timeout E A} {line line' : Line timeout} {e : E}
    (h : c line = (.error e, line')) (f : A → Talk timeout E B) :
    (c >>= f) line = (.error e, line') := by
  show (match c line with
    | (.ok a, line) => f a line
    | (.error e, line) => (.error e, line)) = _
  rw [h]

end Talk

/-! ## Interruptions -/

/-- Whether a read is interrupted. -/
def Found.isInterrupted (f : Found) : Bool := f == .interrupted

/-- Whether a write is. -/
def Taken.isInterrupted (t : Taken) : Bool := t == .interrupted

/-- The reads that are interrupted. -/
def interruptedReads (t : List (Blocked timeout Found)) : ℕ :=
  t.countP (fun r => r.result.isInterrupted)

/-- And the writes. -/
def interruptedWrites (t : List (Blocked timeout Taken)) : ℕ :=
  t.countP (fun w => w.result.isInterrupted)

/-- The interruptions that are left. -/
def Socket.interruptions (s : Socket timeout) : ℕ :=
  interruptedReads s.reads + interruptedWrites s.writes

/-- The time, and what the interruptions that are left may cost. -/
def Line.due (line : Line timeout) : ℕ := line.now + timeout * line.socket.interruptions

/-- The interruptions are counted one read after the other. -/
theorem interruptedReads_cons (r : Blocked timeout Found) (t : List (Blocked timeout Found)) :
    interruptedReads (r :: t) = interruptedReads t + if r.result.isInterrupted then 1 else 0 :=
  List.countP_cons

/-- And one write after the other. -/
theorem interruptedWrites_cons (w : Blocked timeout Taken) (t : List (Blocked timeout Taken)) :
    interruptedWrites (w :: t) = interruptedWrites t + if w.result.isInterrupted then 1 else 0 :=
  List.countP_cons

@[simp] theorem interruptedReads_unread (bs : List UInt8) (t : List (Blocked timeout Found)) :
    interruptedReads (unread bs t) = interruptedReads t := by
  cases bs with
  | nil => rfl
  | cons b bs => exact interruptedReads_cons _ t

/-- **Filling a buffer of `n` bytes takes at most `n` timeouts**, and one more for each
time it is interrupted. -/
theorem fill_within (n : ℕ) (t : List (Blocked timeout Found)) :
    interruptedReads (fill n t).2.1 ≤ interruptedReads t
      ∧ (fill n t).2.2 + timeout * interruptedReads (fill n t).2.1
        ≤ timeout * n + timeout * interruptedReads t := by
  fun_induction fill n t with
  | case1 t => exact ⟨le_rfl, Nat.le_refl _⟩
  | case2 n => exact ⟨le_rfl, Nat.add_le_add_right (Nat.zero_le _) _⟩
  | case3 n d hd t r ih =>
    have hcount : interruptedReads (⟨d, hd, .interrupted⟩ :: t) = interruptedReads t + 1 :=
      interruptedReads_cons _ t
    obtain ⟨hfewer, hdue⟩ := ih
    rw [hcount, Nat.mul_succ timeout (interruptedReads t)]
    refine ⟨hfewer.trans (Nat.le_succ _), ?_⟩
    show d + r.2.2 + timeout * interruptedReads r.2.1
      ≤ timeout * (n + 1) + (timeout * interruptedReads t + timeout)
    change r.2.2 + timeout * interruptedReads r.2.1 ≤ _ at hdue
    omega
  | case4 n d hd t =>
    have hcount : interruptedReads (⟨d, hd, .failed⟩ :: t) = interruptedReads t :=
      interruptedReads_cons _ t
    rw [hcount, Nat.mul_succ]
    refine ⟨le_rfl, ?_⟩
    show d + timeout * interruptedReads t ≤ _
    omega
  | case5 n d hd b bs t hle r ih =>
    have hcount : interruptedReads (⟨d, hd, .bytes b bs⟩ :: t) = interruptedReads t :=
      interruptedReads_cons _ t
    have hmono : timeout * (n - bs.length) ≤ timeout * n :=
      Nat.mul_le_mul_left timeout (Nat.sub_le _ _)
    obtain ⟨hfewer, hdue⟩ := ih
    rw [hcount, Nat.mul_succ]
    refine ⟨hfewer, ?_⟩
    show d + r.2.2 + timeout * interruptedReads r.2.1 ≤ _
    change r.2.2 + timeout * interruptedReads r.2.1 ≤ _ at hdue
    omega
  | case6 n d hd b bs t hgt =>
    have hcount : interruptedReads (⟨d, hd, .bytes b bs⟩ :: t) = interruptedReads t :=
      interruptedReads_cons _ t
    rw [hcount]
    show interruptedReads (unread _ t) ≤ _ ∧ d + timeout * interruptedReads (unread _ t) ≤ _
    rw [interruptedReads_unread, Nat.mul_succ]
    exact ⟨le_rfl, by omega⟩

/-- What a peer makes of bytes that gives them out one by one, each after a while. -/
def trickle (waited : ℕ) (h : waited ≤ timeout) (bs : List UInt8) : List (Blocked timeout Found) :=
  bs.map fun b => ⟨waited, h, .bytes b []⟩

/-- It may take as long. -/
theorem fill_trickle {waited : ℕ} (h : waited ≤ timeout) (bs : List UInt8)
    (t : List (Blocked timeout Found)) :
    fill bs.length (trickle waited h bs ++ t) = (some bs, t, waited * bs.length) := by
  induction bs with
  | nil =>
    show fill 0 t = _
    rw [fill]
    rfl
  | cons b bs ih =>
    have hfits : ([] : List UInt8).length ≤ bs.length := Nat.zero_le _
    show fill (bs.length + 1) (⟨waited, h, .bytes b []⟩ :: (trickle waited h bs ++ t)) = _
    rw [fill, if_pos hfits, List.length_nil, Nat.sub_zero, ih, List.length_cons, Nat.mul_succ,
      Nat.add_comm (waited * bs.length)]
    rfl

/-- **Writing `n` bytes takes at most `n` timeouts**, and one more for each time it is
interrupted. -/
theorem drain_within (bs : List UInt8) (t : List (Blocked timeout Taken)) :
    interruptedWrites (drain bs t).2.1 ≤ interruptedWrites t
      ∧ (drain bs t).2.2 + timeout * interruptedWrites (drain bs t).2.1
        ≤ timeout * bs.length + timeout * interruptedWrites t := by
  fun_induction drain bs t with
  | case1 t => exact ⟨le_rfl, Nat.le_refl _⟩
  | case2 b bs => exact ⟨le_rfl, Nat.add_le_add_right (Nat.zero_le _) _⟩
  | case3 b bs d hd t r ih =>
    have hcount : interruptedWrites (⟨d, hd, .interrupted⟩ :: t) = interruptedWrites t + 1 :=
      interruptedWrites_cons _ t
    obtain ⟨hfewer, hdue⟩ := ih
    rw [hcount, Nat.mul_succ timeout (interruptedWrites t)]
    refine ⟨hfewer.trans (Nat.le_succ _), ?_⟩
    show d + r.2.2 + timeout * interruptedWrites r.2.1 ≤ _
    change r.2.2 + timeout * interruptedWrites r.2.1 ≤ _ at hdue
    omega
  | case4 b bs d hd t =>
    have hcount : interruptedWrites (⟨d, hd, .failed⟩ :: t) = interruptedWrites t :=
      interruptedWrites_cons _ t
    rw [hcount, List.length_cons, Nat.mul_succ]
    refine ⟨le_rfl, ?_⟩
    show d + timeout * interruptedWrites t ≤ _
    omega
  | case5 b bs d hd k t r ih =>
    have hcount : interruptedWrites (⟨d, hd, .bytes k⟩ :: t) = interruptedWrites t :=
      interruptedWrites_cons _ t
    have hmono : timeout * (bs.drop k).length ≤ timeout * bs.length := by
      rw [List.length_drop]
      exact Nat.mul_le_mul_left timeout (Nat.sub_le _ _)
    obtain ⟨hfewer, hdue⟩ := ih
    rw [hcount, List.length_cons, Nat.mul_succ]
    refine ⟨hfewer, ?_⟩
    show d + r.2.2 + timeout * interruptedWrites r.2.1 ≤ _
    change r.2.2 + timeout * interruptedWrites r.2.1 ≤ _ at hdue
    omega

/-! ## How long a conversation takes -/

/-- **A conversation takes at most `n` timeouts**, and one more for each time it is
interrupted, however it ends. -/
structure Within {E A : Type} (n : ℕ) (c : Talk timeout E A) : Prop where
  forward : ∀ line, line.now ≤ (c line).2.now
  interruptions : ∀ line, (c line).2.socket.interruptions ≤ line.socket.interruptions
  due : ∀ line, (c line).2.due ≤ line.due + timeout * n

namespace Within

variable {E A B : Type} {m n : ℕ}

/-- What is done in fewer is done in more. -/
theorem of_le {c : Talk timeout E A} (h : Within m c) (hmn : m ≤ n) : Within n c :=
  ⟨h.forward, h.interruptions, fun line =>
    (h.due line).trans (Nat.add_le_add_left (Nat.mul_le_mul_left timeout hmn) _)⟩

/-- To say nothing takes nothing. -/
theorem pure (a : A) : Within n (Pure.pure a : Talk timeout E A) :=
  ⟨fun _ => le_rfl, fun _ => le_rfl, fun _ => Nat.le_add_right _ _⟩

/-- Nor does to give up. -/
theorem fail (e : E) : Within n (Talk.fail e : Talk timeout E A) :=
  ⟨fun _ => le_rfl, fun _ => le_rfl, fun _ => Nat.le_add_right _ _⟩

/-- **What takes place one after the other adds up.** -/
theorem bind {c : Talk timeout E A} {f : A → Talk timeout E B} (hc : Within m c)
    (hf : ∀ a, Within n (f a)) : Within (m + n) (c >>= f) := by
  have hboth : ∀ line, line.now ≤ ((c >>= f) line).2.now
      ∧ ((c >>= f) line).2.socket.interruptions ≤ line.socket.interruptions
      ∧ ((c >>= f) line).2.due ≤ line.due + timeout * (m + n) := by
    intro line
    have hforward := hc.forward line
    have hfewer := hc.interruptions line
    have hdue := hc.due line
    rw [Nat.mul_add]
    rcases hline : c line with ⟨a | a, line'⟩
    · rw [hline] at hforward hfewer hdue
      rw [Talk.bind_of_error hline]
      exact ⟨hforward, hfewer, hdue.trans (Nat.add_le_add_left (Nat.le_add_right _ _) _)⟩
    · rw [hline] at hforward hfewer hdue
      rw [Talk.bind_of_ok hline]
      refine ⟨hforward.trans ((hf a).forward line'),
        ((hf a).interruptions line').trans hfewer, ?_⟩
      rw [← Nat.add_assoc]
      exact ((hf a).due line').trans (Nat.add_le_add_right hdue _)
  exact ⟨fun line => (hboth line).1, fun line => (hboth line).2.1, fun line => (hboth line).2.2⟩

/-- What comes after a conversation only adds to it. -/
theorem now_le_bind (c : Talk timeout E A) {f : A → Talk timeout E B} (hf : ∀ a, Within n (f a))
    (line : Line timeout) : (c line).2.now ≤ ((c >>= f) line).2.now := by
  rcases hline : c line with ⟨a | a, line'⟩
  · rw [Talk.bind_of_error hline]
  · rw [Talk.bind_of_ok hline]
    exact (hf a).forward line'

/-- So many bytes take so many reads at the most, and each lasts as long as it may. -/
theorem readExact (e : E) (n : ℕ) : Within n (Talk.readExact e n : Talk timeout E _) := by
  refine ⟨fun line => Nat.le_add_right _ _, fun line => ?_, fun line => ?_⟩
  · exact Nat.add_le_add_right (fill_within n line.socket.reads).1 _
  · have h := (fill_within n line.socket.reads).2
    show line.now + (fill n line.socket.reads).2.2
        + timeout * (interruptedReads (fill n line.socket.reads).2.1
          + interruptedWrites line.socket.writes)
      ≤ line.now + timeout * (interruptedReads line.socket.reads
          + interruptedWrites line.socket.writes) + timeout * n
    rw [Nat.mul_add, Nat.mul_add]
    omega

/-- And so many writes. -/
theorem writeAll (e : E) (bs : List UInt8) :
    Within bs.length (Talk.writeAll e bs : Talk timeout E Unit) := by
  refine ⟨fun line => Nat.le_add_right _ _, fun line => ?_, fun line => ?_⟩
  · exact Nat.add_le_add_left (drain_within bs line.socket.writes).1 _
  · have h := (drain_within bs line.socket.writes).2
    show line.now + (drain bs line.socket.writes).2.2
        + timeout * (interruptedReads line.socket.reads
          + interruptedWrites (drain bs line.socket.writes).2.1)
      ≤ line.now + timeout * (interruptedReads line.socket.reads
          + interruptedWrites line.socket.writes) + timeout * bs.length
    rw [Nat.mul_add, Nat.mul_add]
    omega

end Within

/-! ## Silence -/

namespace Talk

variable {E : Type} {e : E} {line : Line timeout}

end Talk

/-! ## Without the time -/

/-- What is heard of the peer before a read fails. -/
def heard : List (Blocked timeout Found) → Stream
  | [] => []
  | ⟨_, _, .bytes b bs⟩ :: t => .bytes b bs :: heard t
  | ⟨_, _, .interrupted⟩ :: t => .again :: heard t
  | ⟨_, _, .failed⟩ :: _ => []

/-- What is put back is heard again. -/
theorem heard_unread (bs : List UInt8) (t : List (Blocked timeout Found)) :
    heard (unread bs t) = putBack bs (heard t) := by
  cases bs with
  | nil => rfl
  | cons b bs => rfl

/-- **The loop is the one of the standard library**: it reads the same, and leaves the
same if it succeeds. -/
theorem fill_heard (n : ℕ) (t : List (Blocked timeout Found)) :
    (fill n t).1 = (readExactStd n (heard t)).1
      ∧ ((fill n t).1 ≠ none → heard (fill n t).2.1 = (readExactStd n (heard t)).2) := by
  fun_induction fill n t with
  | case1 t =>
    rw [readExactStd]
    exact ⟨rfl, fun _ => rfl⟩
  | case2 n => exact ⟨rfl, fun h => absurd rfl h⟩
  | case3 n d hd t r ih =>
    rw [heard, readExactStd]
    exact ih
  | case4 n d hd t => exact ⟨rfl, fun h => absurd rfl h⟩
  | case5 n d hd b bs t hle r ih =>
    rw [heard, readExactStd, if_pos hle]
    obtain ⟨hread, hrest⟩ := ih
    refine ⟨congrArg (Option.map _) hread, fun h => hrest fun hnone => h ?_⟩
    show Option.map _ r.1 = none
    rw [show r.1 = none from hnone]
    rfl
  | case6 n d hd b bs t hgt =>
    rw [heard, readExactStd, if_neg hgt]
    exact ⟨rfl, fun _ => heard_unread _ t⟩

/-- Bytes are read of a line as of what is heard on it. -/
theorem readExact_heard {E : Type} (e : E) (n : ℕ) (line : Line timeout) :
    (Talk.readExact e n line).1 = (readExactStd n (heard line.socket.reads)).1.elim (.error e) .ok
      ∧ ∀ bs, (Talk.readExact e n line).1 = .ok bs → heard (Talk.readExact e n line).2.socket.reads
        = (readExactStd n (heard line.socket.reads)).2 := by
  obtain ⟨hread, hrest⟩ := fill_heard n line.socket.reads
  refine ⟨congrArg (fun r : Option (List UInt8) => r.elim (Except.error e) Except.ok) hread,
    fun bs hbs => hrest fun hnone => ?_⟩
  change (fill n line.socket.reads).1.elim (Except.error e) Except.ok = .ok bs at hbs
  rw [hnone] at hbs
  exact absurd hbs nofun

end Sockets
