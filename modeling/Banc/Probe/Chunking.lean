import Banc.Lib.Lines
import Banc.Probe.Rtt

/-!
# Lines do not depend on how they were read

The reads of a capture, one poll after the other. Each read is appended to what is
pending, and what it completes is handed to the sink; `Assembly` keeps the bytes of
what was handed over, which the sink gets as text (`pollReads_eq`).

Where no line is too long, the cap is never reached, and the drain loop is splitting
at newlines (`drainLines_eq`). That a part of the stream is appended does not change
how the rest of it splits (`Lines.ended_append`), which is all there is to it: the
lines are those of the stream, whatever the reads were (`assembly_of_short`).
-/

namespace Banc

namespace Probe

open Lines

/-- `b'\n'`. -/
def newline : UInt8 := 0x0A

/-- What has been handed to the sink, as bytes, and what is pending. -/
structure Assembly where
  handed : List (List UInt8)
  pending : List UInt8
  deriving DecidableEq

namespace Assembly

/-- Nothing has been read. -/
def start : Assembly := ⟨[], []⟩

/-- A read returns some bytes. -/
def read (a : Assembly) (bs : List UInt8) : Assembly :=
  let r := drainLines (a.pending ++ bs)
  if maxLine < r.2.length then ⟨a.handed ++ r.1 ++ [r.2], []⟩ else ⟨a.handed ++ r.1, r.2⟩

/-- One read after the other. -/
def reads (a : Assembly) (rs : List (List UInt8)) : Assembly := rs.foldl read a

end Assembly

/-- One poll after the other, each of which reads some bytes: what is pending after
the last, and the lines handed to the sink. -/
def pollReads : List UInt8 → List String → List (List UInt8) →
    Except String (List UInt8 × List String)
  | pending, lines, [] => .ok (pending, lines)
  | pending, lines, bs :: rs => do
    let (pending, more) ← pollRtt pending (.bytes bs)
    pollReads pending (lines ++ more) rs

/-! ## The loop is splitting -/

/-- **The drain loop** takes the pieces that a newline ends, and leaves what follows
the last one. -/
theorem drainLines_eq (bs : List UInt8) :
    drainLines bs = ((ended newline bs).map (· ++ [newline]), rest newline bs) := by
  induction bs with
  | nil => rw [ended_nil, rest_nil]; rfl
  | cons b bs ih =>
    rw [drainLines, ih]
    dsimp only
    by_cases hb : b = newline
    · subst hb
      obtain ⟨hended, hrest⟩ := split_cons_self newline bs
      rw [hended, hrest]
      exact if_pos rfl
    · rw [if_neg (show ¬b = 0x0A from hb)]
      obtain ⟨hnil, hended, hrest⟩ | ⟨p, ps, hcons, hended, hrest⟩ :=
        split_cons_of_ne newline hb bs
      · rw [hnil, hended, hrest]
        rfl
      · rw [hcons, hended, hrest]
        rfl

theorem newline_notMem_drainLines (bs : List UInt8) : newline ∉ (drainLines bs).2 := by
  rw [drainLines_eq]
  exact notMem_rest newline bs

/-! ## The newline is not part of the text -/

theorem secondByte_newline (lead : UInt8) : secondByte lead newline = false := by
  have h80 : ((0x80 : UInt8) ≤ newline) = False := by decide
  have h90 : ((0x90 : UInt8) ≤ newline) = False := by decide
  have hA0 : ((0xA0 : UInt8) ≤ newline) = False := by decide
  unfold secondByte
  simp only [h80, h90, hA0, decide_false, Bool.false_and, ite_self]

/-- **A newline is decoded on its own**, also where the bytes before it are not
complete. -/
theorem fromUtf8Lossy_append_newline (bs : List UInt8) :
    fromUtf8Lossy (bs ++ [newline]) = fromUtf8Lossy bs ++ ['\n'] := by
  have hsecond := secondByte_newline
  have hcontinuation : continuation newline = false := by decide
  have hnewline : fromUtf8Lossy [newline] = ['\n'] := by decide
  fun_induction fromUtf8Lossy bs with
  | case1 => exact hnewline
  | case2 | case3 | case4 | case5 | case6 | case7 | case8 | case9 | case10 | case11 =>
    simp only [List.cons_append, List.nil_append] at *
    rw [fromUtf8Lossy.eq_def]
    simp only [*, if_true, if_false, Bool.false_eq_true]

/-- A line has the same text with its newline and without. -/
theorem lineText_append_newline (bs : List UInt8) :
    lineText (bs ++ [newline]) = lineText bs := by
  unfold lineText trimEnd
  rw [fromUtf8Lossy_append_newline, List.rdropWhile_concat_pos isWhitespace _ '\n' (by decide)]

theorem map_lineText_ended (lines : List (List UInt8)) :
    (lines.map (· ++ [newline])).map lineText = lines.map lineText := by
  rw [List.map_map]
  exact List.map_congr_left (fun line _ => lineText_append_newline line)

/-! ## What every read preserves -/

/-- What holds of an assembly of these bytes. -/
structure Assembly.Of (stream : List UInt8) (a : Assembly) : Prop where
  whole : a.handed.flatten ++ a.pending = stream
  open_line : newline ∉ a.pending
  capped : a.pending.length ≤ maxLine

namespace Assembly

theorem of_start : Assembly.Of [] start := ⟨rfl, List.not_mem_nil, Nat.zero_le _⟩

/-- **One read**: what it returned is handed over or pending, and nothing else is. -/
theorem Of.read {stream : List UInt8} {a : Assembly} (h : Assembly.Of stream a)
    (bs : List UInt8) : Assembly.Of (stream ++ bs) (a.read bs) := by
  have hdrained := drainLines_flatten (a.pending ++ bs)
  have hopen := newline_notMem_drainLines (a.pending ++ bs)
  unfold Assembly.read
  generalize drainLines (a.pending ++ bs) = r at hdrained hopen
  have hwhole : a.handed.flatten ++ (r.1.flatten ++ r.2) = stream ++ bs := by
    rw [hdrained, ← List.append_assoc, h.whole]
  by_cases hlong : maxLine < r.2.length
  · -- the line under way goes to the sink as it is
    refine if_pos hlong ▸ ⟨?_, List.not_mem_nil, Nat.zero_le _⟩
    rw [← hwhole]
    simp only [List.flatten_append, List.flatten_singleton, List.append_assoc, List.append_nil]
  · refine if_neg hlong ▸ ⟨?_, hopen, not_lt.mp hlong⟩
    rw [← hwhole]
    simp only [List.flatten_append, List.append_assoc]

theorem Of.reads {stream : List UInt8} {a : Assembly} (h : Assembly.Of stream a)
    (rs : List (List UInt8)) : Assembly.Of (stream ++ rs.flatten) (a.reads rs) := by
  induction rs generalizing a stream with
  | nil => simpa [Assembly.reads] using h
  | cons bs rs ih =>
    rw [List.flatten_cons, ← List.append_assoc]
    exact ih (h.read bs)

end Assembly

/-- A poll that reads nothing leaves everything as it is. -/
theorem Assembly.Of.read_nil {stream : List UInt8} {a : Assembly} (h : Assembly.Of stream a) :
    a.read [] = a := by
  have hdrained : drainLines (a.pending ++ []) = ([], a.pending) := by
    rw [List.append_nil, drainLines_eq, ended_of_notMem newline h.open_line,
      rest_of_notMem newline h.open_line]
    rfl
  unfold Assembly.read
  rw [hdrained]
  dsimp only
  rw [if_neg (not_lt.mpr h.capped), List.append_nil]

/-- What `poll_rtt` makes of a read. -/
theorem Assembly.Of.pollRtt {stream : List UInt8} {a : Assembly} (h : Assembly.Of stream a)
    (bs : List UInt8) :
    ∃ more, pollRtt a.pending (.bytes bs) = .ok ((a.read bs).pending, more)
      ∧ (a.read bs).handed.map lineText = a.handed.map lineText ++ more := by
  unfold Probe.pollRtt
  dsimp only
  by_cases hbs : bs = []
  · subst hbs
    rw [h.read_nil]
    exact ⟨[], rfl, (List.append_nil _).symm⟩
  · rw [if_neg (fun hlength => hbs (List.eq_nil_of_length_eq_zero hlength))]
    unfold Assembly.read
    dsimp only
    split
    · exact ⟨_, rfl, by rw [List.append_assoc, List.map_append]⟩
    · exact ⟨_, rfl, List.map_append⟩

/-- **The polls hand over what is assembled**, as text. -/
theorem Assembly.Of.pollReads {stream : List UInt8} {a : Assembly} (h : Assembly.Of stream a)
    (rs : List (List UInt8)) :
    pollReads a.pending (a.handed.map lineText) rs
      = .ok ((a.reads rs).pending, (a.reads rs).handed.map lineText) := by
  induction rs generalizing a stream with
  | nil => rfl
  | cons bs rs ih =>
    obtain ⟨more, hpoll, hmore⟩ := h.pollRtt bs
    unfold Probe.pollReads
    rw [hpoll]
    show Probe.pollReads (a.read bs).pending (a.handed.map lineText ++ more) rs = _
    rw [← hmore]
    exact ih (h.read bs)

/-! ## Where no line is too long -/

/-- What is assembled of a stream if the cap is never reached. -/
def Assembly.ofStream (stream : List UInt8) : Assembly :=
  ⟨(ended newline stream).map (· ++ [newline]), rest newline stream⟩

/-- Every run without a newline is within the cap. -/
def Short (stream : List UInt8) : Prop :=
  ∀ run, run <:+: stream → newline ∉ run → run.length ≤ maxLine

/-- A beginning of the stream has no longer runs. -/
theorem Short.of_append {s t : List UInt8} (h : Short (s ++ t)) : Short s :=
  fun run hrun => h run (hrun.trans (List.infix_append' [] s t))

theorem Short.rest_le {s : List UInt8} (h : Short s) : (rest newline s).length ≤ maxLine :=
  h _ (rest_suffix newline s).isInfix (notMem_rest newline s)

/-- **One read more.** -/
theorem Assembly.ofStream_read {s bs : List UInt8} (h : Short (s ++ bs)) :
    (ofStream s).read bs = ofStream (s ++ bs) := by
  have hrest : (rest newline (rest newline s ++ bs)).length ≤ maxLine := by
    rw [← rest_append]
    exact h.rest_le
  have hdrained : drainLines ((ofStream s).pending ++ bs)
      = ((ended newline (rest newline s ++ bs)).map (· ++ [newline]),
        rest newline (rest newline s ++ bs)) := drainLines_eq _
  unfold Assembly.read
  rw [hdrained]
  dsimp only
  rw [if_neg (not_lt.mpr hrest)]
  unfold ofStream
  rw [ended_append newline s bs, rest_append newline s bs, List.map_append]

/-- **However the stream was cut into reads, its lines are what is assembled.** -/
theorem Assembly.ofStream_reads {s : List UInt8} {rs : List (List UInt8)}
    (h : Short (s ++ rs.flatten)) : (ofStream s).reads rs = ofStream (s ++ rs.flatten) := by
  induction rs generalizing s with
  | nil => rw [List.flatten_nil, List.append_nil]; rfl
  | cons bs rs ih =>
    rw [List.flatten_cons, ← List.append_assoc] at h ⊢
    show ((ofStream s).read bs).reads rs = _
    rw [ofStream_read h.of_append]
    exact ih h

/-- What is assembled of some reads. -/
def assembled (rs : List (List UInt8)) : Assembly := Assembly.start.reads rs

/-- **Lines do not depend on the reads.** After any reads, what was handed to the
sink and what is pending are the bytes that were read; the line under way has no
newline in it, and stays within the cap. If no line of the stream is longer than
that, the sink has been handed the text of each piece of the stream that a newline
ends, in order – whatever the reads. -/
theorem pollReads_spec (rs : List (List UInt8)) :
    pollReads [] [] rs
        = .ok ((assembled rs).pending, (assembled rs).handed.map lineText)
      ∧ (assembled rs).handed.flatten ++ (assembled rs).pending = rs.flatten
      ∧ newline ∉ (assembled rs).pending
      ∧ (assembled rs).pending.length ≤ maxLine
      ∧ (Short rs.flatten →
          (assembled rs).handed.map lineText
            = ((rs.flatten.splitOn newline).dropLast).map lineText) := by
  have hof := Assembly.of_start.reads rs
  rw [List.nil_append] at hof
  refine ⟨Assembly.of_start.pollReads rs, hof.whole, hof.open_line, hof.capped, fun hshort => ?_⟩
  have hstart : Assembly.start = .ofStream [] := by
    unfold Assembly.start Assembly.ofStream
    rw [ended_nil, rest_nil]
    rfl
  unfold assembled
  rw [hstart, Assembly.ofStream_reads hshort, List.nil_append]
  exact map_lineText_ended _

/-- A line read in three pieces, the last of which has the beginning of the next. -/
theorem pollReads_three :
    pollReads [] [] [[0x61], [0x62, 0x0D], [0x0A, 0x63]] = .ok ([0x63], ["ab"])
      ∧ (assembled [[0x61], [0x62, 0x0D], [0x0A, 0x63]]).handed.map lineText = ["ab"] := by
  obtain ⟨hpolls, -, -, -, hlines⟩ := pollReads_spec [[0x61], [0x62, 0x0D], [0x0A, 0x63]]
  have hlines := hlines (fun run hrun _ => hrun.length_le.trans (by decide))
  rw [hlines] at hpolls
  exact ⟨hpolls, hlines⟩

end Probe

end Banc
