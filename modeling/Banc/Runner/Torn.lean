import Banc.Lib.Transition
import Banc.Runner.RecordText

/-!
# Torn lines

`results.jsonl` as any number of processes append to it at once. `append` opens the
file, which creates it, and `write_all` writes the line with its newline in as many
writes as it takes; each puts its bytes at the end of the file, wherever that is by
then, and nothing says that there is another. A call that completes has written
everything; one that does not has written a beginning.

The newline ends the record. It does not set it apart from what stands before it, and
that may be a beginning of a record which nobody will end. So the next line to be
completed after a torn one is lost with it (`torn_line_takes_next`), although its own
call has completed. What saves a line is that it stands alone after the last newline
(`OnItsOwn`): where every call that completes finds it so, every record that was
appended in full is a line of the file, and they are in order (`recovered_of_onItsOwn`).
-/

namespace Banc

open Fs Postcard Lines

/-- A call of `append` that has opened the file. -/
structure Appending where
  record : TestRecord
  written : List UInt8
  left : List UInt8
  deriving DecidableEq

/-- The file system, with the calls that are under way. -/
structure Appends where
  disk : Disk
  calls : ℕ → Option Appending
  /-- The number of the next call. -/
  next : ℕ
  /-- The records of the calls that have completed, in the order in which they
  were. -/
  completed : List TestRecord

/-- What may happen. -/
inductive AppendAction where
  /-- A process calls `append`; its file system answers. -/
  | call (host : HostFs) (record : TestRecord)
  /-- A call writes some bytes. -/
  | write (call : ℕ) (n : ℕ)
  /-- A call ends, with an error, or because its process does. -/
  | stop (call : ℕ)

namespace Appends

/-- Nothing is under way. -/
def idle (disk : Disk) : Appends := ⟨disk, fun _ => none, 0, []⟩

variable (serde : SerdeJson) (dir : Path)

/-- What a call does before it writes. Opening the file creates it. -/
def opened (s : Appends) (host : HostFs) (record : TestRecord) : Appends :=
  match serde.toString record with
  | none => s
  | some line =>
    match host.createDirAll dir with
    | .error _ => s
    | .ok () =>
      match host.openFile (resultsPath dir) with
      | .error _ => s
      | .ok () =>
        { s with
          disk := s.disk.append (resultsPath dir) []
          calls := Function.update s.calls s.next (some ⟨record, [], utf8 (line ++ "\n")⟩)
          next := s.next + 1 }

/-- One write. The call is over when nothing is left. -/
def wrote (s : Appends) (i : ℕ) (w : Appending) (n : ℕ) : Appends :=
  { s with
    disk := s.disk.append (resultsPath dir) (w.left.take n)
    calls := Function.update s.calls i
      (if w.left.length ≤ n then none
        else some { w with written := w.written ++ w.left.take n, left := w.left.drop n })
    completed := if w.left.length ≤ n then s.completed ++ [w.record] else s.completed }

/-- The step function. -/
def step (s : Appends) : AppendAction → Option Appends
  | .call host record => some (s.opened serde dir host record)
  | .write i n =>
    match s.calls i with
    | some w => if 0 < n ∧ n ≤ w.left.length then some (s.wrote dir i w n) else none
    | none => none
  | .stop i =>
    match s.calls i with
    | some _ => some { s with calls := Function.update s.calls i none }
    | none => none

/-- `results.jsonl`. -/
def file (s : Appends) : List UInt8 := s.disk.read (resultsPath dir)

end Appends

/-- **Every record appended in full is a line**: split at its newlines, the file has
lines that read back as them, in the order in which they were appended. -/
def Recovered (dir : Path) (fromStr : List UInt8 → Option TestRecord) (s : Appends) : Prop :=
  (s.completed.map some).Sublist (((s.file dir).splitOn lineFeed).map fromStr)

/-- **The condition**: where a write completes a line, what the call has written so far is
all there is after the last newline. -/
def OnItsOwn (dir : Path) (s : Appends) (a : AppendAction) : Prop :=
  match a with
  | .write i n => ∀ w, s.calls i = some w → w.left.length ≤ n →
      rest lineFeed (s.file dir) = w.written
  | _ => True

section Invariant

variable {serde : SerdeJson} {dir : Path} {fromStr : List UInt8 → Option TestRecord}
  {s s' : Appends}

/-- **The invariant**: the lines that are complete have the records in them, and every
call under way has a beginning of its line written and the end of it left. -/
structure Lined (serde : SerdeJson) (dir : Path) (fromStr : List UInt8 → Option TestRecord)
    (s : Appends) : Prop where
  lines : (s.completed.map some).Sublist ((ended lineFeed (s.file dir)).map fromStr)
  calls : ∀ i w, s.calls i = some w → w.left ≠ []
    ∧ ∃ line, serde.toString w.record = some line
      ∧ w.written ++ w.left = utf8 line ++ [lineFeed]

theorem Lined.recovered (h : Lined serde dir fromStr s) : Recovered dir fromStr s := by
  unfold Recovered
  rw [← ended_append_rest, List.map_append]
  exact h.lines.trans (List.sublist_append_left _ _)

theorem lined_idle (disk : Disk) : Lined serde dir fromStr (.idle disk) where
  lines := List.nil_sublist _
  calls _ w hw := absurd hw.symm (Option.some_ne_none w)

/-- A call that opens the file leaves its lines as they are. -/
theorem Lined.opened (h : Lined serde dir fromStr s) (host : HostFs) (record : TestRecord) :
    Lined serde dir fromStr (s.opened serde dir host record) := by
  unfold Appends.opened
  split
  case h_1 => exact h
  case h_2 line hline =>
    split
    case h_1 => exact h
    case h_2 =>
      split
      case h_1 => exact h
      case h_2 =>
        refine ⟨?_, fun i w hw => ?_⟩
        · unfold Appends.file
          dsimp only
          rw [read_append_same, List.append_nil]
          exact h.lines
        · dsimp only at hw
          by_cases hi : i = s.next
          · rw [hi, Function.update_self] at hw
            obtain rfl := Option.some.inj hw
            have htext : utf8 (line ++ "\n") = utf8 line ++ [lineFeed] := utf8_append line "\n"
            refine ⟨?_, line, hline, by rw [List.nil_append, htext]⟩
            dsimp only
            rw [htext]
            exact List.append_ne_nil_of_right_ne_nil _ (List.cons_ne_nil _ _)
          · rw [Function.update_of_ne hi] at hw
            exact h.calls i w hw

theorem Lined.stop (h : Lined serde dir fromStr s) (i : ℕ) :
    Lined serde dir fromStr { s with calls := Function.update s.calls i none } := by
  refine ⟨h.lines, fun j w hw => ?_⟩
  dsimp only at hw
  by_cases hj : j = i
  · rw [hj, Function.update_self] at hw
    exact absurd hw.symm (Option.some_ne_none w)
  · rw [Function.update_of_ne hj] at hw
    exact h.calls j w hw

/-- What is left of a line ends in the newline, and the rest of it has none. -/
theorem Lined.left_eq (h : Lined serde dir fromStr s) (hserde : serde.Faithful fromStr) {i : ℕ}
    {w : Appending} (hw : s.calls i = some w) :
    ∃ line body, serde.toString w.record = some line ∧ w.left = body ++ [lineFeed]
      ∧ w.written ++ body = utf8 line ∧ lineFeed ∉ body := by
  obtain ⟨hleft, line, hline, hwhole⟩ := h.calls i w hw
  have hconcat := List.dropLast_append_getLast hleft
  rw [← hconcat, ← List.append_assoc] at hwhole
  obtain ⟨hbody, hlast⟩ := List.append_inj' hwhole rfl
  refine ⟨line, w.left.dropLast, hline, ?_, hbody, fun hmem => ?_⟩
  · rw [← hlast, hconcat]
  · exact hserde.one_line _ line hline (hbody ▸ List.mem_append_right _ hmem)

/-- **A write.** It leaves the complete lines as they are, or completes one; and if
that stands on its own, it is the record's. -/
theorem Lined.wrote (h : Lined serde dir fromStr s) (hserde : serde.Faithful fromStr) {i n : ℕ}
    {w : Appending} (hw : s.calls i = some w)
    (hown : w.left.length ≤ n → rest lineFeed (s.file dir) = w.written) :
    Lined serde dir fromStr (s.wrote dir i w n) := by
  obtain ⟨line, body, hline, hleft, hbody, hnot⟩ := h.left_eq hserde hw
  have hfile : (s.wrote dir i w n).file dir = s.file dir ++ w.left.take n :=
    read_append_same _ _ _
  have hcalls : (s.wrote dir i w n).calls = Function.update s.calls i
      (if w.left.length ≤ n then none
        else some { w with written := w.written ++ w.left.take n, left := w.left.drop n }) := rfl
  constructor
  · rw [hfile]
    unfold Appends.wrote
    dsimp only
    by_cases hcomplete : w.left.length ≤ n
    · rw [if_pos hcomplete, List.take_of_length_le hcomplete, hleft,
        ended_append_concat lineFeed hnot, hown hcomplete, hbody, List.map_append,
        List.map_append]
      refine h.lines.append ?_
      rw [List.map_singleton, List.map_singleton, hserde.fromStr_toString _ line hline]
    · have hchunk : lineFeed ∉ w.left.take n := by
        rw [hleft, List.length_append, List.length_singleton] at hcomplete
        rw [hleft, List.take_append_of_le_length (by omega)]
        exact fun hmem => hnot (List.mem_of_mem_take hmem)
      rw [if_neg hcomplete, ended_append_of_notMem lineFeed hchunk]
      exact h.lines
  · intro j v hv
    rw [hcalls] at hv
    by_cases hj : j = i
    · rw [hj, Function.update_self] at hv
      obtain ⟨hmore, ⟨⟩⟩ := Option.ite_none_left_eq_some.mp hv
      refine ⟨?_, line, hline, ?_⟩
      · exact fun hnil => hmore (List.drop_eq_nil_iff.mp hnil)
      · dsimp only
        rw [List.append_assoc, List.take_append_drop, hleft, ← List.append_assoc, hbody]
    · rw [Function.update_of_ne hj] at hv
      exact h.calls j v hv

/-- **A step that meets the condition keeps the invariant.** -/
theorem Lined.step (h : Lined serde dir fromStr s) (hserde : serde.Faithful fromStr)
    {a : AppendAction} (hown : OnItsOwn dir s a) (hs : s.step serde dir a = some s') :
    Lined serde dir fromStr s' := by
  cases a with
  | call host record => exact Option.some.inj hs ▸ h.opened host record
  | write i n =>
    unfold Appends.step at hs
    dsimp only at hs
    split at hs
    case h_1 w hw =>
      obtain ⟨-, ⟨⟩⟩ := Option.ite_none_right_eq_some.mp hs
      exact h.wrote hserde hw (hown w hw)
    case h_2 => exact absurd hs.symm (Option.some_ne_none s')
  | stop i =>
    unfold Appends.step at hs
    dsimp only at hs
    split at hs
    case h_1 => exact Option.some.inj hs ▸ h.stop i
    case h_2 => exact absurd hs.symm (Option.some_ne_none s')

/-- **When no line is lost.** In every run of appends on one file – by any number of
processes, in any order, each call completing, failing, or cut after any of its
bytes – in which every line that is completed stands on its own, every record that was
appended in full reads back from a line of the file, in the order in which they
were. -/
theorem recovered_of_onItsOwn (serde : SerdeJson) (fromStr : List UInt8 → Option TestRecord)
    (hserde : serde.Faithful fromStr) (dir : Path) (disk : Disk) (run : List AppendAction)
    (hown : Transition.Guarded (Appends.step serde dir) (OnItsOwn dir) (.idle disk) run) :
    Transition.Always (Appends.step serde dir) (Recovered dir fromStr) (.idle disk) run :=
  Transition.Always.of_guarded (I := Lined serde dir fromStr) (fun _ h => h.recovered)
    (fun _ _ _ h hown hs => h.step hserde hown hs) (lined_idle disk) hown

/-- A call that is not disturbed, and writes its line at once, does what `append`
does. -/
theorem run_undisturbed {host : HostFs} {record : TestRecord} {line : String}
    (hline : serde.toString record = some line) (hdir : host.createDirAll dir = .ok ())
    (hopen : host.openFile (resultsPath dir) = .ok ()) (s : Appends) :
    (Transition.run (Appends.step serde dir) s
        [.call host record, .write s.next (utf8 (line ++ "\n")).length]).map Appends.disk
      = some (append serde host dir record s.disk) := by
  have hopened : s.opened serde dir host record
      = { s with
          disk := s.disk.append (resultsPath dir) []
          calls := Function.update s.calls s.next (some ⟨record, [], utf8 (line ++ "\n")⟩)
          next := s.next + 1 } := by
    rw [Appends.opened, hline, hdir, hopen]
  have hpos : 0 < (utf8 (line ++ "\n")).length := by
    rw [utf8_append, List.length_append]
    exact Nat.lt_add_left _ (by decide)
  have hwritten (bs : List UInt8) : (s.disk.append (resultsPath dir) []).append (resultsPath dir) bs
      = s.disk.append (resultsPath dir) bs := by
    unfold Disk.append Disk.write Disk.read
    rw [Function.update_self, Function.update_idem, List.append_nil]
    rfl
  have happend : append serde host dir record s.disk
      = s.disk.append (resultsPath dir) (utf8 (line ++ "\n")) := by
    rw [append, hline, hdir, hopen]
  rw [happend, ← hwritten]
  unfold Transition.run Transition.run Transition.run Appends.step
  dsimp only [Option.bind_some]
  rw [hopened]
  dsimp only
  rw [Function.update_self]
  dsimp only
  rw [if_pos ⟨hpos, le_rfl⟩]
  unfold Appends.wrote
  dsimp only [Option.bind_some, Option.map_some]
  rw [List.take_length]

end Invariant

/-- Whether a line that is completed stands on its own can be computed. -/
instance (dir : Path) (s : Appends) : ∀ a, Decidable (OnItsOwn dir s a)
  | .write i n =>
    decidable_of_iff (∀ w ∈ s.calls i, w.left.length ≤ n → rest lineFeed (s.file dir) = w.written)
      ⟨fun h w hw => h w hw, fun h w hw => h w hw⟩
  | .call _ _ | .stop _ => .isTrue trivial

/-! ## Two lines -/

/-- A record of a test that passed. -/
def passedRecord (test : String) : TestRecord := TestRecord.new "radio" test .passed none

/-- A file system that refuses nothing. -/
def willing : HostFs := ⟨fun _ => .ok (), fun _ => .ok ()⟩

/-- A line is written in two pieces, and another is cut. -/
def tornLast : List AppendAction :=
  [.call willing (passedRecord "a"), .write 0 60, .write 0 44, .call willing (passedRecord "b"),
    .write 1 20, .stop 1]

/-- **A torn line after a complete one** takes nothing with it. -/
theorem tornLast_recovered :
    Transition.Always (Appends.step serdeJson [])
      (Recovered [] TestRecord.fromStr) (.idle (fun _ => none)) tornLast := by
  refine recovered_of_onItsOwn serdeJson TestRecord.fromStr serdeJson_faithful [] _ tornLast ?_
  decide +kernel

/-- A line is cut, and another is written after it. -/
def tornFirst : List AppendAction :=
  [.call willing (passedRecord "a"), .write 0 20, .stop 0, .call willing (passedRecord "b"),
    .write 1 104]

/-- **A torn line takes the next one with it**: the record of a call that has completed
reads back from no line of the file. -/
theorem torn_line_takes_next :
    ¬ ∀ (serde : SerdeJson) (fromStr : List UInt8 → Option TestRecord), serde.Faithful fromStr →
        ∀ (dir : Path) (run : List AppendAction),
          Transition.Always (Appends.step serde dir) (Recovered dir fromStr)
            (.idle (fun _ => none)) run := by
  intro h
  have hend : (Transition.run (Appends.step serdeJson []) (.idle (fun _ => none)) tornFirst).map
      (fun s => (s.completed, ((s.file []).splitOn lineFeed).map TestRecord.fromStr))
        = some ([passedRecord "b"], [none, none]) := by
    decide +kernel
  obtain ⟨s, hrun, hs⟩ := Option.map_eq_some_iff.mp hend
  obtain ⟨hcompleted, hlines⟩ := Prod.mk.inj hs
  have hrecovered := (h serdeJson TestRecord.fromStr serdeJson_faithful [] tornFirst).last hrun
  unfold Recovered at hrecovered
  rw [hcompleted, hlines] at hrecovered
  exact absurd hrecovered (by decide)

end Banc
