import Banc.Lib.Fs
import Banc.Lib.Postcard

/-!
# Evidence

`Evidence` of `banc-host/src/evidence.rs`: the lines recorded while a test runs,
the oldest of which are given up, and counted, past a cap. A failing test has
its evidence written to a file in the artifacts directory.

The file is named after the test, by `sanitize`. Whatever the test is called,
the name is a single component that leads nowhere else (`isAbsolute_logName`);
but it is not the test's alone: two tests share a file exactly if their names
are the same but for the characters that are replaced (`join_logName_inj`).

All producers hold the same evidence, behind a lock. An entry carries the time
at which it was recorded, in microseconds since the evidence was created.
-/

namespace Banc

open Fs Postcard

/-- `MAX_ENTRIES`: the cap on retained entries. -/
def maxEntries : ℕ := 50000

/-- One recorded line. -/
structure Entry where
  atUs : ℕ
  source : String
  line : String
  deriving DecidableEq

/-- The `{:>10.3}` of a time in milliseconds. -/
def Entry.millis (e : Entry) : String :=
  let fraction := (toString (e.atUs % 1000)).toList.leftpad 3 '0'
  String.ofList (((toString (e.atUs / 1000)).toList ++ '.' :: fraction).leftpad 10 ' ')

/-- How an entry reads. -/
def Entry.render (e : Entry) : String :=
  "[" ++ e.millis ++ "ms " ++ e.source ++ "] " ++ e.line ++ "\n"

/-- The evidence of a test: the retained entries, the oldest first, and how many
have been given up. -/
structure Evidence where
  test : String
  entries : List Entry
  dropped : ℕ
  capped : entries.length ≤ maxEntries
  deriving DecidableEq

namespace Evidence

/-- No evidence yet. -/
def new (test : String) : Evidence := ⟨test, [], 0, Nat.zero_le _⟩

/-- Record one line. -/
def record (ev : Evidence) (e : Entry) : Evidence :=
  if h : maxEntries ≤ ev.entries.length then
    { test := ev.test
      entries := ev.entries.tail ++ [e]
      dropped := ev.dropped + 1
      capped := by
        have hcapped := ev.capped
        have hpos : 0 < maxEntries := by decide
        simp only [List.length_append, List.length_tail, List.length_singleton]
        omega }
  else
    { ev with
      entries := ev.entries ++ [e]
      capped := by
        rw [List.length_append, List.length_singleton]
        exact Nat.lt_of_not_le h }

/-- Record some lines, one after the other. -/
def recordAll (ev : Evidence) (es : List Entry) : Evidence := es.foldl record ev

/-- Nothing has been recorded, or nothing is retained; it is the same. -/
def isEmpty (ev : Evidence) : Bool := ev.entries.isEmpty

/-- The last `n` lines. -/
def tail (ev : Evidence) (n : ℕ) : String :=
  let skip := ev.entries.length - n
  let notice :=
    if 0 < ev.dropped ∧ skip = 0 then
      "[... " ++ toString ev.dropped ++ " earlier entries dropped ...]\n"
    else ""
  notice ++ String.join ((ev.entries.drop skip).map Entry.render)

/-- What `persist` writes: the retained lines, and how many are missing. -/
def log (ev : Evidence) : String :=
  let notice :=
    if 0 < ev.dropped then
      "[... " ++ toString ev.dropped ++ " earlier entries dropped (evidence cap) ...]\n"
    else ""
  notice ++ String.join (ev.entries.map Entry.render)

end Evidence

/-- The characters that pass through into a file name: ASCII letters and digits,
`-` and `_`. -/
def passes (c : Char) : Bool := c.isAlphanum || c == '-' || c == '_'

/-- `sanitize`: make a test path a single component of a file name. -/
def sanitize (test : String) : String :=
  String.ofList (test.toList.map (fun c => if passes c then c else '_'))

/-- The name of the file a test's evidence is persisted in. -/
def logName (test : String) : String := sanitize test ++ ".evidence.log"

/-- What the host's file system answers, `error` where it refuses. -/
structure HostFs where
  createDirAll : Path → Except String Unit
  /-- Opening a file for writing. What is opened can be written. -/
  openFile : Path → Except String Unit

/-- Nothing is refused. -/
def HostFs.Writable (host : HostFs) : Prop :=
  ∀ p, host.createDirAll p = .ok () ∧ host.openFile p = .ok ()

/-- `persist`: the file the log is written to, and what is written. -/
def Evidence.persist (ev : Evidence) (host : HostFs) (dir : Path) :
    Except String (Path × List UInt8) := do
  host.createDirAll dir
  let path := join dir (utf8 (logName ev.test))
  host.openFile path
  pure (path, utf8 ev.log)

/-! ## Recording -/

namespace Evidence

@[simp] theorem test_record (ev : Evidence) (e : Entry) : (ev.record e).test = ev.test := by
  rw [record]
  split
  · rfl
  · rfl

@[simp] theorem test_recordAll (ev : Evidence) (es : List Entry) :
    (ev.recordAll es).test = ev.test := by
  induction es generalizing ev with
  | nil => rfl
  | cons e es ih =>
    show ((ev.record e).recordAll es).test = ev.test
    rw [ih, test_record]

/-- What has been recorded is retained, at least at first. -/
@[simp] theorem isEmpty_record (ev : Evidence) (e : Entry) :
    (ev.record e).isEmpty = false := by
  rw [record]
  split
  · simp [isEmpty]
  · simp [isEmpty]

/-- Evidence is not lost altogether. -/
theorem isEmpty_recordAll (ev : Evidence) (es : List Entry) :
    (ev.recordAll es).isEmpty = (ev.isEmpty && es.isEmpty) := by
  induction es generalizing ev with
  | nil => simp [recordAll]
  | cons e es ih =>
    show ((ev.record e).recordAll es).isEmpty = _
    rw [ih, isEmpty_record]
    simp

end Evidence

/-! ## The name of the file -/

/-- **What may be in a file name**, however the test is called. -/
theorem passes_of_mem_sanitize {test : String} {c : Char}
    (h : c ∈ (sanitize test).toList) : passes c = true := by
  rw [sanitize, String.toList_ofList] at h
  obtain ⟨d, -, rfl⟩ := List.mem_map.mp h
  split
  · assumption
  · rfl

/-- A name that is safe already is kept. -/
theorem sanitize_eq_self {test : String} (h : ∀ c ∈ test.toList, passes c = true) :
    sanitize test = test := by
  have hmap : test.toList.map (fun c => if passes c then c else '_') = test.toList :=
    (List.map_congr_left (fun c hc => if_pos (h c hc))).trans (List.map_id' _)
  rw [sanitize, hmap, String.ofList_toList]

/-- A character that passes is ASCII, and no separator. -/
theorem ascii_of_passes {c : Char} (h : passes c = true) : c.toNat < 0x80 ∧ c ≠ '/' := by
  refine ⟨?_, fun hc => ?_⟩
  · have hranges : ((decide (65 ≤ c.val ∧ c.val ≤ 90)
        || decide (97 ≤ c.val) && decide (c.val ≤ 122))
        || decide (48 ≤ c.val) && decide (c.val ≤ 57)
        || c == '-' || c == '_') = true := h
    simp only [Bool.or_eq_true, Bool.and_eq_true, decide_eq_true_eq, beq_iff_eq,
      UInt32.le_iff_toNat_le] at hranges
    obtain (((⟨-, hZ⟩ | ⟨-, hz⟩) | ⟨-, h9⟩) | rfl) | rfl := hranges
    · exact lt_of_le_of_lt hZ (by decide)
    · exact lt_of_le_of_lt hz (by decide)
    · exact lt_of_le_of_lt h9 (by decide)
    · decide
    · decide
  · subst hc
    exact absurd h (by decide)

/-- A string that starts with another ASCII character than `/` is a relative
path. -/
theorem isAbsolute_utf8_cons {c : Char} {cs : List Char} (hascii : c.toNat < 0x80)
    (hc : c ≠ '/') : isAbsolute (utf8 (String.ofList (c :: cs))) = false := by
  have hval : c.val ≤ 127 := UInt32.le_iff_toNat_le.mpr (Nat.le_of_lt_succ hascii)
  have hhead : (utf8 (String.ofList (c :: cs))).head? = some c.val.toUInt8 := by
    show ((c :: cs).utf8Encode).data.toList.head? = _
    rw [List.utf8Encode_cons, List.utf8Encode_singleton,
      String.utf8EncodeChar_eq_singleton (Char.utf8Size_eq_one_iff.mpr hval)]
    simp
  rw [isAbsolute, hhead, beq_eq_false_iff_ne]
  intro heq
  -- the one byte is the code of the character
  have hcode : c.toNat % 256 = 0x2F := congrArg UInt8.toNat (Option.some.inj heq)
  rw [Nat.mod_eq_of_lt (hascii.trans (by decide))] at hcode
  exact hc (Char.ext (UInt32.toNat_inj.mp hcode))

/-- **The file name leads nowhere else.** -/
theorem isAbsolute_logName (test : String) : isAbsolute (utf8 (logName test)) = false := by
  have hname : logName test
      = String.ofList ((sanitize test).toList ++ ".evidence.log".toList) := by
    rw [logName, String.ofList_append, String.ofList_toList, String.ofList_toList]
  rw [hname]
  cases hcs : (sanitize test).toList with
  | nil => exact isAbsolute_utf8_cons (c := '.') (by decide) (by decide)
  | cons c cs =>
    have hpasses : passes c = true := passes_of_mem_sanitize (hcs ▸ List.mem_cons_self)
    obtain ⟨hascii, hslash⟩ := ascii_of_passes hpasses
    exact isAbsolute_utf8_cons hascii hslash

/-- **When two tests share a file**: when nothing but replaced characters tells
their names apart. -/
theorem join_logName_inj {dir : Path} {test test' : String} :
    join dir (utf8 (logName test)) = join dir (utf8 (logName test'))
      ↔ sanitize test = sanitize test' := by
  rw [join_inj (isAbsolute_logName test) (isAbsolute_logName test'), utf8_inj, logName,
    logName]
  exact String.append_left_inj _

/-- What `persist` comes to. -/
theorem Evidence.persist_eq_ok_iff {host : HostFs} {ev : Evidence} {dir : Path}
    {x : Path × List UInt8} :
    ev.persist host dir = .ok x
      ↔ host.createDirAll dir = .ok () ∧ host.openFile (join dir (utf8 (logName ev.test))) = .ok ()
        ∧ x = (join dir (utf8 (logName ev.test)), utf8 ev.log) := by
  rw [persist]
  cases host.createDirAll dir with
  | error e => simp [bind, Except.bind]
  | ok u =>
    show (host.openFile _ >>= fun _ => _) = _ ↔ _
    cases host.openFile (join dir (utf8 (logName ev.test))) with
    | error e => simp [bind, Except.bind]
    | ok u => simp [bind, Except.bind, pure, Except.pure, eq_comm]

end Banc
