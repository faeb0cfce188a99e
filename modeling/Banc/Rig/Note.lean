import Banc.Lib.Json
import Banc.Lib.Postcard

/-!
# The holder note

What a process that takes the rig lock writes into the lock file
(`banc-host/src/rig.rs`), as JSON. What is proved about the note takes `serde_json`
as a parameter, with two properties: a note has a text that reads back, and an
empty file is no note (`NoteCodec.Faithful`). `NoteCodec.serdeJson` is the text it
has, with a reader of just that text.
-/

namespace Banc

/-- The holder note. -/
structure LockHolder where
  holder : String
  pid : UInt32
  /-- Unix seconds when the lock was taken. -/
  since : UInt64
  deriving DecidableEq

/-- `serde_json`, at the holder note: `to_string`, and `from_str` of what
`read_to_string` makes of the bytes of a file. -/
structure NoteCodec where
  toString : LockHolder → Option (List UInt8)
  fromStr : List UInt8 → Option LockHolder

/-- Every note has a text, which reads back, and no text is no note. -/
structure NoteCodec.Faithful (codec : NoteCodec) : Prop where
  note : ∀ n, ∃ json, codec.toString n = some json ∧ codec.fromStr json = some n
  empty : codec.fromStr [] = none

/-! ## The text of a note -/

open Json Postcard

/-- The compact text. -/
def LockHolder.toJson (n : LockHolder) : String :=
  "\x7b\"holder\":" ++ jsonString n.holder
    ++ ",\"pid\":" ++ toString n.pid.toNat
    ++ ",\"since\":" ++ toString n.since.toNat ++ "\x7d"

/-- Read it. -/
def readLockHolder (cs : List Char) : Option LockHolder := do
  let cs ← expect "\x7b\"holder\":".toList cs
  let (holder, cs) ← readString cs
  let cs ← expect ",\"pid\":".toList cs
  let (pid, cs) ← readNat cs
  let cs ← expect ",\"since\":".toList cs
  let (since, cs) ← readNat cs
  if cs = "\x7d".toList ∧ pid < 2 ^ 32 ∧ since < 2 ^ 64 then
    some ⟨holder, UInt32.ofNat pid, UInt64.ofNat since⟩
  else none

/-- The text in a file. -/
def NoteCodec.serdeJson : NoteCodec where
  toString n := some (utf8 n.toJson)
  fromStr bs := (String.fromUTF8? ⟨bs.toArray⟩).bind (fun text => readLockHolder text.toList)

theorem readLockHolder_toJson (n : LockHolder) : readLockHolder n.toJson.toList = some n := by
  have hlist : n.toJson.toList
      = "\x7b\"holder\":".toList ++ ((jsonString n.holder).toList
        ++ (",\"pid\":".toList ++ ((toString n.pid.toNat).toList
        ++ (",\"since\":".toList ++ ((toString n.since.toNat).toList ++ "\x7d".toList))))) := by
    unfold LockHolder.toJson
    simp only [String.toList_append, List.append_assoc]
  have hcomma : ",\"since\":".toList = ',' :: "\"since\":".toList := by simp
  have hclose : "\x7d".toList = ['\x7d'] := by simp
  have hpid (rest : List Char) :
      readNat ((toString n.pid.toNat).toList ++ (",\"since\":".toList ++ rest))
        = some (n.pid.toNat, ",\"since\":".toList ++ rest) := by
    rw [hcomma]
    exact readNat_toString n.pid.toNat (by decide) _
  have hsince : readNat ((toString n.since.toNat).toList ++ "\x7d".toList)
      = some (n.since.toNat, "\x7d".toList) := by
    rw [hclose]
    exact readNat_toString n.since.toNat (by decide) []
  unfold readLockHolder
  rw [hlist, expect_append]
  dsimp only [Option.bind_eq_bind, Option.bind_some]
  rw [readString_jsonString]
  dsimp only [Option.bind_some]
  rw [expect_append]
  dsimp only [Option.bind_some]
  rw [hpid]
  dsimp only [Option.bind_some]
  rw [expect_append]
  dsimp only [Option.bind_some]
  rw [hsince]
  dsimp only [Option.bind_some]
  rw [if_pos ⟨rfl, n.pid.toNat_lt, n.since.toNat_lt⟩, UInt32.ofNat_toNat, UInt64.ofNat_toNat]

/-- **The text reads back.** -/
theorem NoteCodec.serdeJson_faithful : NoteCodec.serdeJson.Faithful where
  note n := by
    refine ⟨utf8 n.toJson, rfl, ?_⟩
    unfold NoteCodec.serdeJson
    dsimp only
    rw [fromUTF8?_utf8, Option.bind_some, readLockHolder_toJson]
  empty := rfl

end Banc
