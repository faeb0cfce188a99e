import Mathlib.Logic.Function.Basic
import Mathlib.Data.List.Basic

/-!
# Paths and the files they name

A path is a list of bytes, as the operating system has it, and a disk says what
is in each file. Links, permissions and the working directory are not here: two
paths name the same file only if they are equal.

What is shown is what a writer of several files in one directory needs to know.
Joining keeps names apart (`join_inj`), and a file holds what was last written
to it (`write_same`, `write_ne`).
-/

namespace Fs

/-- A path, as the operating system has it. -/
abbrev Path := List UInt8

/-- The separator `/`. -/
def separator : UInt8 := 0x2F

/-- A path that starts at the root. -/
def isAbsolute (p : Path) : Bool := p.head? == some separator

/-- Whether a path is also a string. -/
def isUtf8 (p : Path) : Bool := (String.fromUTF8? ⟨p.toArray⟩).isSome

/-- The path of `name` in `dir`. An absolute name stays what it is, and a
separator is put in between unless there is one, or nothing to separate. -/
def join (dir name : Path) : Path :=
  if isAbsolute name then name
  else match dir.getLast? with
    | none => name
    | some b => if b = separator then dir ++ name else dir ++ separator :: name

/-- What a relative name is put after. -/
def stem (dir : Path) : Path :=
  match dir.getLast? with
  | none => []
  | some b => if b = separator then dir else dir ++ [separator]

theorem join_of_relative {dir name : Path} (h : isAbsolute name = false) :
    join dir name = stem dir ++ name := by
  rw [join, stem, h]
  cases dir.getLast? with
  | none => rfl
  | some b =>
    show (if b = separator then dir ++ name else dir ++ separator :: name)
      = (if b = separator then dir else dir ++ [separator]) ++ name
    split
    · rfl
    · rw [List.append_assoc]
      rfl

/-- **Different names in one directory are different paths.** -/
theorem join_inj {dir name name' : Path} (h : isAbsolute name = false)
    (h' : isAbsolute name' = false) : join dir name = join dir name' ↔ name = name' := by
  rw [join_of_relative h, join_of_relative h']
  exact List.append_right_inj (stem dir)

/-- What is in each file, `none` where there is no file. -/
abbrev Disk := Path → Option (List UInt8)

/-- What is in a file, nothing if there is none. -/
def Disk.read (d : Disk) (p : Path) : List UInt8 := (d p).getD []

/-- Write a file, in place of what was there. -/
def Disk.write (d : Disk) (p : Path) (content : List UInt8) : Disk :=
  Function.update d p (some content)

/-- Write at the end of a file, creating it if there is none. -/
def Disk.append (d : Disk) (p : Path) (content : List UInt8) : Disk :=
  d.write p (d.read p ++ content)

@[simp] theorem write_same (d : Disk) (p : Path) (content : List UInt8) :
    d.write p content p = some content := Function.update_self p _ d

theorem write_ne {p q : Path} (h : q ≠ p) (d : Disk) (content : List UInt8) :
    d.write p content q = d q := Function.update_of_ne h _ d

@[simp] theorem read_append_same (d : Disk) (p : Path) (content : List UInt8) :
    (d.append p content).read p = d.read p ++ content := by
  rw [Disk.append, Disk.read, write_same]
  rfl

theorem append_ne {p q : Path} (h : q ≠ p) (d : Disk) (content : List UInt8) :
    d.append p content q = d q := write_ne h d _

end Fs
