import Banc.Rig.Node
import Mathlib.Data.List.Infix

/-!
# Acquiring the rig

`RigConfig::locate` and `RigConfig::load` of `banc-host/src/config.rs`, and
`Rig::acquire` of `banc-host/src/rig.rs`. The configuration is the file that
`BANC_RIG` names, or the one found by searching upward from the current directory;
that there is none means that this machine has no rig, and the tests are skipped.

An environment variable is any string of the operating system. `std::env::var` has an
error both for one that is not set and for one that is not Unicode, and `locate` makes
no difference between the two. So a rig is neither skipped nor swapped for another
exactly if `BANC_RIG`, where it is set, is Unicode (`neverSwapped_iff`).
-/

namespace Banc

open Fs Postcard

/-! ## The environment -/

/-- A string of the operating system. -/
abbrev OsString := List UInt8

/-- What the environment variables are set to, if they are, and the id of the process. -/
structure Env where
  bancRig : Option OsString
  bancLockTimeoutSecs : Option OsString
  bancLeaseHolder : Option OsString
  hostname : Option OsString
  pid : ℕ

/-- `std::env::var(…).ok()`: what is not Unicode is an error, as is what is not set. -/
def envVar (value : Option OsString) : Option String :=
  value.bind fun bs => String.fromUTF8? ⟨bs.toArray⟩

/-- `str::parse`, for a `u64`. -/
def parseU64 (s : String) : Option ℕ :=
  let digits := match s.toList with
    | '+' :: cs => cs
    | cs => cs
  if digits ≠ [] ∧ digits.all Char.isDigit then
    let n := Nat.ofDigitChars 10 digits 0
    if n < 2 ^ 64 then some n else none
  else none

/-- `holder_identity`. -/
def Env.holderIdentity (env : Env) : String :=
  (envVar env.bancLeaseHolder).getD
    ((envVar env.hostname).getD "?" ++ ":" ++ toString env.pid)

/-- `DEFAULT_LOCK_TIMEOUT`, in seconds. -/
def defaultLockTimeout : ℕ := 300

/-- How long to wait for the rig, in seconds. -/
def Env.lockTimeout (env : Env) : ℕ :=
  ((envVar env.bancLockTimeoutSecs).bind parseU64).getD defaultLockTimeout

/-! ## The machine -/

/-- What there is outside of the process. -/
structure Machine (Table : Type) where
  /-- `Path::is_file`. -/
  isFile : Path → Bool
  /-- `std::fs::read_to_string`. -/
  readToString : Path → Except String String
  /-- `toml::from_str`. -/
  fromStr : String → Except String (RigConfig Table)
  /-- `LeaseClient::acquire`: address, token, holder, timeout. -/
  acquireLease : String → String → String → ℕ → Except String Unit
  /-- `RigLock::take`: path, timeout. -/
  takeLock : Path → ℕ → Except String Unit

/-- `CONFIG_FILE`. -/
def configFile : String := "banc-rig.toml"

/-- The path of a directory, which is given by its components, the innermost first. -/
def dirPath : List Path → Path
  | [] => [separator]
  | c :: dir => join (dirPath dir) c

/-- The configuration file in a directory. -/
def candidate (dir : List Path) : Path := join (dirPath dir) (utf8 configFile)

/-- `Path::parent`. -/
def parent (path : Path) : Option Path :=
  match path.rdropWhile (· == separator) with
  | [] => none
  | p =>
    match p.rdropWhile (· != separator) with
    | [] => some []
    | dir =>
      match dir.rdropWhile (· == separator) with
      | [] => some [separator]
      | dir => some dir

/-- Whether a directory has one. -/
def hasConfig (isFile : Path → Bool) (dir : List Path) : Bool := isFile (candidate dir)

/-- The loop of `locate`: the file that is found, and all that were looked at. -/
def searchUp (isFile : Path → Bool) : List Path → Option Path × List Path
  | [] =>
    if isFile (candidate []) then (some (candidate []), [candidate []])
    else (none, [candidate []])
  | c :: dir =>
    if isFile (candidate (c :: dir)) then (some (candidate (c :: dir)), [candidate (c :: dir)])
    else
      let (found, looked) := searchUp isFile dir
      (found, candidate (c :: dir) :: looked)

/-- `locate`: what it returns, and which files the search looked at. -/
def locate (isFile : Path → Bool) (env : Env) (currentDir : Except String (List Path)) :
    Except String (Option Path) × List Path :=
  match envVar env.bancRig with
  | some path =>
    let path := utf8 path
    if isFile path then (.ok (some path), [])
    else (.error ("BANC_RIG points at " ++ display path ++ " which does not exist"), [])
  | none =>
    match currentDir with
    | .error e => (.error e, [])
    | .ok dir =>
      let (found, looked) := searchUp isFile dir
      (.ok found, looked)

section Acquire

variable {Table : Type} (m : Machine Table) (env : Env)

/-- `load`. -/
def load (path : Path) : Except String (RigConfig Table) := do
  let text ← m.readToString path
  let config ← (m.fromStr text).mapError fun e => "parsing " ++ display path ++ ": " ++ e
  config.validate.mapError fun e => "invalid rig config " ++ display path ++ ": " ++ e
  return config

/-- `lock_path`. -/
def lockPath (config : RigConfig Table) (baseDir : Path) : Path :=
  match config.rig.lockFile with
  | some p => if isAbsolute p then p else join baseDir p
  | none => join (join baseDir (utf8 "target")) (utf8 "banc.lock")

/-- The lock: the lease where the configuration has a lease server, or else the flock. -/
def takeExclusive (config : RigConfig Table) (baseDir : Path) : Except String Unit :=
  match config.rig.lease with
  | some lease => do
    let token ← readToken m.readToString lease.tokenFile baseDir
    (m.acquireLease lease.addr token env.holderIdentity env.lockTimeout).mapError
      fun e => "acquiring rig lease: " ++ e
  | none => m.takeLock (lockPath config baseDir) env.lockTimeout

/-- `acquire`, when the configuration has been located. -/
def acquireFrom (path : Path) : Except String (ConfiguredRig Table) := do
  let config ← load m path
  let baseDir := (parent path).getD (utf8 ".")
  takeExclusive m env config baseDir
  return ⟨⟨baseDir⟩, config⟩

/-- `Rig::acquire`. -/
def acquire (currentDir : Except String (List Path)) : Except Acquire (ConfiguredRig Table) :=
  match (locate m.isFile env currentDir).1 with
  | .error e => .error (.fail e)
  | .ok none =>
    .error (.skip ("no rig: " ++ configFile
      ++ " not found (set BANC_RIG or create one to run on hardware)"))
  | .ok (some path) => (acquireFrom m env path).mapError .fail

/-- What `run` shares across its trials. -/
def rigState (currentDir : Except String (List Path)) : RigState :=
  .ofAcquire ((acquire m env currentDir).map ConfiguredRig.toRig)

/-- The trials are skipped only where `acquire` says so. -/
theorem rigState_eq_skip_iff {currentDir : Except String (List Path)} {reason : String} :
    rigState m env currentDir = .skip reason
      ↔ acquire m env currentDir = .error (.skip reason) := by
  unfold rigState
  cases acquire m env currentDir with
  | ok rig =>
    refine ⟨fun h => RigState.noConfusion h, fun h => ?_⟩
    obtain ⟨⟩ := h
  | error e =>
    cases e with
    | skip r =>
      refine ⟨fun h => ?_, fun h => ?_⟩
      · rw [RigState.skip.inj h]
      · rw [Acquire.skip.inj (Except.error.inj h)]
        rfl
    | fail e =>
      refine ⟨fun h => RigState.noConfusion h, fun h => ?_⟩
      exact Acquire.noConfusion (Except.error.inj h)

end Acquire

/-! ## The search -/

section Search

variable (isFile : Path → Bool) (dir : List Path)

/-- **The nearest** of the directories from the current one up to the root. -/
theorem searchUp_found :
    (searchUp isFile dir).1 = (dir.tails.find? (hasConfig isFile)).map candidate := by
  induction dir with
  | nil =>
    unfold searchUp
    split
    case isTrue h => rw [List.tails, List.find?_cons_of_pos (p := hasConfig isFile) h]; rfl
    case isFalse h => rw [List.tails, List.find?_cons_of_neg (p := hasConfig isFile) h]; rfl
  | cons c dir ih =>
    unfold searchUp
    split
    case isTrue h => rw [List.tails, List.find?_cons_of_pos (p := hasConfig isFile) h]; rfl
    case isFalse h =>
      rw [List.tails, List.find?_cons_of_neg (p := hasConfig isFile) h]
      exact ih

/-- **It ends**, with the root at the latest. -/
theorem searchUp_looked :
    (searchUp isFile dir).2 ≠ [] ∧ (searchUp isFile dir).2 <+: dir.tails.map candidate := by
  induction dir with
  | nil =>
    unfold searchUp
    split <;> exact ⟨List.cons_ne_nil _ _, List.prefix_rfl⟩
  | cons c dir ih =>
    unfold searchUp
    split
    case isTrue => exact ⟨List.cons_ne_nil _ _, List.prefix_append [_] _⟩
    case isFalse =>
      exact ⟨List.cons_ne_nil _ _, (List.prefix_cons_inj _).mpr ih.2⟩

end Search

/-! ## Which configuration is used -/

section Located

variable {Table : Type} {m : Machine Table} {env : Env} {dir : List Path}

/-- What is acquired is the rig of the configuration that was located. -/
theorem config_of_acquireFrom {path : Path} {rig : ConfiguredRig Table}
    (h : acquireFrom m env path = .ok rig) : load m path = .ok rig.config := by
  unfold acquireFrom at h
  cases hload : load m path with
  | error e =>
    rw [hload] at h
    exact absurd h error_ne_ok
  | ok config =>
    rw [hload] at h
    change (takeExclusive m env config _ >>= fun _ => _) = _ at h
    cases hlock : takeExclusive m env config ((parent path).getD (utf8 ".")) with
    | error e =>
      rw [hlock] at h
      exact absurd h error_ne_ok
    | ok u =>
      rw [hlock] at h
      obtain rfl := Except.ok.inj h
      rfl

/-- **A configured rig is not skipped, and not swapped for another.** -/
structure NeverSwapped (m : Machine Table) (env : Env) (dir : List Path) : Prop where
  skip : (∃ reason, acquire m env (.ok dir) = .error (.skip reason))
    ↔ env.bancRig = none ∧ ∀ d ∈ dir.tails, hasConfig m.isFile d = false
  /-- The search is not consulted, and it is the file that is named. -/
  named : ∀ v ∈ env.bancRig, (locate m.isFile env (.ok dir)).2 = []
    ∧ ∀ rig, acquire m env (.ok dir) = .ok rig → load m v = .ok rig.config
  /-- The search ends, and it is the nearest file. -/
  nearest : env.bancRig = none → (locate m.isFile env (.ok dir)).2 <+: dir.tails.map candidate
    ∧ ∀ rig, acquire m env (.ok dir) = .ok rig →
      ∃ d, dir.tails.find? (hasConfig m.isFile) = some d
        ∧ load m (candidate d) = .ok rig.config

/-- What `acquire` does with a file that is located. -/
theorem acquire_of_located {path : Path} {currentDir : Except String (List Path)}
    (h : (locate m.isFile env currentDir).1 = .ok (some path)) :
    (∀ reason, acquire m env currentDir ≠ .error (.skip reason))
      ∧ ∀ rig, acquire m env currentDir = .ok rig → load m path = .ok rig.config := by
  unfold acquire
  rw [h]
  dsimp only
  cases hfrom : acquireFrom m env path with
  | error e =>
    refine ⟨fun reason hskip => ?_, fun rig hrig => ?_⟩
    · exact Acquire.noConfusion (Except.error.inj hskip)
    · obtain ⟨⟩ := hrig
  | ok rig' =>
    refine ⟨fun reason hskip => ?_, fun rig hrig => ?_⟩
    · obtain ⟨⟩ := hskip
    · exact Except.ok.inj hrig ▸ config_of_acquireFrom hfrom

/-- What is not Unicode is not seen. -/
theorem envVar_eq_none_iff {v : OsString} : envVar (some v) = none ↔ isUtf8 v = false := by
  unfold envVar isUtf8
  rw [Option.bind_some, Option.isSome_eq_false_iff, Option.isNone_iff_eq_none]

/-- `locate` where the variable is seen. -/
theorem locate_of_seen {v : OsString} (hv : env.bancRig = some v) (hutf8 : isUtf8 v = true)
    (isFile : Path → Bool) (currentDir : Except String (List Path)) :
    (locate isFile env currentDir).2 = []
      ∧ (locate isFile env currentDir).1
        = if isFile v then .ok (some v)
          else .error ("BANC_RIG points at " ++ display v ++ " which does not exist") := by
  obtain ⟨s, hs⟩ := Option.isSome_iff_exists.mp hutf8
  have hpath : utf8 s = v := utf8_of_fromUTF8? hs
  unfold locate
  rw [hv, envVar, Option.bind_some, hs]
  dsimp only
  rw [hpath]
  split
  · exact ⟨rfl, rfl⟩
  · exact ⟨rfl, rfl⟩

/-- `locate` where it is not: the search. -/
theorem locate_of_unseen (h : envVar env.bancRig = none) (isFile : Path → Bool) :
    locate isFile env (.ok dir) = (.ok (searchUp isFile dir).1, (searchUp isFile dir).2) := by
  unfold locate
  rw [h]

/-- Where the variable is not set, it is the nearest file, or a skip. -/
theorem neverSwapped_of_unset (h : env.bancRig = none) : NeverSwapped m env dir := by
  have hunseen : envVar env.bancRig = none := by rw [h]; rfl
  have hlocate : locate m.isFile env (.ok dir)
      = (.ok (searchUp m.isFile dir).1, (searchUp m.isFile dir).2) :=
    locate_of_unseen hunseen m.isFile
  have hfound := searchUp_found m.isFile dir
  have hlooked : (locate m.isFile env (.ok dir)).2 <+: dir.tails.map candidate := by
    rw [hlocate]
    exact (searchUp_looked m.isFile dir).2
  cases hfind : dir.tails.find? (hasConfig m.isFile) with
  | none =>
    have hnone : ∀ d ∈ dir.tails, hasConfig m.isFile d = false := fun d hd =>
      Bool.eq_false_iff.mpr (List.find?_eq_none.mp hfind d hd)
    have hskip : ∃ reason, acquire m env (.ok dir) = .error (.skip reason) := by
      unfold acquire
      rw [hlocate, hfound, hfind]
      exact ⟨_, rfl⟩
    exact {
      skip := ⟨fun _ => ⟨h, hnone⟩, fun _ => hskip⟩
      named := fun v hv => absurd (hv.symm.trans h) (Option.some_ne_none v)
      nearest := fun _ => ⟨hlooked, fun rig hrig => by
        obtain ⟨reason, hskip⟩ := hskip
        obtain ⟨⟩ := hskip.symm.trans hrig⟩ }
  | some d =>
    rw [hfind] at hfound
    have hlocated : (locate m.isFile env (.ok dir)).1 = .ok (some (candidate d)) := by
      rw [hlocate, hfound]
      rfl
    obtain ⟨hnot, huses⟩ := acquire_of_located hlocated
    exact {
      skip := ⟨fun ⟨reason, hskip⟩ => absurd hskip (hnot reason), fun ⟨_, hnone⟩ => by
        have hd := hnone d (List.mem_of_find?_eq_some hfind)
        exact absurd (hd.symm.trans (List.find?_some hfind)) Bool.false_ne_true⟩
      named := fun v hv => absurd (hv.symm.trans h) (Option.some_ne_none v)
      nearest := fun _ => ⟨hlooked, fun rig hrig => ⟨d, hfind, huses rig hrig⟩⟩ }

/-- Where it is set, and Unicode, it is the file that it names. -/
theorem neverSwapped_of_seen {v : OsString} (hv : env.bancRig = some v) (hutf8 : isUtf8 v = true) :
    NeverSwapped m env dir := by
  obtain ⟨hlooked, hlocate⟩ := locate_of_seen hv hutf8 m.isFile (.ok dir)
  have hset : ¬ env.bancRig = none := by
    rw [hv]
    exact Option.some_ne_none v
  have hend : (∀ reason, acquire m env (.ok dir) ≠ .error (.skip reason))
      ∧ ∀ rig, acquire m env (.ok dir) = .ok rig → load m v = .ok rig.config := by
    by_cases hfile : m.isFile v = true
    · rw [if_pos hfile] at hlocate
      exact acquire_of_located hlocate
    · rw [if_neg hfile] at hlocate
      unfold acquire
      rw [hlocate]
      refine ⟨fun reason hskip => ?_, fun rig hrig => ?_⟩
      · exact Acquire.noConfusion (Except.error.inj hskip)
      · obtain ⟨⟩ := hrig
  exact {
    skip := ⟨fun ⟨reason, hskip⟩ => absurd hskip (hend.1 reason), fun h => absurd h.1 hset⟩
    named := fun v' hv' => by
      obtain rfl := Option.some.inj (hv.symm.trans hv')
      exact ⟨hlooked, hend.2⟩
    nearest := fun h => absurd h hset }

end Located

/-- **When a configured rig is neither skipped nor swapped.** On every machine, in
every directory: a missing configuration is the only reason to skip, the file that
`BANC_RIG` names is the only one that is used where it is set, and the nearest one
where it is not – exactly if `BANC_RIG` is not set, or is Unicode. -/
theorem neverSwapped_iff {Table : Type} (m : Machine Table) (env : Env) (dir : List Path) :
    NeverSwapped m env dir ↔ ∀ v ∈ env.bancRig, isUtf8 v = true := by
  constructor
  · intro h v hv
    by_contra hutf8
    have hunseen : envVar env.bancRig = none := by
      rw [hv]
      exact envVar_eq_none_iff.mpr (Bool.eq_false_iff.mpr hutf8)
    -- the search is consulted
    have hlooked := (h.named v hv).1
    rw [locate_of_unseen hunseen] at hlooked
    exact (searchUp_looked m.isFile dir).1 hlooked
  · intro h
    cases hv : env.bancRig with
    | none => exact neverSwapped_of_unset hv
    | some v => exact neverSwapped_of_seen hv (h v hv)

/-- An empty configuration, of a rig with a name. -/
def namedRig (name : String) : RigConfig Unit := ⟨⟨some name, none, none⟩, [], []⟩

/-- A machine with a configuration at the root, and one that is named by a byte that
is not Unicode. -/
def twoRigs : Machine Unit where
  isFile path := path = candidate [] || path = [0xFF]
  readToString path := .ok (if path = [0xFF] then "named" else "root")
  fromStr text := .ok (namedRig text)
  acquireLease _ _ _ _ := .ok ()
  takeLock _ _ := .ok ()

/-- `BANC_RIG` is set to that byte. -/
def byteEnv : Env := ⟨some [0xFF], none, none, none, 1⟩

/-- **The rig at the root is acquired in place of the one that `BANC_RIG` names.** -/
theorem twoRigs_swapped :
    ¬ ∀ (m : Machine Unit) (env : Env) (dir : List Path), NeverSwapped m env dir := by
  intro h
  have hnamed := ((h twoRigs byteEnv []).named [0xFF] rfl).2
  have hroot : (acquire twoRigs byteEnv (.ok [])).toOption.map (fun rig => rig.config.rig.name)
      = some (some "root") := by
    decide +kernel
  have hload : (load twoRigs [0xFF]).toOption.map (fun c => c.rig.name)
      = some (some "named") := by
    decide +kernel
  cases hacquire : acquire twoRigs byteEnv (.ok []) with
  | error e =>
    rw [hacquire] at hroot
    obtain ⟨⟩ := hroot
  | ok rig =>
    rw [hacquire] at hroot
    rw [hnamed rig hacquire] at hload
    change some rig.config.rig.name = _ at hroot
    change some rig.config.rig.name = _ at hload
    exact absurd (hroot.symm.trans hload) (by decide)

end Banc
