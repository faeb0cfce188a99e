import Banc.Net.Lease.Remote
import Banc.Rig.Acquire
import Banc.Rig.Doctor
import Banc.Rig.Flock

/-!
# The command line

`banc/src/bin/banc.rs`: `banc doctor`, `banc rig status` and `banc probe`. All of them
locate the rig configuration as a suite does, and the exit code 2 is kept for a machine
that has none; what doctor checks, the module says, is what a suite will use.

So there are two programs on one machine: the command and the suite that may run after
it. The machine is one on which what is asked twice is answered twice the same
(`Bench`), and the suite takes its part of it (`Bench.machine`), with a lock of its own
to take. Doctor exits 2 exactly if the suite skips its tests; it exits 0 exactly if all
that it checks holds (`Bench.Sound`), and then the suite, with the very configuration
that was checked, can fail to acquire its rig in one way only: not being given the lock
(`doctor_vouches`).
-/

namespace Banc

open Fs Postcard

/-! ## The configuration -/

/-- The device under test, driven via probe-rs. -/
structure TargetConfig where
  /-- probe-rs target-database chip name. -/
  chip : String
  /-- Probe selector. -/
  probe : Option String
  /-- probe-rs remote server. -/
  probeHost : Option String
  /-- Token file for the probe-rs remote server. -/
  tokenFile : Option Path

/-- The whole of `banc-rig.toml`. -/
structure RigToml (Table : Type) extends RigConfig Table where
  target : Option TargetConfig

namespace Cli

/-- What a command has printed, and the code it exits with. -/
structure Exit where
  code : UInt8
  stdout : List String
  stderr : List String
  deriving DecidableEq

/-- `ExitCode::SUCCESS`. -/
def Exit.success (stdout : List String) : Exit := ⟨0, stdout, []⟩

/-- `ExitCode::FAILURE`, with what is printed on stderr. -/
def Exit.failure (e : String) : Exit := ⟨1, [], [e]⟩

/-- What there is outside of the commands: what is asked twice is answered the same. -/
structure Bench (Table Addr : Type) where
  /-- `Path::is_file`. -/
  isFile : Path → Bool
  /-- `std::fs::read_to_string`. -/
  readToString : Path → Except String String
  /-- `toml::from_str`. -/
  fromStr : String → Except String (RigToml Table)
  net : Network Addr
  /-- `query_status`: address, token. -/
  queryStatus : String → String → Except String Remote.LeaseStatus
  flockStatus : Path → Except String FlockStatus
  /-- `BANC_ARTIFACTS`, and creating directories and files. -/
  host : Host
  removeFile : Path → Except String Unit
  /-- `PATH`. -/
  path : Option OsString
  /-- `Command::status`, for `probe-rs` with these arguments: its exit code, if it was not
  terminated by a signal. -/
  status : List String → Except String (Option ℤ)

section Commands

variable {Table Addr : Type} (b : Bench Table Addr) (env : Env)
  (currentDir : Except String (List Path))

/-- `RigConfig::load`. -/
def Bench.load (path : Path) : Except String (RigToml Table) := do
  let text ← b.readToString path
  let config ← (b.fromStr text).mapError fun e => "parsing " ++ display path ++ ": " ++ e
  config.validate.mapError fun e => "invalid rig config " ++ display path ++ ": " ++ e
  return config

/-- `load_config`. -/
def loadConfig : Except Exit (RigToml Table × Path) :=
  match (locate b.isFile env currentDir).1 with
  | .ok (some path) =>
    match b.load path with
    | .ok config => .ok (config, (parent path).getD (utf8 "."))
    | .error e => .error (.failure ("rig config unusable: " ++ e))
  | .ok none =>
    .error ⟨2, [],
      ["no rig here: banc-rig.toml not found (set BANC_RIG or run from a rig checkout)"]⟩
  | .error e => .error (.failure ("locating rig config: " ++ e))

/-! ### Status -/

/-- What `rig_status` does once it has a configuration. -/
def rigStatusOf (config : RigToml Table) (baseDir : Path) : Exit :=
  match config.rig.lease with
  | some lease =>
    match readToken b.readToString lease.tokenFile baseDir with
    | .error e => .failure ("lease token: " ++ e)
    | .ok token =>
      match b.queryStatus lease.addr token with
      | .ok ⟨some holder, expiresInS⟩ =>
        .success ["held by '" ++ holder ++ "' (lease at " ++ lease.addr ++ ", expires in "
          ++ toString expiresInS.toNat ++ "s unless renewed)"]
      | .ok ⟨none, _⟩ => .success ["free (lease at " ++ lease.addr ++ ")"]
      | .error e =>
        .failure ("lease server " ++ lease.addr ++ " did not answer a status query: " ++ e
          ++ "\n(an older rig daemon predates status; the rig may still be usable)")
  | none =>
    let path := lockPath config.toRigConfig baseDir
    match b.flockStatus path with
    | .ok .free => .success ["free (flock at " ++ display path ++ ")"]
    | .ok (.held (some h)) =>
      .success ["held by '" ++ h.holder ++ "' (pid " ++ toString h.pid.toNat ++ ", since unix "
        ++ toString h.since.toNat ++ ", flock at " ++ display path ++ ")"]
    | .ok (.held none) =>
      .success ["held by an unidentified process (flock at " ++ display path ++ ")"]
    | .error e => .failure ("probing rig lock: " ++ e)

/-- `rig_status`. -/
def rigStatus : Exit :=
  match loadConfig b env currentDir with
  | .error e => e
  | .ok (config, baseDir) => rigStatusOf b config baseDir

/-! ### Doctor -/

/-- `split_paths`. -/
def splitPaths (path : OsString) : List Path := path.splitOn 0x3A

/-- `which_probe_rs`. -/
def whichProbeRs : Option Path := do
  let path ← b.path
  ((splitPaths path).map fun dir => join dir (utf8 "probe-rs")).find? b.isFile

/-- The checks of the lock. -/
def checkLock (config : RigToml Table) (baseDir : Path) (d : Doctor) : Doctor :=
  match config.rig.lease with
  | some lease =>
    d.check ("lease server " ++ lease.addr) (do
      let token ← readToken b.readToString lease.tokenFile baseDir
      let status ← b.queryStatus lease.addr token
      return match status.holder with
        | some h => "held by '" ++ h ++ "'"
        | none => "free")
  | none =>
    let path := lockPath config.toRigConfig baseDir
    d.check ("rig lock " ++ display path) ((b.flockStatus path).map fun
      | .free => "free"
      | .held (some h) => "held by '" ++ h.holder ++ "' (pid " ++ toString h.pid.toNat ++ ")"
      | .held none => "held by an unidentified process")

/-- The check of `probe-rs`. -/
def checkProbeRs (d : Doctor) : Doctor :=
  match whichProbeRs b with
  | some path => d.ok ("probe-rs at " ++ display path)
  | none => d.fail "probe-rs not on PATH"

/-- The check of the probe server. -/
def checkProbeHost (target : TargetConfig) (d : Doctor) : Doctor :=
  match target.probeHost with
  | some host =>
    d.check ("target '" ++ target.chip ++ "' probe server " ++ host)
      ((tcpReach b.net host).map fun _ => "")
  | none =>
    d.note ("target '" ++ target.chip
      ++ "': local USB probe (not probed; use `banc probe info`)")

/-- The check of its token. -/
def checkProbeToken (target : TargetConfig) (baseDir : Path) (d : Doctor) : Doctor :=
  match target.tokenFile with
  | some file =>
    d.check "target probe token" ((readToken b.readToString file baseDir).map fun _ => "")
  | none => d

/-- The checks of the target. -/
def checkTarget (config : RigToml Table) (baseDir : Path) (d : Doctor) : Doctor :=
  match config.target with
  | some target =>
    checkProbeToken b target baseDir (checkProbeHost b target (checkProbeRs b d))
  | none => d

/-- Whether files can be written to a directory. -/
def writable (dir : Path) : Except String Unit := do
  b.host.createDirAll dir
  let probe := join dir (utf8 ".banc-doctor")
  b.host.openFile probe
  b.removeFile probe

/-- The check of the artifacts directory. -/
def checkArtifacts (baseDir : Path) (d : Doctor) : Doctor :=
  let artifacts :=
    b.host.artifacts.getD (join (join baseDir (utf8 "target")) (utf8 "banc-artifacts"))
  d.check ("artifacts dir " ++ display artifacts) ((writable b artifacts).map fun _ => "")

/-- All checks of `doctor`. -/
def checks (config : RigToml Table) (baseDir : Path) : Doctor :=
  let start : Doctor := ⟨0, 0, []⟩
  let d := start.ok ("config: " ++ toString config.target.toList.length ++ " target, "
    ++ toString config.assistants.length ++ " assistant(s), "
    ++ toString config.instruments.length ++ " instrument(s)")
  let d := checkTarget b config baseDir (checkLock b config baseDir d)
  checkArtifacts b baseDir (d.nodes b.net config.toRigConfig b.readToString baseDir)

/-- `doctor`. -/
def doctor : Exit :=
  match loadConfig b env currentDir with
  | .error e => e
  | .ok (config, baseDir) =>
    let d := checks b config baseDir
    let name := config.rig.name.getD "unnamed"
    ⟨if d.failed = 0 then 0 else 1,
      ["banc doctor — rig '" ++ name ++ "' (" ++ display baseDir ++ ")"] ++ d.printed
        ++ [toString d.passed ++ " ok, " ++ toString d.failed ++ " failed"], []⟩

/-! ### Probe -/

/-- The arguments of `probe-rs`, with the token that has been read. -/
def probeArgs (target : TargetConfig) (verb : String) (rest : List String)
    (token : Option String) : List String :=
  [verb]
    ++ (if verb ≠ "list" then
        ["--chip", target.chip] ++ target.probe.toList.flatMap (fun probe => ["--probe", probe])
      else [])
    ++ target.probeHost.toList.flatMap (fun host => ["--host", host]
      ++ token.toList.flatMap (fun token => ["--token", token]))
    ++ rest

/-- The token of the probe server, which is read only where there is one. -/
def probeToken (target : TargetConfig) (baseDir : Path) : Except String (Option String) :=
  match target.probeHost, target.tokenFile with
  | some _, some file => (readToken b.readToString file baseDir).map some
  | _, _ => .ok none

/-- `probe`. -/
def probe (verb : String) (rest : List String) : Exit :=
  match loadConfig b env currentDir with
  | .error e => e
  | .ok (config, baseDir) =>
    match config.target with
    | none => .failure "rig config has no [target]; nothing to probe"
    | some target =>
      match probeToken b target baseDir with
      | .error e => .failure ("probe token: " ++ e)
      | .ok token =>
        match b.status (probeArgs target verb rest token) with
        | .ok (some code) => ⟨UInt8.ofNat (max 0 (min code 255)).toNat, [], []⟩
        | .ok none => .failure "probe-rs terminated by signal"
        | .error e =>
          .failure ("running probe-rs: " ++ e ++ " (is it installed and on PATH?)")

/-! ### Main -/

/-- `USAGE`. -/
def usage : String :=
  "banc — rig utilities for the banc HIL framework\n\nUSAGE:\n"
    ++ "    banc doctor                 check every element of the rig config\n"
    ++ "    banc rig status             who holds the rig right now\n"
    ++ "    banc probe <verb> [args..]  probe-rs against the configured target\n"
    ++ "                                (chip/probe/remote-host/token injected;\n"
    ++ "                                 verbs: reset, info, run, attach, erase, ...)\n\n"
    ++ "The rig config is located like suites locate it: $BANC_RIG, else\n"
    ++ "banc-rig.toml searched upward from the current directory."

/-- `main`. -/
def main : List String → Exit
  | ["doctor"] => doctor b env currentDir
  | ["rig", "status"] => rigStatus b env currentDir
  | "probe" :: verb :: rest => probe b env currentDir verb rest
  | ["--help"] | ["-h"] | ["help"] | [] => .success [usage]
  | other => ⟨2, [], ["unknown command: " ++ " ".intercalate other ++ "\n\n" ++ usage]⟩

end Commands

/-! ## The suite on the same machine -/

section Suite

variable {Table Addr : Type} (b : Bench Table Addr) (env : Env)
  (currentDir : Except String (List Path))

/-- What a suite has of the machine: the lock is another's to give. -/
def Bench.machine (acquireLease : String → String → String → ℕ → Except String Unit)
    (takeLock : Path → ℕ → Except String Unit) : Machine Table where
  isFile := b.isFile
  readToString := b.readToString
  fromStr text := (b.fromStr text).map RigToml.toRigConfig
  acquireLease := acquireLease
  takeLock := takeLock

/-- `Rig::target_token`. -/
def targetToken (readToString : Path → Except String String) (config : RigToml Table)
    (baseDir : Path) : Except String (Option String) :=
  match config.target with
  | none => .ok none
  | some target =>
    match target.tokenFile with
    | none => .ok none
    | some file => (readToken readToString file baseDir).map some

/-- **All that doctor checks holds.** -/
structure Bench.Sound (config : RigToml Table) (baseDir : Path) : Prop where
  lease : ∀ lease ∈ config.rig.lease, ∃ token,
    readToken b.readToString lease.tokenFile baseDir = .ok token
      ∧ ∃ status, b.queryStatus lease.addr token = .ok status
  flock : config.rig.lease = none →
    ∃ status, b.flockStatus (lockPath config.toRigConfig baseDir) = .ok status
  probeRs : config.target ≠ none → ∃ path, whichProbeRs b = some path
  probeHost : ∀ target ∈ config.target, ∀ host ∈ target.probeHost, tcpReach b.net host = .ok ()
  probeToken : ∀ target ∈ config.target, ∀ file ∈ target.tokenFile,
    ∃ token, readToken b.readToString file baseDir = .ok token
  assistants : ∀ a ∈ config.assistants, ∀ addr ∈ a.addr,
    a.reach b.net b.readToString baseDir addr = .ok ()
  instruments : ∀ i ∈ config.instruments, ∀ addr ∈ i.probed, tcpReach b.net addr = .ok ()
  artifacts : writable b (Rig.artifactsDir ⟨baseDir⟩ b.host) = .ok ()

/-- The lock was not given: the only way to fail that is left to `acquire`. -/
inductive NotGiven (m : Machine Table) (config : RigConfig Table) (baseDir : Path) :
    Acquire → Prop where
  | lease {lease : LeaseConfig} {token e : String} (hlease : config.rig.lease = some lease)
      (htoken : readToken m.readToString lease.tokenFile baseDir = .ok token)
      (he : m.acquireLease lease.addr token env.holderIdentity env.lockTimeout = .error e) :
      NotGiven m config baseDir (.fail ("acquiring rig lease: " ++ e))
  | flock {e : String} (hlease : config.rig.lease = none)
      (he : m.takeLock (lockPath config baseDir) env.lockTimeout = .error e) :
      NotGiven m config baseDir (.fail e)

/-- **What the suite may rely on** where doctor has checked this configuration, in this
directory, and found nothing wrong. -/
structure Bench.Vouched (m : Machine Table) (config : RigToml Table) (baseDir : Path) : Prop where
  /-- The rig it acquires is the one that was checked. -/
  rig : ∀ rig, acquire m env currentDir = .ok rig → rig = ⟨⟨baseDir⟩, config.toRigConfig⟩
  fails : ∀ e, acquire m env currentDir = .error e → NotGiven env m config.toRigConfig baseDir e
  /-- `banc rig status` has an answer. -/
  status : (rigStatus b env currentDir).code = 0
  /-- Its network assistants have their tokens, and are connected to. -/
  assistants : ∀ a ∈ config.assistants, ∀ addr ∈ a.addr,
    (∃ token, a.token b.readToString baseDir = .ok (some token))
      ∧ (PlainAddr addr → connectTcp b.net addr = .ok ())
  targetToken : ∃ token, targetToken b.readToString config baseDir = .ok token
  /-- `banc probe` gets as far as `probe-rs`, and exits with its code. -/
  probe : ∀ target ∈ config.target, ∃ token, ∀ verb rest code,
    b.status (probeArgs target verb rest token) = .ok (some code) → 0 ≤ code → code ≤ 255 →
      ((probe b env currentDir verb rest).code.toNat : ℤ) = code
  /-- The runner can create the directory for its evidence. -/
  artifacts : b.host.createDirAll (Rig.artifactsDir ⟨baseDir⟩ b.host) = .ok ()

end Suite

/-! ## Checks one after the other -/

/-- What checks come to: no failure is taken back, and none is added exactly if what is
checked holds. -/
structure Checks (f : Doctor → Doctor) (P : Prop) : Prop where
  le : ∀ d, d.failed ≤ (f d).failed
  iff : ∀ d, (f d).failed = d.failed ↔ P

/-- Two checks, one after the other: no failure is taken back by the second. -/
theorem Checks.comp {f g : Doctor → Doctor} {P Q : Prop} (hf : Checks f P) (hg : Checks g Q) :
    Checks (fun d => g (f d)) (P ∧ Q) := by
  refine ⟨fun d => (hf.le d).trans (hg.le (f d)), fun d => ?_⟩
  rw [← hf.iff d, ← hg.iff (f d)]
  refine ⟨fun h => ?_, fun h => h.2.trans h.1⟩
  -- what `g` adds to is what `f` has left
  have hfirst : (f d).failed = d.failed := (h ▸ hg.le (f d)).antisymm (hf.le d)
  exact ⟨hfirst, h.trans hfirst.symm⟩

/-- The same check, of what comes to the same. -/
theorem Checks.congr {f : Doctor → Doctor} {P Q : Prop} (hf : Checks f P) (h : P ↔ Q) :
    Checks f Q :=
  ⟨hf.le, fun d => (hf.iff d).trans h⟩

/-- What fails nothing checks nothing. -/
theorem Checks.of_eq {f : Doctor → Doctor} {P : Prop} (h : ∀ d, (f d).failed = d.failed)
    (hP : P) : Checks f P :=
  ⟨fun d => (h d).ge, fun d => iff_of_true (h d) hP⟩

/-- A single check fails exactly if what it checks has failed. -/
theorem checks_check (what : String) (r : Except String String) :
    Checks (fun d => d.check what r) (∃ detail, r = .ok detail) := by
  refine ⟨fun _ => Doctor.failed_le_check, fun d => ?_⟩
  cases r with
  | ok detail =>
    refine iff_of_true ?_ ⟨detail, rfl⟩
    show (if detail.isEmpty = true then d.ok what else d.ok (what ++ ": " ++ detail)).failed
      = d.failed
    split
    · rfl
    · rfl
  | error e => exact iff_of_false (Nat.succ_ne_self _) nofun

/-- A check that has nothing to say. -/
theorem checks_quiet {A : Type} (what : String) (r : Except String A) :
    Checks (fun d => d.check what (r.map fun _ => "")) (∃ a, r = .ok a) := by
  refine (checks_check what _).congr ?_
  cases r with
  | ok a => exact iff_of_true ⟨_, rfl⟩ ⟨a, rfl⟩
  | error e => exact iff_of_false nofun nofun

/-- There is nothing to say of a success that has no value. -/
theorem exists_unit_iff {r : Except String Unit} : (∃ u, r = .ok u) ↔ r = .ok () :=
  ⟨fun ⟨_, h⟩ => h, fun h => ⟨(), h⟩⟩

section Doctor

variable {Table Addr : Type} {b : Bench Table Addr} {config : RigToml Table} {baseDir : Path}

/-- The lock: the lease server answers, or the file can be looked at. -/
theorem checks_lock :
    Checks (checkLock b config baseDir)
      ((∀ lease ∈ config.rig.lease, ∃ token,
          readToken b.readToString lease.tokenFile baseDir = .ok token
            ∧ ∃ status, b.queryStatus lease.addr token = .ok status)
        ∧ (config.rig.lease = none →
            ∃ status, b.flockStatus (lockPath config.toRigConfig baseDir) = .ok status)) := by
  unfold checkLock
  cases config.rig.lease with
  | none =>
    refine (checks_check _ _).congr ?_
    cases b.flockStatus (lockPath config.toRigConfig baseDir) with
    | ok status => exact iff_of_true ⟨_, rfl⟩ ⟨nofun, fun _ => ⟨status, rfl⟩⟩
    | error e => exact iff_of_false nofun (fun h => absurd (h.2 rfl) nofun)
  | some lease =>
    refine (checks_check _ _).congr ⟨fun ⟨detail, h⟩ => ⟨?_, nofun⟩, fun h => ?_⟩
    · rintro _ ⟨⟩
      cases htoken : readToken b.readToString lease.tokenFile baseDir with
      | error e =>
        rw [htoken] at h
        exact absurd h error_ne_ok
      | ok token =>
        cases hstatus : b.queryStatus lease.addr token with
        | ok status => exact ⟨token, rfl, status, hstatus⟩
        | error e =>
          rw [htoken] at h
          change (b.queryStatus lease.addr token >>= _) = Except.ok detail at h
          rw [hstatus] at h
          exact absurd h error_ne_ok
    · obtain ⟨token, htoken, status, hstatus⟩ := h.1 lease rfl
      rw [htoken]
      change ∃ detail, (b.queryStatus lease.addr token >>= _) = Except.ok detail
      rw [hstatus]
      exact ⟨_, rfl⟩

/-- There is a `probe-rs` that can be started. -/
theorem checks_probeRs : Checks (checkProbeRs b) (∃ path, whichProbeRs b = some path) := by
  unfold checkProbeRs
  cases whichProbeRs b with
  | some path => exact .of_eq (fun _ => rfl) ⟨path, rfl⟩
  | none =>
    exact ⟨fun d => Nat.le_succ d.failed, fun d => iff_of_false (Nat.succ_ne_self _) nofun⟩

/-- The machine with the probe can be reached, if it is another. -/
theorem checks_probeHost {target : TargetConfig} :
    Checks (checkProbeHost b target) (∀ host ∈ target.probeHost, tcpReach b.net host = .ok ()) := by
  unfold checkProbeHost
  cases target.probeHost with
  | none => exact .of_eq (fun _ => rfl) (fun _ h => absurd h (Option.not_mem_none _))
  | some host =>
    refine (checks_quiet _ _).congr (exists_unit_iff.trans ⟨?_, fun h => h host rfl⟩)
    rintro h _ ⟨⟩
    exact h

/-- Its token can be read, if there is one. -/
theorem checks_probeToken {target : TargetConfig} :
    Checks (checkProbeToken b target baseDir)
      (∀ file ∈ target.tokenFile, ∃ token, readToken b.readToString file baseDir = .ok token) := by
  unfold checkProbeToken
  cases target.tokenFile with
  | none => exact .of_eq (fun _ => rfl) (fun _ h => absurd h (Option.not_mem_none _))
  | some file =>
    refine (checks_quiet _ _).congr ⟨?_, fun h => h file rfl⟩
    rintro h _ ⟨⟩
    exact h

/-- The three together, if there is a device under test. -/
theorem checks_target :
    Checks (checkTarget b config baseDir)
      ((config.target ≠ none → ∃ path, whichProbeRs b = some path)
        ∧ (∀ target ∈ config.target, ∀ host ∈ target.probeHost, tcpReach b.net host = .ok ())
        ∧ ∀ target ∈ config.target, ∀ file ∈ target.tokenFile,
            ∃ token, readToken b.readToString file baseDir = .ok token) := by
  unfold checkTarget
  cases config.target with
  | none =>
    have hnone {P : TargetConfig → Prop} : ∀ target ∈ (none : Option TargetConfig), P target :=
      fun _ h => absurd h (Option.not_mem_none _)
    exact .of_eq (fun _ => rfl) ⟨fun h => absurd rfl h, hnone, hnone⟩
  | some target =>
    refine ((checks_probeRs.comp checks_probeHost).comp checks_probeToken).congr ?_
    constructor
    · rintro ⟨⟨hprobeRs, hhost⟩, htoken⟩
      refine ⟨fun _ => hprobeRs, ?_, ?_⟩
      · rintro _ ⟨⟩
        exact hhost
      · rintro _ ⟨⟩
        exact htoken
    · rintro ⟨hprobeRs, hhost, htoken⟩
      exact ⟨⟨hprobeRs (Option.some_ne_none target), hhost target rfl⟩, htoken target rfl⟩

/-- Each node can be reached, as far as that can be told from here. -/
theorem checks_nodes {c : RigConfig Table} :
    Checks (fun d => d.nodes b.net c b.readToString baseDir)
      ((∀ a ∈ c.assistants, ∀ addr ∈ a.addr,
          a.reach b.net b.readToString baseDir addr = .ok ())
        ∧ ∀ i ∈ c.instruments, ∀ addr ∈ i.probed, tcpReach b.net addr = .ok ()) := by
  refine ⟨fun d => ?_, fun d => Doctor.failed_nodes_iff⟩
  obtain ⟨hassistants, -⟩ := @Doctor.failed_foldl_iff _
    (Doctor.assistant b.net b.readToString baseDir) _ (fun _ _ => Doctor.failed_le_assistant)
    (fun _ _ => Doctor.failed_assistant_iff) c.assistants d
  obtain ⟨hinstruments, -⟩ := @Doctor.failed_foldl_iff _ (Doctor.instrument b.net) _
    (fun _ _ => Doctor.failed_le_instrument) (fun _ _ => Doctor.failed_instrument_iff)
    c.instruments (c.assistants.foldl (Doctor.assistant b.net b.readToString baseDir) d)
  exact hassistants.trans hinstruments

/-- Files can be made where the evidence goes. -/
theorem checks_artifacts :
    Checks (checkArtifacts b baseDir)
      (writable b (Rig.artifactsDir ⟨baseDir⟩ b.host) = .ok ()) := by
  exact (checks_quiet _ _).congr exists_unit_iff

/-- **Nothing fails exactly if all that is checked holds.** -/
theorem failed_checks_iff : (checks b config baseDir).failed = 0 ↔ b.Sound config baseDir := by
  have hall := ((@checks_lock _ _ b config baseDir).comp (@checks_target _ _ b config baseDir)).comp
    ((@checks_nodes _ _ b baseDir config.toRigConfig).comp (@checks_artifacts _ _ b baseDir))
  refine (hall.iff _).trans ⟨?_, fun h => ?_⟩
  · rintro ⟨⟨⟨hlease, hflock⟩, hprobeRs, hhost, htoken⟩, ⟨hassistants, hinstruments⟩, hartifacts⟩
    exact ⟨hlease, hflock, hprobeRs, hhost, htoken, hassistants, hinstruments, hartifacts⟩
  · exact ⟨⟨⟨h.lease, h.flock⟩, h.probeRs, h.probeHost, h.probeToken⟩,
      ⟨h.assistants, h.instruments⟩, h.artifacts⟩

end Doctor

/-! ## The configuration that is checked -/

section Loading

variable {Table Addr : Type} {b : Bench Table Addr} {env : Env}
  {currentDir : Except String (List Path)} {config : RigToml Table} {baseDir : Path}
  {acquireLease : String → String → String → ℕ → Except String Unit}
  {takeLock : Path → ℕ → Except String Unit}

/-- A failure is neither a success nor the absence of a rig. -/
theorem failure_code (e : String) :
    (Exit.failure e).code ≠ 0 ∧ (Exit.failure e).code ≠ 2 := by
  show (1 : UInt8) ≠ 0 ∧ (1 : UInt8) ≠ 2
  decide

/-- The configuration is found, and can be loaded. -/
theorem loadConfig_eq_ok_iff :
    loadConfig b env currentDir = .ok (config, baseDir)
      ↔ ∃ path, (locate b.isFile env currentDir).1 = .ok (some path)
          ∧ b.load path = .ok config ∧ baseDir = (parent path).getD (utf8 ".") := by
  unfold loadConfig
  cases (locate b.isFile env currentDir).1 with
  | error e => exact iff_of_false nofun nofun
  | ok found =>
    cases found with
    | none => exact iff_of_false nofun nofun
    | some path =>
      dsimp only
      cases hload : b.load path with
      | error e =>
        refine iff_of_false nofun ?_
        rintro ⟨_, ⟨⟩, hok, -⟩
        exact absurd (hload.symm.trans hok) error_ne_ok
      | ok config' =>
        constructor
        · intro h
          obtain ⟨rfl, rfl⟩ := Prod.mk.inj (Except.ok.inj h)
          exact ⟨path, rfl, hload, rfl⟩
        · rintro ⟨_, ⟨⟩, hok, rfl⟩
          rw [hload] at hok
          exact congrArg (fun config => Except.ok (config, _)) (Except.ok.inj hok)

/-- The code 2 is that of a machine without a rig, and 0 is none of an error. -/
theorem loadConfig_error {e : Exit} (h : loadConfig b env currentDir = .error e) :
    e.code ≠ 0 ∧ (e.code = 2 ↔ (locate b.isFile env currentDir).1 = .ok none) := by
  unfold loadConfig at h
  cases hlocate : (locate b.isFile env currentDir).1 with
  | error e' =>
    rw [hlocate] at h
    obtain rfl := Except.error.inj h
    exact ⟨(failure_code _).1, iff_of_false (failure_code _).2 nofun⟩
  | ok found =>
    rw [hlocate] at h
    cases found with
    | none =>
      obtain rfl := Except.error.inj h
      exact ⟨by decide, iff_of_true rfl rfl⟩
    | some path =>
      dsimp only at h
      cases hload : b.load path with
      | ok config =>
        rw [hload] at h
        exact absurd h nofun
      | error e' =>
        rw [hload] at h
        obtain rfl := Except.error.inj h
        exact ⟨(failure_code _).1, iff_of_false (failure_code _).2 nofun⟩

/-- The suite loads what the command does. -/
theorem load_machine (path : Path) :
    Banc.load (b.machine acquireLease takeLock) path
      = (b.load path).map RigToml.toRigConfig := by
  unfold Banc.load Bench.load
  show (b.readToString path >>= _) = (b.readToString path >>= _).map _
  cases b.readToString path with
  | error e => rfl
  | ok text =>
    show ((((b.fromStr text).map RigToml.toRigConfig).mapError _) >>= _)
      = (((b.fromStr text).mapError _) >>= _).map _
    cases b.fromStr text with
    | error e => rfl
    | ok config =>
      show ((config.validate.mapError _) >>= _) = ((config.validate.mapError _) >>= _).map _
      cases config.validate with
      | error e => rfl
      | ok u => rfl

/-- Loading has validated it. -/
theorem validate_of_load {path : Path} (h : b.load path = .ok config) :
    config.validate = .ok () := by
  unfold Bench.load at h
  cases htext : b.readToString path with
  | error e =>
    rw [htext] at h
    exact absurd h error_ne_ok
  | ok text =>
    rw [htext] at h
    change (((b.fromStr text).mapError _) >>= _) = _ at h
    cases hconfig : b.fromStr text with
    | error e =>
      rw [hconfig] at h
      exact absurd h error_ne_ok
    | ok config' =>
      rw [hconfig] at h
      change ((config'.validate.mapError _) >>= _) = _ at h
      cases hvalidate : config'.validate with
      | error e =>
        rw [hvalidate] at h
        exact absurd h error_ne_ok
      | ok u =>
        rw [hvalidate] at h
        obtain rfl := Except.ok.inj h
        exact hvalidate

/-- The suite is skipped where there is no configuration. -/
theorem acquire_eq_skip_iff {m : Machine Table} :
    (∃ reason, acquire m env currentDir = .error (.skip reason))
      ↔ (locate m.isFile env currentDir).1 = .ok none := by
  unfold acquire
  cases (locate m.isFile env currentDir).1 with
  | error e => exact iff_of_false nofun nofun
  | ok found =>
    cases found with
    | none => exact iff_of_true ⟨_, rfl⟩ rfl
    | some path =>
      refine iff_of_false ?_ nofun
      rintro ⟨reason, h⟩
      dsimp only at h
      cases hrig : acquireFrom m env path with
      | ok rig =>
        rw [hrig] at h
        exact absurd h nofun
      | error e =>
        rw [hrig] at h
        exact absurd h nofun

/-- With a configuration, all that is left to `acquire` is the lock. -/
theorem acquire_of_loadConfig (h : loadConfig b env currentDir = .ok (config, baseDir)) :
    acquire (b.machine acquireLease takeLock) env currentDir
      = ((takeExclusive (b.machine acquireLease takeLock) env config.toRigConfig baseDir).map
          (fun _ => ⟨⟨baseDir⟩, config.toRigConfig⟩)).mapError .fail := by
  obtain ⟨path, hlocate, hload, rfl⟩ := loadConfig_eq_ok_iff.mp h
  unfold acquire
  rw [show (b.machine acquireLease takeLock).isFile = b.isFile from rfl, hlocate]
  dsimp only
  refine congrArg (Except.mapError Acquire.fail) ?_
  unfold acquireFrom
  rw [load_machine, hload]
  show (takeExclusive _ env config.toRigConfig _ >>= _) = _
  cases takeExclusive (b.machine acquireLease takeLock) env config.toRigConfig
      ((parent path).getD (utf8 ".")) with
  | ok u => rfl
  | error e => rfl

/-! ## What doctor vouches for -/

/-- `banc rig status` of a rig that is configured: never 2, and 0 if the rig is sound. -/
theorem code_rigStatusOf :
    (rigStatusOf b config baseDir).code ≠ 2
      ∧ (b.Sound config baseDir → (rigStatusOf b config baseDir).code = 0) := by
  have hsuccess (lines : List String) {P : Prop} :
      (Exit.success lines).code ≠ 2 ∧ (P → (Exit.success lines).code = 0) :=
    ⟨by show (0 : UInt8) ≠ 2; decide, fun _ => rfl⟩
  unfold rigStatusOf
  cases hlease : config.rig.lease with
  | some lease =>
    dsimp only
    cases htoken : readToken b.readToString lease.tokenFile baseDir with
    | error e =>
      refine ⟨(failure_code _).2, fun hsound => ?_⟩
      obtain ⟨token, h, -⟩ := hsound.lease lease hlease
      exact absurd (htoken.symm.trans h) error_ne_ok
    | ok token =>
      dsimp only
      cases hstatus : b.queryStatus lease.addr token with
      | ok status =>
        obtain ⟨holder, expiresInS⟩ := status
        cases holder with
        | none => exact hsuccess _
        | some holder => exact hsuccess _
      | error e =>
        refine ⟨(failure_code _).2, fun hsound => ?_⟩
        obtain ⟨token', h, status, hok⟩ := hsound.lease lease hlease
        obtain rfl := Except.ok.inj (htoken.symm.trans h)
        exact absurd (hstatus.symm.trans hok) nofun
  | none =>
    dsimp only
    cases hstatus : b.flockStatus (lockPath config.toRigConfig baseDir) with
    | ok status =>
      cases status with
      | free => exact hsuccess _
      | held holder =>
        cases holder with
        | none => exact hsuccess _
        | some holder => exact hsuccess _
    | error e =>
      refine ⟨(failure_code _).2, fun hsound => ?_⟩
      obtain ⟨status, h⟩ := hsound.flock hlease
      exact absurd (hstatus.symm.trans h) nofun

/-- **What doctor's exit code says**: 2 that there is no rig, and 0 that it is sound. -/
theorem doctor_code :
    ((doctor b env currentDir).code = 2 ↔ (locate b.isFile env currentDir).1 = .ok none)
      ∧ ((doctor b env currentDir).code = 0
          ↔ ∃ config baseDir, loadConfig b env currentDir = .ok (config, baseDir)
            ∧ b.Sound config baseDir) := by
  cases hload : loadConfig b env currentDir with
  | error e =>
    have hdoctor : doctor b env currentDir = e := by
      unfold doctor
      rw [hload]
    rw [hdoctor]
    obtain ⟨hzero, htwo⟩ := loadConfig_error hload
    exact ⟨htwo, iff_of_false hzero (fun ⟨_, _, h, _⟩ => nomatch h)⟩
  | ok loaded =>
    obtain ⟨config, baseDir⟩ := loaded
    have hfound : (locate b.isFile env currentDir).1 ≠ .ok none := by
      obtain ⟨path, hlocate, -⟩ := loadConfig_eq_ok_iff.mp hload
      rw [hlocate]
      nofun
    by_cases hsound : b.Sound config baseDir
    · have hcode : (doctor b env currentDir).code = 0 := by
        unfold doctor
        rw [hload]
        exact if_pos (failed_checks_iff.mpr hsound)
      rw [hcode]
      exact ⟨iff_of_false (by decide) hfound, iff_of_true rfl ⟨config, baseDir, rfl, hsound⟩⟩
    · have hcode : (doctor b env currentDir).code = 1 := by
        unfold doctor
        rw [hload]
        exact if_neg (fun h => hsound (failed_checks_iff.mp h))
      rw [hcode]
      refine ⟨iff_of_false (by decide) hfound, iff_of_false (by decide) ?_⟩
      rintro ⟨config', baseDir', hload', hsound'⟩
      obtain ⟨rfl, rfl⟩ := Prod.mk.inj (Except.ok.inj hload')
      exact hsound hsound'

/-- The status says 2 where doctor does. -/
theorem rigStatus_code :
    (rigStatus b env currentDir).code = 2 ↔ (locate b.isFile env currentDir).1 = .ok none := by
  unfold rigStatus
  cases hload : loadConfig b env currentDir with
  | error e => exact (loadConfig_error hload).2
  | ok loaded =>
    obtain ⟨config, baseDir⟩ := loaded
    obtain ⟨path, hlocate, -⟩ := loadConfig_eq_ok_iff.mp hload
    refine iff_of_false code_rigStatusOf.1 (fun h => ?_)
    exact absurd (hlocate.symm.trans h) nofun

/-- With the token read, it is the lock that is not given. -/
theorem notGiven_of_takeExclusive (hsound : b.Sound config baseDir) {e : String}
    (h : takeExclusive (b.machine acquireLease takeLock) env config.toRigConfig baseDir
      = .error e) :
    NotGiven env (b.machine acquireLease takeLock) config.toRigConfig baseDir (.fail e) := by
  unfold takeExclusive at h
  cases hlease : config.rig.lease with
  | none =>
    rw [hlease] at h
    exact .flock hlease h
  | some lease =>
    obtain ⟨token, htoken, -⟩ := hsound.lease lease hlease
    rw [hlease] at h
    change (readToken b.readToString lease.tokenFile baseDir >>= _) = _ at h
    rw [htoken] at h
    change (acquireLease lease.addr token env.holderIdentity env.lockTimeout).mapError _ = _ at h
    cases hacquire : acquireLease lease.addr token env.holderIdentity env.lockTimeout with
    | ok u =>
      rw [hacquire] at h
      exact absurd h nofun
    | error e' =>
      rw [hacquire] at h
      obtain rfl := Except.error.inj h
      exact .lease hlease htoken hacquire

/-- A network assistant that is reached has its token. -/
theorem token_of_reach {a : AssistantConfig} (ha : a.Runnable) {addr : String}
    (haddr : addr ∈ a.addr) (h : a.reach b.net b.readToString baseDir addr = .ok ()) :
    ∃ token, a.token b.readToString baseDir = .ok (some token) := by
  obtain ⟨file, hfile⟩ := Option.ne_none_iff_exists'.mp (ha.network addr haddr).2.1
  unfold AssistantConfig.reach at h
  unfold AssistantConfig.token
  rw [hfile] at h ⊢
  dsimp only
  cases htoken : readToken b.readToString file baseDir with
  | ok token => exact ⟨token, rfl⟩
  | error e =>
    rw [Option.map_some, Option.getD_some, htoken] at h
    exact absurd h error_ne_ok

/-- Where files can be made the directory can. -/
theorem createDirAll_of_writable {dir : Path} (h : writable b dir = .ok ()) :
    b.host.createDirAll dir = .ok () := by
  unfold writable at h
  exact (bind_eq_ok_iff.mp h).1

/-- A sound bench has a token for its probe, or needs none. -/
theorem Bench.Sound.exists_probeToken (hsound : b.Sound config baseDir) {target : TargetConfig}
    (htarget : target ∈ config.target) : ∃ token, Cli.probeToken b target baseDir = .ok token := by
  unfold Cli.probeToken
  split
  · rename_i host file hhost hfile
    obtain ⟨token, htoken⟩ := hsound.probeToken target htarget file hfile
    rw [htoken]
    exact ⟨some token, rfl⟩
  · exact ⟨none, rfl⟩

/-- **Where nothing fails, the suite may rely on it.** -/
theorem Bench.Sound.vouched (hload : loadConfig b env currentDir = .ok (config, baseDir))
    (hsound : b.Sound config baseDir) :
    b.Vouched env currentDir (b.machine acquireLease takeLock) config baseDir where
  rig rig h := by
    rw [acquire_of_loadConfig hload] at h
    cases htake : takeExclusive (b.machine acquireLease takeLock) env config.toRigConfig
        baseDir with
    | ok u =>
      rw [htake] at h
      exact (Except.ok.inj h).symm
    | error e =>
      rw [htake] at h
      exact absurd h nofun
  fails e h := by
    rw [acquire_of_loadConfig hload] at h
    cases htake : takeExclusive (b.machine acquireLease takeLock) env config.toRigConfig
        baseDir with
    | ok u =>
      rw [htake] at h
      exact absurd h nofun
    | error e' =>
      rw [htake] at h
      obtain rfl := Except.error.inj h
      exact notGiven_of_takeExclusive hsound htake
  status := by
    unfold rigStatus
    rw [hload]
    exact code_rigStatusOf.2 hsound
  assistants a ha addr haddr := by
    obtain ⟨path, -, hpath, -⟩ := loadConfig_eq_ok_iff.mp hload
    have hrunnable := (RigConfig.validate_eq_ok_iff.mp (validate_of_load hpath)).assistants a ha
    have hreach := hsound.assistants a ha addr haddr
    refine ⟨token_of_reach hrunnable haddr hreach, fun hplain => ?_⟩
    exact connectTcp_of_tcpReach (hostport_eq_iff.mpr hplain)
      (AssistantConfig.tcpReach_of_reach hreach)
  targetToken := by
    unfold targetToken
    cases htarget : config.target with
    | none => exact ⟨none, rfl⟩
    | some target =>
      dsimp only
      cases hfile : target.tokenFile with
      | none => exact ⟨none, rfl⟩
      | some file =>
        dsimp only
        obtain ⟨token, htoken⟩ := hsound.probeToken target htarget file hfile
        exact ⟨some token, by rw [htoken]; rfl⟩
  probe target htarget := by
    obtain ⟨token, htoken⟩ := hsound.exists_probeToken htarget
    refine ⟨token, fun verb rest code hstatus hpos hle => ?_⟩
    unfold Cli.probe
    rw [hload]
    dsimp only
    rw [Option.mem_def.mp htarget]
    dsimp only
    rw [htoken]
    dsimp only
    rw [hstatus]
    dsimp only
    rw [min_eq_left hle, max_eq_right hpos, UInt8.toNat_ofNat']
    omega
  artifacts := createDirAll_of_writable hsound.artifacts

end Loading

/-- **What doctor vouches for.** On one machine, whatever it has, doctor is run, and a suite
whose lock is given or not:

* doctor and `banc rig status` exit with code 2 exactly if the suite skips its tests;
* doctor exits with code 0 exactly if there is a configuration, and all that is checked of
  it holds;
* and then the rig that the suite acquires is the one that was checked; it may fail to
  acquire it only by not being given the lock; its assistants on the network have their
  tokens and, where their addresses are plain, are connected to; it has the target's
  token, and a directory for its artifacts; and `banc probe` passes on what `probe-rs`
  exits with. -/
theorem doctor_vouches {Table Addr : Type} (b : Bench Table Addr) (env : Env)
    (currentDir : Except String (List Path))
    (acquireLease : String → String → String → ℕ → Except String Unit)
    (takeLock : Path → ℕ → Except String Unit) :
    ((doctor b env currentDir).code = 2
        ↔ ∃ reason, acquire (b.machine acquireLease takeLock) env currentDir
            = .error (.skip reason))
      ∧ ((rigStatus b env currentDir).code = 2
          ↔ ∃ reason, acquire (b.machine acquireLease takeLock) env currentDir
              = .error (.skip reason))
      ∧ ((doctor b env currentDir).code = 0
          ↔ ∃ config baseDir, loadConfig b env currentDir = .ok (config, baseDir)
            ∧ b.Sound config baseDir)
      ∧ ∀ config baseDir, loadConfig b env currentDir = .ok (config, baseDir) →
          b.Sound config baseDir →
          b.Vouched env currentDir (b.machine acquireLease takeLock) config baseDir := by
  have hskip := @acquire_eq_skip_iff Table env currentDir (b.machine acquireLease takeLock)
  refine ⟨doctor_code.1.trans hskip.symm, rigStatus_code.trans hskip.symm, doctor_code.2,
    fun config baseDir hload hsound => hsound.vouched hload⟩

/-! ### A healthy bench -/

/-- A rig with a target, an assistant on the network and an instrument; all of them
answer, and the rig is free. -/
def healthy : Bench Unit Unit where
  isFile _ := true
  readToString _ := .ok "secret"
  fromStr _ := .ok
    { rig := ⟨some "bench", none, none⟩
      assistants := [⟨"a0", none, none, some "10.0.0.2:7000", some (utf8 "token"), none⟩]
      instruments := [⟨"att", "rcdat", some "10.0.0.3:23", ()⟩]
      target := some ⟨"STM32WL55JCIx", none, some "https://pi:3000", some (utf8 "probe")⟩ }
  net := answering
  queryStatus _ _ := .error "connection refused"
  flockStatus _ := .ok .free
  host := { createDirAll := fun _ => .ok (), openFile := fun _ => .ok (), artifacts := none }
  removeFile _ := .ok ()
  path := some (utf8 "/usr/bin")
  status _ := .ok (some 0)

/-- Nothing is set in the environment. -/
def nothingSet : Env := ⟨none, none, none, none, 1⟩

/-- **Doctor exits 0**, and the suite acquires what was checked. -/
theorem healthy_vouched :
    (doctor healthy nothingSet (.ok [])).code = 0
      ∧ ∃ config baseDir, healthy.Vouched nothingSet (.ok [])
          (healthy.machine (fun _ _ _ _ => .error "no lease") (fun _ _ => .ok ())) config
          baseDir := by
  have hcode : (doctor healthy nothingSet (.ok [])).code = 0 := by decide +kernel
  obtain ⟨-, -, hzero, hvouched⟩ := doctor_vouches healthy nothingSet (.ok [])
    (fun _ _ _ _ => .error "no lease") (fun _ _ => .ok ())
  obtain ⟨config, baseDir, hload, hsound⟩ := hzero.mp hcode
  exact ⟨hcode, config, baseDir, hvouched config baseDir hload hsound⟩

end Cli

end Banc
