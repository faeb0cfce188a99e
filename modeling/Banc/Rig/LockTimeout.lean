import Banc.Lib.Instant
import Banc.Lib.Waiting
import Banc.Net.Handshake
import Banc.Net.Lease.Client
import Banc.Net.Lease.Wire
import Banc.Rig.Acquire
import Banc.Rig.Note

/-!
# The lock timeout

`Rig::acquire` once more, with the insides of `RigLock::take`
(`banc-host/src/rig.rs`) and of `LeaseClient::acquire` (`banc-host/src/net/lease.rs`).
Either sets a deadline, at the timeout from now, and asks for the rig in rounds until
it gets it or the deadline has passed.

The timeout is whatever `BANC_LOCK_TIMEOUT_SECS` says, if it is a `u64`, and the
deadline is the sum of that and the present instant, which panics where it is no
instant. `acquire` then returns neither a rig nor a reason. In a build with debug
assertions there is another way not to return, which is to send a frame beyond the
limit. There is no third: apart from these two, a rig is acquired, skipped, or failed to
be acquired, after so many rounds (`sound_iff`).
-/

namespace Banc

open Fs Postcard Waiting

/-- How long `take` sleeps between two rounds, in nanoseconds; `LeaseClient::acquire`
sleeps longer. -/
def lockPause : ℕ := 200000000

/-- What there is outside of the process, and outside of the loops. -/
structure World (Table : Type) where
  /-- `Path::is_file`. -/
  isFile : Path → Bool
  /-- `std::fs::read_to_string`. -/
  readToString : Path → Except String String
  /-- `toml::from_str`. -/
  fromStr : String → Except String (RigConfig Table)
  debugAssertions : Bool
  /-- `Instant::now()`, when the deadline is set. -/
  started : Instants.Instant
  /-- `Instant::now()`, in each round. -/
  clock : Instants.Clock lockPause
  /-- `std::fs::create_dir_all`. -/
  createDirAll : Path → Except String Unit
  /-- `OpenOptions::open`, of the lock file. -/
  openOptions : Path → Except String Unit
  /-- `try_lock_exclusive`, in each round. -/
  tryLockExclusive : ℕ → Except String Bool
  /-- `read_lock_holder`. -/
  readLockHolder : Path → Option LockHolder
  /-- `connect_timeout`, and the options of the stream. -/
  connectTimeout : String → Except String Unit
  /-- What comes of the handshake, once the `Hello` is written. -/
  handshake : Except String Unit
  /-- What comes of the Acquire, once it is written, in each round. -/
  roundtrip : ℕ → Except String LeaseReply
  /-- `std::thread::Builder::spawn`. -/
  spawn : Except String Unit
  /-- The `Debug` text of a reply. -/
  debug : LeaseReply → String

/-- The `Debug` text of a `Duration` of whole seconds. -/
def debugSecs (secs : UInt64) : String := if secs = 0 then "0ns" else toString secs.toNat ++ "s"

/-- The holder, in the error of `take`. -/
def heldBy : Option LockHolder → String
  | some h => "'" ++ h.holder ++ "' (pid " ++ toString h.pid.toNat ++ ", since unix "
      ++ toString h.since.toNat ++ ")"
  | none => "an unidentified process"

namespace World

variable {Table : Type} (w : World Table)

/-- `Instant::now() + timeout`. -/
def deadline (timeout : UInt64) : Blocking String Instants.Instant :=
  match w.started.checkedAdd (.fromSecs timeout) with
  | some deadline => .ok deadline
  | none => .panicked

/-- The `debug_assert!` of `write_frame_sync`. -/
def send (payload : List UInt8) : Blocking String Unit :=
  match Io.blocking.writeFrame w.debugAssertions payload with
  | some _ => .ok ()
  | none => .panicked

/-! ## The flock -/

/-- Create the lock file, or open it. -/
def openLock (path : Path) : Except String Unit :=
  ((parent path).elim (.ok ()) w.createDirAll) >>= fun _ =>
    (w.openOptions path).mapError fun e => "creating rig lock " ++ display path ++ ": " ++ e

/-- One round of `RigLock::take`. -/
def lockRound (path : Path) (timeout : UInt64) (deadline : Instants.Instant) (k : ℕ) :
    Blocking String Unit :=
  match w.tryLockExclusive k with
  | .error e => .error e
  -- the holder note is written as well as it goes
  | .ok true => .ok ()
  | .ok false =>
    if deadline ≤ w.clock.reading k then
      .error ("rig lock " ++ display path ++ " held by " ++ heldBy (w.readLockHolder path)
        ++ " for over " ++ debugSecs timeout ++ "; if that pid is wedged, end it (killing the "
        ++ "process releases the flock) — deleting the lock file frees nothing")
    else .waiting

/-- `RigLock::take`. -/
def takeLock (path : Path) (timeout : UInt64) (rounds : ℕ) : Blocking String Unit :=
  (Blocking.ofExcept (w.openLock path)).andThen fun _ =>
    (w.deadline timeout).andThen fun deadline => wait (w.lockRound path timeout deadline) rounds 0

/-! ## The lease -/

/-- `connect`: the connection, and the handshake on it. -/
def connect (addr token : String) : Blocking String Unit :=
  (Blocking.ofExcept (w.connectTimeout addr)).andThen fun _ =>
    (w.send (Hello.toPostcard ⟨netVersion, .lease, token⟩)).andThen fun _ =>
      Blocking.ofExcept w.handshake

/-- What the loop of `LeaseClient::acquire` makes of a reply. -/
def leaseReply (timeout : UInt64) (deadline : Instants.Instant) (k : ℕ) :
    LeaseReply → Blocking String Unit
  -- the loop ends, and the thread that renews is spawned
  | .granted _ => .ofExcept w.spawn
  | .busy other expiresInS =>
    if deadline ≤ w.clock.reading k then
      .error ("rig lease held by '" ++ other ++ "' (expires in " ++ toString expiresInS.toNat
        ++ "s), gave up after " ++ debugSecs timeout)
    else .waiting
  | other => .error ("unexpected reply to Acquire: " ++ w.debug other)

/-- One round of it. -/
def leaseRound (holder : String) (timeout : UInt64) (deadline : Instants.Instant) (k : ℕ) :
    Blocking String Unit :=
  (w.send (acquireRequest holder).toPostcard).andThen fun _ =>
    (Blocking.ofExcept (w.roundtrip k)).andThen (w.leaseReply timeout deadline k)

/-- `LeaseClient::acquire`. -/
def acquireLease (addr token holder : String) (timeout : UInt64) (rounds : ℕ) :
    Blocking String Unit :=
  (w.deadline timeout).andThen fun deadline =>
    (w.connect addr token).andThen fun _ => wait (w.leaseRound holder timeout deadline) rounds 0

/-! ## The rig -/

/-- The machine on which the calls return what they do here, after so many rounds. -/
def machine (rounds : ℕ) : Machine Table where
  isFile := w.isFile
  readToString := w.readToString
  fromStr := w.fromStr
  acquireLease addr token holder timeout :=
    (w.acquireLease addr token holder (.ofNat timeout) rounds).returned.getD (.error "")
  takeLock path timeout := (w.takeLock path (.ofNat timeout) rounds).returned.getD (.error "")

/-- `RigConfig::load`. -/
def load (path : Path) : Except String (RigConfig Table) := Banc.load (w.machine 0) path

variable (env : Env)

/-- The timeout that `acquire` passes on. -/
def timeout : UInt64 := .ofNat env.lockTimeout

/-- The lease where the configuration has a lease server, or else the flock. -/
def takeExclusive (config : RigConfig Table) (baseDir : Path) (rounds : ℕ) : Blocking String Unit :=
  match config.rig.lease with
  | some lease =>
    (Blocking.ofExcept (readToken w.readToString lease.tokenFile baseDir)).andThen fun token =>
      (w.acquireLease lease.addr token env.holderIdentity (timeout env) rounds).mapError
        fun e => "acquiring rig lease: " ++ e
  | none => w.takeLock (lockPath config baseDir) (timeout env) rounds

/-- The directory that paths in a configuration start from. -/
def baseDir (path : Path) : Path := (parent path).getD (utf8 ".")

/-- `acquire`, when the configuration has been located. -/
def acquireFrom (path : Path) (rounds : ℕ) : Blocking String (ConfiguredRig Table) :=
  (Blocking.ofExcept (w.load path)).andThen fun config =>
    (w.takeExclusive env config (baseDir path) rounds).map fun _ => ⟨⟨baseDir path⟩, config⟩

/-- `Rig::acquire`. -/
def acquire (currentDir : Except String (List Path)) (rounds : ℕ) :
    Blocking Acquire (ConfiguredRig Table) :=
  match (locate w.isFile env currentDir).1 with
  | .error e => .error (.fail e)
  | .ok none =>
    .error (.skip ("no rig: " ++ configFile
      ++ " not found (set BANC_RIG or create one to run on hardware)"))
  | .ok (some path) => (w.acquireFrom env path rounds).mapError .fail

end World

/-! ## The deadline -/

/-- The timeout is a `u64`. -/
theorem Env.lockTimeout_lt (env : Env) : env.lockTimeout < 2 ^ 64 := by
  have hparse : ∀ s n, parseU64 s = some n → n < 2 ^ 64 := by
    intro s n h
    unfold parseU64 at h
    extract_lets digits at h
    split at h
    case isTrue =>
      split at h
      case isTrue hlt => exact Option.some.inj h ▸ hlt
      case isFalse => exact absurd h.symm (Option.some_ne_none n)
    case isFalse => exact absurd h.symm (Option.some_ne_none n)
  unfold Env.lockTimeout
  cases h : (envVar env.bancLockTimeoutSecs).bind parseU64 with
  | none => exact Nat.lt_of_sub_pos (by decide)
  | some n =>
    obtain ⟨s, -, hs⟩ := Option.bind_eq_some_iff.mp h
    exact hparse s n hs

theorem World.toNat_timeout (env : Env) : (World.timeout env).toNat = env.lockTimeout :=
  UInt64.toNat_ofNat_of_lt' env.lockTimeout_lt

namespace World

variable {Table : Type} {w : World Table} {env : Env} {currentDir : Except String (List Path)}

/-- **There is a deadline** if the seconds are those of an instant. -/
theorem isSome_deadline_iff :
    (w.deadline (timeout env)).returned.isSome = true
      ↔ w.started.secs.toInt + env.lockTimeout < 2 ^ 63 := by
  rw [← toNat_timeout, ← Instants.Instant.isSome_checkedAdd_fromSecs_iff]
  unfold deadline
  cases w.started.checkedAdd (.fromSecs (timeout env)) with
  | none => rfl
  | some deadline => rfl

/-- The assertion of the writer holds of what fits a frame. -/
theorem send_eq_ok_iff {payload : List UInt8} :
    w.send payload = .ok () ↔ (w.debugAssertions = true → payload.length ≤ maxFrame) := by
  by_cases hfits : payload.length ≤ maxFrame
  · refine iff_of_true ?_ fun _ => hfits
    rw [send, Io.blocking.writeFrame_eq hfits]
  · have hlong : decide (maxFrame < payload.length) = true := decide_eq_true (not_le.mp hfits)
    have hwrite : Io.blocking.writeFrame w.debugAssertions payload
        = if w.debugAssertions = true then none else some (frame payload) := by
      rw [Io.writeFrame, writeFrame, hlong, Bool.and_true]
    rw [send, hwrite]
    by_cases hdebug : w.debugAssertions = true
    · rw [if_pos hdebug]
      exact iff_of_false Blocking.panicked_ne_ok fun h => hfits (h hdebug)
    · rw [if_neg hdebug]
      exact iff_of_true rfl fun h => absurd h hdebug

theorem send_cases (payload : List UInt8) :
    w.send payload = .ok () ∨ w.send payload = .panicked := by
  unfold send
  cases Io.blocking.writeFrame w.debugAssertions payload with
  | none => exact .inr rfl
  | some bs => exact .inl rfl

theorem isSome_send_iff {payload : List UInt8} :
    (w.send payload).returned.isSome = true
      ↔ (w.debugAssertions = true → payload.length ≤ maxFrame) := by
  rw [← send_eq_ok_iff]
  obtain hok | hpanic := w.send_cases payload
  · rw [hok]
    exact iff_of_true rfl rfl
  · rw [hpanic]
    exact iff_of_false Bool.false_ne_true Blocking.panicked_ne_ok

/-! ## Waiting -/

/-- Whatever the deadline, it passes. -/
theorem exists_deadline_le (deadline : Instants.Instant) : ∃ k, deadline ≤ w.clock.reading k :=
  w.clock.reaches (Nat.succ_pos _) deadline

/-- A round of the flock ends the loop once the deadline has passed. -/
theorem settles_lockRound (path : Path) (secs : UInt64) (deadline : Instants.Instant) (k : ℕ) :
    Settles (deadline ≤ w.clock.reading k) (w.lockRound path secs deadline k) := by
  unfold lockRound
  split
  · exact settles_ofExcept (.error _)
  · exact settles_ofExcept (.ok ())
  · exact settles_ite _

/-- **The flock is waited for to the end.** -/
theorem returns_wait_lockRound (path : Path) (secs : UInt64) (deadline : Instants.Instant) :
    Returns (wait (w.lockRound path secs deadline) · 0) := by
  obtain ⟨k, hk⟩ := w.exists_deadline_le deadline
  exact returns_of_settles (w.settles_lockRound path secs deadline) hk

/-- And so does a reply to an Acquire. -/
theorem settles_leaseReply (secs : UInt64) (deadline : Instants.Instant) (k : ℕ)
    (reply : LeaseReply) :
    Settles (deadline ≤ w.clock.reading k) (w.leaseReply secs deadline k reply) := by
  unfold leaseReply
  split
  · exact settles_ofExcept _
  · exact settles_ite _
  · exact settles_ofExcept (.error _)

/-- **And so is the lease**, where the request fits a frame. -/
theorem returns_wait_leaseRound_iff {holder : String} {secs : UInt64}
    {deadline : Instants.Instant} :
    Returns (wait (w.leaseRound holder secs deadline) · 0)
      ↔ (w.debugAssertions = true → (acquireRequest holder).toPostcard.length ≤ maxFrame) := by
  rw [← send_eq_ok_iff]
  obtain hok | hpanic := w.send_cases (acquireRequest holder).toPostcard
  · have hround : ∀ k, w.leaseRound holder secs deadline k
        = (Blocking.ofExcept (w.roundtrip k)).andThen (w.leaseReply secs deadline k) := by
      intro k
      rw [leaseRound, hok]
      rfl
    refine iff_of_true ?_ hok
    obtain ⟨k, hk⟩ := w.exists_deadline_le deadline
    have hsettles : ∀ j, Settles (deadline ≤ w.clock.reading j)
        (w.leaseRound holder secs deadline j) := by
      intro j
      rw [hround]
      exact settles_andThen (w.settles_leaseReply secs deadline j) (w.roundtrip j)
    exact returns_of_settles hsettles hk
  · refine iff_of_false (not_returns_wait ?_) fun hok => nomatch hpanic.symm.trans hok
    rw [leaseRound, hpanic]
    rfl

/-! ## Coming back -/

/-- **`RigLock::take` comes back** if it gets as far as the deadline with one that can be
set. -/
theorem returns_takeLock_iff {path : Path} :
    Returns (w.takeLock path (timeout env))
      ↔ (w.openLock path = .ok () → w.started.secs.toInt + env.lockTimeout < 2 ^ 63) := by
  refine returns_andThen.trans ⟨fun h hopen => ?_, fun h => ⟨?_, fun u hopen => ?_⟩⟩
  · have hdeadline := h.2 () (Blocking.ofExcept_eq_ok_iff.mpr hopen)
    exact isSome_deadline_iff.mp (returns_andThen.mp hdeadline).1
  · rw [Blocking.returned_ofExcept]
    rfl
  · have hfits := h (Blocking.ofExcept_eq_ok_iff.mp hopen)
    exact returns_andThen.mpr ⟨isSome_deadline_iff.mpr hfits,
      fun deadline _ => returns_wait_lockRound path (timeout env) deadline⟩

/-- The connection does not panic if the `Hello` fits. -/
theorem isSome_connect_iff {addr token : String} :
    (w.connect addr token).returned.isSome = true
      ↔ (w.connectTimeout addr = .ok () → w.debugAssertions = true →
        (Hello.toPostcard ⟨netVersion, .lease, token⟩).length ≤ maxFrame) := by
  refine isSome_returned_andThen.trans ⟨fun h hconnect => ?_, fun h => ⟨?_, fun u hconnect => ?_⟩⟩
  · have hsend := h.2 () (Blocking.ofExcept_eq_ok_iff.mpr hconnect)
    exact isSome_send_iff.mp (isSome_returned_andThen.mp hsend).1
  · rw [Blocking.returned_ofExcept]
    rfl
  · have hfits := h (Blocking.ofExcept_eq_ok_iff.mp hconnect)
    refine isSome_returned_andThen.mpr ⟨isSome_send_iff.mpr hfits, fun _ _ => ?_⟩
    rw [Blocking.returned_ofExcept]
    rfl

theorem connect_eq_ok_iff {addr token : String} :
    w.connect addr token = .ok ()
      ↔ w.connectTimeout addr = .ok ()
        ∧ (w.debugAssertions = true →
          (Hello.toPostcard ⟨netVersion, .lease, token⟩).length ≤ maxFrame)
        ∧ w.handshake = .ok () := by
  unfold connect
  rw [Blocking.andThen_eq_ok_iff]
  constructor
  · rintro ⟨u, hconnect, hrest⟩
    obtain ⟨v, hsend, hhandshake⟩ := Blocking.andThen_eq_ok_iff.mp hrest
    exact ⟨Blocking.ofExcept_eq_ok_iff.mp hconnect, send_eq_ok_iff.mp hsend,
      Blocking.ofExcept_eq_ok_iff.mp hhandshake⟩
  · rintro ⟨hconnect, hfits, hhandshake⟩
    exact ⟨(), Blocking.ofExcept_eq_ok_iff.mpr hconnect, Blocking.andThen_eq_ok_iff.mpr
      ⟨(), send_eq_ok_iff.mpr hfits, Blocking.ofExcept_eq_ok_iff.mpr hhandshake⟩⟩

/-- **`LeaseClient::acquire` comes back** if its deadline can be set, and what it sends
fits a frame. -/
theorem returns_acquireLease_iff {addr token holder : String} :
    Returns (w.acquireLease addr token holder (timeout env))
      ↔ w.started.secs.toInt + env.lockTimeout < 2 ^ 63
        ∧ (w.connectTimeout addr = .ok () → w.debugAssertions = true →
          (Hello.toPostcard ⟨netVersion, .lease, token⟩).length ≤ maxFrame)
        ∧ (w.connectTimeout addr = .ok () → w.handshake = .ok () → w.debugAssertions = true →
          (acquireRequest holder).toPostcard.length ≤ maxFrame) := by
  refine returns_andThen.trans ⟨fun ⟨hset, h⟩ => ?_, fun ⟨hfits, hhello, hacquire⟩ => ?_⟩
  · obtain ⟨deadline, hdeadline⟩ : ∃ deadline, w.deadline (timeout env) = .ok deadline := by
      unfold deadline at hset ⊢
      cases hadd : w.started.checkedAdd (.fromSecs (timeout env)) with
      | none =>
        rw [hadd] at hset
        exact absurd hset Bool.false_ne_true
      | some deadline => exact ⟨deadline, rfl⟩
    obtain ⟨hconnect, hrounds⟩ := returns_andThen.mp (h deadline hdeadline)
    have hhello := isSome_connect_iff.mp hconnect
    refine ⟨isSome_deadline_iff.mp hset, hhello, fun htcp hhandshake => ?_⟩
    have hok := connect_eq_ok_iff.mpr ⟨htcp, hhello htcp, hhandshake⟩
    exact returns_wait_leaseRound_iff.mp (hrounds () hok)
  · refine ⟨isSome_deadline_iff.mpr hfits, fun deadline _ => ?_⟩
    refine returns_andThen.mpr ⟨isSome_connect_iff.mpr hhello, fun u hok => ?_⟩
    obtain ⟨htcp, -, hhandshake⟩ := connect_eq_ok_iff.mp hok
    exact returns_wait_leaseRound_iff.mpr (hacquire htcp hhandshake)

end World

/-! ## How far it gets -/

namespace World

section Progress

variable {Table : Type} (w : World Table) (env : Env) (currentDir : Except String (List Path))

/-- `acquire` has located a configuration, and loaded it. -/
def Loads (path : Path) (config : RigConfig Table) : Prop :=
  (locate w.isFile env currentDir).1 = .ok (some path) ∧ w.load path = .ok config

/-- It asks a lease server for the rig, with this token. -/
def Asks (lease : LeaseConfig) (token : String) : Prop :=
  ∃ path config, w.Loads env currentDir path config ∧ config.rig.lease = some lease
    ∧ readToken w.readToString lease.tokenFile (baseDir path) = .ok token

/-- It has opened the lock file. -/
def Opens : Prop :=
  ∃ path config, w.Loads env currentDir path config ∧ config.rig.lease = none
    ∧ w.openLock (lockPath config (baseDir path)) = .ok ()

/-- **It sets a deadline**, on either path. -/
def SetsDeadline : Prop :=
  w.Opens env currentDir ∨ ∃ lease token, w.Asks env currentDir lease token

/-- What it sends to the lease server. -/
inductive Sends : List UInt8 → Prop
  | hello {lease : LeaseConfig} {token : String} (h : w.Asks env currentDir lease token)
      (hconnect : w.connectTimeout lease.addr = .ok ()) :
      Sends (Hello.toPostcard ⟨netVersion, .lease, token⟩)
  | acquire {lease : LeaseConfig} {token : String} (h : w.Asks env currentDir lease token)
      (hconnect : w.connectTimeout lease.addr = .ok ()) (hhandshake : w.handshake = .ok ()) :
      Sends (acquireRequest env.holderIdentity).toPostcard

/-- **The condition**: the deadline is an instant, and in a build with debug assertions
what is sent fits a frame. -/
structure Fits : Prop where
  deadline : w.SetsDeadline env currentDir → w.started.secs.toInt + env.lockTimeout < 2 ^ 63
  frames : w.debugAssertions = true →
    ∀ payload, w.Sends env currentDir payload → payload.length ≤ maxFrame

/-- **Acquisition is sound**: the deadline can be represented, nothing panics, and there
is a rig, a skip or a failure in the end. -/
structure Sound : Prop where
  deadline : w.SetsDeadline env currentDir →
    (w.started.checkedAdd (.fromSecs (timeout env))).isSome = true
  noPanic : ∀ rounds, w.acquire env currentDir rounds ≠ .panicked
  returns : ∃ (r : Except Acquire (ConfiguredRig Table)) (n : ℕ), ∀ rounds, n ≤ rounds →
    w.acquire env currentDir rounds = .ofExcept r

end Progress

variable {Table : Type} {w : World Table} {env : Env} {currentDir : Except String (List Path)}

/-- What is loaded is loaded from one file. -/
theorem Loads.unique {path path' : Path} {config config' : RigConfig Table}
    (h : w.Loads env currentDir path config) (h' : w.Loads env currentDir path' config') :
    path = path' ∧ config = config' := by
  obtain rfl := Option.some.inj (Except.ok.inj (h.1.symm.trans h'.1))
  exact ⟨rfl, Except.ok.inj (h.2.symm.trans h'.2)⟩

/-- Only a lease server is sent anything. -/
theorem Sends.asks {payload : List UInt8} (h : w.Sends env currentDir payload) :
    ∃ lease token, w.Asks env currentDir lease token := by
  cases h with
  | hello hasks hconnect => exact ⟨_, _, hasks⟩
  | acquire hasks hconnect hhandshake => exact ⟨_, _, hasks⟩

/-- Nothing is to be asked of an acquisition that ends before the lock. -/
theorem fits_of_not_loads (h : ∀ path config, ¬ w.Loads env currentDir path config) :
    w.Fits env currentDir := by
  have hasks : ∀ lease token, ¬ w.Asks env currentDir lease token :=
    fun _ _ ⟨path, config, hloads, _⟩ => h path config hloads
  refine ⟨fun hset => ?_, fun _ payload hsends => ?_⟩
  · obtain ⟨path, config, hloads, -⟩ | ⟨lease, token, hasks'⟩ := hset
    · exact absurd hloads (h path config)
    · exact absurd hasks' (hasks lease token)
  · obtain ⟨lease, token, hasks'⟩ := hsends.asks
    exact absurd hasks' (hasks lease token)

section Loaded

variable {path : Path} {config : RigConfig Table}

/-- The condition on the flock. -/
theorem fits_flock_iff (h : w.Loads env currentDir path config) (hlease : config.rig.lease = none) :
    w.Fits env currentDir ↔ (w.openLock (lockPath config (baseDir path)) = .ok () →
      w.started.secs.toInt + env.lockTimeout < 2 ^ 63) := by
  have hasks : ∀ lease token, ¬ w.Asks env currentDir lease token := by
    rintro lease token ⟨path', config', hloads, hsome, -⟩
    obtain ⟨rfl, rfl⟩ := h.unique hloads
    exact Option.some_ne_none lease (hsome.symm.trans hlease)
  constructor
  · exact fun hfits hopen => hfits.deadline (.inl ⟨path, config, h, hlease, hopen⟩)
  · intro hopen
    refine ⟨fun hset => ?_, fun _ payload hsends => ?_⟩
    · obtain ⟨path', config', hloads, -, hopen'⟩ | ⟨lease, token, hasks'⟩ := hset
      · obtain ⟨rfl, rfl⟩ := h.unique hloads
        exact hopen hopen'
      · exact absurd hasks' (hasks lease token)
    · obtain ⟨lease, token, hasks'⟩ := hsends.asks
      exact absurd hasks' (hasks lease token)

/-- The condition on the lease. -/
theorem fits_lease_iff (h : w.Loads env currentDir path config) {lease : LeaseConfig}
    (hlease : config.rig.lease = some lease) :
    w.Fits env currentDir
      ↔ ∀ token, readToken w.readToString lease.tokenFile (baseDir path) = .ok token →
        w.started.secs.toInt + env.lockTimeout < 2 ^ 63
          ∧ (w.connectTimeout lease.addr = .ok () → w.debugAssertions = true →
            (Hello.toPostcard ⟨netVersion, .lease, token⟩).length ≤ maxFrame)
          ∧ (w.connectTimeout lease.addr = .ok () → w.handshake = .ok () →
            w.debugAssertions = true →
              (acquireRequest env.holderIdentity).toPostcard.length ≤ maxFrame) := by
  constructor
  · intro hfits token htoken
    have hasks : w.Asks env currentDir lease token := ⟨path, config, h, hlease, htoken⟩
    exact ⟨hfits.deadline (.inr ⟨lease, token, hasks⟩),
      fun hconnect hdebug => hfits.frames hdebug _ (.hello hasks hconnect),
      fun hconnect hhandshake hdebug =>
        hfits.frames hdebug _ (.acquire hasks hconnect hhandshake)⟩
  · intro hall
    -- there is one lease to ask for, and one token
    have hasks : ∀ {lease' token}, w.Asks env currentDir lease' token → lease' = lease
        ∧ readToken w.readToString lease.tokenFile (baseDir path) = .ok token := by
      rintro lease' token ⟨path', config', hloads, hsome, htoken⟩
      obtain ⟨rfl, rfl⟩ := h.unique hloads
      obtain rfl := Option.some.inj (hsome.symm.trans hlease)
      exact ⟨rfl, htoken⟩
    refine ⟨fun hset => ?_, fun hdebug payload hsends => ?_⟩
    · obtain ⟨path', config', hloads, hnone, -⟩ | ⟨lease', token, hasks'⟩ := hset
      · obtain ⟨rfl, rfl⟩ := h.unique hloads
        exact absurd (hlease.symm.trans hnone) (Option.some_ne_none lease)
      · exact (hall token (hasks hasks').2).1
    · cases hsends with
      | hello hasks' hconnect =>
        obtain ⟨rfl, htoken⟩ := hasks hasks'
        exact (hall _ htoken).2.1 hconnect hdebug
      | acquire hasks' hconnect hhandshake =>
        obtain ⟨rfl, htoken⟩ := hasks hasks'
        exact (hall _ htoken).2.2 hconnect hhandshake hdebug

/-- The lock, on either path. -/
theorem returns_takeExclusive_iff (h : w.Loads env currentDir path config) :
    Returns (w.takeExclusive env config (baseDir path)) ↔ w.Fits env currentDir := by
  cases hlease : config.rig.lease with
  | none =>
    have htake : w.takeExclusive env config (baseDir path)
        = w.takeLock (lockPath config (baseDir path)) (timeout env) := by
      funext rounds
      unfold takeExclusive
      rw [hlease]
    rw [htake, returns_takeLock_iff, fits_flock_iff h hlease]
  | some lease =>
    have htake : w.takeExclusive env config (baseDir path) = fun rounds =>
        (Blocking.ofExcept (readToken w.readToString lease.tokenFile (baseDir path))).andThen
          fun token => (w.acquireLease lease.addr token env.holderIdentity (timeout env)
            rounds).mapError fun e => "acquiring rig lease: " ++ e := by
      funext rounds
      unfold takeExclusive
      rw [hlease]
    rw [htake, returns_andThen, fits_lease_iff h hlease, Blocking.returned_ofExcept,
      Option.isSome_some, eq_self, true_and]
    refine forall_congr' fun token => ?_
    rw [Blocking.ofExcept_eq_ok_iff]
    exact imp_congr_right fun _ => returns_mapError.trans returns_acquireLease_iff

end Loaded

/-- **When `acquire` comes back.** -/
theorem returns_acquire_iff :
    Returns (w.acquire env currentDir) ↔ w.Fits env currentDir := by
  show Returns (fun rounds => w.acquire env currentDir rounds) ↔ _
  unfold acquire
  cases hlocate : (locate w.isFile env currentDir).1 with
  | error e =>
    refine iff_of_true ⟨0, rfl⟩ (fits_of_not_loads fun path config hloads => ?_)
    obtain ⟨⟩ := hlocate.symm.trans hloads.1
  | ok found =>
    cases found with
    | none =>
      refine iff_of_true ⟨0, rfl⟩ (fits_of_not_loads fun path config hloads => ?_)
      exact Option.some_ne_none path (Except.ok.inj (hlocate.symm.trans hloads.1)).symm
    | some path =>
      dsimp only
      rw [returns_mapError]
      unfold acquireFrom
      cases hload : w.load path with
      | error e =>
        refine iff_of_true ⟨0, rfl⟩ (fits_of_not_loads fun path' config hloads => ?_)
        obtain rfl := Option.some.inj (Except.ok.inj (hlocate.symm.trans hloads.1))
        obtain ⟨⟩ := hload.symm.trans hloads.2
      | ok config =>
        exact returns_map.trans (returns_takeExclusive_iff ⟨hlocate, hload⟩)

/-! ## More rounds -/

theorem stable_takeLock (path : Path) (secs : UInt64) : Stable (w.takeLock path secs) :=
  Stable.andThen (fun _ => Stable.andThen (fun _ => stable_wait _ 0) _) _

theorem stable_acquireLease (addr token holder : String) (secs : UInt64) :
    Stable (w.acquireLease addr token holder secs) :=
  Stable.andThen (fun _ => Stable.andThen (fun _ => stable_wait _ 0) _) _

theorem stable_takeExclusive (config : RigConfig Table) (dir : Path) :
    Stable (w.takeExclusive env config dir) := by
  show Stable fun rounds => w.takeExclusive env config dir rounds
  unfold takeExclusive
  cases config.rig.lease with
  | none => exact stable_takeLock _ _
  | some lease => exact Stable.andThen (fun _ => (stable_acquireLease _ _ _ _).mapError _) _

/-- What `acquire` has returned it returns after more rounds as well. -/
theorem stable_acquire : Stable (w.acquire env currentDir) := by
  show Stable fun rounds => w.acquire env currentDir rounds
  unfold acquire
  cases (locate w.isFile env currentDir).1 with
  | error e => exact stable_const _
  | ok found =>
    cases found with
    | none => exact stable_const _
    | some path =>
      refine Stable.mapError ?_ _
      exact Stable.andThen (fun _ => (stable_takeExclusive _ _).map _) _

/-! ## The machine -/

theorem takeExclusive_of_returned {config : RigConfig Table} {dir : Path} {rounds : ℕ}
    {x : Except String Unit}
    (h : (w.takeExclusive env config dir rounds).returned = some x) :
    Banc.takeExclusive (w.machine rounds) env config dir = x := by
  unfold takeExclusive at h
  unfold Banc.takeExclusive
  cases hlease : config.rig.lease with
  | none =>
    rw [hlease] at h
    show (w.takeLock (lockPath config dir) (timeout env) rounds).returned.getD (.error "") = x
    rw [h]
    rfl
  | some lease =>
    rw [hlease] at h
    dsimp only at h ⊢
    show (readToken w.readToString lease.tokenFile dir >>= fun token => _) = x
    cases htoken : readToken w.readToString lease.tokenFile dir with
    | error e =>
      rw [htoken] at h
      exact Option.some.inj h
    | ok token =>
      rw [htoken] at h
      change ((w.acquireLease lease.addr token env.holderIdentity (timeout env) rounds).mapError
        _).returned = _ at h
      rw [returned_mapError] at h
      obtain ⟨y, hy, rfl⟩ := Option.map_eq_some_iff.mp h
      show Except.mapError _ ((w.acquireLease lease.addr token env.holderIdentity (timeout env)
        rounds).returned.getD (.error "")) = _
      rw [hy]
      rfl

theorem acquireFrom_of_returned {path : Path} {rounds : ℕ}
    {x : Except String (ConfiguredRig Table)}
    (h : (w.acquireFrom env path rounds).returned = some x) :
    Banc.acquireFrom (w.machine rounds) env path = x := by
  unfold acquireFrom at h
  unfold Banc.acquireFrom
  show (w.load path >>= fun config => _) = x
  cases hload : w.load path with
  | error e =>
    rw [hload] at h
    exact Option.some.inj h
  | ok config =>
    rw [hload] at h
    change ((w.takeExclusive env config (baseDir path) rounds).map _).returned = _ at h
    rw [returned_map] at h
    obtain ⟨y, hy, rfl⟩ := Option.map_eq_some_iff.mp h
    show (Banc.takeExclusive (w.machine rounds) env config (baseDir path) >>= fun _ => _) = _
    rw [takeExclusive_of_returned hy]
    cases y with
    | ok u => rfl
    | error e => rfl

/-- **What is returned here is what `Rig::acquire` returns on a machine** whose locks and
leases are those of the loops. -/
theorem acquire_of_returned {rounds : ℕ} {r : Except Acquire (ConfiguredRig Table)}
    (h : (w.acquire env currentDir rounds).returned = some r) :
    Banc.acquire (w.machine rounds) env currentDir = r := by
  unfold acquire at h
  unfold Banc.acquire
  show (match (locate w.isFile env currentDir).1 with
    | .error e => _
    | .ok none => _
    | .ok (some path) => (Banc.acquireFrom (w.machine rounds) env path).mapError .fail) = r
  cases hlocate : (locate w.isFile env currentDir).1 with
  | error e =>
    rw [hlocate] at h
    exact Option.some.inj h
  | ok found =>
    rw [hlocate] at h
    cases found with
    | none => exact Option.some.inj h
    | some path =>
      dsimp only at h ⊢
      rw [returned_mapError] at h
      obtain ⟨x, hx, rfl⟩ := Option.map_eq_some_iff.mp h
      rw [acquireFrom_of_returned hx]

end World

/-- **When acquisition is sound.** On every machine, with every environment, whichever
way the rig is held: the deadline is an instant, nothing panics, and `Rig::acquire`
returns a rig, a skip or a failure – exactly if the second of the clock at which a
deadline is set and the timeout together are less than 2⁶³, and, in a build with debug
assertions, the token and the name of the holder fit the frames they are sent in. -/
theorem sound_iff {Table : Type} (w : World Table) (env : Env)
    (currentDir : Except String (List Path)) :
    w.Sound env currentDir ↔ w.Fits env currentDir := by
  constructor
  · rintro ⟨-, -, r, n, hr⟩
    refine World.returns_acquire_iff.mp ⟨n, ?_⟩
    rw [hr n le_rfl, Blocking.returned_ofExcept]
    rfl
  · intro hfits
    obtain ⟨hpanic, r, n, hr⟩ :=
      World.stable_acquire.of_returns (World.returns_acquire_iff.mpr hfits)
    refine ⟨fun hset => ?_, hpanic, r, n, hr⟩
    rw [Instants.Instant.isSome_checkedAdd_fromSecs_iff, World.toNat_timeout]
    exact hfits.deadline hset

/-! ### A timeout that is too long -/

/-- A machine with a rig that nobody holds, in the first second of its clock. -/
def freeRig : World Unit where
  isFile _ := true
  readToString _ := .ok ""
  fromStr _ := .ok (namedRig "bench")
  debugAssertions := false
  started := ⟨1, 0, Instants.nanosPerSec_pos⟩
  clock := ⟨fun _ => .last, fun _ => .inr (Instants.Instant.le_last _)⟩
  createDirAll _ := .ok ()
  openOptions _ := .ok ()
  tryLockExclusive _ := .ok true
  readLockHolder _ := none
  connectTimeout _ := .ok ()
  handshake := .ok ()
  roundtrip _ := .ok (.granted 1)
  spawn := .ok ()
  debug _ := ""

/-- `BANC_LOCK_TIMEOUT_SECS` is set to the greatest `u64`. -/
def longTimeout : Env := ⟨none, some (utf8 "18446744073709551615"), none, none, 1⟩

/-- **Acquiring a rig that is free panics**, since the deadline is no instant. -/
theorem longTimeout_panics :
    ¬ ∀ (w : World Unit) (env : Env) (currentDir : Except String (List Path)),
      w.Sound env currentDir := by
  intro h
  have hpanic : (freeRig.acquire longTimeout (.ok []) 1).isPanicked = true := by
    decide +kernel
  exact (h freeRig longTimeout (.ok [])).noPanic 1 (Blocking.eq_panicked_of_isPanicked hpanic)

end Banc
