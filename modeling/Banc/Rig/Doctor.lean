import Banc.Lib.Lines
import Banc.Rig.Node

/-!
# The doctor

What `banc doctor` (`banc/src/bin/banc.rs`) makes of the assistants and the instruments
of a rig that are on the network. It connects to each, and so does the suite later on;
what doctor checks, its module says, is what a suite will use.

An address goes through `tcp_reach` on its way to the resolver, which takes off a URL
scheme and the slashes at the end, since the address of a probe server may have them.
`connect_node` gives it to the resolver as it is. `validate` accepts either kind, so the
two agree on an address exactly if there is nothing to take off (`agrees_iff`); and
where there is, an assistant that doctor reaches is one that the suite cannot connect
to. An instrument whose address has a slash in it is not probed at all, so there
`tcp_reach` takes nothing off (`hostport_of_probed`).
-/

namespace Banc

open Fs Lines Postcard

/-! ## The network -/

/-- What comes of a TCP connection, and after how many milliseconds. -/
structure Answer where
  afterMs : ℕ
  result : Except String Unit

/-- The name resolution and the network, which the doctor and the suite share. -/
structure Network (Addr : Type) where
  /-- `to_socket_addrs`, of the standard library and of tokio. -/
  resolve : String → Except String (List Addr)
  /-- What comes of a connection to an address. -/
  answer : Addr → Answer

/-- Connect to the first address that lets one: the error of the last, if there is one. -/
def connectFirst {Addr : Type} (connect : Addr → Except String Unit) :
    Option String → List Addr → Except (Option String) Unit
  | last, [] => .error last
  | _, sa :: addrs =>
    match connect sa with
    | .ok () => .ok ()
    | .error e => connectFirst connect (some e) addrs

/-- `CONNECT_TIMEOUT`, in milliseconds. -/
def connectTimeoutMs : ℕ := 3000

/-- The address without a URL scheme, and without the slashes at its end. -/
def hostport (addr : String) : String :=
  let rest := match splitOnce "://".toList addr.toList with
    | some (_, rest) => rest
    | none => addr.toList
  String.ofList (rest.rdropWhile (· == '/'))

section Connecting

variable {Addr : Type} (net : Network Addr)

/-- `std::net::TcpStream::connect_timeout`. -/
def Network.connectTimeout (sa : Addr) : Except String Unit :=
  if (net.answer sa).afterMs ≤ connectTimeoutMs then (net.answer sa).result
  else .error "connection timed out"

/-- Resolve an address, and connect to what it resolves to, with the texts of the errors
of either. -/
def Network.connectTo (connect : Addr → Except String Unit) (addr : String)
    (resolving : String → String) (connecting : Option String → String) : Except String Unit :=
  match net.resolve addr with
  | .error e => .error (resolving e)
  | .ok addrs => (connectFirst connect none addrs).mapError connecting

/-- `tcp_reach`. -/
def tcpReach (addr : String) : Except String Unit :=
  let hostport := hostport addr
  net.connectTo net.connectTimeout hostport
    (fun e => "resolving " ++ hostport ++ ": " ++ e)
    (fun
      | some e => "connecting to " ++ hostport ++ ": " ++ e
      | none => hostport ++ " resolved to no addresses")

/-- `tokio::net::TcpStream::connect`, as `connect_node` calls it: without a timeout. -/
def connectTcp (addr : String) : Except String Unit :=
  net.connectTo (fun sa => (net.answer sa).result) addr
    (fun e => "connecting to node at " ++ addr ++ ": " ++ e)
    (fun last => "connecting to node at " ++ addr ++ ": "
      ++ last.getD "could not resolve to any address")

/-- `connect_node`, with what comes of the handshake. -/
def connectNode {Client : Type} (handshake : String → Except String (Client × String))
    (addr token : String) : Except String (Client × String) := do
  connectTcp net addr
  (handshake token).mapError fun e => "node handshake with " ++ addr ++ ": " ++ e

end Connecting

/-! ## The report -/

/-- What has been printed, and how many checks passed and failed. -/
structure Doctor where
  failed : ℕ
  passed : ℕ
  printed : List String
  deriving DecidableEq

namespace Doctor

/-- A check that has passed. -/
def ok (d : Doctor) (what : String) : Doctor :=
  { d with passed := d.passed + 1, printed := d.printed ++ ["  ok    " ++ what] }

/-- One that has not. -/
def fail (d : Doctor) (what : String) : Doctor :=
  { d with failed := d.failed + 1, printed := d.printed ++ ["  FAIL  " ++ what] }

/-- What is no check, and only worth knowing. -/
def note (d : Doctor) (what : String) : Doctor :=
  { d with printed := d.printed ++ ["  --    " ++ what] }

/-- `check`: one or the other, with the detail or the error behind it. -/
def check (d : Doctor) (what : String) : Except String String → Doctor
  | .ok detail => if detail.isEmpty then d.ok what else d.ok (what ++ ": " ++ detail)
  | .error e => d.fail (what ++ ": " ++ e)

end Doctor

section Checks

variable {Addr : Type} (net : Network Addr)

/-- What doctor finds out about a network assistant: its token is read first. -/
def AssistantConfig.reach (a : AssistantConfig) (readToString : Path → Except String String)
    (baseDir : Path) (addr : String) : Except String Unit :=
  ((a.tokenFile.map fun t => (readToken readToString t baseDir).map fun _ => ()).getD (.ok ()))
    >>= fun _ => tcpReach net addr

/-- What `doctor` does with an assistant. -/
def Doctor.assistant (readToString : Path → Except String String) (baseDir : Path) (d : Doctor)
    (a : AssistantConfig) : Doctor :=
  match a.addr with
  | some addr =>
    d.check ("assistant '" ++ a.name ++ "' at " ++ addr)
      ((a.reach net readToString baseDir addr).map fun _ => "")
  | none => d.note ("assistant '" ++ a.name ++ "': USB (checked at suite runtime, not here)")

/-- The address of an instrument that is probed: it may be one of many things. -/
def InstrumentConfig.probed {Table : Type} (i : InstrumentConfig Table) : Option String :=
  i.address.filter fun addr => addr.toList.contains ':' && !addr.toList.contains '/'

/-- What `doctor` does with an instrument. -/
def Doctor.instrument {Table : Type} (d : Doctor) (i : InstrumentConfig Table) : Doctor :=
  match i.probed with
  | some addr =>
    d.check ("instrument '" ++ i.name ++ "' at " ++ addr) ((tcpReach net addr).map fun _ => "")
  | none =>
    d.note ("instrument '" ++ i.name ++ "' (" ++ i.kind ++ "): no network address to probe")

/-- The two loops of `doctor`. -/
def Doctor.nodes {Table : Type} (d : Doctor) (c : RigConfig Table)
    (readToString : Path → Except String String) (baseDir : Path) : Doctor :=
  c.instruments.foldl (Doctor.instrument net)
    (c.assistants.foldl (Doctor.assistant net readToString baseDir) d)

end Checks

/-! ## The address -/

/-- There is nothing to take off: no scheme, and no slash at the end. -/
structure PlainAddr (addr : String) : Prop where
  scheme : ¬ "://".toList <:+: addr.toList
  slash : addr.toList.getLast? ≠ some '/'

instance (addr : String) : Decidable (PlainAddr addr) :=
  decidable_of_iff (¬ "://".toList <:+: addr.toList ∧ addr.toList.getLast? ≠ some '/')
    ⟨fun h => ⟨h.1, h.2⟩, fun h => ⟨h.scheme, h.slash⟩⟩

/-- Nothing is taken off at the end where there is no slash. -/
theorem rdropWhile_slash_iff {cs : List Char} :
    cs.rdropWhile (· == '/') = cs ↔ cs.getLast? ≠ some '/' := by
  rw [List.rdropWhile_eq_self_iff]
  constructor
  · intro h hlast
    have hne : cs ≠ [] := by
      rintro rfl
      exact absurd hlast (Option.some_ne_none '/').symm
    rw [List.getLast?_eq_some_getLast hne] at hlast
    exact h hne (beq_iff_eq.mpr (Option.some.inj hlast))
  · intro h hne hlast
    exact h ((List.getLast?_eq_some_getLast hne).trans (congrArg some (eq_of_beq hlast)))

/-- What is left of an address that has a scheme is shorter. -/
theorem length_of_splitOnce {cs before rest : List Char}
    (h : splitOnce "://".toList cs = some (before, rest)) : rest.length < cs.length := by
  rw [splitOnce_eq_some h, List.length_append, List.length_append]
  have hpos : 0 < "://".toList.length := by decide
  omega

/-- **The resolver is asked for the address itself** exactly if there is nothing to take
off. -/
theorem hostport_eq_iff {addr : String} : hostport addr = addr ↔ PlainAddr addr := by
  unfold hostport
  rw [← String.toList_inj, String.toList_ofList]
  cases hsplit : splitOnce "://".toList addr.toList with
  | none =>
    have hscheme := splitOnce_eq_none_iff.mp hsplit
    exact rdropWhile_slash_iff.trans ⟨fun h => ⟨hscheme, h⟩, fun h => h.slash⟩
  | some parts =>
    obtain ⟨before, rest⟩ := parts
    have hscheme : "://".toList <:+: addr.toList := by
      by_contra hnone
      rw [splitOnce_eq_none_iff.mpr hnone] at hsplit
      exact absurd hsplit (Option.some_ne_none _).symm
    refine ⟨fun h => ?_, fun h => absurd hscheme h.scheme⟩
    -- what is left is shorter than the address
    have hle := (List.rdropWhile_prefix (· == '/') (l := rest)).length_le
    have hlt := length_of_splitOnce hsplit
    dsimp only at h
    rw [h] at hle
    exact absurd hle (not_le.mpr hlt)

/-- The address of an instrument that is probed is given to the resolver as it is. -/
theorem hostport_of_probed {Table : Type} {i : InstrumentConfig Table} {addr : String}
    (h : i.probed = some addr) : hostport addr = addr := by
  obtain ⟨-, hprobed⟩ := Option.filter_eq_some_iff.mp h
  have hslash : '/' ∉ addr.toList := by
    have hcontains := (Bool.and_eq_true_iff.mp hprobed).2
    rw [Bool.not_eq_true', List.contains_eq_mem, decide_eq_false_iff_not] at hcontains
    exact hcontains
  refine hostport_eq_iff.mpr ⟨fun hscheme => hslash (hscheme.subset (by decide)), fun hlast => ?_⟩
  exact hslash (List.mem_of_getLast? hlast)

/-! ## Connecting -/

section Reaching

variable {Addr : Type} {net : Network Addr}

theorem connectFirst_eq_ok_iff {connect : Addr → Except String Unit} {addrs : List Addr}
    {last : Option String} :
    connectFirst connect last addrs = .ok () ↔ ∃ sa ∈ addrs, connect sa = .ok () := by
  induction addrs generalizing last with
  | nil =>
    refine ⟨fun h => ?_, fun ⟨sa, hsa, _⟩ => absurd hsa List.not_mem_nil⟩
    obtain ⟨⟩ := h
  | cons sa addrs ih =>
    rw [connectFirst]
    cases hconnect : connect sa with
    | ok u => exact iff_of_true rfl ⟨sa, List.mem_cons_self, hconnect⟩
    | error e =>
      have hne : ¬ connect sa = .ok () := by
        rw [hconnect]
        exact error_ne_ok
      dsimp only
      rw [ih, List.exists_mem_cons_iff, or_iff_right hne]

/-- A connection that is made in time is made. -/
theorem answer_of_connectTimeout {sa : Addr} (h : net.connectTimeout sa = .ok ()) :
    (net.answer sa).result = .ok () := by
  unfold Network.connectTimeout at h
  split at h
  case isTrue => exact h
  case isFalse => exact absurd h error_ne_ok

/-- **An address is connected to** if one of those that it resolves to is. -/
theorem connectTo_eq_ok_iff {connect : Addr → Except String Unit} {addr : String}
    {resolving : String → String} {connecting : Option String → String} :
    net.connectTo connect addr resolving connecting = .ok ()
      ↔ ∃ addrs, net.resolve addr = .ok addrs ∧ ∃ sa ∈ addrs, connect sa = .ok () := by
  unfold Network.connectTo
  cases net.resolve addr with
  | error e =>
    refine ⟨fun h => absurd h error_ne_ok, fun ⟨addrs, h, _⟩ => ?_⟩
    obtain ⟨⟩ := h
  | ok addrs =>
    dsimp only
    rw [mapError_eq_ok_iff, connectFirst_eq_ok_iff]
    exact ⟨fun h => ⟨addrs, rfl, h⟩, fun ⟨_, heq, h⟩ => Except.ok.inj heq ▸ h⟩

/-- **What doctor reaches the suite connects to**, where both ask for the same. -/
theorem connectTcp_of_tcpReach {addr : String} (hsame : hostport addr = addr)
    (h : tcpReach net addr = .ok ()) : connectTcp net addr = .ok () := by
  obtain ⟨addrs, hresolve, sa, hsa, hconnect⟩ := connectTo_eq_ok_iff.mp h
  rw [hsame] at hresolve
  exact connectTo_eq_ok_iff.mpr ⟨addrs, hresolve, sa, hsa, answer_of_connectTimeout hconnect⟩

/-- The resolver takes no scheme, and no slash at the end. -/
def Network.RejectsUrls (net : Network Addr) : Prop :=
  ∀ s, ¬ PlainAddr s → ∃ e, net.resolve s = .error e

/-- With such a resolver the suite does not connect to anything else. -/
theorem connectTcp_ne_ok (hnet : net.RejectsUrls) {addr : String} (h : ¬ PlainAddr addr) :
    connectTcp net addr ≠ .ok () := by
  intro hconnect
  obtain ⟨e, he⟩ := hnet addr h
  obtain ⟨addrs, hresolve, -⟩ := connectTo_eq_ok_iff.mp hconnect
  obtain ⟨⟩ := he.symm.trans hresolve

/-- Nor does `Node::connect`. -/
theorem connect_of_rejects {Client : Type} {wire : Wire Client}
    {handshake : String → Except String (Client × String)} (hnet : net.RejectsUrls)
    (hwire : wire.connectNode = connectNode net handshake) {cfg : AssistantConfig} {addr : String}
    (haddr : cfg.addr = some addr) (h : ¬ PlainAddr addr) (token : String)
    (expectedRig : Option String) :
    ∃ e, Node.connect wire cfg (some token) expectedRig = .error (.network e) := by
  cases hconnect : connectTcp net addr with
  | ok u => exact absurd hconnect (connectTcp_ne_ok hnet h)
  | error e =>
    refine ⟨e, ?_⟩
    have hnode : wire.connectNode addr token = .error e := by
      rw [hwire, connectNode, hconnect]
      rfl
    unfold Node.connect
    rw [haddr]
    dsimp only
    rw [hnode]

end Reaching

/-! ## What doctor reports -/

section Reporting

variable {Addr : Type} {net : Network Addr} {readToString : Path → Except String String}
  {baseDir : Path} {Table : Type}

theorem Doctor.failed_check_iff {d : Doctor} {what : String} {r : Except String Unit} :
    (d.check what (r.map fun _ => "")).failed = d.failed ↔ r = .ok () := by
  cases r with
  | ok u => exact iff_of_true rfl rfl
  | error e => exact iff_of_false (Nat.succ_ne_self _) error_ne_ok

theorem Doctor.failed_le_check {d : Doctor} {what : String} {r : Except String String} :
    d.failed ≤ (d.check what r).failed := by
  cases r with
  | ok detail =>
    show d.failed ≤ (if detail.isEmpty = true then d.ok what
      else d.ok (what ++ ": " ++ detail)).failed
    split
    · exact le_refl d.failed
    · exact le_refl d.failed
  | error e => exact Nat.le_succ _

/-- **A network assistant passes** if its token can be read, and it is reached. -/
theorem Doctor.failed_assistant_iff {d : Doctor} {a : AssistantConfig} :
    (Doctor.assistant net readToString baseDir d a).failed = d.failed
      ↔ ∀ addr ∈ a.addr, a.reach net readToString baseDir addr = .ok () := by
  unfold Doctor.assistant
  cases a.addr with
  | none => exact iff_of_true rfl fun addr haddr => absurd haddr (Option.not_mem_none addr)
  | some addr =>
    rw [failed_check_iff]
    exact ⟨fun h addr' haddr' => Option.some.inj haddr' ▸ h, fun h => h addr rfl⟩

theorem Doctor.failed_instrument_iff {d : Doctor} {i : InstrumentConfig Table} :
    (Doctor.instrument net d i).failed = d.failed
      ↔ ∀ addr ∈ i.probed, tcpReach net addr = .ok () := by
  unfold Doctor.instrument
  cases i.probed with
  | none => exact iff_of_true rfl fun addr haddr => absurd haddr (Option.not_mem_none addr)
  | some addr =>
    rw [failed_check_iff]
    exact ⟨fun h addr' haddr' => Option.some.inj haddr' ▸ h, fun h => h addr rfl⟩

theorem Doctor.failed_le_assistant {d : Doctor} {a : AssistantConfig} :
    d.failed ≤ (Doctor.assistant net readToString baseDir d a).failed := by
  unfold Doctor.assistant
  split
  · exact failed_le_check
  · exact le_rfl

theorem Doctor.failed_le_instrument {d : Doctor} {i : InstrumentConfig Table} :
    d.failed ≤ (Doctor.instrument net d i).failed := by
  unfold Doctor.instrument
  split
  · exact failed_le_check
  · exact le_rfl

/-- A loop of checks fails nothing if none of its checks does. -/
theorem Doctor.failed_foldl_iff {A : Type} {step : Doctor → A → Doctor} {passes : A → Prop}
    (hle : ∀ d x, d.failed ≤ (step d x).failed)
    (hstep : ∀ d x, (step d x).failed = d.failed ↔ passes x) {xs : List A} {d : Doctor} :
    d.failed ≤ (xs.foldl step d).failed
      ∧ ((xs.foldl step d).failed = d.failed ↔ ∀ x ∈ xs, passes x) := by
  induction xs generalizing d with
  | nil => exact ⟨le_rfl, iff_of_true rfl fun x hx => absurd hx List.not_mem_nil⟩
  | cons x xs ih =>
    obtain ⟨hmore, hrest⟩ := @ih (step d x)
    rw [List.foldl_cons, List.forall_mem_cons, ← hstep d x, ← hrest]
    refine ⟨(hle d x).trans hmore, fun h => ?_, fun h => h.2.trans h.1⟩
    have hx : (step d x).failed = d.failed := ((h ▸ hmore).antisymm (hle d x))
    exact ⟨hx, h.trans hx.symm⟩

/-- **Doctor fails nothing** if it reaches all there is on the network. -/
theorem Doctor.failed_nodes_iff {d : Doctor} {c : RigConfig Table} :
    (d.nodes net c readToString baseDir).failed = d.failed
      ↔ (∀ a ∈ c.assistants, ∀ addr ∈ a.addr, a.reach net readToString baseDir addr = .ok ())
        ∧ ∀ i ∈ c.instruments, ∀ addr ∈ i.probed, tcpReach net addr = .ok () := by
  obtain ⟨hle, hassistants⟩ := @Doctor.failed_foldl_iff _
    (Doctor.assistant net readToString baseDir) _ (fun _ _ => failed_le_assistant)
    (fun _ _ => failed_assistant_iff) c.assistants d
  obtain ⟨hle', hinstruments⟩ := @Doctor.failed_foldl_iff _ (Doctor.instrument net) _
    (fun _ _ => failed_le_instrument) (fun _ _ => @failed_instrument_iff _ net Table _ _)
    c.instruments (c.assistants.foldl (Doctor.assistant net readToString baseDir) d)
  unfold Doctor.nodes
  rw [← hassistants, ← hinstruments]
  refine ⟨fun h => ?_, fun h => h.2.trans h.1⟩
  have hfirst := (h ▸ hle').antisymm hle
  exact ⟨hfirst, h.trans hfirst.symm⟩

/-- An assistant that is reached is one whose address is. -/
theorem AssistantConfig.tcpReach_of_reach {a : AssistantConfig} {addr : String}
    (h : a.reach net readToString baseDir addr = .ok ()) : tcpReach net addr = .ok () :=
  (bind_eq_ok_iff.mp h).2

end Reporting

/-! ## One address -/

/-- **Doctor checks the address that the suite uses.** -/
structure Agrees (a : AssistantConfig) : Prop where
  /-- Both give the same to the resolver. -/
  same : ∀ addr ∈ a.addr, hostport addr = addr
  /-- Where doctor finds nothing wrong with it, the suite connects. -/
  reach : ∀ addr ∈ a.addr, ∀ (Addr : Type) (net : Network Addr)
    (readToString : Path → Except String String) (baseDir : Path) (d : Doctor),
    (Doctor.assistant net readToString baseDir d a).failed = d.failed →
      connectTcp net addr = .ok ()

/-- **When doctor checks the address that the suite uses.** Of every assistant, exactly
if there is nothing to take off its address. With an address that has a scheme, or a
slash at the end, `Node::connect` fails whatever doctor says, where the resolver takes
no such address. -/
theorem agrees_iff (a : AssistantConfig) :
    (Agrees a ↔ ∀ addr ∈ a.addr, PlainAddr addr)
      ∧ ∀ addr ∈ a.addr, ¬ PlainAddr addr → ∀ (Addr Client : Type) (net : Network Addr)
        (handshake : String → Except String (Client × String)) (wire : Wire Client),
        net.RejectsUrls → wire.connectNode = connectNode net handshake →
        ∀ token expectedRig,
          ∃ e, Node.connect wire a (some token) expectedRig = .error (.network e) := by
  refine ⟨⟨fun h addr haddr => hostport_eq_iff.mp (h.same addr haddr), fun h => ?_⟩,
    fun addr haddr hplain Addr Client net handshake wire hnet hwire token expectedRig =>
      connect_of_rejects hnet hwire haddr hplain token expectedRig⟩
  have hsame : ∀ addr ∈ a.addr, hostport addr = addr :=
    fun addr haddr => hostport_eq_iff.mpr (h addr haddr)
  refine ⟨hsame, fun addr haddr Addr net readToString baseDir d hd => ?_⟩
  have hreach := Doctor.failed_assistant_iff.mp hd addr haddr
  exact connectTcp_of_tcpReach (hsame addr haddr) (AssistantConfig.tcpReach_of_reach hreach)

/-- **A rig that doctor finds nothing wrong with**, and whose assistants have plain
addresses, is one whose network assistants the suite connects to. -/
theorem connects_of_nodes {Table Addr : Type} {c : RigConfig Table} {net : Network Addr}
    {readToString : Path → Except String String} {baseDir : Path} {d : Doctor}
    (hplain : ∀ a ∈ c.assistants, ∀ addr ∈ a.addr, PlainAddr addr)
    (hd : (d.nodes net c readToString baseDir).failed = d.failed) :
    ∀ a ∈ c.assistants, ∀ addr ∈ a.addr, connectTcp net addr = .ok () := by
  intro a ha addr haddr
  have hreach := (Doctor.failed_nodes_iff.mp hd).1 a ha addr haddr
  exact connectTcp_of_tcpReach (hostport_eq_iff.mpr (hplain a ha addr haddr))
    (AssistantConfig.tcpReach_of_reach hreach)

/-! ### An address with a scheme -/

/-- An assistant whose address has the scheme that probe servers have. -/
def schemeNode : AssistantConfig where
  name := "a0"
  serial := none
  product := none
  addr := some "ws://127.0.0.1:9000"
  tokenFile := some (utf8 "token")
  uniqueId := none

/-- A resolver that takes no URL, on a network where everything answers. -/
def answering : Network Unit where
  resolve s := if PlainAddr s then .ok [()] else .error "invalid socket address"
  answer _ := ⟨0, .ok ()⟩

theorem answering_rejectsUrls : answering.RejectsUrls :=
  fun _ h => ⟨"invalid socket address", if_neg h⟩

/-- **Doctor reaches it, and the suite does not connect.** -/
theorem schemeNode_disagrees :
    ¬ ∀ (c : RigConfig Unit), c.validate = .ok () → ∀ a ∈ c.assistants, Agrees a := by
  intro h
  let rig : RigConfig Unit := ⟨⟨some "test-rig", none, none⟩, [schemeNode], []⟩
  have hvalid : rig.validate = .ok () := by decide +kernel
  have hreported : (Doctor.assistant answering (fun _ => .ok "secret") [] ⟨0, 0, []⟩
      schemeNode).failed = 0 := by
    decide +kernel
  have hplain : ¬ PlainAddr "ws://127.0.0.1:9000" := by decide +kernel
  exact connectTcp_ne_ok answering_rejectsUrls hplain
    ((h rig hvalid schemeNode List.mem_cons_self).reach _ rfl Unit answering
      (fun _ => .ok "secret") [] ⟨0, 0, []⟩ hreported)

end Banc
