import Banc.Rig.Config
import Banc.Runner.Trial

/-!
# Connecting to a node

`Node::connect` of `banc-host/src/node.rs`, which reaches a node over the network or
over USB, as its entry in the configuration says, and asks it who it is; and
`Rig::assistant` of `banc-host/src/rig.rs`, which looks the entry up by its name and
resolves its token. What the transports answer is a parameter (`Wire`).

A configuration that has been validated leaves nothing of the entry for `connect` to
find wrong: it is called with a token exactly if the entry is that of a network node,
and over USB with something to tell devices apart (`validate_faithful`). What it does
find wrong is the peer: the node it connects to speaks the protocol, is the device
named in the entry, and belongs to the rig (`connect_admits_iff`).
-/

namespace Banc

open Fs Hex Postcard Probe

/-- The banc reference assistant firmware, or a node of somebody's own. -/
inductive NodeRole where
  | assistant
  | custom

/-- What a node reports of itself. -/
structure Identity where
  role : NodeRole
  protocolVersion : UInt32
  uniqueId : UInt64
  fwName : String
  fwVersion : String

/-- `PROTOCOL_VERSION`. -/
def protocolVersion : UInt32 := 0

/-- A USB device, as it is enumerated. -/
structure DeviceInfo where
  serialNumber : Option String
  productString : Option String

/-- What there is to connect to; `Client` is `HostClient<WireError>`. -/
structure Wire (Client : Type) where
  /-- `connect_node`, for an address and a token: the client, and the name of the rig. -/
  connectNode : String → String → Except String (Client × String)
  /-- `HostClient::try_new_raw_nusb`. -/
  tryNewRawNusb : (DeviceInfo → Bool) → Except String Client
  /-- `send_resp::<IdentifyEndpoint>`. -/
  identify : Client → Except String Identity

/-- Why `connect` failed. -/
inductive ConnectError where
  /-- `node '{}' has addr but no token was resolved`. -/
  | noToken (name : String)
  /-- The error of `connect_node`. -/
  | network (e : String)
  /-- `node '{}' at {addr} belongs to rig '{rig_name}', expected '{want}'`. -/
  | wrongRig (name addr rigName want : String)
  /-- `connecting to node '{name}': {e}`. -/
  | usb (name e : String)
  /-- `identify on node '{name}': {e:?}`. -/
  | identify (name e : String)
  /-- `node '{name}' speaks banc protocol v{}, host expects v{PROTOCOL_VERSION}`. -/
  | protocol (name : String) (version : UInt32)
  /-- `node '{name}' reports unique id {got}, config expects {want}`. -/
  | uniqueId (name got want : String)

/-- Whether it is the caller of `connect` that is to blame. -/
def ConnectError.isNoToken : ConnectError → Bool
  | .noToken _ => true
  | _ => false

/-- A node that is connected, and what it has said of itself. -/
structure Node (Client : Type) where
  client : Client
  identity : Identity

section Connect

variable {Client : Type} (wire : Wire Client) (cfg : AssistantConfig)

/-- Which devices are taken over USB. -/
def usbMatches (serial product : Option String) (d : DeviceInfo) : Bool :=
  let serialOk := serial.all (fun want => d.serialNumber == some want)
  let productOk := product.all (fun want => d.productString == some want)
  serialOk && productOk

/-- `Node::identify`: a node with a role other than `Assistant` is warned about, and
taken. -/
def Node.identify (client : Client) : Except ConnectError (Node Client) :=
  match wire.identify client with
  | .error e => .error (.identify cfg.name e)
  | .ok identity =>
    if identity.protocolVersion ≠ protocolVersion then
      .error (.protocol cfg.name identity.protocolVersion)
    else match cfg.uniqueId with
      | none => .ok ⟨client, identity⟩
      | some want =>
        let got := format 16 identity.uniqueId.toNat
        if eqIgnoreAsciiCase got want.toList then .ok ⟨client, identity⟩
        else .error (.uniqueId cfg.name (String.ofList got) want)

/-- `Node::connect`. -/
def Node.connect (token expectedRig : Option String) : Except ConnectError (Node Client) :=
  match cfg.addr with
  | some addr =>
    match token with
    | none => .error (.noToken cfg.name)
    | some token =>
      match wire.connectNode addr token with
      | .error e => .error (.network e)
      | .ok (client, rigName) =>
        match expectedRig with
        | none => Node.identify wire cfg client
        | some want =>
          if rigName = want then Node.identify wire cfg client
          else .error (.wrongRig cfg.name addr rigName want)
  | none =>
    match wire.tryNewRawNusb (usbMatches cfg.serial cfg.product) with
    | .error e => .error (.usb cfg.name e)
    | .ok client => Node.identify wire cfg client

end Connect

/-! ## Looking an assistant up -/

/-- A path as it is shown. -/
def display (path : Path) : String := String.ofList (fromUtf8Lossy path)

/-- `read_token`, where `readToString` is `std::fs::read_to_string`. -/
def readToken (readToString : Path → Except String String) (path baseDir : Path) :
    Except String String :=
  let path := if isAbsolute path then path else join baseDir path
  match readToString path with
  | .error e => .error ("reading token file " ++ display path ++ ": " ++ e)
  | .ok token =>
    let token := trim token
    if token.isEmpty then .error ("token file " ++ display path ++ " is empty") else .ok token

/-- Why `Rig::assistant` failed. -/
inductive AssistantError where
  /-- `no assistant '{name}' in rig config`. -/
  | unknown (name : String)
  | token (e : String)
  | connect (e : ConnectError)

/-- A rig with its configuration. -/
structure ConfiguredRig (Table : Type) extends Rig where
  config : RigConfig Table

/-- The token of an entry, if it has a file for it. -/
def AssistantConfig.token (a : AssistantConfig) (readToString : Path → Except String String)
    (baseDir : Path) : Except String (Option String) :=
  match a.tokenFile with
  | none => .ok none
  | some file => (readToken readToString file baseDir).map some

/-- `Rig::assistant`. -/
def ConfiguredRig.assistant {Table Client : Type} (rig : ConfiguredRig Table)
    (readToString : Path → Except String String) (wire : Wire Client) (name : String) :
    Except AssistantError (Node Client) :=
  match rig.config.assistant name with
  | none => .error (.unknown name)
  | some cfg =>
    match cfg.token readToString rig.baseDir with
    | .error e => .error (.token e)
    | .ok token => (Node.connect wire cfg token rig.config.rig.name).mapError .connect

/-! ## What `connect` is called with -/

section Token

variable {readToString : Path → Except String String} {path baseDir resolved : Path}

/-- What `read_token` returns of a file that cannot be read. -/
theorem readToken_of_error (hpath : resolved = if isAbsolute path then path else join baseDir path)
    {e : String} (h : readToString resolved = .error e) :
    readToken readToString path baseDir
      = .error ("reading token file " ++ display resolved ++ ": " ++ e) := by
  subst hpath
  unfold readToken
  dsimp only
  rw [h]

/-- And of one that can. -/
theorem readToken_of_ok (hpath : resolved = if isAbsolute path then path else join baseDir path)
    {text : String} (h : readToString resolved = .ok text) :
    readToken readToString path baseDir
      = if trim text = "" then .error ("token file " ++ display resolved ++ " is empty")
        else .ok (trim text) := by
  subst hpath
  unfold readToken
  dsimp only
  rw [h]
  simp only [String.isEmpty_iff]

end Token

section Entry

variable {a : AssistantConfig}

/-- What the file for a token is worth: it cannot be read, it is empty but for blanks, or
there is a token in it. -/
inductive TokenFile (readToString : Path → Except String String) (baseDir file : Path) :
    Except String String → Prop where
  /-- It is looked for beside the configuration, unless its path is absolute. -/
  | unreadable {resolved : Path}
      (hpath : resolved = if isAbsolute file then file else join baseDir file) {e : String}
      (hread : readToString resolved = .error e) :
      TokenFile readToString baseDir file
        (.error ("reading token file " ++ display resolved ++ ": " ++ e))
  /-- An empty token would be no secret, so it is refused like none. -/
  | empty {resolved : Path}
      (hpath : resolved = if isAbsolute file then file else join baseDir file) {text : String}
      (hread : readToString resolved = .ok text) (hblank : trim text = "") :
      TokenFile readToString baseDir file
        (.error ("token file " ++ display resolved ++ " is empty"))
  /-- An editor's last line break is not a part of it. -/
  | token {resolved : Path}
      (hpath : resolved = if isAbsolute file then file else join baseDir file) {text : String}
      (hread : readToString resolved = .ok text) (hblank : trim text ≠ "") :
      TokenFile readToString baseDir file (.ok (trim text))

/-- **`read_token` says what the file is worth.** -/
theorem readToken_spec (readToString : Path → Except String String) (baseDir file : Path) :
    TokenFile readToString baseDir file (readToken readToString file baseDir) := by
  obtain ⟨resolved, hpath⟩ : ∃ resolved,
      resolved = if isAbsolute file then file else join baseDir file := ⟨_, rfl⟩
  cases hread : readToString resolved with
  | error e =>
    rw [readToken_of_error hpath hread]
    exact .unreadable hpath hread
  | ok text =>
    rw [readToken_of_ok hpath hread]
    by_cases hblank : trim text = ""
    · rw [if_pos hblank]
      exact .empty hpath hread hblank
    · rw [if_neg hblank]
      exact .token hpath hread hblank

/-- A token that is worth something is not empty. -/
theorem TokenFile.ne_empty {readToString : Path → Except String String} {baseDir file : Path}
    {t : String} (h : TokenFile readToString baseDir file (.ok t)) : t ≠ "" := by
  cases h with
  | token _ _ hblank => exact hblank

/-- What becomes of the token of an entry: it is resolved, to what is in the file for it,
if there is one; or the file is worth nothing. -/
theorem AssistantConfig.token_cases (a : AssistantConfig)
    (readToString : Path → Except String String) (baseDir : Path) :
    (a.tokenFile = none ∧ a.token readToString baseDir = .ok none)
      ∨ (∃ file ∈ a.tokenFile, ∃ t, TokenFile readToString baseDir file (.ok t)
        ∧ a.token readToString baseDir = .ok (some t))
      ∨ ∃ file ∈ a.tokenFile, ∃ e, TokenFile readToString baseDir file (.error e)
        ∧ a.token readToString baseDir = .error e := by
  unfold AssistantConfig.token
  cases a.tokenFile with
  | none => exact .inl ⟨rfl, rfl⟩
  | some file =>
    have hspec := readToken_spec readToString baseDir file
    dsimp only
    cases hread : readToken readToString file baseDir with
    | ok t =>
      rw [hread] at hspec
      exact .inr (.inl ⟨file, rfl, t, hspec, rfl⟩)
    | error e =>
      rw [hread] at hspec
      exact .inr (.inr ⟨file, rfl, e, hspec, rfl⟩)

/-- Of the entries that can be run, those of network nodes have a file for a token. -/
theorem AssistantConfig.Runnable.isNetwork_iff (h : a.Runnable) :
    a.isNetwork = true ↔ a.tokenFile ≠ none := by
  rw [AssistantConfig.isNetwork]
  cases haddr : a.addr with
  | some addr => exact ⟨fun _ => (h.network addr haddr).2.1, fun _ => rfl⟩
  | none =>
    exact ⟨fun hno => absurd hno Bool.false_ne_true,
      fun hfile => absurd (h.usb haddr).2 hfile⟩

/-- An entry with something to know a device by does not match every device. -/
theorem AssistantConfig.Runnable.usbMatches_eq_false (h : a.Runnable) (haddr : a.addr = none) :
    ∃ d, usbMatches a.serial a.product d = false := by
  refine ⟨⟨none, none⟩, ?_⟩
  unfold usbMatches
  obtain hserial | hproduct := (h.usb haddr).1
  · obtain ⟨serial, hserial⟩ := Option.ne_none_iff_exists'.mp hserial
    rw [hserial]
    rfl
  · obtain ⟨product, hproduct⟩ := Option.ne_none_iff_exists'.mp hproduct
    rw [hproduct]
    exact Bool.and_false _

end Entry

section Errors

variable {Client : Type} {wire : Wire Client} {cfg : AssistantConfig}

/-- Asking a node who it is does not need a token. -/
theorem identify_error {client : Client} {e : ConnectError}
    (h : Node.identify wire cfg client = .error e) : e.isNoToken = false := by
  unfold Node.identify at h
  split at h
  case h_1 =>
    obtain ⟨⟩ := h
    rfl
  case h_2 =>
    split at h
    case isTrue =>
      obtain ⟨⟩ := h
      rfl
    case isFalse =>
      split at h
      case h_1 => obtain ⟨⟩ := h
      case h_2 =>
        dsimp only at h
        split at h
        case isTrue => obtain ⟨⟩ := h
        case isFalse =>
          obtain ⟨⟩ := h
          rfl

/-- **`connect` misses no token** where a network node comes with one. -/
theorem connect_error {token expectedRig : Option String}
    (htoken : cfg.isNetwork = true → token ≠ none) {e : ConnectError}
    (h : Node.connect wire cfg token expectedRig = .error e) : e.isNoToken = false := by
  unfold Node.connect at h
  split at h
  case h_1 addr haddr =>
    have hnetwork : cfg.isNetwork = true := by
      rw [AssistantConfig.isNetwork, haddr]
      rfl
    split at h
    case h_1 => exact absurd rfl (htoken hnetwork)
    case h_2 =>
      split at h
      case h_1 =>
        obtain ⟨⟩ := h
        rfl
      case h_2 =>
        split at h
        case h_1 => exact identify_error h
        case h_2 =>
          split at h
          case isTrue => exact identify_error h
          case isFalse =>
            obtain ⟨⟩ := h
            rfl
  case h_2 =>
    split at h
    case h_1 =>
      obtain ⟨⟩ := h
      rfl
    case h_2 => exact identify_error h

end Errors

/-- **What `Rig::assistant` does with a name**, whatever there is to connect to. -/
inductive Resolution {Table : Type} (c : RigConfig Table)
    (readToString : Path → Except String String) (baseDir : Path) (name : String) : Prop where
  /-- It fails: no entry has that name. -/
  | unknown (hnone : ∀ a ∈ c.assistants, a.name ≠ name)
      (h : ∀ (Client : Type) (wire : Wire Client),
        ConfiguredRig.assistant ⟨⟨baseDir⟩, c⟩ readToString wire name
          = .error (.unknown name))
  /-- It fails: the file for the token of the entry cannot be read, or there is nothing but
  blanks in it, and the error says which. -/
  | unreadable {a : AssistantConfig} (ha : a ∈ c.assistants) (hname : a.name = name)
      {file : Path} (hfile : file ∈ a.tokenFile) {e : String}
      (hread : TokenFile readToString baseDir file (.error e))
      (h : ∀ (Client : Type) (wire : Wire Client),
        ConfiguredRig.assistant ⟨⟨baseDir⟩, c⟩ readToString wire name = .error (.token e))
  /-- It calls `connect` with the entry, and with a token exactly if the entry is that of a
  network node: what is in the file, without the blanks around it, which is not empty.
  `connect` does not miss a token, and does not take every device there is on USB. -/
  | connects {a : AssistantConfig} (ha : a ∈ c.assistants) (hname : a.name = name)
      {token : Option String} (htoken : token ≠ none ↔ a.isNetwork = true)
      (hread : ∀ t ∈ token, t ≠ "" ∧ ∃ file ∈ a.tokenFile,
        TokenFile readToString baseDir file (.ok t))
      (h : ∀ (Client : Type) (wire : Wire Client),
        ConfiguredRig.assistant ⟨⟨baseDir⟩, c⟩ readToString wire name
          = (Node.connect wire a token c.rig.name).mapError .connect)
      (hmissing : ∀ (Client : Type) (wire : Wire Client) (e : ConnectError),
        Node.connect wire a token c.rig.name = .error e → e.isNoToken = false)
      (husb : a.addr = none → ∃ d, usbMatches a.serial a.product d = false)

/-- Every name is resolved in one of these ways, where the configuration can be run. -/
theorem RigConfig.Runnable.resolution {Table : Type} {c : RigConfig Table} (hc : c.Runnable)
    (readToString : Path → Except String String) (baseDir : Path) (name : String) :
    Resolution c readToString baseDir name := by
  cases hfind : c.assistant name with
  | none =>
    refine .unknown (fun a ha hname => ?_) (fun Client wire => ?_)
    · rw [← hname, hc.assistant_eq ha] at hfind
      exact absurd hfind (Option.some_ne_none a)
    · unfold ConfiguredRig.assistant
      dsimp only
      rw [hfind]
  | some a =>
    obtain ⟨ha, hname⟩ := RigConfig.mem_of_assistant hfind
    have hassistant (Client : Type) (wire : Wire Client) :
        ConfiguredRig.assistant ⟨⟨baseDir⟩, c⟩ readToString wire name
          = match a.token readToString baseDir with
            | .error e => .error (.token e)
            | .ok token => (Node.connect wire a token c.rig.name).mapError .connect := by
      unfold ConfiguredRig.assistant
      dsimp only
      rw [hfind]
    have hrunnable : a.Runnable := hc.assistants a ha
    have hconnects {token : Option String} (htoken : a.token readToString baseDir = .ok token)
        (hfile : token ≠ none ↔ a.tokenFile ≠ none)
        (hread : ∀ t ∈ token, t ≠ "" ∧ ∃ file ∈ a.tokenFile,
          TokenFile readToString baseDir file (.ok t)) :
        Resolution c readToString baseDir name := by
      have hnetwork : token ≠ none ↔ a.isNetwork = true := by
        rw [hfile, hrunnable.isNetwork_iff]
      exact .connects ha hname hnetwork hread
        (fun Client wire => by rw [hassistant, htoken])
        (fun Client wire e he => connect_error hnetwork.mpr he)
        (fun haddr => hrunnable.usbMatches_eq_false haddr)
    obtain ⟨hnone, htoken⟩ | ⟨file, hfile, t, hread, htoken⟩ | ⟨file, hfile, e, hread, htoken⟩ :=
      a.token_cases readToString baseDir
    · exact hconnects htoken (iff_of_false (fun h => h rfl) (fun h => h hnone))
        (fun t ht => absurd ht (Option.not_mem_none t))
    · refine hconnects htoken (iff_of_true (Option.some_ne_none t) ?_) (fun t' ht' => ?_)
      · exact Option.ne_none_iff_exists'.mpr ⟨file, hfile⟩
      · obtain rfl := Option.some.inj ht'
        exact ⟨hread.ne_empty, file, hfile, hread⟩
    · exact .unreadable ha hname hfile hread (fun Client wire => by rw [hassistant, htoken])

/-- **Validation accepts exactly what can be run, and leaves nothing of an entry for
`connect` to find wrong.** In a configuration that validates, every entry is found
under its name, and whatever name `Rig::assistant` is called with, it is resolved
(`Resolution`). -/
theorem validate_faithful {Table : Type} (c : RigConfig Table) :
    (c.validate = .ok () ↔ c.Runnable)
      ∧ (c.validate = .ok () →
        (∀ a ∈ c.assistants, c.assistant a.name = some a)
        ∧ (∀ i ∈ c.instruments, c.instrument i.name = some i)
        ∧ ∀ (readToString : Path → Except String String) (baseDir : Path) (name : String),
          Resolution c readToString baseDir name) := by
  refine ⟨RigConfig.validate_eq_ok_iff, fun hvalid => ?_⟩
  have hrunnable : c.Runnable := RigConfig.validate_eq_ok_iff.mp hvalid
  exact ⟨fun a ha => hrunnable.assistant_eq ha, fun i hi => hrunnable.instrument_eq hi,
    hrunnable.resolution⟩

/-- The node of a rig daemon, with its id in lower case. -/
def daemonNode : AssistantConfig where
  name := "a0"
  serial := none
  product := none
  addr := some "127.0.0.1:9000"
  tokenFile := some (utf8 "token")
  uniqueId := some "000000000000002a"

/-- A daemon of `test-rig`, with a node that reports 42. -/
def daemonWire : Wire Unit where
  connectNode _ _ := .ok ((), "test-rig")
  tryNewRawNusb _ := .error "no device"
  identify _ := .ok ⟨.assistant, 0, 42, "banc", "0.1.0"⟩

/-- The rig with this node alone. -/
def daemonRig : RigConfig Unit := ⟨⟨some "test-rig", none, none⟩, [daemonNode], []⟩

/-- `connect` gets the token of the one entry without the blanks around it; and where the
file for it cannot be read, there is no connection, and it says why. -/
theorem daemonRig_faithful :
    daemonRig.assistant "a0" = some daemonNode
      ∧ ConfiguredRig.assistant ⟨⟨utf8 "/etc"⟩, daemonRig⟩ (fun _ => .ok " secret\n")
          daemonWire "a0"
        = (Node.connect daemonWire daemonNode (some "secret") (some "test-rig")).mapError .connect
      ∧ ConfiguredRig.assistant ⟨⟨utf8 "/etc"⟩, daemonRig⟩ (fun _ => .error "not found")
          daemonWire "a0"
        = .error (.token "reading token file /etc/token: not found") := by
  obtain ⟨hassistant, -, hresolves⟩ := (validate_faithful daemonRig).2 (by decide +kernel)
  refine ⟨hassistant daemonNode List.mem_cons_self, ?_, ?_⟩
  · cases hresolves (fun _ => .ok " secret\n") (utf8 "/etc") "a0" with
    | unknown hnone => exact absurd rfl (hnone daemonNode List.mem_cons_self)
    | unreadable ha hname hfile hread h =>
      cases hread with
      | unreadable hpath hread => exact absurd hread nofun
      | empty hpath hread hblank =>
        obtain rfl := Except.ok.inj hread
        exact absurd hblank (by decide +kernel)
    | @connects a ha hname token htoken htext h =>
      obtain rfl := List.mem_singleton.mp ha
      obtain ⟨t, rfl⟩ := Option.ne_none_iff_exists'.mp (htoken.mpr rfl)
      obtain ⟨-, file, hfile, hread⟩ := htext t rfl
      cases hread with
      | token hpath hread =>
        obtain rfl := Except.ok.inj hread
        rw [h]
        rfl
  · cases hresolves (fun _ => .error "not found") (utf8 "/etc") "a0" with
    | unknown hnone => exact absurd rfl (hnone daemonNode List.mem_cons_self)
    | unreadable ha hname hfile hread h =>
      obtain rfl := List.mem_singleton.mp ha
      obtain rfl := Option.some.inj hfile
      cases hread with
      | unreadable hpath hread =>
        obtain rfl := Except.error.inj hread
        have hshown : display (if isAbsolute (utf8 "token") then utf8 "token"
            else join (utf8 "/etc") (utf8 "token")) = "/etc/token" := by
          decide +kernel
        subst hpath
        rw [h, hshown]
        rfl
      | empty hpath hread => exact absurd hread nofun
    | @connects a ha hname token htoken htext h =>
      obtain rfl := List.mem_singleton.mp ha
      obtain ⟨t, rfl⟩ := Option.ne_none_iff_exists'.mp (htoken.mpr rfl)
      obtain ⟨-, file, hfile, hread⟩ := htext t rfl
      cases hread with
      | token hpath hread hblank => exact absurd hread nofun

/-! ## Who is admitted -/

section Admission

variable {Client : Type} (wire : Wire Client) (cfg : AssistantConfig)

/-- The transport to a node is up: `connect` has a client for it, and over the network
the name of the rig it belongs to. -/
inductive Reached : (token : Option String) → Client → (rigName : Option String) → Prop where
  | network {addr token rigName : String} {client : Client} (haddr : cfg.addr = some addr)
      (h : wire.connectNode addr token = .ok (client, rigName)) :
      Reached (some token) client (some rigName)
  | usb {token : Option String} {client : Client} (haddr : cfg.addr = none)
      (h : wire.tryNewRawNusb (usbMatches cfg.serial cfg.product) = .ok client) :
      Reached token client none

variable {wire cfg} {token rigName : Option String} {client : Client} {identity : Identity}

/-- What is left to `identify`: over the network, all but the name of the rig. -/
theorem connect_eq_ok_iff (h : Reached wire cfg token client rigName)
    {expectedRig : Option String} {node : Node Client} :
    Node.connect wire cfg token expectedRig = .ok node
      ↔ (∀ got ∈ rigName, ∀ want ∈ expectedRig, got = want)
        ∧ Node.identify wire cfg client = .ok node := by
  cases h with
  | @network addr token rigName client haddr h =>
    unfold Node.connect
    rw [haddr]
    dsimp only
    rw [h]
    cases expectedRig with
    | none =>
      exact ⟨fun hok => ⟨fun _ _ want hwant => absurd hwant (Option.not_mem_none want), hok⟩,
        fun hok => hok.2⟩
    | some want =>
      dsimp only
      split
      case isTrue heq =>
        exact ⟨fun hok => ⟨fun got hgot want' hwant' => Option.some.inj hgot ▸
          Option.some.inj hwant' ▸ heq, hok⟩, fun hok => hok.2⟩
      case isFalse hne =>
        refine ⟨fun hok => ?_, fun hok => absurd (hok.1 rigName rfl want rfl) hne⟩
        obtain ⟨⟩ := hok
  | usb haddr h =>
    unfold Node.connect
    rw [haddr]
    dsimp only
    rw [h]
    exact ⟨fun hok => ⟨fun got hgot => absurd hgot (Option.not_mem_none got), hok⟩,
      fun hok => hok.2⟩

theorem identify_eq_ok_iff (h : wire.identify client = .ok identity) {node : Node Client} :
    Node.identify wire cfg client = .ok node
      ↔ identity.protocolVersion = protocolVersion
        ∧ (∀ want ∈ cfg.uniqueId,
          eqIgnoreAsciiCase (format 16 identity.uniqueId.toNat) want.toList = true)
        ∧ ⟨client, identity⟩ = node := by
  unfold Node.identify
  rw [h]
  dsimp only
  split
  case isTrue hne =>
    refine ⟨fun hok => ?_, fun hok => absurd hok.1 hne⟩
    obtain ⟨⟩ := hok
  case isFalse heq =>
    have hversion : identity.protocolVersion = protocolVersion := Decidable.not_not.mp heq
    cases cfg.uniqueId with
    | none =>
      exact ⟨fun hok => ⟨hversion, fun want hwant => absurd hwant (Option.not_mem_none want),
        Except.ok.inj hok⟩, fun hok => congrArg Except.ok hok.2.2⟩
    | some want =>
      dsimp only
      split
      case isTrue hid =>
        exact ⟨fun hok => ⟨hversion, fun want' hwant' => Option.some.inj hwant' ▸ hid,
          Except.ok.inj hok⟩, fun hok => congrArg Except.ok hok.2.2⟩
      case isFalse hid =>
        refine ⟨fun hok => ?_, fun hok => absurd (hok.2.1 want rfl) hid⟩
        obtain ⟨⟩ := hok

/-- **The comparison accepts the number that the string denotes.** -/
theorem SixteenDigits.accepts_iff {id : String} (h : SixteenDigits id) (u : UInt64) :
    eqIgnoreAsciiCase (format 16 u.toNat) id.toList = true ↔ u.toNat = number id.toList :=
  eqIgnoreAsciiCase_format h.1 h.2 u.toNat_lt

/-- **And it accepts exactly one.** -/
theorem SixteenDigits.existsUnique {id : String} (h : SixteenDigits id) :
    ∃! u : UInt64, eqIgnoreAsciiCase (format 16 u.toNat) id.toList = true := by
  have hlt : number id.toList < 2 ^ 64 := by
    have hpow := number_lt h.2
    rwa [h.1] at hpow
  have htoNat : (UInt64.ofNat (number id.toList)).toNat = number id.toList :=
    UInt64.toNat_ofNat_of_lt' hlt
  refine ⟨UInt64.ofNat (number id.toList), (h.accepts_iff _).mpr htoNat, fun u hu => ?_⟩
  exact UInt64.toNat_inj.mp (((h.accepts_iff u).mp hu).trans htoNat.symm)

end Admission

/-- **Only the pinned device on the expected rig is admitted.** With an entry of a
configuration that validates, once the transport is up and `identify` answers,
`connect` succeeds – with that client, and that identity – exactly if the node speaks
the protocol, has the id its entry denotes, if it denotes one, and over the network
belongs to the rig that is expected, if one is. A string of sixteen digits denotes one
id of all there are. -/
theorem connect_admits_iff {Table Client : Type} {c : RigConfig Table}
    (hvalid : c.validate = .ok ()) {cfg : AssistantConfig} (hcfg : cfg ∈ c.assistants)
    {wire : Wire Client} {token rigName : Option String} {client : Client}
    (hreached : Reached wire cfg token client rigName) {identity : Identity}
    (hidentity : wire.identify client = .ok identity) (expectedRig : Option String) :
    ((∃ node, Node.connect wire cfg token expectedRig = .ok node)
      ↔ identity.protocolVersion = protocolVersion
        ∧ (∀ want ∈ cfg.uniqueId, identity.uniqueId.toNat = number want.toList)
        ∧ ∀ got ∈ rigName, ∀ want ∈ expectedRig, got = want)
      ∧ (∀ node, Node.connect wire cfg token expectedRig = .ok node →
        node = ⟨client, identity⟩)
      ∧ ∀ id, SixteenDigits id →
        ∃! u : UInt64, eqIgnoreAsciiCase (format 16 u.toNat) id.toList = true := by
  have hdigits : ∀ want ∈ cfg.uniqueId, SixteenDigits want :=
    ((RigConfig.validate_eq_ok_iff.mp hvalid).assistants cfg hcfg).uniqueId
  have hid : (∀ want ∈ cfg.uniqueId,
        eqIgnoreAsciiCase (format 16 identity.uniqueId.toNat) want.toList = true)
      ↔ ∀ want ∈ cfg.uniqueId, identity.uniqueId.toNat = number want.toList :=
    forall₂_congr fun want hwant => (hdigits want hwant).accepts_iff identity.uniqueId
  refine ⟨?_, fun node hnode => ?_, fun id h => h.existsUnique⟩
  · constructor
    · rintro ⟨node, hnode⟩
      obtain ⟨hrig, hnode⟩ := (connect_eq_ok_iff hreached).mp hnode
      obtain ⟨hversion, haccepts, -⟩ := (identify_eq_ok_iff hidentity).mp hnode
      exact ⟨hversion, hid.mp haccepts, hrig⟩
    · rintro ⟨hversion, haccepts, hrig⟩
      exact ⟨⟨client, identity⟩, (connect_eq_ok_iff hreached).mpr
        ⟨hrig, (identify_eq_ok_iff hidentity).mpr ⟨hversion, hid.mpr haccepts, rfl⟩⟩⟩
  · obtain ⟨-, hnode⟩ := (connect_eq_ok_iff hreached).mp hnode
    exact ((identify_eq_ok_iff hidentity).mp hnode).2.2.symm

theorem connect_admits_daemonNode :
    ∃ node, Node.connect daemonWire daemonNode (some "secret") (some "test-rig") = .ok node := by
  let rig : RigConfig Unit := ⟨⟨some "test-rig", none, none⟩, [daemonNode], []⟩
  have hvalid : rig.validate = .ok () := by decide +kernel
  refine (connect_admits_iff hvalid List.mem_cons_self (.network rfl rfl) rfl _).1.mpr
    ⟨rfl, fun want hwant => ?_, fun got hgot want hwant => ?_⟩
  · obtain rfl := Option.some.inj hwant
    decide +kernel
  · obtain rfl := Option.some.inj hgot
    obtain rfl := Option.some.inj hwant
    rfl

end Banc
