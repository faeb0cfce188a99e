import Banc.Lib.Fs
import Banc.Lib.Hex
import Banc.Lib.Postcard
import Banc.Probe.Rtt

/-!
# The rig configuration

`banc-host/src/config.rs`: the tables of `banc-rig.toml`, as far as the rig and its
assistants need them, what `validate` makes of them, and looking up an entry by its
name.

A configuration is accepted exactly if it is one that can be run
(`validate_eq_ok_iff`, with `RigConfig.Runnable`). Names are distinct in such a
configuration, so an entry is found under its name (`find?_of_nodup`).
-/

namespace Banc

open Fs Hex Postcard Probe

/-! ## The tables -/

/-- Where and how to take the network rig lease. -/
structure LeaseConfig where
  /-- host:port of the rig daemon. -/
  addr : String
  tokenFile : Path

/-- What is said of the rig as a whole: its name, and what arbitrates who may use it. -/
structure RigMeta where
  name : Option String
  lockFile : Option Path
  lease : Option LeaseConfig

/-- An assistant node, reached over USB or the network. -/
structure AssistantConfig where
  name : String
  serial : Option String
  product : Option String
  addr : Option String
  tokenFile : Option Path
  /-- Expected device unique id as a 16-hex-digit string. -/
  uniqueId : Option String

/-- A bench instrument, with the settings of its driver in a table. -/
structure InstrumentConfig (Table : Type) where
  name : String
  kind : String
  address : Option String
  params : Table

/-- The configuration, as far as it is validated. -/
structure RigConfig (Table : Type) where
  rig : RigMeta
  assistants : List AssistantConfig
  instruments : List (InstrumentConfig Table)

/-- `is_network`. -/
def AssistantConfig.isNetwork (a : AssistantConfig) : Bool := a.addr.isSome

/-! ## Validation -/

/-- `str::trim`. -/
def trim (s : String) : String :=
  String.ofList (trimEnd (s.toList.dropWhile isWhitespace))

/-- `anyhow::ensure!`. -/
def ensure (c : Bool) (msg : String) : Except String Unit :=
  if c then .ok () else .error msg

/-- The loop over the assistants' names, and that over the instruments': every pair of
the kind and a name is put into the set. -/
def checkNames (kind : String) : List (String × String) → List String → Except String Unit
  | _, [] => .ok ()
  | seen, name :: names => do
    ensure (!(trim name).isEmpty) (kind ++ " with an empty name")
    ensure (!seen.contains (kind, name)) ("duplicate " ++ kind ++ " name '" ++ name ++ "'")
    checkNames kind ((kind, name) :: seen) names

/-- The checks of `unique_id`. -/
def checkUniqueId (a : AssistantConfig) : Except String Unit :=
  match a.uniqueId with
  | some id => ensure ((utf8 id).length == 16 && id.toList.all isAsciiHexdigit)
      ("assistant '" ++ a.name ++ "' unique_id '" ++ id ++ "' must be 16 hex digits")
  | none => .ok ()

/-- The checks of the transport. -/
def checkTransport (a : AssistantConfig) : Except String Unit :=
  if a.isNetwork then do
    ensure (a.serial.isNone && a.product.isNone)
      ("assistant '" ++ a.name ++ "' sets addr and USB serial/product; pick one transport")
    ensure a.tokenFile.isSome
      ("network assistant '" ++ a.name ++ "' has addr but no token_file")
    ensure (!(trim (a.addr.getD "")).isEmpty) ("assistant '" ++ a.name ++ "' has an empty addr")
  else do
    ensure (a.serial.isSome || a.product.isSome)
      ("USB assistant '" ++ a.name ++ "' has neither serial nor product; "
        ++ "that matches any attached device")
    ensure a.tokenFile.isNone
      ("USB assistant '" ++ a.name ++ "' has a token_file but no addr to use it with")

/-- What the second loop over the assistants does with each. -/
def checkAssistant (a : AssistantConfig) : Except String Unit := do
  checkTransport a
  checkUniqueId a

namespace RigConfig

variable {Table : Type}

/-- `validate`. -/
def validate (c : RigConfig Table) : Except String Unit := do
  checkNames "assistant" [] (c.assistants.map AssistantConfig.name)
  checkNames "instrument" [] (c.instruments.map InstrumentConfig.name)
  c.assistants.forM checkAssistant
  match c.rig.lease with
  | some lease => ensure (!(trim lease.addr).isEmpty) "rig lease has an empty addr"
  | none => .ok ()

/-- `assistant`. -/
def assistant (c : RigConfig Table) (name : String) : Option AssistantConfig :=
  c.assistants.find? (fun a => a.name == name)

/-- `instrument`. -/
def instrument (c : RigConfig Table) (name : String) : Option (InstrumentConfig Table) :=
  c.instruments.find? (fun i => i.name == name)

end RigConfig

/-! ## What can be run -/

/-- A string with nothing in it but white space. -/
def Blank (s : String) : Prop := ∀ c ∈ s.toList, isWhitespace c = true

/-- Sixteen hexadecimal digits. -/
def SixteenDigits (id : String) : Prop :=
  id.toList.length = 16 ∧ ∀ c ∈ id.toList, isAsciiHexdigit c = true

/-- An assistant that can be reached: over the network, with a token to present, or
over USB, with something to know it by. -/
structure AssistantConfig.Runnable (a : AssistantConfig) : Prop where
  network : ∀ addr ∈ a.addr,
    ¬ Blank addr ∧ a.tokenFile ≠ none ∧ a.serial = none ∧ a.product = none
  usb : a.addr = none → (a.serial ≠ none ∨ a.product ≠ none) ∧ a.tokenFile = none
  uniqueId : ∀ id ∈ a.uniqueId, SixteenDigits id

/-- Names to look entries up by. -/
structure TellApart (names : List String) : Prop where
  blank : ∀ name ∈ names, ¬ Blank name
  nodup : names.Nodup

/-- **A configuration that can be run.** -/
structure RigConfig.Runnable {Table : Type} (c : RigConfig Table) : Prop where
  assistantNames : TellApart (c.assistants.map AssistantConfig.name)
  instrumentNames : TellApart (c.instruments.map InstrumentConfig.name)
  assistants : ∀ a ∈ c.assistants, a.Runnable
  lease : ∀ lease ∈ c.rig.lease, ¬ Blank lease.addr

/-! ## The checks -/

theorem error_ne_ok {A : Type} {e : String} {a : A} : (.error e : Except String A) ≠ .ok a :=
  nofun

theorem ensure_eq_ok_iff {c : Bool} {msg : String} : ensure c msg = .ok () ↔ c = true := by
  unfold ensure
  split
  case isTrue h => exact ⟨fun _ => h, fun _ => rfl⟩
  case isFalse h => exact ⟨fun hok => absurd hok error_ne_ok, fun hc => absurd hc h⟩

/-- A check that follows another. -/
theorem bind_eq_ok_iff {x y : Except String Unit} :
    (x >>= fun _ => y) = .ok () ↔ x = .ok () ∧ y = .ok () := by
  cases x with
  | ok u => exact ⟨fun h => ⟨rfl, h⟩, fun h => h.2⟩
  | error e => exact ⟨fun h => absurd h error_ne_ok, fun h => absurd h.1 error_ne_ok⟩

theorem forM_eq_ok_iff {A : Type} {f : A → Except String Unit} {as : List A} :
    as.forM f = .ok () ↔ ∀ a ∈ as, f a = .ok () := by
  induction as with
  | nil => exact ⟨fun _ a ha => absurd ha List.not_mem_nil, fun _ => rfl⟩
  | cons a as ih =>
    rw [List.forall_mem_cons, ← ih]
    exact bind_eq_ok_iff

/-- A string is blank if nothing is left of it. -/
theorem isEmpty_trim_iff {s : String} : (trim s).isEmpty = true ↔ Blank s := by
  rw [String.isEmpty_iff, trim, ← String.toList_inj, String.toList_ofList]
  show trimEnd (s.toList.dropWhile isWhitespace) = [] ↔ _
  rw [trimEnd, List.rdropWhile_eq_nil_iff]
  constructor
  · intro h c hc
    rw [← @List.takeWhile_append_dropWhile _ isWhitespace s.toList] at hc
    obtain hc | hc := List.mem_append.mp hc
    · exact List.mem_takeWhile_imp hc
    · exact h c hc
  · exact fun h c hc => h c ((List.dropWhile_suffix isWhitespace).subset hc)

theorem not_isEmpty_trim_iff {s : String} : (!(trim s).isEmpty) = true ↔ ¬ Blank s := by
  rw [← isEmpty_trim_iff, Bool.not_eq_true', Bool.not_eq_true]

/-- A hexadecimal digit is one byte long, so sixteen bytes of them are sixteen
digits. -/
theorem sixteenDigits_iff {id : String} :
    ((utf8 id).length == 16 && id.toList.all isAsciiHexdigit) = true ↔ SixteenDigits id := by
  rw [Bool.and_eq_true, beq_iff_eq, List.all_eq_true]
  have hlength (h : ∀ c ∈ id.toList, isAsciiHexdigit c = true) :
      (utf8 id).length = id.toList.length :=
    length_utf8_of_ascii fun c hc => by
      obtain ⟨d, hd⟩ := Option.isSome_iff_exists.mp (h c hc)
      exact toNat_lt_of_hexValue hd
  exact ⟨fun h => ⟨(hlength h.2).symm.trans h.1, h.2⟩,
    fun h => ⟨(hlength h.2).trans h.1, h.2⟩⟩

theorem checkUniqueId_eq_ok_iff {a : AssistantConfig} :
    checkUniqueId a = .ok () ↔ ∀ id ∈ a.uniqueId, SixteenDigits id := by
  unfold checkUniqueId
  cases a.uniqueId with
  | none => exact ⟨fun _ id hid => absurd hid (Option.not_mem_none id), fun _ => rfl⟩
  | some id =>
    rw [ensure_eq_ok_iff, sixteenDigits_iff]
    exact ⟨fun h id' hid' => Option.some.inj hid' ▸ h, fun h => h id rfl⟩

/-- **The table of the transport fields.** -/
theorem checkAssistant_eq_ok_iff {a : AssistantConfig} :
    checkAssistant a = .ok () ↔ a.Runnable := by
  unfold checkAssistant
  rw [bind_eq_ok_iff, checkUniqueId_eq_ok_iff]
  unfold checkTransport AssistantConfig.isNetwork
  cases haddr : a.addr with
  | some addr =>
    rw [if_pos Option.isSome_some, bind_eq_ok_iff, bind_eq_ok_iff, ensure_eq_ok_iff,
      ensure_eq_ok_iff, ensure_eq_ok_iff, not_isEmpty_trim_iff, Bool.and_eq_true,
      Option.isNone_iff_eq_none, Option.isNone_iff_eq_none, Option.isSome_iff_ne_none]
    constructor
    · rintro ⟨⟨⟨hserial, hproduct⟩, htoken, hblank⟩, hid⟩
      exact {
        network := fun addr' haddr' => by
          obtain rfl := Option.some.inj (haddr.symm.trans haddr')
          exact ⟨hblank, htoken, hserial, hproduct⟩
        usb := fun hnone => absurd (haddr.symm.trans hnone) (Option.some_ne_none addr)
        uniqueId := hid }
    · intro h
      obtain ⟨hblank, htoken, hserial, hproduct⟩ := h.network addr haddr
      exact ⟨⟨⟨hserial, hproduct⟩, htoken, hblank⟩, h.uniqueId⟩
  | none =>
    have hnone : ¬ (none : Option String).isSome = true := Bool.false_ne_true
    rw [if_neg hnone, bind_eq_ok_iff, ensure_eq_ok_iff, ensure_eq_ok_iff, Bool.or_eq_true,
      Option.isNone_iff_eq_none, Option.isSome_iff_ne_none, Option.isSome_iff_ne_none]
    constructor
    · rintro ⟨husb, hid⟩
      exact {
        network := fun addr haddr' =>
          absurd (haddr'.symm.trans haddr) (Option.some_ne_none addr)
        usb := fun _ => husb
        uniqueId := hid }
    · exact fun h => ⟨h.usb haddr, h.uniqueId⟩

/-- What is in the set does not come again. -/
theorem checkNames_eq_ok_iff {kind : String} {seen : List (String × String)}
    {names : List String} :
    checkNames kind seen names = .ok ()
      ↔ TellApart names ∧ ∀ name ∈ names, (kind, name) ∉ seen := by
  induction names generalizing seen with
  | nil =>
    exact ⟨fun _ => ⟨⟨fun _ h => absurd h List.not_mem_nil, List.nodup_nil⟩,
      fun _ h => absurd h List.not_mem_nil⟩, fun _ => rfl⟩
  | cons name names ih =>
    rw [checkNames, bind_eq_ok_iff, bind_eq_ok_iff, ensure_eq_ok_iff, ensure_eq_ok_iff,
      not_isEmpty_trim_iff, Bool.not_eq_true', List.contains_eq_mem, decide_eq_false_iff_not, ih]
    constructor
    · rintro ⟨hblank, hseen, happart, hmore⟩
      -- a name that comes again is in the set by then
      have hnotMem : name ∉ names := fun h => hmore name h List.mem_cons_self
      exact ⟨⟨List.forall_mem_cons.mpr ⟨hblank, happart.blank⟩,
          List.nodup_cons.mpr ⟨hnotMem, happart.nodup⟩⟩,
        List.forall_mem_cons.mpr
          ⟨hseen, fun name' h hin => hmore name' h (List.mem_cons_of_mem _ hin)⟩⟩
    · rintro ⟨happart, hseen⟩
      obtain ⟨hblank, hblanks⟩ := List.forall_mem_cons.mp happart.blank
      obtain ⟨hnotMem, hnodup⟩ := List.nodup_cons.mp happart.nodup
      obtain ⟨hfirst, hrest⟩ := List.forall_mem_cons.mp hseen
      refine ⟨hblank, hfirst, ⟨hblanks, hnodup⟩, fun name' h hin => ?_⟩
      obtain heq | hin := List.mem_cons.mp hin
      · exact hnotMem ((Prod.mk.inj heq).2 ▸ h)
      · exact hrest name' h hin

/-- An entry is found under its name. -/
theorem find?_of_nodup {A : Type} {name : A → String} {as : List A} (h : (as.map name).Nodup)
    {a : A} (ha : a ∈ as) : as.find? (fun a' => name a' == name a) = some a := by
  induction as with
  | nil => exact absurd ha List.not_mem_nil
  | cons b as ih =>
    obtain ⟨hnotMem, hnodup⟩ := List.nodup_cons.mp h
    obtain rfl | ha := List.mem_cons.mp ha
    · exact List.find?_cons_of_pos (beq_self_eq_true _)
    · have hne : ¬ (name b == name a) = true := fun heq =>
        hnotMem (eq_of_beq heq ▸ List.mem_map_of_mem ha)
      rw [List.find?_cons_of_neg (p := fun b => name b == name a) hne, ih hnodup ha]

namespace RigConfig

variable {Table : Type} {c : RigConfig Table}

/-- **A configuration is accepted exactly if it can be run.** -/
theorem validate_eq_ok_iff : c.validate = .ok () ↔ c.Runnable := by
  have hlease : (match c.rig.lease with
      | some lease => ensure (!(trim lease.addr).isEmpty) "rig lease has an empty addr"
      | none => .ok ()) = .ok () ↔ ∀ lease ∈ c.rig.lease, ¬ Blank lease.addr := by
    cases c.rig.lease with
    | none => exact ⟨fun _ lease hlease => absurd hlease (Option.not_mem_none lease), fun _ => rfl⟩
    | some lease =>
      rw [ensure_eq_ok_iff, not_isEmpty_trim_iff]
      exact ⟨fun h lease' hlease' => Option.some.inj hlease' ▸ h, fun h => h lease rfl⟩
  have hempty (names : List String) (kind : String) :
      (∀ name ∈ names, (kind, name) ∉ ([] : List (String × String))) ↔ True :=
    iff_true_intro fun _ _ => List.not_mem_nil
  unfold validate
  rw [bind_eq_ok_iff, bind_eq_ok_iff, bind_eq_ok_iff, checkNames_eq_ok_iff, checkNames_eq_ok_iff,
    hempty, hempty, and_true, and_true, forM_eq_ok_iff, hlease]
  simp only [checkAssistant_eq_ok_iff]
  exact ⟨fun ⟨hassistants, hinstruments, hall, hlease⟩ => ⟨hassistants, hinstruments, hall, hlease⟩,
    fun h => ⟨h.assistantNames, h.instrumentNames, h.assistants, h.lease⟩⟩

/-- An entry that is found is one with that name. -/
theorem mem_of_assistant {name : String} {a : AssistantConfig} (h : c.assistant name = some a) :
    a ∈ c.assistants ∧ a.name = name := by
  unfold assistant at h
  have hname := List.find?_some h
  exact ⟨List.mem_of_find?_eq_some h, eq_of_beq hname⟩

theorem Runnable.assistant_eq (h : c.Runnable) {a : AssistantConfig} (ha : a ∈ c.assistants) :
    c.assistant a.name = some a :=
  find?_of_nodup h.assistantNames.nodup ha

theorem Runnable.instrument_eq (h : c.Runnable) {i : InstrumentConfig Table}
    (hi : i ∈ c.instruments) : c.instrument i.name = some i :=
  find?_of_nodup h.instrumentNames.nodup hi

end RigConfig

end Banc
