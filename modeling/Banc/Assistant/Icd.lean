import Banc.Assistant.Firmware
import Banc.Lib.Format
import Banc.Rig.Node

/-!
# The interface control document

`banc-icd/src/lib.rs`: what travels between the host and a node. The types of the
messages, and the endpoints and topics with their paths; postcard puts each of them on
the wire, by the formats that are put together here as the types are.

The host and the microcontroller do not have the same `usize`, and what is wrong with a
message is found by the one that reads it: a sequence that is longer than there is room
for, a variant that there is not. So there are two formats of each message, one for each
end, and what is proved is about the two (`messages_intact`).
-/

namespace Banc

namespace Assistant

open Postcard

/-! ## The types -/

/-- Max payload per UART/SPI/I2C transaction chunk in v0. -/
def chunk : ℕ := 64

/-- Max pin events returned per capture-read chunk. -/
def eventsPerChunk : ℕ := 16

/-- The request to set up the UART. -/
structure UartConfig where
  baud : UInt32
  deriving DecidableEq

/-- Bytes for a bus, or from one. -/
structure Chunk where
  /-- No more than `chunk` of them; here as everywhere, that is the format's to see to. -/
  data : List UInt8
  deriving DecidableEq

/-- UART bytes as received, stamped with the assistant-local time of the first byte in
the chunk. -/
structure UartRxChunk where
  /-- Of the clock that stamps a `PinEvent`. -/
  timestampUs : UInt64
  data : List UInt8
  deriving DecidableEq

/-- The request to exchange bytes with an SPI peripheral. -/
structure SpiTransfer where
  /-- Bytes to clock out; the same number of bytes is clocked in. -/
  write : List UInt8
  deriving DecidableEq

/-- The request to write to a device on the I2C bus, to read from it, or both. -/
structure I2cTransaction where
  /-- The device's address. -/
  addr : UInt8
  write : List UInt8
  /-- Bytes to read after the write phase (0 = write-only). -/
  readLen : UInt8
  deriving DecidableEq

/-- What is to become of a capture. -/
inductive CaptureAction where
  /-- Arm edge capture on a pin; events accumulate assistant-side. -/
  | start
  /-- Disarm; captured events stay retrievable until the next `start`. -/
  | stop
  deriving DecidableEq

/-- The request to arm or disarm the buffered capture of a pin's edges. -/
structure CaptureControl where
  pin : UInt8
  action : CaptureAction
  deriving DecidableEq

/-- How far a capture has got. -/
structure CaptureStatus where
  /-- Events currently buffered. -/
  count : UInt32
  /-- Events dropped because the buffer filled. Nonzero means the capture is incomplete. -/
  dropped : UInt32
  deriving DecidableEq

/-- The request to read from what was captured. -/
structure CaptureRead where
  /-- Event index to read from (chunked retrieval). -/
  offset : UInt32
  deriving DecidableEq

/-- A part of what was captured. -/
structure CaptureChunk where
  /-- No more than `eventsPerChunk`. -/
  events : List PinEvent
  /-- Events remaining after this chunk. -/
  remaining : UInt32
  deriving DecidableEq

deriving instance DecidableEq for NodeRole

/-! ## The formats -/

section Formats

/-- The number of variants takes a byte, for no enum has more than four. -/
theorem few {n : ℕ} (h : n ≤ 4) : n ≤ 128 := h.trans (by decide)

/-- No capacity is too large for the length to be written by either end. -/
theorem capacity {n : ℕ} (h : n ≤ 64) : n < 2 ^ 32 := Nat.lt_of_le_of_lt h (by decide)

/-- `NodeRole`. Of a plain enum the wire has the number of the variant, in the order of the
declaration. -/
def roleFormat : Format NodeRole := .enum [.assistant, .custom] (few (by decide))

/-- `Level`. -/
def levelFormat : Format IcdLevel := .enum [.low, .high] (few (by decide))

/-- `Pull`. -/
def pullFormat : Format IcdPull := .enum [.none, .up, .down] (few (by decide))

/-- `Error`. -/
def errorFormat : Format IcdError :=
  .enum [.unsupported, .busy, .hardware, .invalid] (few (by decide))

/-- `CaptureAction`. -/
def captureActionFormat : Format CaptureAction := .enum [.start, .stop] (few (by decide))

/-- `Result<T, Error>`: serde has it as an enum of two variants, `Ok` the first. -/
def resultFormat {α : Type} (F : Format α) : Format (Except IcdError α) :=
  (F.sum errorFormat).congr
    { toFun := Sum.elim .ok .error
      invFun := fun
        | .ok a => .inl a
        | .error e => .inr e
      left_inv := Sum.rec (fun _ => rfl) (fun _ => rfl)
      right_inv := Except.rec (fun _ => rfl) (fun _ => rfl) }

/-- `PinMode`: the first variant has a field, the second none. -/
def pinModeFormat : Format PinMode :=
  (pullFormat.sum .unit).congr
    { toFun := Sum.elim .input (fun _ => .output)
      invFun := fun
        | .input pull => .inl pull
        | .output => .inr ()
      left_inv := Sum.rec (fun _ => rfl) (fun _ => rfl)
      right_inv := PinMode.rec (fun _ => rfl) rfl }

/-- `GpioConfig`. Of a struct the wire has the fields, one after the other. -/
def gpioConfigFormat : Format GpioConfig :=
  (Format.u8.pair pinModeFormat).congr
    ⟨fun x => ⟨x.1, x.2⟩, fun rqst => (rqst.pin, rqst.mode), fun _ => rfl, fun _ => rfl⟩

/-- `GpioSet`. -/
def gpioSetFormat : Format GpioSet :=
  (Format.u8.pair levelFormat).congr
    ⟨fun x => ⟨x.1, x.2⟩, fun rqst => (rqst.pin, rqst.level), fun _ => rfl, fun _ => rfl⟩

/-- `GpioRead`: no more than its field. -/
def gpioReadFormat : Format GpioRead :=
  Format.u8.congr ⟨fun x => ⟨x⟩, fun rqst => rqst.pin, fun _ => rfl, fun _ => rfl⟩

/-- `PinMonitor`. -/
def pinMonitorFormat : Format PinMonitor :=
  (Format.u8.pair .bool).congr
    ⟨fun x => ⟨x.1, x.2⟩, fun rqst => (rqst.pin, rqst.enable), fun _ => rfl, fun _ => rfl⟩

/-- `PinEvent`. The time is a varint, so a late event is longer. -/
def pinEventFormat : Format PinEvent :=
  (Format.u8.pair (levelFormat.pair .u64)).congr
    ⟨fun x => ⟨x.1, x.2.1, x.2.2⟩, fun event => (event.pin, event.level, event.timestampUs),
      fun _ => rfl, fun _ => rfl⟩

/-- `UartConfig`. -/
def uartConfigFormat : Format UartConfig :=
  Format.u32.congr ⟨fun x => ⟨x⟩, fun rqst => rqst.baud, fun _ => rfl, fun _ => rfl⟩

/-- `CaptureControl`. -/
def captureControlFormat : Format CaptureControl :=
  (Format.u8.pair captureActionFormat).congr
    ⟨fun x => ⟨x.1, x.2⟩, fun rqst => (rqst.pin, rqst.action), fun _ => rfl, fun _ => rfl⟩

/-- `CaptureStatus`. -/
def captureStatusFormat : Format CaptureStatus :=
  (Format.u32.pair .u32).congr
    ⟨fun x => ⟨x.1, x.2⟩, fun status => (status.count, status.dropped), fun _ => rfl,
      fun _ => rfl⟩

/-- `CaptureRead`. -/
def captureReadFormat : Format CaptureRead :=
  Format.u32.congr ⟨fun x => ⟨x⟩, fun rqst => rqst.offset, fun _ => rfl, fun _ => rfl⟩

/-! ### Those with a capacity

Their lengths are a `usize`, which is why they depend on the end. -/

variable (w : Usize)

/-- `Identity`. The capacity of its strings is in bytes. -/
def identityFormat : Format Identity :=
  (roleFormat.pair (Format.u32.pair (Format.u64.pair
      ((Format.str w 32 (capacity (by decide))).pair
        (.str w 16 (capacity (by decide))))))).congr
    ⟨fun x => ⟨x.1, x.2.1, x.2.2.1, x.2.2.2.1, x.2.2.2.2⟩,
      fun id => (id.role, id.protocolVersion, id.uniqueId, id.fwName, id.fwVersion),
      fun _ => rfl, fun _ => rfl⟩

/-- `heapless::Vec<u8, CHUNK>`: the writer cannot have more, and the reader does not take
more. -/
def bytesFormat : Format (List UInt8) := Format.u8.vec w chunk (capacity (by decide))

/-- `Chunk`. -/
def chunkFormat : Format Chunk :=
  (bytesFormat w).congr ⟨fun x => ⟨x⟩, fun c => c.data, fun _ => rfl, fun _ => rfl⟩

/-- `UartRxChunk`. -/
def uartRxChunkFormat : Format UartRxChunk :=
  (Format.u64.pair (bytesFormat w)).congr
    ⟨fun x => ⟨x.1, x.2⟩, fun c => (c.timestampUs, c.data), fun _ => rfl, fun _ => rfl⟩

/-- `SpiTransfer`. -/
def spiTransferFormat : Format SpiTransfer :=
  (bytesFormat w).congr ⟨fun x => ⟨x⟩, fun rqst => rqst.write, fun _ => rfl, fun _ => rfl⟩

/-- `I2cTransaction`. -/
def i2cTransactionFormat : Format I2cTransaction :=
  (Format.u8.pair ((bytesFormat w).pair .u8)).congr
    ⟨fun x => ⟨x.1, x.2.1, x.2.2⟩, fun rqst => (rqst.addr, rqst.write, rqst.readLen),
      fun _ => rfl, fun _ => rfl⟩

/-- `CaptureChunk`, the only one with a sequence of something other than bytes. -/
def captureChunkFormat : Format CaptureChunk :=
  ((pinEventFormat.vec w eventsPerChunk (capacity (by decide))).pair .u32).congr
    ⟨fun x => ⟨x.1, x.2⟩, fun c => (c.events, c.remaining), fun _ => rfl, fun _ => rfl⟩

end Formats

/-! ## Endpoints and topics -/

/-- What the host can ask of an assistant. -/
inductive Endpoint where
  | identify
  | reset
  | gpioConfig
  | gpioSet
  | gpioRead
  | pinMonitor
  | uartConfig
  | uartTx
  | spiTransfer
  | i2cTransaction
  | captureControl
  | captureRead
  deriving DecidableEq

/-- `ENDPOINT_LIST`. -/
def endpointList : List Endpoint :=
  [.identify, .reset, .gpioConfig, .gpioSet, .gpioRead, .pinMonitor, .uartConfig, .uartTx,
    .spiTransfer, .i2cTransaction, .captureControl, .captureRead]

/-- What an assistant says unasked. -/
inductive Topic where
  | pinEdge
  | uartRx
  deriving DecidableEq

/-- `TOPICS_OUT_LIST`; there are none the other way. -/
def topicsOutList : List Topic := [.pinEdge, .uartRx]

/-- The path of an endpoint, which `endpoints!` gives it. -/
def Endpoint.path : Endpoint → String
  | .identify => "banc/node/identify"
  | .reset => "banc/node/reset"
  | .gpioConfig => "banc/assistant/gpio/config"
  | .gpioSet => "banc/assistant/gpio/set"
  | .gpioRead => "banc/assistant/gpio/read"
  | .pinMonitor => "banc/assistant/pin/monitor"
  | .uartConfig => "banc/assistant/uart/config"
  | .uartTx => "banc/assistant/uart/tx"
  | .spiTransfer => "banc/assistant/spi/transfer"
  | .i2cTransaction => "banc/assistant/i2c/transaction"
  | .captureControl => "banc/assistant/capture/control"
  | .captureRead => "banc/assistant/capture/read"

/-- And that of a topic. One key is made from each, which is why none may be there twice. -/
def Topic.path : Topic → String
  | .pinEdge => "banc/assistant/pin/edge"
  | .uartRx => "banc/assistant/uart/rx"

/-- A kind of message: each has a key of its own, from its path and its type. -/
inductive Kind where
  | request (e : Endpoint)
  | response (e : Endpoint)
  | topic (t : Topic)
  deriving DecidableEq

/-- The type of the messages, as `endpoints!` and `topics!` list it. -/
@[reducible] def Kind.Value : Kind → Type
  | .request .identify => Unit
  | .request .reset => Unit
  | .request .gpioConfig => GpioConfig
  | .request .gpioSet => GpioSet
  | .request .gpioRead => GpioRead
  | .request .pinMonitor => PinMonitor
  | .request .uartConfig => UartConfig
  | .request .uartTx => Chunk
  | .request .spiTransfer => SpiTransfer
  | .request .i2cTransaction => I2cTransaction
  | .request .captureControl => CaptureControl
  | .request .captureRead => CaptureRead
  | .response .identify => Identity
  | .response .reset => Unit
  | .response .gpioConfig => AckResult
  | .response .gpioSet => AckResult
  | .response .gpioRead => LevelResult
  | .response .pinMonitor => AckResult
  | .response .uartConfig => AckResult
  | .response .uartTx => AckResult
  | .response .spiTransfer => Except IcdError Chunk
  | .response .i2cTransaction => Except IcdError Chunk
  | .response .captureControl => Except IcdError CaptureStatus
  | .response .captureRead => Except IcdError CaptureChunk
  | .topic .pinEdge => PinEvent
  | .topic .uartRx => UartRxChunk

/-- And their format, at an end of this width. -/
def Kind.format (w : Usize) : (k : Kind) → Format k.Value
  | .request .identify => .unit
  | .request .reset => .unit
  | .request .gpioConfig => gpioConfigFormat
  | .request .gpioSet => gpioSetFormat
  | .request .gpioRead => gpioReadFormat
  | .request .pinMonitor => pinMonitorFormat
  | .request .uartConfig => uartConfigFormat
  | .request .uartTx => chunkFormat w
  | .request .spiTransfer => spiTransferFormat w
  | .request .i2cTransaction => i2cTransactionFormat w
  | .request .captureControl => captureControlFormat
  | .request .captureRead => captureReadFormat
  | .response .identify => identityFormat w
  | .response .reset => .unit
  | .response .gpioConfig => resultFormat .unit
  | .response .gpioSet => resultFormat .unit
  | .response .gpioRead => resultFormat levelFormat
  | .response .pinMonitor => resultFormat .unit
  | .response .uartConfig => resultFormat .unit
  | .response .uartTx => resultFormat .unit
  | .response .spiTransfer => resultFormat (chunkFormat w)
  | .response .i2cTransaction => resultFormat (chunkFormat w)
  | .response .captureControl => resultFormat captureStatusFormat
  | .response .captureRead => resultFormat (captureChunkFormat w)
  | .topic .pinEdge => pinEventFormat
  | .topic .uartRx => uartRxChunkFormat w

/-- There is room for it, in the `heapless` types. The source's types say so themselves:
a value without it cannot be built there. -/
def Kind.InCapacity : (k : Kind) → k.Value → Prop
  | .request .uartTx, c => c.data.length ≤ chunk
  | .request .spiTransfer, rqst => rqst.write.length ≤ chunk
  | .request .i2cTransaction, rqst => rqst.write.length ≤ chunk
  | .response .identify, id => (utf8 id.fwName).length ≤ 32 ∧ (utf8 id.fwVersion).length ≤ 16
  | .response .spiTransfer, r => ∀ c, r = .ok c → c.data.length ≤ chunk
  | .response .i2cTransaction, r => ∀ c, r = .ok c → c.data.length ≤ chunk
  | .response .captureRead, r => ∀ c, r = .ok c → c.events.length ≤ eventsPerChunk
  | .topic .uartRx, c => c.data.length ≤ chunk
  | _, _ => True

/-- The buffers of the assistant, of which the header takes a part: `BufStorage`. -/
def packetBuffer : ℕ := 1024

/-- How long a header may get: a byte, a key of eight and a sequence number of four. -/
def maxHeader : ℕ := 13

/-! ### What fits -/

section Fits

/-- Every value of a plain enum is one of the variants that its format has. -/
theorem fits_role (role : NodeRole) : roleFormat.Fits role := by
  show role ∈ [NodeRole.assistant, .custom]
  cases role <;> decide

theorem fits_level (level : IcdLevel) : levelFormat.Fits level := by
  show level ∈ [IcdLevel.low, .high]
  cases level <;> decide

theorem fits_pull (pull : IcdPull) : pullFormat.Fits pull := by
  show pull ∈ [IcdPull.none, .up, .down]
  cases pull <;> decide

theorem fits_error (e : IcdError) : errorFormat.Fits e := by
  show e ∈ [IcdError.unsupported, .busy, .hardware, .invalid]
  cases e <;> decide

theorem fits_captureAction (action : CaptureAction) : captureActionFormat.Fits action := by
  show action ∈ [CaptureAction.start, .stop]
  cases action <;> decide

/-- Both variants fit. -/
theorem fits_pinMode (mode : PinMode) : pinModeFormat.Fits mode := by
  cases mode with
  | input pull => exact fits_pull pull
  | output => trivial

/-- An error always fits, so it is only about the value. -/
theorem fits_result {α : Type} {F : Format α} {r : Except IcdError α} :
    (resultFormat F).Fits r ↔ ∀ a, r = .ok a → F.Fits a := by
  cases r with
  | ok a =>
    refine ⟨?_, fun h => h a rfl⟩
    rintro h _ ⟨⟩
    exact h
  | error e => exact iff_of_true (fits_error e) nofun

/-- There is nothing in an event that would not fit. -/
theorem fits_pinEvent (event : PinEvent) : pinEventFormat.Fits event :=
  ⟨trivial, fits_level event.level, trivial⟩

variable {w : Usize}

/-- A sequence of bytes fits by its length alone. -/
theorem fits_bytes {bs : List UInt8} : (bytesFormat w).Fits bs ↔ bs.length ≤ chunk :=
  and_iff_left (fun _ _ => trivial)

/-- The same, of what a bus has answered. -/
theorem fits_chunk {r : Except IcdError Chunk} :
    (resultFormat (chunkFormat w)).Fits r ↔ ∀ c, r = .ok c → c.data.length ≤ chunk :=
  fits_result.trans (forall₂_congr (fun c _ => @fits_bytes w c.data))

/-- **A message fits its format if there is room for it.** -/
theorem Kind.fits_iff {k : Kind} {v : k.Value} : (k.format w).Fits v ↔ k.InCapacity v := by
  cases k with
  | request e =>
    cases e with
    | identify | reset | gpioRead | uartConfig | captureRead => exact iff_of_true trivial trivial
    | gpioConfig => exact iff_of_true ⟨trivial, fits_pinMode _⟩ trivial
    | gpioSet => exact iff_of_true ⟨trivial, fits_level _⟩ trivial
    | pinMonitor => exact iff_of_true ⟨trivial, trivial⟩ trivial
    | uartTx => exact @fits_bytes w v.data
    | spiTransfer => exact @fits_bytes w v.write
    | i2cTransaction =>
      exact ((and_iff_right trivial).trans (and_iff_left trivial)).trans (@fits_bytes w v.write)
    | captureControl => exact iff_of_true ⟨trivial, fits_captureAction _⟩ trivial
  | response e =>
    cases e with
    | identify =>
      exact ⟨fun h => h.2.2.2, fun h => ⟨fits_role v.role, trivial, trivial, h⟩⟩
    | reset => exact iff_of_true trivial trivial
    | gpioConfig | gpioSet | pinMonitor | uartConfig | uartTx =>
      exact iff_of_true (fits_result.mpr (fun _ _ => trivial)) trivial
    | gpioRead => exact iff_of_true (fits_result.mpr (fun _ _ => fits_level _)) trivial
    | spiTransfer => exact fits_chunk
    | i2cTransaction => exact fits_chunk
    | captureControl => exact iff_of_true (fits_result.mpr (fun _ _ => ⟨trivial, trivial⟩)) trivial
    | captureRead =>
      refine fits_result.trans (forall₂_congr (fun c _ => ?_))
      exact (and_iff_left trivial).trans (and_iff_left (fun event _ => fits_pinEvent event))
  | topic t =>
    cases t with
    | pinEdge => exact iff_of_true (fits_pinEvent v) trivial
    | uartRx => exact (and_iff_right trivial).trans (@fits_bytes w v.data)

end Fits

/-! ### How long it gets -/

section Size

variable {w : Usize}

/-- A byte for the length, which is no more than 64. -/
theorem size_bytes : (bytesFormat w).size = 65 := Format.size_vec (by decide)

/-- The role, the numbers as long as they get, and the strings with their lengths. -/
theorem size_identity : (identityFormat w).size = 66 := by
  show 1 + (5 + (10 + ((Format.str w 32 _).size + (Format.str w 16 _).size))) = 66
  rw [Format.size_str (by decide), Format.size_str (by decide)]

/-- Sixteen events, as long as they get. -/
theorem size_captureChunk : (captureChunkFormat w).size = 198 := by
  show (pinEventFormat.vec w eventsPerChunk _).size + 5 = 198
  rw [Format.size_vec (by decide)]
  rfl

/-- The variant's number, and the longer of the two. -/
theorem size_result {α : Type} {F : Format α} {n : ℕ} (h : F.size ≤ n) (hn : 1 ≤ n) :
    (resultFormat F).size ≤ 1 + n :=
  Nat.add_le_add_left (max_le h hn) 1

/-- **The longest is a `CaptureChunk`.** -/
theorem Kind.size_le (k : Kind) : (k.format w).size ≤ 199 := by
  have hbytes : (bytesFormat w).size ≤ 65 := size_bytes.le
  cases k with
  | request e =>
    cases e with
    | uartTx => exact hbytes.trans (by decide)
    | spiTransfer => exact hbytes.trans (by decide)
    | i2cTransaction =>
      exact (Nat.add_le_add_left (Nat.add_le_add_right hbytes 1) 1).trans (by decide)
    | _ => exact Nat.le_of_ble_eq_true rfl
  | response e =>
    cases e with
    | identify => exact size_identity.le.trans (by decide)
    | spiTransfer => exact (size_result hbytes (by decide)).trans (by decide)
    | i2cTransaction => exact (size_result hbytes (by decide)).trans (by decide)
    | captureRead => exact size_result size_captureChunk.le (by decide)
    | _ => exact Nat.le_of_ble_eq_true rfl
  | topic t =>
    cases t with
    | pinEdge => exact Nat.le_of_ble_eq_true rfl
    | uartRx => exact (Nat.add_le_add_left hbytes 10).trans (by decide)

end Size

/-! ## Both ends -/

section Ends

variable {w w' : Usize}

/-- A length of 64 or less is the same byte for a `usize` of either width. -/
theorem same_bytes : Format.Same (bytesFormat w) (bytesFormat w') :=
  (Format.Same.refl _).vec w w' _

/-- So for what is made of bytes. -/
theorem same_chunk : Format.Same (chunkFormat w) (chunkFormat w') := same_bytes.congr _

/-- And for what may be an error. -/
theorem same_result {α : Type} {F G : Format α} (h : F.Same G) :
    (resultFormat F).Same (resultFormat G) :=
  (h.sum (.refl _)).congr _

/-- **What one end writes is what the other would have.** -/
theorem Kind.same (k : Kind) : (k.format w).Same (k.format w') := by
  have hidentity : (identityFormat w).Same (identityFormat w') :=
    ((Format.Same.refl _).pair ((Format.Same.refl _).pair ((Format.Same.refl _).pair
      ((Format.Same.str w w' _).pair (.str w w' _))))).congr _
  have hcapture : (captureChunkFormat w).Same (captureChunkFormat w') :=
    (((Format.Same.refl _).vec w w' _).pair (.refl _)).congr _
  cases k with
  | request e =>
    cases e with
    | uartTx => exact same_chunk
    | spiTransfer => exact same_bytes.congr _
    | i2cTransaction =>
      exact ((Format.Same.refl _).pair (same_bytes.pair (.refl _))).congr _
    | _ => exact .refl _
  | response e =>
    cases e with
    | identify => exact hidentity
    | spiTransfer => exact same_result same_chunk
    | i2cTransaction => exact same_result same_chunk
    | captureRead => exact same_result hcapture
    | _ => exact .refl _
  | topic t =>
    cases t with
    | pinEdge => exact .refl _
    | uartRx => exact ((Format.Same.refl _).pair same_bytes).congr _

end Ends

/-! ### The requests of the firmware -/

section Requests

/-- What the host sends: to which endpoint, and the body. -/
def Request.sent : Request → Endpoint × List UInt8
  | .gpio (.config rqst) => (.gpioConfig, gpioConfigFormat.encode rqst)
  | .gpio (.set rqst) => (.gpioSet, gpioSetFormat.encode rqst)
  | .gpio (.read rqst) => (.gpioRead, gpioReadFormat.encode rqst)
  | .pinMonitor rqst => (.pinMonitor, pinMonitorFormat.encode rqst)

/-- What `define_dispatch!` makes of it, of those endpoints that have to do with pins. -/
def Request.received : Endpoint × List UInt8 → Option Request
  | (.gpioConfig, body) => (gpioConfigFormat.decode body).map (fun rqst => .gpio (.config rqst))
  | (.gpioSet, body) => (gpioSetFormat.decode body).map (fun rqst => .gpio (.set rqst))
  | (.gpioRead, body) => (gpioReadFormat.decode body).map (fun rqst => .gpio (.read rqst))
  | (.pinMonitor, body) => (pinMonitorFormat.decode body).map .pinMonitor
  | _ => none

/-- **What the host has sent is what the handler gets.** -/
theorem Request.received_sent (rqst : Request) : received rqst.sent = some rqst := by
  have hread {α : Type} (F : Format α) (f : α → Request) {a : α} (ha : F.Fits a) :
      (F.decode (F.encode a)).map f = some (f a) :=
    congrArg (Option.map f) (F.reads a ha).fromBytes
  cases rqst with
  | gpio rqst =>
    cases rqst with
    | config rqst =>
      exact hread gpioConfigFormat (fun rqst => .gpio (.config rqst)) ⟨trivial, fits_pinMode _⟩
    | set rqst =>
      exact hread gpioSetFormat (fun rqst => .gpio (.set rqst)) ⟨trivial, fits_level _⟩
    | read rqst => exact hread gpioReadFormat (fun rqst => .gpio (.read rqst)) trivial
  | pinMonitor rqst => exact hread pinMonitorFormat .pinMonitor ⟨trivial, trivial⟩

end Requests

/-- **Messages arrive as they were sent**, or not at all. Of every request, response and
event, at either end:

* what there is room for is written at one end and read at the other, also with more after
  it, and no strict prefix of it is read; with its header it fits the buffers of the
  assistant;
* what is read, from whatever bytes, is something there is room for, and would not take
  more bytes to write;
* no two endpoints or topics have the same path;
* and the firmware gets the requests that the host has sent it. -/
theorem messages_intact (w w' : Usize) :
    (∀ (k : Kind) (v : k.Value), k.InCapacity v →
        Reads (k.format w').read ((k.format w).encode v) v
          ∧ maxHeader + ((k.format w).encode v).length ≤ packetBuffer)
      ∧ (∀ (k : Kind) (bs : List UInt8) (v : k.Value), (k.format w').decode bs = some v →
          k.InCapacity v ∧ ((k.format w).encode v).length ≤ bs.length)
      ∧ (endpointList.map Endpoint.path ++ topicsOutList.map Topic.path).Nodup
      ∧ (∀ e : Endpoint, e ∈ endpointList) ∧ (∀ t : Topic, t ∈ topicsOutList)
      ∧ ∀ rqst : Request, Request.received rqst.sent = some rqst := by
  refine ⟨fun k v hv => ⟨k.same.reads (k.fits_iff.mpr hv), ?_⟩, fun k bs v hv => ?_,
    by decide, fun e => by cases e <;> decide, fun t => by cases t <;> decide,
    Request.received_sent⟩
  · have hlength := (k.format w).length_le v (k.fits_iff.mpr hv)
    exact (Nat.add_le_add_left (hlength.trans k.size_le) maxHeader).trans (by decide)
  · have hfits : (k.format w').Fits v := (k.format w').yields.fromBytes hv
    refine ⟨k.fits_iff.mp hfits, ?_⟩
    rw [k.same.encode v ((k.same.fits v).mpr hfits)]
    exact (k.format w').takes.fromBytes hv

/-! ### A configuration -/

/-- The width of the microcontroller's `usize`. -/
def pico : Usize := ⟨5, 32, Nat.succ_pos 4, by decide, Nat.le_refl _⟩

/-- That of the host's. -/
def desk : Usize := ⟨10, 64, Nat.succ_pos 9, by decide, by decide⟩

/-- A chunk of the greatest length goes from one to the other, and one that is longer is
not read. -/
theorem longChunk_intact :
    Reads ((Kind.request .uartTx).format pico).read
        (((Kind.request .uartTx).format desk).encode ⟨List.replicate chunk 0⟩)
        ⟨List.replicate chunk 0⟩
      ∧ ((Kind.request .uartTx).format pico).decode (65 :: List.replicate 65 0) = none := by
  obtain ⟨hread, hfits, -⟩ := messages_intact desk pico
  refine ⟨(hread (.request .uartTx) ⟨List.replicate chunk 0⟩ ?_).1, ?_⟩
  · exact (List.length_replicate (n := chunk)).le
  · rfl

end Assistant

end Banc
