import Banc.Lib.Transition
import Banc.Net.Lease.Eager
import Banc.Net.Lease.Survival
import Banc.Lib.Postcard
import Banc.Lib.PostcardSize
import Banc.Lib.Purge
import Banc.Net.Frame
import Banc.Net.Lease.Wire
import Banc.Net.Lease.Pairing
import Banc.Probe.Rtt
import Banc.Probe.Local
import Banc.Probe.Observation
import Banc.Device.DeviceTest
import Banc.Device.Lifecycle
import Banc.Device.Selection
import Banc.Device.Paired
import Banc.Runner.Teardown
import Banc.Lib.Fs
import Banc.Runner.Evidence
import Banc.Runner.Results
import Banc.Runner.Trial
import Banc.Runner.Recorded
import Banc.Runner.Linked
import Banc.Net.Lease.Capability
import Banc.Lib.Chunked
import Banc.Net.Stream
import Banc.Net.Handshake
import Banc.Net.Lease.Size
import Banc.Net.Lease.Sessions
import Banc.Rig.Flock
import Banc.Rig.Holder
import Banc.Rig.Status
import Banc.Assistant.Firmware
import Banc.Assistant.Requests
import Banc.Lib.Custody
import Banc.Assistant.Conserved
import Banc.Assistant.Acknowledged
import Banc.Lib.Lines
import Banc.Probe.Chunking
import Banc.Probe.Discard
import Banc.Runner.Tail
import Banc.Runner.Retries
import Banc.Runner.RecordText
import Banc.Runner.Torn
import Banc.Lib.Timeout
import Banc.Runner.Expect
import Banc.Lib.Hex
import Banc.Rig.Config
import Banc.Rig.Node
import Banc.Net.Oversized
import Banc.Net.Refusal
import Banc.Rig.Doctor
import Banc.Lib.Instant
import Banc.Lib.Waiting
import Banc.Rig.LockTimeout
import Banc.Lib.History
import Banc.Lib.Duty
import Banc.Assistant.Replies
import Banc.Assistant.Drivers
import Banc.Assistant.Events
import Banc.Lib.Simulation
import Banc.Net.Daemon
import Banc.Net.Lease.Remote
import Banc.Probe.Commands
import Banc.Lib.Turns
import Banc.Runner.Suites
import Banc.Rig.Cli
import Banc.Lib.Format
import Banc.Assistant.Icd
import Banc.Net.Lease.Tenure
import Banc.Net.Lease.Older
import Banc.Assistant.Identify
import Banc.Probe.Target
import Banc.Lib.Socket
import Banc.Net.Lease.Patience
