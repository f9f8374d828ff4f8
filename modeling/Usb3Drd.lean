import Usb3Drd.Coop.Proc
import Usb3Drd.Coop.Signal
import Usb3Drd.Coop.Kernel
import Usb3Drd.Coop.Spec
import Usb3Drd.Types
import Usb3Drd.State
import Usb3Drd.RoleManager
import Usb3Drd.ProtocolLayer
import Usb3Drd.HostController
import Usb3Drd.DeviceController
import Usb3Drd.DrdController
import Usb3Drd.System
import Usb3Drd.RoleTracking
import Usb3Drd.Coop.Frame
import Usb3Drd.Footprint
import Usb3Drd.RoleEnable
import Usb3Drd.HostBench
import Usb3Drd.HostSession
import Usb3Drd.Coop.Interp
import Usb3Drd.HostData
import Usb3Drd.Interrupt
import Usb3Drd.Coop.Ends
import Usb3Drd.Exchange
import Usb3Drd.Link
import Usb3Drd.Addressing
import Usb3Drd.Completion
import Usb3Drd.Transmit
import Usb3Drd.Coop.Calls
import Usb3Drd.Coop.Relay
import Usb3Drd.Inbound
import Usb3Drd.DeviceLog
import Usb3Drd.LoopbackData
import Usb3Drd.Stranded
import Usb3Drd.DeviceSession
import Usb3Drd.Endpoints
import Usb3Drd.DisabledLink
import Usb3Drd.BreakBeforeMake
import Usb3Drd.ControlRequests
import Usb3Drd.Enumeration
import Usb3Drd.RoundTrip
import Usb3Drd.TransferRing
import Usb3Drd.RolePulse
import Usb3Drd.Coop.Latch
import Usb3Drd.StickyBits
import Usb3Drd.RaiseCause
import Usb3Drd.RegisterMap
import Usb3Drd.DeviceAddress
import Usb3Drd.Coop.Purge
import Usb3Drd.Routing
import Usb3Drd.ReplyAddress
import Usb3Drd.TransferResult
import Usb3Drd.BulkGate
import Usb3Drd.Descriptors
import Usb3Drd.NonWrites
import Usb3Drd.RingDepth
import Usb3Drd.RoleRequests
import Usb3Drd.Verdicts
import Usb3Drd.Coop.Meter
import Usb3Drd.HostMeter
import Usb3Drd.Numbering
import Usb3Drd.ReceiveBuffer
import Usb3Drd.Coop.Confine
import Usb3Drd.Effects
import Usb3Drd.Coop.Instant
import Usb3Drd.Instants
import Usb3Drd.HostMachine
import Usb3Drd.Transcript
import Usb3Drd.PeerDevice
import Usb3Drd.Coop.Closed
import Usb3Drd.PeerBench
import Usb3Drd.PeerSession
import Usb3Drd.PeerTiming
import Usb3Drd.Coop.Echo
import Usb3Drd.PeerStore
import Usb3Drd.PeerService
import Usb3Drd.Coop.Register
import Usb3Drd.RegisterFile
import Usb3Drd.Coop.Lapse
import Usb3Drd.LateTraffic
