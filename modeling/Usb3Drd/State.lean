import Usb3Drd.Coop.Kernel
import Usb3Drd.Coop.Signal
import Usb3Drd.Types

/-! The state of one dual role device: the members of its five modules, the signals
that connect them, and the points at which its processes wait. A pending zero-time
notification of an event is a flag that the next update phase takes back. -/
namespace Usb3Drd

open Coop

structure RoleManager where
  mRole : Usb3Role := .none
  mHostRequested : Bool := false
  mDeviceRequested : Bool := false
  mRoleRequestEvent : Bool := false
  deriving DecidableEq

structure ProtocolLayer where
  mSeqNum : BitVec 32 := 0
  deriving DecidableEq

structure Usb3Trb where
  trbLength : BitVec 32 := 0
  devAddr : BitVec 8 := 0
  endpoint : BitVec 8 := 0
  direction : Usb3Dir := .hostToDevice
  epType : Usb3EpType := .bulk
  ioc : Bool := true
  payload : List Byte := []
  deriving DecidableEq

structure Usb3DeviceInfo where
  addr : BitVec 8 := 0
  vendorId : BitVec 16 := 0
  productId : BitVec 16 := 0
  numConfigs : BitVec 8 := 0
  activeConfig : BitVec 8 := 0
  enumerated : Bool := false
  deriving DecidableEq

structure HostController where
  mNextAddr : BitVec 8 := 1
  mDev : Usb3DeviceInfo := {}
  mTransferRing : List Usb3Trb := []
  mRxBuf : List Byte := []
  mRespData : List Byte := []
  mRespValid : Bool := false
  mTrbCompleteEvent : Bool := false
  deriving DecidableEq

structure UsbDeviceDescriptor where
  bLength : BitVec 8 := 18
  bDescriptorType : BitVec 8 := usbDescDevice
  bcdUSB : BitVec 16 := 0x0300
  bDeviceClass : BitVec 8 := 0xFF
  bDeviceSubClass : BitVec 8 := 0x00
  bDeviceProtocol : BitVec 8 := 0x00
  bMaxPacketSize0 : BitVec 8 := 9
  idVendor : BitVec 16 := 0xAB12
  idProduct : BitVec 16 := 0xCD34
  bcdDevice : BitVec 16 := 0x0100
  iManufacturer : BitVec 8 := 1
  iProduct : BitVec 8 := 2
  iSerialNumber : BitVec 8 := 3
  bNumConfigurations : BitVec 8 := 1
  deriving DecidableEq

structure Usb3EpFifo where
  buffer : List Byte := []
  hasData : Bool := false
  deriving DecidableEq

structure DeviceController where
  mConfigured : Bool := false
  mAssignedAddr : BitVec 8 := 0
  mEp1In : Usb3EpFifo := {}
  mEp2Out : Usb3EpFifo := {}
  mOutEpEvent : Bool := false
  mDevDesc : UsbDeviceDescriptor := {}
  mConfigBlob : List Byte := []
  deriving DecidableEq

structure Drd where
  ccState : Sig UsbCCcState := .steady .disconnected
  vbus : Sig Bool := .steady false
  irq : Sig Bool := .steady false
  sigRole : Sig Usb3Role := .steady .none
  sigRoleChanged : Sig Bool := .steady false
  sigCcStateInt : Sig UsbCCcState := .steady .disconnected
  sigVbusInt : Sig Bool := .steady false
  sigHostEnable : Sig Bool := .steady false
  sigXferDone : Sig Bool := .steady false
  sigEnumDone : Sig Bool := .steady false
  sigDevAddr : Sig (BitVec 8) := .steady 0
  sigDevEnable : Sig Bool := .steady false
  sigBulkIrq : Sig Bool := .steady false
  sigConfigured : Sig Bool := .steady false
  protocol : ProtocolLayer := {}
  hostCtrl : HostController := {}
  devCtrl : DeviceController := {}
  roleMgr : RoleManager := {}
  mRegs : Vector (BitVec 32) 8 := .replicate 8 0
  mIntrEnable : BitVec 32 := 0xFFFFFFFF
  mIntrStatus : BitVec 32 := 0
  deriving DecidableEq

/-- The points at which processes wait, by what they wait for. -/
inductive WaitPoint
  | roleInputs | rolePulse
  | roleSwitch | roleSettle
  | interruptSources | externalInputs
  | enablePosedge | setupStage | dataStage | statusStage | addrSettle | enumPulse
  | trbComplete | xferPulse
  | setAddressSettle | outEp | bulkIrqPulse
  | assertion
  deriving DecidableEq

def ns : ℕ := 1000
def us : ℕ := 1000 * ns
def ms : ℕ := 1000 * us

/-- Timed waits, in picoseconds. -/
def WaitPoint.delay : WaitPoint → Option ℕ
  | .rolePulse => some (10*ns)
  | .roleSettle => some (1*us)
  | .setupStage => some (5*us)
  | .dataStage => some (5*us)
  | .statusStage => some (2*us)
  | .addrSettle => some (2*ms)
  | .enumPulse => some (10*ns)
  | .xferPulse => some (1*ns)
  | .setAddressSettle => some (2*ms)
  | .bulkIrqPulse => some (10*ns)
  | _ => none

namespace Drd

/-- Event waits: does the update phase that follows fire an event waited for? A
failed assertion never continues. -/
def wakes (s : Drd) : WaitPoint → Bool
  | .roleInputs => s.sigCcStateInt.changes || s.sigVbusInt.changes || s.roleMgr.mRoleRequestEvent
  | .roleSwitch => s.sigRoleChanged.rises
  | .interruptSources => s.sigRoleChanged.changes || s.sigEnumDone.changes ||
      s.sigXferDone.changes || s.sigBulkIrq.rises
  | .externalInputs => s.ccState.changes || s.vbus.changes
  | .enablePosedge => s.sigHostEnable.rises
  | .trbComplete => s.hostCtrl.mTrbCompleteEvent
  | .outEp => s.devCtrl.mOutEpEvent
  | _ => false

/-- The update phase: signal writes take effect and pending notifications are spent. -/
def update (s : Drd) : Drd :=
  { s with
    ccState := s.ccState.update
    vbus := s.vbus.update
    irq := s.irq.update
    sigRole := s.sigRole.update
    sigRoleChanged := s.sigRoleChanged.update
    sigCcStateInt := s.sigCcStateInt.update
    sigVbusInt := s.sigVbusInt.update
    sigHostEnable := s.sigHostEnable.update
    sigXferDone := s.sigXferDone.update
    sigEnumDone := s.sigEnumDone.update
    sigDevAddr := s.sigDevAddr.update
    sigDevEnable := s.sigDevEnable.update
    sigBulkIrq := s.sigBulkIrq.update
    sigConfigured := s.sigConfigured.update
    hostCtrl := { s.hostCtrl with mTrbCompleteEvent := false }
    devCtrl := { s.devCtrl with mOutEpEvent := false }
    roleMgr := { s.roleMgr with mRoleRequestEvent := false } }

def settled (s : Drd) : Bool :=
  !s.ccState.changes && !s.vbus.changes && !s.irq.changes && !s.sigRole.changes &&
  !s.sigRoleChanged.changes && !s.sigCcStateInt.changes && !s.sigVbusInt.changes &&
  !s.sigHostEnable.changes && !s.sigXferDone.changes && !s.sigEnumDone.changes &&
  !s.sigDevAddr.changes && !s.sigDevEnable.changes && !s.sigBulkIrq.changes &&
  !s.sigConfigured.changes

def quiet (s : Drd) : Bool :=
  s.settled && !s.roleMgr.mRoleRequestEvent && !s.hostCtrl.mTrbCompleteEvent &&
  !s.devCtrl.mOutEpEvent

/-- Without a pending write every signal is as it was written last. -/
structure Settled (s : Drd) : Prop where
  ccState : s.ccState.cur = s.ccState.nxt
  vbus : s.vbus.cur = s.vbus.nxt
  irq : s.irq.cur = s.irq.nxt
  role : s.sigRole.cur = s.sigRole.nxt
  roleChanged : s.sigRoleChanged.cur = s.sigRoleChanged.nxt
  ccStateInt : s.sigCcStateInt.cur = s.sigCcStateInt.nxt
  vbusInt : s.sigVbusInt.cur = s.sigVbusInt.nxt
  hostEnable : s.sigHostEnable.cur = s.sigHostEnable.nxt
  xferDone : s.sigXferDone.cur = s.sigXferDone.nxt
  enumDone : s.sigEnumDone.cur = s.sigEnumDone.nxt
  devAddr : s.sigDevAddr.cur = s.sigDevAddr.nxt
  devEnable : s.sigDevEnable.cur = s.sigDevEnable.nxt
  bulkIrq : s.sigBulkIrq.cur = s.sigBulkIrq.nxt
  configured : s.sigConfigured.cur = s.sigConfigured.nxt

theorem settled_signals {s : Drd} (h : s.settled = true) : s.Settled := by
  simp only [settled,Bool.and_eq_true,Bool.not_eq_true',Sig.changes_eq_false] at h
  constructor <;> tauto

theorem settled_of_quiet {s : Drd} (h : s.quiet = true) : s.Settled := by
  simp only [quiet,Bool.and_eq_true] at h
  exact settled_signals h.1.1.1

end Drd

/-- The loops of the processes; `returned` ends an inbound call with its status. -/
inductive Loop
  | roleDetection | roleSwitch | interruptCollector | forwardInputs
  | hostMain | transferRing | loopback
  | returned (response : TlmResponse)
  deriving DecidableEq

/-- Code of the device. Calls leave it through the link socket of the protocol layer. -/
abbrev DrdProc := Proc Drd WaitPoint Payload TlmResponse

end Usb3Drd
