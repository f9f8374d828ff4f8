import Mathlib.Data.List.Basic

/-! Shared types of the controller: roles, packets, setup requests, and the payload
that every blocking transport call carries. -/
namespace Usb3Drd

abbrev Byte := BitVec 8

def usbDescDevice : BitVec 8 := 0x01
def usbDescConfiguration : BitVec 8 := 0x02
def usbDescString : BitVec 8 := 0x03
def usbDescInterface : BitVec 8 := 0x04
def usbDescEndpoint : BitVec 8 := 0x05
def usbDescBos : BitVec 8 := 0x0F
def usbDescSsEpComp : BitVec 8 := 0x30

def usbReqGetStatus : BitVec 8 := 0x00
def usbReqSetAddress : BitVec 8 := 0x05
def usbReqGetDescriptor : BitVec 8 := 0x06
def usbReqSetConfiguration : BitVec 8 := 0x09

inductive Usb3Role
  | none | host | device
  deriving DecidableEq

/-- The numeric value of the role, as the status register shows it. -/
def Usb3Role.value : Usb3Role → BitVec 8
  | .none => 0
  | .host => 1
  | .device => 2

inductive UsbCCcState
  | disconnected | ufpAttached | dfpAttached
  deriving DecidableEq

/-- Packet types. `other` is any byte without a name: packets come from the peer,
and every dispatch on the type has a default branch. -/
inductive Usb3PktType
  | tpAck | tpNrdy | tpErdy | tpStall
  | dpData | setup | ctrlData | ctrlStatus
  | bulkIn | bulkOut
  | other (value : BitVec 8)
  deriving DecidableEq

inductive Usb3Dir
  | hostToDevice | deviceToHost
  deriving DecidableEq

inductive Usb3EpType
  | control | isoch | bulk | interrupt
  deriving DecidableEq

inductive Usb3Completion
  | success | stallErr
  deriving DecidableEq

structure Usb3SetupPkt where
  bmRequestType : BitVec 8 := 0
  bRequest : BitVec 8 := 0
  wValue : BitVec 16 := 0
  wIndex : BitVec 16 := 0
  wLength : BitVec 16 := 0
  deriving DecidableEq

structure Usb3PktExt where
  pktType : Usb3PktType := .dpData
  devAddr : BitVec 8 := 0
  endpoint : BitVec 8 := 0
  direction : Usb3Dir := .hostToDevice
  epType : Usb3EpType := .bulk
  code : Usb3Completion := .success
  seqNum : BitVec 32 := 0
  setup : Usb3SetupPkt := {}
  deriving DecidableEq

def makeUsb3Ext (pktType : Usb3PktType) (devAddr endpoint : BitVec 8) (direction : Usb3Dir)
    (epType : Usb3EpType) : Usb3PktExt :=
  { pktType, devAddr, endpoint, direction, epType }

inductive TlmCommand
  | read | write | ignore
  deriving DecidableEq

inductive TlmResponse
  | incomplete | ok | genericError | addressError | commandError | burstError | byteEnableError
  deriving DecidableEq

/-- A generic payload: the data buffer stands for pointer and length, and `ext` is
the attached packet extension. -/
structure Payload where
  command : TlmCommand := .ignore
  address : BitVec 64 := 0
  data : List Byte := []
  ext : Option Usb3PktExt := none
  response : TlmResponse := .incomplete
  deriving DecidableEq

def Payload.pktType (p : Payload) : Option Usb3PktType := p.ext.map (·.pktType)

/-- The payload with a sequence number in its extension. -/
def Payload.numbered (p : Payload) (n : BitVec 32) : Payload :=
  { p with ext := p.ext.map fun ext => { ext with seqNum := n } }

@[simp] theorem Payload.numbered_pktType (p : Payload) (n : BitVec 32) :
    (p.numbered n).pktType = p.pktType := by
  simp [numbered,pktType,Function.comp_def]

end Usb3Drd
