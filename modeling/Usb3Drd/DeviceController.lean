import Usb3Drd.ProtocolLayer

/-! The device controller: requests on endpoint 0, and a loopback from the bulk OUT
endpoint 2 to the bulk IN endpoint 1. -/
namespace Usb3Drd

namespace Usb3EpFifo

def write (_ : Usb3EpFifo) (data : List Byte) : Usb3EpFifo := ⟨data,true⟩

def clear : Usb3EpFifo := {}

end Usb3EpFifo

namespace DeviceController

open Coop ProtocolLayer

def lowByte (v : BitVec 16) : Byte := (v &&& 0xFF).setWidth 8
def highByte (v : BitVec 16) : Byte := ((v >>> 8) &&& 0xFF).setWidth 8

def le (v : BitVec 16) : List Byte := [lowByte v,highByte v]

structure UsbConfigDescriptor where
  bLength : BitVec 8 := 9
  bDescriptorType : BitVec 8 := usbDescConfiguration
  wTotalLength : BitVec 16 := 9 + 9 + 7 + 6 + 7 + 6
  bNumInterfaces : BitVec 8 := 1
  bConfigurationValue : BitVec 8 := 1
  iConfiguration : BitVec 8 := 0
  bmAttributes : BitVec 8 := 0xC0
  bMaxPower : BitVec 8 := 0

structure UsbInterfaceDescriptor where
  bLength : BitVec 8 := 9
  bDescriptorType : BitVec 8 := usbDescInterface
  bInterfaceNumber : BitVec 8 := 0
  bAlternateSetting : BitVec 8 := 0
  bNumEndpoints : BitVec 8 := 2
  bInterfaceClass : BitVec 8 := 0xFF
  bInterfaceSubClass : BitVec 8 := 0x00
  bInterfaceProtocol : BitVec 8 := 0x00
  iInterface : BitVec 8 := 0

structure UsbEndpointDescriptor where
  bLength : BitVec 8 := 7
  bDescriptorType : BitVec 8 := usbDescEndpoint
  bEndpointAddress : BitVec 8 := 0
  bmAttributes : BitVec 8 := 0x02
  wMaxPacketSize : BitVec 16 := 1024
  bInterval : BitVec 8 := 0

structure UsbSsEpCompanionDescriptor where
  bLength : BitVec 8 := 6
  bDescriptorType : BitVec 8 := usbDescSsEpComp
  bMaxBurst : BitVec 8 := 0
  bmAttributes : BitVec 8 := 0
  wBytesPerInterval : BitVec 16 := 0

def devDescToBytes (d : UsbDeviceDescriptor) : List Byte :=
  [d.bLength,d.bDescriptorType] ++ le d.bcdUSB ++
  [d.bDeviceClass,d.bDeviceSubClass,d.bDeviceProtocol,d.bMaxPacketSize0] ++
  le d.idVendor ++ le d.idProduct ++ le d.bcdDevice ++
  [d.iManufacturer,d.iProduct,d.iSerialNumber,d.bNumConfigurations]

def UsbConfigDescriptor.bytes (d : UsbConfigDescriptor) : List Byte :=
  [d.bLength,d.bDescriptorType] ++ le d.wTotalLength ++
  [d.bNumInterfaces,d.bConfigurationValue,d.iConfiguration,d.bmAttributes,d.bMaxPower]

def UsbInterfaceDescriptor.bytes (d : UsbInterfaceDescriptor) : List Byte :=
  [d.bLength,d.bDescriptorType,d.bInterfaceNumber,d.bAlternateSetting,d.bNumEndpoints,
    d.bInterfaceClass,d.bInterfaceSubClass,d.bInterfaceProtocol,d.iInterface]

def UsbEndpointDescriptor.bytes (d : UsbEndpointDescriptor) : List Byte :=
  [d.bLength,d.bDescriptorType,d.bEndpointAddress,d.bmAttributes] ++ le d.wMaxPacketSize ++
  [d.bInterval]

def UsbSsEpCompanionDescriptor.bytes (d : UsbSsEpCompanionDescriptor) : List Byte :=
  [d.bLength,d.bDescriptorType,d.bMaxBurst,d.bmAttributes] ++ le d.wBytesPerInterval

/-- The configuration blob that the constructor assembles; the total length is
patched in at offset 2. -/
def initDescriptors : List Byte :=
  let ep1 : UsbEndpointDescriptor := { bEndpointAddress := 0x81, bmAttributes := 0x02 }
  let ep2 : UsbEndpointDescriptor := { bEndpointAddress := 0x02, bmAttributes := 0x02 }
  let comp : UsbSsEpCompanionDescriptor := {}
  let blob := ({} : UsbConfigDescriptor).bytes ++ ({} : UsbInterfaceDescriptor).bytes ++
    ep1.bytes ++ comp.bytes ++ ep2.bytes ++ comp.bytes
  let total : BitVec 16 := .ofNat 16 blob.length
  (blob.set 2 (lowByte total)).set 3 (highByte total)

def sendToProtocol (pktType : Usb3PktType) (endpoint : BitVec 8) (direction : Usb3Dir)
    (data : List Byte) (epType : Usb3EpType := .control) : DrdProc Unit := do
  let addr ← Proc.read (·.devCtrl.mAssignedAddr)
  let _ ← deviceBTransport
    { command := .write, data
      ext := some (makeUsb3Ext pktType addr endpoint direction epType) }
  pure ()

def stallEndpoint (ep : BitVec 8) : DrdProc Unit :=
  sendToProtocol .tpStall ep .deviceToHost (.replicate 4 0)

def sendBulkIn (data : List Byte) (ep : BitVec 8) : DrdProc Unit :=
  sendToProtocol .bulkIn ep .deviceToHost data .bulk

def bosDescriptor : List Byte :=
  [0x05,0x0F,0x16,0x00,0x01,0x0A,0x10,0x03,0x00,0x0E,0x00,0x01,0x0A,0xFF,0x07]

/-- The text of a string index, as the bytes of its characters. -/
def stringText (descIndex : BitVec 8) : Option (List Byte) :=
  if descIndex = 1 then some [0x4D,0x79,0x56,0x65,0x6E,0x64,0x6F,0x72] -- "MyVendor"
  else if descIndex = 2 then some [0x55,0x53,0x42,0x33,0x20,0x44,0x52,0x44] -- "USB3 DRD"
  else if descIndex = 3 then some [0x53,0x4E,0x2D,0x30,0x30,0x31] -- "SN-001"
  else none

def stringDescriptor (descIndex : BitVec 8) : List Byte :=
  if descIndex = 0 then [0x04,0x03,0x09,0x04]
  else match stringText descIndex with
    | some text => [.ofNat 8 (2 + text.length*2),0x03] ++ text.flatMap fun c => [c,0x00]
    | none => []

/-- The reply to GET_DESCRIPTOR, or `none` for a type that is stalled. Only the
device descriptor is not cut to `wLength`. -/
def descriptorReply (d : DeviceController) (setup : Usb3SetupPkt) : Option (List Byte) :=
  let descType := highByte setup.wValue
  let descIndex := lowByte setup.wValue
  if descType = usbDescDevice then some (devDescToBytes d.mDevDesc)
  else if descType = usbDescConfiguration then some (d.mConfigBlob.take setup.wLength.toNat)
  else if descType = usbDescBos then some (bosDescriptor.take setup.wLength.toNat)
  else if descType = usbDescString then
    some ((stringDescriptor descIndex).take setup.wLength.toNat)
  else none

def handleGetDescriptor (setup : Usb3SetupPkt) : DrdProc TlmResponse := do
  let d ← Proc.read (·.devCtrl)
  match descriptorReply d setup with
  | none =>
    stallEndpoint 0
    pure .genericError
  | some respData =>
    sendToProtocol .ctrlData 0 .deviceToHost respData
    pure .ok

def handleSetAddress (setup : Usb3SetupPkt) : DrdProc Unit := do
  Proc.modify fun s => { s with
    devCtrl := { s.devCtrl with mAssignedAddr := (setup.wValue &&& 0x7F).setWidth 8 } }
  Proc.sleep .setAddressSettle

def handleSetConfiguration (_ : Usb3SetupPkt) : DrdProc Unit :=
  Proc.modify fun s => { s with
    devCtrl := { s.devCtrl with mConfigured := true }
    sigConfigured := s.sigConfigured.write true }

def handleSetup (setup : Usb3SetupPkt) : DrdProc TlmResponse :=
  if setup.bRequest = usbReqGetDescriptor then handleGetDescriptor setup
  else if setup.bRequest = usbReqSetAddress then do
    handleSetAddress setup
    pure .ok
  else if setup.bRequest = usbReqSetConfiguration then do
    handleSetConfiguration setup
    pure .ok
  else if setup.bRequest = usbReqGetStatus then do
    sendToProtocol .ctrlData 0 .deviceToHost (.replicate 2 0)
    pure .ok
  else do
    stallEndpoint 0
    pure .genericError

def handleBulkOut (p : Payload) : DrdProc TlmResponse := do
  Proc.modify fun s => { s with
    devCtrl := { s.devCtrl with mEp2Out := s.devCtrl.mEp2Out.write p.data, mOutEpEvent := true } }
  pure .ok

def handleBulkIn : DrdProc TlmResponse := do
  let fifo ← Proc.read (·.devCtrl.mEp1In)
  if fifo.hasData then
    Proc.modify fun s => { s with devCtrl := { s.devCtrl with mEp1In := .clear } }
    sendBulkIn fifo.buffer 1
    pure .ok
  else pure .ok

/-- The dispatch of `fromProtoBTransport` on the type of a packet. -/
def reaction (p : Payload) (ext : Usb3PktExt) : DrdProc TlmResponse :=
  match ext.pktType with
  | .setup => handleSetup ext.setup
  | .bulkOut => handleBulkOut p
  | .ctrlData => handleBulkOut p
  | .ctrlStatus => do
    sendToProtocol .ctrlStatus 0 .deviceToHost [0]
    pure .ok
  | .bulkIn => handleBulkIn
  | _ => pure .genericError

def fromProtoBTransport (p : Payload) : DrdProc TlmResponse := do
  let enable ← Proc.read (·.sigDevEnable.cur)
  if enable = false then pure .genericError
  else match p.ext with
    | none => pure .genericError
    | some ext => reaction p ext

/-- The body of the endless loop of `loopbackProcess`. -/
def loopbackLoop : DrdProc Loop := do
  Proc.sleep .outEp
  let d ← Proc.read (·.devCtrl)
  if d.mConfigured = false then pure .loopback
  else if d.mEp2Out.hasData then
    Proc.modify fun s => { s with devCtrl := { s.devCtrl with
      mEp2Out := .clear
      mEp1In := s.devCtrl.mEp1In.write d.mEp2Out.buffer } }
    sendToProtocol .tpErdy 1 .deviceToHost [1,0,0,0]
    Proc.modify fun s => { s with sigBulkIrq := s.sigBulkIrq.write true }
    Proc.sleep .bulkIrqPulse
    Proc.modify fun s => { s with sigBulkIrq := s.sigBulkIrq.write false }
    pure .loopback
  else pure .loopback

section Rules

theorem fromProto_wp {γ : Type} (sp : Spec γ Drd WaitPoint Payload TlmResponse Loop) {p : Payload}
    {post : TlmResponse → Trail γ Drd WaitPoint Payload TlmResponse → Prop}
    (x : Trail γ Drd WaitPoint Payload TlmResponse) (hdrop : post .genericError x)
    (hreact : x.state.sigDevEnable.cur = true → ∀ ext, p.ext = some ext →
      (reaction p ext).wp sp.setting post x) :
    (fromProtoBTransport p).wp sp.setting post x := by
  rw [fromProtoBTransport,Proc.wp_bind,Spec.wp_read,Proc.wp_ite]
  refine ⟨fun _ => hdrop,fun hon => ?_⟩
  cases hext : p.ext with
  | none => exact hdrop
  | some ext => exact hreact (by simpa using hon) ext hext

/-- What becomes of a packet, by the enable and the extension. -/
theorem fromProto_wp_iff {γ : Type} (sp : Spec γ Drd WaitPoint Payload TlmResponse Loop) {p : Payload}
    {post : TlmResponse → Trail γ Drd WaitPoint Payload TlmResponse → Prop}
    (x : Trail γ Drd WaitPoint Payload TlmResponse) :
    (fromProtoBTransport p).wp sp.setting post x ↔
      if x.state.sigDevEnable.cur = true then
        match p.ext with
        | none => post .genericError x
        | some ext => (reaction p ext).wp sp.setting post x
      else post .genericError x := by
  rw [fromProtoBTransport,Proc.wp_bind,Spec.wp_read,Proc.wp_ite]
  cases henable : x.state.sigDevEnable.cur with
  | false => simp
  | true =>
    cases hext : p.ext with
    | none => simp
    | some ext => simp

theorem sendToProtocol_wp {γ : Type} (sp : Spec γ Drd WaitPoint Payload TlmResponse Loop)
    {pktType : Usb3PktType} {endpoint : BitVec 8} {direction : Usb3Dir} {data : List Byte}
    {epType : Usb3EpType} {post : Unit → Trail γ Drd WaitPoint Payload TlmResponse → Prop}
    (x : Trail γ Drd WaitPoint Payload TlmResponse)
    (h : ∀ q layer, q.pktType = some pktType → q.data = data → sp.setting.onCall q (fun _ => post ())
      { x with state := { x.state with protocol := layer } }) :
    (sendToProtocol pktType endpoint direction data epType).wp sp.setting post x := by
  rw [sendToProtocol,Proc.wp_bind,Spec.wp_read,Proc.wp_bind,deviceBTransport]
  exact routeTx_wp sp rfl x fun n layer => h _ layer (Payload.numbered_pktType _ n) rfl

variable {X : Type} {h : Handler Drd WaitPoint Payload TlmResponse X}

def protocolPacket (addr : BitVec 8) (pktType : Usb3PktType) (endpoint : BitVec 8)
    (direction : Usb3Dir) (data : List Byte) (epType : Usb3EpType) (seqNum : BitVec 32) : Payload :=
  { command := .write, data
    ext := some { makeUsb3Ext pktType addr endpoint direction epType with seqNum } }

/-- A reply is one call of the link, with the address that the device has by then. -/
theorem sendToProtocol_stamped (hl : h.Lawful) (pktType : Usb3PktType) (endpoint : BitVec 8)
    (direction : Usb3Dir) (data : List Byte) (epType : Usb3EpType) (x : X) :
    ∃ n layer, (usesSequence pktType = false → n = 0) ∧
      (sendToProtocol pktType endpoint direction data epType).interp h x =
        (h.call (protocolPacket (h.state x).devCtrl.mAssignedAddr pktType endpoint direction data
          epType n) (h.store { h.state x with protocol := layer } x)).map fun y => ((),y.2) := by
  let p : Payload := { command := .write, data, ext := some (makeUsb3Ext pktType
    (h.state x).devCtrl.mAssignedAddr endpoint direction epType) }
  obtain ⟨n,layer,hseq,hsend⟩ := routeTx_stamped hl (p := p) rfl x
  refine ⟨n,layer,hseq,?_⟩
  rw [sendToProtocol,Proc.interp_bind,Proc.interp_read,Option.bind_some,Proc.interp_bind,
    deviceBTransport,hsend]
  simp only [Proc.interp_pure,Option.map_eq_bind,Function.comp_def]
  rfl

theorem sendToProtocol_interp (hl : h.Lawful) (pktType : Usb3PktType) (endpoint : BitVec 8)
    (direction : Usb3Dir) (data : List Byte) (epType : Usb3EpType) (x : X) :
    ∃ q layer, q.pktType = some pktType ∧ q.data = data ∧ q.ext.map (·.endpoint) = some endpoint ∧
      (sendToProtocol pktType endpoint direction data epType).interp h x =
        (h.call q (h.store { h.state x with protocol := layer } x)).map fun y => ((),y.2) := by
  obtain ⟨n,layer,-,hsend⟩ := sendToProtocol_stamped hl pktType endpoint direction data epType x
  exact ⟨_,layer,rfl,rfl,rfl,hsend⟩

def moveLoopback (s : Drd) : Drd :=
  { s with devCtrl := { s.devCtrl with
    mEp2Out := .clear, mEp1In := s.devCtrl.mEp1In.write s.devCtrl.mEp2Out.buffer } }

def writeBulkIrq (v : Bool) (s : Drd) : Drd := { s with sigBulkIrq := s.sigBulkIrq.write v }

theorem loopbackLoop_full (hl : h.Lawful) {x y : X} (hwait : h.wait .outEp x = some y)
    (hconf : (h.state y).devCtrl.mConfigured = true)
    (hfull : (h.state y).devCtrl.mEp2Out.hasData = true) :
    ∃ q layer, q.pktType = some .tpErdy ∧
      q.ext.map (·.devAddr) = some (h.state y).devCtrl.mAssignedAddr ∧
      loopbackLoop.interp h x = (h.call q (h.store { moveLoopback (h.state y) with protocol := layer }
        (h.store (moveLoopback (h.state y)) y))).bind fun z =>
          (h.wait .bulkIrqPulse (h.store (writeBulkIrq true (h.state z.2)) z.2)).map fun w =>
            (Loop.loopback,h.store (writeBulkIrq false (h.state w)) w) := by
  obtain ⟨n,layer,-,hsend⟩ := sendToProtocol_stamped hl .tpErdy 1 .deviceToHost [1,0,0,0]
    .control (h.store (moveLoopback (h.state y)) y)
  rw [hl.state_store] at hsend
  refine ⟨protocolPacket _ .tpErdy 1 .deviceToHost [1,0,0,0] .control n,layer,rfl,rfl,?_⟩
  rw [loopbackLoop,Proc.interp_bind,Proc.interp_sleep,hwait,Option.map_some,Option.bind_some,
    Proc.interp_bind,Proc.interp_read,Option.bind_some,if_neg (by simp [hconf]),if_pos hfull,
    Proc.interp_bind,Proc.interp_modify,Option.bind_some,Proc.interp_bind]
  show ((sendToProtocol .tpErdy 1 .deviceToHost [1,0,0,0]).interp h
    (h.store (moveLoopback (h.state y)) y)).bind _ = _
  rw [hsend,Option.bind_map]
  refine congrArg (Option.bind _) (funext fun z => ?_)
  simp only [Function.comp_apply,Proc.interp_bind,Proc.interp_modify,Option.bind_some,
    Proc.interp_sleep,Proc.interp_pure,Option.map_eq_bind,Option.bind_assoc]
  rfl

theorem loopbackLoop_idle {x y : X} (hwait : h.wait .outEp x = some y)
    (hidle : ¬((h.state y).devCtrl.mConfigured = true ∧ (h.state y).devCtrl.mEp2Out.hasData = true)) :
    loopbackLoop.interp h x = some (.loopback,y) := by
  rw [loopbackLoop,Proc.interp_bind,Proc.interp_sleep,hwait,Option.map_some,Option.bind_some,
    Proc.interp_bind,Proc.interp_read,Option.bind_some]
  by_cases hconf : (h.state y).devCtrl.mConfigured = true
  · rw [if_neg (by simp [hconf]),if_neg fun hfull => hidle ⟨hconf,hfull⟩]
    rfl
  · rw [if_pos (by simpa using hconf)]
    rfl

theorem fromProto_disabled {x : X} (henable : (h.state x).sigDevEnable.cur = false) (p : Payload) :
    (fromProtoBTransport p).interp h x = some (.genericError,x) := by
  rw [fromProtoBTransport,Proc.interp_bind,Proc.interp_read,Option.bind_some,Proc.interp_ite,
    if_pos henable,Proc.interp_pure]

theorem fromProto_bare {p : Payload} (hext : p.ext = none) (x : X) :
    (fromProtoBTransport p).interp h x = some (.genericError,x) := by
  rw [fromProtoBTransport,Proc.interp_bind,Proc.interp_read,Option.bind_some,Proc.interp_ite,hext]
  split <;> rfl

theorem fromProto_enabled {x : X} (henable : (h.state x).sigDevEnable.cur = true) {p : Payload}
    {ext : Usb3PktExt} (hext : p.ext = some ext) :
    (fromProtoBTransport p).interp h x = (reaction p ext).interp h x := by
  rw [fromProtoBTransport,Proc.interp_bind,Proc.interp_read,Option.bind_some,Proc.interp_ite,
    if_neg (by simp [henable]),hext]

end Rules

end DeviceController
end Usb3Drd
