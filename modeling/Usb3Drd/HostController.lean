import Usb3Drd.ProtocolLayer

/-! The host controller: it enumerates a device, then walks a ring of transfer
requests. Packets that arrive are kept in one mailbox. -/
namespace Usb3Drd
namespace HostController

open Coop ProtocolLayer

/-- The usual 8-byte wire order of a setup request. -/
def packSetupPacket (setup : Usb3SetupPkt) : List Byte :=
  [setup.bmRequestType,setup.bRequest,
    (setup.wValue &&& 0xFF).setWidth 8,((setup.wValue >>> 8) &&& 0xFF).setWidth 8,
    (setup.wIndex &&& 0xFF).setWidth 8,((setup.wIndex >>> 8) &&& 0xFF).setWidth 8,
    (setup.wLength &&& 0xFF).setWidth 8,((setup.wLength >>> 8) &&& 0xFF).setWidth 8]

def drain (s : Drd) : Drd :=
  { s with hostCtrl := { s.hostCtrl with mRespData := [], mRespValid := false } }

def takeResponse : DrdProc (List Byte) := do
  let data ← Proc.read (·.hostCtrl.mRespData)
  Proc.modify drain
  pure data

def setupPacket (devAddr : BitVec 8) (setup : Usb3SetupPkt) : Payload :=
  { command := .write, data := packSetupPacket setup
    ext := some { makeUsb3Ext .setup devAddr 0 .hostToDevice .control with setup } }

/-- The data of an OUT transfer; without any, zeros of the requested length. -/
def dataPacket (devAddr : BitVec 8) (setup : Usb3SetupPkt) (dataBuf : List Byte) : Payload :=
  { command := .write
    data := if dataBuf = [] then .replicate setup.wLength.toNat 0 else dataBuf
    ext := some (makeUsb3Ext .ctrlData devAddr 0 .hostToDevice .control) }

def statusPacket (devAddr : BitVec 8) (hostToDevice : Bool) : Payload :=
  { command := .read, data := [0]
    ext := some (makeUsb3Ext .ctrlStatus devAddr 0
      (if hostToDevice then .deviceToHost else .hostToDevice) .control) }

/-- The stage between SETUP and STATUS: an IN transfer takes what the mailbox holds, an
OUT transfer sends the caller's data. -/
def dataStage (devAddr : BitVec 8) (setup : Usb3SetupPkt) (dataBuf : List Byte)
    (hostToDevice : Bool) : DrdProc (List Byte) :=
  if setup.wLength = 0 then pure dataBuf
  else if hostToDevice = false then do
    let valid ← Proc.read (·.hostCtrl.mRespValid)
    if valid = true then takeResponse else pure dataBuf
  else do
    let _ ← hostBTransport (dataPacket devAddr setup dataBuf)
    Proc.sleep .dataStage
    pure dataBuf

/-- A control transfer: success, and the caller's data buffer afterwards. -/
def ctrlTransfer (devAddr : BitVec 8) (setup : Usb3SetupPkt) (dataBuf : List Byte)
    (hostToDevice : Bool) : DrdProc (Bool × List Byte) := do
  let _ ← hostBTransport (setupPacket devAddr setup)
  Proc.sleep .setupStage
  let dataBuf ← dataStage devAddr setup dataBuf hostToDevice
  let status ← hostBTransport (statusPacket devAddr hostToDevice)
  Proc.sleep .statusStage
  pure (decide (status = .ok),dataBuf)

/-- The request of `getDescriptor`; only the first two types have a larger cap. -/
def descriptorRequest (descType descIndex : BitVec 8) : Usb3SetupPkt :=
  { bmRequestType := 0x80, bRequest := usbReqGetDescriptor
    wValue := (descType.setWidth 16 <<< 8) ||| descIndex.setWidth 16
    wLength := if descType = usbDescConfiguration then 255
      else if descType = usbDescBos then 255 else 18 }

def addressRequest (newAddr : BitVec 8) : Usb3SetupPkt :=
  { bmRequestType := 0x00, bRequest := usbReqSetAddress, wValue := newAddr.setWidth 16 }

def configurationRequest (configVal : BitVec 8) : Usb3SetupPkt :=
  { bmRequestType := 0x00, bRequest := usbReqSetConfiguration, wValue := configVal.setWidth 16 }

def getDescriptor (devAddr descType descIndex : BitVec 8) (buf : List Byte) :
    DrdProc (Bool × List Byte) :=
  ctrlTransfer devAddr (descriptorRequest descType descIndex) buf false

def setAddress (oldAddr newAddr : BitVec 8) : DrdProc Bool := do
  let r ← ctrlTransfer oldAddr (addressRequest newAddr) [] true
  pure r.1

def setConfiguration (devAddr configVal : BitVec 8) : DrdProc Bool := do
  let r ← ctrlTransfer devAddr (configurationRequest configVal) [] true
  pure r.1

def le16 (buf : List Byte) (i : ℕ) : BitVec 16 :=
  (buf.getD i 0).setWidth 16 ||| ((buf.getD (i+1) 0).setWidth 16 <<< 8)

def modifyDev (f : Usb3DeviceInfo → Usb3DeviceInfo) : DrdProc Unit :=
  Proc.modify fun s => { s with hostCtrl := { s.hostCtrl with mDev := f s.hostCtrl.mDev } }

/-- Pick the next device address; the counter wraps as the 8-bit member does. -/
def takeAddr : DrdProc (BitVec 8) := do
  let newAddr ← Proc.read (·.hostCtrl.mNextAddr)
  Proc.modify fun s => { s with hostCtrl := { s.hostCtrl with mNextAddr := newAddr+1 } }
  pure newAddr

/-- What the device descriptor and the configuration tell; a short read tells nothing. -/
def noteDevice (buf : List Byte) (d : Usb3DeviceInfo) : Usb3DeviceInfo :=
  if 18 ≤ buf.length then
    { d with vendorId := le16 buf 8, productId := le16 buf 10, numConfigs := buf.getD 17 0 }
  else d

def noteConfig (buf : List Byte) (d : Usb3DeviceInfo) : Usb3DeviceInfo :=
  if 9 ≤ buf.length then { d with activeConfig := buf.getD 5 0 } else d

def writeEnumDone (v : Bool) (s : Drd) : Drd := { s with sigEnumDone := s.sigEnumDone.write v }

def enumerateDevice : DrdProc Unit := do
  let dev ← getDescriptor 0 usbDescDevice 0 []
  if dev.1 = false then pure ()
  else
    modifyDev (noteDevice dev.2)
    let newAddr ← takeAddr
    let addressed ← setAddress 0 newAddr
    if addressed = false then pure ()
    else
      modifyDev fun d => { d with addr := newAddr }
      Proc.modify fun s => { s with sigDevAddr := s.sigDevAddr.write newAddr }
      Proc.sleep .addrSettle
      let addr ← Proc.read (·.hostCtrl.mDev.addr)
      let cfg ← getDescriptor addr usbDescConfiguration 0 dev.2
      if cfg.1 = false then pure ()
      else
        modifyDev (noteConfig cfg.2)
        let addr ← Proc.read (·.hostCtrl.mDev.addr)
        let _ ← getDescriptor addr usbDescBos 0 []
        let addr ← Proc.read (·.hostCtrl.mDev.addr)
        let configured ← setConfiguration addr 1
        if configured = false then pure ()
        else
          modifyDev fun d => { d with activeConfig := 1, enumerated := true }
          Proc.modify (writeEnumDone true)
          Proc.sleep .enumPulse
          Proc.modify (writeEnumDone false)

def setRing (ring : List Usb3Trb) (s : Drd) : Drd :=
  { s with hostCtrl := { s.hostCtrl with mTransferRing := ring } }

def ringDepth : ℕ := 256

/-- Append to the ring; `none` is the failed assertion on its depth. -/
def enqueue (ring : List Usb3Trb) (trb : Usb3Trb) : Option (List Usb3Trb) :=
  if ring.length < ringDepth then some (ring ++ [trb]) else none

def dequeue : DrdProc Usb3Trb := do
  let ring ← Proc.read (·.hostCtrl.mTransferRing)
  match ring with
  | [] =>
    Proc.sleep .assertion
    pure {}
  | trb::rest =>
    Proc.modify (setRing rest)
    pure trb

def enqueueBulkTrb (devAddr ep : BitVec 8) (direction : Usb3Dir) (len : BitVec 64)
    (payload : List Byte) (s : Drd) : Option Drd :=
  (enqueue s.hostCtrl.mTransferRing
    { devAddr, endpoint := ep, direction, epType := .bulk, payload
      trbLength := len.setWidth 32, ioc := true }).map fun ring =>
    { s with hostCtrl := { s.hostCtrl with mTransferRing := ring, mTrbCompleteEvent := true } }

def bulkOut (devAddr ep : BitVec 8) (data : List Byte) (s : Drd) : Option Drd :=
  enqueueBulkTrb devAddr ep .hostToDevice (.ofNat 64 data.length) data s

def bulkIn (devAddr ep : BitVec 8) (len : BitVec 64) (s : Drd) : Option Drd :=
  enqueueBulkTrb devAddr ep .deviceToHost len [] s

def trbPacket (trb : Usb3Trb) : Payload :=
  { command := if trb.direction = .hostToDevice then .write else .read
    data := if trb.direction = .hostToDevice then trb.payload
      else .replicate trb.trbLength.toNat 0
    ext := some (makeUsb3Ext (if trb.direction = .hostToDevice then .bulkOut else .bulkIn)
      trb.devAddr trb.endpoint trb.direction trb.epType) }

def receive (trb : Usb3Trb) (s : Drd) : Drd :=
  if trb.direction = .deviceToHost ∧ s.hostCtrl.mRespValid = true then
    { s with hostCtrl := { s.hostCtrl with
        mRxBuf := s.hostCtrl.mRespData, mRespData := [], mRespValid := false } }
  else s

def writeXferDone (v : Bool) (s : Drd) : Drd := { s with sigXferDone := s.sigXferDone.write v }

/-- Execute one transfer request: the part of the ring loop below the dequeue. -/
def runTrb (trb : Usb3Trb) : DrdProc Unit := do
  let _ ← hostBTransport (trbPacket trb)
  Proc.modify (receive trb)
  if trb.ioc then
    Proc.modify (writeXferDone true)
    Proc.sleep .xferPulse
    Proc.modify (writeXferDone false)

/-- One turn of the loop over the ring; a disabled host goes back to its main loop. -/
def processTransferRing : DrdProc Loop := do
  let enable ← Proc.read (·.sigHostEnable.cur)
  if enable = false then pure .hostMain
  else
    let ring ← Proc.read (·.hostCtrl.mTransferRing)
    if ring = [] then
      Proc.sleep .trbComplete
      pure .transferRing
    else
      let trb ← dequeue
      runTrb trb
      pure .transferRing

def awaitEnable : DrdProc Unit := do
  let enable ← Proc.read (·.sigHostEnable.cur)
  if enable = false then Proc.sleep .enablePosedge else pure ()

/-- One turn of the endless loop of `hostMainProcess`, up to the ring loop. -/
def hostMainLoop : DrdProc Loop := do
  awaitEnable
  modifyDev fun _ => {}
  enumerateDevice
  pure .transferRing

def hostMainProcess : DrdProc Loop := do
  Proc.modify fun s => { s with
    sigXferDone := s.sigXferDone.write false
    sigEnumDone := s.sigEnumDone.write false
    sigDevAddr := s.sigDevAddr.write 0 }
  pure .hostMain

def storeResponse (data : List Byte) (s : Drd) : Drd :=
  if data = [] then s
  else { s with hostCtrl := { s.hostCtrl with mRespData := data, mRespValid := true } }

/-- An inbound packet: its status stays as it came. -/
def fromProtocolBTransport (p : Payload) : DrdProc TlmResponse := do
  Proc.modify (storeResponse p.data)
  pure p.response

def isBulk (q : Payload) : Prop := q.pktType = some .bulkOut ∨ q.pktType = some .bulkIn

instance (q : Payload) : Decidable (isBulk q) := inferInstanceAs (Decidable (_ ∨ _))

def setupRequest (q : Payload) : Option Usb3SetupPkt :=
  if q.pktType = some .setup then q.ext.map (·.setup) else none

section Records
variable {γ : Type} (send : γ → Usb3SetupPkt → γ) (answer : γ → TlmResponse → γ) (g : γ)

def noteAnswer : Loc WaitPoint Payload TlmResponse → γ
  | .ready (.returned q r) => if q.pktType = some .ctrlStatus then answer g r else g
  | _ => g

def noteRequest : Loc WaitPoint Payload TlmResponse → γ
  | .calling q => match setupRequest q with
    | some setup => send g setup
    | none => g
  | _ => g

/-- The record after the thread ran from one location to another. -/
def noteControl (l l' : Loc WaitPoint Payload TlmResponse) : γ :=
  noteRequest send (noteAnswer answer g l) l'

end Records

/-- The last setup request of the host thread, and how its last status stage was answered. -/
structure ControlLog where
  request : Usb3SetupPkt := {}
  answered : TlmResponse := .incomplete

def ControlLog.note : ControlLog → Loc WaitPoint Payload TlmResponse →
    Loc WaitPoint Payload TlmResponse → ControlLog :=
  noteControl (fun g setup => { g with request := setup }) fun g r => { g with answered := r }

section Packets

theorem not_isBulk_setupPacket (a : BitVec 8) (setup : Usb3SetupPkt) (n : BitVec 32) :
    ¬isBulk ((setupPacket a setup).numbered n) := by
  rintro (h | h) <;> cases h

theorem not_isBulk_statusPacket (a : BitVec 8) (dir : Bool) (n : BitVec 32) :
    ¬isBulk ((statusPacket a dir).numbered n) := by
  rintro (h | h) <;> cases h

theorem isBulk_trbPacket (trb : Usb3Trb) (n : BitVec 32) : isBulk ((trbPacket trb).numbered n) := by
  rw [isBulk,Payload.numbered_pktType]
  cases h : trb.direction
  · exact .inl (by simp [Payload.pktType,trbPacket,makeUsb3Ext,h])
  · exact .inr (by simp [Payload.pktType,trbPacket,makeUsb3Ext,h])

@[simp] theorem setupRequest_setupPacket (a : BitVec 8) (setup : Usb3SetupPkt) (n : BitVec 32) :
    setupRequest ((setupPacket a setup).numbered n) = some setup := rfl

@[simp] theorem setupRequest_statusPacket (a : BitVec 8) (dir : Bool) (n : BitVec 32) :
    setupRequest ((statusPacket a dir).numbered n) = none := rfl

theorem ControlLog.note_setup (g : ControlLog) (l : Loc WaitPoint Payload TlmResponse)
    (devAddr : BitVec 8) (setup : Usb3SetupPkt) (n : BitVec 32) :
    (g.note l (.calling ((setupPacket devAddr setup).numbered n))).request = setup := rfl

theorem setupRequest_bulk {q : Payload} (hq : isBulk q) : setupRequest q = none := by
  refine if_neg fun hsetup => ?_
  obtain hq | hq := hq
  · rw [hq] at hsetup; cases hsetup
  · rw [hq] at hsetup; cases hsetup

theorem not_status_bulk {q : Payload} (hq : isBulk q) : q.pktType ≠ some .ctrlStatus := by
  intro hstatus
  obtain hq | hq := hq
  · rw [hq] at hstatus; cases hstatus
  · rw [hq] at hstatus; cases hstatus

theorem noteRequest_bulk {γ : Type} (send : γ → Usb3SetupPkt → γ) (g : γ)
    {l : Loc WaitPoint Payload TlmResponse} (hl : ∀ q, l = .calling q → isBulk q) :
    noteRequest send g l = g := by
  cases l with
  | calling q => rw [noteRequest,setupRequest_bulk (hl q rfl)]
  | _ => rfl

theorem noteAnswer_bulk {γ : Type} (answer : γ → TlmResponse → γ) (g : γ)
    {o : Origin WaitPoint Payload TlmResponse} (ho : ∀ q r, o = .returned q r → isBulk q) :
    noteAnswer answer g (.ready o) = g := by
  cases o with
  | returned q r => exact if_neg (not_status_bulk (ho q r rfl))
  | _ => rfl

theorem ControlLog.note_bulk (g : ControlLog) {o : Origin WaitPoint Payload TlmResponse}
    {l : Loc WaitPoint Payload TlmResponse} (ho : ∀ q r, o = .returned q r → isBulk q)
    (hl : ∀ q, l = .calling q → isBulk q) : g.note (.ready o) l = g := by
  rw [note,noteControl,noteAnswer_bulk _ g ho,noteRequest_bulk _ g hl]

theorem noteDevice_addr (buf : List Byte) (d : Usb3DeviceInfo) :
    (noteDevice buf d).addr = d.addr := by
  unfold noteDevice
  split <;> rfl

theorem noteConfig_addr (buf : List Byte) (d : Usb3DeviceInfo) :
    (noteConfig buf d).addr = d.addr := by
  unfold noteConfig
  split <;> rfl

theorem receive_frame (trb : Usb3Trb) (s : Drd) :
    (receive trb s).hostCtrl.mDev = s.hostCtrl.mDev ∧
      (receive trb s).hostCtrl.mTransferRing = s.hostCtrl.mTransferRing := by
  unfold receive
  split <;> exact ⟨rfl,rfl⟩

end Packets

section Rules
variable {γ : Type} (sp : Spec γ Drd WaitPoint Payload TlmResponse Loop)

theorem dataStage_wp {devAddr : BitVec 8} {setup : Usb3SetupPkt} {dataBuf : List Byte}
    {hostToDevice : Bool} (hlen : hostToDevice = true → setup.wLength = 0)
    {post : List Byte → Trail γ Drd WaitPoint Payload TlmResponse → Prop}
    (x : Trail γ Drd WaitPoint Payload TlmResponse)
    (hkeep : post dataBuf x)
    (htake : post x.state.hostCtrl.mRespData { x with state := drain x.state }) :
    (dataStage devAddr setup dataBuf hostToDevice).wp sp.setting post x := by
  simp only [dataStage,takeResponse,Proc.wp_ite,Proc.wp_bind,Spec.wp_read,Spec.wp_modify,Proc.wp_pure]
  refine ⟨fun _ => hkeep,fun hlen' => ⟨fun _ => ⟨fun _ => htake,fun _ => hkeep⟩,fun hdir => ?_⟩⟩
  exact absurd (hlen (by simpa using hdir)) hlen'

/-- The four suspensions of a control transfer that sends no data of its own. -/
theorem ctrlTransfer_wp {devAddr : BitVec 8} {setup : Usb3SetupPkt} {dataBuf : List Byte}
    {hostToDevice : Bool} (hlen : hostToDevice = true → setup.wLength = 0)
    {post : Bool × List Byte → Trail γ Drd WaitPoint Payload TlmResponse → Prop}
    (x : Trail γ Drd WaitPoint Payload TlmResponse)
    (h : ∀ n layer, sp.setting.onCall ((setupPacket devAddr setup).numbered n)
      (fun _ => sp.setting.onWait .setupStage fun y =>
        ∀ buf s, s = y.state ∨ s = drain y.state → ∀ n layer,
          sp.setting.onCall ((statusPacket devAddr hostToDevice).numbered n)
            (fun r => sp.setting.onWait .statusStage (post (decide (r = .ok),buf)))
            { y with state := { s with protocol := layer } })
      { x with state := { x.state with protocol := layer } }) :
    (ctrlTransfer devAddr setup dataBuf hostToDevice).wp sp.setting post x := by
  rw [ctrlTransfer,Proc.wp_bind]
  refine routeTx_wp sp rfl x fun n layer => sp.setting_monotone.2 _ _ _ _ (fun r y => ?_) (h n layer)
  rw [Proc.wp_bind,Proc.wp_sleep]
  refine sp.setting_monotone.1 _ _ _ _ fun y hy => ?_
  have hstatus : ∀ buf s, s = y.state ∨ s = drain y.state →
      (do
        let status ← hostBTransport (statusPacket devAddr hostToDevice)
        Proc.sleep .statusStage
        pure (decide (status = TlmResponse.ok),buf)).wp sp.setting post { y with state := s } := by
    intro buf s hs
    rw [Proc.wp_bind]
    refine routeTx_wp sp rfl _ fun n layer => ?_
    refine sp.setting_monotone.2 _ _ _ _ (fun r z => ?_) (hy buf s hs n layer)
    rw [Proc.wp_bind,Proc.wp_sleep]
    exact sp.setting_monotone.1 _ _ _ _ fun _ hz => hz
  rw [Proc.wp_bind]
  exact dataStage_wp sp hlen y (hstatus _ _ (.inl rfl)) (hstatus _ _ (.inr rfl))

theorem runTrb_wp {trb : Usb3Trb} {post : Unit → Trail γ Drd WaitPoint Payload TlmResponse → Prop}
    (x : Trail γ Drd WaitPoint Payload TlmResponse)
    (h : ∀ n layer, sp.setting.onCall ((trbPacket trb).numbered n)
      (fun _ y => if trb.ioc then sp.setting.onWait .xferPulse
          (fun z => post () { z with state := writeXferDone false z.state })
          { y with state := writeXferDone true (receive trb y.state) }
        else post () { y with state := receive trb y.state })
      { x with state := { x.state with protocol := layer } }) :
    (runTrb trb).wp sp.setting post x := by
  rw [runTrb,Proc.wp_bind]
  refine routeTx_wp sp rfl x fun n layer => sp.setting_monotone.2 _ _ _ _ (fun r y hy => ?_) (h n layer)
  rw [Proc.wp_bind,Spec.wp_modify]
  split at hy
  · rename_i hioc
    rw [if_pos hioc]
    exact hy
  · rename_i hioc
    rw [if_neg hioc]
    exact hy

theorem processTransferRing_wp {post : Loop → Trail γ Drd WaitPoint Payload TlmResponse → Prop}
    (x : Trail γ Drd WaitPoint Payload TlmResponse)
    (hoff : x.state.sigHostEnable.cur = false → post .hostMain x)
    (hempty : x.state.sigHostEnable.cur = true → x.state.hostCtrl.mTransferRing = [] →
      sp.setting.onWait .trbComplete (post .transferRing) x)
    (hrun : ∀ trb rest, x.state.sigHostEnable.cur = true →
      x.state.hostCtrl.mTransferRing = trb::rest →
        (runTrb trb).wp sp.setting (fun _ => post .transferRing)
          { x with state := setRing rest x.state }) :
    processTransferRing.wp sp.setting post x := by
  simp only [processTransferRing,Proc.wp_bind,Spec.wp_read,Proc.wp_ite,Proc.wp_pure,Proc.wp_sleep]
  refine ⟨hoff,fun hon => ⟨hempty (by simpa using hon),fun hring => ?_⟩⟩
  cases hr : x.state.hostCtrl.mTransferRing with
  | nil => exact absurd hr hring
  | cons trb rest =>
    simp only [dequeue,Proc.wp_bind,Spec.wp_read,hr,Spec.wp_modify,Proc.wp_pure]
    exact hrun trb rest (by simpa using hon) hr

theorem hostMainLoop_wp {post : Loop → Trail γ Drd WaitPoint Payload TlmResponse → Prop}
    (x : Trail γ Drd WaitPoint Payload TlmResponse)
    (hsleep : x.state.sigHostEnable.cur = false → sp.setting.onWait .enablePosedge
      (fun y => enumerateDevice.wp sp.setting (fun _ => post .transferRing)
        { y with state := { y.state with hostCtrl := { y.state.hostCtrl with mDev := {} } } }) x)
    (hgo : x.state.sigHostEnable.cur = true →
      enumerateDevice.wp sp.setting (fun _ => post .transferRing)
        { x with state := { x.state with hostCtrl := { x.state.hostCtrl with mDev := {} } } }) :
    hostMainLoop.wp sp.setting post x := by
  rw [hostMainLoop,Proc.wp_bind,awaitEnable,Proc.wp_bind,Spec.wp_read,Proc.wp_ite]
  refine ⟨fun hoff => ?_,fun hon => ?_⟩
  · rw [Proc.wp_sleep]
    refine sp.setting_monotone.1 _ _ _ _ (fun y hy => ?_) (hsleep hoff)
    rw [Proc.wp_bind,modifyDev,Spec.wp_modify,Proc.wp_bind]
    exact hy
  · rw [Proc.wp_pure,Proc.wp_bind,modifyDev,Spec.wp_modify,Proc.wp_bind]
    exact hgo (by simpa using hon)

def learnDevice (buf : List Byte) (s : Drd) : Drd :=
  { s with hostCtrl := { s.hostCtrl with
    mDev := noteDevice buf s.hostCtrl.mDev, mNextAddr := s.hostCtrl.mNextAddr+1 } }

def adoptAddr (newAddr : BitVec 8) (s : Drd) : Drd :=
  { s with
    sigDevAddr := s.sigDevAddr.write newAddr
    hostCtrl := { s.hostCtrl with mDev := { s.hostCtrl.mDev with addr := newAddr } } }

def learnConfig (buf : List Byte) (s : Drd) : Drd :=
  { s with hostCtrl := { s.hostCtrl with mDev := noteConfig buf s.hostCtrl.mDev } }

def completeEnum (s : Drd) : Drd :=
  writeEnumDone true { s with hostCtrl := { s.hostCtrl with
    mDev := { s.hostCtrl.mDev with activeConfig := 1, enumerated := true } } }

/-- An enumeration, transfer by transfer: it ends when one of them fails, but for the BOS read. -/
theorem enumerateDevice_wp {post : Unit → Trail γ Drd WaitPoint Payload TlmResponse → Prop}
    (x : Trail γ Drd WaitPoint Payload TlmResponse)
    (h : (ctrlTransfer 0 (descriptorRequest usbDescDevice 0) [] false).wp sp.setting (fun dev y =>
      (dev.1 = false → post () y) ∧ (dev.1 = true →
        (ctrlTransfer 0 (addressRequest y.state.hostCtrl.mNextAddr) [] true).wp sp.setting
          (fun addressed z => (addressed.1 = false → post () z) ∧ (addressed.1 = true →
            sp.setting.onWait .addrSettle (fun u =>
              (ctrlTransfer u.state.hostCtrl.mDev.addr (descriptorRequest usbDescConfiguration 0)
                dev.2 false).wp sp.setting (fun cfg v =>
                  (cfg.1 = false → post () v) ∧ (cfg.1 = true →
                    (ctrlTransfer (learnConfig cfg.2 v.state).hostCtrl.mDev.addr
                      (descriptorRequest usbDescBos 0) [] false).wp sp.setting (fun _ w =>
                        (ctrlTransfer w.state.hostCtrl.mDev.addr (configurationRequest 1) []
                          true).wp sp.setting (fun configured e =>
                            (configured.1 = false → post () e) ∧ (configured.1 = true →
                              sp.setting.onWait .enumPulse
                                (fun f => post () { f with state := writeEnumDone false f.state })
                                { e with state := completeEnum e.state })) w)
                      { v with state := learnConfig cfg.2 v.state })) u)
              { z with state := adoptAddr y.state.hostCtrl.mNextAddr z.state }))
          { y with state := learnDevice dev.2 y.state })) x) :
    enumerateDevice.wp sp.setting post x := by
  have hmono := sp.setting_monotone
  rw [enumerateDevice,Proc.wp_bind]
  refine Proc.wp_mono hmono _ (fun dev y hy => ?_) x h
  rw [Proc.wp_ite]
  refine ⟨hy.1,fun hdev => ?_⟩
  simp only [modifyDev,takeAddr,setAddress,Proc.wp_bind,Spec.wp_modify,Spec.wp_read,Proc.wp_pure]
  refine Proc.wp_mono hmono _ (fun addressed z hz => ?_) _ (hy.2 (by simpa using hdev))
  rw [Proc.wp_pure,Proc.wp_ite]
  refine ⟨hz.1,fun haddr => ?_⟩
  simp only [Proc.wp_bind,Spec.wp_modify,Proc.wp_sleep]
  refine hmono.1 _ _ _ _ (fun u hu => ?_) (hz.2 (by simpa using haddr))
  simp only [Proc.wp_bind,Spec.wp_read]
  refine Proc.wp_mono hmono _ (fun cfg v hv => ?_) _ hu
  rw [Proc.wp_ite]
  refine ⟨hv.1,fun hcfg => ?_⟩
  simp only [Proc.wp_bind,Spec.wp_modify,Spec.wp_read]
  refine Proc.wp_mono hmono _ (fun _ w hw => ?_) _ (hv.2 (by simpa using hcfg))
  simp only [Proc.wp_bind,Spec.wp_read,setConfiguration]
  refine Proc.wp_mono hmono _ (fun configured e he => ?_) _ hw
  rw [Proc.wp_pure,Proc.wp_ite]
  refine ⟨he.1,fun hconf => ?_⟩
  simp only [Proc.wp_bind,Spec.wp_modify,Proc.wp_sleep]
  exact he.2 (by simpa using hconf)

def unenumerated (s : Drd) : Drd :=
  { s with
    protocol := {}
    sigEnumDone := s.sigEnumDone.write false
    sigDevAddr := s.sigDevAddr.write 0
    hostCtrl := { s.hostCtrl with
      mNextAddr := 0, mDev := {}, mRespData := [], mRespValid := false } }

def ofEnumeration (w : WaitPoint) : Prop :=
  w = .setupStage ∨ w = .statusStage ∨ w = .addrSettle ∨ w = .enumPulse

/-- An assertion to which an enumeration makes no difference. -/
structure Indifferent (I : Trail γ Drd WaitPoint Payload TlmResponse → Prop) : Prop where
  edit : ∀ x s, I x → unenumerated s = unenumerated x.state → I { x with state := s }
  call : ∀ x q, I x → ¬isBulk q → sp.stopsAt (.calling q) x ∧
    ∀ r g s, sp.resumes (.calling q) (.returned q r) x g s → I ⟨g,.returned q r,s,s⟩
  wait : ∀ x w, I x → ofEnumeration w → sp.stopsAt (.waiting w) x ∧
    ∀ g s, sp.resumes (.waiting w) (.woke w) x g s → I ⟨g,.woke w,s,s⟩

section Indifferent
variable {sp} {I : Trail γ Drd WaitPoint Payload TlmResponse → Prop}
  {x : Trail γ Drd WaitPoint Payload TlmResponse}

theorem Indifferent.sleep (hI : Indifferent sp I) {w : WaitPoint} (hw : ofEnumeration w)
    {K : Trail γ Drd WaitPoint Payload TlmResponse → Prop} (hx : I x) (hK : ∀ y, I y → K y) :
    sp.setting.onWait w K x :=
  ⟨(hI.wait x w hx hw).1,fun g s hs => hK _ ((hI.wait x w hx hw).2 g s hs)⟩

theorem ctrlTransfer_indifferent (hI : Indifferent sp I) {devAddr : BitVec 8}
    {setup : Usb3SetupPkt} {dataBuf : List Byte} {dir : Bool}
    (hlen : dir = true → setup.wLength = 0)
    {post : Bool × List Byte → Trail γ Drd WaitPoint Payload TlmResponse → Prop} (hx : I x)
    (hpost : ∀ r y, I y → post r y) :
    (ctrlTransfer devAddr setup dataBuf dir).wp sp.setting post x := by
  refine ctrlTransfer_wp sp hlen x fun n layer => ?_
  have hsetup := hI.call _ _ (hI.edit x { x.state with protocol := layer } hx rfl)
    (not_isBulk_setupPacket devAddr setup n)
  refine ⟨hsetup.1,fun r g s hr => ?_⟩
  have hstage := hI.wait _ _ (hsetup.2 r g s hr) (.inl rfl)
  refine ⟨hstage.1,fun g s hw buf s' hs n' layer => ?_⟩
  have hback : unenumerated { s' with protocol := layer } = unenumerated s := by
    obtain rfl | rfl := hs
    · rfl
    · rfl
  have hstatus := hI.call _ _ (hI.edit _ { s' with protocol := layer } (hstage.2 g s hw) hback)
    (not_isBulk_statusPacket devAddr dir n')
  refine ⟨hstatus.1,fun r g s hr => ?_⟩
  have hlast := hI.wait _ _ (hstatus.2 r g s hr) (.inr (.inl rfl))
  exact ⟨hlast.1,fun g s hw => hpost _ _ (hlast.2 g s hw)⟩

/-- An assertion that enumerations make no difference to holds after each of them. -/
theorem enumerateDevice_indifferent (hI : Indifferent sp I)
    {post : Unit → Trail γ Drd WaitPoint Payload TlmResponse → Prop} (hx : I x)
    (hpost : ∀ y, I y → post () y) : enumerateDevice.wp sp.setting post x := by
  refine enumerateDevice_wp sp x ?_
  refine ctrlTransfer_indifferent hI (by simp) hx fun dev y hy => ⟨fun _ => hpost y hy,fun _ => ?_⟩
  refine ctrlTransfer_indifferent hI (fun _ => rfl) (hI.edit y _ hy rfl) fun addressed z hz =>
    ⟨fun _ => hpost z hz,fun _ => ?_⟩
  refine hI.sleep (.inr (.inr (.inl rfl))) (hI.edit z _ hz rfl) fun u hu => ?_
  refine ctrlTransfer_indifferent hI (by simp) hu fun cfg v hv => ⟨fun _ => hpost v hv,fun _ => ?_⟩
  refine ctrlTransfer_indifferent hI (by simp) (hI.edit v _ hv rfl) fun bos w hw => ?_
  refine ctrlTransfer_indifferent hI (fun _ => rfl) hw fun configured e he =>
    ⟨fun _ => hpost e he,fun _ => ?_⟩
  refine hI.sleep (.inr (.inr (.inr rfl))) (hI.edit e _ he rfl) fun f hf => ?_
  exact hpost _ (hI.edit f _ hf rfl)

end Indifferent

theorem dataStage_interp {X : Type} {h : Handler Drd WaitPoint Payload TlmResponse X}
    (devAddr : BitVec 8) {setup : Usb3SetupPkt} (dataBuf : List Byte) {hostToDevice : Bool}
    (hlen : hostToDevice = true → setup.wLength = 0) (x : X) :
    (dataStage devAddr setup dataBuf hostToDevice).interp h x =
      some (if setup.wLength ≠ 0 ∧ (h.state x).hostCtrl.mRespValid = true then
        ((h.state x).hostCtrl.mRespData,h.store (drain (h.state x)) x) else (dataBuf,x)) := by
  simp only [dataStage,takeResponse,Proc.interp_ite,Proc.interp_bind,Proc.interp_read,
    Proc.interp_modify,Proc.interp_pure,Option.bind_some]
  by_cases hzero : setup.wLength = 0
  · rw [if_pos hzero,if_neg fun h => h.1 hzero]
  · have hdir : hostToDevice = false := by
      cases hostToDevice with
      | false => rfl
      | true => exact absurd (hlen rfl) hzero
    rw [if_neg hzero,if_pos hdir]
    by_cases hvalid : (h.state x).hostCtrl.mRespValid = true
    · rw [if_pos hvalid,if_pos ⟨hzero,hvalid⟩]
    · rw [if_neg hvalid,if_neg fun h => hvalid h.2]

theorem runTrb_interp {X : Type} {h : Handler Drd WaitPoint Payload TlmResponse X} (hl : h.Lawful)
    {trb : Usb3Trb} (hioc : trb.ioc = true) (x : X) : ∃ k layer,
      (runTrb trb).interp h x =
        (h.call ((trbPacket trb).numbered k) (h.store { h.state x with protocol := layer } x)).bind
          fun y =>
            let s := receive trb (h.state y.2)
            (h.wait .xferPulse (h.store (writeXferDone true s) (h.store s y.2))).map
              fun z => ((),h.store (writeXferDone false (h.state z)) z) := by
  obtain ⟨k,layer,hsend⟩ := routeTx_interp hl (p := trbPacket trb) rfl x
  refine ⟨k,layer,?_⟩
  rw [runTrb,Proc.interp_bind,hostBTransport,hsend]
  refine congrArg (Option.bind _) (funext fun y => ?_)
  rw [Proc.interp_bind,Proc.interp_modify,Option.bind_some,if_pos hioc,Proc.interp_bind,
    Proc.interp_modify,Option.bind_some,Proc.interp_bind,Proc.interp_sleep,hl.state_store,
    Option.map_eq_bind,Option.map_eq_bind,Option.bind_assoc]
  rfl

theorem processTransferRing_interp {X : Type} {h : Handler Drd WaitPoint Payload TlmResponse X}
    {x : X} (henable : (h.state x).sigHostEnable.cur = true) {trb : Usb3Trb} {rest : List Usb3Trb}
    (hring : (h.state x).hostCtrl.mTransferRing = trb::rest) :
    processTransferRing.interp h x =
      ((runTrb trb).interp h (h.store (setRing rest (h.state x)) x)).map
        fun y => (Loop.transferRing,y.2) := by
  simp only [processTransferRing,Proc.interp_bind,Proc.interp_read,Option.bind_some,henable,
    Proc.interp_ite,reduceCtorEq,if_false,hring,dequeue,Proc.interp_modify,Proc.interp_pure,
    Option.map_eq_bind]
  rfl

end Rules

end HostController
end Usb3Drd
