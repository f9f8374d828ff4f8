import Usb3Drd.Inbound

/-! The peer of the test bench: a device of its own, that answers within the call of the link
and sends what it has to say back through the upstream socket of the controller under test. -/
namespace Usb3Drd

open Coop

structure PeerDevice where
  mAssignedAddr : BitVec 8 := 0
  mConfigured : Bool := false
  mLoopbackBuf : List Byte := []
  deriving DecidableEq

/-- Code of the peer. It never waits, and looks at no status of what it sends. -/
abbrev PeerProc := Proc PeerDevice Empty Payload Unit

namespace PeerDevice

open DeviceController (devDescToBytes bosDescriptor highByte)

def makeDevDesc : List Byte := devDescToBytes {}

def makeCfgDesc : List Byte :=
  [0x09,0x02,0x31,0x00,0x01,0x01,0x00,0xC0,0x00, -- configuration
    0x09,0x04,0x00,0x00,0x02,0xFF,0x00,0x00,0x00, -- interface
    0x07,0x05,0x81,0x02,0x00,0x04,0x00, -- ep1 bulk-in
    0x06,0x30,0x00,0x00,0x00,0x00, -- ep1 ss companion
    0x07,0x05,0x02,0x02,0x00,0x04,0x00, -- ep2 bulk-out
    0x06,0x30,0x00,0x00,0x00,0x00] -- ep2 ss companion

def bos : List Byte :=
  [0x05,0x0F,0x16,0x00,0x01,0x0A,0x10,0x03,0x00,0x0E,0x00,0x01,0x0A,0xFF,0x07]

def ctrlDataPacket (addr : BitVec 8) (data : List Byte) : Payload :=
  { command := .write, data
    ext := some { pktType := .ctrlData, devAddr := addr, endpoint := 0, direction := .deviceToHost } }

def bulkInPacket (addr ep : BitVec 8) (data : List Byte) : Payload :=
  { command := .write, data
    ext := some { pktType := .bulkIn, devAddr := addr, endpoint := ep, direction := .deviceToHost
                  epType := .bulk } }

def sendCtrlData (data : List Byte) : PeerProc Unit :=
  if data = [] then pure ()
  else do
    let addr ← Proc.read (·.mAssignedAddr)
    Proc.request (ctrlDataPacket addr data)

def sendBulkIn (data : List Byte) (ep : BitVec 8) : PeerProc Unit := do
  let addr ← Proc.read (·.mAssignedAddr)
  Proc.request (bulkInPacket addr ep data)

def descriptor (setup : Usb3SetupPkt) : List Byte :=
  let dtype := highByte setup.wValue
  if dtype = usbDescDevice then makeDevDesc
  else if dtype = usbDescConfiguration then makeCfgDesc
  else if dtype = usbDescBos then bos
  else []

def handleSetup (setup : Usb3SetupPkt) : PeerProc TlmResponse :=
  if setup.bRequest = usbReqGetDescriptor then do
    sendCtrlData ((descriptor setup).take setup.wLength.toNat)
    pure .ok
  else if setup.bRequest = usbReqSetAddress then do
    Proc.modify fun p => { p with mAssignedAddr := (setup.wValue &&& 0x7F).setWidth 8 }
    pure .ok
  else if setup.bRequest = usbReqSetConfiguration then do
    Proc.modify fun p => { p with mConfigured := true }
    pure .ok
  else pure .ok

def handleBulkIn (ep : BitVec 8) : PeerProc TlmResponse := do
  let buf ← Proc.read (·.mLoopbackBuf)
  if buf = [] then pure .ok
  else do
    sendBulkIn buf ep
    Proc.modify fun p => { p with mLoopbackBuf := [] }
    pure .ok

def bTransport (q : Payload) : PeerProc TlmResponse :=
  match q.ext with
  | none => pure .genericError
  | some ext =>
    match ext.pktType with
    | .setup => handleSetup ext.setup
    | .ctrlStatus => pure .ok
    | .bulkOut => do
      Proc.modify fun p => { p with mLoopbackBuf := q.data }
      pure .ok
    | .bulkIn => handleBulkIn ext.endpoint
    | _ => pure .ok

def reply (q : Payload) (p : PeerDevice) : Option Payload :=
  match q.ext with
  | none => none
  | some ext =>
    match ext.pktType with
    | .setup =>
      if ext.setup.bRequest = usbReqGetDescriptor then
        let data := (descriptor ext.setup).take ext.setup.wLength.toNat
        if data = [] then none else some (ctrlDataPacket p.mAssignedAddr data)
      else none
    | .bulkIn =>
      if p.mLoopbackBuf = [] then none
      else some (bulkInPacket p.mAssignedAddr ext.endpoint p.mLoopbackBuf)
    | _ => none

def settle (q : Payload) (p : PeerDevice) : PeerDevice :=
  match q.ext with
  | none => p
  | some ext =>
    match ext.pktType with
    | .setup =>
      if ext.setup.bRequest = usbReqSetAddress then
        { p with mAssignedAddr := (ext.setup.wValue &&& 0x7F).setWidth 8 }
      else if ext.setup.bRequest = usbReqSetConfiguration then { p with mConfigured := true }
      else p
    | .bulkOut => { p with mLoopbackBuf := q.data }
    | .bulkIn => { p with mLoopbackBuf := [] }
    | _ => p

def verdict (q : Payload) : TlmResponse := if q.ext = none then .genericError else .ok

/-- How a call is served: at once, or around the one packet that is sent back. -/
inductive Served (q : Payload) (p : PeerDevice) : PeerDevice × Proc.Stop PeerDevice Empty Payload Unit TlmResponse → Prop
  | silent (h : reply q p = none) : Served q p (settle q p,.ret (verdict q))
  | replies {r : Payload} {next : Unit → PeerProc TlmResponse} (h : reply q p = some r)
      (hnext : ∀ u, (next u).run p = (settle q p,.ret (verdict q))) : Served q p (p,.call r next)

section Served
variable {q : Payload} {p : PeerDevice}

theorem sendCtrlData_served {data : List Byte} (hsettle : settle q p = p) (hverdict : verdict q = .ok)
    (hreply : reply q p = if data = [] then none else some (ctrlDataPacket p.mAssignedAddr data)) :
    Served q p ((do sendCtrlData data; pure .ok : PeerProc TlmResponse).run p) := by
  by_cases hdata : data = []
  · rw [if_pos hdata] at hreply
    have hrun : (do sendCtrlData data; pure .ok : PeerProc TlmResponse).run p =
        (settle q p,.ret (verdict q)) := by
      rw [sendCtrlData,if_pos hdata,hsettle,hverdict]
      rfl
    rw [hrun]
    exact .silent hreply
  · rw [if_neg hdata] at hreply
    rw [sendCtrlData,if_neg hdata]
    refine .replies hreply fun u => ?_
    rw [hsettle,hverdict]
    rfl

theorem handleSetup_served {ext : Usb3PktExt} (hext : q.ext = some ext) (hty : ext.pktType = .setup) :
    Served q p ((handleSetup ext.setup).run p) := by
  have hverdict : verdict q = .ok := if_neg (by simp [hext])
  have hreply : reply q p = if ext.setup.bRequest = usbReqGetDescriptor then
      if (descriptor ext.setup).take ext.setup.wLength.toNat = [] then none
      else some (ctrlDataPacket p.mAssignedAddr ((descriptor ext.setup).take ext.setup.wLength.toNat))
      else none := by simp only [reply,hext,hty]
  have hsettle : settle q p = if ext.setup.bRequest = usbReqSetAddress then
        { p with mAssignedAddr := (ext.setup.wValue &&& 0x7F).setWidth 8 }
      else if ext.setup.bRequest = usbReqSetConfiguration then { p with mConfigured := true }
      else p := by simp only [settle,hext,hty]
  have hsilent : ∀ p', settle q p = p' → reply q p = none → Served q p (p',.ret .ok) := by
    rintro p' rfl hnone
    exact hverdict ▸ .silent hnone
  rw [handleSetup]
  by_cases hget : ext.setup.bRequest = usbReqGetDescriptor
  · rw [if_pos hget] at hreply ⊢
    refine sendCtrlData_served ?_ hverdict hreply
    rw [hsettle,if_neg (by rw [hget]; decide),if_neg (by rw [hget]; decide)]
  · rw [if_neg hget] at hreply ⊢
    by_cases haddr : ext.setup.bRequest = usbReqSetAddress
    · rw [if_pos haddr] at hsettle ⊢
      exact hsilent _ hsettle hreply
    · rw [if_neg haddr] at hsettle ⊢
      by_cases hconf : ext.setup.bRequest = usbReqSetConfiguration
      · rw [if_pos hconf] at hsettle ⊢
        exact hsilent _ hsettle hreply
      · rw [if_neg hconf] at hsettle ⊢
        exact hsilent _ hsettle hreply

theorem handleBulkIn_served {ext : Usb3PktExt} (hext : q.ext = some ext) (hty : ext.pktType = .bulkIn) :
    Served q p ((handleBulkIn ext.endpoint).run p) := by
  have hverdict : verdict q = .ok := if_neg (by simp [hext])
  have hsettle : settle q p = { p with mLoopbackBuf := [] } := by simp only [settle,hext,hty]
  have hreply : reply q p = if p.mLoopbackBuf = [] then none
      else some (bulkInPacket p.mAssignedAddr ext.endpoint p.mLoopbackBuf) := by
    simp only [reply,hext,hty]
  rw [handleBulkIn,Proc.run_read_bind]
  by_cases hbuf : p.mLoopbackBuf = []
  · rw [if_pos hbuf] at hreply ⊢
    have hsame : settle q p = p := by rw [hsettle,← hbuf]
    have hserved := Served.silent hreply
    rw [hsame,hverdict] at hserved
    exact hserved
  · rw [if_neg hbuf] at hreply ⊢
    refine .replies hreply fun u => ?_
    rw [hsettle,hverdict]
    rfl

theorem bTransport_served : Served q p ((bTransport q).run p) := by
  cases hext : q.ext with
  | none =>
    have hreply : reply q p = none := by simp only [reply,hext]
    have hserved := Served.silent hreply
    rw [show settle q p = p by simp only [settle,hext],verdict,if_pos hext] at hserved
    rw [bTransport,hext]
    exact hserved
  | some ext =>
    have hverdict : verdict q = .ok := if_neg (by simp [hext])
    have hsilent : ∀ p', settle q p = p' → reply q p = none → Served q p (p',.ret .ok) := by
      rintro p' rfl hnone
      exact hverdict ▸ .silent hnone
    cases hty : ext.pktType with
    | setup =>
      simp only [bTransport,hext,hty]
      exact handleSetup_served hext hty
    | bulkIn =>
      simp only [bTransport,hext,hty]
      exact handleBulkIn_served hext hty
    | bulkOut =>
      simp only [bTransport,hext,hty]
      exact hsilent { p with mLoopbackBuf := q.data } (by simp only [settle,hext,hty])
        (by simp only [reply,hext,hty])
    | _ =>
      simp only [bTransport,hext,hty]
      exact hsilent p (by simp only [settle,hext,hty]) (by simp only [reply,hext,hty])

end Served

section Siblings
open Inbound Exchange DeviceController
open ProtocolLayer (usesSequence)

/-- What a request comes to: the status of its packet, the packets that are sent back meanwhile,
and the address and configuration afterwards. -/
structure Outcome where
  status : TlmResponse
  said : List Payload
  addr : BitVec 8
  configured : Bool
  deriving DecidableEq

/-- A packet but for the type of its endpoint, which the peer leaves at its default. -/
def untyped (q : Payload) : Payload :=
  { q with ext := q.ext.map fun ext => { ext with epType := .bulk } }

def Outcome.untyped (o : Outcome) : Outcome := { o with said := o.said.map PeerDevice.untyped }

def drdOutcome (q : Payload) (s : Drd) : Option Outcome :=
  ((DrdController.upstreamBTransport q).interp (recorded .ok) (s,[])).map fun y =>
    ⟨y.1,y.2.2,y.2.1.devCtrl.mAssignedAddr,y.2.1.devCtrl.mConfigured⟩

def peerOutcome (q : Payload) (p : PeerDevice) : Option Outcome :=
  ((bTransport q).interp (recorded ()) (p,[])).map fun y =>
    ⟨y.1,y.2.2,y.2.1.mAssignedAddr,y.2.1.mConfigured⟩

/-- The requests that both devices answer alike, but for the type of the endpoint. -/
def Alike (setup : Usb3SetupPkt) : Prop :=
  (setup.bRequest = usbReqGetDescriptor ∧
    ((highByte setup.wValue = usbDescDevice ∧ 18 ≤ setup.wLength.toNat) ∨
      (highByte setup.wValue = usbDescConfiguration ∧
        (setup.wLength.toNat = 1 ∨ setup.wLength.toNat = 2)) ∨
      (highByte setup.wValue = usbDescBos ∧ setup.wLength.toNat ≠ 0))) ∨
  setup.bRequest = usbReqSetAddress ∨ setup.bRequest = usbReqSetConfiguration

instance (setup : Usb3SetupPkt) : Decidable (Alike setup) := inferInstanceAs (Decidable (_ ∨ _))

variable {q : Payload} {p : PeerDevice} {s : Drd} {ext : Usb3PktExt}

theorem peerOutcome_eq (q : Payload) (p : PeerDevice) :
    peerOutcome q p = some ⟨verdict q,(reply q p).toList,(settle q p).mAssignedAddr,
      (settle q p).mConfigured⟩ := by
  have hserved := bTransport_served (q := q) (p := p)
  generalize hrun : (bTransport q).run p = x at hserved
  rw [peerOutcome]
  cases hserved with
  | silent hreply => rw [Proc.recorded_of_ret _ hrun,hreply]; rfl
  | replies hreply hnext =>
    rw [Proc.recorded_of_call _ hrun,Proc.recorded_of_ret _ (hnext ()),hreply]
    rfl

def controlPacket (addr : BitVec 8) (ty : Usb3PktType) (data : List Byte) : Payload :=
  protocolPacket addr ty 0 .deviceToHost data .control 0

theorem drdOutcome_silent (hh : Handled q s) (ha : answer q s = none) : drdOutcome q s = some
    ⟨status q s,[],(absorb q s).devCtrl.mAssignedAddr,(absorb q s).devCtrl.mConfigured⟩ := by
  have hreaction := upstream_reaction (p := q) (x := (s,([] : List Payload)))
    (recorded_lawful TlmResponse.ok) hh
  rw [drdOutcome]
  generalize hrun : (DrdController.upstreamBTransport q).interp (recorded .ok) (s,[]) = y at hreaction
  cases hreaction with
  | done _ _ => rfl
  | reply ty data n layer hanswer _ => exact absurd (ha.symm.trans hanswer) (by simp)
  | pause a _ _ => rfl

theorem drdOutcome_said (hpkt : q.pktType = some .setup) (hh : Handled q s) {ty : Usb3PktType}
    {data : List Byte} (ha : answer q s = some (some ty,data)) (hseq : usesSequence ty = false) :
    drdOutcome q s = some ⟨status q s,[controlPacket s.devCtrl.mAssignedAddr ty data],
      (absorb q s).devCtrl.mAssignedAddr,(absorb q s).devCtrl.mConfigured⟩ := by
  have hreaction := upstream_reaction (p := q) (x := (s,([] : List Payload)))
    (recorded_lawful TlmResponse.ok) hh
  have hcontrol : kind q ≠ .bulkIn := by
    rw [Ne,kind_bulkIn_iff,hpkt]
    simp
  rw [drdOutcome]
  generalize hrun : (DrdController.upstreamBTransport q).interp (recorded .ok) (s,[]) = y at hreaction
  cases hreaction with
  | done hanswer _ => exact absurd (ha.symm.trans hanswer) (by simp)
  | reply ty' data' n layer hanswer _ hnumber =>
    have hsame : some (some ty',data') = some (some ty,data) := hanswer.symm.trans ha
    simp only [Option.some.injEq,Prod.mk.injEq] at hsame
    obtain ⟨rfl,rfl⟩ := hsame
    have hpacket : replyPacket q s ty' data' n = controlPacket s.devCtrl.mAssignedAddr ty' data' := by
      rw [replyPacket,if_neg hcontrol,if_neg hcontrol,hnumber hseq]
      rfl
    rw [← hpacket]
    rfl
  | pause a hanswer _ => exact absurd (ha.symm.trans hanswer) (by simp)

theorem reply_ne_control (hext : q.ext = some ext) (hty : ext.pktType = .setup) (addr : BitVec 8)
    (ty : Usb3PktType) (data : List Byte) : (reply q p).toList ≠ [controlPacket addr ty data] := by
  simp only [reply,hext,hty]
  split
  · split
    · simp
    · simp [ctrlDataPacket,controlPacket,protocolPacket,makeUsb3Ext]
  · simp

/-- It says one that differs in the endpoint type alone exactly if it sends the same data. -/
theorem untyped_eq_iff (addr addr' : BitVec 8) (ty : Usb3PktType) (data data' : List Byte) :
    untyped (controlPacket addr ty data) = untyped (ctrlDataPacket addr' data') ↔
      addr = addr' ∧ ty = .ctrlData ∧ data = data' := by
  simp only [untyped,controlPacket,protocolPacket,ctrlDataPacket,makeUsb3Ext,Option.map_some,
    Payload.mk.injEq,Option.some.injEq,Usb3PktExt.mk.injEq]
  grind

theorem take_ne_nil {l : List Byte} (hl : l ≠ []) (w : ℕ) : l.take w = [] ↔ w = 0 := by
  simp [List.take_eq_nil_iff,hl]

theorem devDesc_take (w : ℕ) : devDescToBytes {} = makeDevDesc.take w ↔ 18 ≤ w := by
  constructor
  · intro h
    have hlen := congrArg List.length h
    rw [List.length_take] at hlen
    have h18 : (devDescToBytes {}).length = 18 := rfl
    have h18' : makeDevDesc.length = 18 := rfl
    omega
  · intro h
    exact (List.take_of_length_le (l := makeDevDesc) h).symm

theorem cfgDesc_take (w : ℕ) : initDescriptors.take w = makeCfgDesc.take w ↔ w ≤ 2 := by
  constructor
  · intro h
    by_contra hw
    have hbyte := congrArg (·[2]?) h
    simp only [List.getElem?_take_of_lt (Nat.lt_of_not_le hw)] at hbyte
    exact absurd hbyte (by decide)
  · intro h
    have htwo : initDescriptors.take 2 = makeCfgDesc.take 2 := by decide
    rw [← Nat.min_eq_left h,← List.take_take,htwo,List.take_take]

/-- A descriptor read is answered alike if both send the same data, and the peer any at all. -/
theorem getDescriptor_alike (hext : q.ext = some ext) (hty : ext.pktType = .setup)
    (hget : ext.setup.bRequest = usbReqGetDescriptor) (hh : Handled q s)
    (haddr : p.mAssignedAddr = s.devCtrl.mAssignedAddr)
    (hconf : p.mConfigured = s.devCtrl.mConfigured) :
    (drdOutcome q s).map (·.untyped) = (peerOutcome q p).map (·.untyped) ↔
      ∃ data, descriptorReply s.devCtrl ext.setup = some data ∧ data ≠ [] ∧
        data = (descriptor ext.setup).take ext.setup.wLength.toNat := by
  have hsettle : settle q p = p := by
    simp only [settle,hext,hty]
    rw [if_neg (by rw [hget]; decide),if_neg (by rw [hget]; decide)]
  have habsorb := absorb_of_other (s := s) (kind_getDescriptor hext hty hget)
  have hverdict : verdict q = .ok := if_neg (by simp [hext])
  have hreply : reply q p = if (descriptor ext.setup).take ext.setup.wLength.toNat = [] then none
      else some (ctrlDataPacket p.mAssignedAddr
        ((descriptor ext.setup).take ext.setup.wLength.toNat)) := by
    simp only [reply,hext,hty,if_pos hget]
  have hanswer := answer_getDescriptor hext hty hget s
  have hpkt := pktType_setup hext hty
  generalize (descriptor ext.setup).take ext.setup.wLength.toNat = sent at hreply ⊢
  rw [peerOutcome_eq,hsettle,hverdict,hreply,haddr,hconf]
  cases hdata : descriptorReply s.devCtrl ext.setup with
  | none =>
    rw [hdata] at hanswer
    rw [drdOutcome_said hpkt hh hanswer rfl,status_of_stall hpkt hanswer]
    simp [Outcome.untyped]
  | some data =>
    rw [hdata] at hanswer
    rw [drdOutcome_said hpkt hh hanswer rfl,status_of_data hpkt hanswer,habsorb]
    by_cases hsent : sent = []
    · simp [hsent,Outcome.untyped]
    · simp only [hsent,Outcome.untyped,Option.map_some,Option.toList_some,if_false,List.map_cons,
        List.map_nil,Option.some.injEq,Outcome.mk.injEq,List.cons.injEq,untyped_eq_iff,true_and,
        and_true,exists_eq_left']
      exact ⟨fun h => ⟨h ▸ hsent,h⟩,fun h => h.2⟩

theorem descriptors_alike {d : DeviceController} {setup : Usb3SetupPkt} (hdesc : d.mDevDesc = {})
    (hblob : d.mConfigBlob = initDescriptors) :
    (∃ data, descriptorReply d setup = some data ∧ data ≠ [] ∧
      data = (descriptor setup).take setup.wLength.toNat) ↔
    (highByte setup.wValue = usbDescDevice ∧ 18 ≤ setup.wLength.toNat) ∨
      (highByte setup.wValue = usbDescConfiguration ∧
        (setup.wLength.toNat = 1 ∨ setup.wLength.toNat = 2)) ∨
      (highByte setup.wValue = usbDescBos ∧ setup.wLength.toNat ≠ 0) := by
  have hiff : ∀ {data sent : List Byte}, (∃ x, some data = some x ∧ x ≠ [] ∧ x = sent) ↔
      data ≠ [] ∧ data = sent := by
    intro data sent
    constructor
    · rintro ⟨x,hx,hne,rfl⟩
      cases hx
      exact ⟨hne,rfl⟩
    · rintro ⟨hne,rfl⟩
      exact ⟨data,rfl,hne,rfl⟩
  rw [descriptorReply,descriptor,hdesc,hblob]
  by_cases hdev : highByte setup.wValue = usbDescDevice
  · have hne : usbDescDevice ≠ usbDescConfiguration ∧ usbDescDevice ≠ usbDescBos := by decide
    simp only [hdev,if_true,hne.1,hne.2,false_and,or_false,true_and]
    rw [hiff,devDesc_take,and_iff_right (by decide)]
  · simp only [hdev,if_false,false_and,false_or]
    by_cases hcfg : highByte setup.wValue = usbDescConfiguration
    · have hne : usbDescConfiguration ≠ usbDescBos := by decide
      simp only [hcfg,if_true,hne,false_and,or_false,true_and]
      rw [hiff,cfgDesc_take,ne_eq,take_ne_nil (by decide)]
      omega
    · simp only [hcfg,if_false,false_and,false_or]
      by_cases hbos : highByte setup.wValue = usbDescBos
      · simp only [hbos,if_true,true_and]
        rw [hiff,ne_eq,take_ne_nil (by decide)]
        exact and_iff_left rfl
      · simp only [hbos,if_false,false_and,List.take_nil,iff_false]
        rintro ⟨data,-,hne,hdata⟩
        exact hne hdata

/-- SET_ADDRESS and SET_CONFIGURATION are served without a word. -/
theorem silent_alike (hext : q.ext = some ext) (hty : ext.pktType = .setup) (hh : Handled q s)
    (hset : ext.setup.bRequest = usbReqSetAddress ∨
      ext.setup.bRequest = usbReqSetConfiguration)
    (haddr : p.mAssignedAddr = s.devCtrl.mAssignedAddr)
    (hconf : p.mConfigured = s.devCtrl.mConfigured) : drdOutcome q s = peerOutcome q p := by
  have hpkt := pktType_setup hext hty
  have hverdict : verdict q = .ok := if_neg (by simp [hext])
  have hne : usbReqSetAddress ≠ usbReqGetDescriptor ∧ usbReqSetConfiguration ≠ usbReqGetDescriptor ∧
      usbReqSetConfiguration ≠ usbReqSetAddress := by decide
  rcases hset with hset | hcfg
  · have hanswer := answer_setAddress hext hty hset s
    have hreply : reply q p = none := by simp only [reply,hext,hty,hset,if_neg hne.1]
    have hsettle : settle q p =
        { p with mAssignedAddr := (ext.setup.wValue &&& 0x7F).setWidth 8 } := by
      simp only [settle,hext,hty,if_pos hset]
    rw [drdOutcome_silent hh hanswer,peerOutcome_eq,hverdict,hreply,
      status_of_silence hpkt hanswer,hsettle,absorb,kind_setAddress hext hty hset]
    simp [hconf]
  · have hanswer := answer_setConfiguration hext hty hcfg s
    have hreply : reply q p = none := by simp only [reply,hext,hty,hcfg,if_neg hne.2.1]
    have hsettle : settle q p = { p with mConfigured := true } := by
      simp only [settle,hext,hty,hcfg,if_neg hne.2.2,if_true]
    rw [drdOutcome_silent hh hanswer,peerOutcome_eq,hverdict,hreply,
      status_of_silence hpkt hanswer,hsettle,absorb,kind_setConfiguration hext hty hcfg]
    simp [haddr]

/-- The peer of the test bench and the device controller, from like states, come to the same for
a request but for the endpoint type of the packet sent back exactly if it is SET_ADDRESS,
SET_CONFIGURATION, a read of the whole device descriptor, one or two bytes of the configuration, or
some bytes of the BOS, and to the same altogether exactly if it is one of the first two. -/
theorem outcomes_eq_iff (q : Payload) (ext : Usb3PktExt) (s : Drd) (p : PeerDevice)
    (hext : q.ext = some ext) (hty : ext.pktType = .setup) (hs : Answering s)
    (hdesc : s.devCtrl.mDevDesc = {}) (hblob : s.devCtrl.mConfigBlob = initDescriptors)
    (haddr : p.mAssignedAddr = s.devCtrl.mAssignedAddr)
    (hconf : p.mConfigured = s.devCtrl.mConfigured) :
    ((drdOutcome q s).map (·.untyped) = (peerOutcome q p).map (·.untyped) ↔ Alike ext.setup) ∧
      (drdOutcome q s = peerOutcome q p ↔ ext.setup.bRequest = usbReqSetAddress ∨
        ext.setup.bRequest = usbReqSetConfiguration) := by
  have hpkt := pktType_setup hext hty
  have hh : Handled q s := ⟨by rw [ProtocolLayer.isForwarded,hpkt],hs⟩
  have hdiffer : ∀ {ty data}, answer q s = some (some ty,data) → usesSequence ty = false →
      drdOutcome q s ≠ peerOutcome q p := by
    intro ty data ha hseq h
    rw [drdOutcome_said hpkt hh ha hseq,peerOutcome_eq] at h
    exact reply_ne_control hext hty _ _ _ (congrArg Outcome.said (Option.some.inj h)).symm
  by_cases hget : ext.setup.bRequest = usbReqGetDescriptor
  · have hother : ¬(ext.setup.bRequest = usbReqSetAddress ∨
        ext.setup.bRequest = usbReqSetConfiguration) := by rw [hget]; decide
    refine ⟨?_,iff_of_false ?_ hother⟩
    · rw [getDescriptor_alike hext hty hget hh haddr hconf,Alike,or_iff_left hother,
        and_iff_right hget,descriptors_alike hdesc hblob]
    · have hanswer := answer_getDescriptor hext hty hget s
      cases hdata : descriptorReply s.devCtrl ext.setup with
      | none =>
        rw [hdata] at hanswer
        exact hdiffer hanswer rfl
      | some data =>
        rw [hdata] at hanswer
        exact hdiffer hanswer rfl
  · have hreply : reply q p = none := by simp only [reply,hext,hty,if_neg hget]
    have hsame : drdOutcome q s = peerOutcome q p → (drdOutcome q s).map (·.untyped) =
        (peerOutcome q p).map (·.untyped) := congrArg _
    rw [Alike,or_iff_right fun h => hget h.1]
    by_cases hset : ext.setup.bRequest = usbReqSetAddress ∨
        ext.setup.bRequest = usbReqSetConfiguration
    · have heq : drdOutcome q s = peerOutcome q p := silent_alike hext hty hh hset haddr hconf
      exact ⟨iff_of_true (hsame heq) hset,iff_of_true heq hset⟩
    · obtain ⟨ty,data,hsaid,hseq⟩ : ∃ ty data, answer q s = some (some ty,data) ∧
          usesSequence ty = false := by
        obtain ⟨hnset,hncfg⟩ := not_or.mp hset
        rw [answer_request hext hty,if_neg hget,if_neg hnset,if_neg hncfg]
        split
        · exact ⟨_,_,rfl,rfl⟩
        · exact ⟨_,_,rfl,rfl⟩
      refine ⟨iff_of_false (fun h => ?_) hset,iff_of_false (hdiffer hsaid hseq) hset⟩
      rw [drdOutcome_said hpkt hh hsaid hseq,peerOutcome_eq,hreply] at h
      have hlen := congrArg (List.length ∘ Outcome.said) (Option.some.inj h)
      simp [Outcome.untyped] at hlen

/-- The descriptors that the host asks for: the whole device descriptor arrives with another
endpoint type, and the configuration is another one. -/
theorem outcomes_eq_iff_descriptors :
    let ask := fun descType => HostController.setupPacket 1
      (HostController.descriptorRequest descType 0)
    let s : Drd := { Drd.reset with sigRole := .steady .device, sigDevEnable := .steady true }
    ((drdOutcome (ask usbDescDevice) s).map (·.untyped) =
        (peerOutcome (ask usbDescDevice) {}).map (·.untyped) ∧
      drdOutcome (ask usbDescDevice) s ≠ peerOutcome (ask usbDescDevice) {}) ∧
    (drdOutcome (ask usbDescConfiguration) s).map (·.untyped) ≠
      (peerOutcome (ask usbDescConfiguration) {}).map (·.untyped) := by
  intro ask s
  have hdevice := outcomes_eq_iff (ask usbDescDevice) _ s {} rfl rfl ⟨rfl,rfl⟩ rfl rfl rfl rfl
  have hconfig := outcomes_eq_iff (ask usbDescConfiguration) _ s {} rfl rfl ⟨rfl,rfl⟩ rfl rfl rfl rfl
  refine ⟨⟨hdevice.1.mpr (by decide),fun h => ?_⟩,fun h => ?_⟩
  · exact absurd (hdevice.2.mp h) (by decide)
  · exact absurd (hconfig.1.mp h) (by decide)

end Siblings

end PeerDevice
end Usb3Drd
