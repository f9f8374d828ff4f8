import Usb3Drd.DeviceSession

/-! The address that a device puts on what it sends during a control transfer: the one that it
has by then, which the request itself may have changed. -/
namespace Usb3Drd

open Coop HostController DeviceController ProtocolLayer Exchange Inbound DeviceSession

namespace ReplyAddress

/-- What happens during one suspension: so many steps of the loopback process, and what else
becomes of both sides. -/
structure Pause where
  loops : ℕ
  host : Drd
  device : Drd
  answer : TlmResponse

/-- Host and device, what the device has sent, and the number of suspensions so far. -/
structure Link where
  host : Drd
  device : Drd
  sent : List Payload := []
  turn : ℕ := 0

def keep (s s' : Drd) : Drd :=
  { s' with
    sigRole := s.sigRole
    sigDevEnable := s.sigDevEnable
    devCtrl := { s'.devCtrl with mAssignedAddr := s.devCtrl.mAssignedAddr } }

section Code
variable (o : ℕ → Pause)

def pass (x : Link) : Link :=
  { x with host := (o x.turn).host, device := keep x.device (o x.turn).device, turn := x.turn+1 }

def atDevice (meanwhile : Link → Option Link) : Handler Drd WaitPoint Payload TlmResponse Link where
  state x := x.device
  store s x := { x with device := s }
  wait _ x := (meanwhile x).map (pass o)
  call q x := (meanwhile { x with sent := x.sent ++ [q] }).map fun y => ((o y.turn).answer,pass o y)

def loopbackStep (x : Link) : Option Link := (loopbackLoop.interp (atDevice o some) x).map (·.2)

def loopbackSteps : ℕ → Link → Option Link
  | 0, x => some x
  | n+1, x => (loopbackStep o x).bind (loopbackSteps n)

def idle (x : Link) : Option Link := loopbackSteps o (o x.turn).loops x

def serve (q : Payload) (x : Link) : Option (TlmResponse × Link) :=
  (DrdController.upstreamBTransport q).interp (atDevice o (idle o)) x

def atHost : Handler Drd WaitPoint Payload TlmResponse Link where
  state x := x.host
  store s x := { x with host := s }
  wait w x := if w = .statusStage then some x else (idle o x).map (pass o)
  call q x := (serve o q x).bind fun y => (idle o y.2).map fun z => (y.1,pass o z)

def transfer (devAddr : BitVec 8) (setup : Usb3SetupPkt) (dataBuf : List Byte)
    (hostToDevice : Bool) (host device : Drd) : Option ((Bool × List Byte) × Link) :=
  (ctrlTransfer devAddr setup dataBuf hostToDevice).interp (atHost o) { host, device }

end Code

/-- Everything that the device sent carries an address. -/
def SentFrom (a : BitVec 8) (x : Link) : Prop := ∀ q ∈ x.sent, q.ext.map (·.devAddr) = some a

def requested (a : BitVec 8) (setup : Usb3SetupPkt) : BitVec 8 :=
  if setup.bRequest = usbReqSetAddress then (setup.wValue &&& 0x7F).setWidth 8 else a

/-- What one part of the transfer comes to: the device is enabled at an address, and all that it
has sent meanwhile carries that. -/
structure Steps (a : BitVec 8) (x y : Link) : Prop where
  answering : Answering y.device
  address : y.device.devCtrl.mAssignedAddr = a
  sent : ∃ qs, y.sent = x.sent ++ qs ∧ ∀ q ∈ qs, q.ext.map (·.devAddr) = some a

section Device
variable {o : ℕ → Pause} {a : BitVec 8} {x y z : Link}

theorem Steps.refl (h : Answering x.device) (ha : x.device.devCtrl.mAssignedAddr = a) : Steps a x x :=
  ⟨h,ha,[],by simp,by simp⟩

theorem Steps.trans (h : Steps a x y) (h' : Steps a y z) : Steps a x z := by
  obtain ⟨qs,hqs,hstamp⟩ := h.sent
  obtain ⟨rs,hrs,hstamp'⟩ := h'.sent
  refine ⟨h'.answering,h'.address,qs ++ rs,by rw [hrs,hqs,List.append_assoc],fun q hq => ?_⟩
  exact (List.mem_append.mp hq).elim (hstamp q) (hstamp' q)

theorem Steps.ne_nil (h : Steps a x y) (hx : x.sent ≠ []) : y.sent ≠ [] := by
  obtain ⟨qs,hqs,-⟩ := h.sent
  rw [hqs]
  exact List.append_ne_nil_of_left_ne_nil hx qs

theorem Steps.pass (h : Steps a x y) : Steps a x (pass o y) := ⟨h.answering,h.address,h.sent⟩

theorem atDevice_lawful (m : Link → Option Link) : (atDevice o m).Lawful :=
  ⟨fun _ _ => rfl,fun _ => rfl⟩

/-- What may happen meanwhile is a part of the transfer. -/
def Harmless (m : Link → Option Link) : Prop :=
  ∀ a x, Answering x.device → x.device.devCtrl.mAssignedAddr = a → ∃ y, m x = some y ∧ Steps a x y

theorem harmless_none : Harmless some := fun _ x h ha => ⟨x,rfl,.refl h ha⟩

variable {m : Link → Option Link}

theorem call_steps (hm : Harmless m) {q : Payload} (h : Answering x.device)
    (ha : x.device.devCtrl.mAssignedAddr = a) (hq : q.ext.map (·.devAddr) = some a) :
    ∃ y, (atDevice o m).call q x = some y ∧ Steps a x y.2 ∧ y.2.sent ≠ [] := by
  obtain ⟨y,hy,hsteps⟩ := hm a { x with sent := x.sent ++ [q] } h ha
  have hsend : Steps a x { x with sent := x.sent ++ [q] } := ⟨h,ha,[q],rfl,by simpa using hq⟩
  refine ⟨((o y.turn).answer,pass o y),?_,(hsend.trans hsteps).pass,?_⟩
  · simp only [atDevice,hy,Option.map_some]
  · exact (hsteps.pass (o := o)).ne_nil (by simp)

theorem wait_steps (hm : Harmless m) (w : WaitPoint) (h : Answering x.device)
    (ha : x.device.devCtrl.mAssignedAddr = a) :
    ∃ y, (atDevice o m).wait w x = some y ∧ Steps a x y := by
  obtain ⟨y,hy,hsteps⟩ := hm a x h ha
  exact ⟨pass o y,by simp only [atDevice,hy,Option.map_some],hsteps.pass⟩

theorem loopback_harmless (o : ℕ → Pause) : Harmless (loopbackStep o) := by
  intro a x h ha
  have hl := atDevice_lawful (o := o) some
  obtain ⟨y,hwait,hxy⟩ := wait_steps (o := o) harmless_none .outEp h ha
  rw [loopbackStep]
  by_cases hmoves : y.device.devCtrl.mConfigured = true ∧ y.device.devCtrl.mEp2Out.hasData = true
  · obtain ⟨q,layer,-,hq,hturn⟩ := loopbackLoop_full hl hwait hmoves.1 hmoves.2
    let moved : Link := { y with device := { moveLoopback y.device with protocol := layer } }
    have hstamp : q.ext.map (·.devAddr) = some a := hq.trans (congrArg some hxy.address)
    obtain ⟨z,hcall,hyz,-⟩ := call_steps (o := o) (x := moved) harmless_none hxy.answering
      hxy.address hstamp
    let raised : Link := { z.2 with device := writeBulkIrq true z.2.device }
    obtain ⟨w,hpulse,hzw⟩ := wait_steps (o := o) (x := raised) harmless_none .bulkIrqPulse
      hyz.answering hyz.address
    refine ⟨{ w with device := writeBulkIrq false w.device },?_,?_⟩
    · rw [hturn]
      show (((atDevice o some).call q moved).bind _).map _ = _
      rw [hcall,Option.bind_some]
      show (((atDevice o some).wait .bulkIrqPulse raised).map _).map _ = _
      rw [hpulse]
      rfl
    · have hxz : Steps a x z.2 := hxy.trans ⟨hyz.answering,hyz.address,hyz.sent⟩
      exact hxz.trans ⟨hzw.answering,hzw.address,hzw.sent⟩
  · rw [loopbackLoop_idle hwait hmoves]
    exact ⟨y,rfl,hxy⟩

theorem idle_harmless (o : ℕ → Pause) : Harmless (idle o) := by
  have hloops : ∀ n, Harmless (loopbackSteps o n) := by
    intro n
    induction n with
    | zero => exact harmless_none
    | succ n ih =>
      intro a x h ha
      obtain ⟨y,hy,hxy⟩ := loopback_harmless o a x h ha
      obtain ⟨z,hz,hyz⟩ := ih a y hxy.answering hxy.address
      exact ⟨z,by rw [loopbackSteps,hy]; exact hz,hxy.trans hyz⟩
  exact fun a x h ha => hloops _ a x h ha

/-- A packet may change the address, and what it sets off carries the one it leaves. -/
theorem serve_steps (o : ℕ → Pause) {q : Payload} (hf : isForwarded q = true)
    (h : Answering x.device) : ∃ y, serve o q x = some (status q x.device,y) ∧
      Steps (addressAfter x.device.devCtrl.mAssignedAddr (kind q)) x y ∧
        (answer q x.device ≠ none → y.sent ≠ []) := by
  have hl := atDevice_lawful (o := o) (idle o)
  have hreact := upstream_reaction hl (p := q) (x := x) ⟨hf,h⟩
  have habsorb := absorb_answering q h
  have haddr := absorb_mAssignedAddr q x.device
  rw [serve]
  generalize (DrdController.upstreamBTransport q).interp (atDevice o (idle o)) x = y at hreact ⊢
  cases hreact with
  | done hans hkind =>
    exact ⟨_,rfl,⟨habsorb,haddr,[],by simp [atDevice],by simp⟩,fun hne => absurd hans hne⟩
  | reply ty data n layer hans hkind =>
    have hsame : addressAfter x.device.devCtrl.mAssignedAddr (kind q) =
        x.device.devCtrl.mAssignedAddr := by
      cases hk : kind q with
      | address a => exact absurd hk (hkind a)
      | _ => rfl
    let taken : Link := { x with device := { absorb q x.device with protocol := layer } }
    obtain ⟨y,hy,hsteps,hne⟩ := call_steps (o := o) (x := taken)
      (q := replyPacket q x.device ty data n) (idle_harmless o) habsorb haddr
      (congrArg some hsame.symm)
    refine ⟨y.2,?_,⟨hsteps.answering,hsteps.address,hsteps.sent⟩,fun _ => hne⟩
    show ((atDevice o (idle o)).call (replyPacket q x.device ty data n) taken).map _ = _
    rw [hy]
    rfl
  | pause a hans hkind =>
    let taken : Link := { x with device := absorb q x.device }
    obtain ⟨y,hy,hsteps⟩ := wait_steps (o := o) (x := taken) (idle_harmless o) .setAddressSettle
      habsorb haddr
    refine ⟨y,?_,⟨hsteps.answering,hsteps.address,hsteps.sent⟩,fun hne => absurd hans hne⟩
    show ((atDevice o (idle o)).wait .setAddressSettle taken).map _ = _
    rw [hy]
    rfl

end Device

section Host
variable {o : ℕ → Pause} {a : BitVec 8} {x y : Link}

theorem atHost_lawful : (atHost o).Lawful := ⟨fun _ _ => rfl,fun _ => rfl⟩

theorem send_steps (o : ℕ → Pause) {p : Payload} (hp : p.ext.isSome = true)
    (hf : isForwarded p = true) (h : Answering x.device) (ha : x.device.devCtrl.mAssignedAddr = a) :
    ∃ y, (hostBTransport p).interp (atHost o) x = some y ∧
      Steps (addressAfter a (kind p)) x y.2 ∧
        (p.pktType = some .ctrlStatus → y.2.sent ≠ []) := by
  obtain ⟨n,layer,hsend⟩ := routeTx_interp atHost_lawful hp x
  have hf' : isForwarded (p.numbered n) = true := by
    rw [isForwarded,Payload.numbered_pktType]
    exact hf
  let sending : Link := { x with host := { x.host with protocol := layer } }
  obtain ⟨y,hy,hxy,hne⟩ := serve_steps o (x := sending) hf' h
  obtain ⟨z,hz,hyz⟩ := idle_harmless o _ y hxy.answering hxy.address
  rw [kind_numbered,ha] at hxy hyz
  have hxz : Steps (addressAfter a (kind p)) x (pass o z) :=
    Steps.pass (.trans ⟨hxy.answering,hxy.address,hxy.sent⟩ hyz)
  refine ⟨(status (p.numbered n) x.device,pass o z),?_,hxz,fun hstatus => (hyz.pass (o := o)).ne_nil (hne ?_)⟩
  · rw [hostBTransport,hsend]
    show (serve o (p.numbered n) sending).bind _ = _
    rw [hy,Option.bind_some,hz]
    rfl
  · obtain ⟨ext,hext⟩ := Option.isSome_iff_exists.mp hp
    have hty : ext.pktType = .ctrlStatus := by
      rw [Payload.pktType,hext] at hstatus
      exact Option.some.inj hstatus
    simp [answer,Payload.numbered,hext,hty]

theorem sleep_steps (o : ℕ → Pause) (w : WaitPoint) (h : Answering x.device)
    (ha : x.device.devCtrl.mAssignedAddr = a) :
    ∃ y, (Proc.sleep w : DrdProc Unit).interp (atHost o) x = some y ∧ Steps a x y.2 := by
  rw [Proc.interp_sleep]
  by_cases hw : w = .statusStage
  · exact ⟨((),x),by simp only [atHost,if_pos hw,Option.map_some],.refl h ha⟩
  · obtain ⟨y,hy,hxy⟩ := idle_harmless o a x h ha
    exact ⟨((),pass o y),by simp only [atHost,if_neg hw,hy,Option.map_some],hxy.pass⟩

theorem dataStage_steps (o : ℕ → Pause) (devAddr : BitVec 8) (setup : Usb3SetupPkt)
    (buf : List Byte) (dir : Bool) (h : Answering x.device)
    (ha : x.device.devCtrl.mAssignedAddr = a) :
    ∃ y, (dataStage devAddr setup buf dir).interp (atHost o) x = some y ∧ Steps a x y.2 := by
  by_cases hlen : dir = true → setup.wLength = 0
  · rw [dataStage_interp _ _ hlen]
    refine ⟨_,rfl,?_⟩
    split
    · exact ⟨h,ha,[],by simp [atHost],by simp⟩
    · exact .refl h ha
  · obtain ⟨hdir,hlen⟩ := Classical.not_imp.mp hlen
    obtain ⟨y,hy,hxy,-⟩ := send_steps o (p := dataPacket devAddr setup buf) rfl rfl h ha
    obtain ⟨z,hz,hyz⟩ := sleep_steps o .dataStage hxy.answering hxy.address
    refine ⟨(buf,z.2),?_,hxy.trans hyz⟩
    rw [dataStage,if_neg hlen,if_neg (by simp [hdir]),Proc.interp_bind,hy,Option.bind_some,
      Proc.interp_bind,hz]
    rfl

theorem kind_setupPacket (devAddr : BitVec 8) (setup : Usb3SetupPkt) (a : BitVec 8) :
    addressAfter a (kind (HostController.setupPacket devAddr setup)) = requested a setup := by
  simp only [kind,HostController.setupPacket,makeUsb3Ext,requested]
  by_cases haddr : setup.bRequest = usbReqSetAddress
  · rw [if_pos haddr,if_pos haddr,addressAfter]
  · rw [if_neg haddr,if_neg haddr]
    by_cases hconf : setup.bRequest = usbReqSetConfiguration
    · rw [if_pos hconf]
      rfl
    · rw [if_neg hconf]
      rfl

/-- After its SETUP stage the whole transfer is answered from the address that it leaves. -/
theorem transfer_steps (o : ℕ → Pause) (setup : Usb3SetupPkt) (buf : List Byte) (dir : Bool)
    (host device : Drd) (h : Answering device) :
    ∃ y, transfer o device.devCtrl.mAssignedAddr setup buf dir host device = some y ∧
      y.2.sent ≠ [] ∧ SentFrom (requested device.devCtrl.mAssignedAddr setup) y.2 := by
  obtain ⟨x₁,h₁,hs₁,-⟩ := send_steps o (x := { host, device })
    (p := HostController.setupPacket device.devCtrl.mAssignedAddr setup) rfl rfl h rfl
  rw [kind_setupPacket] at hs₁
  obtain ⟨x₂,h₂,hs₂⟩ := sleep_steps o .setupStage hs₁.answering hs₁.address
  obtain ⟨x₃,h₃,hs₃⟩ := dataStage_steps o device.devCtrl.mAssignedAddr setup buf dir hs₂.answering
    hs₂.address
  obtain ⟨x₄,h₄,hs₄,hne⟩ := send_steps o
    (p := statusPacket device.devCtrl.mAssignedAddr dir) rfl rfl hs₃.answering hs₃.address
  obtain ⟨x₅,h₅,hs₅⟩ := sleep_steps o .statusStage hs₄.answering hs₄.address
  obtain ⟨qs,hqs,hstamp⟩ := ((hs₁.trans hs₂).trans (hs₃.trans (hs₄.trans hs₅))).sent
  refine ⟨((decide (x₄.1 = .ok),x₃.1),x₅.2),?_,hs₅.ne_nil (hne rfl),fun q hq => hstamp q ?_⟩
  · rw [transfer,ctrlTransfer,Proc.interp_bind,h₁,Option.bind_some,Proc.interp_bind,h₂,
      Option.bind_some,Proc.interp_bind,h₃,Option.bind_some,Proc.interp_bind,h₄,Option.bind_some,
      Proc.interp_bind,h₅]
    rfl
  · rw [hqs] at hq
    exact hq

end Host

/-- All replies of a transfer carry its address exactly if it is not a SET_ADDRESS of another. -/
theorem replies_iff_unmoved (o : ℕ → Pause) (setup : Usb3SetupPkt) (buf : List Byte) (dir : Bool)
    (host device : Drd) (a : BitVec 8) (h : Answering device)
    (ha : device.devCtrl.mAssignedAddr = a) :
    ∃ y, transfer o a setup buf dir host device = some y ∧ (SentFrom a y.2 ↔
      ¬(setup.bRequest = usbReqSetAddress ∧ (setup.wValue &&& 0x7F).setWidth 8 ≠ a)) := by
  subst ha
  obtain ⟨y,hy,hne,hsent⟩ := transfer_steps o setup buf dir host device h
  refine ⟨y,hy,?_⟩
  have hunmoved : ¬(setup.bRequest = usbReqSetAddress ∧
      (setup.wValue &&& 0x7F).setWidth 8 ≠ device.devCtrl.mAssignedAddr) ↔
        requested device.devCtrl.mAssignedAddr setup = device.devCtrl.mAssignedAddr := by
    rw [requested]
    by_cases haddr : setup.bRequest = usbReqSetAddress
    · simp [haddr]
    · simp [haddr]
  rw [hunmoved]
  constructor
  · intro hfrom
    obtain ⟨q,hq⟩ := List.exists_mem_of_ne_nil _ hne
    exact Option.some.inj ((hsent q hq).symm.trans (hfrom q hq))
  · intro hsame
    rw [hsame] at hsent
    exact hsent

def deviceAt (a : BitVec 8) : Drd where
  sigRole := .steady .device
  sigDevEnable := .steady true
  devCtrl := { mAssignedAddr := a }

def looping (_ : ℕ) : Pause := ⟨1,{},{},.ok⟩

theorem replies_unmoved : ∃ y, transfer looping 5 (configurationRequest 1) [] true {} (deviceAt 5) =
    some y ∧ SentFrom 5 y.2 := by
  obtain ⟨y,hy,hiff⟩ := replies_iff_unmoved looping (configurationRequest 1) [] true {} (deviceAt 5) 5
    ⟨rfl,rfl⟩ rfl
  exact ⟨y,hy,hiff.mpr (by decide)⟩

/-- The SET_ADDRESS of an enumeration is answered from the new address. -/
theorem not_replies_setAddress : ¬∀ (o : ℕ → Pause) (setup : Usb3SetupPkt) (buf : List Byte)
    (dir : Bool) (host device : Drd) (a : BitVec 8), Answering device →
      device.devCtrl.mAssignedAddr = a →
        ∀ y, transfer o a setup buf dir host device = some y → SentFrom a y.2 := by
  intro hall
  obtain ⟨y,hy,hne,hsent⟩ := transfer_steps looping (addressRequest 1) [] true {}
    (deviceAt 0) ⟨rfl,rfl⟩
  have hfrom := hall looping (addressRequest 1) [] true {} (deviceAt 0) 0 ⟨rfl,rfl⟩ rfl y hy
  obtain ⟨q,hq⟩ := List.exists_mem_of_ne_nil _ hne
  have hstamp := Option.some.inj ((hsent q hq).symm.trans (hfrom q hq))
  exact absurd hstamp (by decide)

end ReplyAddress
end Usb3Drd
