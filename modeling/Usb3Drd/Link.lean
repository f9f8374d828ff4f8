import Usb3Drd.Exchange
import Usb3Drd.System

/-! A host at one end of a link, and an enabled device at the other: what the control transfers
of an enumeration make of the two, as far as an observer can tell. -/
namespace Usb3Drd
namespace Link

open Coop HostController DeviceController ProtocolLayer Exchange

/-- Both ends, the host on the left, and a record of its suspensions. -/
structure Linked (β : Type) where
  ends : Ends Drd
  log : List β

section Handler
variable {β : Type} (elapse : WaitPoint → Ends Drd → Ends Drd) (called : Payload → Ends Drd → List β)
  (waited : Ends Drd → List β)

/-- The host at its end of the link: what it calls out with is delivered to the device. -/
def hostHandler (depth : ℕ) : Handler Drd WaitPoint Payload TlmResponse (Linked β) where
  state x := x.ends.left
  store s x := { x with ends := x.ends.set .left s }
  wait w x := some ⟨elapse w x.ends,x.log ++ waited x.ends⟩
  call q x := (deliver elapse depth .right q x.ends).map fun y => (y.1,⟨y.2,x.log ++ called q x.ends⟩)

theorem hostHandler_lawful (depth : ℕ) : (hostHandler elapse called waited depth).Lawful :=
  ⟨fun _ _ => rfl,fun _ => rfl⟩

end Handler

/-- The requests of an enumeration, as the device knows them. -/
def Known (setup : Usb3SetupPkt) : Prop :=
  setup.bRequest = usbReqSetAddress ∨ setup.bRequest = usbReqSetConfiguration ∨
    (setup.bRequest = usbReqGetDescriptor ∧ ∀ d, (descriptorReply d setup).isSome)

def configureDevice (buf : List Byte) : DrdProc Unit := do
  let addr ← Proc.read (·.hostCtrl.mDev.addr)
  let cfg ← getDescriptor addr usbDescConfiguration 0 buf
  if cfg.1 = false then pure ()
  else
    modifyDev (noteConfig cfg.2)
    let addr ← Proc.read (·.hostCtrl.mDev.addr)
    let _ ← getDescriptor addr usbDescBos 0 []
    let addr ← Proc.read (·.hostCtrl.mDev.addr)
    let configured ← setConfiguration addr 1
    if configured = false then pure ()
    else
      modifyDev fun d => { d with activeConfig := 1, enumerated := true }
      Proc.modify (writeEnumDone true)
      Proc.sleep .enumPulse
      Proc.modify (writeEnumDone false)

def adoptAddress (newAddr : BitVec 8) : DrdProc Unit := do
  modifyDev fun d => { d with addr := newAddr }
  Proc.modify fun s => { s with sigDevAddr := s.sigDevAddr.write newAddr }
  Proc.sleep .addrSettle

theorem enumerateDevice_eq : enumerateDevice = (do
    let dev ← getDescriptor 0 usbDescDevice 0 []
    if dev.1 = false then pure ()
    else
      modifyDev (noteDevice dev.2)
      let newAddr ← takeAddr
      let addressed ← setAddress 0 newAddr
      if addressed = false then pure ()
      else
        adoptAddress newAddr
        configureDevice dev.2) := rfl

/-- An observer of the link: what it sees of an enabled host and its enabled device, and how that
changes with what the host and the device do. -/
structure Observer {β : Type} (elapse : WaitPoint → Ends Drd → Ends Drd)
    (called : Payload → Ends Drd → List β) (waited : Ends Drd → List β) (V : Type) where
  Sees : Ends Drd → V → Prop
  post : List Byte → V → V
  drain : V → V
  serve : Usb3SetupPkt → V → V
  asked : Usb3SetupPkt → V → List β
  level : V → List β
  role : ∀ {x v}, Sees x v → x.left.sigRole.cur = .host
  answering : ∀ {x v}, Sees x v → Answering x.right
  elapsed : ∀ {x v} w, Sees x v → Sees (elapse w x) v
  stamped : ∀ {x v} i layer, Sees x v → Sees (x.set i { x.get i with protocol := layer }) v
  posted : ∀ {x v} data, Sees x v →
    Sees (x.set .left (storeResponse data x.left)) (post data v)
  drained : ∀ {x v}, Sees x v → Sees (x.set .left (HostController.drain x.left)) (drain v)
  addressed : ∀ {x v r}, r.bRequest = usbReqSetAddress → Sees x v →
    Sees (x.set .right { x.right with devCtrl := { x.right.devCtrl with
      mAssignedAddr := (r.wValue &&& 0x7F).setWidth 8 } }) (serve r v)
  configured : ∀ {x v r}, r.bRequest = usbReqSetConfiguration → Sees x v →
    Sees (x.set .right { x.right with
      devCtrl := { x.right.devCtrl with mConfigured := true }
      sigConfigured := x.right.sigConfigured.write true }) (serve r v)
  described : ∀ {x v r data}, r.bRequest = usbReqGetDescriptor →
    descriptorReply x.right.devCtrl r = some data → Sees x v → serve r v = post data v
  calledSetup : ∀ {x v} a r k, Sees x v → called ((setupPacket a r).numbered k) x = asked r v
  calledStatus : ∀ {x v} a dir k, Sees x v → called ((statusPacket a dir).numbered k) x = level v
  waitedLevel : ∀ {x v}, Sees x v → waited x = level v
  level_post : ∀ data v, level (post data v) = level v
  level_drain : ∀ v, level (drain v) = level v
  level_serve : ∀ r v, level (serve r v) = level v
  post_drain : ∀ v, post [0] (drain v) = post [0] v

namespace Observer
variable {β V : Type} {elapse : WaitPoint → Ends Drd → Ends Drd}
  {called : Payload → Ends Drd → List β} {waited : Ends Drd → List β}
  (O : Observer elapse called waited V) (n : ℕ) {v : V}

section Device
variable {x : Ends Drd}

theorem reply_spec (h : O.Sees x v) {ty : Usb3PktType} (hty : ty = .ctrlData ∨ ty = .ctrlStatus)
    (data : List Byte) :
    (sendToProtocol ty 0 .deviceToHost data).Yields
      (endHandler elapse (deliver elapse (n+1) .left) .right)
      (fun _ y => O.Sees y (O.post data v)) x := by
  obtain ⟨q,layer,hq,hdata,-,hsend⟩ := sendToProtocol_interp
    (endHandler_lawful elapse (deliver elapse (n+1) .left) .right) ty 0 .deviceToHost data .control x
  have hsent := O.stamped .right layer h
  have hf : isForwarded q = true := by
    obtain rfl | rfl := hty
    · simp [isForwarded,hq]
    · simp [isForwarded,hq]
  have hdeliver : deliver elapse (n+1) .left q
      (x.set .right { x.get .right with protocol := layer }) =
        some (q.response,(x.set .right { x.get .right with protocol := layer }).set .left
          (storeResponse data x.left)) := by
    rw [deliver_eq,if_pos hf,hdata]
    simp only [Ends.get,Ends.set,O.role h]
  simp only [endHandler_call,endHandler_store,endHandler_state] at hsend
  rw [hdeliver] at hsend
  exact ⟨(),_,hsend,O.posted data hsent⟩

theorem handleSetup_spec (h : O.Sees x v) {r : Usb3SetupPkt} (hknown : Known r) :
    (handleSetup r).Yields (endHandler elapse (deliver elapse (n+1) .left) .right)
      (fun response y => response = .ok ∧ O.Sees y (O.serve r v)) x := by
  have hne : usbReqSetAddress ≠ usbReqGetDescriptor ∧ usbReqSetConfiguration ≠ usbReqGetDescriptor ∧
      usbReqSetConfiguration ≠ usbReqSetAddress := by decide
  rcases hknown with haddr | hconf | ⟨hget,hsome⟩
  · rw [handleSetup,haddr,if_neg hne.1,if_pos rfl,handleSetAddress]
    simp only [Proc.yields_bind,Proc.yields_modify,Proc.yields_sleep (endHandler_wait _ _),
      Proc.yields_pure]
    exact ⟨trivial,O.elapsed _ (O.addressed haddr h)⟩
  · rw [handleSetup,hconf,if_neg hne.2.1,if_neg hne.2.2,if_pos rfl,handleSetConfiguration]
    simp only [Proc.yields_bind,Proc.yields_modify,Proc.yields_pure]
    exact ⟨trivial,O.configured hconf h⟩
  · obtain ⟨data,hdata⟩ := Option.isSome_iff_exists.mp (hsome x.right.devCtrl)
    rw [handleSetup,if_pos hget,handleGetDescriptor,Proc.yields_bind,Proc.yields_read]
    simp only [endHandler_state,Ends.get,hdata,Proc.yields_bind,Proc.yields_pure]
    rw [O.described hget hdata h]
    exact (O.reply_spec n h (.inl rfl) data).mono fun _ _ hsees => ⟨trivial,hsees⟩

theorem deliver_setup_spec (h : O.Sees x v) {q : Payload} {ext : Usb3PktExt} (hext : q.ext = some ext)
    (hty : ext.pktType = .setup) (hknown : Known ext.setup) :
    ∃ y, deliver elapse (n+2) .right q x = some (.ok,y) ∧ O.Sees y (O.serve ext.setup v) := by
  have hpkt : q.pktType = some .setup := by rw [Payload.pktType,hext,Option.map_some,hty]
  have hmark : markStall q = q := by rw [markStall,if_neg (by simp [hpkt])]
  have hf : isForwarded q = true := by simp [isForwarded,hpkt]
  obtain ⟨_,y,hy,rfl,hsees⟩ := O.handleSetup_spec n h hknown
  refine ⟨y,?_,hsees⟩
  rw [deliver_answering (i := .right) (O.answering h) hf,hmark,
    fromProto_enabled (h := endHandler _ _ .right) (O.answering h).2 hext,reaction,hty]
  exact hy

theorem deliver_status_spec (h : O.Sees x v) {q : Payload} (hty : q.pktType = some .ctrlStatus) :
    ∃ y, deliver elapse (n+2) .right q x = some (.ok,y) ∧ O.Sees y (O.post [0] v) := by
  have hf : isForwarded q = true := by simp [isForwarded,hty]
  obtain ⟨ext,hext,hdeliver⟩ := deliver_reaction elapse (n+1) (i := .right) (O.answering h) hf hty
  obtain ⟨_,y,hy,hsees⟩ := O.reply_spec n h (.inr rfl) [0]
  refine ⟨y,?_,hsees⟩
  rw [hdeliver,reaction,hext]
  simp only [Proc.interp_bind]
  rw [Side.other,hy,Option.bind_some,Proc.interp_pure]

end Device

section Host
variable {x : Linked β}

theorem sendSetup_spec (h : O.Sees x.ends v) (a : BitVec 8) {r : Usb3SetupPkt} (hknown : Known r) :
    (hostBTransport (setupPacket a r)).Yields (hostHandler elapse called waited (n+2))
      (fun _ y => O.Sees y.ends (O.serve r v) ∧ y.log = x.log ++ O.asked r v) x := by
  obtain ⟨k,layer,hsend⟩ := routeTx_interp (hostHandler_lawful elapse called waited (n+2))
    (p := setupPacket a r) rfl x
  have hsent := O.stamped .left layer h
  obtain ⟨y,hy,hsees⟩ := O.deliver_setup_spec n hsent (q := (setupPacket a r).numbered k)
    rfl rfl hknown
  have hcalled := O.calledSetup a r k hsent
  refine ⟨.ok,⟨y,x.log ++ O.asked r v⟩,?_,hsees,rfl⟩
  rw [← hcalled,hostBTransport,hsend]
  exact congrArg (Option.map _) hy

theorem sendStatus_spec (h : O.Sees x.ends v) (a : BitVec 8) (dir : Bool) :
    (hostBTransport (statusPacket a dir)).Yields (hostHandler elapse called waited (n+2))
      (fun response y => response = .ok ∧ O.Sees y.ends (O.post [0] v) ∧
        y.log = x.log ++ O.level v) x := by
  obtain ⟨k,layer,hsend⟩ := routeTx_interp (hostHandler_lawful elapse called waited (n+2))
    (p := statusPacket a dir) rfl x
  have hsent := O.stamped .left layer h
  obtain ⟨y,hy,hsees⟩ := O.deliver_status_spec n hsent (q := (statusPacket a dir).numbered k) rfl
  have hcalled := O.calledStatus a dir k hsent
  refine ⟨.ok,⟨y,x.log ++ O.level v⟩,?_,rfl,hsees,rfl⟩
  rw [← hcalled,hostBTransport,hsend]
  exact congrArg (Option.map _) hy

/-- The data stage takes what the mailbox holds, or leaves all as it is. -/
theorem dataStage_spec (h : O.Sees x.ends v) (a : BitVec 8) (r : Usb3SetupPkt) (buf : List Byte)
    (dir : Bool) (hlen : dir = true → r.wLength = 0) :
    (dataStage a r buf dir).Yields (hostHandler elapse called waited (n+2))
      (fun buf' y => buf' = (if r.wLength ≠ 0 ∧ x.ends.left.hostCtrl.mRespValid = true then
          x.ends.left.hostCtrl.mRespData else buf) ∧
        (O.Sees y.ends v ∨ O.Sees y.ends (O.drain v)) ∧ y.log = x.log) x := by
  have hrun := dataStage_interp (h := hostHandler elapse called waited (n+2)) a buf hlen x
  by_cases hfull : r.wLength ≠ 0 ∧ x.ends.left.hostCtrl.mRespValid = true
  · rw [Proc.yields_of_eq (hrun.trans (congrArg some (if_pos hfull))),if_pos hfull]
    exact ⟨rfl,.inr (O.drained h),rfl⟩
  · rw [Proc.yields_of_eq (hrun.trans (congrArg some (if_neg hfull))),if_neg hfull]
    exact ⟨rfl,.inl h,rfl⟩

def transferLog (r : Usb3SetupPkt) (v : V) : List β :=
  O.asked r v ++ O.level v ++ O.level v ++ O.level v

/-- How a control transfer ends: in success, with what the mailbox held when the device had served
the request, and with the reply to the status stage in the mailbox. -/
structure Transferred (r : Usb3SetupPkt) (v : V) (buf : List Byte) (log : List β)
    (result : Bool × List Byte) (y : Linked β) : Prop where
  ok : result.1 = true
  data : ∃ z, O.Sees z (O.serve r v) ∧ result.2 =
    if r.wLength ≠ 0 ∧ z.left.hostCtrl.mRespValid = true then z.left.hostCtrl.mRespData else buf
  sees : O.Sees y.ends (O.post [0] (O.serve r v))
  logged : y.log = log ++ O.transferLog r v

theorem transfer_spec (h : O.Sees x.ends v) (a : BitVec 8) (r : Usb3SetupPkt) (buf : List Byte)
    (dir : Bool) (hlen : dir = true → r.wLength = 0) (hknown : Known r) :
    (ctrlTransfer a r buf dir).Yields (hostHandler elapse called waited (n+2))
      (O.Transferred r v buf x.log) x := by
  rw [ctrlTransfer,Proc.yields_bind]
  refine (O.sendSetup_spec n h a hknown).mono ?_
  rintro - y₁ ⟨hsees₁,hlog₁⟩
  rw [Proc.yields_bind,Proc.yields_sleep rfl,Proc.yields_bind]
  have hwaited := O.elapsed .setupStage hsees₁
  refine (O.dataStage_spec n (x := ⟨elapse .setupStage y₁.ends,y₁.log ++ waited y₁.ends⟩) hwaited a r
    buf dir hlen).mono ?_
  rintro buf' y₂ ⟨hbuf,hsees₂,hlog₂⟩
  -- drained or not, the mailbox takes the reply to the status stage
  obtain ⟨u,hu,hpost,hlevel⟩ : ∃ u, O.Sees y₂.ends u ∧
      O.post [0] u = O.post [0] (O.serve r v) ∧ O.level u = O.level v := by
    obtain hkept | hdrained := hsees₂
    · exact ⟨_,hkept,rfl,O.level_serve r v⟩
    · exact ⟨_,hdrained,O.post_drain _,(O.level_drain _).trans (O.level_serve r v)⟩
  rw [Proc.yields_bind]
  refine (O.sendStatus_spec n hu a dir).mono ?_
  rintro response y₃ ⟨hok,hsees₃,hlog₃⟩
  rw [Proc.yields_bind,Proc.yields_sleep rfl,Proc.yields_pure]
  rw [hpost] at hsees₃
  refine ⟨by rw [hok]; rfl,⟨_,hwaited,hbuf⟩,O.elapsed _ hsees₃,?_⟩
  show y₃.log ++ waited y₃.ends = _
  rw [hlog₃,hlog₂,O.waitedLevel hsees₃,O.level_post,O.level_serve,hlevel]
  show y₁.log ++ waited y₁.ends ++ _ ++ _ = _
  rw [hlog₁,O.waitedLevel hsees₁,O.level_serve,transferLog]
  simp only [List.append_assoc]

theorem known_descriptor {descType : BitVec 8}
    (h : descType = usbDescDevice ∨ descType = usbDescConfiguration ∨ descType = usbDescBos) :
    Known (descriptorRequest descType 0) := by
  refine .inr (.inr ⟨rfl,fun d => ?_⟩)
  obtain rfl | rfl | rfl := h
  · rfl
  · rfl
  · rfl

theorem getDescriptor_spec (h : O.Sees x.ends v) (a : BitVec 8) {descType : BitVec 8}
    (hty : descType = usbDescDevice ∨ descType = usbDescConfiguration ∨ descType = usbDescBos)
    (buf : List Byte) :
    (getDescriptor a descType 0 buf).Yields (hostHandler elapse called waited (n+2))
      (O.Transferred (descriptorRequest descType 0) v buf x.log) x :=
  O.transfer_spec n h a _ buf false (by simp) (known_descriptor hty)

theorem setAddress_spec (h : O.Sees x.ends v) (old new : BitVec 8) :
    (setAddress old new).Yields (hostHandler elapse called waited (n+2))
      (fun ok y => ∃ buf, O.Transferred (addressRequest new) v [] x.log (ok,buf) y) x := by
  rw [setAddress,Proc.yields_bind]
  refine (O.transfer_spec n h old (addressRequest new) [] true (fun _ => rfl) (.inl rfl)).mono ?_
  exact fun result _ hdone => (Proc.yields_pure _).mpr ⟨result.2,hdone⟩

theorem setConfiguration_spec (h : O.Sees x.ends v) (a configVal : BitVec 8) :
    (setConfiguration a configVal).Yields (hostHandler elapse called waited (n+2))
      (fun ok y => ∃ buf, O.Transferred (configurationRequest configVal) v [] x.log (ok,buf) y) x := by
  rw [setConfiguration,Proc.yields_bind]
  refine (O.transfer_spec n h a (configurationRequest configVal) [] true (fun _ => rfl)
    (.inr (.inl rfl))).mono ?_
  exact fun result _ hdone => (Proc.yields_pure _).mpr ⟨result.2,hdone⟩

/-- What an observer sees of an enumeration that begins in view `v`: the views that follow each
transfer, once the host has noted what it learned from it. -/
structure Course (v : V) where
  addr : BitVec 8
  taken : V
  settled : V
  noted : List Byte → V
  raised : V
  takes : ∀ {x z buf}, O.Sees z (O.serve (descriptorRequest usbDescDevice 0) v) →
    buf = (if (descriptorRequest usbDescDevice 0).wLength ≠ 0 ∧ z.left.hostCtrl.mRespValid = true then
      z.left.hostCtrl.mRespData else []) →
    O.Sees x (O.post [0] (O.serve (descriptorRequest usbDescDevice 0) v)) →
    x.left.hostCtrl.mNextAddr = addr ∧
      O.Sees (x.set .left (learnDevice buf x.left)) taken
  settles : ∀ {x}, O.Sees x (O.post [0] (O.serve (addressRequest addr) taken)) →
    O.Sees (x.set .left (adoptAddr addr x.left)) settled
  notes : ∀ {x} buf, O.Sees x (O.post [0] (O.serve (descriptorRequest usbDescConfiguration 0) settled)) →
    O.Sees (x.set .left (learnConfig buf x.left)) (noted buf)
  raises : ∀ {x buf}, O.Sees x (O.post [0] (O.serve (configurationRequest 1)
      (O.post [0] (O.serve (descriptorRequest usbDescBos 0) (noted buf))))) →
    O.Sees (x.set .left (completeEnum x.left)) raised

namespace Course
variable {O} (course : O.Course v)

def configureLog (buf : List Byte) : List β :=
  O.transferLog (descriptorRequest usbDescConfiguration 0) course.settled ++
    O.transferLog (descriptorRequest usbDescBos 0) (course.noted buf) ++
    O.transferLog (configurationRequest 1)
      (O.post [0] (O.serve (descriptorRequest usbDescBos 0) (course.noted buf))) ++
    O.level course.raised

def log (buf : List Byte) : List β :=
  O.transferLog (descriptorRequest usbDescDevice 0) v ++
    O.transferLog (addressRequest course.addr) course.taken ++ O.level course.settled ++
    course.configureLog buf

/-- The end of an enumeration: its pulse has been seen, and is over. -/
def Ended (log : List β) (rest : List Byte → List β) (y : Linked β) : Prop :=
  ∃ z buf, O.Sees z course.raised ∧ y.log = log ++ rest buf ∧
    y.ends = (elapse .enumPulse z).set .left (writeEnumDone false (elapse .enumPulse z).left)

theorem configureDevice_spec (h : O.Sees x.ends course.settled) (buf : List Byte) :
    (configureDevice buf).Yields (hostHandler elapse called waited (n+2))
      (fun _ => course.Ended x.log course.configureLog) x := by
  rw [configureDevice,Proc.yields_bind,Proc.yields_read,Proc.yields_bind]
  refine (O.getDescriptor_spec n h _ (.inr (.inl rfl)) buf).mono fun cfg y₁ h₁ => ?_
  rw [if_neg (by simp [h₁.ok])]
  let x₂ : Linked β := { y₁ with ends := y₁.ends.set .left (learnConfig cfg.2 y₁.ends.left) }
  have h₂ : O.Sees x₂.ends (course.noted cfg.2) := course.notes cfg.2 h₁.sees
  show (getDescriptor x₂.ends.left.hostCtrl.mDev.addr usbDescBos 0 [] >>= _).Yields _ _ x₂
  rw [Proc.yields_bind]
  refine (O.getDescriptor_spec n h₂ _ (.inr (.inr rfl)) []).mono fun bos y₃ h₃ => ?_
  show (setConfiguration y₃.ends.left.hostCtrl.mDev.addr 1 >>= _).Yields _ _ y₃
  rw [Proc.yields_bind]
  refine (O.setConfiguration_spec n h₃.sees _ 1).mono ?_
  rintro ok y₄ ⟨_,h₄⟩
  have hok : ok = true := h₄.ok
  rw [if_neg (by simp [hok])]
  let z : Ends Drd := y₄.ends.set .left (completeEnum y₄.ends.left)
  have hraised : O.Sees z course.raised := course.raises h₄.sees
  refine ⟨(),⟨_,y₄.log ++ waited z⟩,rfl,z,cfg.2,hraised,?_,rfl⟩
  show y₄.log ++ waited z = x.log ++ course.configureLog cfg.2
  rw [O.waitedLevel hraised,h₄.logged,h₃.logged]
  show y₁.log ++ _ ++ _ ++ _ = _
  rw [h₁.logged,configureLog]
  simp only [List.append_assoc]

/-- An enumeration over the link completes, and takes the course that the observer expects. -/
theorem enumerateDevice_spec (h : O.Sees x.ends v) :
    enumerateDevice.Yields (hostHandler elapse called waited (n+2))
      (fun _ => course.Ended x.log course.log) x := by
  rw [enumerateDevice_eq,Proc.yields_bind]
  refine (O.getDescriptor_spec n h 0 (.inl rfl) []).mono fun dev y₁ h₁ => ?_
  rw [if_neg (by simp [h₁.ok])]
  obtain ⟨z,hz,hdata⟩ := h₁.data
  obtain ⟨haddr,h₂⟩ := course.takes hz hdata h₁.sees
  let x₂ : Linked β := { y₁ with ends := y₁.ends.set .left (learnDevice dev.2 y₁.ends.left) }
  show (setAddress 0 y₁.ends.left.hostCtrl.mNextAddr >>= fun addressed =>
    if addressed = false then pure ()
    else do adoptAddress y₁.ends.left.hostCtrl.mNextAddr; configureDevice dev.2).Yields _ _ x₂
  rw [haddr,Proc.yields_bind]
  refine (O.setAddress_spec n (x := x₂) h₂ 0 course.addr).mono ?_
  rintro ok y₂ ⟨_,h₃⟩
  have hok : ok = true := h₃.ok
  rw [if_neg (by simp [hok])]
  let z : Ends Drd := y₂.ends.set .left (adoptAddr course.addr y₂.ends.left)
  have hsettled : O.Sees z course.settled := course.settles h₃.sees
  let x₃ : Linked β := ⟨elapse .addrSettle z,y₂.log ++ waited z⟩
  show (configureDevice dev.2).Yields _ _ x₃
  refine (course.configureDevice_spec n (O.elapsed _ hsettled) dev.2).mono ?_
  rintro - y ⟨z',buf,hraised,hlog,hends⟩
  refine ⟨z',buf,hraised,?_,hends⟩
  rw [hlog]
  show y₂.log ++ waited z ++ _ = _
  rw [O.waitedLevel hsettled,h₃.logged]
  show y₁.log ++ _ ++ _ ++ _ = _
  rw [h₁.logged,log]
  simp only [List.append_assoc]

end Course

end Host
end Observer

theorem masked_address (a : BitVec 8) :
    ((addressRequest a).wValue &&& 0x7F).setWidth 8 = a &&& 0x7F := by
  simp only [addressRequest,BitVec.setWidth_and]
  rw [BitVec.setWidth_setWidth_of_le _ (by decide),BitVec.setWidth_eq]
  rfl

end Link
end Usb3Drd
