import Usb3Drd.Addressing

/-! Enumeration end to end: what a host learns from the device at the other end of its
link, whatever either of them held before. -/
namespace Usb3Drd
namespace Enumeration

open Coop HostController DeviceController Exchange Link

/-- What only the host thread and the link write of a host. -/
def hostPart (h : HostController) : HostController :=
  { h with mTransferRing := [], mRxBuf := [], mTrbCompleteEvent := false }

def devicePart (d : DeviceController) : DeviceController :=
  { d with mEp1In := {}, mEp2Out := {}, mOutEpEvent := false }

/-- Another state of the host, some time later: its writes have taken effect, its role is
the same, and nothing has reached it on the link. -/
def keepHost (s s' : Drd) : Drd :=
  { s' with
    sigRole := s.sigRole
    sigDevAddr := s.sigDevAddr.update
    sigEnumDone := s.sigEnumDone.update
    hostCtrl := { s.hostCtrl with
      mTransferRing := s'.hostCtrl.mTransferRing, mRxBuf := s'.hostCtrl.mRxBuf
      mTrbCompleteEvent := s'.hostCtrl.mTrbCompleteEvent } }

def keepDevice (s s' : Drd) : Drd :=
  { s' with
    sigRole := s.sigRole
    sigDevEnable := s.sigDevEnable
    devCtrl := { s.devCtrl with
      mEp1In := s'.devCtrl.mEp1In, mEp2Out := s'.devCtrl.mEp2Out
      mOutEpEvent := s'.devCtrl.mOutEpEvent } }

def elapse (drift : WaitPoint → Ends Drd → Ends Drd) (w : WaitPoint) (x : Ends Drd) : Ends Drd :=
  ⟨keepHost x.left (drift w x).left,keepDevice x.right (drift w x).right⟩

abbrev Bench := Linked Bool

def bench (drift : WaitPoint → Ends Drd → Ends Drd) (depth : ℕ) :
    Handler Drd WaitPoint Payload TlmResponse Bench :=
  hostHandler (elapse drift) (fun _ x => [x.left.sigEnumDone.nxt]) (fun x => [x.left.sigEnumDone.nxt])
    depth

/-- The pulses on a line that was at the given level before. -/
def pulses : Bool → List Bool → ℕ
  | _, [] => 0
  | b, b'::bs => (if b = false ∧ b' = true then 1 else 0) + pulses b' bs

/-- A host that is about to enumerate the enabled device at the other end, with its address
counter at `n`. -/
structure Ready (n : ℕ) (x : Ends Drd) : Prop where
  role : x.left.sigRole.cur = .host
  device : Answering x.right
  next : x.left.hostCtrl.mNextAddr = .ofNat 8 n
  line : x.left.sigEnumDone.nxt = false

/-- The host knows the device that was at `x`, and both are set up for each other. -/
structure Enumerated (n : ℕ) (x : Ends Drd) (w : Bench) : Prop where
  enumerated : w.ends.left.hostCtrl.mDev.enumerated = true
  vendorId : w.ends.left.hostCtrl.mDev.vendorId = x.right.devCtrl.mDevDesc.idVendor
  productId : w.ends.left.hostCtrl.mDev.productId = x.right.devCtrl.mDevDesc.idProduct
  numConfigs : w.ends.left.hostCtrl.mDev.numConfigs = x.right.devCtrl.mDevDesc.bNumConfigurations
  addr : w.ends.left.hostCtrl.mDev.addr.toNat = n
  devAddrOut : w.ends.left.sigDevAddr = .steady (.ofNat 8 n)
  assigned : w.ends.right.devCtrl.mAssignedAddr.toNat = n
  activeConfig : w.ends.left.hostCtrl.mDev.activeConfig = 1
  configured : w.ends.right.devCtrl.mConfigured = true
  next : w.ends.left.hostCtrl.mNextAddr.toNat = n+1
  pulse : pulses false (w.log ++ [w.ends.left.sigEnumDone.nxt]) = 1
  low : w.ends.left.sigEnumDone.nxt = false

/-- What an enumeration depends on. -/
structure View where
  host : HostController
  device : DeviceController
  shown : BitVec 8
  done : Bool

structure Sees (x : Ends Drd) (v : View) : Prop where
  role : x.left.sigRole.cur = .host
  answering : Answering x.right
  host : hostPart x.left.hostCtrl = v.host
  device : devicePart x.right.devCtrl = v.device
  shown : x.left.sigDevAddr.nxt = v.shown
  done : x.left.sigEnumDone.nxt = v.done

namespace View

def post (data : List Byte) (v : View) : View :=
  if data = [] then v else { v with host := { v.host with mRespData := data, mRespValid := true } }

def drain (v : View) : View := { v with host := { v.host with mRespData := [], mRespValid := false } }

def serve (r : Usb3SetupPkt) (v : View) : View :=
  if r.bRequest = usbReqSetAddress then
    { v with device := { v.device with mAssignedAddr := (r.wValue &&& 0x7F).setWidth 8 } }
  else if r.bRequest = usbReqSetConfiguration then
    { v with device := { v.device with mConfigured := true } }
  else v.post ((descriptorReply v.device r).getD [])

theorem post_done (data : List Byte) (v : View) : (v.post data).done = v.done := by
  unfold post
  split <;> rfl

theorem serve_done (r : Usb3SetupPkt) (v : View) : (v.serve r).done = v.done := by
  unfold serve
  split
  · rfl
  · split
    · rfl
    · exact post_done _ v

theorem post_zero (v : View) :
    v.post [0] = { v with host := { v.host with mRespData := [0], mRespValid := true } } := by
  rw [post,if_neg (by simp)]

/-- The status stage of a transfer leaves a zero in the mailbox, whatever it held. -/
theorem post_serve_descriptor (descType : BitVec 8) (v : View) :
    (v.serve (descriptorRequest descType 0)).post [0] = v.post [0] := by
  have hne : usbReqGetDescriptor ≠ usbReqSetAddress ∧
      usbReqGetDescriptor ≠ usbReqSetConfiguration := by decide
  have hget : (descriptorRequest descType 0).bRequest = usbReqGetDescriptor := rfl
  rw [serve,hget,if_neg hne.1,if_neg hne.2,post_zero,post_zero,post]
  split <;> rfl

theorem serve_address (a : BitVec 8) (v : View) : v.serve (addressRequest a) =
    { v with device := { v.device with mAssignedAddr := a &&& 0x7F } } := by
  have haddr : (addressRequest a).bRequest = usbReqSetAddress := rfl
  rw [serve,if_pos haddr,masked_address]

theorem serve_configuration (configVal : BitVec 8) (v : View) : v.serve (configurationRequest configVal) =
    { v with device := { v.device with mConfigured := true } } := by
  have hconf : (configurationRequest configVal).bRequest = usbReqSetConfiguration := rfl
  have hne : usbReqSetConfiguration ≠ usbReqSetAddress := by decide
  rw [serve,hconf,if_neg hne,if_pos rfl]

theorem serve_device (v : View) :
    v.serve (descriptorRequest usbDescDevice 0) = v.post (devDescToBytes v.device.mDevDesc) := by
  have hne : usbReqGetDescriptor ≠ usbReqSetAddress ∧
      usbReqGetDescriptor ≠ usbReqSetConfiguration := by decide
  have hget : (descriptorRequest usbDescDevice 0).bRequest = usbReqGetDescriptor := rfl
  have hreply : descriptorReply v.device (descriptorRequest usbDescDevice 0) =
      some (devDescToBytes v.device.mDevDesc) := rfl
  rw [serve,hget,if_neg hne.1,if_neg hne.2,hreply,Option.getD_some]

/-- What an enumeration makes of host and device up to the address. -/
def addressed (v : View) : View where
  host := { v.host with
    mNextAddr := v.host.mNextAddr+1, mRespData := [0], mRespValid := true
    mDev := { noteDevice (devDescToBytes v.device.mDevDesc) v.host.mDev with
      addr := v.host.mNextAddr } }
  device := { v.device with mAssignedAddr := v.host.mNextAddr &&& 0x7F }
  shown := v.host.mNextAddr
  done := v.done

def enumerated (v : View) : View where
  host := { v.addressed.host with
    mDev := { v.addressed.host.mDev with activeConfig := 1, enumerated := true } }
  device := { v.addressed.device with mConfigured := true }
  shown := v.host.mNextAddr
  done := false

end View

theorem descriptorReply_part (d : DeviceController) (r : Usb3SetupPkt) :
    descriptorReply (devicePart d) r = descriptorReply d r := rfl

theorem Sees.post {x : Ends Drd} {v : View} (h : Sees x v) (data : List Byte) :
    Sees (x.set .left (storeResponse data x.left)) (v.post data) := by
  have hhost := congrArg (fun h : HostController => { h with mRespData := data, mRespValid := true })
    h.host
  by_cases hdata : data = []
  · rw [storeResponse,if_pos hdata,View.post,if_pos hdata]
    exact h
  · rw [storeResponse,if_neg hdata,View.post,if_neg hdata]
    exact ⟨h.role,h.answering,hhost,h.device,h.shown,h.done⟩

def observer (drift : WaitPoint → Ends Drd → Ends Drd) : Observer (elapse drift)
    (fun _ x => [x.left.sigEnumDone.nxt]) (fun x => [x.left.sigEnumDone.nxt]) View where
  Sees := Sees
  post := View.post
  drain := View.drain
  serve := View.serve
  asked _ v := [v.done]
  level v := [v.done]
  role h := h.role
  answering h := h.answering
  elapsed w h := ⟨h.role,h.answering,h.host,h.device,h.shown,h.done⟩
  stamped i layer h := by
    cases i <;> exact ⟨h.role,h.answering,h.host,h.device,h.shown,h.done⟩
  posted data h := h.post data
  drained h := ⟨h.role,h.answering,
    congrArg (fun h : HostController => { h with mRespData := [], mRespValid := false }) h.host,
    h.device,h.shown,h.done⟩
  addressed {x v r} hr h := by
    have hdevice := congrArg (fun d : DeviceController =>
      { d with mAssignedAddr := (r.wValue &&& 0x7F).setWidth 8 }) h.device
    rw [View.serve,if_pos hr]
    exact ⟨h.role,h.answering,h.host,hdevice,h.shown,h.done⟩
  configured {x v r} hr h := by
    have hdevice := congrArg (fun d : DeviceController => { d with mConfigured := true }) h.device
    rw [View.serve,if_neg (by rw [hr]; decide),if_pos hr]
    exact ⟨h.role,h.answering,h.host,hdevice,h.shown,h.done⟩
  described {x v r data} hr hreply h := by
    have hview : (descriptorReply v.device r).getD [] = data := by
      rw [← h.device,descriptorReply_part,hreply,Option.getD_some]
    rw [View.serve,if_neg (by rw [hr]; decide),if_neg (by rw [hr]; decide),hview]
  calledSetup _ _ _ h := by rw [h.done]
  calledStatus _ _ _ h := by rw [h.done]
  waitedLevel h := by rw [h.done]
  level_post data v := by rw [View.post_done]
  level_drain _ := rfl
  level_serve r v := by rw [View.serve_done]
  post_drain v := by rw [View.post_zero,View.post_zero]; rfl

section Host
variable (drift : WaitPoint → Ends Drd → Ends Drd) (n : ℕ) {x : Ends Drd} {v : View}

theorem served (r : Usb3SetupPkt) (v : View) :
    (observer drift).post [0] ((observer drift).serve r v) = (v.serve r).post [0] := rfl

theorem Sees.note (h : Sees x v) (f : Usb3DeviceInfo → Usb3DeviceInfo) :
    Sees (x.set .left { x.left with hostCtrl := { x.left.hostCtrl with
        mDev := f x.left.hostCtrl.mDev } })
      { v with host := { v.host with mDev := f v.host.mDev } } :=
  ⟨h.role,h.answering,congrArg (fun h : HostController => { h with mDev := f h.mDev }) h.host,
    h.device,h.shown,h.done⟩

theorem deviceDescriptor_received (h : Sees x (v.serve (descriptorRequest usbDescDevice 0))) :
    (if (descriptorRequest usbDescDevice 0).wLength ≠ 0 ∧ x.left.hostCtrl.mRespValid = true then
      x.left.hostCtrl.mRespData else []) = devDescToBytes v.device.mDevDesc := by
  rw [View.serve_device,View.post,if_neg (by simp [devDescToBytes])] at h
  have hhost := h.host
  have hvalid : x.left.hostCtrl.mRespValid = true := congrArg HostController.mRespValid hhost
  have hdata : x.left.hostCtrl.mRespData = devDescToBytes v.device.mDevDesc :=
    congrArg HostController.mRespData hhost
  rw [if_pos ⟨by decide,hvalid⟩,hdata]

theorem noteConfig_replaced (buf : List Byte) (d : Usb3DeviceInfo) :
    ({ noteConfig buf d with activeConfig := 1, enumerated := true } : Usb3DeviceInfo) =
      { d with activeConfig := 1, enumerated := true } := by
  unfold noteConfig
  split <;> rfl

def course (v : View) : (observer drift).Course v where
  addr := v.host.mNextAddr
  taken := { v with host := { v.host with
    mRespData := [0], mRespValid := true, mNextAddr := v.host.mNextAddr+1
    mDev := noteDevice (devDescToBytes v.device.mDevDesc) v.host.mDev } }
  settled := v.addressed
  noted buf := { v.addressed with host := { v.addressed.host with
    mDev := noteConfig buf v.addressed.host.mDev } }
  raised := { v.enumerated with done := true }
  takes {x z buf} hz hbuf h := by
    have hbytes := hbuf.trans (deviceDescriptor_received hz)
    rw [served,View.post_serve_descriptor,View.post_zero] at h
    have hpart := h.host
    have hnext := congrArg HostController.mNextAddr hpart
    replace hnext : x.left.hostCtrl.mNextAddr = v.host.mNextAddr := hnext
    have hhost := congrArg (fun h : HostController =>
      { h with mDev := noteDevice buf h.mDev, mNextAddr := h.mNextAddr+1 }) hpart
    rw [hbytes] at hhost ⊢
    exact ⟨hnext,h.role,h.answering,hhost,h.device,h.shown,h.done⟩
  settles {x} h := by
    rw [served,View.serve_address,View.post_zero] at h
    have hnoted := h.note fun d => { d with addr := v.host.mNextAddr }
    exact ⟨hnoted.role,hnoted.answering,hnoted.host,hnoted.device,rfl,hnoted.done⟩
  notes {x} buf h := by
    rw [served,View.post_serve_descriptor,View.post_zero] at h
    exact h.note (noteConfig buf)
  raises {x buf} h := by
    rw [served,served,View.post_serve_descriptor,View.serve_configuration,View.post_zero,
      View.post_zero] at h
    have hset := h.note fun d => { d with activeConfig := 1, enumerated := true }
    have hdev := noteConfig_replaced buf v.addressed.host.mDev
    refine ⟨hset.role,hset.answering,hset.host.trans ?_,hset.device,hset.shown,rfl⟩
    simp only [hdev]
    rfl

theorem transferLog_eq (r : Usb3SetupPkt) (v : View) :
    (observer drift).transferLog r v = .replicate 4 v.done := rfl

/-- Five transfers of four suspensions and the settling of the address, then the pulse. -/
theorem course_log (v : View) (buf : List Byte) :
    (course drift v).log buf = .replicate 21 v.done ++ [true] := by
  have hdone : ∀ r u, ((observer drift).post [0] ((observer drift).serve r u)).done = u.done :=
    fun r u => (View.post_done _ _).trans (View.serve_done r u)
  simp only [Observer.Course.log,Observer.Course.configureLog,transferLog_eq,hdone]
  rfl

theorem enumerateDevice_spec {x : Bench} (h : Sees x.ends v) :
    ∃ w, enumerateDevice.interp (bench drift (n+2)) x = some ((),w) ∧
      Sees w.ends v.enumerated ∧ w.ends.left.sigDevAddr = .steady v.host.mNextAddr ∧
      w.log = x.log ++ .replicate 21 v.done ++ [true] := by
  obtain ⟨_,w,hw,z,buf,hz,hlog,hends⟩ := (course drift v).enumerateDevice_spec n h
  replace hz : Sees z { v.enumerated with done := true } := hz
  refine ⟨w,hw,?_,?_,?_⟩
  · rw [hends]
    exact ⟨hz.role,hz.answering,hz.host,hz.device,hz.shown,rfl⟩
  · rw [hends]
    show z.left.sigDevAddr.update = _
    rw [Sig.update,hz.shown,Sig.steady]
    rfl
  · rw [hlog,course_log,List.append_assoc]

end Host

section Bytes

theorem setWidth_and_mask (v : BitVec 16) : (v &&& 0xFF).setWidth 8 = v.setWidth 8 := by
  have hmask : (0xFF : BitVec 16).setWidth 8 = BitVec.allOnes 8 := rfl
  rw [BitVec.setWidth_and,hmask,BitVec.and_allOnes]

theorem le_bytes (v : BitVec 16) :
    (lowByte v).setWidth 16 ||| ((highByte v).setWidth 16 <<< 8) = v := by
  rw [lowByte,highByte,setWidth_and_mask,setWidth_and_mask]
  ext i hi
  simp only [BitVec.getElem_or,BitVec.getElem_setWidth,BitVec.getElem_shiftLeft]
  by_cases hlow : i < 8
  · simp [hlow]
    grind
  · simp [hlow]
    grind

/-- The offsets of the host are those of the packed structure. -/
theorem noteDevice_bytes (desc : UsbDeviceDescriptor) (d : Usb3DeviceInfo) :
    noteDevice (devDescToBytes desc) d = { d with
      vendorId := desc.idVendor, productId := desc.idProduct
      numConfigs := desc.bNumConfigurations } := by
  have hlen : 18 ≤ (devDescToBytes desc).length := le_refl 18
  have hvendor : le16 (devDescToBytes desc) 8 = desc.idVendor := le_bytes desc.idVendor
  have hproduct : le16 (devDescToBytes desc) 10 = desc.idProduct := le_bytes desc.idProduct
  rw [noteDevice,if_pos hlen,hvendor,hproduct]
  rfl

end Bytes

theorem pulses_once (k : ℕ) : pulses false (.replicate k false ++ [true,false]) = 1 := by
  induction k with
  | zero => rfl
  | succ k ih =>
    rw [List.replicate_succ,List.cons_append,pulses,ih]
    rfl

theorem Ready.sees {n : ℕ} {x : Ends Drd} (h : Ready n x) :
    Sees x ⟨hostPart x.left.hostCtrl,devicePart x.right.devCtrl,x.left.sigDevAddr.nxt,false⟩ :=
  ⟨h.role,h.device,rfl,rfl,rfl,h.line⟩

/-- An enumeration over the link always completes, and host and device agree on everything
it is for. -/
theorem enumeration_completes (drift : WaitPoint → Ends Drd → Ends Drd) (depth n : ℕ) (hn : n ≤ 127)
    (x : Ends Drd) (hx : Ready n x) :
    ∃ w, enumerateDevice.interp (bench drift (depth+2)) ⟨x,[]⟩ = some ((),w) ∧
      Enumerated n x w := by
  obtain ⟨w,hw,hend,hshown,hline⟩ := enumerateDevice_spec drift depth (x := ⟨x,[]⟩) hx.sees
  have hnext : (hostPart x.left.hostCtrl).mNextAddr = .ofNat 8 n := hx.next
  have hdev := congrArg HostController.mDev hend.host
  have hcounter := congrArg HostController.mNextAddr hend.host
  have hassigned := congrArg DeviceController.mAssignedAddr hend.device
  have hconfigured := congrArg DeviceController.mConfigured hend.device
  simp only [View.enumerated,View.addressed,noteDevice_bytes,hnext] at hdev hcounter hassigned hconfigured hshown
  have haddr : (BitVec.ofNat 8 n).toNat = n := by
    rw [BitVec.toNat_ofNat]
    omega
  have hinfo : w.ends.left.hostCtrl.mDev = _ := hdev
  have hlow : w.ends.left.sigEnumDone.nxt = false := hend.done
  refine ⟨w,hw,?_⟩
  constructor
  case addr => rw [hinfo,haddr]
  case devAddrOut => exact hshown
  case assigned =>
    have hassigned' : w.ends.right.devCtrl.mAssignedAddr = _ := hassigned
    rw [hassigned',Addressing.masked_toNat,haddr]
    omega
  case configured => exact hconfigured
  case next =>
    have hcounter' : w.ends.left.hostCtrl.mNextAddr = _ := hcounter
    have hone : (1 : BitVec 8).toNat = 1 := rfl
    rw [hcounter',BitVec.toNat_add,haddr,hone]
    omega
  case pulse =>
    rw [hline,hlow,List.nil_append,List.append_assoc]
    exact pulses_once 21
  case low => exact hlow
  case enumerated => rw [hinfo]
  case activeConfig => rw [hinfo]
  case vendorId => exact congrArg Usb3DeviceInfo.vendorId hinfo
  case productId => exact congrArg Usb3DeviceInfo.productId hinfo
  case numConfigs => exact congrArg Usb3DeviceInfo.numConfigs hinfo

/-- A host that has never enumerated, and a device that has an address already and was
configured by another host. -/
def strangers : Ends Drd where
  left := { sigRole := .steady .host }
  right :=
    { sigRole := .steady .device
      sigDevEnable := .steady true
      devCtrl := { mAssignedAddr := 77, mConfigured := true, mDevDesc := { idVendor := 0x1234 } } }

theorem enumeration_completes_strangers :
    ∃ w, enumerateDevice.interp (bench (fun _ x => x) 2) ⟨strangers,[]⟩ = some ((),w) ∧
      Enumerated 1 strangers w :=
  enumeration_completes (fun _ x => x) 0 1 (by decide) strangers ⟨rfl,⟨rfl,rfl⟩,rfl,rfl⟩

end Enumeration
end Usb3Drd
