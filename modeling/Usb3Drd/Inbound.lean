import Usb3Drd.Coop.Calls
import Usb3Drd.Exchange
import Usb3Drd.System

/-! What a packet does to the device controller: the evaluation that begins its call acts
on the state at once, and whatever is left of the call changes nothing. -/
namespace Usb3Drd
namespace Inbound

open Coop DeviceController ProtocolLayer Exchange

/-- What a packet asks an enabled device controller to change. -/
inductive Kind
  | out | bulkIn | address (a : BitVec 8) | configure | other
  deriving DecidableEq

def kind (p : Payload) : Kind :=
  match p.ext with
  | none => .other
  | some ext =>
    match ext.pktType with
    | .setup =>
      if ext.setup.bRequest = usbReqSetAddress then .address ((ext.setup.wValue &&& 0x7F).setWidth 8)
      else if ext.setup.bRequest = usbReqSetConfiguration then .configure
      else .other
    | .bulkOut => .out
    | .ctrlData => .out
    | .bulkIn => .bulkIn
    | _ => .other

/-- What an enabled device controller does to the state when a packet arrives. -/
def absorb (p : Payload) (s : Drd) : Drd :=
  match kind p with
  | .out => { s with devCtrl := { s.devCtrl with
      mEp2Out := s.devCtrl.mEp2Out.write p.data, mOutEpEvent := true } }
  | .bulkIn =>
    if s.devCtrl.mEp1In.hasData then { s with devCtrl := { s.devCtrl with mEp1In := .clear } }
    else s
  | .address a => { s with devCtrl := { s.devCtrl with mAssignedAddr := a } }
  | .configure => { s with
      devCtrl := { s.devCtrl with mConfigured := true }
      sigConfigured := s.sigConfigured.write true }
  | .other => s

/-- Type and data of a packet that is called out. -/
abbrev Said := Option (Option Usb3PktType × List Byte)

def saidAt : Loc WaitPoint Payload TlmResponse → Said
  | .calling q => some (q.pktType,q.data)
  | _ => none

def answer (p : Payload) (s : Drd) : Said :=
  match p.ext with
  | none => none
  | some ext =>
    match ext.pktType with
    | .setup =>
      if ext.setup.bRequest = usbReqGetDescriptor then
        match descriptorReply s.devCtrl ext.setup with
        | none => some (some .tpStall,.replicate 4 0)
        | some data => some (some .ctrlData,data)
      else if ext.setup.bRequest = usbReqSetAddress then none
      else if ext.setup.bRequest = usbReqSetConfiguration then none
      else if ext.setup.bRequest = usbReqGetStatus then some (some .ctrlData,.replicate 2 0)
      else some (some .tpStall,.replicate 4 0)
    | .ctrlStatus => some (some .ctrlStatus,[0])
    | .bulkIn =>
      if s.devCtrl.mEp1In.hasData then some (some .bulkIn,s.devCtrl.mEp1In.buffer) else none
    | _ => none

/-- The packet reaches the device controller, and that is enabled. -/
def Handled (p : Payload) (s : Drd) : Prop := isForwarded p = true ∧ Answering s

instance (p : Payload) (s : Drd) : Decidable (Handled p s) := inferInstanceAs (Decidable (_ ∧ _))

section Setup
variable {p : Payload} {ext : Usb3PktExt}

theorem kind_setup (hext : p.ext = some ext) (hty : ext.pktType = .setup) : kind p =
    if ext.setup.bRequest = usbReqSetAddress then .address ((ext.setup.wValue &&& 0x7F).setWidth 8)
    else if ext.setup.bRequest = usbReqSetConfiguration then .configure else .other := by
  simp only [kind,hext,hty]

theorem kind_getDescriptor (hext : p.ext = some ext) (hty : ext.pktType = .setup)
    (h : ext.setup.bRequest = usbReqGetDescriptor) : kind p = .other := by
  have hne : usbReqGetDescriptor ≠ usbReqSetAddress ∧
      usbReqGetDescriptor ≠ usbReqSetConfiguration := by decide
  rw [kind_setup hext hty,h,if_neg hne.1,if_neg hne.2]

theorem kind_setAddress (hext : p.ext = some ext) (hty : ext.pktType = .setup)
    (h : ext.setup.bRequest = usbReqSetAddress) :
    kind p = .address ((ext.setup.wValue &&& 0x7F).setWidth 8) := by
  rw [kind_setup hext hty,if_pos h]

theorem kind_setConfiguration (hext : p.ext = some ext) (hty : ext.pktType = .setup)
    (h : ext.setup.bRequest = usbReqSetConfiguration) : kind p = .configure := by
  have hne : usbReqSetConfiguration ≠ usbReqSetAddress := by decide
  rw [kind_setup hext hty,h,if_neg hne,if_pos rfl]

theorem kind_otherRequest (hext : p.ext = some ext) (hty : ext.pktType = .setup)
    (haddr : ext.setup.bRequest ≠ usbReqSetAddress)
    (hconf : ext.setup.bRequest ≠ usbReqSetConfiguration) : kind p = .other := by
  rw [kind_setup hext hty,if_neg haddr,if_neg hconf]

theorem answer_request (hext : p.ext = some ext) (hty : ext.pktType = .setup) (s : Drd) :
    answer p s =
      if ext.setup.bRequest = usbReqGetDescriptor then
        (descriptorReply s.devCtrl ext.setup).elim (some (some .tpStall,.replicate 4 0))
          fun data => some (some .ctrlData,data)
      else if ext.setup.bRequest = usbReqSetAddress then none
      else if ext.setup.bRequest = usbReqSetConfiguration then none
      else if ext.setup.bRequest = usbReqGetStatus then some (some .ctrlData,.replicate 2 0)
      else some (some .tpStall,.replicate 4 0) := by
  simp only [answer,hext,hty]
  cases descriptorReply s.devCtrl ext.setup <;> rfl

theorem answer_getDescriptor (hext : p.ext = some ext) (hty : ext.pktType = .setup)
    (h : ext.setup.bRequest = usbReqGetDescriptor) (s : Drd) : answer p s =
      (descriptorReply s.devCtrl ext.setup).elim (some (some .tpStall,.replicate 4 0))
        fun data => some (some .ctrlData,data) := by
  rw [answer_request hext hty,if_pos h]

theorem answer_setAddress (hext : p.ext = some ext) (hty : ext.pktType = .setup)
    (h : ext.setup.bRequest = usbReqSetAddress) (s : Drd) : answer p s = none := by
  have hne : usbReqSetAddress ≠ usbReqGetDescriptor := by decide
  rw [answer_request hext hty,h,if_neg hne,if_pos rfl]

theorem answer_setConfiguration (hext : p.ext = some ext) (hty : ext.pktType = .setup)
    (h : ext.setup.bRequest = usbReqSetConfiguration) (s : Drd) : answer p s = none := by
  have hne : usbReqSetConfiguration ≠ usbReqGetDescriptor ∧
      usbReqSetConfiguration ≠ usbReqSetAddress := by decide
  rw [answer_request hext hty,h,if_neg hne.1,if_neg hne.2,if_pos rfl]

end Setup

/-- What a packet does that does not reach an enabled device controller. -/
def passBy (p : Payload) (s : Drd) : Drd :=
  if isForwarded p = true ∧ s.sigRole.cur = .host then HostController.storeResponse p.data s else s

theorem passBy_frame (p : Payload) (s : Drd) : ∃ host, passBy p s = { s with hostCtrl := host } := by
  rw [passBy,HostController.storeResponse]
  split
  · split
    · exact ⟨_,rfl⟩
    · exact ⟨_,rfl⟩
  · exact ⟨_,rfl⟩

/-- One evaluation of the call that a packet opened. -/
def callGuar (p : Payload) : Origin WaitPoint Payload TlmResponse → Drd →
    Loc WaitPoint Payload TlmResponse → Drd → Prop
  | .start, s, l, s' =>
    if Handled p s then
      (∃ layer, s' = { absorb p s with protocol := layer }) ∧ saidAt l = answer p s
    else s' = passBy p s ∧ saidAt l = none
  | _, s, l, s' => s' = s ∧ saidAt l = none

def callHead (p : Payload) (l : Loop) (x : Trail Unit Drd WaitPoint Payload TlmResponse) : Prop :=
  (∃ r, l = .returned r) ∧ callGuar p x.origin x.start .idle x.state

abbrev callSpec (p : Payload) : Spec Unit Drd WaitPoint Payload TlmResponse Loop :=
  .evals (callGuar p) (callHead p)

section Call
variable {p : Payload} {s : Drd}

theorem callSpec_loops (p : Payload) : (callSpec p).Loops loopCode := by
  rintro l x ⟨⟨r,rfl⟩,h⟩
  exact ⟨h,trivial⟩

theorem ends_later {o : Origin WaitPoint Payload TlmResponse} (ho : o ≠ .start) (r : TlmResponse)
    (s : Drd) : callHead p (.returned r) ⟨(),o,s,s⟩ := by
  refine ⟨⟨r,rfl⟩,?_⟩
  cases o with
  | start => exact absurd rfl ho
  | woke w => exact ⟨rfl,rfl⟩
  | returned q r => exact ⟨rfl,rfl⟩

theorem stopsAt_start (h : Handled p s) {l : Loc WaitPoint Payload TlmResponse} {s' : Drd}
    (hs : ∃ layer, s' = { absorb p s with protocol := layer }) (hl : saidAt l = answer p s) :
    (callSpec p).stopsAt l ⟨(),.start,s,s'⟩ := by
  refine ⟨?_,trivial⟩
  show callGuar p .start s l s'
  rw [callGuar,if_pos h]
  exact ⟨hs,hl⟩

theorem ends_handled (h : Handled p s) (r : TlmResponse) {s' : Drd}
    (hs : ∃ layer, s' = { absorb p s with protocol := layer }) (ha : answer p s = none) :
    callHead p (.returned r) ⟨(),.start,s,s'⟩ := by
  refine ⟨⟨r,rfl⟩,?_⟩
  show callGuar p .start s .idle s'
  rw [callGuar,if_pos h]
  exact ⟨hs,ha.symm⟩

theorem ends_passed (h : ¬Handled p s) (r : TlmResponse) {s' : Drd} (hs : s' = passBy p s) :
    callHead p (.returned r) ⟨(),.start,s,s'⟩ := by
  refine ⟨⟨r,rfl⟩,?_⟩
  show callGuar p .start s .idle s'
  rw [callGuar,if_neg h]
  exact ⟨hs,rfl⟩

theorem reply_safe (h : Handled p s) {ty : Usb3PktType} {endpoint : BitVec 8} {data : List Byte}
    {epType : Usb3EpType} (r : TlmResponse) {s' : Drd} (hs : s' = absorb p s)
    (ha : answer p s = some (some ty,data)) :
    (do sendToProtocol ty endpoint .deviceToHost data epType; pure r).wp (callSpec p).setting
      (fun r => (pure (.returned r) : DrdProc Loop).wp (callSpec p).setting (callHead p))
      ⟨(),.start,s,s'⟩ := by
  rw [Proc.wp_bind]
  refine sendToProtocol_wp _ _ fun q layer hty hdata => ⟨stopsAt_start h ⟨layer,by rw [hs]⟩ ?_,?_⟩
  · rw [ha,saidAt,hty,hdata]
  · intro r' g s _
    exact ends_later (by simp) r s

theorem handleGetDescriptor_safe (h : Handled p s) {ext : Usb3PktExt} (hext : p.ext = some ext)
    (hty : ext.pktType = .setup) (hget : ext.setup.bRequest = usbReqGetDescriptor) :
    (handleGetDescriptor ext.setup).wp (callSpec p).setting
      (fun r => (pure (.returned r) : DrdProc Loop).wp (callSpec p).setting (callHead p))
      ⟨(),.start,s,s⟩ := by
  have hs : s = absorb p s := by rw [absorb,kind_getDescriptor hext hty hget]
  have ha := answer_getDescriptor hext hty hget s
  rw [handleGetDescriptor,Proc.wp_bind,Spec.wp_read]
  cases hreply : descriptorReply s.devCtrl ext.setup with
  | none => exact reply_safe h _ hs (by rw [ha,hreply]; rfl)
  | some data => exact reply_safe h _ hs (by rw [ha,hreply]; rfl)

theorem handleSetAddress_safe (h : Handled p s) {ext : Usb3PktExt} (hext : p.ext = some ext)
    (hty : ext.pktType = .setup) (haddr : ext.setup.bRequest = usbReqSetAddress) :
    (do handleSetAddress ext.setup; pure .ok : DrdProc TlmResponse).wp (callSpec p).setting
      (fun r => (pure (.returned r) : DrdProc Loop).wp (callSpec p).setting (callHead p))
      ⟨(),.start,s,s⟩ := by
  have ha := answer_setAddress hext hty haddr s
  simp only [handleSetAddress,Proc.wp_bind,Spec.wp_modify,Proc.wp_sleep,Spec.setting_onWait]
  refine ⟨stopsAt_start h ⟨s.protocol,?_⟩ ha.symm,fun g s _ => ends_later (by simp) _ s⟩
  rw [absorb,kind_setAddress hext hty haddr]

theorem handleSetup_safe (h : Handled p s) {ext : Usb3PktExt} (hext : p.ext = some ext)
    (hty : ext.pktType = .setup) :
    (handleSetup ext.setup).wp (callSpec p).setting
      (fun r => (pure (.returned r) : DrdProc Loop).wp (callSpec p).setting (callHead p))
      ⟨(),.start,s,s⟩ := by
  rw [handleSetup,Proc.wp_ite]
  refine ⟨handleGetDescriptor_safe h hext hty,fun hget => ?_⟩
  rw [Proc.wp_ite]
  refine ⟨handleSetAddress_safe h hext hty,fun haddr => ?_⟩
  rw [Proc.wp_ite]
  refine ⟨fun hconf => ?_,fun hconf => ?_⟩
  · have ha := answer_setConfiguration hext hty hconf s
    refine ends_handled h _ ⟨s.protocol,?_⟩ ha
    rw [absorb,kind_setConfiguration hext hty hconf]
    rfl
  · have hs : s = absorb p s := by rw [absorb,kind_otherRequest hext hty haddr hconf]
    have ha := answer_request hext hty s
    rw [if_neg hget,if_neg haddr,if_neg hconf] at ha
    rw [Proc.wp_ite]
    refine ⟨fun hstatus => ?_,fun hstatus => ?_⟩
    · exact reply_safe h _ hs (by rw [ha,if_pos hstatus])
    · exact reply_safe h _ hs (by rw [ha,if_neg hstatus])

theorem markStall_eq {ext : Usb3PktExt} (hext : p.ext = some ext) (hty : ext.pktType ≠ .tpStall) :
    markStall p = p := by
  rw [markStall,if_neg]
  rw [Payload.pktType,hext]
  exact fun h => hty (Option.some.inj h)

theorem reaction_safe (h : Handled p s) {ext : Usb3PktExt} (hext : p.ext = some ext) :
    (reaction p ext).wp (callSpec p).setting
      (fun r => (pure (.returned r) : DrdProc Loop).wp (callSpec p).setting (callHead p))
      ⟨(),.start,s,s⟩ := by
  have hland : kind p = .out → answer p s = none → (handleBulkOut p).wp (callSpec p).setting
      (fun r => (pure (.returned r) : DrdProc Loop).wp (callSpec p).setting (callHead p))
      ⟨(),.start,s,s⟩ := by
    intro hkind ha
    exact ends_handled h _ ⟨s.protocol,by rw [absorb,hkind]; rfl⟩ ha
  cases hty : ext.pktType with
  | setup =>
    simp only [reaction,hty]
    exact handleSetup_safe h hext hty
  | bulkOut =>
    simp only [reaction,hty]
    exact hland (by simp only [kind,hext,hty]) (by simp only [answer,hext,hty])
  | ctrlData =>
    simp only [reaction,hty]
    exact hland (by simp only [kind,hext,hty]) (by simp only [answer,hext,hty])
  | ctrlStatus =>
    simp only [reaction,hty]
    exact reply_safe h _ (by simp only [absorb,kind,hext,hty]) (by simp only [answer,hext,hty])
  | bulkIn =>
    have hkind : kind p = .bulkIn := by simp only [kind,hext,hty]
    simp only [reaction,hty,handleBulkIn]
    rw [Proc.wp_bind,Spec.wp_read,Proc.wp_ite]
    refine ⟨fun hfull => ?_,fun hempty => ?_⟩
    · rw [Proc.wp_bind,Spec.wp_modify]
      refine reply_safe h _ ?_ ?_
      · simp only [absorb,hkind]
        rw [if_pos hfull]
      · simp only [answer,hext,hty]
        rw [if_pos hfull]
    · refine ends_handled h _ ⟨s.protocol,?_⟩ ?_
      · simp only [absorb,hkind]
        rw [if_neg hempty]
      · simp only [answer,hext,hty]
        rw [if_neg hempty]
  | _ =>
    simp only [reaction,hty]
    exact ends_handled h _ ⟨s.protocol,by simp only [absorb,kind,hext,hty]⟩
      (by simp only [answer,hext,hty])

theorem absorb_bare (hext : p.ext = none) (s : Drd) : absorb p s = s := by
  simp only [absorb,kind,hext]

theorem answer_bare (hext : p.ext = none) (s : Drd) : answer p s = none := by simp only [answer,hext]

theorem fromProto_safe (hf : isForwarded p = true) (hrole : s.sigRole.cur = .device) :
    (fromProtoBTransport (markStall p)).wp (callSpec p).setting
      (fun r => (pure (.returned r) : DrdProc Loop).wp (callSpec p).setting (callHead p))
      ⟨(),.start,s,s⟩ := by
  have hpass : passBy p s = s := by rw [passBy,if_neg (by simp [hrole])]
  rw [fromProto_wp_iff]
  split
  · rename_i hon
    have h : Handled p s := ⟨hf,hrole,hon⟩
    cases hext : p.ext with
    | none =>
      rw [markStall_bare (by rw [Payload.pktType,hext]; rfl)]
      exact ends_handled h _ ⟨s.protocol,by rw [absorb_bare hext]⟩ (answer_bare hext s)
    | some ext =>
      by_cases hstall : ext.pktType = .tpStall
      · have hmark : (markStall p).ext = some { ext with code := .stallErr } := by
          rw [markStall,if_pos (by rw [Payload.pktType,hext,Option.map_some,hstall]),hext]
          rfl
        simp only [hmark,reaction,hstall]
        exact ends_handled h _ ⟨s.protocol,by simp only [absorb,kind,hext,hstall]⟩
          (by simp only [answer,hext,hstall])
      · rw [markStall_eq hext hstall,hext]
        exact reaction_safe h hext
  · rename_i hoff
    exact ends_passed (fun h => hoff h.2.2) _ hpass.symm

/-- The call of a packet, from its first evaluation on. -/
theorem inboundCall_safe (p : Payload) (s : Drd) :
    (callSpec p).Safe (inboundCall p) ⟨(),.start,s,s⟩ := by
  rw [Spec.Safe,inboundCall,Proc.wp_bind,DrdController.upstream_wp_iff]
  split
  · rename_i hf
    cases hrole : s.sigRole.cur with
    | device => exact fromProto_safe hf hrole
    | host =>
      refine ends_passed (fun h => ?_) _ (by rw [passBy,if_pos ⟨hf,hrole⟩])
      exact absurd (hrole.symm.trans h.2.1) (by simp)
    | none =>
      refine ends_passed (fun h => ?_) _ (by rw [passBy,if_neg (by simp [hrole])])
      exact absurd (hrole.symm.trans h.2.1) (by simp)
  · rename_i hf
    exact ends_passed (fun h => hf h.1) _ (by rw [passBy,if_neg fun h => hf h.1])

/-- A thread for inbound packets serves the call of each, whatever else is recorded. -/
theorem inbound_server {A γ : Type} {n : ℕ} {act : A → Drd → Option Drd} {present : Process → Bool}
    {w : Watch γ Drd WaitPoint Payload TlmResponse Loop A Payload (Tid n)}
    {arrived : γ → Tid n → Option Payload} (hw : Records w arrived) (i : Fin n) :
    Server (kernelOf n act) (bootWith n present) w arrived (.inr i) callGuar callHead where
  records := hw
  idle := rfl
  loops := callSpec_loops
  begins p body hbody s := by
    cases hbody
    exact inboundCall_safe p s

end Call

section Absorb
variable (p : Payload) (s : Drd)

theorem absorb_mEp2Out : (absorb p s).devCtrl.mEp2Out =
    if kind p = .out then s.devCtrl.mEp2Out.write p.data else s.devCtrl.mEp2Out := by
  cases hkind : kind p with
  | bulkIn =>
    simp only [absorb,hkind]
    split <;> rfl
  | _ => simp [absorb,hkind]

theorem absorb_mEp1In : (absorb p s).devCtrl.mEp1In =
    if kind p = .bulkIn ∧ s.devCtrl.mEp1In.hasData = true then .clear else s.devCtrl.mEp1In := by
  cases hkind : kind p with
  | bulkIn =>
    by_cases hfull : s.devCtrl.mEp1In.hasData = true
    · simp [absorb,hkind,hfull]
    · simp [absorb,hkind,hfull]
  | _ => simp [absorb,hkind]

theorem absorb_mOutEpEvent : (absorb p s).devCtrl.mOutEpEvent =
    (s.devCtrl.mOutEpEvent || decide (kind p = .out)) := by
  cases hkind : kind p with
  | bulkIn =>
    simp only [absorb,hkind]
    split <;> simp
  | _ => simp [absorb,hkind]

theorem absorb_mConfigured : (absorb p s).devCtrl.mConfigured =
    (s.devCtrl.mConfigured || decide (kind p = .configure)) := by
  cases hkind : kind p with
  | bulkIn =>
    simp only [absorb,hkind]
    split <;> simp
  | _ => simp [absorb,hkind]

theorem absorb_sigConfigured : (absorb p s).sigConfigured =
    if kind p = .configure then s.sigConfigured.write true else s.sigConfigured := by
  cases hkind : kind p with
  | bulkIn =>
    simp only [absorb,hkind]
    split <;> rfl
  | _ => simp [absorb,hkind]

theorem absorb_frame : ∃ d conf, absorb p s = { s with devCtrl := d, sigConfigured := conf } := by
  cases hkind : kind p with
  | bulkIn =>
    by_cases hfull : s.devCtrl.mEp1In.hasData = true
    · exact ⟨_,_,by rw [absorb,hkind]; exact if_pos hfull⟩
    · exact ⟨_,_,by rw [absorb,hkind]; exact if_neg hfull⟩
  | _ => exact ⟨_,_,by rw [absorb,hkind]⟩

theorem absorb_sigRole : (absorb p s).sigRole = s.sigRole := by
  obtain ⟨d,conf,h⟩ := absorb_frame p s
  rw [h]

theorem absorb_sigDevEnable : (absorb p s).sigDevEnable = s.sigDevEnable := by
  obtain ⟨d,conf,h⟩ := absorb_frame p s
  rw [h]

theorem absorb_hostCtrl : (absorb p s).hostCtrl = s.hostCtrl := by
  obtain ⟨d,conf,h⟩ := absorb_frame p s
  rw [h]

variable {s} in
theorem absorb_answering (h : Answering s) : Answering (absorb p s) :=
  ⟨by rw [absorb_sigRole,h.1],by rw [absorb_sigDevEnable,h.2]⟩

end Absorb

section Interp

def status (p : Payload) (s : Drd) : TlmResponse :=
  match p.pktType with
  | some .setup => if (answer p s).map (·.1) = some (some .tpStall) then .genericError else .ok
  | some .bulkOut => .ok
  | some .ctrlData => .ok
  | some .ctrlStatus => .ok
  | some .bulkIn => .ok
  | _ => .genericError

variable {X : Type} (h : Handler Drd WaitPoint Payload TlmResponse X) (p : Payload) (x : X)

def replyPacket (p : Payload) (s : Drd) (ty : Usb3PktType) (data : List Byte) (n : BitVec 32) :
    Payload :=
  protocolPacket s.devCtrl.mAssignedAddr ty (if kind p = .bulkIn then 1 else 0) .deviceToHost data
    (if kind p = .bulkIn then .bulk else .control) n

/-- How the code of a packet runs at an enabled device controller: it acts, and then it is done,
or sends one reply, or pauses once. -/
inductive Reaction : Option (TlmResponse × X) → Prop
  | done : answer p (h.state x) = none → (∀ a, kind p ≠ .address a) →
      Reaction (some (status p (h.state x),h.store (absorb p (h.state x)) x))
  | reply (ty : Usb3PktType) (data : List Byte) (n : BitVec 32) (layer : ProtocolLayer) :
      answer p (h.state x) = some (some ty,data) → (∀ a, kind p ≠ .address a) →
      (usesSequence ty = false → n = 0) →
      Reaction ((h.call (replyPacket p (h.state x) ty data n)
        (h.store { absorb p (h.state x) with protocol := layer }
          (h.store (absorb p (h.state x)) x))).map fun y => (status p (h.state x),y.2))
  | pause (a : BitVec 8) : answer p (h.state x) = none → kind p = .address a →
      Reaction ((h.wait .setAddressSettle (h.store (absorb p (h.state x)) x)).map
        fun y => (status p (h.state x),y))

variable {h p x}

theorem absorb_of_other {s : Drd} (hkind : kind p = .other) : absorb p s = s := by rw [absorb,hkind]

theorem interp_then_pure (proc : DrdProc Unit) (r : TlmResponse) {o : Option (TlmResponse × X)}
    {y : X} (hproc : proc.interp h y = o.map fun z => ((),z.2)) :
    (do proc; pure r : DrdProc TlmResponse).interp h y = o.map fun z => (r,z.2) := by
  rw [Proc.interp_bind,hproc,Option.map_eq_bind,Option.map_eq_bind,Option.bind_assoc]
  rfl

theorem reply_reaction (hl : h.Lawful) {ty : Usb3PktType} {data : List Byte} {r : TlmResponse}
    (hr : status p (h.state x) = r) (hkind : kind p = .other)
    (ha : answer p (h.state x) = some (some ty,data)) :
    Reaction h p x ((do sendToProtocol ty 0 .deviceToHost data; pure r :
      DrdProc TlmResponse).interp h x) := by
  obtain ⟨n,layer,hseq,hsend⟩ := sendToProtocol_stamped hl ty 0 .deviceToHost data .control x
  have hreply := Reaction.reply (h := h) (p := p) (x := x) ty data n layer ha (by simp [hkind]) hseq
  rw [absorb_of_other hkind,hl.store_state,hr,replyPacket,hkind] at hreply
  rw [interp_then_pure _ r hsend]
  exact hreply

theorem ignore_reaction (hl : h.Lawful) {r : TlmResponse} (hr : status p (h.state x) = r)
    (hkind : kind p = .other) (ha : answer p (h.state x) = none) :
    Reaction h p x (some (r,x)) := by
  have hdone := Reaction.done (h := h) (p := p) (x := x) ha (by simp [hkind])
  rwa [absorb_of_other hkind,hl.store_state,hr] at hdone

theorem status_setup {s : Drd} (hpkt : p.pktType = some .setup) : status p s =
    if (answer p s).map (·.1) = some (some .tpStall) then .genericError else .ok := by
  simp only [status,hpkt]

theorem status_of_silence {s : Drd} (hpkt : p.pktType = some .setup) (ha : answer p s = none) :
    status p s = .ok := by
  rw [status_setup hpkt,ha]
  rfl

theorem status_of_stall {s : Drd} {data : List Byte} (hpkt : p.pktType = some .setup)
    (ha : answer p s = some (some .tpStall,data)) : status p s = .genericError := by
  rw [status_setup hpkt,ha]
  rfl

theorem status_of_data {s : Drd} {data : List Byte} (hpkt : p.pktType = some .setup)
    (ha : answer p s = some (some .ctrlData,data)) : status p s = .ok := by
  rw [status_setup hpkt,ha]
  rfl

section Requests
variable {ext : Usb3PktExt}

theorem pktType_setup (hext : p.ext = some ext) (hty : ext.pktType = .setup) :
    p.pktType = some .setup := by
  rw [Payload.pktType,hext,Option.map_some,hty]

theorem handleGetDescriptor_reaction (hl : h.Lawful) (hext : p.ext = some ext)
    (hty : ext.pktType = .setup) (hget : ext.setup.bRequest = usbReqGetDescriptor) :
    Reaction h p x ((handleGetDescriptor ext.setup).interp h x) := by
  have hkind := kind_getDescriptor hext hty hget
  have ha := answer_getDescriptor hext hty hget (h.state x)
  rw [handleGetDescriptor,Proc.interp_bind,Proc.interp_read,Option.bind_some]
  cases hreply : descriptorReply (h.state x).devCtrl ext.setup with
  | none =>
    rw [hreply] at ha
    exact reply_reaction hl (status_of_stall (pktType_setup hext hty) ha) hkind ha
  | some data =>
    rw [hreply] at ha
    exact reply_reaction hl (status_of_data (pktType_setup hext hty) ha) hkind ha

theorem handleSetAddress_reaction (hext : p.ext = some ext) (hty : ext.pktType = .setup)
    (haddr : ext.setup.bRequest = usbReqSetAddress) : Reaction h p x
      ((do handleSetAddress ext.setup; pure .ok : DrdProc TlmResponse).interp h x) := by
  have hkind := kind_setAddress hext hty haddr
  have ha := answer_setAddress hext hty haddr (h.state x)
  have hpause := Reaction.pause (h := h) (p := p) (x := x) _ ha hkind
  rw [absorb,hkind,status_of_silence (pktType_setup hext hty) ha,Option.map_eq_bind] at hpause
  simp only [handleSetAddress,Proc.interp_bind,Proc.interp_modify,Option.bind_some,
    Proc.interp_sleep,Proc.interp_pure,Option.map_eq_bind,Option.bind_assoc]
  exact hpause

theorem handleSetConfiguration_reaction (hext : p.ext = some ext) (hty : ext.pktType = .setup)
    (hconf : ext.setup.bRequest = usbReqSetConfiguration) : Reaction h p x
      ((do handleSetConfiguration ext.setup; pure .ok : DrdProc TlmResponse).interp h x) := by
  have hkind := kind_setConfiguration hext hty hconf
  have ha := answer_setConfiguration hext hty hconf (h.state x)
  have hdone := Reaction.done (h := h) (p := p) (x := x) ha (by simp [hkind])
  rw [absorb,hkind,status_of_silence (pktType_setup hext hty) ha] at hdone
  exact hdone

theorem handleSetup_reaction (hl : h.Lawful) (hext : p.ext = some ext)
    (hty : ext.pktType = .setup) : Reaction h p x ((handleSetup ext.setup).interp h x) := by
  have hpkt := pktType_setup hext hty
  have ha := answer_request hext hty (h.state x)
  rw [handleSetup,Proc.interp_ite]
  by_cases hget : ext.setup.bRequest = usbReqGetDescriptor
  · rw [if_pos hget]
    exact handleGetDescriptor_reaction hl hext hty hget
  · rw [if_neg hget,Proc.interp_ite]
    by_cases haddr : ext.setup.bRequest = usbReqSetAddress
    · rw [if_pos haddr]
      exact handleSetAddress_reaction hext hty haddr
    · rw [if_neg haddr,Proc.interp_ite]
      by_cases hconf : ext.setup.bRequest = usbReqSetConfiguration
      · rw [if_pos hconf]
        exact handleSetConfiguration_reaction hext hty hconf
      · have hkind := kind_otherRequest hext hty haddr hconf
        rw [if_neg hget,if_neg haddr,if_neg hconf] at ha
        rw [if_neg hconf,Proc.interp_ite]
        by_cases hstatus : ext.setup.bRequest = usbReqGetStatus
        · rw [if_pos hstatus] at ha ⊢
          exact reply_reaction hl (status_of_data hpkt ha) hkind ha
        · rw [if_neg hstatus] at ha ⊢
          exact reply_reaction hl (status_of_stall hpkt ha) hkind ha

end Requests

theorem handleBulkIn_reaction (hl : h.Lawful) {ext : Usb3PktExt} (hext : p.ext = some ext)
    (hty : ext.pktType = .bulkIn) : Reaction h p x (handleBulkIn.interp h x) := by
  have hkind : kind p = .bulkIn := by simp only [kind,hext,hty]
  have hstatus : status p (h.state x) = .ok := by
    simp only [status,Payload.pktType,hext,hty,Option.map_some]
  rw [handleBulkIn,Proc.interp_bind,Proc.interp_read,Option.bind_some,Proc.interp_ite]
  by_cases hfull : (h.state x).devCtrl.mEp1In.hasData = true
  · have habsorb : absorb p (h.state x) =
        { h.state x with devCtrl := { (h.state x).devCtrl with mEp1In := .clear } } := by
      rw [absorb,hkind]
      exact if_pos hfull
    have ha : answer p (h.state x) = some (some .bulkIn,(h.state x).devCtrl.mEp1In.buffer) := by
      simp only [answer,hext,hty]
      rw [if_pos hfull]
    obtain ⟨n,layer,hseq,hsend⟩ := sendToProtocol_stamped hl .bulkIn 1 .deviceToHost
      (h.state x).devCtrl.mEp1In.buffer .bulk (h.store (absorb p (h.state x)) x)
    have hreply := Reaction.reply (h := h) (p := p) (x := x) .bulkIn _ n layer ha (by simp [hkind])
      hseq
    have haddr : (absorb p (h.state x)).devCtrl.mAssignedAddr =
        (h.state x).devCtrl.mAssignedAddr := by rw [habsorb]
    rw [if_pos hfull,Proc.interp_bind,Proc.interp_modify,Option.bind_some,← habsorb]
    rw [hl.state_store,haddr] at hsend
    rw [sendBulkIn,interp_then_pure _ .ok hsend]
    rw [hstatus,replyPacket,hkind] at hreply
    exact hreply
  · have hsame : absorb p (h.state x) = h.state x := by
      rw [absorb,hkind]
      exact if_neg hfull
    have ha : answer p (h.state x) = none := by
      simp only [answer,hext,hty]
      rw [if_neg hfull]
    have hdone := Reaction.done (h := h) (p := p) (x := x) ha (by simp [hkind])
    rw [hsame,hl.store_state,hstatus] at hdone
    rw [if_neg hfull]
    exact hdone

theorem reaction_reaction (hl : h.Lawful) {ext : Usb3PktExt} (hext : p.ext = some ext) :
    Reaction h p x ((reaction p ext).interp h x) := by
  have hland : kind p = .out → answer p (h.state x) = none → status p (h.state x) = .ok →
      Reaction h p x ((handleBulkOut p).interp h x) := by
    intro hkind ha hstatus
    have hdone := Reaction.done (h := h) (p := p) (x := x) ha (by simp [hkind])
    rw [absorb,hkind,hstatus] at hdone
    exact hdone
  cases hty : ext.pktType with
  | setup =>
    simp only [reaction,hty]
    exact handleSetup_reaction hl hext hty
  | bulkOut =>
    simp only [reaction,hty]
    exact hland (by simp only [kind,hext,hty]) (by simp only [answer,hext,hty])
      (by simp only [status,Payload.pktType,hext,hty,Option.map_some])
  | ctrlData =>
    simp only [reaction,hty]
    exact hland (by simp only [kind,hext,hty]) (by simp only [answer,hext,hty])
      (by simp only [status,Payload.pktType,hext,hty,Option.map_some])
  | ctrlStatus =>
    simp only [reaction,hty]
    exact reply_reaction hl (by simp only [status,Payload.pktType,hext,hty,Option.map_some])
      (by simp only [kind,hext,hty]) (by simp only [answer,hext,hty])
  | bulkIn =>
    simp only [reaction,hty]
    exact handleBulkIn_reaction hl hext hty
  | _ =>
    simp only [reaction,hty]
    exact ignore_reaction hl (by simp only [status,Payload.pktType,hext,hty,Option.map_some])
      (by simp only [kind,hext,hty]) (by simp only [answer,hext,hty])

/-- The code of every packet that an enabled device controller handles. -/
theorem upstream_reaction (hl : h.Lawful) (hh : Handled p (h.state x)) :
    Reaction h p x ((DrdController.upstreamBTransport p).interp h x) := by
  obtain ⟨hf,hrole,henable⟩ := hh
  rw [DrdController.upstream_interp,if_pos hf,hrole]
  show Reaction h p x ((fromProtoBTransport (markStall p)).interp h x)
  cases hext : p.ext with
  | none =>
    rw [fromProto_bare (markStall_bare (by rw [Payload.pktType,hext]; rfl))]
    exact ignore_reaction hl (by simp only [status,Payload.pktType,hext,Option.map_none])
      (by simp only [kind,hext]) (answer_bare hext _)
  | some ext =>
    by_cases hstall : ext.pktType = .tpStall
    · have hmark : (markStall p).ext = some { ext with code := .stallErr } := by
        rw [markStall,if_pos (by rw [Payload.pktType,hext,Option.map_some,hstall]),hext]
        rfl
      rw [fromProto_enabled henable hmark]
      simp only [reaction,hstall]
      exact ignore_reaction hl (by simp only [status,Payload.pktType,hext,hstall,Option.map_some])
        (by simp only [kind,hext,hstall]) (by simp only [answer,hext,hstall])
    · rw [markStall_eq hext hstall,fromProto_enabled henable hext]
      exact reaction_reaction hl hext

theorem upstream_unhandled (hl : h.Lawful) (hh : ¬Handled p (h.state x)) :
    ∃ r, (DrdController.upstreamBTransport p).interp h x =
      some (r,h.store (passBy p (h.state x)) x) := by
  rw [DrdController.upstream_interp]
  by_cases hf : isForwarded p = true
  · rw [if_pos hf]
    cases hrole : (h.state x).sigRole.cur with
    | host => exact ⟨_,by rw [passBy,if_pos ⟨hf,hrole⟩]⟩
    | device =>
      have henable : (h.state x).sigDevEnable.cur = false := by
        cases he : (h.state x).sigDevEnable.cur with
        | false => rfl
        | true => exact absurd ⟨hf,hrole,he⟩ hh
      refine ⟨.genericError,?_⟩
      rw [passBy,if_neg (by simp [hrole]),hl.store_state]
      exact fromProto_disabled henable _
    | none => exact ⟨_,by rw [passBy,if_neg (by simp [hrole]),hl.store_state]⟩
  · exact ⟨_,by rw [if_neg hf,passBy,if_neg fun hc => hf hc.1,hl.store_state]⟩

end Interp

theorem kind_numbered (p : Payload) (n : BitVec 32) : kind (p.numbered n) = kind p := by
  cases hext : p.ext with
  | none => simp [kind,Payload.numbered,hext]
  | some ext => simp [kind,Payload.numbered,hext]

theorem kind_out_iff (p : Payload) :
    kind p = .out ↔ p.pktType = some .bulkOut ∨ p.pktType = some .ctrlData := by
  cases hext : p.ext with
  | none => simp [kind,Payload.pktType,hext]
  | some ext =>
    cases hty : ext.pktType with
    | setup =>
      simp only [kind,Payload.pktType,hext,hty]
      split
      · simp [hty]
      · split <;> simp [hty]
    | _ => simp [kind,Payload.pktType,hext,hty]

theorem kind_bulkIn_iff (p : Payload) : kind p = .bulkIn ↔ p.pktType = some .bulkIn := by
  cases hext : p.ext with
  | none => simp [kind,Payload.pktType,hext]
  | some ext =>
    cases hty : ext.pktType with
    | setup =>
      simp only [kind,Payload.pktType,hext,hty]
      split
      · simp [hty]
      · split <;> simp [hty]
    | _ => simp [kind,Payload.pktType,hext,hty]

end Inbound
end Usb3Drd
