import Usb3Drd.Inbound

/-! The requests on endpoint 0 as a state machine: what the device makes of a sequence of
SETUP packets, and what the chapter 9 transitions of USB make of it. -/
namespace Usb3Drd

open Coop DeviceController ProtocolLayer Exchange Inbound

namespace ControlRequests

abbrev View := BitVec 8 × Bool

def view (s : Drd) : View := (s.devCtrl.mAssignedAddr,s.devCtrl.mConfigured)

/-- The implemented standard requests. -/
inductive Standard
  | setAddress | setConfiguration | getDescriptor | getStatus
  deriving DecidableEq

/-- A request is one of them only with its own request type: host to device for the two that
set, device to host for the two that read, of which GET_STATUS has three recipients. -/
def standard (r : Usb3SetupPkt) : Option Standard :=
  if r.bRequest = usbReqSetAddress ∧ r.bmRequestType = 0x00 then some .setAddress
  else if r.bRequest = usbReqSetConfiguration ∧ r.bmRequestType = 0x00 then some .setConfiguration
  else if r.bRequest = usbReqGetDescriptor ∧ r.bmRequestType = 0x80 then some .getDescriptor
  else if r.bRequest = usbReqGetStatus ∧
      (r.bmRequestType = 0x80 ∨ r.bmRequestType = 0x81 ∨ r.bmRequestType = 0x82) then some .getStatus
  else none

def configurationValue : BitVec 8 := ({} : UsbConfigDescriptor).bConfigurationValue

/-- The chapter 9 transition of a request, or `none` if it is to be stalled. -/
def transition (r : Usb3SetupPkt) (v : View) : Option View :=
  match standard r with
  | some .setAddress => some ((r.wValue &&& 0x7F).setWidth 8,v.2)
  | some .setConfiguration =>
    if lowByte r.wValue = configurationValue then some (v.1,true)
    else if lowByte r.wValue = 0 then some (v.1,false)
    else none
  | some .getDescriptor => some v
  | some .getStatus => some v
  | none => none

structure SetupPacket where
  payload : Payload
  ext : Usb3PktExt
  hext : payload.ext = some ext
  hty : ext.pktType = .setup

def SetupPacket.request (p : SetupPacket) : Usb3SetupPkt := p.ext.setup

structure Bench where
  device : Drd
  sent : List Payload

/-- What everything else does while the device waits or has called out, and between
the packets. -/
structure Others where
  wait : WaitPoint → Drd → Drd
  call : Payload → Drd → TlmResponse × Drd
  pause : Drd → Drd

def keep (s s' : Drd) : Drd :=
  { s' with
    sigRole := s.sigRole
    sigDevEnable := s.sigDevEnable
    devCtrl := { s'.devCtrl with
      mAssignedAddr := s.devCtrl.mAssignedAddr, mConfigured := s.devCtrl.mConfigured } }

def bench (o : Others) : Handler Drd WaitPoint Payload TlmResponse Bench where
  state x := x.device
  store s x := { x with device := s }
  wait w x := some { x with device := keep x.device (o.wait w x.device) }
  call q x := some ((o.call q x.device).1,⟨keep x.device (o.call q x.device).2,x.sent ++ [q]⟩)

/-- What came of one packet. -/
structure Delivery where
  request : Usb3SetupPkt
  response : TlmResponse
  replies : List Payload
  after : View

def serve (o : Others) : List SetupPacket → Drd → Option (List Delivery)
  | [], _ => some []
  | p::ps, s =>
    match (DrdController.upstreamBTransport p.payload).interp (bench o) ⟨s,[]⟩ with
    | none => none
    | some (response,y) =>
      (serve o ps (keep y.device (o.pause y.device))).map fun ds =>
        ⟨p.request,response,y.sent,view y.device⟩::ds

def Delivery.Stalled (d : Delivery) : Prop :=
  d.response = .genericError ∧ ∃ q, d.replies = [q] ∧ q.pktType = some .tpStall ∧
    q.ext.map (·.endpoint) = some 0

/-- Every packet takes the state as the fold of the transitions says, and one that has none
is stalled and changes nothing. -/
def Follows : View → List Delivery → Prop
  | _, [] => True
  | v, d::ds =>
    d.after = (transition d.request v).getD v ∧ (transition d.request v = none → d.Stalled) ∧
      Follows ((transition d.request v).getD v) ds

/-- A request that the dispatch on `bRequest` alone serves as it should be: a standard one
comes with its own request type, or asks for a descriptor that does not exist, and the
only configuration that is set is the one that there is. -/
def Regular (r : Usb3SetupPkt) : Prop :=
  (r.bRequest = usbReqSetAddress → r.bmRequestType = 0x00) ∧
    (r.bRequest = usbReqSetConfiguration →
      r.bmRequestType = 0x00 ∧ lowByte r.wValue = configurationValue) ∧
    (r.bRequest = usbReqGetDescriptor → r.bmRequestType = 0x80 ∨
      (highByte r.wValue ≠ usbDescDevice ∧ highByte r.wValue ≠ usbDescConfiguration ∧
        highByte r.wValue ≠ usbDescBos ∧ highByte r.wValue ≠ usbDescString)) ∧
    (r.bRequest = usbReqGetStatus →
      r.bmRequestType = 0x80 ∨ r.bmRequestType = 0x81 ∨ r.bmRequestType = 0x82)

section Deliver
variable {o : Others} {s : Drd}

theorem bench_lawful : (bench o).Lawful := ⟨fun _ _ => rfl,fun _ => rfl⟩

/-- What the device does with a request, which is looked up by `bRequest` alone. -/
def served (r : Usb3SetupPkt) (v : View) : View :=
  if r.bRequest = usbReqSetAddress then ((r.wValue &&& 0x7F).setWidth 8,v.2)
  else if r.bRequest = usbReqSetConfiguration then (v.1,true)
  else v

/-- The requests that the device stalls. -/
def Unknown (r : Usb3SetupPkt) : Prop :=
  (r.bRequest = usbReqGetDescriptor ∧ highByte r.wValue ≠ usbDescDevice ∧
    highByte r.wValue ≠ usbDescConfiguration ∧ highByte r.wValue ≠ usbDescBos ∧
    highByte r.wValue ≠ usbDescString) ∨
  (r.bRequest ≠ usbReqGetDescriptor ∧ r.bRequest ≠ usbReqSetAddress ∧
    r.bRequest ≠ usbReqSetConfiguration ∧ r.bRequest ≠ usbReqGetStatus)

theorem descriptorReply_none (d : DeviceController) (r : Usb3SetupPkt) :
    descriptorReply d r = none ↔ highByte r.wValue ≠ usbDescDevice ∧
      highByte r.wValue ≠ usbDescConfiguration ∧ highByte r.wValue ≠ usbDescBos ∧
      highByte r.wValue ≠ usbDescString := by
  simp only [descriptorReply]
  repeat' split
  all_goals simp_all

def Outcome (r : Usb3SetupPkt) (s : Drd) (response : TlmResponse) (y : Bench) : Prop :=
  Answering y.device ∧ view y.device = served r (view s) ∧
    (Delivery.Stalled ⟨r,response,y.sent,view y.device⟩ ↔ Unknown r)

theorem requests_ne : usbReqGetDescriptor ≠ usbReqSetAddress ∧
    usbReqGetDescriptor ≠ usbReqSetConfiguration ∧ usbReqGetDescriptor ≠ usbReqGetStatus ∧
    usbReqSetConfiguration ≠ usbReqSetAddress ∧ usbReqGetStatus ≠ usbReqSetAddress ∧
    usbReqGetStatus ≠ usbReqSetConfiguration := by decide

theorem known_of_code {r : Usb3SetupPkt} (h : r.bRequest = usbReqSetAddress ∨
    r.bRequest = usbReqSetConfiguration ∨ r.bRequest = usbReqGetStatus) : ¬Unknown r := by
  obtain ⟨haddr,hconf,hstatus,-,-,-⟩ := requests_ne
  rintro (⟨hget,-⟩ | ⟨-,hnaddr,hnconf,hnstatus⟩)
  · rcases h with h | h | h
    · exact haddr (hget.symm.trans h)
    · exact hconf (hget.symm.trans h)
    · exact hstatus (hget.symm.trans h)
  · rcases h with h | h | h
    · exact hnaddr h
    · exact hnconf h
    · exact hnstatus h

theorem served_other {r : Usb3SetupPkt} (haddr : r.bRequest ≠ usbReqSetAddress)
    (hconf : r.bRequest ≠ usbReqSetConfiguration) (v : View) : served r v = v := by
  rw [served,if_neg haddr,if_neg hconf]

theorem view_absorb (p : SetupPacket) (s : Drd) :
    view (absorb p.payload s) = served p.request (view s) := by
  have hkind : kind p.payload =
      if p.request.bRequest = usbReqSetAddress then
        .address ((p.request.wValue &&& 0x7F).setWidth 8)
      else if p.request.bRequest = usbReqSetConfiguration then .configure else .other :=
    kind_setup p.hext p.hty
  rw [absorb,hkind,served]
  by_cases haddr : p.request.bRequest = usbReqSetAddress
  · rw [if_pos haddr,if_pos haddr]
    rfl
  · rw [if_neg haddr,if_neg haddr]
    by_cases hconf : p.request.bRequest = usbReqSetConfiguration
    · rw [if_pos hconf,if_pos hconf]
      rfl
    · rw [if_neg hconf,if_neg hconf]

theorem answer_setup (p : SetupPacket) (s : Drd) :
    answer p.payload s =
      if p.request.bRequest = usbReqGetDescriptor then
        (descriptorReply s.devCtrl p.request).elim (some (some .tpStall,.replicate 4 0))
          fun data => some (some .ctrlData,data)
      else if p.request.bRequest = usbReqSetAddress then none
      else if p.request.bRequest = usbReqSetConfiguration then none
      else if p.request.bRequest = usbReqGetStatus then some (some .ctrlData,.replicate 2 0)
      else some (some .tpStall,.replicate 4 0) :=
  answer_request p.hext p.hty s

theorem stalls_iff (p : SetupPacket) (s : Drd) :
    (answer p.payload s).map (·.1) = some (some .tpStall) ↔ Unknown p.request := by
  rw [answer_setup]
  by_cases hget : p.request.bRequest = usbReqGetDescriptor
  · rw [if_pos hget]
    cases hreply : descriptorReply s.devCtrl p.request with
    | none => exact iff_of_true rfl (.inl ⟨hget,(descriptorReply_none _ _).mp hreply⟩)
    | some data =>
      refine iff_of_false (by simp) fun hunknown => ?_
      obtain ⟨-,htype⟩ | ⟨hne,-⟩ := hunknown
      · rw [(descriptorReply_none s.devCtrl p.request).mpr htype] at hreply
        cases hreply
      · exact hne hget
  · rw [if_neg hget]
    by_cases haddr : p.request.bRequest = usbReqSetAddress
    · rw [if_pos haddr]
      exact iff_of_false (by simp) (known_of_code (.inl haddr))
    · rw [if_neg haddr]
      by_cases hconf : p.request.bRequest = usbReqSetConfiguration
      · rw [if_pos hconf]
        exact iff_of_false (by simp) (known_of_code (.inr (.inl hconf)))
      · rw [if_neg hconf]
        by_cases hstatus : p.request.bRequest = usbReqGetStatus
        · rw [if_pos hstatus]
          exact iff_of_false (by simp) (known_of_code (.inr (.inr hstatus)))
        · rw [if_neg hstatus]
          exact iff_of_true rfl (.inr ⟨hget,haddr,hconf,hstatus⟩)

theorem stalled_silent {p : SetupPacket} (hans : answer p.payload s = none) (response : TlmResponse)
    (v : View) : Delivery.Stalled ⟨p.request,response,[],v⟩ ↔ Unknown p.request := by
  rw [← stalls_iff p s,hans]
  refine iff_of_false ?_ (by simp)
  rintro ⟨-,q,hq,-⟩
  cases hq

/-- Every request ends as the dispatch says. -/
theorem deliver_interp (h : Answering s) (p : SetupPacket) :
    ∃ response y, (DrdController.upstreamBTransport p.payload).interp (bench o) ⟨s,[]⟩ =
      some (response,y) ∧ Outcome p.request s response y := by
  have hpkt := pktType_setup p.hext p.hty
  have hreact := upstream_reaction bench_lawful (h := bench o) (p := p.payload) (x := ⟨s,[]⟩)
    ⟨by simp [isForwarded,hpkt],h⟩
  have hview := view_absorb p s
  generalize (DrdController.upstreamBTransport p.payload).interp (bench o) ⟨s,[]⟩ = y at hreact ⊢
  cases hreact with
  | done hans hkind =>
    exact ⟨_,_,rfl,absorb_answering _ h,hview,stalled_silent hans _ _⟩
  | reply ty data n layer hans hkind =>
    refine ⟨_,_,rfl,absorb_answering p.payload h,hview,?_⟩
    let q := replyPacket p.payload s ty data n
    have hzero : q.ext.map (·.endpoint) = some 0 := by
      have hout : kind p.payload ≠ .bulkIn := by
        rw [Ne,kind_bulkIn_iff,hpkt]
        simp
      exact congrArg some (if_neg hout)
    have hq : answer p.payload s = some (q.pktType,q.data) := hans
    rw [← stalls_iff p s,hq,Option.map_some]
    constructor
    · rintro ⟨-,q',hsent,hty,-⟩
      obtain rfl : q = q' := List.head_eq_of_cons_eq hsent
      exact congrArg some hty
    · intro hty
      refine ⟨?_,q,rfl,Option.some.inj hty,hzero⟩
      show status p.payload s = .genericError
      rw [status,hpkt,hq,Option.map_some]
      exact if_pos hty
  | pause a hans hkind =>
    exact ⟨_,_,rfl,absorb_answering p.payload h,hview,stalled_silent hans _ _⟩

section Regular
variable {r : Usb3SetupPkt}

theorem standard_none (haddr : r.bRequest = usbReqSetAddress → r.bmRequestType ≠ 0x00)
    (hconf : r.bRequest = usbReqSetConfiguration → r.bmRequestType ≠ 0x00)
    (hget : r.bRequest = usbReqGetDescriptor → r.bmRequestType ≠ 0x80)
    (hstatus : r.bRequest = usbReqGetStatus →
      ¬(r.bmRequestType = 0x80 ∨ r.bmRequestType = 0x81 ∨ r.bmRequestType = 0x82)) :
    standard r = none := by
  rw [standard,if_neg fun hc => haddr hc.1 hc.2,if_neg fun hc => hconf hc.1 hc.2,
    if_neg fun hc => hget hc.1 hc.2,if_neg fun hc => hstatus hc.1 hc.2]

theorem regular_setAddress (h : r.bRequest = usbReqSetAddress) (v : View) :
    (served r v = (transition r v).getD v ∧ (transition r v = none → Unknown r)) ↔ Regular r := by
  obtain ⟨hget,-,-,hconf,hstatus,-⟩ := requests_ne
  have hknown := known_of_code (.inl h)
  have hregular : Regular r ↔ r.bmRequestType = 0x00 := by
    simp [Regular,h,hconf.symm,hget.symm,hstatus.symm]
  rw [hregular]
  by_cases hty : r.bmRequestType = 0x00
  · have hstep : transition r v = some ((r.wValue &&& 0x7F).setWidth 8,v.2) := by
      simp [transition,standard,h,hty]
    refine iff_of_true ⟨?_,fun hnone => ?_⟩ hty
    · rw [served,if_pos h,hstep,Option.getD_some]
    · rw [hstep] at hnone
      cases hnone
  · have hstd : standard r = none := standard_none (fun _ => hty)
      (fun hc => absurd (hc.symm.trans h) hconf) (fun hc => absurd (hc.symm.trans h) hget)
      fun hc => absurd (hc.symm.trans h) hstatus
    have hstep : transition r v = none := by rw [transition,hstd]
    exact iff_of_false (fun hc => hknown (hc.2 hstep)) hty

theorem regular_setConfiguration (h : r.bRequest = usbReqSetConfiguration) (v : View) :
    (served r v = (transition r v).getD v ∧ (transition r v = none → Unknown r)) ↔ Regular r := by
  obtain ⟨-,hget,-,haddr,-,hstatus⟩ := requests_ne
  have hknown := known_of_code (.inr (.inl h))
  have hserved : served r v = (v.1,true) := by
    rw [served,if_neg (h ▸ haddr),if_pos h]
  have hregular : Regular r ↔
      r.bmRequestType = 0x00 ∧ lowByte r.wValue = configurationValue := by
    simp [Regular,h,haddr,hget.symm,hstatus.symm]
  rw [hregular,hserved]
  by_cases hty : r.bmRequestType = 0x00
  · have hstep : transition r v = if lowByte r.wValue = configurationValue then some (v.1,true)
        else if lowByte r.wValue = 0 then some (v.1,false) else none := by
      simp [transition,standard,h,hty,haddr]
    rw [hstep]
    by_cases hone : lowByte r.wValue = configurationValue
    · rw [if_pos hone]
      exact iff_of_true ⟨rfl,fun hnone => by cases hnone⟩ ⟨hty,hone⟩
    · rw [if_neg hone]
      by_cases hzero : lowByte r.wValue = 0
      · rw [if_pos hzero]
        refine iff_of_false (fun hc => ?_) fun hc => hone hc.2
        cases congrArg Prod.snd hc.1
      · rw [if_neg hzero]
        exact iff_of_false (fun hc => hknown (hc.2 rfl)) fun hc => hone hc.2
  · have hstd : standard r = none := standard_none
      (fun hc => absurd (h.symm.trans hc) haddr) (fun _ => hty)
      (fun hc => absurd (hc.symm.trans h) hget) fun hc => absurd (hc.symm.trans h) hstatus
    have hstep : transition r v = none := by rw [transition,hstd]
    exact iff_of_false (fun hc => hknown (hc.2 hstep)) fun hc => hty hc.1

theorem transition_other (haddr : r.bRequest ≠ usbReqSetAddress)
    (hconf : r.bRequest ≠ usbReqSetConfiguration) (v : View) :
    transition r v = if (r.bRequest = usbReqGetDescriptor ∧ r.bmRequestType = 0x80) ∨
      (r.bRequest = usbReqGetStatus ∧ (r.bmRequestType = 0x80 ∨ r.bmRequestType = 0x81 ∨
        r.bmRequestType = 0x82)) then some v else none := by
  by_cases hget : r.bRequest = usbReqGetDescriptor ∧ r.bmRequestType = 0x80
  · have hstd : standard r = some .getDescriptor := by
      rw [standard,if_neg fun hc => haddr hc.1,if_neg fun hc => hconf hc.1,if_pos hget]
    rw [if_pos (.inl hget),transition,hstd]
  · by_cases hstatus : r.bRequest = usbReqGetStatus ∧ (r.bmRequestType = 0x80 ∨
        r.bmRequestType = 0x81 ∨ r.bmRequestType = 0x82)
    · have hstd : standard r = some .getStatus := by
        rw [standard,if_neg fun hc => haddr hc.1,if_neg fun hc => hconf hc.1,if_neg hget,
          if_pos hstatus]
      rw [if_pos (.inr hstatus),transition,hstd]
    · have hstd : standard r = none := by
        rw [standard,if_neg fun hc => haddr hc.1,if_neg fun hc => hconf hc.1,if_neg hget,
          if_neg hstatus]
      rw [if_neg (by tauto),transition,hstd]

theorem regular_other (haddr : r.bRequest ≠ usbReqSetAddress)
    (hconf : r.bRequest ≠ usbReqSetConfiguration) (v : View) :
    (served r v = (transition r v).getD v ∧ (transition r v = none → Unknown r)) ↔ Regular r := by
  obtain ⟨-,-,hget,-,-,-⟩ := requests_ne
  have hserved := served_other haddr hconf v
  have hboth : r.bRequest = usbReqGetDescriptor → r.bRequest ≠ usbReqGetStatus :=
    fun h hs => hget (h.symm.trans hs)
  rw [transition_other haddr hconf,hserved,Unknown,Regular]
  split
  · rw [Option.getD_some]
    grind
  · rw [Option.getD_none]
    grind

end Regular

/-- A request goes as the transitions say exactly if it is regular. -/
theorem regular_iff (r : Usb3SetupPkt) (v : View) :
    (served r v = (transition r v).getD v ∧ (transition r v = none → Unknown r)) ↔ Regular r := by
  by_cases haddr : r.bRequest = usbReqSetAddress
  · exact regular_setAddress haddr v
  · by_cases hconf : r.bRequest = usbReqSetConfiguration
    · exact regular_setConfiguration hconf v
    · exact regular_other haddr hconf v

end Deliver

/-- A device that answers serves every sequence of SETUP packets, and it follows the chapter 9
transitions exactly if every request of the sequence is regular. -/
theorem follows_iff (o : Others) (ps : List SetupPacket) (s : Drd) (h : Answering s) :
    ∃ ds, serve o ps s = some ds ∧ (Follows (view s) ds ↔ ∀ p ∈ ps, Regular p.request) := by
  induction ps generalizing s with
  | nil => exact ⟨[],rfl,iff_of_true trivial fun p hp => by cases hp⟩
  | cons p ps ih =>
    obtain ⟨response,y,hy,hanswering,hview,hstalled⟩ := deliver_interp (o := o) h p
    obtain ⟨ds,hds,hfollows⟩ := ih (keep y.device (o.pause y.device)) hanswering
    refine ⟨⟨p.request,response,y.sent,view y.device⟩::ds,?_,?_⟩
    · rw [serve,hy]
      simp only [hds,Option.map_some]
    · have hnext : view (keep y.device (o.pause y.device)) = view y.device := rfl
      rw [hnext] at hfollows
      rw [List.forall_mem_cons,← hfollows,← regular_iff p.request (view s),Follows,hstalled,hview]
      constructor
      · rintro ⟨hafter,hnone,hrest⟩
        have hserved : served p.request (view s) = (transition p.request (view s)).getD (view s) :=
          hafter
        exact ⟨⟨hserved,hnone⟩,hserved ▸ hrest⟩
      · rintro ⟨⟨hafter,hnone⟩,hrest⟩
        rw [hafter] at hrest
        exact ⟨hafter,hnone,hrest⟩

def setupPacket (r : Usb3SetupPkt) : SetupPacket :=
  ⟨{ ext := some { pktType := .setup, setup := r } },{ pktType := .setup, setup := r },rfl,rfl⟩

def fresh : Drd := { sigRole := .steady .device, sigDevEnable := .steady true }

def nobody : Others := ⟨fun _ s => s,fun _ s => (.ok,s),id⟩

def setup : List SetupPacket :=
  [setupPacket { bRequest := usbReqSetAddress, wValue := 5 },
    setupPacket { bRequest := usbReqSetConfiguration, wValue := 1 },
    setupPacket { bmRequestType := 0x80, bRequest := usbReqGetDescriptor, wValue := 0x0100 }]

theorem follows_setup :
    ∃ ds, serve nobody setup fresh = some ds ∧ Follows (0,false) ds := by
  obtain ⟨ds,hds,hiff⟩ := follows_iff nobody setup fresh ⟨rfl,rfl⟩
  refine ⟨ds,hds,hiff.mpr ?_⟩
  have hset : ∀ p ∈ setup, Regular p.request := by
    simp only [setup,List.forall_mem_cons]
    refine ⟨?_,?_,?_,fun p hp => by cases hp⟩ <;> unfold Regular <;> decide
  exact hset

/-- A SET_CONFIGURATION with value 0 configures the device. -/
theorem not_follows_deconfigure : ¬∀ (o : Others) (ps : List SetupPacket) (s : Drd),
    Answering s → view s = (0,false) → ∀ ds, serve o ps s = some ds → Follows (0,false) ds := by
  intro hall
  have hserve : serve nobody [setupPacket { bRequest := usbReqSetConfiguration }] fresh =
      some [⟨{ bRequest := usbReqSetConfiguration },.ok,[],(0,true)⟩] := rfl
  have hafter := (hall nobody _ fresh ⟨rfl,rfl⟩ rfl _ hserve).1
  exact absurd hafter (by decide)

end ControlRequests
end Usb3Drd
