import Usb3Drd.PeerBench

/-! Enumerations of the peer of the test bench. None of them fails, and when one is over the host
and the peer agree: on the address, as far as the peer keeps it, on the configuration, and on what
the device descriptor tells, if it came while the controller had the host role. -/
namespace Usb3Drd
namespace PeerSession

open Coop HostController HostMachine Inbound DeviceLog PeerDevice PeerBench

/-- When the session of the host began, and whether the device descriptor reached the host. -/
structure SessionLog where
  start : Option ℕ := none
  told : Bool := false
  deriving DecidableEq

def asksDevice : Loc WaitPoint Payload TlmResponse → Bool
  | .calling q => decide (setupRequest q = some (descriptorRequest usbDescDevice 0))
  | _ => false

def sessionLog : BenchWatch SessionLog where
  init := {}
  next g c l c' :=
    match l with
    | .eval t =>
      if t = hostThread then
        if asksDevice (c'.loc hostThread) then { start := some c'.now, told := false } else g
      else if t = callThread ∧ asksDevice (c.loc hostThread) = true then
        { g with told := g.told || decide (c.state.sigRole.cur = .host) }
      else g
    | _ => g

def identity (d : Usb3DeviceInfo) : BitVec 16 × BitVec 16 × BitVec 8 :=
  (d.vendorId,d.productId,d.numConfigs)

def peerIdentity : BitVec 16 × BitVec 16 × BitVec 8 := (0xAB12,0xCD34,1)

def SessionLog.identity (L : SessionLog) : BitVec 16 × BitVec 16 × BitVec 8 :=
  if L.told then peerIdentity else (0,0,0)

/-- The peer as the requests of an enumeration change it. -/
abbrev View := BitVec 8 × Bool

def view (p : PeerDevice) : View := (p.mAssignedAddr,p.mConfigured)

def tells (v : View) : Phase → View
  | .setup (.address a) _ _ => (a &&& 0x7F,v.2)
  | .setup .configure _ _ => (v.1,true)
  | _ => v

def opens (now : ℕ) (L : SessionLog) : Phase → SessionLog
  | .setup .device _ _ => { start := some now, told := false }
  | _ => L

def Quiet (h : HostController) : Prop := h.mRespValid = false

def Named (L : SessionLog) (d : Usb3DeviceInfo) : Prop :=
  identity d = L.identity ∧ d.enumerated = false

def Knows (L : SessionLog) (v : View) (d : Usb3DeviceInfo) : Stage → Prop
  | .device => d = {}
  | .address a => Named L d ∧ v.1 = a &&& 0x7F
  | .configure => Named L d ∧ v.1 = d.addr &&& 0x7F ∧ v.2 = true
  | _ => Named L d ∧ v.1 = d.addr &&& 0x7F

/-- What the mailbox holds from the SETUP packet to the data stage. -/
def Reading (L : SessionLog) (h : HostController) (buf : List Byte) : Stage → Prop
  | .device => h.mRespValid = L.told ∧ (L.told = true → h.mRespData = makeDevDesc) ∧ buf = []
  | .address _ => Quiet h
  | .configure => Quiet h
  | _ => True

def Took (L : SessionLog) (buf : List Byte) : Stage → Prop
  | .device => buf = if L.told then makeDevDesc else []
  | _ => True

/-- The host has enumerated the peer. -/
structure Enumerated (L : SessionLog) (v : View) (d : Usb3DeviceInfo) : Prop where
  done : d.enumerated = true
  configured : v.2 = true
  addr : v.1 = d.addr &&& 0x7F
  named : identity d = L.identity
  active : d.activeConfig = 1

def Agrees (L : SessionLog) (v : View) (h : HostController) : Phase → Prop
  | .boot => Quiet h ∧ h.mDev = {}
  | .disabled => Quiet h ∧ (h.mDev.enumerated = false ∨ Enumerated L v h.mDev)
  | .setup k _ buf => Reading L h buf k ∧ Knows L v h.mDev k
  | .settling k _ buf => Reading L h buf k ∧ Knows L v h.mDev k
  | .status k _ buf => Quiet h ∧ Took L buf k ∧ Knows L v h.mDev k
  | .closing k buf answered => Quiet h ∧ Took L buf k ∧ Knows L v h.mDev k ∧ answered = true
  | .addressing _ => Quiet h ∧ Named L h.mDev ∧ v.1 = h.mDev.addr &&& 0x7F
  | .transfer trb => (trb.direction = .hostToDevice → Quiet h) ∧ Enumerated L v h.mDev
  | _ => Quiet h ∧ Enumerated L v h.mDev

section Turns
variable {L : SessionLog} {v : View} {s : Drd} {now : ℕ}

/-- The end of a stretch agrees with the log and the peer as they are then. -/
def Ends (now : ℕ) (L : SessionLog) (v : View) (T : Turn) : Prop :=
  Agrees (opens now L T.phase) (tells v T.phase) T.state.hostCtrl T.phase

@[simp] theorem sends_hostCtrl (ph : Phase) (p : Payload) (s : Drd) :
    (sends ph p s).state.hostCtrl = s.hostCtrl := by
  obtain ⟨layer,h⟩ := stamp_frame p s
  rw [sends,h]

theorem noteDevice_identity :
    identity (noteDevice (if L.told then makeDevDesc else []) {}) = L.identity := by
  rw [SessionLog.identity]
  cases L.told <;> decide

theorem noteConfig_frame (buf : List Byte) (d : Usb3DeviceInfo) :
    identity (noteConfig buf d) = identity d ∧ (noteConfig buf d).addr = d.addr ∧
      (noteConfig buf d).enumerated = d.enumerated := by
  unfold noteConfig
  split <;> exact ⟨rfl,rfl,rfl⟩

theorem session_ends (hquiet : Quiet s.hostCtrl) :
    Ends now L v (begins .device 0 [] (resetDev s)) :=
  ⟨⟨hquiet,fun h => (by cases h),rfl⟩,rfl⟩

theorem mainHead_ends (hquiet : Quiet s.hostCtrl) (hdev : s.hostCtrl.mDev.enumerated = false) :
    Ends now L v (mainHead s) := by
  rw [mainHead]
  split
  · exact ⟨hquiet,.inl hdev⟩
  · exact session_ends hquiet

theorem ringHead_ends (hquiet : Quiet s.hostCtrl) (hdone : Enumerated L v s.hostCtrl.mDev) :
    Ends now L v (ringHead s) := by
  rw [ringHead]
  split
  · exact ⟨hquiet,.inr hdone⟩
  · split
    · exact ⟨hquiet,hdone⟩
    · refine ⟨fun _ => ?_,?_⟩
      · rw [sends_hostCtrl]
        exact hquiet
      · rw [sends_hostCtrl]
        exact hdone

theorem collect_ends {k : Stage} {addr : BitVec 8} {buf : List Byte}
    (hread : Reading L s.hostCtrl buf k) (hknows : Knows L v s.hostCtrl.mDev k) :
    Ends now L v (collect k addr buf s) := by
  rw [collect]
  by_cases htake : k.request.wLength ≠ 0 ∧ s.hostCtrl.mRespValid = true
  · rw [if_pos htake]
    refine ⟨?_,?_,?_⟩
    · rw [sends_hostCtrl]
      rfl
    · cases k with
      | device =>
        have htold : L.told = true := hread.1.symm.trans htake.2
        show s.hostCtrl.mRespData = if L.told then makeDevDesc else []
        rw [if_pos htold,hread.2.1 htold]
      | _ => trivial
    · rw [sends_hostCtrl]
      exact hknows
  · rw [if_neg htake]
    have hquiet : Quiet s.hostCtrl := by
      cases k with
      | address a => exact hread
      | configure => exact hread
      | _ => exact Bool.eq_false_iff.mpr fun hvalid => htake ⟨by decide,hvalid⟩
    refine ⟨?_,?_,?_⟩
    · rw [sends_hostCtrl]
      exact hquiet
    · cases k with
      | device =>
        have htold : L.told = false := hread.1.symm.trans hquiet
        show buf = if L.told then makeDevDesc else []
        rw [htold,hread.2.2]
        rfl
      | _ => trivial
    · rw [sends_hostCtrl]
      exact hknows

theorem conclude_ends {k : Stage} {buf : List Byte} (hquiet : Quiet s.hostCtrl)
    (htook : Took L buf k) (hknows : Knows L v s.hostCtrl.mDev k) :
    Ends now L v (conclude k buf true s) := by
  cases k with
  | device =>
    have hdev : s.hostCtrl.mDev = {} := hknows
    have htook : buf = if L.told then makeDevDesc else [] := htook
    refine ⟨hquiet,⟨?_,?_⟩,rfl⟩
    · show identity (noteDevice buf s.hostCtrl.mDev) = L.identity
      rw [hdev,htook]
      exact noteDevice_identity
    · show (noteDevice buf s.hostCtrl.mDev).enumerated = false
      rw [hdev]
      unfold noteDevice
      split <;> rfl
  | address a => exact ⟨hquiet,hknows.1,hknows.2⟩
  | config =>
    obtain ⟨hid,haddr,hdone⟩ := noteConfig_frame buf s.hostCtrl.mDev
    refine ⟨trivial,⟨?_,?_⟩,?_⟩
    · exact hid.trans hknows.1.1
    · exact hdone.trans hknows.1.2
    · show v.1 = (noteConfig buf s.hostCtrl.mDev).addr &&& 0x7F
      rw [haddr]
      exact hknows.2
  | bos => exact ⟨hquiet,hknows.1,hknows.2,rfl⟩
  | configure =>
    obtain ⟨hnamed,haddr,hconf⟩ := hknows
    exact ⟨hquiet,rfl,hconf,haddr,hnamed.1,rfl⟩

/-- Each stretch of the host keeps the agreement, if its packets are answered with OK. -/
theorem turn_ends {ph : Phase} {o : Origin WaitPoint Payload TlmResponse}
    (h : Agrees L v s.hostCtrl ph) (hst : ph.Stands (.ready o))
    (hok : ∀ q r, o = .returned q r → r = .ok) : Ends now L v (turn ph o s) := by
  cases ph with
  | boot => exact mainHead_ends h.1 (by show s.hostCtrl.mDev.enumerated = false; rw [h.2])
  | disabled => exact session_ends h.1
  | setup k addr buf => exact h
  | settling k addr buf => exact collect_ends h.1 h.2
  | status k addr buf =>
    obtain ⟨n,r,rfl⟩ := hst.returned rfl
    obtain rfl := hok _ _ rfl
    exact ⟨h.1,h.2.1,h.2.2,rfl⟩
  | closing k buf answered =>
    obtain ⟨hquiet,htook,hknows,rfl⟩ := h
    exact conclude_ends hquiet htook hknows
  | addressing buf => exact ⟨trivial,h.2.1,h.2.2⟩
  | announcing => exact ringHead_ends h.1 h.2
  | idle => exact ringHead_ends h.1 h.2
  | transfer trb =>
    have hquiet : Quiet (receive trb s).hostCtrl := by
      rw [receive]
      split
      · rfl
      · rename_i hkeep
        cases hdir : trb.direction with
        | hostToDevice => exact h.1 hdir
        | deviceToHost => exact Bool.eq_false_iff.mpr fun hvalid => hkeep ⟨hdir,hvalid⟩
    have hdone : Enumerated L v (receive trb s).hostCtrl.mDev := by
      rw [(receive_frame trb s).1]
      exact h.2
    rw [turn]
    split
    · exact ⟨hquiet,hdone⟩
    · exact ringHead_ends hquiet hdone
  | completing => exact ringHead_ends h.1 h.2

end Turns

section Peer
variable {p : PeerDevice} {ph : Phase} {pkt q e : Payload} {n : BitVec 32} {L : SessionLog}
  {h : HostController} {s : Drd}

theorem masked_addr (a : BitVec 8) : ((a.setWidth 16 &&& 0x7F).setWidth 8 : BitVec 8) = a &&& 0x7F := by
  ext i hi
  simp

theorem view_settle (hpkt : ph.packet = some pkt) :
    view (settle (pkt.numbered n) p) = tells (view p) ph := by
  cases ph with
  | setup k addr buf =>
    cases hpkt
    cases k with
    | address a =>
      show ((_ : BitVec 8),p.mConfigured) = (a &&& 0x7F,p.mConfigured)
      rw [← masked_addr]
      rfl
    | _ => rfl
  | status k addr buf => cases hpkt; rfl
  | transfer trb =>
    cases hpkt
    cases hdir : trb.direction with
    | hostToDevice => simp [settle,trbPacket,Payload.numbered,makeUsb3Ext,hdir,view,tells]
    | deviceToHost => simp [settle,trbPacket,Payload.numbered,makeUsb3Ext,hdir,view,tells]
  | _ => cases hpkt

theorem tells_none {v : View} (hpkt : ph.packet = none) : tells v ph = v := by
  cases ph with
  | setup k addr buf => cases hpkt
  | _ => rfl

theorem reply_phase (hpkt : ph.packet = some pkt) (hreply : reply (pkt.numbered n) p = some e) :
    (∃ k addr buf, ph = .setup k addr buf ∧ k.hostToDevice = false ∧ e.pktType = some .ctrlData ∧
      e.data = (descriptor k.request).take k.request.wLength.toNat ∧ e.data ≠ []) ∨
    (∃ trb, ph = .transfer trb ∧ trb.direction = .deviceToHost ∧ e.pktType = some .bulkIn ∧
      e.data = p.mLoopbackBuf ∧ e.data ≠ []) := by
  cases ph with
  | setup k addr buf =>
    cases hpkt
    have hdata : ∀ data : List Byte, (if data = [] then none
        else some (ctrlDataPacket p.mAssignedAddr data)) = some e →
        e.pktType = some .ctrlData ∧ e.data = data ∧ e.data ≠ [] := by
      intro data h
      split at h
      · cases h
      · rename_i hne
        cases h
        exact ⟨rfl,rfl,hne⟩
    cases k with
    | address a => cases hreply
    | configure => cases hreply
    | _ =>
      obtain ⟨hty,hd,hne⟩ := hdata _ hreply
      exact .inl ⟨_,addr,buf,rfl,rfl,hty,hd,hne⟩
  | status k addr buf => cases hpkt; cases hreply
  | transfer trb =>
    cases hpkt
    cases hdir : trb.direction with
    | hostToDevice => simp [reply,trbPacket,Payload.numbered,makeUsb3Ext,hdir] at hreply
    | deviceToHost =>
      simp only [reply,trbPacket,Payload.numbered,makeUsb3Ext,hdir,reduceCtorEq,if_false,
        Option.map_some] at hreply
      split at hreply
      · cases hreply
      · rename_i hne
        cases hreply
        exact .inr ⟨trb,rfl,hdir,rfl,rfl,hne⟩
  | _ => cases hpkt

theorem deliver_hostCtrl (he : isReply e) (hne : e.data ≠ []) : (deliver e s).hostCtrl =
    if s.sigRole.cur = .host then { s.hostCtrl with mRespData := e.data, mRespValid := true }
    else s.hostCtrl := by
  have hforward : ProtocolLayer.isForwarded e = true := by
    rw [ProtocolLayer.isForwarded]
    obtain he | he := he
    · rw [he]
    · rw [he]
  rw [deliver]
  by_cases hhost : s.sigRole.cur = .host
  · have hnot : ¬Handled e s := fun hh => by
      have hdev := hh.2.1
      rw [hhost] at hdev
      cases hdev
    rw [if_neg hnot,if_pos hhost,passBy,if_pos ⟨hforward,hhost⟩,storeResponse,if_neg hne]
  · rw [if_neg hhost]
    split
    · exact absorb_hostCtrl e s
    · rw [passBy,if_neg fun h => hhost h.2]

def hears (L : SessionLog) (inHost : Bool) : Phase → SessionLog
  | .setup .device _ _ => { L with told := L.told || inHost }
  | _ => L

theorem visit_agrees {v : View} (hpkt : ph.packet = some pkt)
    (hreply : reply (pkt.numbered n) p = some e) (hagrees : Agrees L v s.hostCtrl ph) :
    Agrees (hears L (decide (s.sigRole.cur = .host)) ph) v (deliver e s).hostCtrl ph := by
  obtain ⟨k,addr,buf,rfl,hread,hty,hdata,hne⟩ | ⟨trb,rfl,hdir,hty,hdata,hne⟩ :=
    reply_phase hpkt hreply
  · rw [deliver_hostCtrl (.inl hty) hne]
    by_cases hhost : s.sigRole.cur = .host
    · rw [if_pos hhost]
      cases k with
      | device =>
        obtain ⟨⟨-,-,hbuf⟩,hdev⟩ := hagrees
        refine ⟨⟨by simp [hears,hhost],fun _ => ?_,hbuf⟩,hdev⟩
        rw [hdata]
        rfl
      | address a => cases hread
      | configure => cases hread
      | _ => exact ⟨trivial,hagrees.2⟩
    · rw [if_neg hhost]
      cases k with
      | device => simpa [hears,hhost] using hagrees
      | _ => exact hagrees
  · rw [deliver_hostCtrl (.inr hty) hne]
    split
    · exact ⟨fun h => absurd (hdir.symm.trans h) (by simp),hagrees.2⟩
    · exact hagrees

theorem setupRequest_phase (hpkt : ph.packet = some pkt) :
    asksDevice (.calling (pkt.numbered n)) = true ↔ ∃ addr buf, ph = .setup .device addr buf := by
  cases ph with
  | setup k addr buf =>
    cases hpkt
    rw [asksDevice,setupRequest_setupPacket]
    cases k with
    | device => simp [Stage.request]
    | address a => simp [Stage.request,addressRequest,descriptorRequest]
    | _ =>
      simp only [Stage.request,Option.some.injEq,decide_eq_true_eq,Phase.setup.injEq,reduceCtorEq,
        false_and,exists_false,iff_false]
      decide
  | status k addr buf =>
    cases hpkt
    rw [asksDevice,setupRequest_statusPacket]
    simp
  | transfer trb =>
    cases hpkt
    rw [asksDevice,setupRequest_bulk (isBulk_trbPacket trb n)]
    simp
  | _ => cases hpkt

end Peer

section Runs
variable {L : SessionLog} {v : View} {ph : Phase} {g : PeerState × SessionLog × Phase} {c c' : DrdConf 1}
  {l : DrdLabel Action 1}

def held (h : HostController) : Usb3DeviceInfo × List Byte × Bool := (h.mDev,h.mRespData,h.mRespValid)

theorem Agrees.congr {h h' : HostController} (hagrees : Agrees L v h ph) (hheld : held h' = held h) :
    Agrees L v h' ph := by
  obtain ⟨hdev,hmail⟩ := Prod.mk.inj hheld
  obtain ⟨hdata,hvalid⟩ := Prod.mk.inj hmail
  have hreading : ∀ buf k, Reading L h buf k → Reading L h' buf k := by
    intro buf k hread
    cases k with
    | device => exact ⟨hvalid.trans hread.1,fun htold => hdata.trans (hread.2.1 htold),hread.2.2⟩
    | address a => exact hvalid.trans hread
    | configure => exact hvalid.trans hread
    | _ => trivial
  have hquiet : Quiet h → Quiet h' := fun hq => hvalid.trans hq
  have hmap : ∀ P : Usb3DeviceInfo → Prop, P h.mDev → P h'.mDev := by
    intro P hP
    rw [hdev]
    exact hP
  cases ph with
  | setup k addr buf => exact ⟨hreading buf k hagrees.1,hmap (Knows L v · k) hagrees.2⟩
  | settling k addr buf => exact ⟨hreading buf k hagrees.1,hmap (Knows L v · k) hagrees.2⟩
  | transfer trb => exact ⟨fun hdir => hquiet (hagrees.1 hdir),hmap (Enumerated L v ·) hagrees.2⟩
  | boot => exact ⟨hquiet hagrees.1,hmap (· = {}) hagrees.2⟩
  | disabled =>
    exact ⟨hquiet hagrees.1,hmap (fun d => d.enumerated = false ∨ Enumerated L v d) hagrees.2⟩
  | status k addr buf =>
    exact ⟨hquiet hagrees.1,hagrees.2.1,hmap (Knows L v · k) hagrees.2.2⟩
  | closing k buf answered =>
    exact ⟨hquiet hagrees.1,hagrees.2.1,hmap (Knows L v · k) hagrees.2.2.1,hagrees.2.2.2⟩
  | addressing buf =>
    exact ⟨hquiet hagrees.1,hmap (fun d => Named L d ∧ v.1 = d.addr &&& 0x7F) hagrees.2⟩
  | _ => exact ⟨hquiet hagrees.1,hmap (Enumerated L v ·) hagrees.2⟩

theorem opens_eq {loc : Loc WaitPoint Payload TlmResponse} (hst : ph.Stands loc)
    (hready : ∀ o, loc ≠ .ready o) (now : ℕ) :
    (if asksDevice loc then { start := some now, told := false } else L) = opens now L ph := by
  have hother : (¬∃ addr buf, ph = .setup .device addr buf) → opens now L ph = L := by
    intro hne
    unfold opens
    split
    · exact absurd ⟨_,_,rfl⟩ hne
    · rfl
  cases loc with
  | idle => exact hst.elim
  | ready o => exact absurd rfl (hready o)
  | waiting w =>
    rw [hother]
    · rfl
    · rintro ⟨addr,buf,rfl⟩
      cases hst
  | calling q =>
    obtain ⟨pkt,n,hpkt,rfl⟩ := hst
    by_cases hasks : asksDevice (.calling (pkt.numbered n)) = true
    · obtain ⟨addr,buf,rfl⟩ := (setupRequest_phase hpkt).mp hasks
      rw [if_pos hasks]
      rfl
    · rw [if_neg hasks,hother fun h => hasks ((setupRequest_phase hpkt).mpr h)]

theorem view_settle_of_reply {p : PeerDevice} {pkt e : Payload} {n : BitVec 32}
    (hpkt : ph.packet = some pkt) (hreply : reply (pkt.numbered n) p = some e) :
    tells (view p) ph = view p := by
  obtain ⟨k,addr,buf,rfl,hread,-⟩ | ⟨trb,rfl,-⟩ := reply_phase hpkt hreply
  · cases k with
    | address a => cases hread
    | configure => cases hread
    | _ => rfl
  · rfl

abbrev phaseLog : BenchWatch (SessionLog × Phase) := sessionLog.pair (phases Action 1)

abbrev HostAt (ph : Phase) (c : DrdConf 1) : Prop :=
  Reach (drdKernel 1) (drdBoot 1) (phases Action 1) (fun _ _ _ => True) ph c

theorem hostAt_reach (hr : Reach (drdKernel 1) (drdBoot 1) (bench.pair phaseLog) served g c) :
    HostAt g.2.2 c := hr.image (fun g => g.2.2) rfl fun _ _ _ _ => rfl

theorem host_agrees {p' : PeerDevice} (hph : HostAt ph c)
    (hagrees : Agrees L v c.state.hostCtrl ph)
    (hok : ∀ q r, c.loc hostThread = .ready (.returned q r) → r = .ok)
    (hs : (drdKernel 1).step c (.eval hostThread) = some c')
    (hview : ∀ ph', ph'.Stands (c'.loc hostThread) → view p' = tells v ph') :
    Agrees (if asksDevice (c'.loc hostThread) then { start := some c'.now, told := false } else L)
      (view p') c'.state.hostCtrl ((phases Action 1).next ph c (.eval hostThread) c') := by
  obtain ⟨o,hloc,hst,hloc',hstate⟩ := taken_turn rfl ⟨hph,trivial,hs⟩
  have hst' := reach_stands rfl (hph.step trivial hs)
  have hnext : (phases Action 1).next ph c (.eval hostThread) c' = (turn ph o c.state).phase := by
    simp [phases,hloc]
  rw [hnext] at hst' ⊢
  rw [opens_eq hst' (eval_not_ready hs),hview _ hst',hstate]
  exact turn_ends hagrees hst fun q r ho => hok q r (by rw [hloc,ho])

theorem phases_still (ph : Phase) (hl : l ≠ .eval hostThread) :
    (phases Action 1).next ph c l c' = ph := by
  cases l with
  | eval t => exact if_neg fun ht => hl (by rw [ht])
  | _ => rfl

theorem host_onTime {γ : Type} {x : PeerState × γ} {slot : ℕ} (hsound : Sound x.1 c)
    (hok : served x c l) (hs : (drdKernel 1).step c l = some c') (hl : l ≠ .eval hostThread)
    (hst : ph.Stands (c.loc hostThread)) (hwake : ∀ w, ph.point = some w → c.state.wakes w = false)
    (htime : (c.thread hostThread).OnTime c.now slot) : (c'.thread hostThread).OnTime c'.now slot := by
  refine onTime_step hs hl htime (fun hidle => ?_) (fun q hq d hd => ?_) fun w hw => ?_
  · rw [Conf.loc,hidle] at hst
    exact hst
  · subst hd
    have hfree : x.1.service = .free := Partner.Allows.free hok (by simp) (by simp) (by simp)
    have hseated := hsound.seated
    rw [Partner.Seated,hfree] at hseated
    exact hseated.1 _ q hq
  · rw [hw] at hst
    exact hwake w hst

theorem held_between (hs : (drdKernel 1).step c l = some c') (hl : ∀ t, l ≠ .eval t) :
    held c'.state.hostCtrl = held c.state.hostCtrl := by
  let heldBy (s : Drd) := held s.hostCtrl
  change heldBy c'.state = heldBy c.state
  refine step_keeps hs hl (fun a s _ ha => ?_) fun _ => rfl
  have hkeep := congrArg (fun s => held s.hostCtrl) (Action.apply_unwritten ha)
  exact hkeep

/-- In every run with the peer host and peer agree, phase by phase. -/
theorem reach_agrees (hr : Reach (drdKernel 1) (drdBoot 1) (bench.pair phaseLog) served g c) :
    Agrees g.2.1 (view g.1.partner) c.state.hostCtrl g.2.2 := by
  induction hr with
  | boot => exact ⟨rfl,rfl⟩
  | @step g c l c' hr hok hs ih =>
    have hsound := sound_reach hr
    have hph := hostAt_reach hr
    have hbeat := hsound.beat ⟨hr,hok,hs⟩
    show Agrees (sessionLog.next g.2.1 c l c') (view (bench.next g.1 c l c').partner)
      c'.state.hostCtrl ((phases Action 1).next g.2.2 c l c')
    generalize bench.next g.1 c l c' = g' at hbeat
    cases hbeat with
    | silent hfree hnone =>
      refine host_agrees hph ih hsound.answered hs fun ph' hst => ?_
      refine (tells_none ?_).symm
      cases hloc : c'.loc hostThread with
      | calling q => exact absurd hloc (hnone q)
      | ready o => exact absurd hloc (eval_not_ready hs o)
      | idle => rw [hloc] at hst; exact hst.elim
      | waiting w' => rw [hloc] at hst; exact Phase.packet_none hst
    | speaks q hfree hq hreply =>
      refine host_agrees hph ih hsound.answered hs fun ph' hst => ?_
      rw [hq] at hst
      obtain ⟨pkt,n,hpkt,rfl⟩ := hst
      exact view_settle hpkt
    | asks q e next hfree hq hreply hnext =>
      refine host_agrees hph ih hsound.answered hs fun ph' hst => ?_
      rw [hq] at hst
      obtain ⟨pkt,n,hpkt,rfl⟩ := hst
      exact (view_settle_of_reply hpkt hreply).symm
    | visit q e next hservice hq hreply hidle hstate =>
      have hst := reach_stands rfl hph
      rw [hq] at hst
      obtain ⟨pkt,n,hpkt,rfl⟩ := hst
      have hlog : sessionLog.next g.2.1 c (.eval callThread) c' =
          hears g.2.1 (decide (c.state.sigRole.cur = .host)) g.2.2 := by
        have hnote : sessionLog.next g.2.1 c (.eval callThread) c' =
            if asksDevice (c.loc hostThread) = true then
              { g.2.1 with told := g.2.1.told || decide (c.state.sigRole.cur = .host) }
            else g.2.1 := by simp [sessionLog]
        rw [hnote,hq]
        by_cases hasks : asksDevice (.calling (pkt.numbered n)) = true
        · obtain ⟨addr,buf,hsetup⟩ := (setupRequest_phase hpkt).mp hasks
          rw [if_pos hasks,hsetup]
          rfl
        · rw [if_neg hasks]
          unfold hears
          split
          · exact absurd ((setupRequest_phase hpkt).mpr ⟨_,_,by assumption⟩) hasks
          · rfl
      have hview : view (settle (pkt.numbered n) g.1.partner) = view g.1.partner := by
        rw [view_settle hpkt,view_settle_of_reply hpkt hreply]
      rw [hlog,hview,hstate,phases_still _ (by simp)]
      exact visit_agrees hpkt hreply ih
    | enter e next hservice =>
      rw [phases_still _ (by simp)]
      exact ih.congr (held_between hs (by simp))
    | answer hservice =>
      rw [phases_still _ (by simp)]
      exact ih.congr (held_between hs (by simp))
    | process p hfree hp =>
      have hkeep : c'.state.hostCtrl = c.state.hostCtrl := by
        have hkeep := congrArg (·.hostCtrl) (taken_unwritten ⟨hr,hok,hs⟩)
        cases p with
        | hostMainProcess => exact absurd rfl hp
        | _ => exact hkeep
      have hlog : sessionLog.next g.2.1 c (.eval (.inl p)) c' = g.2.1 := by
        simp [sessionLog,hp]
      rw [hlog,hkeep,phases_still _ (by simpa using hp)]
      exact ih
    | other _ hfree heval hreply =>
      have hlog : sessionLog.next g.2.1 c l c' = g.2.1 := by
        cases l with
        | eval t => exact absurd rfl (heval t)
        | _ => rfl
      rw [hlog,phases_still _ (heval _)]
      exact ih.congr (held_between hs heval)

theorem reach_phase {g : PeerState × SessionLog}
    (hr : Reach (drdKernel 1) (drdBoot 1) (bench.pair sessionLog) served g c) :
    ∃ ph, Reach (drdKernel 1) (drdBoot 1) (bench.pair phaseLog) served (g.1,g.2,ph) c := by
  obtain ⟨⟨peer,L,ph⟩,rfl,hg⟩ := hr.lift (w := bench.pair phaseLog)
    (fun g : PeerState × SessionLog × Phase => (g.1,g.2.1)) rfl fun _ _ _ _ => rfl
  exact ⟨ph,hg⟩

theorem Knows.not_enumerated {d : Usb3DeviceInfo} {k : Stage} (hknows : Knows L v d k) :
    d.enumerated = false := by
  cases k with
  | device => rw [show d = {} from hknows]
  | _ => exact hknows.1.2

theorem Agrees.enumerated {h : HostController} (hagrees : Agrees L v h ph)
    (hdone : h.mDev.enumerated = true) : Enumerated L v h.mDev := by
  have hnot : h.mDev.enumerated = false → Enumerated L v h.mDev := fun hno => by
    rw [hno] at hdone
    cases hdone
  have hknows : ∀ {k}, Knows L v h.mDev k → Enumerated L v h.mDev := fun hk => hnot hk.not_enumerated
  cases ph with
  | boot => exact hnot (by rw [hagrees.2])
  | disabled => exact hagrees.2.elim hnot id
  | setup k addr buf => exact hknows hagrees.2
  | settling k addr buf => exact hknows hagrees.2
  | status k addr buf => exact hknows hagrees.2.2
  | closing k buf answered => exact hknows hagrees.2.2.1
  | addressing buf => exact hnot hagrees.2.1.2
  | _ => exact hagrees.2

/-- In every run with the peer, whatever the environment does: where the host has enumerated a
device, that is the peer in its configured state, at the address that the host knows without its
top bit, in configuration 1, and with the identity of its descriptor if that came in the host
role, else with none. A host that waits for work, or has sent a bulk packet, has enumerated it. -/
theorem enumeration_agrees (g : PeerState × SessionLog) (c : DrdConf 1)
    (hr : Reach (drdKernel 1) (drdBoot 1) (bench.pair sessionLog) served g c) :
    (c.state.hostCtrl.mDev.enumerated = true →
      g.1.partner.mConfigured = true ∧
      g.1.partner.mAssignedAddr = c.state.hostCtrl.mDev.addr &&& 0x7F ∧
      identity c.state.hostCtrl.mDev = (if g.2.told then peerIdentity else (0,0,0)) ∧
      c.state.hostCtrl.mDev.activeConfig = 1) ∧
    (c.loc hostThread = .waiting .trbComplete ∨ (∃ q, c.loc hostThread = .calling q ∧ isBulk q) →
      c.state.hostCtrl.mDev.enumerated = true) := by
  obtain ⟨ph,hph⟩ := reach_phase hr
  have hagrees := reach_agrees hph
  refine ⟨fun hdone => ?_,fun hworks => ?_⟩
  · have h := hagrees.enumerated hdone
    exact ⟨h.configured,h.addr,h.named,h.active⟩
  · have hst := reach_stands rfl (hostAt_reach hph)
    obtain hwait | ⟨q,hq,hbulk⟩ := hworks
    · rw [hwait] at hst
      cases ph with
      | idle => exact hagrees.2.done
      | _ => cases hst
    · rw [hq] at hst
      obtain ⟨pkt,n,hpkt,rfl⟩ := hst
      cases ph with
      | setup k addr buf => cases hpkt; exact absurd hbulk (not_isBulk_setupPacket _ _ _)
      | status k addr buf => cases hpkt; exact absurd hbulk (not_isBulk_statusPacket _ _ _)
      | transfer trb => exact hagrees.2.done
      | _ => cases hpkt

def exchangeRun (replies : List Payload) : List (DrdLabel Action 1) :=
  replies.flatMap (fun e => [.enter callThread e,.eval callThread]) ++ transferRun .ok ++
    [.eval hostThread]

def enumerateRun : List (DrdLabel Action 1) :=
  [.eval hostThread] ++ exchangeRun [ctrlDataPacket 0 makeDevDesc] ++ exchangeRun [] ++
    [.delta,.advance (2*ms),.eval hostThread] ++ exchangeRun [ctrlDataPacket 1 makeCfgDesc] ++
    exchangeRun [ctrlDataPacket 1 bos] ++ exchangeRun []

theorem enumeration_agrees_attached : ∃ g c,
    Reach (drdKernel 1) (drdBoot 1) (bench.pair sessionLog) served g c ∧
    c.state.hostCtrl.mDev.enumerated = true ∧ g.1.partner.mConfigured = true ∧
    identity c.state.hostCtrl.mDev = peerIdentity := by
  obtain ⟨g,c,hr,hdone,htold⟩ := exists_reach (drdKernel 1) (drdBoot 1) (bench.pair sessionLog)
    served (fun g c => c.state.hostCtrl.mDev.enumerated = true ∧ g.2.told = true)
    (attachRun .ufpAttached ++ enumerateRun) (by decide +kernel)
  obtain ⟨hconf,-,hid,-⟩ := (enumeration_agrees g c hr).1 hdone
  rw [if_pos htold] at hid
  exact ⟨g,c,hr,hdone,hconf,hid⟩

end Runs

end PeerSession
end Usb3Drd
