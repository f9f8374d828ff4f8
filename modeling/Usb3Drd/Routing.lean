import Usb3Drd.Coop.Purge
import Usb3Drd.Inbound

/-! Which packets the two controllers take anything from: the final mailbox of the host
controller, and the final state of the device controller, are what the packets meant for
them leave, whatever else was delivered in between. -/
namespace Usb3Drd

open Coop DeviceController ProtocolLayer Exchange Inbound

namespace Routing

abbrev HostView := List Byte × Bool

def hostView (s : Drd) : HostView := (s.hostCtrl.mRespData,s.hostCtrl.mRespValid)

structure DeviceView where
  mEp1In : Usb3EpFifo
  mEp2Out : Usb3EpFifo
  mAssignedAddr : BitVec 8
  mConfigured : Bool
  deriving DecidableEq

def deviceView (s : Drd) : DeviceView :=
  ⟨s.devCtrl.mEp1In,s.devCtrl.mEp2Out,s.devCtrl.mAssignedAddr,s.devCtrl.mConfigured⟩

/-- Another state, in which both controllers hold what they held. -/
def keep (s s' : Drd) : Drd :=
  { s' with
    hostCtrl := { s'.hostCtrl with
      mRespData := s.hostCtrl.mRespData, mRespValid := s.hostCtrl.mRespValid }
    devCtrl := { s'.devCtrl with
      mEp1In := s.devCtrl.mEp1In, mEp2Out := s.devCtrl.mEp2Out
      mAssignedAddr := s.devCtrl.mAssignedAddr, mConfigured := s.devCtrl.mConfigured } }

structure Others where
  wait : WaitPoint → Drd → Drd
  call : Payload → Drd → TlmResponse × Drd

/-- Code runs, and `meanwhile` happens at each of its suspensions, among other things. -/
def suspending (o : Others) (meanwhile : Drd → Option Drd) :
    Handler Drd WaitPoint Payload TlmResponse Drd where
  state := id
  store s _ := s
  wait w s := (meanwhile s).map fun s => keep s (o.wait w s)
  call q s := (meanwhile s).map fun s => ((o.call q s).1,keep s (o.call q s).2)

def loopbackStep (o : Others) (s : Drd) : Option Drd :=
  (loopbackLoop.interp (suspending o some) s).map (·.2)

def loopbackSteps (o : Others) : ℕ → Drd → Option Drd
  | 0, s => some s
  | n+1, s => (loopbackStep o s).bind (loopbackSteps o n)

/-- A packet is delivered in a given situation, with so many loopback steps while its code is
suspended; or the loopback process makes a step. -/
inductive LinkEvent
  | packet (now : Drd) (p : Payload) (o : Others) (loops : ℕ)
  | loopback (now : Drd) (o : Others)

/-- Role, enable and all else are as in the situation of the event, but for what the
controllers hold. -/
def LinkEvent.step : LinkEvent → Drd → Option Drd
  | .packet now p o loops, s =>
    ((DrdController.upstreamBTransport p).interp (suspending o (loopbackSteps o loops))
      (keep s now)).map (·.2)
  | .loopback now o, s => loopbackStep o (keep s now)

/-- The packets that arrive in the host role, except TP_ACK, TP_NRDY and TP_ERDY. -/
def LinkEvent.forHost : LinkEvent → Bool
  | .packet now p _ _ => decide (now.sigRole.cur = .host) && isForwarded p
  | .loopback _ _ => true

/-- Those that arrive in the device role with the device enabled. -/
def LinkEvent.forDevice : LinkEvent → Bool
  | .packet now p _ _ =>
    decide (now.sigRole.cur = .device) && now.sigDevEnable.cur && isForwarded p
  | .loopback _ _ => true

def DeviceView.take (p : Payload) (v : DeviceView) : DeviceView :=
  match kind p with
  | .out => { v with mEp2Out := v.mEp2Out.write p.data }
  | .bulkIn => if v.mEp1In.hasData then { v with mEp1In := .clear } else v
  | .address a => { v with mAssignedAddr := a }
  | .configure => { v with mConfigured := true }
  | .other => v

def DeviceView.loop (v : DeviceView) : DeviceView :=
  if v.mConfigured = true ∧ v.mEp2Out.hasData = true then
    { v with mEp1In := v.mEp1In.write v.mEp2Out.buffer, mEp2Out := .clear }
  else v

/-- The packets whose code is suspended once, by a reply or by the pause of SET_ADDRESS. -/
def suspends (p : Payload) (v : DeviceView) : Prop :=
  match p.ext with
  | none => False
  | some ext =>
    match ext.pktType with
    | .setup => ext.setup.bRequest ≠ usbReqSetConfiguration
    | .ctrlStatus => True
    | .bulkIn => v.mEp1In.hasData = true
    | _ => False

instance (p : Payload) (v : DeviceView) : Decidable (suspends p v) := by
  unfold suspends
  split
  · infer_instance
  · split <;> infer_instance

section Views
variable {o : Others} {p : Payload} {s : Drd}

theorem suspending_lawful (o : Others) (m : Drd → Option Drd) : (suspending o m).Lawful :=
  ⟨fun _ _ => rfl,fun _ => rfl⟩

theorem suspends_iff (p : Payload) (s : Drd) : suspends p (deviceView s) ↔
    answer p s ≠ none ∨ ∃ a, kind p = .address a := by
  have hne : usbReqSetConfiguration ≠ usbReqGetDescriptor ∧
      usbReqSetConfiguration ≠ usbReqSetAddress := by decide
  cases hext : p.ext with
  | none => simp [suspends,answer,kind,hext]
  | some ext =>
    cases hty : ext.pktType with
    | setup =>
      simp only [suspends,answer,kind,hext,hty]
      by_cases hget : ext.setup.bRequest = usbReqGetDescriptor
      · rw [hget,if_pos rfl]
        refine iff_of_true hne.1.symm (.inl ?_)
        split <;> simp
      · rw [if_neg hget]
        by_cases haddr : ext.setup.bRequest = usbReqSetAddress
        · rw [haddr,if_pos rfl]
          exact iff_of_true hne.2.symm (.inr ⟨_,if_pos rfl⟩)
        · by_cases hconf : ext.setup.bRequest = usbReqSetConfiguration
          · simp [hconf,hne.2]
          · simp only [if_neg haddr,if_neg hconf]
            refine iff_of_true hconf (.inl ?_)
            split <;> simp
    | bulkIn =>
      simp only [suspends,answer,kind,hext,hty,deviceView]
      by_cases hfull : s.devCtrl.mEp1In.hasData = true
      · simp [hfull]
      · simp [hfull]
    | _ => simp [suspends,answer,kind,hext,hty]

theorem deviceView_absorb (p : Payload) (s : Drd) :
    deviceView (absorb p s) = (deviceView s).take p := by
  cases hkind : kind p with
  | bulkIn =>
    by_cases hfull : s.devCtrl.mEp1In.hasData = true
    · simp [absorb,DeviceView.take,hkind,deviceView,hfull]
    · simp [absorb,DeviceView.take,hkind,deviceView,hfull]
  | _ => simp [absorb,DeviceView.take,hkind,deviceView]

theorem hostView_absorb (p : Payload) (s : Drd) : hostView (absorb p s) = hostView s := by
  rw [hostView,absorb_hostCtrl,hostView]

def Acts (m : Drd → Option Drd) (f : DeviceView → DeviceView) : Prop :=
  ∀ s, ∃ s', m s = some s' ∧ hostView s' = hostView s ∧ deviceView s' = f (deviceView s)

theorem acts_none : Acts some id := fun s => ⟨s,rfl,rfl,rfl⟩

variable {m : Drd → Option Drd} {f : DeviceView → DeviceView}

theorem wait_acts (hm : Acts m f) (w : WaitPoint) : Acts ((suspending o m).wait w) f := by
  intro s
  obtain ⟨s',hs',hhost,hdevice⟩ := hm s
  exact ⟨keep s' (o.wait w s'),by simp only [suspending,hs',Option.map_some],hhost,hdevice⟩

theorem call_acts (hm : Acts m f) (q : Payload) (s : Drd) : ∃ r s',
    (suspending o m).call q s = some (r,s') ∧ hostView s' = hostView s ∧
      deviceView s' = f (deviceView s) := by
  obtain ⟨s',hs',hhost,hdevice⟩ := hm s
  exact ⟨(o.call q s').1,keep s' (o.call q s').2,by simp only [suspending,hs',Option.map_some],hhost,hdevice⟩

theorem loopback_acts (o : Others) : Acts (loopbackStep o) DeviceView.loop := by
  intro s
  have hl := suspending_lawful o some
  obtain ⟨t,hwait,hhost,hdevice⟩ := wait_acts (o := o) acts_none .outEp s
  have hview : deviceView t = deviceView s := hdevice
  rw [loopbackStep,← hhost,← hview]
  by_cases hmoves : t.devCtrl.mConfigured = true ∧ t.devCtrl.mEp2Out.hasData = true
  · obtain ⟨q,layer,-,-,hturn⟩ := loopbackLoop_full hl hwait hmoves.1 hmoves.2
    have hloop : (deviceView t).loop = deviceView (moveLoopback t) := if_pos hmoves
    rw [hturn,hloop]
    exact ⟨_,rfl,rfl,rfl⟩
  · have hloop : (deviceView t).loop = deviceView t := if_neg hmoves
    rw [loopbackLoop_idle hwait hmoves,hloop]
    exact ⟨t,rfl,rfl,rfl⟩

theorem loopbacks_act (o : Others) (n : ℕ) : Acts (loopbackSteps o n) (DeviceView.loop^[n]) := by
  induction n with
  | zero => exact acts_none
  | succ n ih =>
    intro s
    obtain ⟨s₁,hs₁,hhost₁,hdevice₁⟩ := loopback_acts o s
    obtain ⟨s₂,hs₂,hhost₂,hdevice₂⟩ := ih s₁
    refine ⟨s₂,by rw [loopbackSteps,hs₁]; exact hs₂,hhost₂.trans hhost₁,?_⟩
    rw [hdevice₂,hdevice₁,Function.iterate_succ_apply]

theorem handled_acts (hm : Acts m f) (hh : Handled p s) : ∃ s',
    (DrdController.upstreamBTransport p).interp (suspending o m) s = some (status p s,s') ∧
      hostView s' = hostView s ∧
      deviceView s' = if suspends p (deviceView s) then f ((deviceView s).take p)
        else (deviceView s).take p := by
  have hreact := upstream_reaction (suspending_lawful o m) (x := s) hh
  have hdevice := deviceView_absorb p s
  generalize (DrdController.upstreamBTransport p).interp (suspending o m) s = y at hreact ⊢
  cases hreact with
  | done hans hkind =>
    refine ⟨_,rfl,hostView_absorb p s,?_⟩
    rw [if_neg fun hs => ((suspends_iff p s).mp hs).elim (· hans) fun ⟨a,ha⟩ => hkind a ha]
    exact hdevice
  | reply ty data n layer hans hkind =>
    let q := replyPacket p s ty data n
    obtain ⟨r',s',hs',hhost,hview⟩ := call_acts (o := o) hm q { absorb p s with protocol := layer }
    have hsome : answer p s ≠ none := fun hnone => Option.some_ne_none _ (hans.symm.trans hnone)
    refine ⟨s',?_,hhost.trans (hostView_absorb p s),?_⟩
    · show Option.map _ ((suspending o m).call q { absorb p s with protocol := layer }) = _
      rw [hs']
      rfl
    · rw [if_pos ((suspends_iff p s).mpr (.inl hsome)),← hdevice]
      exact hview
  | pause a hans hkind =>
    obtain ⟨s',hs',hhost,hview⟩ := wait_acts (o := o) hm .setAddressSettle (absorb p s)
    refine ⟨s',?_,hhost.trans (hostView_absorb p s),?_⟩
    · show Option.map _ ((suspending o m).wait .setAddressSettle (absorb p s)) = _
      rw [hs']
      rfl
    · rw [if_pos ((suspends_iff p s).mpr (.inr ⟨a,hkind⟩)),← hdevice]
      exact hview

end Views

/-- What an event does to the mailbox, and to what the device controller holds. -/
def LinkEvent.onHost (e : LinkEvent) (v : HostView) : HostView :=
  match e with
  | .packet _ p _ _ => if e.forHost = true ∧ p.data ≠ [] then (p.data,true) else v
  | .loopback _ _ => v

def LinkEvent.onDevice (e : LinkEvent) (v : DeviceView) : DeviceView :=
  match e with
  | .packet _ p _ loops =>
    if e.forDevice = true then
      if suspends p v then DeviceView.loop^[loops] (v.take p) else v.take p
    else v
  | .loopback _ _ => v.loop

section Events
variable {now : Drd} {p : Payload} {o : Others} {loops : ℕ} {s : Drd}

theorem packet_handled (o : Others) (loops : ℕ) (hh : Handled p (keep s now)) : ∃ s',
    (LinkEvent.packet now p o loops).step s = some s' ∧ hostView s' = hostView s ∧
      deviceView s' = if suspends p (deviceView s) then DeviceView.loop^[loops] ((deviceView s).take p)
        else (deviceView s).take p := by
  obtain ⟨s',hs',hhost,hdevice⟩ := handled_acts (o := o) (loopbacks_act o loops) hh
  exact ⟨s',by rw [LinkEvent.step,hs',Option.map_some],hhost,hdevice⟩

theorem packet_passed (hh : ¬Handled p (keep s now)) :
    (LinkEvent.packet now p o loops).step s = some (passBy p (keep s now)) := by
  obtain ⟨r,hr⟩ := upstream_unhandled (suspending_lawful o (loopbackSteps o loops))
    (x := keep s now) hh
  simp only [LinkEvent.step,hr,Option.map_some]
  rfl

theorem step_isSome (e : LinkEvent) (s : Drd) : (e.step s).isSome := by
  cases e with
  | packet now p o loops =>
    by_cases hh : Handled p (keep s now)
    · obtain ⟨s',hs',-⟩ := packet_handled o loops hh
      rw [hs']
      rfl
    · rw [packet_passed hh]
      rfl
  | loopback now o =>
    obtain ⟨s',hs',-⟩ := loopback_acts o (keep s now)
    rw [LinkEvent.step,hs']
    rfl

theorem hostView_passBy (p : Payload) (s : Drd) : hostView (passBy p s) =
    if isForwarded p = true ∧ s.sigRole.cur = .host ∧ p.data ≠ [] then (p.data,true)
      else hostView s := by
  rw [passBy,HostController.storeResponse]
  by_cases hpass : isForwarded p = true ∧ s.sigRole.cur = .host
  · rw [if_pos hpass]
    by_cases hdata : p.data = []
    · rw [if_pos hdata,if_neg fun hc => hc.2.2 hdata]
    · rw [if_neg hdata,if_pos ⟨hpass.1,hpass.2,hdata⟩]
      rfl
  · rw [if_neg hpass,if_neg fun hc => hpass ⟨hc.1,hc.2.1⟩]

theorem deviceView_passBy (p : Payload) (s : Drd) : deviceView (passBy p s) = deviceView s := by
  obtain ⟨_,hs⟩ := passBy_frame p s
  rw [hs]
  rfl

theorem forDevice_iff (s : Drd) :
    (LinkEvent.packet now p o loops).forDevice = true ↔ Handled p (keep s now) := by
  have hrole : (keep s now).sigRole = now.sigRole := rfl
  have henable : (keep s now).sigDevEnable = now.sigDevEnable := rfl
  simp only [LinkEvent.forDevice,Handled,Answering,hrole,henable,Bool.and_eq_true,decide_eq_true_eq]
  tauto

theorem forHost_iff (s : Drd) : (LinkEvent.packet now p o loops).forHost = true ↔
    isForwarded p = true ∧ (keep s now).sigRole.cur = .host := by
  have hrole : (keep s now).sigRole = now.sigRole := rfl
  simp only [LinkEvent.forHost,hrole,Bool.and_eq_true,decide_eq_true_eq]
  tauto

theorem hostView_step {e : LinkEvent} {s s' : Drd} (h : e.step s = some s') :
    hostView s' = e.onHost (hostView s) := by
  cases e with
  | packet now p o loops =>
    simp only [LinkEvent.onHost,forHost_iff s]
    by_cases hh : Handled p (keep s now)
    · obtain ⟨s₁,hs₁,hhost,-⟩ := packet_handled o loops hh
      obtain rfl := Option.some.inj (hs₁.symm.trans h)
      refine hhost.trans (if_neg fun hc => ?_).symm
      exact absurd (hh.2.1.symm.trans hc.1.2) (by simp)
    · obtain rfl := Option.some.inj ((packet_passed hh).symm.trans h)
      rw [hostView_passBy]
      simp only [and_assoc]
      rfl
  | loopback now o =>
    obtain ⟨s₁,hs₁,hhost,-⟩ := loopback_acts o (keep s now)
    obtain rfl := Option.some.inj (hs₁.symm.trans h)
    exact hhost

theorem deviceView_step {e : LinkEvent} {s s' : Drd} (h : e.step s = some s') :
    deviceView s' = e.onDevice (deviceView s) := by
  cases e with
  | packet now p o loops =>
    simp only [LinkEvent.onDevice,forDevice_iff s]
    by_cases hh : Handled p (keep s now)
    · obtain ⟨s₁,hs₁,-,hdevice⟩ := packet_handled o loops hh
      obtain rfl := Option.some.inj (hs₁.symm.trans h)
      exact hdevice.trans (if_pos hh).symm
    · obtain rfl := Option.some.inj ((packet_passed hh).symm.trans h)
      rw [deviceView_passBy,if_neg hh]
      rfl
  | loopback now o =>
    obtain ⟨s₁,hs₁,-,hdevice⟩ := loopback_acts o (keep s now)
    obtain rfl := Option.some.inj (hs₁.symm.trans h)
    exact hdevice

theorem host_unwinds : Unwinds LinkEvent.step hostView LinkEvent.forHost where
  hidden {e s s'} he h := by
    rw [hostView_step h]
    cases e with
    | packet now p o loops => simp [LinkEvent.onHost,he]
    | loopback now o => rfl
  seen {e s s' t t'} _ hview hs ht := by rw [hostView_step hs,hostView_step ht,hview]

theorem device_unwinds : Unwinds LinkEvent.step deviceView LinkEvent.forDevice where
  hidden {e s s'} he h := by
    rw [deviceView_step h]
    cases e with
    | packet now p o loops => simp [LinkEvent.onDevice,he]
    | loopback now o => cases he
  seen {e s s' t t'} _ hview hs ht := by rw [deviceView_step hs,deviceView_step ht,hview]

end Events

/-- Whatever is delivered, the mailbox of the host ends as the packets for the host alone leave
it, and the device controller as those for the device alone. -/
theorem views_of_own_packets (events : List LinkEvent) (s : Drd) :
    ∃ all host device, play LinkEvent.step events s = some all ∧
      play LinkEvent.step (events.filter LinkEvent.forHost) s = some host ∧
      play LinkEvent.step (events.filter LinkEvent.forDevice) s = some device ∧
      hostView all = hostView host ∧ deviceView all = deviceView device := by
  have hplay := fun es => Option.isSome_iff_exists.mp (play_isSome step_isSome es s)
  obtain ⟨all,hall⟩ := hplay events
  obtain ⟨host,hhost⟩ := hplay (events.filter LinkEvent.forHost)
  obtain ⟨device,hdevice⟩ := hplay (events.filter LinkEvent.forDevice)
  exact ⟨all,host,device,hall,hhost,hdevice,host_unwinds.purge rfl hall hhost,
    device_unwinds.purge rfl hall hdevice⟩

end Routing
end Usb3Drd
