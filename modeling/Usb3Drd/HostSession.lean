import Usb3Drd.HostBench

/-! A host session: from a rising edge of the enable through the enumeration to the
transfers of the ring. -/
namespace Usb3Drd
namespace HostSession

open Coop HostController

/-- What is recorded of the host thread: its control transfers, how often the enable has
risen so far, the same when the latest enumeration began and when the one that set
`enumerated` did, and whether the enable has risen since the latest began. -/
structure SessionLog where
  control : ControlLog := {}
  edges : ℕ := 0
  begun : ℕ := 0
  setBy : Option ℕ := none
  missed : Bool := false

namespace SessionLog

def noteControl (g : SessionLog) (l l' : Loc WaitPoint Payload TlmResponse) : SessionLog :=
  { g with control := g.control.note l l' }

def noteBegin (g : SessionLog) : Loc WaitPoint Payload TlmResponse → SessionLog
  | .calling q =>
    if setupRequest q = some (descriptorRequest usbDescDevice 0) then
      { g with begun := g.edges, missed := false }
    else g
  | _ => g

def noteEnumerated (g : SessionLog) (s s' : Drd) : SessionLog :=
  if s.hostCtrl.mDev.enumerated = false ∧ s'.hostCtrl.mDev.enumerated = true then
    { g with setBy := some g.begun }
  else g

def run (g : SessionLog) (l : Loc WaitPoint Payload TlmResponse) (s : Drd)
    (l' : Loc WaitPoint Payload TlmResponse) (s' : Drd) : SessionLog :=
  ((g.noteControl l l').noteBegin l').noteEnumerated s s'

/-- The latest enumeration failed: a status stage other than that of the BOS read was
not answered OK. -/
def Failed (g : SessionLog) : Prop :=
  g.control.answered ≠ .ok ∧ g.control.request ≠ descriptorRequest usbDescBos 0

instance (g : SessionLog) : Decidable g.Failed := inferInstanceAs (Decidable (_ ∧ _))

end SessionLog

def sessionLog : HostWatch SessionLog where
  init := {}
  next g c l c' := match l with
    | .eval t =>
      if t = hostThread then g.run (c.loc t) c.state (c'.loc t) c'.state else g
    | .delta =>
      if c.state.sigHostEnable.rises then
        { g with
          edges := g.edges + 1
          missed := g.missed || decide (c.loc hostThread ≠ .waiting .enablePosedge) }
      else g
    | _ => g

/-- The thread is about to look at its ring: an event or a pulse is over, or the
enumeration has just failed. -/
def entersRing (g : SessionLog) (c : DrdConf 0) : HostLabel → Prop
  | .eval t => t = hostThread ∧
      (c.loc t = .ready (.woke .trbComplete) ∨ c.loc t = .ready (.woke .xferPulse) ∨
        c.loc t = .ready (.woke .enumPulse) ∨
        (c.loc t = .ready (.woke .statusStage) ∧ g.Failed))
  | _ => False

instance (g : SessionLog) (c : DrdConf 0) : ∀ l, Decidable (entersRing g c l)
  | .eval _ => inferInstanceAs (Decidable (_ ∧ _))
  | .act _ | .enter _ _ | .reply _ _ | .delta | .advance _ => isFalse id

/-- A transfer would be run now. -/
def HasWork (s : Drd) : Prop := s.sigHostEnable.cur = true ∧ s.hostCtrl.mTransferRing ≠ []

instance (s : Drd) : Decidable (HasWork s) := inferInstanceAs (Decidable (_ ∧ _))

/-- The thread turns to a ring with work in it, enabled, only if every mandatory status
stage of its enumeration was answered OK and it has met every rising edge since. -/
def cleanSession (g : SessionLog) (c : DrdConf 0) (l : HostLabel) : Prop :=
  entersRing g c l → HasWork c.state → ¬g.Failed ∧ g.missed = false

instance (g : SessionLog) (c : DrdConf 0) (l : HostLabel) : Decidable (cleanSession g c l) :=
  inferInstanceAs (Decidable (_ → _))

def Enumerating (g : SessionLog) (s : Drd) : Prop :=
  s.hostCtrl.mDev.enumerated = false ∧ (g.missed = false → g.begun = g.edges)

/-- The enumeration was completed, and began after the last rising edge. -/
def Fresh (g : SessionLog) (s : Drd) : Prop :=
  s.hostCtrl.mDev.enumerated = true ∧ g.setBy = some g.edges

def InRing (g : SessionLog) (s : Drd) : Prop := ¬g.Failed → g.missed = false → Fresh g s

def inTransfer : WaitPoint → Prop
  | .setupStage | .statusStage | .addrSettle => True
  | _ => False

def inRing : WaitPoint → Prop
  | .enumPulse | .trbComplete | .xferPulse => True
  | _ => False

/-- Where the thread stands. -/
inductive HostAt (g : SessionLog) (s : Drd) : Loc WaitPoint Payload TlmResponse → Prop
  | start : HostAt g s (.ready .start)
  | off : HostAt g s (.waiting .enablePosedge)
  | on : HostAt g s (.ready (.woke .enablePosedge))
  | call {q : Payload} (hq : ¬isBulk q) (h : Enumerating g s) : HostAt g s (.calling q)
  | back {q : Payload} {r : TlmResponse} (hq : ¬isBulk q) (h : Enumerating g s) :
      HostAt g s (.ready (.returned q r))
  | stage {w : WaitPoint} (hw : inTransfer w) (h : Enumerating g s) : HostAt g s (.waiting w)
  | staged {w : WaitPoint} (hw : inTransfer w) (h : Enumerating g s) :
      HostAt g s (.ready (.woke w))
  | send {q : Payload} (hq : isBulk q) (h : InRing g s) : HostAt g s (.calling q)
  | sent {q : Payload} {r : TlmResponse} (hq : isBulk q) (h : InRing g s) :
      HostAt g s (.ready (.returned q r))
  | ring {w : WaitPoint} (hw : inRing w) (h : InRing g s) : HostAt g s (.waiting w)
  | turn {w : WaitPoint} (hw : inRing w) (h : InRing g s) : HostAt g s (.ready (.woke w))

theorem HostAt.enumerating_back {g : SessionLog} {s : Drd} {q : Payload} {r : TlmResponse}
    (h : HostAt g s (.ready (.returned q r))) (hq : ¬isBulk q) : Enumerating g s := by
  cases h with
  | back _ h => exact h
  | sent hbulk => exact absurd hbulk hq

theorem HostAt.enumerating_woke {g : SessionLog} {s : Drd} {w : WaitPoint}
    (h : HostAt g s (.ready (.woke w))) (hw : inTransfer w) : Enumerating g s := by
  cases h with
  | on => cases hw
  | staged _ h => exact h
  | turn hring => cases w <;> cases hw <;> cases hring

def CanRun (g : SessionLog) (s : Drd) : Prop := HasWork s → ¬g.Failed ∧ g.missed = false

def sessionSpec : Spec SessionLog Drd WaitPoint Payload TlmResponse Loop where
  held l g s := AllIoc s ∧ HostAt g s l
  pre o g s := AllIoc s ∧ HostAt g s (.ready o) ∧
    ∀ w, o = .woke w → inRing w ∨ (w = .statusStage ∧ g.Failed) → CanRun g s
  rely g _ g' _ := g'.control = g.control
  guar g _ _ l s' := ∀ q, l = .calling q → isBulk q → Fresh g s'
  leave g o s l s' := g.run (.ready o) s l s'
  head l x := AllIoc x.state ∧
    ((l = .hostMain) ∨ (l = .transferRing ∧ (∃ w, x.origin = .woke w) ∧
      x.state.hostCtrl.mDev.enumerated = x.start.hostCtrl.mDev.enumerated ∧
      InRing x.hist x.state ∧ CanRun x.hist x.state))

section Log
variable {g : SessionLog} {s s' : Drd} {l l' : Loc WaitPoint Payload TlmResponse}

theorem run_eq (h : s'.hostCtrl.mDev.enumerated = false ∨
    s'.hostCtrl.mDev.enumerated = s.hostCtrl.mDev.enumerated) :
    g.run l s l' s' = (g.noteControl l l').noteBegin l' := by
  have hnot : ¬(s.hostCtrl.mDev.enumerated = false ∧ s'.hostCtrl.mDev.enumerated = true) := by
    rintro ⟨hf,ht⟩
    rw [hf,ht] at h
    simp at h
  rw [SessionLog.run,SessionLog.noteEnumerated,if_neg hnot]

end Log

section Code
variable {x : Trail SessionLog Drd WaitPoint Payload TlmResponse}

theorem stopsAt_call {q : Payload} (hq : ¬isBulk q) (hioc : AllIoc x.state)
    (h : Enumerating (sessionSpec.after (.calling q) x) x.state) :
    sessionSpec.stopsAt (.calling q) x := by
  refine ⟨fun q' hq' hb => ?_,hioc,.call hq h⟩
  cases hq'
  exact absurd hb hq

theorem stopsAt_wait {w : WaitPoint} (hioc : AllIoc x.state)
    (h : HostAt (sessionSpec.after (.waiting w) x) x.state (.waiting w)) :
    sessionSpec.stopsAt (.waiting w) x :=
  ⟨fun _ hq' _ => (by cases hq'),hioc,h⟩

theorem after_setup (devAddr : BitVec 8) (setup : Usb3SetupPkt) (n : BitVec 32)
    (hdev : x.state.hostCtrl.mDev.enumerated = false) :
    ∃ g, sessionSpec.after (.calling ((setupPacket devAddr setup).numbered n)) x = g ∧
      g.control.request = setup ∧
      (setup = descriptorRequest usbDescDevice 0 ∨
        (x.hist.missed = false → x.hist.begun = x.hist.edges) → g.missed = false → g.begun = g.edges) := by
  refine ⟨_,(run_eq (.inl hdev)).trans rfl,?_⟩
  rw [SessionLog.noteBegin,setupRequest_setupPacket]
  have hrequest := ControlLog.note_setup x.hist.control (.ready x.origin) devAddr setup n
  split
  · exact ⟨hrequest,fun _ _ => rfl⟩
  · rename_i hne
    exact ⟨hrequest,fun h => h.resolve_left fun heq => hne (congrArg some heq)⟩

theorem after_status (devAddr : BitVec 8) (dir : Bool) (n : BitVec 32) {w : WaitPoint}
    (ho : x.origin = .woke w) (hdev : x.state.hostCtrl.mDev.enumerated = false) :
    sessionSpec.after (.calling ((statusPacket devAddr dir).numbered n)) x = x.hist :=
  (run_eq (.inl hdev)).trans (by rw [ho]; rfl)

theorem after_wait (hdev : x.state.hostCtrl.mDev.enumerated = false) (w : WaitPoint) :
    sessionSpec.after (.waiting w) x = x.hist.noteControl (.ready x.origin) (.waiting w) :=
  (run_eq (.inl hdev)).trans rfl

/-- A control transfer: afterwards its request and the answer to its status stage are
on record. -/
theorem ctrlTransfer_safe {devAddr : BitVec 8} {setup : Usb3SetupPkt} {dataBuf : List Byte}
    {dir : Bool} (hlen : dir = true → setup.wLength = 0)
    {post : Bool × List Byte → Trail SessionLog Drd WaitPoint Payload TlmResponse → Prop}
    (hioc : AllIoc x.state) (hdev : x.state.hostCtrl.mDev.enumerated = false)
    (hbegun : setup = descriptorRequest usbDescDevice 0 ∨
      (x.hist.missed = false → x.hist.begun = x.hist.edges))
    (hpost : ∀ r buf g s, AllIoc s → Enumerating g s → g.control = ⟨setup,r⟩ →
      (g.Failed → CanRun g s) → post (decide (r = .ok),buf) ⟨g,.woke .statusStage,s,s⟩) :
    (ctrlTransfer devAddr setup dataBuf dir).wp sessionSpec.setting post x := by
  refine ctrlTransfer_wp _ hlen x fun n layer => ?_
  generalize hx : ({ x with state := { x.state with protocol := layer } } :
    Trail SessionLog Drd WaitPoint Payload TlmResponse) = x'
  have hdev' : x'.state.hostCtrl.mDev.enumerated = false := by rw [← hx]; exact hdev
  have hioc' : AllIoc x'.state := by rw [← hx]; exact hioc
  have hbegun' : setup = descriptorRequest usbDescDevice 0 ∨
      (x'.hist.missed = false → x'.hist.begun = x'.hist.edges) := by rw [← hx]; exact hbegun
  obtain ⟨g₀,hg₀,hreq₀,hedges⟩ := after_setup devAddr setup n hdev'
  -- SETUP is sent
  refine ⟨stopsAt_call (not_isBulk_setupPacket _ _ _) hioc' ⟨hdev',?_⟩,fun r₁ g₁ s₁ h₁ => ?_⟩
  · rw [hg₀]
    exact hedges hbegun'
  obtain ⟨hctl₁,hioc₁,hat₁,-⟩ := h₁
  have hreq₁ : g₁.control.request = setup := by rw [hctl₁,hg₀,hreq₀]
  have henum₁ := hat₁.enumerating_back (not_isBulk_setupPacket _ _ _)
  refine ⟨stopsAt_wait hioc₁ (.stage trivial ?_),fun g₂ s₂ h₂ buf s hs n layer => ?_⟩
  · rw [after_wait henum₁.1]
    exact henum₁
  obtain ⟨hctl₂,hioc₂,hat₂,-⟩ := h₂
  rw [after_wait henum₁.1] at hctl₂
  have henum₂ := hat₂.enumerating_woke trivial
  -- STATUS is sent
  have hs' : AllIoc s ∧ s.hostCtrl.mDev.enumerated = false := by
    obtain rfl | rfl := hs
    · exact ⟨hioc₂,henum₂.1⟩
    · exact ⟨hioc₂,henum₂.1⟩
  refine ⟨stopsAt_call (not_isBulk_statusPacket _ _ _) hs'.1 ?_,fun r g₃ s₃ h₃ => ?_⟩
  · rw [after_status _ _ _ rfl hs'.2]
    exact ⟨hs'.2,henum₂.2⟩
  obtain ⟨hctl₃,hioc₃,hat₃,-⟩ := h₃
  rw [after_status _ _ _ rfl hs'.2] at hctl₃
  have henum₃ := hat₃.enumerating_back (not_isBulk_statusPacket _ _ _)
  refine ⟨stopsAt_wait hioc₃ (.stage trivial ?_),fun g₄ s₄ h₄ => ?_⟩
  · rw [after_wait henum₃.1]
    exact henum₃
  obtain ⟨hctl₄,hioc₄,hat₄,hrun₄⟩ := h₄
  rw [after_wait henum₃.1] at hctl₄
  have henum₄ := hat₄.enumerating_woke trivial
  have hctl : g₄.control = ⟨setup,r⟩ := by
    have hreq₃ : g₃.control.request = setup := by rw [hctl₃,hctl₂]; exact hreq₁
    rw [hctl₄,← hreq₃]
    rfl
  exact hpost r buf g₄ s₄ hioc₄ henum₄ hctl fun hf => hrun₄ _ rfl (.inr ⟨rfl,hf⟩)

theorem head_of_failed {g : SessionLog} {s : Drd} {w : WaitPoint} (hioc : AllIoc s)
    (hfailed : g.Failed) (hrun : g.Failed → CanRun g s) :
    sessionSpec.head .transferRing ⟨g,.woke w,s,s⟩ :=
  ⟨hioc,.inr ⟨rfl,⟨w,rfl⟩,rfl,fun h => absurd hfailed h,hrun hfailed⟩⟩

theorem noteDevice_enumerated (buf : List Byte) (d : Usb3DeviceInfo) :
    (noteDevice buf d).enumerated = d.enumerated := by
  unfold noteDevice
  split <;> rfl

theorem noteConfig_enumerated (buf : List Byte) (d : Usb3DeviceInfo) :
    (noteConfig buf d).enumerated = d.enumerated := by
  unfold noteConfig
  split <;> rfl

theorem after_complete {w w' : WaitPoint} (ho : x.origin = .woke w')
    (hstart : x.start.hostCtrl.mDev.enumerated = false)
    (hstate : x.state.hostCtrl.mDev.enumerated = true) :
    sessionSpec.after (.waiting w) x = { x.hist with setBy := some x.hist.begun } := by
  have hafter : sessionSpec.after (.waiting w) x =
      (x.hist.noteControl (.ready x.origin) (.waiting w)).noteEnumerated x.start x.state := rfl
  rw [hafter,ho,SessionLog.noteEnumerated,if_pos ⟨hstart,hstate⟩]
  rfl

theorem addressRequest_ne (a : BitVec 8) : addressRequest a ≠ descriptorRequest usbDescBos 0 :=
  fun h => absurd (congrArg Usb3SetupPkt.bRequest h) (by decide : usbReqSetAddress ≠ usbReqGetDescriptor)

theorem failed_of_answer {g : SessionLog} {r : TlmResponse} {setup : Usb3SetupPkt}
    (hr : decide (r = .ok) = false) (hctl : g.control = ⟨setup,r⟩)
    (hsetup : setup ≠ descriptorRequest usbDescBos 0) : g.Failed := by
  rw [SessionLog.Failed,hctl]
  exact ⟨of_decide_eq_false hr,hsetup⟩

theorem enumerateDevice_safe (hioc : AllIoc x.state) (hdev : x.state.hostCtrl.mDev.enumerated = false) :
    enumerateDevice.wp sessionSpec.setting (fun _ => sessionSpec.head .transferRing) x := by
  refine enumerateDevice_wp _ x ?_
  refine ctrlTransfer_safe (by simp) hioc hdev (.inl rfl) fun r buf g s hioc henum hctl hrun => ?_
  refine ⟨fun hr => head_of_failed hioc (failed_of_answer hr hctl (by decide)) hrun,fun _ => ?_⟩
  -- the address
  refine ctrlTransfer_safe (fun _ => rfl) hioc ?_ (.inr henum.2)
    fun r buf' g s hioc henum hctl hrun => ?_
  · exact (noteDevice_enumerated _ _).trans henum.1
  refine ⟨fun hr => head_of_failed hioc (failed_of_answer hr hctl (addressRequest_ne _)) hrun,
    fun _ => ?_⟩
  refine ⟨stopsAt_wait hioc (.stage trivial ?_),fun g s h => ?_⟩
  · rw [after_wait henum.1]
    exact henum
  obtain ⟨-,hioc,hat,-⟩ := h
  have henum := hat.enumerating_woke trivial
  -- the configuration descriptor
  refine ctrlTransfer_safe (by simp) hioc henum.1 (.inr henum.2)
    fun r buf g s hioc henum hctl hrun => ?_
  refine ⟨fun hr => head_of_failed hioc (failed_of_answer hr hctl (by decide)) hrun,fun _ => ?_⟩
  -- the BOS read, whose outcome does not matter, and the configuration
  refine ctrlTransfer_safe (by simp) hioc ?_ (.inr henum.2)
    fun r buf g s hioc henum hctl hrun => ?_
  · exact (noteConfig_enumerated _ _).trans henum.1
  refine ctrlTransfer_safe (fun _ => rfl) hioc henum.1 (.inr henum.2)
    fun r buf g s hioc henum hctl hrun => ?_
  refine ⟨fun hr => head_of_failed hioc (failed_of_answer hr hctl (by decide)) hrun,fun _ => ?_⟩
  refine ⟨stopsAt_wait hioc (.ring trivial ?_),fun g s h => ?_⟩
  · rw [after_complete rfl henum.1 rfl]
    exact fun _ hmissed => ⟨rfl,congrArg some (henum.2 hmissed)⟩
  · obtain ⟨-,hioc,hat,hrun⟩ := h
    have hring : InRing g s := by
      cases hat with
      | turn _ h => exact h
      | staged hw => cases hw
    exact ⟨hioc,.inr ⟨rfl,⟨_,rfl⟩,rfl,hring,hrun _ rfl (.inl trivial)⟩⟩

theorem run_ring {g : SessionLog} {o : Origin WaitPoint Payload TlmResponse} {s s' : Drd}
    {l : Loc WaitPoint Payload TlmResponse} (ho : ∀ q r, o = .returned q r → isBulk q)
    (hl : ∀ q, l = .calling q → isBulk q)
    (hdev : s'.hostCtrl.mDev.enumerated = s.hostCtrl.mDev.enumerated) :
    g.run (.ready o) s l s' = g := by
  rw [run_eq (.inr hdev),SessionLog.noteControl,ControlLog.note_bulk _ ho hl]
  cases l with
  | calling q =>
    refine if_neg fun hbegin => ?_
    obtain hq | hq := hl q rfl
    · simp [setupRequest,hq] at hbegin
    · simp [setupRequest,hq] at hbegin
  | _ => rfl

theorem after_ring {w : WaitPoint} (ho : ∀ q r, x.origin = .returned q r → isBulk q)
    (hdev : x.state.hostCtrl.mDev.enumerated = x.start.hostCtrl.mDev.enumerated) :
    sessionSpec.after (.waiting w) x = x.hist := run_ring ho (fun _ h => (by cases h)) hdev

theorem after_send {trb : Usb3Trb} {n : BitVec 32} {w : WaitPoint} (ho : x.origin = .woke w)
    (hdev : x.state.hostCtrl.mDev.enumerated = x.start.hostCtrl.mDev.enumerated) :
    sessionSpec.after (.calling ((trbPacket trb).numbered n)) x = x.hist := by
  refine run_ring (fun q r h => ?_) (fun q h => ?_) hdev
  · rw [ho] at h
    cases h
  · cases h
    exact isBulk_trbPacket trb n

theorem runTrb_safe {trb : Usb3Trb} {w : WaitPoint} (htrb : trb.ioc = true) (hioc : AllIoc x.state)
    (ho : x.origin = .woke w)
    (hdev : x.state.hostCtrl.mDev.enumerated = x.start.hostCtrl.mDev.enumerated)
    (hfresh : Fresh x.hist x.state) :
    (runTrb trb).wp sessionSpec.setting (fun _ => sessionSpec.head .transferRing) x := by
  refine runTrb_wp _ x fun n layer => ?_
  have hbulk := isBulk_trbPacket trb n
  have hsend : sessionSpec.after (.calling ((trbPacket trb).numbered n))
      { x with state := { x.state with protocol := layer } } = x.hist := after_send ho hdev
  have hring : InRing x.hist { x.state with protocol := layer } := fun _ _ => hfresh
  rw [← hsend] at hring
  refine ⟨⟨fun _ _ _ => hfresh,hioc,.send hbulk hring⟩,fun r g s h => ?_⟩
  obtain ⟨-,hioc,hat,-⟩ := h
  have hring : InRing g s := by
    cases hat with
    | sent _ h => exact h
    | back hq => exact absurd hbulk hq
  obtain ⟨hrdev,hrring⟩ := receive_frame trb s
  rw [if_pos htrb]
  refine ⟨stopsAt_wait (hioc.congr hrring) (.ring trivial ?_),fun g s h => ?_⟩
  · rw [after_ring (fun q r h => by cases h; exact hbulk) (congrArg Usb3DeviceInfo.enumerated hrdev)]
    exact fun hf hm => ⟨(congrArg Usb3DeviceInfo.enumerated hrdev).trans (hring hf hm).1,(hring hf hm).2⟩
  obtain ⟨-,hioc,hat,hrun⟩ := h
  have hring : InRing g s := by
    cases hat with
    | turn _ h => exact h
    | staged hw => cases hw
  exact ⟨hioc,.inr ⟨rfl,⟨_,rfl⟩,rfl,hring,hrun _ rfl (.inl trivial)⟩⟩

theorem sessionSpec_loops : sessionSpec.Loops loopCode := by
  rintro l x ⟨hioc,rfl | ⟨rfl,⟨w,ho⟩,hdev,hring,hrun⟩⟩
  · refine hostMainLoop_wp _ x (fun _ => ⟨stopsAt_wait hioc .off,fun g s h => ?_⟩) fun _ => ?_
    · exact enumerateDevice_safe h.2.1 rfl
    · exact enumerateDevice_safe hioc rfl
  · refine processTransferRing_wp _ x (fun _ => ⟨hioc,.inl rfl⟩) (fun _ hempty => ?_)
      fun trb rest hon hr => ?_
    · refine ⟨stopsAt_wait hioc (.ring trivial ?_),fun g s h => ?_⟩
      · rw [after_ring (fun q r h => by rw [ho] at h; cases h) hdev]
        exact hring
      obtain ⟨-,hioc,hat,hrun⟩ := h
      have hring : InRing g s := by
        cases hat with
        | turn _ h => exact h
        | staged hw => cases hw
      exact ⟨hioc,.inr ⟨rfl,⟨_,rfl⟩,rfl,hring,hrun _ rfl (.inl trivial)⟩⟩
    · obtain ⟨hnf,hm⟩ := hrun ⟨hon,by simp [hr]⟩
      refine runTrb_safe (hioc trb (by simp [hr])) ?_ ho hdev (hring hnf hm)
      exact fun trb' h => hioc trb' (by rw [hr]; exact List.mem_cons_of_mem _ h)

end Code

section Interference
variable {g g' : SessionLog} {s s' : Drd} {l : Loc WaitPoint Payload TlmResponse}

theorem Enumerating.congr (h : Enumerating g s) (hdev : s'.hostCtrl.mDev = s.hostCtrl.mDev) :
    Enumerating g s' := by
  simpa only [Enumerating,hdev] using h

theorem InRing.congr (h : InRing g s) (hdev : s'.hostCtrl.mDev = s.hostCtrl.mDev) :
    InRing g s' := by
  simpa only [InRing,Fresh,hdev] using h

theorem HostAt.mono (h : HostAt g s l)
    (henum : l ≠ .waiting .enablePosedge → Enumerating g s → Enumerating g' s')
    (hring : l ≠ .waiting .enablePosedge → InRing g s → InRing g' s') : HostAt g' s' l := by
  cases h with
  | start => exact .start
  | off => exact .off
  | on => exact .on
  | call hq h => exact .call hq (henum (by simp) h)
  | back hq h => exact .back hq (henum (by simp) h)
  | stage hw h => exact .stage hw (henum (by rintro ⟨⟩; cases hw) h)
  | staged hw h => exact .staged hw (henum (by simp) h)
  | send hq h => exact .send hq (hring (by simp) h)
  | sent hq h => exact .sent hq (hring (by simp) h)
  | ring hw h => exact .ring hw (hring (by rintro ⟨⟩; cases hw) h)
  | turn hw h => exact .turn hw (hring (by simp) h)

theorem HostAt.congr (h : HostAt g s l) (hdev : s'.hostCtrl.mDev = s.hostCtrl.mDev) :
    HostAt g s' l :=
  h.mono (fun _ he => he.congr hdev) (fun _ hr => hr.congr hdev)

/-- A rise of the enable outdates the enumeration, unless the thread waits for it. -/
theorem HostAt.rise (h : HostAt g s l) (hdev : s'.hostCtrl.mDev = s.hostCtrl.mDev)
    (hmissed : l ≠ .waiting .enablePosedge → g'.missed = true) : HostAt g' s' l := by
  refine h.mono (fun hl he => ⟨by rw [hdev]; exact he.1,fun hm => ?_⟩) (fun hl _ _ hm => ?_)
  · rw [hmissed hl] at hm
    cases hm
  · rw [hmissed hl] at hm
    cases hm

theorem sessionLog_delta (c c' : DrdConf 0) (g : SessionLog) :
    (sessionLog.next g c .delta c').control = g.control ∧
      (c.state.sigHostEnable.rises = false → sessionLog.next g c .delta c' = g) ∧
      (c.state.sigHostEnable.rises = true → c.loc hostThread ≠ .waiting .enablePosedge →
        (sessionLog.next g c .delta c').missed = true) := by
  by_cases hrise : c.state.sigHostEnable.rises = true
  · have hnext : sessionLog.next g c .delta c' = { g with
        edges := g.edges + 1
        missed := g.missed || decide (c.loc hostThread ≠ .waiting .enablePosedge) } := if_pos hrise
    rw [hnext]
    refine ⟨rfl,fun hno => ?_,fun _ hl => ?_⟩
    · rw [hrise] at hno
      cases hno
    · simp [hl]
  · have hnext : sessionLog.next g c .delta c' = g := if_neg hrise
    rw [hnext]
    exact ⟨rfl,fun _ => rfl,fun h => absurd h hrise⟩

theorem hostAt_delta {c : DrdConf 0} (c' : DrdConf 0) (h : HostAt g c.state (c.loc hostThread)) :
    HostAt (sessionLog.next g c .delta c') c.state.update (c.loc hostThread) := by
  obtain ⟨-,hquiet,hmissed⟩ := sessionLog_delta c c' g
  have hdev : c.state.update.hostCtrl.mDev = c.state.hostCtrl.mDev := rfl
  cases hrise : c.state.sigHostEnable.rises with
  | false =>
    rw [hquiet hrise]
    exact h.congr hdev
  | true => exact h.rise hdev (hmissed hrise)

theorem HostAt.wake {w : WaitPoint} (h : HostAt g s (.waiting w)) :
    HostAt g s (.ready (.woke w)) := by
  cases h with
  | off => exact .on
  | stage hw h => exact .staged hw h
  | ring hw h => exact .turn hw h

theorem HostAt.answer {q : Payload} {r : TlmResponse} (h : HostAt g s (.calling q)) :
    HostAt g s (.ready (.returned q r)) := by
  cases h with
  | call hq h => exact .back hq h
  | send hq h => exact .sent hq h

end Interference

theorem sessionSpec_meets :
    Meets hostKernel hostBoot sessionLog cleanSession hostThread sessionSpec where
  loops := sessionSpec_loops
  begins e p hp := by cases hp
  timed := bootWith_wellTimed
  start := by
    refine ⟨⟨fun trb h => (by cases h),.start⟩,fun g s _ hs => ?_⟩
    exact ⟨hs.1,.inl rfl⟩
  refl _ _ := rfl
  trans _ _ _ _ _ _ h h' := h'.trans h
  own g c o hr hloc hok hheld := by
    refine ⟨hheld.1,hheld.2,?_⟩
    rintro w rfl hw
    refine hok ⟨rfl,?_⟩
    obtain hw | ⟨rfl,hfailed⟩ := hw
    · cases w <;> simp_all [inRing]
    · exact .inr (.inr (.inr ⟨hloc,hfailed⟩))
  leave g c o c' hloc _ := by
    have hnext : sessionLog.next g c (.eval hostThread) c' =
        g.run (c.loc hostThread) c.state (c'.loc hostThread) c'.state := by simp [sessionLog]
    rw [hnext,hloc]
    rfl
  peer g c u c' ht hne hh := by
    obtain ⟨-,hctrl,-⟩ := hostCtrl_peer hne ht
    have hnext : sessionLog.next g c (.eval u) c' = g := if_neg hne
    rw [hnext]
    have hring := congrArg HostController.mTransferRing hctrl
    have hdev := congrArg HostController.mDev hctrl
    exact ⟨⟨hh.1.congr hring,hh.2.congr hdev⟩,rfl⟩
  act g c a c' ht ha hh := by
    have hdev := congrArg (·.hostCtrl.mDev) (HostInput.apply_unwritten ha)
    exact ⟨⟨hh.1.input ha,hh.2.congr hdev⟩,rfl⟩
  still g c l c' ht hl hh := by
    cases l with
    | eval u => cases hl
    | act a => cases hl
    | delta => cases hl
    | enter u e => exact ⟨hh,rfl⟩
    | reply u r => exact ⟨hh,rfl⟩
    | advance d => exact ⟨hh,rfl⟩
  delta g c c' ht hready hwait hh := by
    obtain ⟨hctl,-⟩ := sessionLog_delta c c' g
    exact ⟨⟨hh.1.congr rfl,hostAt_delta c' hh.2⟩,hctl⟩
  wake g c c' w' ht hloc hw hh := by
    obtain ⟨hctl,-⟩ := sessionLog_delta c c' g
    have hat := hostAt_delta c' (hloc ▸ hh.2)
    rw [hloc] at hat
    exact ⟨⟨hh.1.congr rfl,hat.wake⟩,hctl⟩
  expire g c d c' w' ht hloc hd hq hh := ⟨⟨hh.1,hh.2.wake⟩,rfl⟩
  answer g c q r c' ht hloc hh := ⟨⟨hh.1,hh.2.answer⟩,rfl⟩
  enter g c e c' ht hloc hh := by cases hh.2

/-- Every transfer of the ring is sent by an enumerated host, whose enumeration began
after the last rising edge of the enable, in every run in which the thread turns to its
ring only after a complete enumeration that no later edge has outdated. -/
theorem fresh_of_cleanSession (g : SessionLog) (c c' : DrdConf 0) (q : Payload)
    (ht : Taken hostKernel hostBoot sessionLog cleanSession g c (.eval hostThread) c')
    (hq : c'.loc hostThread = .calling q) (hbulk : isBulk q) :
    c'.state.hostCtrl.mDev.enumerated = true ∧ g.setBy = some g.edges := by
  obtain ⟨o,-,-,hguar⟩ := sessionSpec_meets.guar ht
  exact hguar q hq hbulk

def enableRun : List HostLabel :=
  [.eval hostThread,.act (.setEnable true),.act (.bulkOut 1 2 [0x55]),.delta,.eval hostThread]

instance (l : Loc WaitPoint Payload TlmResponse) : Decidable (∃ q, l = .calling q ∧ isBulk q) :=
  match l with
  | .calling q => decidable_of_iff (isBulk q) ⟨fun h => ⟨q,rfl,h⟩,fun ⟨_,rfl,h⟩ => h⟩
  | .idle | .ready _ | .waiting _ => isFalse fun ⟨_,h,_⟩ => nomatch h

theorem fresh_enumerated : ∃ g c c', Taken hostKernel hostBoot sessionLog cleanSession g c
    (.eval hostThread) c' ∧ c'.state.hostCtrl.mDev.enumerated = true ∧ g.setBy = some g.edges := by
  obtain ⟨g,c,c',ht,q,hq,hbulk⟩ := exists_taken hostKernel hostBoot sessionLog cleanSession
    (.eval hostThread) (fun _ _ c' => ∃ q, c'.loc hostThread = .calling q ∧ isBulk q)
    (enableRun ++ enumerateRun) (by decide +kernel)
  exact ⟨g,c,c',ht,fresh_of_cleanSession g c c' q ht hq hbulk⟩

/-- The first status stage is refused, and the queued transfer is sent all the same. -/
theorem not_fresh_failedEnumeration : ¬ ∀ g c c' q,
    Taken hostKernel hostBoot sessionLog (fun _ _ _ => True) g c (.eval hostThread) c' →
    c'.loc hostThread = .calling q → isBulk q →
      c'.state.hostCtrl.mDev.enumerated = true ∧ g.setBy = some g.edges := by
  intro h
  obtain ⟨g,c,c',ht,⟨q,hq,hbulk⟩,hdev⟩ := exists_taken hostKernel hostBoot sessionLog
    (fun _ _ _ => True) (.eval hostThread)
    (fun _ _ c' => (∃ q, c'.loc hostThread = .calling q ∧ isBulk q) ∧
      c'.state.hostCtrl.mDev.enumerated = false)
    (enableRun ++ transferRun .genericError) (by decide +kernel)
  obtain ⟨henum,-⟩ := h g c c' q ht hq hbulk
  rw [hdev] at henum
  cases henum

end HostSession
end Usb3Drd
