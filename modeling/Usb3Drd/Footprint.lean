import Usb3Drd.Coop.Calls
import Usb3Drd.Coop.Frame
import Usb3Drd.System

/-! What each process of the device writes. The rest of the state, and the value that
readers currently see of every signal, is the same after each of its evaluations. -/
namespace Usb3Drd

open Coop Proc

/-- The state without what the process writes. Of a signal only the pending value goes. -/
def Process.unwritten : Process → Drd → Drd
  | .roleDetectionProcess, s => { s with
      roleMgr := {}
      sigRole := s.sigRole.write .none
      sigRoleChanged := s.sigRoleChanged.write false }
  | .roleSwitchMonitor, s => { s with
      sigHostEnable := s.sigHostEnable.write false
      sigDevEnable := s.sigDevEnable.write false
      irq := s.irq.write false
      mRegs := .replicate 8 0
      mIntrStatus := 0 }
  | .interruptCollector, s => { s with
      irq := s.irq.write false
      mRegs := .replicate 8 0
      mIntrStatus := 0 }
  | .forwardInputs, s => { s with
      sigCcStateInt := s.sigCcStateInt.write .disconnected
      sigVbusInt := s.sigVbusInt.write false }
  | .hostMainProcess, s => { s with
      hostCtrl := {}
      protocol := {}
      sigXferDone := s.sigXferDone.write false
      sigEnumDone := s.sigEnumDone.write false
      sigDevAddr := s.sigDevAddr.write 0 }
  | .loopbackProcess, s => { s with
      devCtrl := {}
      protocol := {}
      sigBulkIrq := s.sigBulkIrq.write false }

def unwrittenByCall (s : Drd) : Drd :=
  { s with
    hostCtrl := {}
    devCtrl := {}
    protocol := {}
    sigConfigured := s.sigConfigured.write false }

def Tid.unwritten {n : ℕ} : Tid n → Drd → Drd
  | .inl p => p.unwritten
  | .inr _ => unwrittenByCall

def Action.unwritten (s : Drd) : Drd :=
  { s with
    ccState := s.ccState.write .disconnected
    vbus := s.vbus.write false
    irq := s.irq.write false
    roleMgr := { s.roleMgr with
      mHostRequested := false, mDeviceRequested := false, mRoleRequestEvent := false }
    hostCtrl := { s.hostCtrl with mTransferRing := [], mTrbCompleteEvent := false }
    mRegs := .replicate 8 0
    mIntrEnable := 0
    mIntrStatus := 0 }

def Process.runs : Process → Loop → Prop
  | .roleDetectionProcess, l => l = .roleDetection
  | .roleSwitchMonitor, l => l = .roleSwitch
  | .interruptCollector, l => l = .interruptCollector
  | .forwardInputs, l => l = .forwardInputs
  | .hostMainProcess, l => l = .hostMain ∨ l = .transferRing
  | .loopbackProcess, l => l = .loopback

def Tid.runs {n : ℕ} : Tid n → Loop → Prop
  | .inl p => p.runs
  | .inr _ => fun l => ∃ response, l = .returned response

namespace ProtocolLayer
variable {X : Type} {f : Drd → X}

theorem routeTx_keeps (hf : ∀ s p, f { s with protocol := p } = f s) (p : Payload) :
    Keeps f (routeTx p) := by
  unfold routeTx
  split
  · exact .request _
  · refine .bind (.ite (.bind ?_ fun _ => .pure trivial) (.pure trivial)) fun _ => .request _
    exact .bind (.read _) fun _ => .bind (.modify fun s => hf s _) fun _ => .pure trivial

end ProtocolLayer

namespace RoleManager

theorem detectRole_keeps : Keeps Process.roleDetectionProcess.unwritten detectRole := by
  refine .bind (.read _) fun _ => .bind (.read _) fun _ => .ite ?_ (.pure trivial)
  refine .bind (.modify fun _ => rfl) fun _ => .bind (.read _) fun _ => .ite (.pure trivial) ?_
  exact .bind (.modify fun _ => rfl) fun _ => .bind (.sleep _) fun _ => .modify fun _ => rfl

end RoleManager

namespace DrdController

theorem raiseIrq_unwritten (bits : BitVec 32) (s : Drd) :
    Process.interruptCollector.unwritten (raiseIrq bits s) =
      Process.interruptCollector.unwritten s := by
  dsimp only [raiseIrq]
  split <;> rfl

theorem interruptCollector_unwritten (s : Drd) :
    Process.interruptCollector.unwritten (interruptCollector s) =
      Process.interruptCollector.unwritten s := by
  have hregs : ∀ s : Drd, ∀ r, Process.interruptCollector.unwritten { s with mRegs := r } =
      Process.interruptCollector.unwritten s := fun _ _ => rfl
  have hraise : ∀ (c : Bool) bits s,
      Process.interruptCollector.unwritten (if c then raiseIrq bits s else s) =
        Process.interruptCollector.unwritten s := by
    intro c bits s
    split
    · exact raiseIrq_unwritten bits s
    · rfl
  dsimp only [interruptCollector]
  rw [hraise,hraise]
  split
  · rw [hregs,raiseIrq_unwritten]
  · rfl

theorem roleSwitchLoop_keeps :
    KeepsTo Process.roleSwitchMonitor.unwritten (· = .roleSwitch) roleSwitchLoop := by
  have henable : ∀ role s, Process.roleSwitchMonitor.unwritten (enableRole role s) =
      Process.roleSwitchMonitor.unwritten s := by
    intro role s
    unfold enableRole
    repeat' split
    all_goals rfl
  have hraise : ∀ s, Process.roleSwitchMonitor.unwritten (raiseIrq intrRoleChanged s) =
      Process.roleSwitchMonitor.unwritten s := by
    intro s
    dsimp only [raiseIrq]
    split <;> rfl
  refine .bind (.sleep _) fun _ => .bind (.read _) fun role => .bind (.modify fun _ => rfl) fun _ => ?_
  refine .bind (.sleep _) fun _ => .bind (.modify (henable role)) fun _ => ?_
  exact .bind (.modify hraise) fun _ => .pure rfl

end DrdController

namespace HostController

theorem ctrlTransfer_keeps (devAddr : BitVec 8) (setup : Usb3SetupPkt) (dataBuf : List Byte)
    (hostToDevice : Bool) :
    Keeps Process.hostMainProcess.unwritten (ctrlTransfer devAddr setup dataBuf hostToDevice) := by
  have hsend : ∀ p, Keeps Process.hostMainProcess.unwritten (ProtocolLayer.hostBTransport p) :=
    ProtocolLayer.routeTx_keeps fun _ _ => rfl
  refine .bind (hsend _) fun _ => .bind (.sleep _) fun _ => .bind ?_ fun dataBuf => ?_
  · refine .ite (.pure trivial) (.ite ?_ ?_)
    · refine .bind (.read _) fun _ => .ite ?_ (.pure trivial)
      exact .bind (.read _) fun _ => .bind (.modify fun _ => rfl) fun _ => .pure trivial
    · exact .bind (hsend _) fun _ => .bind (.sleep _) fun _ => .pure trivial
  · exact .bind (hsend _) fun _ => .bind (.sleep _) fun _ => .pure trivial

theorem enumerateDevice_keeps : Keeps Process.hostMainProcess.unwritten enumerateDevice := by
  have hdev : ∀ f, Keeps Process.hostMainProcess.unwritten (modifyDev f) := fun f => .modify fun _ => rfl
  have hget : ∀ a t i buf, Keeps Process.hostMainProcess.unwritten (getDescriptor a t i buf) :=
    fun _ _ _ _ => ctrlTransfer_keeps _ _ _ _
  refine .bind (hget _ _ _ _) fun _ => .ite (.pure trivial) (.bind (hdev _) fun _ => .bind ?_ fun _ => ?_)
  · exact .bind (.read _) fun _ => .bind (.modify fun _ => rfl) fun _ => .pure trivial
  refine .bind (.bind (ctrlTransfer_keeps _ _ _ _) fun _ => .pure trivial) fun _ => .ite (.pure trivial) ?_
  refine .bind (hdev _) fun _ => .bind (.modify fun _ => rfl) fun _ => .bind (.sleep _) fun _ => ?_
  refine .bind (.read _) fun _ => .bind (hget _ _ _ _) fun _ => .ite (.pure trivial) ?_
  refine .bind (hdev _) fun _ => .bind (.read _) fun _ => .bind (hget _ _ _ _) fun _ => ?_
  refine .bind (.read _) fun _ => .bind (.bind (ctrlTransfer_keeps _ _ _ _) fun _ => .pure trivial) fun _ => ?_
  refine .ite (.pure trivial) (.bind (hdev _) fun _ => .bind (.modify fun _ => rfl) fun _ => ?_)
  exact .bind (.sleep _) fun _ => .modify fun _ => rfl

theorem runTrb_keeps (trb : Usb3Trb) : Keeps Process.hostMainProcess.unwritten (runTrb trb) := by
  have hreceive : ∀ s, Process.hostMainProcess.unwritten (receive trb s) =
      Process.hostMainProcess.unwritten s := by
    intro s
    unfold receive
    split <;> rfl
  refine .bind (ProtocolLayer.routeTx_keeps (fun _ _ => rfl) _) fun _ => .bind (.modify hreceive) fun _ => ?_
  refine .ite ?_ (.pure trivial)
  exact .bind (.modify fun _ => rfl) fun _ => .bind (.sleep _) fun _ => .modify fun _ => rfl

theorem processTransferRing_keeps :
    KeepsTo Process.hostMainProcess.unwritten Process.hostMainProcess.runs processTransferRing := by
  refine .bind (.read _) fun _ => .ite (.pure (.inl rfl)) (.bind (.read _) fun _ => .ite ?_ ?_)
  · exact .bind (.sleep _) fun _ => .pure (.inr rfl)
  · refine .bind (.bind (.read _) fun ring => ?_) fun trb => .bind (runTrb_keeps trb) fun _ =>
      .pure (.inr rfl)
    split
    · exact .bind (.sleep _) fun _ => .pure trivial
    · exact .bind (.modify fun _ => rfl) fun _ => .pure trivial

theorem hostMainLoop_keeps :
    KeepsTo Process.hostMainProcess.unwritten Process.hostMainProcess.runs hostMainLoop := by
  refine .bind (.bind (.read _) fun _ => .ite (.sleep _) (.pure trivial)) fun _ => ?_
  exact .bind (.modify fun _ => rfl) fun _ => .bind enumerateDevice_keeps fun _ => .pure (.inr rfl)

end HostController

namespace DeviceController
variable {X : Type} {f : Drd → X}

theorem sendToProtocol_keeps (hf : ∀ s p, f { s with protocol := p } = f s) (pktType : Usb3PktType)
    (endpoint : BitVec 8) (direction : Usb3Dir) (data : List Byte) (epType : Usb3EpType) :
    Keeps f (sendToProtocol pktType endpoint direction data epType) :=
  .bind (.read _) fun _ => .bind (ProtocolLayer.routeTx_keeps hf _) fun _ => .pure trivial

theorem loopbackLoop_keeps :
    KeepsTo Process.loopbackProcess.unwritten (· = .loopback) loopbackLoop := by
  refine .bind (.sleep _) fun _ => .bind (.read _) fun _ => .ite (.pure rfl) (.ite ?_ (.pure rfl))
  refine .bind (.modify fun _ => rfl) fun _ => .bind ?_ fun _ => .bind (.modify fun _ => rfl) fun _ => ?_
  · exact sendToProtocol_keeps (fun _ _ => rfl) _ _ _ _ _
  · exact .bind (.sleep _) fun _ => .bind (.modify fun _ => rfl) fun _ => .pure rfl

/-- An observation that is blind to what an inbound call writes. -/
structure BlindToCall {X : Type} (f : Drd → X) : Prop where
  devCtrl : ∀ s d, f { s with devCtrl := d } = f s
  protocol : ∀ s p, f { s with protocol := p } = f s
  configured : ∀ s d v,
    f { s with devCtrl := d, sigConfigured := s.sigConfigured.write v } = f s
  mail : ∀ s data, f (HostController.storeResponse data s) = f s

section Calls
variable {X : Type} {f : Drd → X}

theorem handleSetup_keeps (hf : BlindToCall f) (setup : Usb3SetupPkt) :
    Keeps f (handleSetup setup) := by
  have hsend := sendToProtocol_keeps hf.protocol
  refine .ite ?_ (.ite ?_ (.ite ?_ (.ite ?_ ?_)))
  · refine .bind (.read _) fun _ => ?_
    split
    · exact .bind (hsend _ _ _ _ _) fun _ => .pure trivial
    · exact .bind (hsend _ _ _ _ _) fun _ => .pure trivial
  · refine .bind (.bind (.modify fun s => hf.devCtrl s _) fun _ => .sleep _) fun _ => .pure trivial
  · exact .bind (.modify fun s => hf.configured s _ _) fun _ => .pure trivial
  · exact .bind (hsend _ _ _ _ _) fun _ => .pure trivial
  · exact .bind (hsend _ _ _ _ _) fun _ => .pure trivial

theorem reaction_keeps (hf : BlindToCall f) (p : Payload) (ext : Usb3PktExt) :
    Keeps f (reaction p ext) := by
  have hsend := sendToProtocol_keeps hf.protocol
  have hout : Keeps f (handleBulkOut p) :=
    .bind (.modify fun s => hf.devCtrl s _) fun _ => .pure trivial
  unfold reaction
  split
  · exact handleSetup_keeps hf _
  · exact hout
  · exact hout
  · exact .bind (hsend _ _ _ _ _) fun _ => .pure trivial
  · refine .bind (.read _) fun _ => .ite ?_ (.pure trivial)
    refine .bind (.modify fun s => hf.devCtrl s _) fun _ => ?_
    exact .bind (hsend _ _ _ _ _) fun _ => .pure trivial
  · exact .pure trivial

theorem fromProtoBTransport_keeps (hf : BlindToCall f) (p : Payload) :
    Keeps f (fromProtoBTransport p) := by
  refine .bind (.read _) fun _ => .ite (.pure trivial) ?_
  split
  · exact .pure trivial
  · exact reaction_keeps hf p _

end Calls

end DeviceController

theorem upstreamBTransport_keeps {X : Type} {f : Drd → X} (hf : DeviceController.BlindToCall f)
    (p : Payload) : Keeps f (DrdController.upstreamBTransport p) := by
  have hforward : ∀ p, Keeps f (ProtocolLayer.forwardToActiveController
      HostController.fromProtocolBTransport DeviceController.fromProtoBTransport p) := by
    intro p
    refine .bind (.read _) fun role => ?_
    cases role with
    | host => exact .bind (.modify fun s => hf.mail s _) fun _ => .pure trivial
    | device => exact DeviceController.fromProtoBTransport_keeps hf p
    | none => exact .pure trivial
  unfold DrdController.upstreamBTransport ProtocolLayer.linkBTransport ProtocolLayer.handleRx
  split
  · exact hforward p
  · split
    · exact .pure trivial
    · exact .pure trivial
    · exact .pure trivial
    · exact hforward _
    · exact hforward p

theorem unwrittenByCall_blind : DeviceController.BlindToCall unwrittenByCall where
  devCtrl _ _ := rfl
  protocol _ _ := rfl
  configured _ _ _ := rfl
  mail s data := by
    unfold HostController.storeResponse
    split <;> rfl

def unwrittenByMail (s : Drd) : Drd :=
  { s with
    hostCtrl := { s.hostCtrl with mRespData := [], mRespValid := false }
    devCtrl := {}
    protocol := {}
    sigConfigured := s.sigConfigured.write false }

theorem unwrittenByMail_blind : DeviceController.BlindToCall unwrittenByMail where
  devCtrl _ _ := rfl
  protocol _ _ := rfl
  configured _ _ _ := rfl
  mail s data := by
    unfold HostController.storeResponse
    split <;> rfl

/-- The host controller but for its mailbox, and the signals that it drives. -/
def hostSide (s : Drd) : HostController × Sig Bool × Sig Bool × Sig (BitVec 8) :=
  ({ s.hostCtrl with mRespData := [], mRespValid := false },s.sigXferDone,s.sigEnumDone,s.sigDevAddr)

section Runs
variable {A γ : Type} {n : ℕ} {act : A → Drd → Option Drd} {present : Process → Bool}

theorem loopCode_keeps (p : Process) (l : Loop) (body : DrdProc Loop) (hl : p.runs l)
    (hbody : loopCode l = some body) : KeepsTo p.unwritten p.runs body := by
  cases p with
  | hostMainProcess =>
    obtain rfl | rfl := hl
    · cases hbody
      exact HostController.hostMainLoop_keeps
    · cases hbody
      exact HostController.processTransferRing_keeps
  | roleDetectionProcess =>
    cases hl; cases hbody
    exact .bind (.sleep _) fun _ => .bind RoleManager.detectRole_keeps fun _ => .pure rfl
  | roleSwitchMonitor => cases hl; cases hbody; exact DrdController.roleSwitchLoop_keeps
  | interruptCollector =>
    cases hl; cases hbody
    exact .bind (.sleep _) fun _ =>
      .bind (.modify DrdController.interruptCollector_unwritten) fun _ => .pure rfl
  | forwardInputs =>
    cases hl; cases hbody
    exact .bind (.sleep _) fun _ => .bind (.modify fun _ => rfl) fun _ => .pure rfl
  | loopbackProcess => cases hl; cases hbody; exact DeviceController.loopbackLoop_keeps

theorem start_keeps (p : Process) : p.start.Keeps p.unwritten p.runs := by
  cases p with
  | roleDetectionProcess => exact KeepsTo.bind (.modify fun _ => rfl) fun _ => .pure rfl
  | roleSwitchMonitor => exact KeepsTo.bind (.modify fun _ => rfl) fun _ => .pure rfl
  | interruptCollector =>
    exact KeepsTo.bind (.modify DrdController.interruptCollector_unwritten) fun _ => .pure rfl
  | forwardInputs => exact KeepsTo.bind (.modify fun _ => rfl) fun _ => .pure rfl
  | hostMainProcess => exact KeepsTo.bind (.modify fun _ => rfl) fun _ => .pure (.inl rfl)
  | loopbackProcess => exact KeepsTo.pure rfl

/-- Whatever the calls are blind to, every run keeps. -/
theorem footprintOf {f : Drd → Drd} (hf : DeviceController.BlindToCall f) :
    Footprint (kernelOf n act) (bootWith n present)
      (fun t => Sum.elim Process.unwritten (fun _ => f) t) Tid.runs where
  code t l body hl hbody := by
    match t with
    | .inl p => exact loopCode_keeps p l body hl hbody
    | .inr _ =>
      obtain ⟨response,rfl⟩ := hl
      cases hbody
  entry t e p hp := by
    match t with
    | .inl _ => cases hp
    | .inr _ =>
      cases hp
      exact .bind (upstreamBTransport_keeps hf e) fun _ => .pure ⟨_,rfl⟩
  boot t := by
    match t with
    | .inl p =>
      simp only [bootWith]
      split
      · exact start_keeps p
      · trivial
    | .inr _ => trivial

theorem taken_unwritten {w : Watch γ Drd WaitPoint Payload TlmResponse Loop A Payload (Tid n)}
    {ok : γ → DrdConf n → DrdLabel A n → Prop} {g : γ} {c c' : DrdConf n} {t : Tid n}
    (ht : Taken (kernelOf n act) (bootWith n present) w ok g c (.eval t) c') :
    t.unwritten c'.state = t.unwritten c.state := by
  have hkeep := (footprintOf unwrittenByCall_blind).taken ht
  match t with
  | .inl _ => exact hkeep
  | .inr _ => exact hkeep

theorem hostSide_peer {w : Watch γ Drd WaitPoint Payload TlmResponse Loop A Payload (Tid n)}
    {ok : γ → DrdConf n → DrdLabel A n → Prop} {g : γ} {c c' : DrdConf n} {t : Tid n}
    (hne : t ≠ hostThread)
    (ht : Taken (kernelOf n act) (bootWith n present) w ok g c (.eval t) c') :
    hostSide c'.state = hostSide c.state := by
  have hkeep := (footprintOf unwrittenByMail_blind).taken ht
  have hside := congrArg hostSide hkeep
  match t with
  | .inl p =>
    cases p with
    | hostMainProcess => exact absurd rfl hne
    | _ => exact hside
  | .inr _ => exact hside

theorem enables_eval {w : Watch γ Drd WaitPoint Payload TlmResponse Loop A Payload (Tid n)}
    {ok : γ → DrdConf n → DrdLabel A n → Prop} {g : γ} {c c' : DrdConf n} {t : Tid n}
    (ht : Taken (kernelOf n act) (bootWith n present) w ok g c (.eval t) c') :
    c'.state.sigHostEnable.cur = c.state.sigHostEnable.cur ∧
      c'.state.sigDevEnable.cur = c.state.sigDevEnable.cur := by
  have hkeep := taken_unwritten ht
  have hhost := congrArg (·.sigHostEnable.cur) hkeep
  have hdev := congrArg (·.sigDevEnable.cur) hkeep
  rcases t with p | i
  · cases p with
    | _ => exact ⟨hhost,hdev⟩
  · exact ⟨hhost,hdev⟩

end Runs

section Turns
variable {A γ : Type} {n : ℕ} {act : A → Drd → Option Drd} {present : Process → Bool}
  {w : Watch γ Drd WaitPoint Payload TlmResponse Loop A Payload (Tid n)}
  {ok : γ → DrdConf n → DrdLabel A n → Prop} {g : γ} {c c' : DrdConf n}

open DrdController

/-- One evaluation of `roleSwitchMonitor`. -/
def monitorTurn : Origin WaitPoint Payload TlmResponse → Drd → Loc WaitPoint Payload TlmResponse →
    Drd → Prop
  | .start, s, l, s' => l = .waiting .roleSwitch ∧ s' = disableBoth s
  | .woke .roleSwitch, s, l, s' => l = .waiting .roleSettle ∧ s' = disableBoth s
  | .woke .roleSettle, s, l, s' => l = .waiting .roleSwitch ∧
      ∃ role, s' = raiseIrq intrRoleChanged (enableRole role s)
  | _, _, _, _ => False

def monitorHead (l : Loop) (x : Trail Unit Drd WaitPoint Payload TlmResponse) : Prop :=
  l = .roleSwitch ∧ monitorTurn x.origin x.start (.waiting .roleSwitch) x.state

theorem monitor_loops : (Spec.evals monitorTurn monitorHead).Loops loopCode := by
  rintro l x ⟨rfl,hturn⟩
  simp only [loopCode,Spec.Safe,roleSwitchLoop,Proc.wp_bind,Proc.wp_sleep,Spec.setting_onWait,
    Spec.wp_read,Spec.wp_modify]
  exact ⟨⟨hturn,trivial⟩,fun g s _ => ⟨⟨⟨rfl,rfl⟩,trivial⟩,fun g' s' _ => ⟨rfl,rfl,_,rfl⟩⟩⟩

/-- The monitor does no more than the three kinds of turn that its code has. -/
theorem monitor_turn
    (ht : Taken (kernelOf n act) (bootWith n present) w ok g c (.eval monitorThread) c') :
    ∃ o, c.loc monitorThread = .ready o ∧
      monitorTurn o c.state (c'.loc monitorThread) c'.state := by
  have hm : Meets (kernelOf n act) (bootWith n present) noWatch (fun _ _ _ => True) monitorThread
      (Spec.evals monitorTurn monitorHead) := by
    refine .plain monitor_loops (fun e p hp => by cases hp) bootWith_wellTimed ?_
      (fun _ _ _ _ _ _ => trivial) (fun _ _ _ _ _ _ => rfl)
    simp only [bootWith]
    split
    · exact ⟨trivial,fun _ _ _ _ => ⟨rfl,rfl,rfl⟩⟩
    · trivial
  obtain ⟨o,hloc,-,hturn⟩ := hm.guar ht.forget
  exact ⟨o,hloc,hturn⟩

theorem collector_turn
    (ht : Taken (kernelOf n act) (bootWith n present) w ok g c (.eval collectorThread) c') :
    c'.state = interruptCollector c.state := by
  let head (l : Loop) (x : Trail Unit Drd WaitPoint Payload TlmResponse) : Prop :=
    l = .interruptCollector ∧ x.state = interruptCollector x.start
  have hloops : (Spec.evals (fun _ s _ s' => s' = interruptCollector s) head).Loops loopCode := by
    rintro l x ⟨rfl,hturn⟩
    simp only [loopCode,Spec.Safe,methodLoop,Proc.wp_bind,Proc.wp_sleep,Spec.setting_onWait]
    exact ⟨⟨hturn,trivial⟩,fun _ _ _ => ⟨rfl,rfl⟩⟩
  have hm : Meets (kernelOf n act) (bootWith n present) noWatch (fun _ _ _ => True)
      collectorThread (Spec.evals (fun _ s _ s' => s' = interruptCollector s) head) := by
    refine .plain hloops (fun e p hp => by cases hp) bootWith_wellTimed ?_
      (fun _ _ _ _ _ _ => trivial) (fun _ _ _ _ _ _ => rfl)
    simp only [bootWith]
    split
    · exact ⟨trivial,fun _ _ _ _ => ⟨rfl,rfl⟩⟩
    · trivial
  obtain ⟨o,-,-,hturn⟩ := hm.guar ht.forget
  exact hturn

end Turns

theorem Action.apply_unwritten {a : Action} {s s' : Drd} (h : a.apply s = some s') :
    Action.unwritten s' = Action.unwritten s := by
  cases a with
  | setCcState cc => cases h; rfl
  | setVbus v => cases h; rfl
  | cfgAccess p =>
    cases h
    simp only [DrdController.cfgBTransport]
    split
    · rfl
    · split
      · rfl
      · simp only [DrdController.writeReg]
        repeat' split
        all_goals rfl
  | bulkOut a ep data =>
    obtain ⟨ring,-,rfl⟩ := Option.map_eq_some_iff.mp h
    rfl
  | bulkIn a ep len =>
    obtain ⟨ring,-,rfl⟩ := Option.map_eq_some_iff.mp h
    rfl

end Usb3Drd
