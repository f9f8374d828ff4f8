import Usb3Drd.Coop.Confine
import Usb3Drd.Footprint

/-! What the stretches of each process do to the state, as effects that commute with those of
every other process. Monitor and collector both raise interrupts, in either order. -/
namespace Usb3Drd

open Coop Proc DrdController

/-- The changes that the stretches of a process are made of. None of them notifies an event
that the process itself waits for. -/
inductive Process.Effect : Process → Function.End Drd → Prop
  | role (mRole role : Usb3Role) (host device changed : Bool) :
    Effect .roleDetectionProcess fun s => { s with
      roleMgr := ⟨mRole,host,device,s.roleMgr.mRoleRequestEvent⟩
      sigRole := s.sigRole.write role
      sigRoleChanged := s.sigRoleChanged.write changed }
  | enables (host device : Bool) : Effect .roleSwitchMonitor fun s => { s with
      sigHostEnable := s.sigHostEnable.write host
      sigDevEnable := s.sigDevEnable.write device }
  | raise {p : Process} (hp : p = .roleSwitchMonitor ∨ p = .interruptCollector) (bits : BitVec 32) :
    Effect p (raiseIrq bits)
  | addrReg (v : BitVec 32) : Effect .interruptCollector fun s => { s with mRegs := s.mRegs.set 5 v (by decide) }
  | inputs (cc : UsbCCcState) (vb : Bool) : Effect .forwardInputs fun s => { s with
      sigCcStateInt := s.sigCcStateInt.write cc
      sigVbusInt := s.sigVbusInt.write vb }
  | host (h : HostController) (layer : ProtocolLayer) (xfer enumerated : Bool) (addr : BitVec 8) :
    Effect .hostMainProcess fun s => { s with
      hostCtrl := { h with mTrbCompleteEvent := s.hostCtrl.mTrbCompleteEvent }
      protocol := layer
      sigXferDone := s.sigXferDone.write xfer
      sigEnumDone := s.sigEnumDone.write enumerated
      sigDevAddr := s.sigDevAddr.write addr }
  | loopback (d : DeviceController) (bulk : Bool) : Effect .loopbackProcess fun s => { s with
      devCtrl := { d with mOutEpEvent := s.devCtrl.mOutEpEvent }
      sigBulkIrq := s.sigBulkIrq.write bulk }

inductive CallEffect : Function.End Drd → Prop
  | call (h : HostController) (d : DeviceController) (layer : ProtocolLayer) (configured : Bool) :
    CallEffect fun s => { s with
      hostCtrl := { h with mTrbCompleteEvent := s.hostCtrl.mTrbCompleteEvent }
      devCtrl := d
      protocol := layer
      sigConfigured := s.sigConfigured.write configured }

/-- The processes that work on what an inbound call changes. -/
def Process.sharesCalls : Process → Bool
  | .hostMainProcess => true
  | .loopbackProcess => true
  | _ => false

namespace DrdController

theorem raiseIrq_raiseIrq (bits bits' : BitVec 32) (s : Drd) :
    raiseIrq bits (raiseIrq bits' s) = raiseIrq (bits' ||| bits) s := by
  have hmore : (s.mIntrStatus ||| bits') &&& s.mIntrEnable ≠ 0 →
      (s.mIntrStatus ||| (bits' ||| bits)) &&& s.mIntrEnable ≠ 0 := by
    intro h hzero
    rw [← BitVec.or_assoc,BitVec.and_or_distrib_right] at hzero
    exact h (BitVec.or_eq_zero_iff.mp hzero).1
  by_cases h : (s.mIntrStatus ||| bits') &&& s.mIntrEnable ≠ 0
  · simp only [raiseIrq,if_pos h,BitVec.or_assoc,if_pos (hmore h),Vector.set_set]
    rfl
  · simp only [raiseIrq,if_neg h,BitVec.or_assoc]

theorem raiseIrq_comm (bits bits' : BitVec 32) (s : Drd) :
    raiseIrq bits (raiseIrq bits' s) = raiseIrq bits' (raiseIrq bits s) := by
  rw [raiseIrq_raiseIrq,raiseIrq_raiseIrq,BitVec.or_comm]

theorem raiseIrq_setReg (bits v : BitVec 32) (s : Drd) :
    raiseIrq bits { s with mRegs := s.mRegs.set 5 v (by decide) } =
      { raiseIrq bits s with mRegs := (raiseIrq bits s).mRegs.set 5 v (by decide) } := by
  dsimp only [raiseIrq]
  split
  · rw [Vector.set_comm _ _ (by decide)]
  · rfl

end DrdController

theorem Process.Effect.raise_comm {p : Process} {e : Function.End Drd} (he : p.Effect e)
    (bits : BitVec 32) (s : Drd) : raiseIrq bits (e s) = e (raiseIrq bits s) := by
  cases he with
  | raise hp bits' => exact raiseIrq_comm bits bits' s
  | addrReg v => exact raiseIrq_setReg bits v s
  | _ => dsimp only [raiseIrq]; split <;> rfl

/-- Effects of different processes commute. -/
theorem Process.Effect.comm {p q : Process} (hpq : p ≠ q) {e e' : Function.End Drd}
    (he : p.Effect e) (he' : q.Effect e') : Commute e e' := by
  funext s
  show e (e' s) = e' (e s)
  have hraise := he.raise_comm
  have hraise' := he'.raise_comm
  cases he' with
  | raise hq bits => exact (hraise bits s).symm
  | _ =>
    cases he with
    | raise hp bits => exact hraise' bits s
    | _ => first | exact absurd rfl hpq | rfl

theorem CallEffect.raise_comm {e : Function.End Drd} (he : CallEffect e) (bits : BitVec 32)
    (s : Drd) : raiseIrq bits (e s) = e (raiseIrq bits s) := by
  cases he with
  | call => dsimp only [raiseIrq]; split <;> rfl

/-- An inbound call commutes with the processes that do not share its state. -/
theorem CallEffect.comm {p : Process} (hp : p.sharesCalls = false) {e e' : Function.End Drd}
    (he : p.Effect e) (he' : CallEffect e') : Commute e e' := by
  funext s
  show e (e' s) = e' (e s)
  have hraise := he'.raise_comm
  cases he' with
  | call => cases he with
    | host => cases hp
    | loopback => cases hp
    | raise hq bits => exact hraise bits s
    | _ => rfl

/-- What the stretches of a process may do to the state, and what may happen to it between them
without making a difference. -/
def Process.own (p : Process) : Submonoid (Function.End Drd) := .closure {e | p.Effect e}

def Process.changes (p : Process) : Set (Function.End Drd) :=
  {e | (∃ q, p ≠ q ∧ q.Effect e) ∨ p.sharesCalls = false ∧ CallEffect e}

def callOwn : Submonoid (Function.End Drd) := .closure {e | CallEffect e}

def callChanges : Set (Function.End Drd) := {e | ∃ q : Process, q.sharesCalls = false ∧ q.Effect e}

theorem Process.Effect.mem {p : Process} {e : Function.End Drd} (h : p.Effect e) : e ∈ p.own :=
  Submonoid.subset_closure h

theorem Process.own_le {p q : Process} (hpq : p ≠ q) : q.own ≤ .closure p.changes :=
  Submonoid.closure_mono fun _ he => .inl ⟨q,hpq,he⟩

theorem callOwn_le {p : Process} (hp : p.sharesCalls = false) : callOwn ≤ .closure p.changes :=
  Submonoid.closure_mono fun _ he => .inr ⟨hp,he⟩

theorem own_le_call {p : Process} (hp : p.sharesCalls = false) : p.own ≤ .closure callChanges :=
  Submonoid.closure_mono fun _ he => ⟨p,hp,he⟩

theorem Process.sees {V : Type} {p : Process} {view : Drd → V}
    (hproc : ∀ q e, p ≠ q → q.Effect e → ∀ s, view (e s) = view s)
    (hcall : p.sharesCalls = false → ∀ e, CallEffect e → ∀ s, view (e s) = view s) :
    Sees p.own p.changes view where
  view b hb := by
    obtain ⟨q,hpq,hb⟩ | ⟨hp,hb⟩ := hb
    · exact hproc q b hpq hb
    · exact hcall hp b hb
  comm e he b hb := by
    obtain ⟨q,hpq,hb⟩ | ⟨hp,hb⟩ := hb
    · exact commute_closure (fun _ hx _ hy => hx.comm hpq hy) he hb.mem
    · exact commute_closure (fun _ hx _ hy => CallEffect.comm hp hx hy) he
        (Submonoid.subset_closure hb)

/-- The process that waits at a point; inbound calls wait at the one that has none. -/
def WaitPoint.owner : WaitPoint → Option Process
  | .roleInputs | .rolePulse => some .roleDetectionProcess
  | .roleSwitch | .roleSettle => some .roleSwitchMonitor
  | .interruptSources => some .interruptCollector
  | .externalInputs => some .forwardInputs
  | .enablePosedge | .setupStage | .dataStage | .statusStage | .addrSettle | .enumPulse |
    .trbComplete | .xferPulse | .assertion => some .hostMainProcess
  | .outEp | .bulkIrqPulse => some .loopbackProcess
  | .setAddressSettle => none

abbrev Process.Confines (p : Process) {α : Type} (post : α → Prop) (prog : DrdProc α) : Prop :=
  prog.Confined p.own (.closure p.changes) (·.owner = some p) post

section Processes

namespace RoleManager

def view (s : Drd) : RoleManager × UsbCCcState × Bool × Usb3Role × Bool :=
  (s.roleMgr,s.sigCcStateInt.cur,s.sigVbusInt.cur,s.sigRole.nxt,s.sigRoleChanged.nxt)

theorem sees : Sees Process.roleDetectionProcess.own Process.roleDetectionProcess.changes view := by
  refine Process.sees (fun q e hpq he s => ?_) fun _ e ⟨_,_,_,_⟩ s => rfl
  cases he with
  | role => exact absurd rfl hpq
  | raise hq bits => dsimp only [raiseIrq]; split <;> rfl
  | _ => rfl

theorem writes (mRole role : _ → Usb3Role) (host device changed : _ → Bool) :
    Process.roleDetectionProcess.Confines (fun _ => True) (Proc.modify fun s => { s with
      roleMgr := ⟨mRole (view s),host (view s),device (view s),s.roleMgr.mRoleRequestEvent⟩
      sigRole := s.sigRole.write (role (view s))
      sigRoleChanged := s.sigRoleChanged.write (changed (view s)) }) :=
  sees.modify _ fun v => (Process.Effect.role (mRole v) (role v) (host v) (device v) (changed v)).mem

theorem detectRole_confined : Process.roleDetectionProcess.Confines (fun _ => True) detectRole := by
  have hclear := writes (·.1.mRole) (·.2.2.2.1) (fun _ => false) (fun _ => false) (·.2.2.2.2)
  have hbegin := fun r : Usb3Role => writes (fun _ => r) (fun _ => r) (·.1.mHostRequested)
    (·.1.mDeviceRequested) fun _ => true
  have hend := writes (·.1.mRole) (·.2.2.2.1) (·.1.mHostRequested) (·.1.mDeviceRequested) fun _ => false
  refine .bind (sees.read fun v => desiredRole v.2.1 v.2.2.1) fun _ =>
    .bind (sees.read (·.1)) fun _ => .ite (.bind hclear fun _ => ?_) (.pure trivial)
  refine .bind (sees.read (·.1.mRole)) fun _ => .ite (.pure trivial) ?_
  exact .bind (hbegin _) fun _ => .bind (.sleep rfl) fun _ => hend

theorem start_confined :
    Process.roleDetectionProcess.Confines (· = .roleDetection) roleDetectionProcess :=
  .bind (writes (·.1.mRole) (fun _ => .none) (·.1.mHostRequested) (·.1.mDeviceRequested)
    fun _ => false) fun _ => .pure rfl

end RoleManager

namespace DrdController

def monitorView (s : Drd) : Usb3Role × Bool × Bool :=
  (s.sigRole.cur,s.sigHostEnable.nxt,s.sigDevEnable.nxt)

theorem monitor_sees :
    Sees Process.roleSwitchMonitor.own Process.roleSwitchMonitor.changes monitorView := by
  refine Process.sees (fun q e hpq he s => ?_) fun _ e ⟨_,_,_,_⟩ s => rfl
  cases he with
  | enables => exact absurd rfl hpq
  | raise hq bits => dsimp only [raiseIrq]; split <;> rfl
  | _ => rfl

theorem writesEnables (host device : Usb3Role × Bool × Bool → Bool) :
    Process.roleSwitchMonitor.Confines (fun _ => True) (Proc.modify fun s => { s with
      sigHostEnable := s.sigHostEnable.write (host (monitorView s))
      sigDevEnable := s.sigDevEnable.write (device (monitorView s)) }) :=
  monitor_sees.modify _ fun v => (Process.Effect.enables (host v) (device v)).mem

theorem enableRole_confined (role : Usb3Role) :
    Process.roleSwitchMonitor.Confines (fun _ => True) (Proc.modify (enableRole role)) := by
  cases role with
  | none => exact writesEnables (·.2.1) (·.2.2)
  | host => exact writesEnables (fun _ => true) (·.2.2)
  | device => exact writesEnables (·.2.1) fun _ => true

theorem roleSwitchLoop_confined :
    Process.roleSwitchMonitor.Confines (· = .roleSwitch) roleSwitchLoop := by
  have hraise : Process.roleSwitchMonitor.Confines (fun _ => True)
      (Proc.modify (raiseIrq intrRoleChanged)) :=
    monitor_sees.modify (fun _ => raiseIrq intrRoleChanged) fun _ => (Process.Effect.raise (.inl rfl) _).mem
  refine .bind (.sleep rfl) fun _ => .bind (monitor_sees.read (·.1)) fun role => .bind ?_ fun _ => ?_
  · exact writesEnables (fun _ => false) fun _ => false
  · exact .bind (.sleep rfl) fun _ => .bind (enableRole_confined role) fun _ => .bind hraise fun _ =>
      .pure rfl

theorem monitor_confined :
    Process.roleSwitchMonitor.Confines (· = .roleSwitch) roleSwitchMonitor :=
  .bind (writesEnables (fun _ => false) fun _ => false) fun _ => .pure rfl

def collectorView (s : Drd) : Bool × Bool × Bool × BitVec 8 :=
  (s.sigEnumDone.cur,s.sigXferDone.cur,s.sigBulkIrq.cur,s.sigDevAddr.cur)

theorem collector_sees :
    Sees Process.interruptCollector.own Process.interruptCollector.changes collectorView := by
  refine Process.sees (fun q e hpq he s => ?_) fun _ e ⟨_,_,_,_⟩ s => rfl
  cases he with
  | addrReg => exact absurd rfl hpq
  | raise hq bits => dsimp only [raiseIrq]; split <;> rfl
  | _ => rfl

def raising (c : Bool) (bits : BitVec 32) (s : Drd) : Drd := if c then raiseIrq bits s else s

theorem addrReg_lt : 5 < 8 := by decide

def collect (v : Bool × Bool × Bool × BitVec 8) (s : Drd) : Drd :=
  let s := raising v.1 intrEnumDone s
  let s := if v.1 then { s with mRegs := s.mRegs.set 5 (v.2.2.2.setWidth 32) addrReg_lt } else s
  raising v.2.2.1 intrBulkIrq (raising v.2.1 intrXferDone s)

theorem raising_mem (c : Bool) (bits : BitVec 32) :
    (raising c bits : Function.End Drd) ∈ Process.interruptCollector.own := by
  cases c with
  | true => exact (Process.Effect.raise (.inr rfl) bits).mem
  | false => exact Process.interruptCollector.own.one_mem

theorem collect_mem (v : Bool × Bool × Bool × BitVec 8) :
    (collect v : Function.End Drd) ∈ Process.interruptCollector.own := by
  obtain ⟨enumerated,xfer,bulk,addr⟩ := v
  have hmul := @Process.interruptCollector.own.mul_mem
  have hpulses := hmul (raising_mem bulk intrBulkIrq) (raising_mem xfer intrXferDone)
  cases enumerated with
  | true =>
    exact hmul hpulses (hmul (Process.Effect.addrReg (addr.setWidth 32)).mem
      (raising_mem true intrEnumDone))
  | false => exact hpulses

theorem interruptCollector_eq : interruptCollector = fun s => collect (collectorView s) s := by
  funext s
  have haddr : (raiseIrq intrEnumDone s).sigDevAddr = s.sigDevAddr := by
    dsimp only [raiseIrq]
    split <;> rfl
  cases henum : s.sigEnumDone.cur <;> cases hxfer : s.sigXferDone.cur <;>
    cases hbulk : s.sigBulkIrq.cur <;>
      simp [interruptCollector,collect,collectorView,raising,henum,hxfer,hbulk,haddr]

theorem collector_confined : Process.interruptCollector.Confines (· = Loop.interruptCollector)
    (do Proc.modify interruptCollector; pure .interruptCollector) := by
  refine .bind ?_ fun _ => .pure rfl
  rw [interruptCollector_eq]
  exact collector_sees.modify collect collect_mem

theorem forwardInputs_confined : Process.forwardInputs.Confines (· = Loop.forwardInputs)
    (do Proc.modify forwardInputs; pure .forwardInputs) := by
  have hsees : Sees Process.forwardInputs.own Process.forwardInputs.changes
      fun s : Drd => (s.ccState.cur,s.vbus.cur) := by
    refine Process.sees (fun q e hpq he s => ?_) fun _ e ⟨_,_,_,_⟩ s => rfl
    cases he with
    | inputs => exact absurd rfl hpq
    | raise hq bits => dsimp only [raiseIrq]; split <;> rfl
    | _ => rfl
  exact .bind (hsees.modify _ fun v => (Process.Effect.inputs v.1 v.2).mem) fun _ => .pure rfl

end DrdController

namespace HostController

def view (s : Drd) : HostController × ProtocolLayer × Bool × Bool × Bool × BitVec 8 :=
  (s.hostCtrl,s.protocol,s.sigHostEnable.cur,s.sigXferDone.nxt,s.sigEnumDone.nxt,s.sigDevAddr.nxt)

theorem sees : Sees Process.hostMainProcess.own Process.hostMainProcess.changes view := by
  refine Process.sees (fun q e hpq he s => ?_) nofun
  cases he with
  | host => exact absurd rfl hpq
  | raise hq bits => dsimp only [raiseIrq]; split <;> rfl
  | _ => rfl

theorem writes (h : _ → HostController) (layer : _ → ProtocolLayer) (xfer enumerated : _ → Bool)
    (addr : _ → BitVec 8) : Process.hostMainProcess.Confines (fun _ => True)
      (Proc.modify fun s => { s with
        hostCtrl := { h (view s) with mTrbCompleteEvent := s.hostCtrl.mTrbCompleteEvent }
        protocol := layer (view s)
        sigXferDone := s.sigXferDone.write (xfer (view s))
        sigEnumDone := s.sigEnumDone.write (enumerated (view s))
        sigDevAddr := s.sigDevAddr.write (addr (view s)) }) :=
  sees.modify _ fun v => (Process.Effect.host (h v) (layer v) (xfer v) (enumerated v) (addr v)).mem

theorem writesCtrl (h : HostController → HostController) :
    Process.hostMainProcess.Confines (fun _ => True) (Proc.modify fun s => { s with
      hostCtrl := { h s.hostCtrl with mTrbCompleteEvent := s.hostCtrl.mTrbCompleteEvent } }) :=
  writes (fun v => h v.1) (·.2.1) (·.2.2.2.1) (·.2.2.2.2.1) (·.2.2.2.2.2)

theorem routeTx_confined (p : Payload) :
    Process.hostMainProcess.Confines (fun _ => True) (ProtocolLayer.routeTx p) := by
  have hseq : Process.hostMainProcess.Confines (fun _ => True) ProtocolLayer.nextSeq := by
    refine .bind (sees.read (·.2.1.mSeqNum)) fun n => .bind ?_ fun _ => .pure trivial
    exact writes (·.1) (fun v => { v.2.1 with mSeqNum := n+1 }) (·.2.2.2.1) (·.2.2.2.2.1)
      (·.2.2.2.2.2)
  unfold ProtocolLayer.routeTx
  split
  · exact .request _
  · exact .bind (.ite (.bind hseq fun _ => .pure trivial) (.pure trivial)) fun _ => .request _

theorem writeXferDone_confined (v : Bool) :
    Process.hostMainProcess.Confines (fun _ => True) (Proc.modify (writeXferDone v)) :=
  writes (·.1) (·.2.1) (fun _ => v) (·.2.2.2.2.1) (·.2.2.2.2.2)

theorem writeEnumDone_confined (v : Bool) :
    Process.hostMainProcess.Confines (fun _ => True) (Proc.modify (writeEnumDone v)) :=
  writes (·.1) (·.2.1) (·.2.2.2.1) (fun _ => v) (·.2.2.2.2.2)

theorem ctrlTransfer_confined (devAddr : BitVec 8) (setup : Usb3SetupPkt) (dataBuf : List Byte)
    (hostToDevice : Bool) : Process.hostMainProcess.Confines (fun _ => True)
      (ctrlTransfer devAddr setup dataBuf hostToDevice) := by
  have hsend : ∀ p, Process.hostMainProcess.Confines (fun _ => True) (ProtocolLayer.hostBTransport p) :=
    routeTx_confined
  have hdrain : Process.hostMainProcess.Confines (fun _ => True) (Proc.modify drain) :=
    writesCtrl fun h => { h with mRespData := [], mRespValid := false }
  refine .bind (hsend _) fun _ => .bind (.sleep rfl) fun _ => .bind ?_ fun dataBuf => ?_
  · refine .ite (.pure trivial) (.ite ?_ ?_)
    · refine .bind (sees.read (·.1.mRespValid)) fun _ => .ite ?_ (.pure trivial)
      exact .bind (sees.read (·.1.mRespData)) fun _ => .bind hdrain fun _ => .pure trivial
    · exact .bind (hsend _) fun _ => .bind (.sleep rfl) fun _ => .pure trivial
  · exact .bind (hsend _) fun _ => .bind (.sleep rfl) fun _ => .pure trivial

theorem enumerateDevice_confined :
    Process.hostMainProcess.Confines (fun _ => True) enumerateDevice := by
  have hdev : ∀ f, Process.hostMainProcess.Confines (fun _ => True) (modifyDev f) :=
    fun f => writesCtrl fun h => { h with mDev := f h.mDev }
  have hget : ∀ a t i buf, Process.hostMainProcess.Confines (fun _ => True) (getDescriptor a t i buf) :=
    fun _ _ _ _ => ctrlTransfer_confined _ _ _ _
  have htake : Process.hostMainProcess.Confines (fun _ => True) takeAddr :=
    .bind (sees.read (·.1.mNextAddr)) fun a =>
      .bind (writesCtrl fun h => { h with mNextAddr := a+1 }) fun _ => .pure trivial
  have haddr : ∀ a, Process.hostMainProcess.Confines (fun _ => True)
      (Proc.modify fun s => { s with sigDevAddr := s.sigDevAddr.write a }) :=
    fun a => writes (·.1) (·.2.1) (·.2.2.2.1) (·.2.2.2.2.1) fun _ => a
  have hread : Process.hostMainProcess.Confines (fun _ => True) (Proc.read (·.hostCtrl.mDev.addr)) :=
    sees.read (·.1.mDev.addr)
  refine .bind (hget _ _ _ _) fun _ => .ite (.pure trivial) (.bind (hdev _) fun _ => .bind htake fun _ => ?_)
  refine .bind (.bind (ctrlTransfer_confined _ _ _ _) fun _ => .pure trivial) fun _ =>
    .ite (.pure trivial) ?_
  refine .bind (hdev _) fun _ => .bind (haddr _) fun _ => .bind (.sleep rfl) fun _ => ?_
  refine .bind hread fun _ => .bind (hget _ _ _ _) fun _ => .ite (.pure trivial) ?_
  refine .bind (hdev _) fun _ => .bind hread fun _ => .bind (hget _ _ _ _) fun _ => ?_
  refine .bind hread fun _ => .bind (.bind (ctrlTransfer_confined _ _ _ _) fun _ => .pure trivial) fun _ => ?_
  refine .ite (.pure trivial) (.bind (hdev _) fun _ => .bind (writeEnumDone_confined true) fun _ => ?_)
  exact .bind (.sleep rfl) fun _ => writeEnumDone_confined false

theorem runTrb_confined (trb : Usb3Trb) :
    Process.hostMainProcess.Confines (fun _ => True) (runTrb trb) := by
  have hreceive : Process.hostMainProcess.Confines (fun _ => True) (Proc.modify (receive trb)) := by
    have heq : receive trb = fun s => { s with hostCtrl :=
        { (if trb.direction = .deviceToHost ∧ s.hostCtrl.mRespValid = true then { s.hostCtrl with
            mRxBuf := s.hostCtrl.mRespData, mRespData := [], mRespValid := false }
          else s.hostCtrl) with mTrbCompleteEvent := s.hostCtrl.mTrbCompleteEvent } } := by
      funext s
      unfold receive
      split <;> rfl
    rw [heq]
    exact writesCtrl fun h => if trb.direction = .deviceToHost ∧ h.mRespValid = true then { h with
      mRxBuf := h.mRespData, mRespData := [], mRespValid := false } else h
  refine .bind (routeTx_confined _) fun _ => .bind hreceive fun _ => .ite ?_ (.pure trivial)
  exact .bind (writeXferDone_confined true) fun _ => .bind (.sleep rfl) fun _ =>
    writeXferDone_confined false

theorem processTransferRing_confined :
    Process.hostMainProcess.Confines (fun l => l = .hostMain ∨ l = .transferRing)
      processTransferRing := by
  have hring : ∀ ring, Process.hostMainProcess.Confines (fun _ => True) (Proc.modify (setRing ring)) :=
    fun ring => writesCtrl fun h => { h with mTransferRing := ring }
  refine .bind (sees.read (·.2.2.1)) fun _ => .ite (.pure (.inl rfl))
    (.bind (sees.read (·.1.mTransferRing)) fun _ => .ite ?_ ?_)
  · exact .bind (.sleep rfl) fun _ => .pure (.inr rfl)
  · refine .bind (.bind (sees.read (·.1.mTransferRing)) fun ring => ?_) fun trb =>
      .bind (runTrb_confined trb) fun _ => .pure (.inr rfl)
    split
    · exact .bind (.sleep rfl) fun _ => .pure trivial
    · exact .bind (hring _) fun _ => .pure trivial

theorem hostMainLoop_confined :
    Process.hostMainProcess.Confines (fun l => l = .hostMain ∨ l = .transferRing) hostMainLoop := by
  refine .bind (.bind (sees.read (·.2.2.1)) fun _ => .ite (.sleep rfl) (.pure trivial)) fun _ => ?_
  exact .bind (writesCtrl fun h => { h with mDev := {} }) fun _ =>
    .bind enumerateDevice_confined fun _ => .pure (.inr rfl)

theorem start_confined :
    Process.hostMainProcess.Confines (fun l => l = .hostMain ∨ l = .transferRing) hostMainProcess :=
  .bind (writes (·.1) (·.2.1) (fun _ => false) (fun _ => false) fun _ => 0) fun _ => .pure (.inl rfl)

end HostController

namespace DeviceController

def view (s : Drd) : DeviceController × Bool := (s.devCtrl,s.sigBulkIrq.nxt)

theorem sees : Sees Process.loopbackProcess.own Process.loopbackProcess.changes view := by
  refine Process.sees (fun q e hpq he s => ?_) nofun
  cases he with
  | loopback => exact absurd rfl hpq
  | raise hq bits => dsimp only [raiseIrq]; split <;> rfl
  | _ => rfl

theorem writes (d : _ → DeviceController) (bulk : _ → Bool) :
    Process.loopbackProcess.Confines (fun _ => True) (Proc.modify fun s => { s with
      devCtrl := { d (view s) with mOutEpEvent := s.devCtrl.mOutEpEvent }
      sigBulkIrq := s.sigBulkIrq.write (bulk (view s)) }) :=
  sees.modify _ fun v => (Process.Effect.loopback (d v) (bulk v)).mem

theorem loopbackLoop_confined :
    Process.loopbackProcess.Confines (· = .loopback) loopbackLoop := by
  have hsend : Process.loopbackProcess.Confines (fun _ => True)
      (sendToProtocol .tpErdy 1 .deviceToHost [1,0,0,0]) :=
    .bind (sees.read (·.1.mAssignedAddr)) fun _ => .bind (.bind (.pure trivial) fun _ => .request _)
      fun _ => .pure trivial
  refine .bind (.sleep rfl) fun _ => .bind (sees.read (·.1)) fun d => .ite (.pure rfl) (.ite ?_ (.pure rfl))
  refine .bind ?_ fun _ => .bind hsend fun _ => .bind (writes (·.1) fun _ => true) fun _ => ?_
  · exact writes (fun v => { v.1 with
      mEp2Out := .clear, mEp1In := v.1.mEp1In.write d.mEp2Out.buffer }) (·.2)
  · exact .bind (.sleep rfl) fun _ => .bind (writes (·.1) fun _ => false) fun _ => .pure rfl

end DeviceController

end Processes

section Calls

abbrev CallConfines {α : Type} (prog : DrdProc α) : Prop :=
  prog.Confined callOwn (.closure callChanges) (·.owner = none) fun _ => True

def callView (s : Drd) :
    Usb3Role × Bool × HostController × DeviceController × ProtocolLayer × Bool :=
  (s.sigRole.cur,s.sigDevEnable.cur,s.hostCtrl,s.devCtrl,s.protocol,s.sigConfigured.nxt)

theorem call_sees : Sees callOwn callChanges callView where
  view b hb s := by
    obtain ⟨q,hq,hb⟩ := hb
    cases hb with
    | host => cases hq
    | loopback => cases hq
    | raise hq bits => dsimp only [raiseIrq]; split <;> rfl
    | _ => rfl
  comm e he b hb := by
    obtain ⟨q,hq,hb⟩ := hb
    exact commute_closure (fun _ hx _ hy => (CallEffect.comm hq hy hx).symm) he hb.mem

theorem call_writes (h : _ → HostController) (d : _ → DeviceController) (layer : _ → ProtocolLayer)
    (configured : _ → Bool) : CallConfines (Proc.modify fun s => { s with
      hostCtrl := { h (callView s) with mTrbCompleteEvent := s.hostCtrl.mTrbCompleteEvent }
      devCtrl := d (callView s)
      protocol := layer (callView s)
      sigConfigured := s.sigConfigured.write (configured (callView s)) }) :=
  call_sees.modify _ fun v =>
    Submonoid.subset_closure (CallEffect.call (h v) (d v) (layer v) (configured v))

theorem call_writesDev (d : DeviceController → DeviceController) :
    CallConfines (Proc.modify fun s => { s with devCtrl := d s.devCtrl }) :=
  call_writes (·.2.2.1) (fun v => d v.2.2.2.1) (·.2.2.2.2.1) (·.2.2.2.2.2)

theorem sendToProtocol_confined (pktType : Usb3PktType) (endpoint : BitVec 8) (direction : Usb3Dir)
    (data : List Byte) (epType : Usb3EpType) :
    CallConfines (DeviceController.sendToProtocol pktType endpoint direction data epType) := by
  have hseq : CallConfines ProtocolLayer.nextSeq := by
    refine .bind (call_sees.read (·.2.2.2.2.1.mSeqNum)) fun n => .bind ?_ fun _ => .pure trivial
    exact call_writes (·.2.2.1) (·.2.2.2.1) (fun v => { v.2.2.2.2.1 with mSeqNum := n+1 })
      (·.2.2.2.2.2)
  refine .bind (call_sees.read (·.2.2.2.1.mAssignedAddr)) fun _ => .bind ?_ fun _ => .pure trivial
  exact .bind (.ite (.bind hseq fun _ => .pure trivial) (.pure trivial)) fun _ => .request _

theorem handleSetup_confined (setup : Usb3SetupPkt) :
    CallConfines (DeviceController.handleSetup setup) := by
  have hconfig : CallConfines (DeviceController.handleSetConfiguration setup) :=
    call_writes (·.2.2.1) (fun v => { v.2.2.2.1 with mConfigured := true }) (·.2.2.2.2.1) fun _ => true
  refine .ite ?_ (.ite ?_ (.ite (.bind hconfig fun _ => .pure trivial) (.ite ?_ ?_)))
  · refine .bind (call_sees.read (·.2.2.2.1)) fun d => ?_
    split
    · exact .bind (sendToProtocol_confined _ _ _ _ _) fun _ => .pure trivial
    · exact .bind (sendToProtocol_confined _ _ _ _ _) fun _ => .pure trivial
  · refine .bind (.bind ?_ fun _ => .sleep rfl) fun _ => .pure trivial
    exact call_writesDev fun d => { d with mAssignedAddr := (setup.wValue &&& 0x7F).setWidth 8 }
  · exact .bind (sendToProtocol_confined _ _ _ _ _) fun _ => .pure trivial
  · exact .bind (sendToProtocol_confined _ _ _ _ _) fun _ => .pure trivial

theorem reaction_confined (p : Payload) (ext : Usb3PktExt) :
    CallConfines (DeviceController.reaction p ext) := by
  have hout : CallConfines (DeviceController.handleBulkOut p) :=
    .bind (call_writesDev fun d => { d with mEp2Out := d.mEp2Out.write p.data, mOutEpEvent := true })
      fun _ => .pure trivial
  unfold DeviceController.reaction
  split
  · exact handleSetup_confined _
  · exact hout
  · exact hout
  · exact .bind (sendToProtocol_confined _ _ _ _ _) fun _ => .pure trivial
  · refine .bind (call_sees.read (·.2.2.2.1.mEp1In)) fun fifo => .ite ?_ (.pure trivial)
    refine .bind (call_writesDev fun d => { d with mEp1In := .clear }) fun _ => ?_
    exact .bind (sendToProtocol_confined _ _ _ _ _) fun _ => .pure trivial
  · exact .pure trivial

theorem fromProtoBTransport_confined (p : Payload) :
    CallConfines (DeviceController.fromProtoBTransport p) := by
  refine .bind (call_sees.read (·.2.1)) fun enable => .ite (.pure trivial) ?_
  split
  · exact .pure trivial
  · exact reaction_confined p _

theorem storeResponse_confined (data : List Byte) :
    CallConfines (Proc.modify (HostController.storeResponse data)) := by
  by_cases hdata : data = []
  · have heq : HostController.storeResponse data = id := funext fun s => if_pos hdata
    rw [heq]
    exact call_writes (·.2.2.1) (·.2.2.2.1) (·.2.2.2.2.1) (·.2.2.2.2.2)
  · have heq : HostController.storeResponse data = fun s => { s with
        hostCtrl := { s.hostCtrl with mRespData := data, mRespValid := true } } :=
      funext fun s => if_neg hdata
    rw [heq]
    exact call_writes (fun v => { v.2.2.1 with mRespData := data, mRespValid := true }) (·.2.2.2.1)
      (·.2.2.2.2.1) (·.2.2.2.2.2)

def returns (l : Loop) : Prop := ∃ response, l = .returned response

theorem inboundCall_confined (p : Payload) :
    (inboundCall p).Confined callOwn (.closure callChanges) (·.owner = none) returns := by
  refine .bind ?_ fun response => .pure ⟨response,rfl⟩
  rw [upstreamBTransport,ProtocolLayer.linkBTransport,ProtocolLayer.handleRx_eq]
  refine .ite (.bind (call_sees.read (·.1)) fun role => ?_) (.pure trivial)
  cases role with
  | none => exact .pure trivial
  | host => exact .bind (storeResponse_confined _) fun _ => .pure trivial
  | device => exact fromProtoBTransport_confined _

theorem sendToProtocol_spent (pktType : Usb3PktType) (endpoint : BitVec 8) (direction : Usb3Dir)
    (data : List Byte) (epType : Usb3EpType) :
    (DeviceController.sendToProtocol pktType endpoint direction data epType).Spent (·.owner = none) fun _ => True := by
  have hstamp : ∀ ext, (ProtocolLayer.stampSeq ext).Leaves (·.owner = none) (fun _ => False) fun _ => True := by
    intro ext
    unfold ProtocolLayer.stampSeq
    split
    · exact fun _ _ => trivial
    · trivial
  refine Spent.follow (fun _ => trivial) fun addr => .bind ?_ fun _ => .pure trivial
  exact Spent.follow (hstamp _) fun _ => (Confined.request _).rest

theorem reply_spent (ty : Usb3PktType) (ep : BitVec 8) (dir : Usb3Dir) (data : List Byte)
    (epType : Usb3EpType) (response : TlmResponse) :
    (do DeviceController.sendToProtocol ty ep dir data epType; pure response :
      DrdProc TlmResponse).Spent (·.owner = none) fun _ => True :=
  .bind (sendToProtocol_spent _ _ _ _ _) fun _ => .pure trivial

theorem handleSetup_spent (setup : Usb3SetupPkt) :
    (DeviceController.handleSetup setup).Spent (·.owner = none) fun _ => True := by
  refine Spent.ite ?_ (.ite ?_ (.ite (fun _ => trivial) (.ite (reply_spent _ _ _ _ _ _) (reply_spent _ _ _ _ _ _))))
  · refine Spent.follow (fun _ => trivial) fun d => ?_
    split
    · exact reply_spent _ _ _ _ _ _
    · exact reply_spent _ _ _ _ _ _
  · exact fun _ => ⟨⟨rfl,.pure _⟩,trivial⟩

theorem reaction_spent (p : Payload) (ext : Usb3PktExt) :
    (DeviceController.reaction p ext).Spent (·.owner = none) fun _ => True := by
  unfold DeviceController.reaction
  split
  · exact handleSetup_spent _
  · exact fun _ => trivial
  · exact fun _ => trivial
  · exact reply_spent _ _ _ _ _ _
  · refine Spent.follow (fun _ => trivial) fun fifo => .ite ?_ trivial
    exact Spent.follow (fun _ => trivial) fun _ => reply_spent _ _ _ _ _ _
  · trivial

theorem fromProtoBTransport_spent (p : Payload) :
    (DeviceController.fromProtoBTransport p).Spent (·.owner = none) fun _ => True := by
  refine Spent.follow (fun _ => trivial) fun enable => .ite trivial ?_
  split
  · trivial
  · exact reaction_spent p _

/-- An inbound call does all that it does to the state before it suspends. -/
theorem inboundCall_spent (p : Payload) :
    (inboundCall p).Spent (·.owner = none) returns := by
  refine Spent.bind ?_ fun response => .pure ⟨response,rfl⟩
  rw [upstreamBTransport,ProtocolLayer.linkBTransport,ProtocolLayer.handleRx_eq]
  refine Spent.ite (Spent.follow (fun _ => trivial) fun role => ?_) trivial
  cases role with
  | none => trivial
  | host => exact fun _ => trivial
  | device => exact fromProtoBTransport_spent _

end Calls

section Runs
variable {A γ : Type} {n : ℕ} {act : A → Drd → Option Drd} {present : Process → Bool}

theorem loopCode_confined (p : Process) (l : Loop) (body : DrdProc Loop) (hl : p.runs l)
    (hbody : loopCode l = some body) : p.Confines p.runs body := by
  cases p with
  | hostMainProcess =>
    obtain rfl | rfl := hl
    · cases hbody; exact HostController.hostMainLoop_confined
    · cases hbody; exact HostController.processTransferRing_confined
  | roleDetectionProcess =>
    cases hl; cases hbody
    exact .bind (.sleep rfl) fun _ => .bind RoleManager.detectRole_confined fun _ => .pure rfl
  | roleSwitchMonitor => cases hl; cases hbody; exact roleSwitchLoop_confined
  | interruptCollector => cases hl; cases hbody; exact .bind (.sleep rfl) fun _ => collector_confined
  | forwardInputs => cases hl; cases hbody; exact .bind (.sleep rfl) fun _ => forwardInputs_confined
  | loopbackProcess => cases hl; cases hbody; exact DeviceController.loopbackLoop_confined

theorem returns_code (l : Loop) (hl : returns l) : loopCode l = none := by
  obtain ⟨_,rfl⟩ := hl
  rfl

theorem returned_code {own others : Submonoid (Function.End Drd)} (l : Loop) (body : DrdProc Loop)
    (hl : returns l) (hbody : loopCode l = some body) : body.Confined own others (·.owner = none) returns := by
  cases (returns_code l hl).symm.trans hbody

def Tid.begins : Tid n → DrdProc Loop → Prop
  | .inl p => p.Confines p.runs
  | .inr _ => fun prog => prog.Spent (·.owner = none) returns ∧ prog.Confined callOwn (.closure callChanges) (·.owner = none) returns

def Tid.resumes : Tid n → DrdProc Loop → Prop
  | .inl p => p.Confines p.runs
  | .inr _ => Proc.Confined ⊥ ⊤ (·.owner = none) returns

theorem start_within (p : Process) : p.start.Within (·.owner = some p) (p.Confines p.runs)
    (p.Confines p.runs) := by
  cases p with
  | roleDetectionProcess => exact RoleManager.start_confined
  | roleSwitchMonitor => exact monitor_confined
  | interruptCollector => exact ⟨rfl,collector_confined⟩
  | forwardInputs => exact forwardInputs_confined
  | hostMainProcess => exact HostController.start_confined
  | loopbackProcess => exact Confined.pure rfl

def Tid.waitsAt (t : Tid n) (w : WaitPoint) : Prop := w.owner = t.getLeft?

theorem inhabits :
    Inhabits (kernelOf n act) (bootWith n present) Tid.waitsAt Tid.begins Tid.resumes where
  boot t := by
    cases t with
    | inl p =>
      simp only [bootWith]
      split
      · exact start_within p
      · trivial
    | inr _ => trivial
  entry t e p hp := by
    cases t with
    | inl _ => cases hp
    | inr _ => cases hp; exact ⟨inboundCall_spent e,inboundCall_confined e⟩
  leaves t p s s' stop hp hseg := by
    have hweaken : ∀ {points : WaitPoint → Prop} {P : DrdProc Loop → Prop} {post : Loop → Prop},
        stop.Leaves points P post → stop.Leaves points P fun _ => True := by
      intro points P post h
      cases stop with
      | ret l => trivial
      | _ => exact h
    cases t with
    | inl p => exact hweaken (Kernel.segment_confined (loopCode_confined p) (hp.elim id id) hseg).2.2
    | inr _ =>
      refine hweaken (hp.elim (fun h => Kernel.segment_spent returns_code h.1 hseg) fun h => ?_)
      exact (Kernel.segment_confined returned_code h hseg).2.2

variable {w : Watch γ Drd WaitPoint Payload TlmResponse Loop A Payload (Tid n)}
  {ok : γ → DrdConf n → DrdLabel A n → Prop} {g : γ} {c d d' : DrdConf n}

def Fresh (c : DrdConf n) (t : Tid n) : Prop := ∃ i p, t = .inr i ∧ c.thread t = .ready .start p

theorem runs_of_ready (hr : Reach (kernelOf n act) (bootWith n present) w ok g c) {t : Tid n}
    (ht : (c.thread t).isReady = true) :
    (∃ p, t = .inl p ∧ Runs (kernelOf n act) c t p.own (.closure p.changes)) ∨
    (Fresh c t ∧ Runs (kernelOf n act) c t callOwn (.closure callChanges)) ∨
    (¬Fresh c t ∧ Runs (kernelOf n act) c t ⊥ ⊤) := by
  have hwithin := inhabits.reach hr t
  cases hth : c.thread t with
  | ready o p =>
    rw [hth] at hwithin
    match t with
    | .inl q =>
      exact .inl ⟨q,rfl,o,p,_,q.runs,hth,hwithin.ready.elim id id,loopCode_confined q⟩
    | .inr i =>
      cases o with
      | start => exact .inr (.inl ⟨⟨i,p,rfl,hth⟩,_,p,_,returns,hth,hwithin.2,returned_code⟩)
      | _ =>
        refine .inr (.inr ⟨?_,_,p,_,returns,hth,hwithin,returned_code⟩)
        rintro ⟨_,_,-,hfresh⟩
        cases hth.symm.trans hfresh
  | _ => rw [hth] at ht; cases ht

/-- A call that has just arrived works on what the host process, the loopback process and
other such calls work on. -/
def Clash (c : DrdConf n) (t u : Tid n) : Prop :=
  Fresh c t ∧ (Fresh c u ∨ u = hostThread ∨ u = loopbackThread)

theorem not_sharesCalls {p : Process} {c : DrdConf n} {t : Tid n} (ht : Fresh c t)
    (h : ¬Clash c t (.inl p)) : p.sharesCalls = false := by
  cases p with
  | hostMainProcess => exact absurd ⟨ht,.inr (.inl rfl)⟩ h
  | loopbackProcess => exact absurd ⟨ht,.inr (.inr rfl)⟩ h
  | _ => rfl

/-- In every reachable configuration, two runnable threads may be evaluated in either order,
unless one is a call that has just arrived and the other works on the same state. -/
theorem evals_commute (hr : Reach (kernelOf n act) (bootWith n present) w ok g c) {t u : Tid n}
    (htu : t ≠ u) (hclash : ¬Clash c t u) (hclash' : ¬Clash c u t)
    (hs : (kernelOf n act).step c (.eval t) = some d)
    (hs' : (kernelOf n act).step c (.eval u) = some d') :
    ∃ f, (kernelOf n act).step d (.eval u) = some f ∧ (kernelOf n act).step d' (.eval t) = some f := by
  have hready : ∀ {t d}, (kernelOf n act).step c (.eval t) = some d → (c.thread t).isReady = true := by
    intro t d h
    obtain ⟨o,p,_,_,ht,-⟩ := step_eval h
    rw [ht]
    rfl
  have hbot : ∀ {G : Submonoid (Function.End Drd)}, ∀ e ∈ G, ∀ e' ∈ (⊥ : Submonoid (Function.End Drd)),
      Commute e e' := by
    intro G e _ e' he'
    rw [Submonoid.mem_bot.mp he']
    exact Commute.one_right e
  obtain ⟨p,rfl,ht⟩ | ⟨hfresh,ht⟩ | ⟨-,ht⟩ := runs_of_ready hr (hready hs)
  · obtain ⟨q,rfl,hu⟩ | ⟨hfresh',hu⟩ | ⟨-,hu⟩ := runs_of_ready hr (hready hs')
    · have hpq : p ≠ q := fun h => htu (congrArg Sum.inl h)
      exact eval_comm htu ht hu (Process.own_le hpq.symm) (Process.own_le hpq)
        (fun e he e' he' => commute_closure (fun _ hx _ hy => hx.comm hpq hy) he he') hs hs'
    · have hp := not_sharesCalls hfresh' hclash'
      exact eval_comm htu ht hu (own_le_call hp) (callOwn_le hp)
        (fun e he e' he' => commute_closure (fun _ hx _ hy => CallEffect.comm hp hx hy) he he') hs hs'
    · exact eval_comm htu ht hu le_top bot_le hbot hs hs'
  · obtain ⟨q,rfl,hu⟩ | ⟨hfresh',hu⟩ | ⟨-,hu⟩ := runs_of_ready hr (hready hs')
    · have hq := not_sharesCalls hfresh hclash
      exact eval_comm htu ht hu (callOwn_le hq) (own_le_call hq)
        (fun e he e' he' => commute_closure (fun _ hx _ hy => (CallEffect.comm hq hy hx).symm) he he')
        hs hs'
    · exact absurd ⟨hfresh,.inl hfresh'⟩ hclash
    · exact eval_comm htu ht hu le_top bot_le hbot hs hs'
  · obtain ⟨q,rfl,hu⟩ | ⟨hfresh',hu⟩ | ⟨-,hu⟩ := runs_of_ready hr (hready hs')
    · exact eval_comm htu ht hu bot_le le_top (fun e he e' he' => (hbot e' he' e he).symm) hs hs'
    · exact eval_comm htu ht hu bot_le le_top (fun e he e' he' => (hbot e' he' e he).symm) hs hs'
    · exact eval_comm htu ht hu bot_le bot_le hbot hs hs'

end Runs

end Usb3Drd
