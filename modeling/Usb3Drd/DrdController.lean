import Usb3Drd.RoleManager
import Usb3Drd.HostController
import Usb3Drd.DeviceController

/-! The top level: the sockets bound to each other, the role switch, the interrupt
logic, and the register interface. -/
namespace Usb3Drd
namespace DrdController

open Coop

def intrRoleChanged : BitVec 32 := 1 <<< 0
def intrEnumDone : BitVec 32 := 1 <<< 3
def intrXferDone : BitVec 32 := 1 <<< 4
def intrBulkIrq : BitVec 32 := 1 <<< 5

def regCtrl : BitVec 64 := 0x00
def regStatus : BitVec 64 := 0x04
def regRoleCtrl : BitVec 64 := 0x08
def regIntrStatus : BitVec 64 := 0x0C
def regIntrEnable : BitVec 64 := 0x10
def regDevAddr : BitVec 64 := 0x14
def regSpeed : BitVec 64 := 0x1C

def raiseIrq (bits : BitVec 32) (s : Drd) : Drd :=
  let status := s.mIntrStatus ||| bits
  if status &&& s.mIntrEnable ≠ 0 then
    { s with
      mIntrStatus := status
      irq := s.irq.write true
      mRegs := s.mRegs.set 3 status }
  else { s with mIntrStatus := status }

def disableBoth (s : Drd) : Drd :=
  { s with
    sigHostEnable := s.sigHostEnable.write false
    sigDevEnable := s.sigDevEnable.write false }

def enableRole (role : Usb3Role) (s : Drd) : Drd :=
  if role = .host then { s with sigHostEnable := s.sigHostEnable.write true }
  else if role = .device then { s with sigDevEnable := s.sigDevEnable.write true }
  else s

/-- The body of the endless loop of `roleSwitchMonitor`. -/
def roleSwitchLoop : DrdProc Loop := do
  Proc.sleep .roleSwitch
  let role ← Proc.read (·.sigRole.cur)
  Proc.modify disableBoth
  Proc.sleep .roleSettle
  Proc.modify (enableRole role)
  Proc.modify (raiseIrq intrRoleChanged)
  pure .roleSwitch

def roleSwitchMonitor : DrdProc Loop := do
  Proc.modify disableBoth
  pure .roleSwitch

def interruptCollector (s : Drd) : Drd :=
  let s := if s.sigEnumDone.cur then
      let s := raiseIrq intrEnumDone s
      { s with mRegs := s.mRegs.set 5 (s.sigDevAddr.cur.setWidth 32) }
    else s
  let s := if s.sigXferDone.cur then raiseIrq intrXferDone s else s
  if s.sigBulkIrq.cur then raiseIrq intrBulkIrq s else s

def forwardInputs (s : Drd) : Drd :=
  { s with
    sigCcStateInt := s.sigCcStateInt.write s.ccState.cur
    sigVbusInt := s.sigVbusInt.write s.vbus.cur }

def superSpeed : BitVec 8 := 3

def buildStatusReg (s : Drd) : BitVec 32 :=
  ((s.sigRole.cur.value.setWidth 32 &&& 0x03) <<< 4) |||
  ((superSpeed.setWidth 32 &&& 0x07) <<< 8) |||
  ((1 : BitVec 32) <<< 16) |||
  ((if s.sigConfigured.cur then (1 : BitVec 32) else 0) <<< 17)

/-- The mask `~3u` is a 32-bit expression, so it also clears the upper half. -/
def alignAddr (addr : BitVec 64) : BitVec 64 := addr &&& 0xFFFFFFFC

def readReg (s : Drd) (addr : BitVec 64) : BitVec 32 :=
  if addr = regStatus then buildStatusReg s
  else if addr = regIntrStatus then s.mIntrStatus
  else if addr = regIntrEnable then s.mIntrEnable
  else if addr = regDevAddr then s.sigDevAddr.cur.setWidth 32
  else if addr = regSpeed then superSpeed.setWidth 32
  else if h : addr.toNat/4 < 8 then s.mRegs[addr.toNat/4] else 0

def writeReg (s : Drd) (addr : BitVec 64) (val : BitVec 32) : Drd :=
  if addr = regCtrl then s
  else if addr = regRoleCtrl then
    if val = 1 then RoleManager.requestRole .host s
    else if val = 2 then RoleManager.requestRole .device s
    else s
  else if addr = regIntrStatus then
    let s := { s with mIntrStatus := s.mIntrStatus &&& ~~~val }
    if s.mIntrStatus = 0 then { s with irq := s.irq.write false } else s
  else if addr = regIntrEnable then { s with mIntrEnable := val }
  else if h : addr.toNat/4 < 8 then { s with mRegs := s.mRegs.set (addr.toNat/4) val }
  else s

def bytesToWord (data : List Byte) : BitVec 32 :=
  (data.getD 0 0).setWidth 32 ||| ((data.getD 1 0).setWidth 32 <<< 8) |||
  ((data.getD 2 0).setWidth 32 <<< 16) ||| ((data.getD 3 0).setWidth 32 <<< 24)

def wordToBytes (v : BitVec 32) : List Byte :=
  [v.setWidth 8,(v >>> 8).setWidth 8,(v >>> 16).setWidth 8,(v >>> 24).setWidth 8]

/-- A register access: the state, the data buffer and the status afterwards. -/
def cfgBTransport (p : Payload) (s : Drd) : Drd × List Byte × TlmResponse :=
  let addr := alignAddr p.address
  if p.data.length < 4 then (s,p.data,.genericError)
  else if p.command = .read then
    (s,wordToBytes (readReg s addr) ++ p.data.drop 4,.ok)
  else (writeReg s addr (bytesToWord p.data),p.data,.ok)

section Words

theorem bytesToWord_wordToBytes (v : BitVec 32) (rest : List Byte) :
    bytesToWord (wordToBytes v ++ rest) = v := by
  simp only [bytesToWord,wordToBytes]
  ext i hi
  simp
  grind

/-- The mask takes the lower half of the aligned address. -/
theorem alignAddr_eq (addr : BitVec 64) : alignAddr addr = (addr &&& ~~~3) &&& 0xFFFFFFFF := by
  rw [alignAddr,BitVec.and_assoc]
  rfl

theorem and_low_of_lt {addr : BitVec 64} (h : addr.toNat < 2^32) : addr &&& 0xFFFFFFFF = addr := by
  apply BitVec.eq_of_toNat_eq
  rw [BitVec.toNat_and,show (0xFFFFFFFF : BitVec 64).toNat = 2^32 - 1 from rfl,
    Nat.and_two_pow_sub_one_eq_mod,Nat.mod_eq_of_lt h]

theorem alignAddr_of_lt {addr : BitVec 64} (h : addr.toNat < 2^32) :
    alignAddr addr = addr &&& ~~~3 := by
  rw [alignAddr_eq,BitVec.and_assoc,BitVec.and_comm (~~~3),← BitVec.and_assoc,and_low_of_lt h]

end Words

section Status
variable (s : Drd)

@[simp] theorem raiseIrq_status (bits : BitVec 32) :
    (raiseIrq bits s).mIntrStatus = s.mIntrStatus ||| bits := by
  dsimp only [raiseIrq]
  split <;> rfl

@[simp] theorem raiseIrq_xferDone (bits : BitVec 32) :
    (raiseIrq bits s).sigXferDone = s.sigXferDone := by
  dsimp only [raiseIrq]
  split <;> rfl

@[simp] theorem raiseIrq_bulkIrq (bits : BitVec 32) :
    (raiseIrq bits s).sigBulkIrq = s.sigBulkIrq := by
  dsimp only [raiseIrq]
  split <;> rfl

def collected : BitVec 32 :=
  (if s.sigEnumDone.cur then intrEnumDone else 0) |||
  (if s.sigXferDone.cur then intrXferDone else 0) |||
  (if s.sigBulkIrq.cur then intrBulkIrq else 0)

theorem interruptCollector_status :
    (interruptCollector s).mIntrStatus = s.mIntrStatus ||| collected s := by
  cases henum : s.sigEnumDone.cur with
  | true =>
    cases hxfer : s.sigXferDone.cur with
    | _ => cases hbulk : s.sigBulkIrq.cur with
      | _ => simp [interruptCollector,collected,henum,hxfer,hbulk,BitVec.or_assoc]
  | false =>
    cases hxfer : s.sigXferDone.cur with
    | _ => cases hbulk : s.sigBulkIrq.cur with
      | _ => simp [interruptCollector,collected,henum,hxfer,hbulk,BitVec.or_assoc]

theorem writeReg_status (addr : BitVec 64) (val : BitVec 32) : (writeReg s addr val).mIntrStatus =
    if addr = regIntrStatus then s.mIntrStatus &&& ~~~val else s.mIntrStatus := by
  have hctrl : regIntrStatus ≠ regCtrl := by decide
  have hrole : regIntrStatus ≠ regRoleCtrl := by decide
  by_cases hstatus : addr = regIntrStatus
  · subst hstatus
    simp only [writeReg,if_neg hctrl,if_neg hrole,if_true]
    split <;> rfl
  · simp only [writeReg,RoleManager.requestRole,if_neg hstatus]
    repeat' split
    all_goals rfl

end Status

def upstreamBTransport (p : Payload) : DrdProc TlmResponse :=
  ProtocolLayer.linkBTransport HostController.fromProtocolBTransport
    DeviceController.fromProtoBTransport p

theorem upstream_wp {γ : Type} (sp : Spec γ Drd WaitPoint Payload TlmResponse Loop) {p : Payload}
    {post : TlmResponse → Trail γ Drd WaitPoint Payload TlmResponse → Prop}
    (x : Trail γ Drd WaitPoint Payload TlmResponse)
    (hdone : ∀ y, post p.response y) (hnone : ∀ y, post .incomplete y)
    (hdevice : x.state.sigRole.cur = .device →
      (DeviceController.fromProtoBTransport (ProtocolLayer.markStall p)).wp sp.setting post x) :
    (upstreamBTransport p).wp sp.setting post x := by
  rw [upstreamBTransport,ProtocolLayer.linkBTransport,ProtocolLayer.handleRx_eq,Proc.wp_ite]
  refine ⟨fun _ => ?_,fun _ => hdone _⟩
  rw [ProtocolLayer.forwardToActiveController,Proc.wp_bind,Spec.wp_read]
  cases hrole : x.state.sigRole.cur with
  | host =>
    have hresponse := hdone { x with state := HostController.storeResponse p.data x.state }
    rw [← ProtocolLayer.markStall_response p,← ProtocolLayer.markStall_data p] at hresponse
    exact hresponse
  | device => exact hdevice hrole
  | none => exact hnone x

/-- What becomes of a packet, by the role. -/
theorem upstream_wp_iff {γ : Type} (sp : Spec γ Drd WaitPoint Payload TlmResponse Loop) {p : Payload}
    {post : TlmResponse → Trail γ Drd WaitPoint Payload TlmResponse → Prop}
    (x : Trail γ Drd WaitPoint Payload TlmResponse) :
    (upstreamBTransport p).wp sp.setting post x ↔
      if ProtocolLayer.isForwarded p then
        match x.state.sigRole.cur with
        | .host => post p.response { x with state := HostController.storeResponse p.data x.state }
        | .device =>
          (DeviceController.fromProtoBTransport (ProtocolLayer.markStall p)).wp sp.setting post x
        | .none => post .incomplete x
      else post p.response x := by
  rw [upstreamBTransport,ProtocolLayer.linkBTransport,ProtocolLayer.handleRx_eq]
  split
  · rw [ProtocolLayer.forwardToActiveController,Proc.wp_bind,Spec.wp_read]
    cases hrole : x.state.sigRole.cur with
    | host =>
      rw [HostController.fromProtocolBTransport,Proc.wp_bind,Spec.wp_modify,Proc.wp_pure,
        ProtocolLayer.markStall_data,ProtocolLayer.markStall_response]
    | device => rfl
    | none => rw [Proc.wp_pure]
  · rw [Proc.wp_pure]

theorem upstream_interp {X : Type} (h : Handler Drd WaitPoint Payload TlmResponse X) (p : Payload)
    (x : X) : (upstreamBTransport p).interp h x =
      if ProtocolLayer.isForwarded p then
        match (h.state x).sigRole.cur with
        | .host => some (p.response,h.store (HostController.storeResponse p.data (h.state x)) x)
        | .device =>
          (DeviceController.fromProtoBTransport (ProtocolLayer.markStall p)).interp h x
        | .none => some (.incomplete,x)
      else some (p.response,x) := by
  rw [upstreamBTransport,ProtocolLayer.linkBTransport,ProtocolLayer.handleRx_eq,Proc.interp_ite,
    ProtocolLayer.forward_interp,Proc.interp_pure]
  cases (h.state x).sigRole.cur with
  | host =>
    rw [HostController.fromProtocolBTransport,Proc.interp_bind,Proc.interp_modify,Option.bind_some,
      Proc.interp_pure,ProtocolLayer.markStall_data,ProtocolLayer.markStall_response]
  | device => rfl
  | none => rfl

end DrdController
end Usb3Drd
