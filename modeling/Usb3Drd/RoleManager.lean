import Usb3Drd.Coop.Spec
import Usb3Drd.State

/-! The role manager: it decides the role from the CC state, VBUS and software
requests, and announces each change by a pulse. -/
namespace Usb3Drd
namespace RoleManager

open Coop

/-- The role that CC and VBUS ask for. -/
def desiredRole (cc : UsbCCcState) (vb : Bool) : Usb3Role :=
  if cc = .ufpAttached ∧ vb = true then .host
  else if cc = .dfpAttached ∧ vb = true then .device
  else .none

def askedRole (s : Drd) : Usb3Role := desiredRole s.sigCcStateInt.cur s.sigVbusInt.cur

/-- A pending request overrides the inputs, one for the device role also the other. -/
def withRequests (rm : RoleManager) (desired : Usb3Role) : Usb3Role :=
  if rm.mDeviceRequested then .device else if rm.mHostRequested then .host else desired

def clearRequests (s : Drd) : Drd :=
  { s with roleMgr := { s.roleMgr with mHostRequested := false, mDeviceRequested := false } }

def beginPulse (newRole : Usb3Role) (s : Drd) : Drd :=
  { s with
    roleMgr := { s.roleMgr with mRole := newRole }
    sigRole := s.sigRole.write newRole
    sigRoleChanged := s.sigRoleChanged.write true }

def endPulse (s : Drd) : Drd := { s with sigRoleChanged := s.sigRoleChanged.write false }

def applyRole (newRole : Usb3Role) : DrdProc Unit := do
  let mRole ← Proc.read (·.roleMgr.mRole)
  if newRole = mRole then pure ()
  else
    Proc.modify (beginPulse newRole)
    Proc.sleep .rolePulse
    Proc.modify endPulse

def detectRole : DrdProc Unit := do
  let desired ← Proc.read askedRole
  let rm ← Proc.read (·.roleMgr)
  if desired ≠ rm.mRole ∨ rm.mHostRequested = true ∨ rm.mDeviceRequested = true then
    Proc.modify clearRequests
    applyRole (rm.withRequests desired)
  else pure ()

/-- The body of the endless loop of `roleDetectionProcess`. -/
def roleDetectionLoop : DrdProc Loop := do
  Proc.sleep .roleInputs
  detectRole
  pure .roleDetection

def roleDetectionProcess : DrdProc Loop := do
  Proc.modify fun s => { s with
    sigRole := s.sigRole.write .none
    sigRoleChanged := s.sigRoleChanged.write false }
  pure .roleDetection

def requestRole (r : Usb3Role) (s : Drd) : Drd :=
  { s with roleMgr := { s.roleMgr with
      mHostRequested := if r = .host then true else s.roleMgr.mHostRequested
      mDeviceRequested := if r = .device then true else s.roleMgr.mDeviceRequested
      mRoleRequestEvent := true } }

def NoRequests (s : Drd) : Prop :=
  s.roleMgr.mHostRequested = false ∧ s.roleMgr.mDeviceRequested = false

instance (s : Drd) : Decidable (NoRequests s) := inferInstanceAs (Decidable (_ ∧ _))

theorem clearRequests_noRequests (s : Drd) : NoRequests (clearRequests s) := ⟨rfl,rfl⟩

theorem clearRequests_eq {s : Drd} (h : NoRequests s) : clearRequests s = s := by
  have hrm : { s.roleMgr with mHostRequested := false, mDeviceRequested := false } = s.roleMgr := by
    rw [← h.1]
    nth_rewrite 2 [h.1]
    rw [← h.2]
  simp only [clearRequests,hrm]

theorem withRequests_eq {s : Drd} (h : NoRequests s) (r : Usb3Role) : s.roleMgr.withRequests r = r := by
  simp [withRequests,h.1,h.2]

/-- One wake-up: the requests are spent, and either the role stays or a pulse is given. -/
theorem detectRole_wp {γ : Type} (sp : Spec γ Drd WaitPoint Payload TlmResponse Loop)
    {post : Unit → Trail γ Drd WaitPoint Payload TlmResponse → Prop}
    (x : Trail γ Drd WaitPoint Payload TlmResponse) {newRole : Usb3Role}
    (hrole : newRole = x.state.roleMgr.withRequests (askedRole x.state))
    (hsame : newRole = x.state.roleMgr.mRole →
      post () { x with state := clearRequests x.state })
    (hpulse : newRole ≠ x.state.roleMgr.mRole →
      sp.setting.onWait .rolePulse (fun y => post () { y with state := endPulse y.state })
        { x with state := beginPulse newRole (clearRequests x.state) }) :
    detectRole.wp sp.setting post x := by
  subst hrole
  simp only [detectRole,applyRole,Proc.wp_bind,Spec.wp_read,Proc.wp_ite,Spec.wp_modify,
    Proc.wp_pure,Proc.wp_sleep]
  refine ⟨fun _ => ⟨hsame,hpulse⟩,fun h => ?_⟩
  have hno : NoRequests x.state := by
    simp only [ne_eq,not_or,not_not,Bool.not_eq_true] at h
    exact h.2
  have heq : x.state.roleMgr.withRequests (askedRole x.state) = x.state.roleMgr.mRole := by
    rw [withRequests_eq hno]
    simpa using (not_or.mp h).1
  simpa [clearRequests_eq hno] using hsame heq

end RoleManager
end Usb3Drd
