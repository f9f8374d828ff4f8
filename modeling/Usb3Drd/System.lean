import Usb3Drd.Coop.Spec
import Usb3Drd.DrdController

/-! The device as a scheduled system: its six processes, any number `n` of inbound
calls in flight, and the environment that drives the ports, the registers and the
bulk interface. -/
namespace Usb3Drd

open Coop

inductive Process
  | roleDetectionProcess | roleSwitchMonitor | interruptCollector | forwardInputs
  | hostMainProcess | loopbackProcess
  deriving DecidableEq

instance : Fintype Process where
  elems := {.roleDetectionProcess,.roleSwitchMonitor,.interruptCollector,.forwardInputs,
    .hostMainProcess,.loopbackProcess}
  complete p := by cases p <;> decide

/-- The processes of the device, and the inbound calls that may be open at once. -/
abbrev Tid (n : ℕ) := Process ⊕ Fin n

abbrev roleThread {n : ℕ} : Tid n := .inl .roleDetectionProcess
abbrev monitorThread {n : ℕ} : Tid n := .inl .roleSwitchMonitor
abbrev collectorThread {n : ℕ} : Tid n := .inl .interruptCollector
abbrev hostThread {n : ℕ} : Tid n := .inl .hostMainProcess
abbrev loopbackThread {n : ℕ} : Tid n := .inl .loopbackProcess

def methodLoop (w : WaitPoint) (body : Drd → Drd) (l : Loop) : DrdProc Loop := do
  Proc.sleep w
  Proc.modify body
  pure l

def loopCode : Loop → Option (DrdProc Loop)
  | .roleDetection => some RoleManager.roleDetectionLoop
  | .roleSwitch => some DrdController.roleSwitchLoop
  | .interruptCollector =>
    some (methodLoop .interruptSources DrdController.interruptCollector .interruptCollector)
  | .forwardInputs => some (methodLoop .externalInputs DrdController.forwardInputs .forwardInputs)
  | .hostMain => some HostController.hostMainLoop
  | .transferRing => some HostController.processTransferRing
  | .loopback => some DeviceController.loopbackLoop
  | .returned _ => none

/-- The code a process starts with. The collector is not initialized: it starts at
its sensitivity list. -/
def Process.start : Process → Thread Drd WaitPoint Payload TlmResponse Loop
  | .roleDetectionProcess => .ready .start RoleManager.roleDetectionProcess
  | .roleSwitchMonitor => .ready .start DrdController.roleSwitchMonitor
  | .interruptCollector => .waiting .interruptSources none
      (do Proc.modify DrdController.interruptCollector; pure .interruptCollector)
  | .forwardInputs => .ready .start
      (do Proc.modify DrdController.forwardInputs; pure .forwardInputs)
  | .hostMainProcess => .ready .start HostController.hostMainProcess
  | .loopbackProcess => .ready .start (pure .loopback)

def inboundCall (p : Payload) : DrdProc Loop := do
  let response ← DrdController.upstreamBTransport p
  pure (.returned response)

/-- The scheduler over the device's code, for a given set of environment actions. -/
def kernelOf {A : Type} (n : ℕ) (act : A → Drd → Option Drd) :
    Kernel Drd WaitPoint Payload TlmResponse Loop A Payload (Tid n) where
  code := loopCode
  fuel := 3
  update := Drd.update
  wakes w s := s.wakes w
  delay := WaitPoint.delay
  quiet := Drd.quiet
  act := act
  entry
    | .inl _, _ => none
    | .inr _, p => some (inboundCall p)

abbrev DrdConf (n : ℕ) := Conf Drd WaitPoint Payload TlmResponse Loop (Tid n)

def Drd.reset : Drd := { devCtrl := { mConfigBlob := DeviceController.initDescriptors } }

def bootWith (n : ℕ) (present : Process → Bool) : DrdConf n where
  now := 0
  state := .reset
  thread
    | .inl p => if present p then p.start else .idle
    | .inr _ => .idle

/-- What the environment of the device does in one go. -/
inductive Action
  | setCcState (cc : UsbCCcState)
  | setVbus (v : Bool)
  | cfgAccess (p : Payload)
  | bulkOut (devAddr ep : BitVec 8) (data : List Byte)
  | bulkIn (devAddr ep : BitVec 8) (len : BitVec 64)
  deriving DecidableEq

def Action.apply : Action → Drd → Option Drd
  | .setCcState cc, s => some { s with ccState := s.ccState.write cc }
  | .setVbus v, s => some { s with vbus := s.vbus.write v }
  | .cfgAccess p, s => some (DrdController.cfgBTransport p s).1
  | .bulkOut a ep data, s => HostController.bulkOut a ep data s
  | .bulkIn a ep len, s => HostController.bulkIn a ep len s

def drdKernel (n : ℕ) := kernelOf n Action.apply

def drdBoot (n : ℕ) : DrdConf n := bootWith n fun _ => true

abbrev DrdLabel (A : Type) (n : ℕ) := Label TlmResponse A Payload (Tid n)

section Runs
variable {A : Type} {n : ℕ}

def startRun : List (DrdLabel A n) :=
  [.eval roleThread,.eval monitorThread,.eval (.inl .forwardInputs),.eval hostThread,
    .eval loopbackThread]

def changeRun (inputs : List Action) : List (DrdLabel Action n) :=
  inputs.map .act ++ [.delta,.eval (.inl .forwardInputs),.delta,.eval roleThread,.delta]

def pulseRun : List (DrdLabel A n) :=
  [.advance (10*ns),.eval roleThread,.delta,.eval collectorThread]

/-- The monitor serves a change of role, from its pulse to the end of the settle wait. -/
def switchRun : List (DrdLabel A n) :=
  [.eval monitorThread,.eval collectorThread,.delta] ++ pulseRun ++
    [.advance (990*ns),.eval monitorThread]

def roleRun (cc : UsbCCcState) : List (DrdLabel Action n) :=
  startRun ++ changeRun [.setCcState cc,.setVbus true]

/-- From reset to the enable of the controller of a role. -/
def attachRun (cc : UsbCCcState) : List (DrdLabel Action n) := roleRun cc ++ switchRun ++ [.delta]

def vbusRun (v : Bool) : List (DrdLabel Action n) := changeRun [.setVbus v] ++ switchRun

/-- A control transfer of the host, from its SETUP packet on. -/
def transferRun (r : TlmResponse) : List (DrdLabel A n) :=
  [.reply hostThread .ok,.eval hostThread,.advance (5*us),.eval hostThread,
    .reply hostThread r,.eval hostThread,.advance (2*us)]

def controlRun (r : TlmResponse) : List (DrdLabel A n) := .eval hostThread::transferRun r

end Runs

section Scheduling
variable {A γ : Type} {n : ℕ} {act : A → Drd → Option Drd} {present : Process → Bool}
  {w : Watch γ Drd WaitPoint Payload TlmResponse Loop A Payload (Tid n)}
  {ok : γ → DrdConf n → DrdLabel A n → Prop}

/-- Only the ring loop ends a turn without a suspension, and only toward the main loop. -/
def Loop.rank : Loop → ℕ
  | .transferRing => 1
  | _ => 0

theorem loopCode_ends (l : Loop) (body : DrdProc Loop) (s : Drd) (h : loopCode l = some body) :
    body.wp Proc.ending (fun l' _ => l'.rank < l.rank) s := by
  have hsend := ProtocolLayer.routeTx_ending
  cases l with
  | hostMain =>
    cases h
    simp [HostController.hostMainLoop,HostController.awaitEnable,HostController.modifyDev,
      HostController.enumerateDevice,HostController.getDescriptor,HostController.ctrlTransfer,
      ProtocolLayer.hostBTransport,hsend]
  | transferRing =>
    cases h
    simp [HostController.processTransferRing,HostController.dequeue,HostController.runTrb,
      Loop.rank]
    intro _ hr
    split
    · simp
    · simp [ProtocolLayer.hostBTransport,hsend]
  | roleDetection => cases h; simp [RoleManager.roleDetectionLoop]
  | roleSwitch => cases h; simp [DrdController.roleSwitchLoop]
  | interruptCollector => cases h; simp [methodLoop]
  | forwardInputs => cases h; simp [methodLoop]
  | loopback => cases h; simp [DeviceController.loopbackLoop]
  | returned r => cases h

/-- Every runnable process can be evaluated: the fuel of the scheduler suffices. -/
theorem eval_isSome {c : DrdConf n} {t : Tid n} (h : (c.thread t).isReady = true) :
    ((kernelOf n act).step c (.eval t)).isSome := by
  cases ht : c.thread t with
  | ready o p =>
    have hrank : ∀ l : Loop, l.rank < 2 := by
      intro l
      cases l <;> simp [Loop.rank]
    have hp : p.wp Proc.ending (fun l _ => l.rank < 2) c.state :=
      Proc.wp_ending_of_forall p (fun l _ => hrank l) _
    have hseg := Kernel.segment_isSome loopCode_ends hp
    simpa [Kernel.step,ht,kernelOf] using hseg
  | _ => simp [ht,Thread.isReady] at h

theorem absent_idle {g : γ} {c : DrdConf n} {p : Process} (hp : present p = false)
    (hr : Reach (kernelOf n act) (bootWith n present) w ok g c) : c.thread (.inl p) = .idle := by
  induction hr with
  | boot => simp [bootWith,hp]
  | @step g c l c' _ _ hs ih =>
    cases l with
    | eval t =>
      obtain ⟨o,q,s,stop,ht,-,rfl⟩ := step_eval hs
      have hne : (.inl p : Tid n) ≠ t := by
        rintro rfl
        simp [ih] at ht
      simpa [Function.update_of_ne hne] using ih
    | act a => obtain ⟨s,-,rfl⟩ := step_act hs; exact ih
    | enter t e =>
      obtain ⟨q,-,hq,rfl⟩ := step_enter hs
      have hne : (.inl p : Tid n) ≠ t := by
        rintro rfl
        cases hq
      simpa [Function.update_of_ne hne] using ih
    | reply t r =>
      obtain ⟨q,next,ht,rfl⟩ := step_reply hs
      have hne : (.inl p : Tid n) ≠ t := by
        rintro rfl
        simp [ih] at ht
      simpa [Function.update_of_ne hne] using ih
    | delta => obtain ⟨-,rfl⟩ := step_delta hs; simp [ih,Thread.notify]
    | advance d => obtain ⟨-,-,-,rfl⟩ := step_advance hs; simp [ih,Thread.expire]

theorem bootWith_wellTimed : (bootWith n present).WellTimed (kernelOf n act) := by
  intro t w due next ht hd
  match t with
  | .inl p =>
    simp only [bootWith] at ht
    split at ht
    · cases p <;> cases ht
      rfl
    · cases ht
  | .inr i => cases ht

end Scheduling

end Usb3Drd
