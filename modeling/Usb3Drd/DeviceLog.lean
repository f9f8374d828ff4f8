import Usb3Drd.Footprint
import Usb3Drd.Inbound

/-! The history of the device side of a run: the packets that an enabled device controller
took, the turns of its loopback, and the payloads that it sent. -/
namespace Usb3Drd

open Coop DeviceController Inbound

namespace DeviceLog

def Moves (s : Drd) : Prop := s.devCtrl.mConfigured = true ∧ s.devCtrl.mEp2Out.hasData = true

instance (s : Drd) : Decidable (Moves s) := inferInstanceAs (Decidable (_ ∧ _))

def loopGuar : Origin WaitPoint Payload TlmResponse → Drd → Loc WaitPoint Payload TlmResponse →
    Drd → Prop
  | .start, s, l, s' => s' = s ∧ l = .waiting .outEp
  | .woke w, s, l, s' =>
    if w = .outEp then
      if Moves s then
        (∃ layer, s' = { moveLoopback s with protocol := layer }) ∧
          ∃ q, l = .calling q ∧ q.pktType = some .tpErdy
      else s' = s ∧ l = .waiting .outEp
    else s' = { s with sigBulkIrq := s.sigBulkIrq.write false } ∧ l = .waiting .outEp
  | .returned _ _, s, l, s' =>
    s' = { s with sigBulkIrq := s.sigBulkIrq.write true } ∧ l = .waiting .bulkIrqPulse

def loopHead (l : Loop) (x : Trail Unit Drd WaitPoint Payload TlmResponse) : Prop :=
  l = .loopback ∧ loopGuar x.origin x.start (.waiting .outEp) x.state

abbrev loopSpec : Spec Unit Drd WaitPoint Payload TlmResponse Loop := .evals loopGuar loopHead

theorem loopSpec_loops : loopSpec.Loops loopCode := by
  rintro l x ⟨rfl,h⟩
  simp only [loopCode,Spec.Safe,loopbackLoop,Proc.wp_bind,Proc.wp_sleep,Spec.setting_onWait,
    Spec.wp_read,Proc.wp_ite]
  refine ⟨⟨h,trivial⟩,fun g s _ => ⟨fun hoff => ?_,fun hon => ⟨fun hfull => ?_,fun hempty => ?_⟩⟩⟩
  · have hstay : ¬Moves s := fun hm => absurd (hoff.symm.trans hm.1) (by simp)
    refine ⟨rfl,?_⟩
    simp only [loopGuar,if_true,if_neg hstay,and_self]
  · have hmoves : Moves s := ⟨by simpa using hon,hfull⟩
    simp only [Proc.wp_bind,Spec.wp_modify]
    refine sendToProtocol_wp _ _ fun q layer hty _ => ⟨⟨?_,trivial⟩,fun r g s _ => ?_⟩
    · show loopGuar (.woke .outEp) s (.calling q) _
      simp only [loopGuar,if_true,if_pos hmoves]
      exact ⟨⟨layer,rfl⟩,q,rfl,hty⟩
    · exact ⟨⟨⟨rfl,rfl⟩,trivial⟩,fun g s _ => ⟨rfl,rfl,rfl⟩⟩
  · have hstay : ¬Moves s := fun hm => hempty hm.2
    refine ⟨rfl,?_⟩
    simp only [loopGuar,if_true,if_neg hstay,and_self]

theorem loopSpec_meets {A : Type} {n : ℕ} {act : A → Drd → Option Drd} {present : Process → Bool} :
    Meets (kernelOf n act) (bootWith n present) noWatch (fun _ _ _ => True) loopbackThread
      loopSpec := by
  refine .plain loopSpec_loops (fun e p hp => by cases hp) bootWith_wellTimed ?_
    (fun _ _ _ _ _ _ => trivial) (fun _ _ _ _ _ _ => rfl)
  simp only [bootWith]
  split
  · exact ⟨trivial,fun g s _ _ => ⟨rfl,rfl,rfl⟩⟩
  · trivial

/-- What happened to the device controller: it took a packet, or its loopback was woken. -/
inductive Event
  | packet (p : Payload) (s s' : Drd)
  | turn (s s' : Drd)
  deriving DecidableEq

end DeviceLog

/-- The packet of each open call, the events so far, and the payloads of the BULK_IN
packets that the device controller sent. -/
structure DeviceLog (n : ℕ) where
  arrived : Tid n → Option Payload := fun _ => none
  events : List DeviceLog.Event := []
  sent : List (List Byte) := []

namespace DeviceLog
variable {n : ℕ}

def eventAt (g : DeviceLog n) (c c' : DrdConf n) (t : Tid n) : List Event :=
  match t with
  | .inr _ =>
    match g.arrived t with
    | some p =>
      if c.loc t = .ready .start ∧ Handled p c.state then [.packet p c.state c'.state] else []
    | none => []
  | .inl .loopbackProcess =>
    if c.loc t = .ready (.woke .outEp) then [.turn c.state c'.state] else []
  | .inl _ => []

def bulkInOf : Said → List (List Byte)
  | some (some .bulkIn,data) => [data]
  | _ => []

def sentAt (c' : DrdConf n) (t : Tid n) : List (List Byte) :=
  match t with
  | .inr _ => bulkInOf (saidAt (c'.loc t))
  | .inl .loopbackProcess => bulkInOf (saidAt (c'.loc t))
  | .inl _ => []

def deviceLog (n : ℕ) :
    Watch (DeviceLog n) Drd WaitPoint Payload TlmResponse Loop Action Payload (Tid n) where
  init := {}
  next g c l c' :=
    match l with
    | .enter t p => { g with arrived := Function.update g.arrived t (some p) }
    | .eval t =>
      { g with events := g.events ++ eventAt g c c' t, sent := g.sent ++ sentAt c' t }
    | _ => g

/-- The device controller without its pending notification, and what it shows as configured. -/
def core (s : Drd) : DeviceController × Bool :=
  ({ s.devCtrl with mOutEpEvent := false },s.sigConfigured.nxt)

/-- What one step of a run does to the device controller, and how the history notes it. -/
inductive DeviceStep (g : DeviceLog n) (s : Drd) (g' : DeviceLog n) (s' : Drd) : Prop
  | still (hevents : g'.events = g.events) (hsent : g'.sent = g.sent) (hcore : core s' = core s)
  | packet (p : Payload) (h : Handled p s) (hevents : g'.events = g.events ++ [.packet p s s'])
      (hsent : g'.sent = g.sent ++ bulkInOf (answer p s)) (hcore : core s' = core (absorb p s))
  | turn (hevents : g'.events = g.events ++ [.turn s s']) (hsent : g'.sent = g.sent)
      (hcore : core s' = core (if Moves s then moveLoopback s else s))

theorem deviceLog_records : Records (deviceLog n) DeviceLog.arrived :=
  .of_update (fun _ _ _ _ _ => rfl) fun g c l c' hl => by
    cases l with
    | enter t e => exact absurd rfl (hl t e)
    | _ => rfl

theorem call_server (i : Fin n) : Server (drdKernel n) (drdBoot n) (deviceLog n) DeviceLog.arrived
    (.inr i) callGuar callHead :=
  inbound_server deviceLog_records i

section Steps
variable {ok : DeviceLog n → DrdConf n → DrdLabel Action n → Prop} {g : DeviceLog n}
  {c c' : DrdConf n} {l : DrdLabel Action n}

theorem loop_eval (ht : Taken (drdKernel n) (drdBoot n) (deviceLog n) ok g c
    (.eval loopbackThread) c') : ∃ o, c.loc loopbackThread = .ready o ∧
      loopGuar o c.state (c'.loc loopbackThread) c'.state := by
  obtain ⟨o,hloc,-,hguar⟩ := loopSpec_meets.guar ht.forget
  exact ⟨o,hloc,hguar⟩

theorem core_peer {p : Process} (hp : p ≠ .loopbackProcess)
    (ht : Taken (drdKernel n) (drdBoot n) (deviceLog n) ok g c (.eval (.inl p)) c') :
    c'.state.devCtrl = c.state.devCtrl ∧ c'.state.sigConfigured = c.state.sigConfigured := by
  have hkeep := taken_unwritten ht
  have hdev := congrArg (·.devCtrl) hkeep
  have hconf := congrArg (·.sigConfigured) hkeep
  cases p with
  | loopbackProcess => exact absurd rfl hp
  | _ => exact ⟨hdev,hconf⟩

theorem core_absorb_pass (p : Payload) (s : Drd) : core (passBy p s) = core s := by
  obtain ⟨_,hs⟩ := passBy_frame p s
  rw [hs]
  rfl

theorem deviceStep_call {i : Fin n}
    (ht : Taken (drdKernel n) (drdBoot n) (deviceLog n) ok g c (.eval (.inr i)) c') :
    DeviceStep g c.state ((deviceLog n).next g c (.eval (.inr i)) c') c'.state := by
  obtain ⟨p,o,hp,hloc,hguar⟩ := (call_server i).eval ht
  have hlater : o ≠ .start → eventAt g c c' (.inr i) = [] := by
    intro ho
    simp [eventAt,hp,hloc,ho]
  have hsent : sentAt c' (.inr i) = bulkInOf (saidAt (c'.loc (.inr i))) := rfl
  cases o with
  | start =>
    by_cases hh : Handled p c.state
    · rw [callGuar,if_pos hh] at hguar
      obtain ⟨⟨layer,hs⟩,hsaid⟩ := hguar
      refine .packet p hh ?_ ?_ (by rw [hs]; rfl)
      · simp [deviceLog,eventAt,hp,hloc,hh]
      · simp only [deviceLog,hsent,hsaid]
    · rw [callGuar,if_neg hh] at hguar
      refine .still ?_ ?_ (by rw [hguar.1,core_absorb_pass])
      · simp [deviceLog,eventAt,hp,hloc,hh]
      · simp only [deviceLog,hsent,hguar.2,bulkInOf,List.append_nil]
  | woke w =>
    refine .still ?_ ?_ (by rw [hguar.1])
    · simp only [deviceLog,hlater (by simp),List.append_nil]
    · simp only [deviceLog,hsent,hguar.2,bulkInOf,List.append_nil]
  | returned q r =>
    refine .still ?_ ?_ (by rw [hguar.1])
    · simp only [deviceLog,hlater (by simp),List.append_nil]
    · simp only [deviceLog,hsent,hguar.2,bulkInOf,List.append_nil]

theorem deviceStep_loop
    (ht : Taken (drdKernel n) (drdBoot n) (deviceLog n) ok g c (.eval loopbackThread) c') :
    DeviceStep g c.state ((deviceLog n).next g c (.eval loopbackThread) c') c'.state := by
  obtain ⟨o,hloc,hguar⟩ := loop_eval ht
  have hlater : o ≠ .woke .outEp → eventAt g c c' loopbackThread = [] := by
    intro ho
    simp [eventAt,hloc,ho]
  have hsent : sentAt c' loopbackThread = bulkInOf (saidAt (c'.loc loopbackThread)) := rfl
  have hsilent : ∀ w, c'.loc loopbackThread = .waiting w → sentAt c' loopbackThread = [] := by
    intro w hw
    rw [hsent,hw]
    rfl
  cases o with
  | start =>
    refine .still ?_ ?_ (by rw [hguar.1])
    · simp only [deviceLog,hlater (by simp),List.append_nil]
    · simp only [deviceLog,hsilent _ hguar.2,List.append_nil]
  | returned q r =>
    refine .still ?_ ?_ (by rw [hguar.1]; rfl)
    · simp only [deviceLog,hlater (by simp),List.append_nil]
    · simp only [deviceLog,hsilent _ hguar.2,List.append_nil]
  | woke w =>
    rw [loopGuar] at hguar
    by_cases hw : w = .outEp
    · subst hw
      rw [if_pos rfl] at hguar
      have hevent : eventAt g c c' loopbackThread = [.turn c.state c'.state] := by
        simp [eventAt,hloc]
      by_cases hm : Moves c.state
      · rw [if_pos hm] at hguar
        obtain ⟨⟨layer,hs⟩,q,hq,hty⟩ := hguar
        refine .turn ?_ ?_ (by rw [if_pos hm,hs]; rfl)
        · simp only [deviceLog,hevent]
        · simp only [deviceLog,hsent,hq,saidAt,hty,bulkInOf,List.append_nil]
      · rw [if_neg hm] at hguar
        refine .turn ?_ ?_ (by rw [if_neg hm,hguar.1])
        · simp only [deviceLog,hevent]
        · simp only [deviceLog,hsilent _ hguar.2,List.append_nil]
    · rw [if_neg hw] at hguar
      refine .still ?_ ?_ (by rw [hguar.1]; rfl)
      · simp only [deviceLog,hlater (by simpa using hw),List.append_nil]
      · simp only [deviceLog,hsilent _ hguar.2,List.append_nil]

theorem core_between (hs : (drdKernel n).step c l = some c') (hl : ∀ t, l ≠ .eval t) :
    core c'.state = core c.state := by
  refine step_keeps hs hl (fun a s _ ha => ?_) fun _ => rfl
  have hkeep := congrArg core (Action.apply_unwritten ha)
  exact hkeep

/-- Every step of a run is a packet taken, a turn of the loopback, or none of both. -/
theorem deviceStep (ht : Taken (drdKernel n) (drdBoot n) (deviceLog n) ok g c l c') :
    DeviceStep g c.state ((deviceLog n).next g c l c') c'.state := by
  cases l with
  | eval t =>
    rcases t with p | i
    · by_cases hp : p = .loopbackProcess
      · subst hp
        exact deviceStep_loop ht
      · obtain ⟨hdev,hconf⟩ := core_peer hp ht
        have hnone : eventAt g c c' (.inl p) = [] ∧ sentAt c' (.inl p) = [] := by
          cases p with
          | loopbackProcess => exact absurd rfl hp
          | _ => exact ⟨rfl,rfl⟩
        refine .still ?_ ?_ (by rw [core,core,hdev,hconf])
        · simp only [deviceLog,hnone.1,List.append_nil]
        · simp only [deviceLog,hnone.2,List.append_nil]
    · exact deviceStep_call ht
  | _ => exact .still rfl rfl (core_between ht.step (by simp))

end Steps

def arrive (p : Payload) : List (DrdLabel Action 1) := [.enter (.inr 0) p,.eval (.inr 0)]

abbrev callThread : Tid 1 := .inr 0

def configurePacket : Payload :=
  { ext := some { pktType := .setup, setup := { bRequest := usbReqSetConfiguration, wValue := 1 } } }

def outPacket (data : List Byte) : Payload :=
  { data, ext := some { pktType := .bulkOut, endpoint := 2 } }

def inPacket : Payload := { ext := some { pktType := .bulkIn, endpoint := 1 } }

def loopRun (data : List Byte) : List (DrdLabel Action 1) :=
  arrive (outPacket data) ++ [.delta,.eval loopbackThread,.reply loopbackThread .ok,
    .eval loopbackThread,.delta,.eval collectorThread,.delta,.advance (10*ns),.eval loopbackThread,
    .delta]

end DeviceLog
end Usb3Drd
