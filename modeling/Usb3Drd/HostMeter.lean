import Usb3Drd.Coop.Meter
import Usb3Drd.Footprint

/-! The code of the host thread against a meter. What is asked of the meter is that each packet
sent moves it as it tells, and that it may run on when the mailbox is emptied. -/
namespace Usb3Drd
namespace HostMeter

open Coop Proc ProtocolLayer HostController

def mail (s : Drd) : List Byte × Bool := (s.hostCtrl.mRespData,s.hostCtrl.mRespValid)

def Drains (m m' : List Byte × Bool) : Prop := m' = m ∨ m'.2 = false

instance : IsPreorder (List Byte × Bool) Drains where
  refl _ := .inl rfl
  trans m m' m'' h h' := by
    rcases h' with rfl | hempty
    · exact h
    · exact .inr hempty

/-- A meter that only packets, and at most the draining of the mailbox, can move. -/
structure Obeys {X : Type} (f : Drd → X) (runs : X → X → Prop) (moves : X → Payload → X → Prop)
    (own : Loop → Prop) : Prop where
  send : ∀ p, p.ext.isSome = true → Metered f runs moves own (routeTx p)
  edit : ∀ s s', s'.protocol = s.protocol → Drains (mail s) (mail s') → runs (f s) (f s')

variable {X : Type} {f : Drd → X} {runs : X → X → Prop} {moves : X → Payload → X → Prop}
  {own : Loop → Prop} [IsPreorder X runs]

theorem Obeys.modify (hm : Obeys f runs moves own) {g : Drd → Drd}
    (hlayer : ∀ s, (g s).protocol = s.protocol) (hmail : ∀ s, mail (g s) = mail s) :
    Metered f runs moves own (Proc.modify g : DrdProc Unit) :=
  .modify fun s => hm.edit s _ (hlayer s) (.inl (hmail s))

theorem ctrlTransfer_metered (hm : Obeys f runs moves own) (devAddr : BitVec 8)
    (setup : Usb3SetupPkt) (dataBuf : List Byte) (hostToDevice : Bool) :
    Metered f runs moves own (ctrlTransfer devAddr setup dataBuf hostToDevice) := by
  refine .bind (hm.send _ rfl) fun _ => .bind (.sleep _) fun _ => .bind ?_ fun dataBuf => ?_
  · refine .ite (.pure trivial) (.ite ?_ ?_)
    · refine .bind (.read _) fun _ => .ite ?_ (.pure trivial)
      refine .bind (.read _) fun _ => .bind (.modify fun s => ?_) fun _ => .pure trivial
      exact hm.edit s _ rfl (.inr rfl)
    · exact .bind (hm.send _ rfl) fun _ => .bind (.sleep _) fun _ => .pure trivial
  · exact .bind (hm.send _ rfl) fun _ => .bind (.sleep _) fun _ => .pure trivial

theorem enumerateDevice_metered (hm : Obeys f runs moves own) :
    Metered f runs moves own enumerateDevice := by
  have hdev : ∀ h, Metered f runs moves own (modifyDev h) :=
    fun h => hm.modify (fun _ => rfl) fun _ => rfl
  have hget : ∀ a t i buf, Metered f runs moves own (getDescriptor a t i buf) :=
    fun _ _ _ _ => ctrlTransfer_metered hm _ _ _ _
  have hset : ∀ a setup, Metered f runs moves own
      (do let r ← ctrlTransfer a setup [] true; pure r.1) :=
    fun _ _ => .bind (ctrlTransfer_metered hm _ _ _ _) fun _ => .pure trivial
  have htake : Metered f runs moves own takeAddr :=
    .bind (.read _) fun _ => .bind (hm.modify (fun _ => rfl) fun _ => rfl) fun _ => .pure trivial
  refine .bind (hget _ _ _ _) fun _ => .ite (.pure trivial) (.bind (hdev _) fun _ => ?_)
  refine .bind htake fun _ => .bind (hset _ _) fun _ => .ite (.pure trivial) ?_
  refine .bind (hdev _) fun _ => .bind (hm.modify (fun _ => rfl) fun _ => rfl) fun _ => ?_
  refine .bind (.sleep _) fun _ => .bind (.read _) fun _ => .bind (hget _ _ _ _) fun _ => ?_
  refine .ite (.pure trivial) (.bind (hdev _) fun _ => .bind (.read _) fun _ => ?_)
  refine .bind (hget _ _ _ _) fun _ => .bind (.read _) fun _ => .bind (hset _ _) fun _ => ?_
  refine .ite (.pure trivial) (.bind (hdev _) fun _ => ?_)
  refine .bind (hm.modify (fun _ => rfl) fun _ => rfl) fun _ => .bind (.sleep _) fun _ => ?_
  exact hm.modify (fun _ => rfl) fun _ => rfl

theorem runTrb_metered (hm : Obeys f runs moves own) (trb : Usb3Trb) :
    Metered f runs moves own (runTrb trb) := by
  have hreceive : ∀ s, runs (f s) (f (receive trb s)) := by
    intro s
    refine hm.edit s _ ?_ ?_
    · unfold receive
      split <;> rfl
    · unfold receive
      split
      · exact .inr rfl
      · exact .inl rfl
  refine .bind (hm.send _ rfl) fun _ => .bind (.modify hreceive) fun _ => .ite ?_ (.pure trivial)
  refine .bind (hm.modify (fun _ => rfl) fun _ => rfl) fun _ => .bind (.sleep _) fun _ => ?_
  exact hm.modify (fun _ => rfl) fun _ => rfl

theorem processTransferRing_metered (hm : Obeys f runs moves own) :
    MeteredTo f runs moves own Process.hostMainProcess.runs processTransferRing := by
  refine .bind (.read _) fun _ => .ite (.pure (.inl rfl)) (.bind (.read _) fun _ => .ite ?_ ?_)
  · exact .bind (.sleep _) fun _ => .pure (.inr rfl)
  · refine .bind (.bind (.read _) fun ring => ?_) fun trb => .bind (runTrb_metered hm trb) fun _ =>
      .pure (.inr rfl)
    split
    · exact .bind (.sleep _) fun _ => .pure trivial
    · exact .bind (hm.modify (fun _ => rfl) fun _ => rfl) fun _ => .pure trivial

theorem hostMainLoop_metered (hm : Obeys f runs moves own) :
    MeteredTo f runs moves own Process.hostMainProcess.runs hostMainLoop := by
  refine .bind (.bind (.read _) fun _ => .ite (.sleep _) (.pure trivial)) fun _ => ?_
  refine .bind (hm.modify (fun _ => rfl) fun _ => rfl) fun _ => ?_
  exact .bind (enumerateDevice_metered hm) fun _ => .pure (.inr rfl)

/-- The loops of the host thread obey the meter, and so does its start. -/
theorem hostCode_metered (hm : Obeys f runs moves own) (l : Loop) (body : DrdProc Loop)
    (hl : Process.hostMainProcess.runs l) (hbody : loopCode l = some body) :
    MeteredTo f runs moves own Process.hostMainProcess.runs body := by
  obtain rfl | rfl := hl
  · cases hbody
    exact hostMainLoop_metered hm
  · cases hbody
    exact processTransferRing_metered hm

theorem hostMainProcess_metered (hm : Obeys f runs moves own) :
    MeteredTo f runs moves own Process.hostMainProcess.runs hostMainProcess :=
  .bind (hm.modify (fun _ => rfl) fun _ => rfl) fun _ => .pure (.inl rfl)

end HostMeter
end Usb3Drd
