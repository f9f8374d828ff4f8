import Usb3Drd.DeviceLog

/-! What a packet changes in a controller that is disabled. The device controller looks at
its enable; the mailbox of the host takes what the role sends there. -/
namespace Usb3Drd

open Coop HostController Inbound

namespace DisabledLink

variable {n : ℕ}

def hostPart (s : Drd) : List Byte × Bool × List Byte × Usb3DeviceInfo :=
  (s.hostCtrl.mRespData,s.hostCtrl.mRespValid,s.hostCtrl.mRxBuf,s.hostCtrl.mDev)

def devicePart (s : Drd) : Usb3EpFifo × Usb3EpFifo × BitVec 8 × Bool :=
  (s.devCtrl.mEp1In,s.devCtrl.mEp2Out,s.devCtrl.mAssignedAddr,s.devCtrl.mConfigured)

/-- A controller that is disabled in the first state is the same in the second. -/
def Ignored (s s' : Drd) : Prop :=
  (s.sigHostEnable.cur = false → hostPart s' = hostPart s) ∧
    (s.sigDevEnable.cur = false → devicePart s' = devicePart s)

/-- The packet has nothing to bring to a disabled host: the role does not take it there, or
it carries no data, or the mailbox holds the same data already. -/
def Harmless (p : Payload) (s : Drd) : Prop :=
  s.sigHostEnable.cur = false → ProtocolLayer.isForwarded p = true → s.sigRole.cur = .host →
    p.data = [] ∨ (s.hostCtrl.mRespData = p.data ∧ s.hostCtrl.mRespValid = true)

instance (s s' : Drd) : Decidable (Ignored s s') := inferInstanceAs (Decidable ((_ → _) ∧ (_ → _)))

instance (p : Payload) (s : Drd) : Decidable (Harmless p s) :=
  inferInstanceAs (Decidable (_ → _ → _ → _))

section Calls
variable {p : Payload} {s : Drd}

theorem devicePart_pass (p : Payload) (s : Drd) : devicePart (passBy p s) = devicePart s := by
  obtain ⟨_,hs⟩ := passBy_frame p s
  rw [hs]
  rfl

theorem hostPart_absorb (p : Payload) (s : Drd) : hostPart (absorb p s) = hostPart s := by
  rw [hostPart,hostPart,absorb_hostCtrl]

theorem hostPart_storeResponse (data : List Byte) (s : Drd) :
    hostPart (storeResponse data s) = hostPart s ↔
      data = [] ∨ (s.hostCtrl.mRespData = data ∧ s.hostCtrl.mRespValid = true) := by
  by_cases hdata : data = []
  · simp [storeResponse,hdata]
  · have hstore : hostPart (storeResponse data s) =
        (data,true,s.hostCtrl.mRxBuf,s.hostCtrl.mDev) := by
      rw [storeResponse,if_neg hdata]
      rfl
    rw [hstore,hostPart]
    simp only [Prod.mk.injEq,and_true,hdata,false_or]
    exact and_congr ⟨Eq.symm,Eq.symm⟩ ⟨Eq.symm,Eq.symm⟩

/-- A packet that does not reach an enabled device controller. -/
theorem ignored_pass (p : Payload) (s : Drd) : Ignored s (passBy p s) ↔ Harmless p s := by
  have hdevice : s.sigDevEnable.cur = false → devicePart (passBy p s) = devicePart s :=
    fun _ => devicePart_pass p s
  rw [Ignored,and_iff_left hdevice,Harmless]
  refine imp_congr_right fun _ => ?_
  by_cases hhost : ProtocolLayer.isForwarded p = true ∧ s.sigRole.cur = .host
  · rw [passBy,if_pos hhost,hostPart_storeResponse]
    exact ⟨fun h _ _ => h,fun h => h hhost.1 hhost.2⟩
  · rw [passBy,if_neg hhost]
    exact ⟨fun _ hf hrole => absurd ⟨hf,hrole⟩ hhost,fun _ => rfl⟩

end Calls

/-- A packet leaves every disabled controller alone exactly if it is harmless. What is left
of its call afterwards always does. -/
theorem ignored_iff (n : ℕ) (g : DeviceLog n) (c c' : DrdConf n) (i : Fin n) (p : Payload)
    (ht : Taken (drdKernel n) (drdBoot n) (DeviceLog.deviceLog n) (fun _ _ _ => True) g c
      (.eval (.inr i)) c') (hp : g.arrived (.inr i) = some p) :
    Ignored c.state c'.state ↔ (c.loc (.inr i) = .ready .start → Harmless p c.state) := by
  obtain ⟨p',o,hp',hloc,hguar⟩ := (DeviceLog.call_server i).eval ht
  obtain rfl : p' = p := Option.some.inj (hp'.symm.trans hp)
  have hlater : c'.state = c.state → Ignored c.state c'.state := by
    intro hs
    rw [hs]
    exact ⟨fun _ => rfl,fun _ => rfl⟩
  rw [hloc]
  cases o with
  | start =>
    rw [forall_prop_of_true rfl]
    by_cases hh : Handled p' c.state
    · rw [callGuar,if_pos hh] at hguar
      obtain ⟨⟨layer,hs⟩,-⟩ := hguar
      obtain ⟨-,hrole,hon⟩ := hh
      refine iff_of_true ⟨fun _ => ?_,fun hoff => absurd (hoff.symm.trans hon) (by simp)⟩
        fun _ _ hhost => absurd (hrole.symm.trans hhost) (by simp)
      rw [hs]
      exact hostPart_absorb p' c.state
    · rw [callGuar,if_neg hh] at hguar
      rw [hguar.1]
      exact ignored_pass p' c.state
  | woke w => exact iff_of_true (hlater hguar.1) fun hstart => by cases hstart
  | returned q r => exact iff_of_true (hlater hguar.1) fun hstart => by cases hstart

def dataPacket : Payload := { data := [1], ext := some {} }

/-- An acknowledgement does not reach the mailbox of the disabled host. -/
theorem ignored_ack : ∃ g c c', Taken (drdKernel 1) (drdBoot 1) (DeviceLog.deviceLog 1)
    (fun _ _ _ => True) g c (.eval (.inr 0)) c' ∧ c.state.sigHostEnable.cur = false ∧
      c.state.sigRole.cur = .host ∧ Ignored c.state c'.state := by
  let ack : Payload := { data := [1], ext := some { pktType := .tpAck } }
  obtain ⟨g,c,c',ht,hoff,hrole,hp⟩ := exists_taken (drdKernel 1) (drdBoot 1) (DeviceLog.deviceLog 1)
    (fun _ _ _ => True) (.eval (.inr 0)) (fun g c _ => c.state.sigHostEnable.cur = false ∧
      c.state.sigRole.cur = .host ∧ g.arrived (.inr 0) = some ack)
    (roleRun .ufpAttached ++ [.enter (.inr 0) ack]) (by decide +kernel)
  have hharmless : Harmless ack c.state := fun _ hf _ => absurd hf (by decide)
  exact ⟨g,c,c',ht,hoff,hrole,(ignored_iff 1 g c c' 0 ack ht hp).mpr fun _ => hharmless⟩

/-- A packet that comes before the host is enabled fills its mailbox. -/
theorem not_ignored_beforeEnable : ¬ ∀ g c c',
    Taken (drdKernel 1) (drdBoot 1) (DeviceLog.deviceLog 1) (fun _ _ _ => True) g c
      (.eval (.inr 0)) c' → Ignored c.state c'.state := by
  intro h
  obtain ⟨g,c,c',ht,hchanged⟩ := exists_taken (drdKernel 1) (drdBoot 1) (DeviceLog.deviceLog 1)
    (fun _ _ _ => True) (.eval (.inr 0)) (fun _ c c' => ¬Ignored c.state c'.state)
    (roleRun .ufpAttached ++ [.enter (.inr 0) dataPacket]) (by decide +kernel)
  exact hchanged (h g c c' ht)

end DisabledLink
end Usb3Drd
