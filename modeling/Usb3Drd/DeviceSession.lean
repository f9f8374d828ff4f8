import Usb3Drd.DeviceLog

/-! What the device controller remembers when it is enabled. Nothing resets it, so it is
what the packets of all earlier sessions have left. -/
namespace Usb3Drd

open Coop DeviceController Inbound DeviceLog

namespace DeviceSession

variable {n : ℕ}

/-- The default state of a USB device. -/
def Default (s : Drd) : Prop :=
  s.devCtrl.mAssignedAddr = 0 ∧ s.devCtrl.mConfigured = false ∧ s.sigConfigured.cur = false ∧
    s.devCtrl.mEp1In = {} ∧ s.devCtrl.mEp2Out = {}

instance (s : Drd) : Decidable (Default s) := inferInstanceAs (Decidable (_ ∧ _ ∧ _ ∧ _ ∧ _))

def taken : Event → Kind
  | .packet p _ _ => kind p
  | .turn _ _ => .other

def addressAfter (a : BitVec 8) : Kind → BitVec 8
  | .address b => b
  | _ => a

/-- The address that the SET_ADDRESS requests so far leave. -/
def lastAddress (events : List Event) : BitVec 8 :=
  events.foldl (fun a e => addressAfter a (taken e)) 0

def configured (events : List Event) : Bool := events.any fun e => taken e = .configure

def filled (events : List Event) : Bool := events.any fun e => taken e = .out

/-- What the events so far leave of the default state. -/
structure Left (events : List Event) (s : Drd) : Prop where
  address : s.devCtrl.mAssignedAddr = lastAddress events
  configuration : s.devCtrl.mConfigured = configured events
  shown : s.sigConfigured.nxt = configured events
  given : configured events = false → s.devCtrl.mEp1In = {}
  taking : configured events = false → s.devCtrl.mEp2Out.hasData = filled events
  empty : filled events = false → s.devCtrl.mEp2Out = {}

section Events
variable {events : List Event} {e : Event} {s s' : Drd} {p : Payload}

theorem lastAddress_snoc : lastAddress (events ++ [e]) = addressAfter (lastAddress events) (taken e) := by
  simp [lastAddress]

theorem configured_snoc : configured (events ++ [e]) = (configured events || decide (taken e = .configure)) := by
  simp [configured]

theorem filled_snoc : filled (events ++ [e]) = (filled events || decide (taken e = .out)) := by
  simp [filled]

theorem absorb_mAssignedAddr (p : Payload) (s : Drd) : (absorb p s).devCtrl.mAssignedAddr =
    addressAfter s.devCtrl.mAssignedAddr (kind p) := by
  cases hkind : kind p with
  | bulkIn =>
    simp only [absorb,hkind,addressAfter]
    split <;> rfl
  | _ => simp [absorb,hkind,addressAfter]

theorem Left.congr (h : Left events s) (hcore : core s' = core s) : Left events s' := by
  have haddr : s'.devCtrl.mAssignedAddr = s.devCtrl.mAssignedAddr := congrArg (·.1.mAssignedAddr) hcore
  have hconf : s'.devCtrl.mConfigured = s.devCtrl.mConfigured := congrArg (·.1.mConfigured) hcore
  have hshown : s'.sigConfigured.nxt = s.sigConfigured.nxt := congrArg (·.2) hcore
  have hone : s'.devCtrl.mEp1In = s.devCtrl.mEp1In := congrArg (·.1.mEp1In) hcore
  have htwo : s'.devCtrl.mEp2Out = s.devCtrl.mEp2Out := congrArg (·.1.mEp2Out) hcore
  exact ⟨haddr.trans h.address,hconf.trans h.configuration,hshown.trans h.shown,
    fun hc => hone.trans (h.given hc),fun hc => by rw [htwo]; exact h.taking hc,
    fun hf => htwo.trans (h.empty hf)⟩

theorem Left.packet (h : Left events s) (s' : Drd) :
    Left (events ++ [.packet p s s']) (absorb p s) := by
  have hkind : taken (.packet p s s') = kind p := rfl
  have hearlier : configured (events ++ [.packet p s s']) = false → configured events = false := by
    rw [configured_snoc]
    intro hc
    exact (Bool.or_eq_false_iff.mp hc).1
  constructor
  · rw [absorb_mAssignedAddr,lastAddress_snoc,h.address,hkind]
  · rw [absorb_mConfigured,configured_snoc,h.configuration,hkind]
  · rw [absorb_sigConfigured,configured_snoc,hkind,← h.shown]
    split
    · rename_i hset
      simp [hset]
    · rename_i hset
      simp [hset]
  · intro hc
    have hone := h.given (hearlier hc)
    rw [absorb_mEp1In,hone]
    split <;> rfl
  · intro hc
    have htwo := h.taking (hearlier hc)
    rw [absorb_mEp2Out,filled_snoc,hkind,← htwo]
    split
    · rename_i hout
      simp [hout,Usb3EpFifo.write]
    · rename_i hout
      simp [hout]
  · intro hf
    rw [filled_snoc,Bool.or_eq_false_iff] at hf
    have hout : kind p ≠ .out := by simpa [hkind] using hf.2
    rw [absorb_mEp2Out,if_neg hout]
    exact h.empty hf.1

theorem Left.turn (h : Left events s) (s' : Drd) :
    Left (events ++ [.turn s s']) (if Moves s then moveLoopback s else s) := by
  have haddr : lastAddress (events ++ [.turn s s']) = lastAddress events := lastAddress_snoc
  have hconf : configured (events ++ [.turn s s']) = configured events := by
    rw [configured_snoc]
    exact Bool.or_false _
  have hfill : filled (events ++ [.turn s s']) = filled events := by
    rw [filled_snoc]
    exact Bool.or_false _
  by_cases hm : Moves s
  · have hset : configured events = true := h.configuration ▸ hm.1
    rw [if_pos hm]
    refine ⟨haddr ▸ h.address,hconf ▸ h.configuration,hconf ▸ h.shown,?_,?_,fun _ => rfl⟩
    · intro hc
      rw [hconf,hset] at hc
      cases hc
    · intro hc
      rw [hconf,hset] at hc
      cases hc
  · rw [if_neg hm]
    exact ⟨haddr ▸ h.address,hconf ▸ h.configuration,hconf ▸ h.shown,hconf ▸ h.given,
      fun hc => hfill ▸ h.taking (hconf ▸ hc),hfill ▸ h.empty⟩

end Events

section Runs
variable {ok : DeviceLog n → DrdConf n → DrdLabel Action n → Prop} {g : DeviceLog n}
  {c c' : DrdConf n}

theorem left_reach (hr : Reach (drdKernel n) (drdBoot n) (deviceLog n) ok g c) :
    Left g.events c.state := by
  induction hr with
  | boot => exact ⟨rfl,rfl,rfl,fun _ => rfl,fun _ => rfl,fun _ => rfl⟩
  | @step g c l c' hr hk hs ih =>
    cases deviceStep ⟨hr,hk,hs⟩ with
    | still hevents hsent hcore => exact hevents ▸ ih.congr hcore
    | packet p hp hevents hsent hcore => exact hevents ▸ (ih.packet c'.state).congr hcore
    | turn hevents hsent hcore => exact hevents ▸ (ih.turn c'.state).congr hcore

end Runs

/-- The packets so far have left no address, no configuration and no OUT data. -/
def Unused (events : List Event) : Prop :=
  lastAddress events = 0 ∧ ∀ e ∈ events, taken e ≠ .configure ∧ taken e ≠ .out

instance (events : List Event) : Decidable (Unused events) := inferInstanceAs (Decidable (_ ∧ _))

theorem unused_iff (events : List Event) :
    Unused events ↔ lastAddress events = 0 ∧ configured events = false ∧ filled events = false := by
  simp only [Unused,configured,filled,List.any_eq_false,decide_eq_true_eq]
  constructor
  · rintro ⟨haddr,h⟩
    exact ⟨haddr,fun e he => (h e he).1,fun e he => (h e he).2⟩
  · rintro ⟨haddr,hconf,hfill⟩
    exact ⟨haddr,fun e he => ⟨hconf e he,hfill e he⟩⟩

/-- The device controller is enabled in the default state exactly if no packet since reset
configured it or brought OUT data, and the last SET_ADDRESS gave address zero. -/
theorem default_iff (n : ℕ) (g : DeviceLog n) (c c' : DrdConf n)
    (ht : Taken (drdKernel n) (drdBoot n) (deviceLog n) (fun _ _ _ => True) g c .delta c')
    (_hrise : c.state.sigDevEnable.rises = true) : Default c'.state ↔ Unused g.events := by
  have hleft := left_reach ht.reach
  obtain ⟨-,rfl⟩ := step_delta ht.step
  rw [unused_iff]
  constructor
  · rintro ⟨haddr,hconf,-,-,htwo⟩
    have hset : configured g.events = false := hleft.configuration.symm.trans hconf
    have hempty : c.state.devCtrl.mEp2Out = {} := htwo
    refine ⟨hleft.address.symm.trans haddr,hset,?_⟩
    rw [← hleft.taking hset,hempty]
  · rintro ⟨haddr,hset,hfill⟩
    exact ⟨hleft.address.trans haddr,hleft.configuration.trans hset,hleft.shown.trans hset,
      hleft.given hset,hleft.empty hfill⟩

/-- A session in which the device only told its descriptor leaves the default state to the next. -/
theorem default_second : ∃ g c c', Taken (drdKernel 1) (drdBoot 1) (deviceLog 1) (fun _ _ _ => True)
    g c .delta c' ∧ c.state.sigDevEnable.rises = true ∧ g.events.length = 1 ∧ Default c'.state := by
  let ask := HostController.setupPacket 0 (HostController.descriptorRequest usbDescDevice 0)
  obtain ⟨g,c,c',ht,hrise,hone,hunused⟩ := exists_taken (drdKernel 1) (drdBoot 1) (deviceLog 1)
    (fun _ _ _ => True) .delta
    (fun g c _ => c.state.sigDevEnable.rises = true ∧ g.events.length = 1 ∧ Unused g.events)
    (attachRun .dfpAttached ++ arrive ask ++ [.reply callThread .ok,.eval callThread] ++
      vbusRun false ++ [.delta] ++ vbusRun true) (by decide +kernel)
  exact ⟨g,c,c',ht,hrise,hone,(default_iff 1 g c c' ht hrise).mpr hunused⟩

/-- A device that was configured is configured in its next session. -/
theorem not_default_second : ¬ ∀ g c c',
    Taken (drdKernel 1) (drdBoot 1) (deviceLog 1) (fun _ _ _ => True) g c .delta c' →
      c.state.sigDevEnable.rises = true → Default c'.state := by
  intro h
  obtain ⟨g,c,c',ht,hrise,hconf⟩ := exists_taken (drdKernel 1) (drdBoot 1) (deviceLog 1)
    (fun _ _ _ => True) .delta
    (fun _ c c' => c.state.sigDevEnable.rises = true ∧ c'.state.devCtrl.mConfigured = true)
    (attachRun .dfpAttached ++ arrive configurePacket ++ vbusRun false ++ [.delta] ++ vbusRun true)
    (by decide +kernel)
  exact absurd (hconf.symm.trans (h g c c' ht hrise).2.1) (by simp)

end DeviceSession
end Usb3Drd
