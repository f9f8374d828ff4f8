import Usb3Drd.RoleEnable

/-! Who sends: every packet that leaves the device, and whether the controller that
sends it is enabled at that moment. -/
namespace Usb3Drd
namespace Transmit

open Coop HostController DeviceController DrdController

variable {n : ℕ}

def transferLog : Watch ControlLog Drd WaitPoint Payload TlmResponse Loop Action Payload (Tid n) where
  init := {}
  next g c l c' := match l with
    | .eval t => if t = hostThread then g.note (c.loc t) (c'.loc t) else g
    | _ => g

/-- A control transfer or an enumeration goes on: the status stage after the wait that
follows SETUP, and the next request after the new address has settled, after a descriptor
was read, and after the BOS read in any case. -/
def continues (g : ControlLog) : Loc WaitPoint Payload TlmResponse → Prop
  | .ready (.woke .setupStage) => True
  | .ready (.woke .addrSettle) => True
  | .ready (.woke .statusStage) => g.request.bRequest = usbReqGetDescriptor ∧
      (g.answered = .ok ∨ g.request = descriptorRequest usbDescBos 0)
  | _ => False

def announces (s : Drd) : Loc WaitPoint Payload TlmResponse → Prop
  | .ready (.woke .outEp) => s.devCtrl.mConfigured = true ∧ s.devCtrl.mEp2Out.hasData = true
  | _ => False

instance (g : ControlLog) : ∀ l, Decidable (continues g l)
  | .ready (.woke w) => by unfold continues; split <;> infer_instance
  | .ready .start | .ready (.returned _ _) | .idle | .waiting _ | .calling _ => isFalse id

instance (s : Drd) : ∀ l, Decidable (announces s l)
  | .ready (.woke w) => by unfold announces; split <;> infer_instance
  | .ready .start | .ready (.returned _ _) | .idle | .waiting _ | .calling _ => isFalse id

/-- Where the code sends without a look at its enable, the enable is high. -/
def enabledThen (g : ControlLog) (c : DrdConf n) : DrdLabel Action n → Prop
  | .eval t =>
    (t = hostThread → continues g (c.loc t) → c.state.sigHostEnable.cur = true) ∧
    (t = loopbackThread → announces c.state (c.loc t) → c.state.sigDevEnable.cur = true)
  | _ => True

instance (g : ControlLog) (c : DrdConf n) : ∀ l, Decidable (enabledThen g c l)
  | .eval _ => inferInstanceAs (Decidable (_ ∧ _))
  | .act _ | .enter _ _ | .reply _ _ | .delta | .advance _ => isTrue trivial

/-- The threads of the device controller: the loopback and the inbound calls. -/
def ofDevice : Tid n → Prop
  | .inl p => p = .loopbackProcess
  | .inr _ => True

/-- A host thread that sends is enabled. -/
def hostSpec : Spec ControlLog Drd WaitPoint Payload TlmResponse Loop where
  held l _ s := l = .ready (.woke .enablePosedge) → s.sigHostEnable.cur = true
  pre o g s := continues g (.ready o) ∨ o = .woke .enablePosedge → s.sigHostEnable.cur = true
  rely g _ g' _ := g' = g
  guar _ _ _ l s' := ∀ q, l = .calling q → s'.sigHostEnable.cur = true
  leave g o _ l _ := g.note (.ready o) l
  head l _ := l = .hostMain ∨ l = .transferRing

section Host
variable {x : Trail ControlLog Drd WaitPoint Payload TlmResponse}

theorem stopsAt_calling {q : Payload} (h : x.state.sigHostEnable.cur = true) :
    hostSpec.stopsAt (.calling q) x := ⟨fun _ _ => h,fun hl => (by cases hl)⟩

theorem stopsAt_waiting (w : WaitPoint) : hostSpec.stopsAt (.waiting w) x :=
  ⟨fun _ hq => (by cases hq),fun hl => (by cases hl)⟩

/-- A control transfer of an enabled host. It sends again after the wait that follows
SETUP, and afterwards the host is enabled if it may go on. -/
theorem ctrlTransfer_enabled {devAddr : BitVec 8} {setup : Usb3SetupPkt} {dataBuf : List Byte}
    {dir : Bool} (hlen : dir = true → setup.wLength = 0)
    {post : Bool × List Byte → Trail ControlLog Drd WaitPoint Payload TlmResponse → Prop}
    (hon : x.state.sigHostEnable.cur = true)
    (hpost : ∀ r buf g s, (setup.bRequest = usbReqGetDescriptor ∧
      (r = TlmResponse.ok ∨ setup = descriptorRequest usbDescBos 0) → s.sigHostEnable.cur = true) →
      post (decide (r = .ok),buf) ⟨g,.woke .statusStage,s,s⟩) :
    (ctrlTransfer devAddr setup dataBuf dir).wp hostSpec.setting post x := by
  refine ctrlTransfer_wp _ hlen x fun n layer => ⟨stopsAt_calling hon,fun r₁ g₁ s₁ h₁ => ?_⟩
  have hreq₁ : g₁.request = setup := by
    rw [h₁.1]
    exact ControlLog.note_setup x.hist (.ready x.origin) devAddr setup n
  refine ⟨stopsAt_waiting _,fun g₂ s₂ h₂ buf s hs n layer => ?_⟩
  have hreq₂ : g₂.request = setup := by
    rw [h₂.1]
    exact hreq₁
  have hon₂ : s₂.sigHostEnable.cur = true := h₂.2 (.inl trivial)
  have hon' : s.sigHostEnable.cur = true := by
    obtain rfl | rfl := hs
    · exact hon₂
    · exact hon₂
  refine ⟨stopsAt_calling hon',fun r g₃ s₃ h₃ => ⟨stopsAt_waiting _,fun g₄ s₄ h₄ => ?_⟩⟩
  have hctl : g₄ = ⟨setup,r⟩ := by
    have hreq₃ : g₃.request = setup := by
      rw [h₃.1]
      exact hreq₂
    rw [h₄.1,← hreq₃]
    rfl
  refine hpost r buf g₄ s₄ fun hgo => h₄.2 (.inl ?_)
  rw [hctl]
  exact hgo

theorem enumerateDevice_enabled (hon : x.state.sigHostEnable.cur = true) :
    enumerateDevice.wp hostSpec.setting (fun _ => hostSpec.head .transferRing) x := by
  refine enumerateDevice_wp _ x ?_
  refine ctrlTransfer_enabled (by simp) hon fun r buf g s hgo => ⟨fun _ => .inr rfl,fun hdev => ?_⟩
  have hon : s.sigHostEnable.cur = true := hgo ⟨rfl,.inl (of_decide_eq_true hdev)⟩
  refine ctrlTransfer_enabled (fun _ => rfl) hon fun r buf' g s _ => ⟨fun _ => .inr rfl,fun _ => ?_⟩
  refine ⟨stopsAt_waiting _,fun g s hw => ?_⟩
  have hon : s.sigHostEnable.cur = true := hw.2 (.inl trivial)
  refine ctrlTransfer_enabled (by simp) hon fun r buf g s hgo => ⟨fun _ => .inr rfl,fun hcfg => ?_⟩
  have hon : s.sigHostEnable.cur = true := hgo ⟨rfl,.inl (of_decide_eq_true hcfg)⟩
  refine ctrlTransfer_enabled (by simp) hon fun r buf g s hgo => ?_
  have hon : s.sigHostEnable.cur = true := hgo ⟨rfl,.inr rfl⟩
  refine ctrlTransfer_enabled (fun _ => rfl) hon fun r buf g s _ => ⟨fun _ => .inr rfl,fun _ => ?_⟩
  exact ⟨stopsAt_waiting _,fun g s _ => .inr rfl⟩

theorem runTrb_enabled {trb : Usb3Trb} (hon : x.state.sigHostEnable.cur = true) :
    (runTrb trb).wp hostSpec.setting (fun _ => hostSpec.head .transferRing) x := by
  refine runTrb_wp _ x fun n layer => ⟨stopsAt_calling hon,fun r g s _ => ?_⟩
  dsimp only
  split
  · exact ⟨stopsAt_waiting _,fun g s _ => .inr rfl⟩
  · exact .inr rfl

theorem hostSpec_loops : hostSpec.Loops loopCode := by
  rintro l x (rfl | rfl)
  · refine hostMainLoop_wp _ x (fun _ => ⟨stopsAt_waiting _,fun g s hw => ?_⟩) fun hon => ?_
    · exact enumerateDevice_enabled (hw.2 (.inr rfl))
    · exact enumerateDevice_enabled hon
  · refine processTransferRing_wp _ x (fun _ => .inl rfl)
      (fun _ _ => ⟨stopsAt_waiting _,fun g s _ => .inr rfl⟩) fun trb rest hon _ => ?_
    exact runTrb_enabled hon

end Host

def loopbackSpec : Spec ControlLog Drd WaitPoint Payload TlmResponse Loop :=
  .plain (fun o _ s => announces s (.ready o) → s.sigDevEnable.cur = true)
    (fun _ _ _ l s' => ∀ q, l = .calling q → s'.sigDevEnable.cur = true)
    (fun g _ _ _ _ => g) (fun l _ => l = .loopback)

def inboundSpec : Spec ControlLog Drd WaitPoint Payload TlmResponse Loop :=
  .plain (fun _ _ _ => True) (fun _ _ _ l s' => ∀ q, l = .calling q → s'.sigDevEnable.cur = true)
    (fun g _ _ _ _ => g) (fun l _ => ∃ r, l = .returned r)

def silentSpec : Spec ControlLog Drd WaitPoint Payload TlmResponse Loop :=
  .plain (fun _ _ _ => True) (fun _ _ _ l _ => ∀ q, l ≠ .calling q) (fun g _ _ _ _ => g)
    (fun l _ => l = .roleDetection ∨ l = .roleSwitch ∨ l = .interruptCollector ∨ l = .forwardInputs)

section Others
variable {x : Trail ControlLog Drd WaitPoint Payload TlmResponse}

theorem loopbackSpec_loops : loopbackSpec.Loops loopCode := by
  rintro l x rfl
  simp only [loopCode,Spec.Safe,loopbackLoop,Proc.wp_bind,Proc.wp_sleep,Spec.setting_onWait,
    Spec.wp_read,Proc.wp_ite]
  refine ⟨⟨fun _ hq => (by cases hq),trivial⟩,fun g s hw => ⟨fun _ => rfl,fun hconf =>
    ⟨fun hdata => ?_,fun _ => rfl⟩⟩⟩
  have hon : s.sigDevEnable.cur = true := hw.2 ⟨by simpa using hconf,hdata⟩
  simp only [Proc.wp_bind,Spec.wp_modify]
  refine sendToProtocol_wp _ _ fun q layer _ _ => ⟨⟨fun _ _ => hon,trivial⟩,fun r g s _ => ?_⟩
  exact ⟨⟨fun _ hq => (by cases hq),trivial⟩,fun g s _ => rfl⟩

theorem reply_safe {ty : Usb3PktType} {endpoint : BitVec 8} {direction : Usb3Dir}
    {data : List Byte} {epType : Usb3EpType}
    {post : Unit → Trail ControlLog Drd WaitPoint Payload TlmResponse → Prop}
    (hon : x.state.sigDevEnable.cur = true) (hpost : ∀ y, post () y) :
    (sendToProtocol ty endpoint direction data epType).wp inboundSpec.setting post x :=
  sendToProtocol_wp _ x fun _ _ _ _ => ⟨⟨fun _ _ => hon,trivial⟩,fun _ _ _ _ => hpost _⟩

/-- Every reply is sent in the evaluation that has seen the enable. -/
theorem reaction_safe {p : Payload} {ext : Usb3PktExt}
    {post : TlmResponse → Trail ControlLog Drd WaitPoint Payload TlmResponse → Prop}
    (hon : x.state.sigDevEnable.cur = true) (hpost : ∀ r y, post r y) :
    (reaction p ext).wp inboundSpec.setting post x := by
  have hreply : ∀ ty endpoint data epType,
      (do sendToProtocol ty endpoint .deviceToHost data epType; pure TlmResponse.ok).wp
        inboundSpec.setting post x := by
    intro ty endpoint data epType
    rw [Proc.wp_bind]
    exact reply_safe hon fun y => hpost _ y
  have hstall : (do stallEndpoint 0; pure TlmResponse.genericError).wp inboundSpec.setting post x := by
    rw [Proc.wp_bind]
    exact reply_safe hon fun y => hpost _ y
  have hsetup : (handleSetup ext.setup).wp inboundSpec.setting post x := by
    rw [handleSetup,Proc.wp_ite]
    refine ⟨fun _ => ?_,fun _ => ?_⟩
    · rw [handleGetDescriptor,Proc.wp_bind,Spec.wp_read]
      split
      · exact hstall
      · exact hreply _ _ _ _
    · rw [Proc.wp_ite]
      refine ⟨fun _ => ?_,fun _ => ?_⟩
      · simp only [handleSetAddress,Proc.wp_bind,Spec.wp_modify,Proc.wp_sleep]
        exact ⟨⟨fun _ hq => (by cases hq),trivial⟩,fun g s _ => hpost _ _⟩
      · rw [Proc.wp_ite]
        refine ⟨fun _ => hpost _ _,fun _ => ?_⟩
        rw [Proc.wp_ite]
        exact ⟨fun _ => hreply _ _ _ _,fun _ => hstall⟩
  have hout : (handleBulkOut p).wp inboundSpec.setting post x := hpost _ _
  have hin : handleBulkIn.wp inboundSpec.setting post x := by
    rw [handleBulkIn,Proc.wp_bind,Spec.wp_read,Proc.wp_ite]
    refine ⟨fun _ => ?_,fun _ => hpost _ _⟩
    rw [Proc.wp_bind,Spec.wp_modify,Proc.wp_bind]
    exact reply_safe hon fun y => hpost _ y
  unfold reaction
  split
  · exact hsetup
  · exact hout
  · exact hout
  · exact hreply _ _ _ _
  · exact hin
  · exact hpost _ _

theorem inboundCall_safe (p : Payload) : inboundSpec.Safe (inboundCall p) x := by
  have hpost : ∀ r (y : Trail ControlLog Drd WaitPoint Payload TlmResponse),
      (pure (.returned r) : DrdProc Loop).wp inboundSpec.setting inboundSpec.head y :=
    fun r _ => ⟨r,rfl⟩
  rw [Spec.Safe,inboundCall,Proc.wp_bind]
  refine upstream_wp _ x (fun y => hpost _ y) (fun y => hpost _ y) (fun hrole => ?_)
  exact fromProto_wp _ x (hpost _ x) fun hon ext _ => reaction_safe hon hpost

theorem inboundSpec_loops : inboundSpec.Loops loopCode := by
  rintro l x ⟨r,rfl⟩
  exact ⟨fun _ hq => (by cases hq),trivial⟩

theorem stopsAt_silent (w : WaitPoint) : silentSpec.stopsAt (.waiting w) x :=
  ⟨fun _ hq => (by cases hq),trivial⟩

theorem methodLoop_silent {w : WaitPoint} {body : Drd → Drd} {l : Loop}
    (hl : ∀ y, silentSpec.head l y) : silentSpec.Safe (methodLoop w body l) x := by
  simp only [methodLoop,Spec.Safe,Proc.wp_bind,Proc.wp_sleep]
  exact ⟨stopsAt_silent w,fun g s _ => hl _⟩

theorem silentSpec_loops : silentSpec.Loops loopCode := by
  rintro l x (rfl | rfl | rfl | rfl)
  · simp only [loopCode,Spec.Safe,RoleManager.roleDetectionLoop,Proc.wp_bind,Proc.wp_sleep]
    refine ⟨stopsAt_silent _,fun g s _ => ?_⟩
    rw [Proc.wp_bind]
    refine RoleManager.detectRole_wp _ _ rfl (fun _ => .inl rfl) fun _ => ?_
    exact ⟨stopsAt_silent _,fun g s _ => .inl rfl⟩
  · simp only [loopCode,Spec.Safe,roleSwitchLoop,Proc.wp_bind,Proc.wp_sleep]
    exact ⟨stopsAt_silent _,fun g s _ => ⟨stopsAt_silent _,fun g s _ => .inr (.inl rfl)⟩⟩
  · exact methodLoop_silent fun _ => .inr (.inr (.inl rfl))
  · exact methodLoop_silent fun _ => .inr (.inr (.inr rfl))

end Others

theorem hostSpec_meets :
    Meets (drdKernel n) (drdBoot n) transferLog enabledThen hostThread hostSpec where
  loops := hostSpec_loops
  begins e p hp := by cases hp
  timed := bootWith_wellTimed
  start := ⟨fun h => (by cases h),fun g s _ _ => .inl rfl⟩
  refl _ _ := rfl
  trans _ _ _ _ _ _ h h' := h'.trans h
  own g c o hr hloc hok hheld := by
    rintro (hgo | rfl)
    · exact hok.1 rfl (by rw [hloc]; exact hgo)
    · exact hheld rfl
  leave g c o c' hloc _ := by simp [transferLog,hostSpec,hloc]
  peer g c u c' ht hne hh := by
    refine ⟨fun hl => ?_,?_⟩
    · rw [(enables_eval ht).1]
      exact hh hl
    · simp [transferLog,hne,hostSpec]
  act g c a c' ht ha hh := by
    have hkeep := Action.apply_unwritten ha
    have hsame := congrArg (·.sigHostEnable.cur) hkeep
    exact ⟨fun hl => hsame.trans (hh hl),rfl⟩
  still g c l c' ht hl hh := by
    cases l with
    | eval u => cases hl
    | act a => cases hl
    | delta => cases hl
    | _ => exact ⟨hh,rfl⟩
  delta g c c' ht hready hwait hh := ⟨fun hl => absurd hl (hready _),rfl⟩
  wake g c c' w' ht hloc hw hh := by
    refine ⟨fun hl => ?_,rfl⟩
    cases hl
    have hrises : c.state.sigHostEnable.rises = true := hw
    exact (Sig.rises_eq_true _).mp hrises |>.2
  expire g c d c' w' ht hloc hd hq hh := by
    refine ⟨fun hl => ?_,rfl⟩
    cases hl
    exact absurd rfl hd
  answer g c q r c' ht hloc hh := ⟨fun hl => (by cases hl),rfl⟩
  enter g c e c' ht hloc hh := ⟨fun hl => (by cases hl),rfl⟩

theorem loopbackSpec_meets :
    Meets (drdKernel n) (drdBoot n) transferLog enabledThen loopbackThread loopbackSpec :=
  .plain loopbackSpec_loops (fun _ _ hp => by cases hp) bootWith_wellTimed
    ⟨trivial,fun _ _ _ _ => rfl⟩ (fun g c o hr hloc hok hgo => hok.2 rfl (by rw [hloc]; exact hgo))
    (fun _ _ _ _ _ _ => by simp [transferLog])

theorem inboundSpec_meets (i : Fin n) :
    Meets (drdKernel n) (drdBoot n) transferLog enabledThen (.inr i) inboundSpec :=
  .plain inboundSpec_loops (fun p q hq _ _ _ => by cases hq; exact inboundCall_safe p)
    bootWith_wellTimed trivial (fun _ _ _ _ _ _ => trivial)
    (fun _ _ _ _ _ _ => by simp [transferLog])

theorem silentSpec_meets {ok : ControlLog → DrdConf n → DrdLabel Action n → Prop} {p : Process}
    (hhost : p ≠ .hostMainProcess) (hloop : p ≠ .loopbackProcess) :
    Meets (drdKernel n) (drdBoot n) transferLog ok (.inl p) silentSpec := by
  refine .plain silentSpec_loops (fun _ _ hp => by cases hp) bootWith_wellTimed ?_
    (fun _ _ _ _ _ _ => trivial) (fun _ _ _ _ _ _ => by simp [transferLog,hhost])
  cases p with
  | roleDetectionProcess => exact ⟨trivial,fun _ _ _ _ => .inl rfl⟩
  | roleSwitchMonitor => exact ⟨trivial,fun _ _ _ _ => .inr (.inl rfl)⟩
  | interruptCollector => exact ⟨trivial,fun _ _ _ _ => .inr (.inr (.inl rfl))⟩
  | forwardInputs => exact ⟨trivial,fun _ _ _ _ => .inr (.inr (.inr rfl))⟩
  | hostMainProcess => exact absurd rfl hhost
  | loopbackProcess => exact absurd rfl hloop

/-- Every packet that leaves the device is sent by the host thread while the host is
enabled or by the device controller while that is, in every run in which the enable is
high wherever the code sends without a look at it. -/
theorem sends_enabled (n : ℕ) (g : ControlLog) (c c' : DrdConf n) (t : Tid n) (q : Payload)
    (ht : Taken (drdKernel n) (drdBoot n) transferLog enabledThen g c (.eval t) c')
    (hq : c'.loc t = .calling q) :
    (t = hostThread ∧ c'.state.sigHostEnable.cur = true) ∨
      (ofDevice t ∧ c'.state.sigDevEnable.cur = true) := by
  match t with
  | .inr i =>
    obtain ⟨o,-,-,hguar⟩ := (inboundSpec_meets i).guar ht
    exact .inr ⟨trivial,hguar q hq⟩
  | .inl p =>
    by_cases hhost : p = .hostMainProcess
    · subst hhost
      obtain ⟨o,-,-,hguar⟩ := hostSpec_meets.guar ht
      exact .inl ⟨rfl,hguar q hq⟩
    · by_cases hloop : p = .loopbackProcess
      · subst hloop
        obtain ⟨o,-,-,hguar⟩ := loopbackSpec_meets.guar ht
        exact .inr ⟨rfl,hguar q hq⟩
      · obtain ⟨o,-,-,hguar⟩ := (silentSpec_meets hhost hloop).guar ht
        exact absurd hq (hguar q)

/-- The SETUP packet comes back, and VBUS falls before the status stage: the role is gone
and the host controller disabled when the wait ends. -/
def dropDuringSetup : List (DrdLabel Action 0) :=
  [.eval hostThread,.reply hostThread .ok,.eval hostThread] ++ vbusRun false ++
    [.delta,.advance (4*us)]

theorem sends_attached : ∃ g c c', Taken (drdKernel 0) (drdBoot 0) transferLog enabledThen g c
    (.eval hostThread) c' ∧ c'.state.sigHostEnable.cur = true := by
  obtain ⟨g,c,c',ht,q,hq⟩ := exists_taken (drdKernel 0) (drdBoot 0) transferLog enabledThen
    (.eval hostThread) (fun _ _ c' => ∃ q, c'.loc hostThread = .calling q)
    (attachRun .ufpAttached) (by decide +kernel)
  obtain ⟨-,hon⟩ | ⟨hdev,-⟩ := sends_enabled 0 g c c' hostThread q ht hq
  · exact ⟨g,c,c',ht,hon⟩
  · cases hdev

/-- The status stage is sent by a host controller that has been disabled. -/
theorem not_sends_roleLost : ¬ ∀ g c c' t q,
    Taken (drdKernel 0) (drdBoot 0) noWatch (fun _ _ _ => True) g c (.eval t) c' →
    c'.loc t = .calling q → (t = hostThread ∧ c'.state.sigHostEnable.cur = true) ∨
      (ofDevice t ∧ c'.state.sigDevEnable.cur = true) := by
  intro h
  obtain ⟨g,c,c',ht,⟨q,hq⟩,hoff⟩ := exists_taken (drdKernel 0) (drdBoot 0) noWatch
    (fun _ _ _ => True) (.eval hostThread)
    (fun _ _ c' => (∃ q, c'.loc hostThread = .calling q) ∧ c'.state.sigHostEnable.cur = false)
    (attachRun .ufpAttached ++ dropDuringSetup) (by decide +kernel)
  obtain ⟨-,hon⟩ | ⟨hdev,-⟩ := h g c c' hostThread q ht hq
  · rw [hoff] at hon
    cases hon
  · cases hdev

end Transmit
end Usb3Drd
