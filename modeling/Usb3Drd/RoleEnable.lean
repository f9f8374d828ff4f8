import Usb3Drd.Footprint

/-! The hand-over from the role manager to the two controllers: the role changed pulse
wakes the monitor, which enables the controller of the role it sampled. -/
namespace Usb3Drd
namespace RoleEnable

open Coop RoleManager DrdController

variable {n : ℕ}

/-- A role that is about to be published is announced by a rising edge. -/
def Announced (s : Drd) : Prop := s.sigRole.cur ≠ s.sigRole.nxt → s.sigRoleChanged.rises = true

/-- Where the role manager stands in its pulse. -/
inductive PulseAt (s : Drd) : Loc WaitPoint Payload TlmResponse → Prop
  | start (h : s.sigRoleChanged = .steady false) (hrole : s.sigRole.nxt = .none) :
      PulseAt s (.ready .start)
  | waits (h : s.sigRoleChanged.nxt = false) : PulseAt s (.waiting .roleInputs)
  | woken (h : s.sigRoleChanged = .steady false) : PulseAt s (.ready (.woke .roleInputs))
  | pulse (h : s.sigRoleChanged.nxt = true) : PulseAt s (.waiting .rolePulse)
  | pulseEnd (h : s.sigRoleChanged = .steady true) : PulseAt s (.ready (.woke .rolePulse))

def Publishes (s s' : Drd) : Prop :=
  s.sigRoleChanged.rises = false ∧
    (s'.sigRole.nxt = s.sigRole.nxt ∨ s'.sigRoleChanged.rises = true)

def pulseSpec : Spec Unit Drd WaitPoint Payload TlmResponse Loop where
  held l _ s := Announced s ∧ PulseAt s l
  pre o _ s := Announced s ∧ PulseAt s (.ready o)
  rely _ _ _ _ := True
  guar _ _ s _ s' := Publishes s s'
  leave _ _ _ _ _ := ()
  head l x := l = .roleDetection ∧ Announced x.state ∧ x.state.sigRoleChanged.nxt = false ∧
    Publishes x.start x.state

theorem pulseSpec_loops : pulseSpec.Loops loopCode := by
  rintro l x ⟨rfl,hann,hlow,hpub⟩
  simp only [loopCode,Spec.Safe,roleDetectionLoop,Proc.wp_bind,Proc.wp_sleep,Spec.setting_onWait]
  refine ⟨⟨hpub,hann,.waits hlow⟩,fun g s hs => ?_⟩
  obtain ⟨-,hann',hat⟩ := hs
  cases hat with
  | woken hsteady =>
    have hquiet : s.sigRoleChanged.rises = false := by rw [hsteady]; rfl
    apply detectRole_wp _ _ rfl
    · intro _
      exact ⟨rfl,hann',congrArg Sig.nxt hsteady,hquiet,.inl rfl⟩
    · intro _
      have hrises : (s.sigRoleChanged.write true).rises = true := by rw [hsteady]; rfl
      refine ⟨⟨⟨hquiet,.inr hrises⟩,fun _ => hrises,.pulse rfl⟩,fun g' s' hs' => ?_⟩
      obtain ⟨-,hann'',hat'⟩ := hs'
      cases hat' with
      | pulseEnd hhigh =>
        have hsame : s'.sigRole.cur = s'.sigRole.nxt := by
          by_contra hne
          simpa [hhigh] using hann'' hne
        refine ⟨rfl,fun hne => absurd hsame hne,rfl,?_,.inl rfl⟩
        rw [hhigh]
        rfl

section Signals
variable {γ : Type} {w : Watch γ Drd WaitPoint Payload TlmResponse Loop Action Payload (Tid n)}
  {ok : γ → DrdConf n → DrdLabel Action n → Prop} {g : γ} {c c' : DrdConf n}

theorem roleSignals_peer {u : Tid n} (hu : u ≠ roleThread)
    (ht : Taken (drdKernel n) (drdBoot n) w ok g c (.eval u) c') :
    c'.state.sigRole = c.state.sigRole ∧ c'.state.sigRoleChanged = c.state.sigRoleChanged := by
  have h := taken_unwritten ht
  have hrole := congrArg Drd.sigRole h
  have hchanged := congrArg Drd.sigRoleChanged h
  match u with
  | .inl p =>
    cases p with
    | roleDetectionProcess => exact absurd rfl hu
    | _ => exact ⟨hrole,hchanged⟩
  | .inr _ => exact ⟨hrole,hchanged⟩

theorem enableSignals_peer {u : Tid n} (hu : u ≠ monitorThread)
    (ht : Taken (drdKernel n) (drdBoot n) w ok g c (.eval u) c') :
    c'.state.sigHostEnable = c.state.sigHostEnable ∧
      c'.state.sigDevEnable = c.state.sigDevEnable := by
  have h := taken_unwritten ht
  have hhost := congrArg Drd.sigHostEnable h
  have hdev := congrArg Drd.sigDevEnable h
  match u with
  | .inl p =>
    cases p with
    | roleSwitchMonitor => exact absurd rfl hu
    | _ => exact ⟨hhost,hdev⟩
  | .inr _ => exact ⟨hhost,hdev⟩

theorem signals_act {a : Action} {s s' : Drd} (ha : a.apply s = some s') :
    (s'.sigRole = s.sigRole ∧ s'.sigRoleChanged = s.sigRoleChanged) ∧
      s'.sigHostEnable = s.sigHostEnable ∧ s'.sigDevEnable = s.sigDevEnable := by
  have h := Action.apply_unwritten ha
  have hrole := congrArg Drd.sigRole h
  have hchanged := congrArg Drd.sigRoleChanged h
  have hhost := congrArg Drd.sigHostEnable h
  have hdev := congrArg Drd.sigDevEnable h
  exact ⟨⟨hrole,hchanged⟩,hhost,hdev⟩

end Signals

section Pulse
variable {s s' : Drd} {l : Loc WaitPoint Payload TlmResponse}

theorem pulseSpec_congr (hrole : s'.sigRole = s.sigRole)
    (hchanged : s'.sigRoleChanged = s.sigRoleChanged) (hh : pulseSpec.held l () s) :
    pulseSpec.held l () s' := by
  obtain ⟨hann,hat⟩ := hh
  refine ⟨by simpa only [Announced,hrole,hchanged] using hann,?_⟩
  cases hat with
  | start h hnone => exact .start (hchanged.trans h) (by rw [hrole]; exact hnone)
  | waits h => exact .waits (by rw [hchanged]; exact h)
  | woken h => exact .woken (hchanged.trans h)
  | pulse h => exact .pulse (by rw [hchanged]; exact h)
  | pulseEnd h => exact .pulseEnd (hchanged.trans h)

theorem announced_update (s : Drd) : Announced s.update := fun h => absurd rfl h

theorem pulseSpec_meets : Meets (drdKernel n) (drdBoot n) noWatch (fun _ _ _ => True) roleThread
    pulseSpec where
  loops := pulseSpec_loops
  begins e p hp := by cases hp
  timed := bootWith_wellTimed
  start := by
    refine ⟨⟨fun h => absurd rfl h,.start rfl rfl⟩,fun g s _ hs => ?_⟩
    obtain ⟨hann,hat⟩ := hs
    cases hat with
    | start hsteady hnone =>
      have hquiet : s.sigRoleChanged.rises = false := by rw [hsteady]; rfl
      have hsame : s.sigRole.cur = s.sigRole.nxt := by
        by_contra hne
        simpa [hquiet] using hann hne
      refine ⟨rfl,fun hne => absurd (hsame.trans hnone) hne,rfl,hquiet,.inl hnone.symm⟩
  refl _ _ := trivial
  trans _ _ _ _ _ _ _ _ := trivial
  own g c o hr hloc hok hheld := hheld
  leave g c o c' hloc _ := rfl
  peer g c u c' ht hne hh :=
    ⟨pulseSpec_congr (roleSignals_peer hne ht).1 (roleSignals_peer hne ht).2 hh,trivial⟩
  act g c a c' ht ha hh :=
    ⟨pulseSpec_congr (signals_act ha).1.1 (signals_act ha).1.2 hh,trivial⟩
  still g c l c' ht hl hh := ⟨hh,trivial⟩
  delta g c c' ht hready hwait hh := by
    refine ⟨⟨announced_update _,?_⟩,trivial⟩
    obtain ⟨-,hat⟩ := hh
    generalize c.loc roleThread = l at hat hready
    cases hat with
    | waits h => exact .waits h
    | pulse h => exact .pulse h
    | _ => exact absurd rfl (hready _)
  wake g c c' w' ht hloc hw hh := by
    refine ⟨⟨announced_update _,?_⟩,trivial⟩
    cases hh.2 with
    | waits h => exact .woken (congrArg Sig.steady h)
    | pulse => cases hw
  expire g c d c' w' ht hloc hd hq hh := by
    refine ⟨⟨hh.1,?_⟩,trivial⟩
    cases hh.2 with
    | waits => exact absurd rfl hd
    | pulse h => exact .pulseEnd (Sig.eq_steady (Drd.settled_of_quiet hq).roleChanged h)
  answer g c q r c' ht hloc hh := by cases hh.2
  enter g c e c' ht hloc hh := by cases hh.2

end Pulse

/-- The role that the monitor saw when it last ran. -/
def sampledRole : Watch Usb3Role Drd WaitPoint Payload TlmResponse Loop Action Payload (Tid n) where
  init := .none
  next g c l _ := match l with
    | .eval t => if t = monitorThread then c.state.sigRole.cur else g
    | _ => g

/-- The monitor is about to leave its settle time. -/
def settleEnds (c : DrdConf n) : DrdLabel Action n → Prop
  | .eval t => t = monitorThread ∧ c.loc t = .ready (.woke .roleSettle)
  | _ => False

instance (c : DrdConf n) : ∀ l, Decidable (settleEnds c l)
  | .eval _ => inferInstanceAs (Decidable (_ ∧ _))
  | .act _ | .enter _ _ | .reply _ _ | .delta | .advance _ => isFalse id

/-- When the settle time ends the role is the sampled one, or its change is being announced. -/
def roleSettled (g : Usb3Role) (c : DrdConf n) (l : DrdLabel Action n) : Prop :=
  settleEnds c l → c.state.sigRole.cur = g ∨ c.state.sigRoleChanged.rises = true

instance (g : Usb3Role) (c : DrdConf n) (l : DrdLabel Action n) : Decidable (roleSettled g c l) :=
  inferInstanceAs (Decidable (_ → _))

def Agrees (s : Drd) : Prop :=
  (s.sigHostEnable.nxt = true ↔ s.sigRole.nxt = .host) ∧
    (s.sigDevEnable.nxt = true ↔ s.sigRole.nxt = .device)

def Disabled (s : Drd) : Prop := s.sigHostEnable.nxt = false ∧ s.sigDevEnable.nxt = false

def OrAnnounced (P : Drd → Prop) (s : Drd) : Prop := s.sigRoleChanged.rises = true ∨ P s

/-- Where the monitor stands. -/
inductive MonitorAt (s : Drd) : Loc WaitPoint Payload TlmResponse → Prop
  | start (h : OrAnnounced (fun s => s.sigRole.nxt = .none) s) : MonitorAt s (.ready .start)
  | waits (h : OrAnnounced Agrees s) : MonitorAt s (.waiting .roleSwitch)
  | woken : MonitorAt s (.ready (.woke .roleSwitch))
  | settles (h : Disabled s) : MonitorAt s (.waiting .roleSettle)
  | settled (h : Disabled s) : MonitorAt s (.ready (.woke .roleSettle))

def monitorSpec : Spec Usb3Role Drd WaitPoint Payload TlmResponse Loop where
  held l _ s := MonitorAt s l
  pre o g s := MonitorAt s (.ready o) ∧
    (o = .woke .roleSettle → OrAnnounced (fun s => s.sigRole.nxt = g) s)
  rely g _ g' _ := g' = g
  guar _ _ _ _ _ := True
  leave _ _ s _ _ := s.sigRole.cur
  head l x := l = .roleSwitch ∧ OrAnnounced Agrees x.state

theorem Agrees.congr {s s' : Drd} (h : Agrees s) (hrole : s'.sigRole.nxt = s.sigRole.nxt)
    (hhost : s'.sigHostEnable = s.sigHostEnable) (hdev : s'.sigDevEnable = s.sigDevEnable) :
    Agrees s' := by
  simpa only [Agrees,hrole,hhost,hdev] using h

theorem agrees_of_disabled {s : Drd} (h : Disabled s) (hrole : s.sigRole.nxt = .none) : Agrees s := by
  simp [Agrees,h.1,h.2,hrole]

theorem agrees_enableRole {s : Drd} (h : Disabled s) : Agrees (enableRole s.sigRole.nxt s) := by
  obtain ⟨hhost,hdev⟩ := h
  cases hrole : s.sigRole.nxt <;> simp [Agrees,enableRole,hrole,hhost,hdev]

theorem monitorSpec_loops : monitorSpec.Loops loopCode := by
  rintro l x ⟨rfl,hagrees⟩
  simp only [loopCode,Spec.Safe,roleSwitchLoop,Proc.wp_bind,Proc.wp_sleep,Spec.setting_onWait,
    Spec.wp_read,Spec.wp_modify]
  refine ⟨⟨trivial,.waits hagrees⟩,fun g s _ => ⟨⟨trivial,.settles ⟨rfl,rfl⟩⟩,fun g' s' hs' => ?_⟩⟩
  obtain ⟨hg',hat,hrole⟩ := hs'
  obtain rfl : g' = s.sigRole.cur := hg'
  have hraise := raiseIrq_unwritten intrRoleChanged (enableRole s.sigRole.cur s')
  have hrole' := congrArg Drd.sigRole hraise
  have hchanged' := congrArg Drd.sigRoleChanged hraise
  have hhost' := congrArg Drd.sigHostEnable hraise
  have hdev' := congrArg Drd.sigDevEnable hraise
  have henable : (enableRole s.sigRole.cur s').sigRoleChanged = s'.sigRoleChanged := by
    unfold enableRole
    repeat' split
    all_goals rfl
  refine ⟨rfl,(hrole rfl).imp (fun hr => ?_) (fun hr => ?_)⟩
  · exact (congrArg Sig.rises (hchanged'.trans henable)).trans hr
  · cases hat with
    | settled hdis => exact (hr ▸ agrees_enableRole hdis).congr (congrArg Sig.nxt hrole') hhost' hdev'

theorem MonitorAt.congr {s s' : Drd} {l : Loc WaitPoint Payload TlmResponse} (h : MonitorAt s l)
    (hpub : s'.sigRoleChanged.rises = true ∨
      (s.sigRoleChanged.rises = false ∧ s'.sigRole.nxt = s.sigRole.nxt))
    (hhost : s'.sigHostEnable = s.sigHostEnable) (hdev : s'.sigDevEnable = s.sigDevEnable) :
    MonitorAt s' l := by
  cases h with
  | start h =>
    refine .start (hpub.imp id fun hq => ?_)
    exact hq.2.trans (h.resolve_left (by simp [hq.1]))
  | waits h =>
    refine .waits (hpub.imp id fun hq => ?_)
    exact (h.resolve_left (by simp [hq.1])).congr hq.2 hhost hdev
  | woken => exact .woken
  | settles h => exact .settles (by simpa only [Disabled,hhost,hdev] using h)
  | settled h => exact .settled (by simpa only [Disabled,hhost,hdev] using h)

theorem monitorAt_peer {g : Usb3Role} {c c' : DrdConf n} {u : Tid n} (hu : u ≠ monitorThread)
    (ht : Taken (drdKernel n) (drdBoot n) sampledRole roleSettled g c (.eval u) c')
    {l : Loc WaitPoint Payload TlmResponse} (h : MonitorAt c.state l) : MonitorAt c'.state l := by
  obtain ⟨hhost,hdev⟩ := enableSignals_peer hu ht
  refine h.congr ?_ hhost hdev
  by_cases hrole : u = roleThread
  · subst hrole
    obtain ⟨o,-,-,hquiet,hpub⟩ := pulseSpec_meets.guar ht.forget
    exact hpub.symm.imp id fun hsame => ⟨hquiet,hsame⟩
  · obtain ⟨hsame,hchanged⟩ := roleSignals_peer hrole ht
    rw [hsame,hchanged]
    cases c.state.sigRoleChanged.rises <;> simp

theorem MonitorAt.update {s : Drd} {l : Loc WaitPoint Payload TlmResponse} (h : MonitorAt s l)
    (hl : ∀ o, l ≠ .ready o) (hw : ∀ w, l = .waiting w → s.wakes w = false) :
    MonitorAt s.update l := by
  cases h with
  | waits h =>
    have hquiet : s.sigRoleChanged.rises = false := hw _ rfl
    exact .waits (.inr (h.resolve_left (by simp [hquiet])))
  | settles h => exact .settles h
  | _ => exact absurd rfl (hl _)

theorem monitorSpec_meets : Meets (drdKernel n) (drdBoot n) sampledRole roleSettled monitorThread
    monitorSpec where
  loops := monitorSpec_loops
  begins e p hp := by cases hp
  timed := bootWith_wellTimed
  start := by
    refine ⟨.start (.inr rfl),fun g s _ hs => ⟨rfl,?_⟩⟩
    cases hs.1 with
    | start h =>
      have hdis : Disabled (disableBoth s) := ⟨rfl,rfl⟩
      exact h.imp id fun hnone => agrees_of_disabled hdis hnone
  refl _ _ := rfl
  trans _ _ _ _ _ _ h h' := h'.trans h
  own g c o hr hloc hok hheld := by
    refine ⟨hheld,?_⟩
    rintro rfl
    have hann : Announced c.state := (pulseSpec_meets.held hr.forget).1
    refine (em (c.state.sigRoleChanged.rises = true)).imp id fun hquiet => ?_
    have hcur := (hok ⟨rfl,hloc⟩).resolve_right hquiet
    have hsame : c.state.sigRole.cur = c.state.sigRole.nxt := not_not.mp fun hne => hquiet (hann hne)
    exact hsame.symm.trans hcur
  leave g c o c' hloc _ := by simp [sampledRole,monitorSpec]
  peer g c u c' ht hne hh := by
    refine ⟨monitorAt_peer hne ht hh,?_⟩
    simp [sampledRole,hne,monitorSpec]
  act g c a c' ht ha hh := by
    obtain ⟨⟨hrole,hchanged⟩,hhost,hdev⟩ := signals_act ha
    refine ⟨MonitorAt.congr hh ?_ hhost hdev,rfl⟩
    rw [hrole,hchanged]
    cases c.state.sigRoleChanged.rises <;> simp
  still g c l c' ht hl hh := by
    cases l <;> first | exact ⟨hh,rfl⟩ | cases hl
  delta g c c' ht hready hwait hh := ⟨MonitorAt.update hh hready hwait,rfl⟩
  wake g c c' w' ht hloc hw hh := by
    refine ⟨?_,rfl⟩
    cases hh with
    | waits => exact .woken
    | settles => cases hw
  expire g c d c' w' ht hloc hd hq hh := by
    refine ⟨?_,rfl⟩
    cases hh with
    | waits => exact absurd rfl hd
    | settles h => exact .settled h
  answer g c q r c' ht hloc hh := by cases hh
  enter g c e c' ht hloc hh := by cases hh

/-- While the monitor waits and no write is pending, exactly the controller of the role
is enabled, in every run in which no settle time ends with a role changed meanwhile. -/
theorem enables_of_roleSettled (n : ℕ) (g : Usb3Role) (c : DrdConf n)
    (hr : Reach (drdKernel n) (drdBoot n) sampledRole roleSettled g c)
    (hloc : c.loc monitorThread = .waiting .roleSwitch) (hs : c.state.settled = true) :
    (c.state.sigHostEnable.cur = true ↔ c.state.sigRole.cur = .host) ∧
      (c.state.sigDevEnable.cur = true ↔ c.state.sigRole.cur = .device) := by
  have hheld : MonitorAt c.state (c.loc monitorThread) := monitorSpec_meets.held hr
  rw [hloc] at hheld
  have hsettled := Drd.settled_signals hs
  cases hheld with
  | waits h =>
    have hquiet : c.state.sigRoleChanged.rises = false := by
      simp [Sig.rises,hsettled.roleChanged]
    have hagrees : Agrees c.state := h.resolve_left (by simp [hquiet])
    rwa [Agrees,← hsettled.role,← hsettled.hostEnable,← hsettled.devEnable] at hagrees

theorem enables_host : ∃ g c, Reach (drdKernel 0) (drdBoot 0) sampledRole roleSettled g c ∧
    c.state.sigRole.cur = .host ∧ c.state.sigHostEnable.cur = true := by
  obtain ⟨g,c,hr,⟨hloc,hs⟩,hrole⟩ := exists_reach (drdKernel 0) (drdBoot 0) sampledRole roleSettled
    (fun _ c => (c.loc monitorThread = .waiting .roleSwitch ∧ c.state.settled = true) ∧
      c.state.sigRole.cur = .host)
    (attachRun .ufpAttached) (by decide +kernel)
  exact ⟨g,c,hr,hrole,(enables_of_roleSettled 0 g c hr hloc hs).1.mpr hrole⟩

/-- VBUS falls within the settle time: the edge is lost, and the host stays enabled
although the role is gone. -/
theorem not_enables_vbusDuringSettle : ¬ ∀ g c,
    Reach (drdKernel 0) (drdBoot 0) noWatch (fun _ _ _ => True) g c →
    c.loc monitorThread = .waiting .roleSwitch → c.state.settled = true →
      (c.state.sigHostEnable.cur = true ↔ c.state.sigRole.cur = .host) ∧
        (c.state.sigDevEnable.cur = true ↔ c.state.sigRole.cur = .device) := by
  intro h
  obtain ⟨g,c,hr,⟨hloc,hs⟩,hhost,hrole⟩ := exists_reach (drdKernel 0) (drdBoot 0) noWatch (fun _ _ _ => True)
    (fun _ c => (c.loc monitorThread = .waiting .roleSwitch ∧ c.state.settled = true) ∧
      c.state.sigHostEnable.cur = true ∧ c.state.sigRole.cur = .none)
    (roleRun .ufpAttached ++ [.eval monitorThread,.eval collectorThread,.delta] ++ pulseRun ++
      changeRun [.setVbus false] ++ [.eval collectorThread,.delta] ++ pulseRun ++
      [.advance (980*ns),.eval monitorThread,.delta]) (by decide +kernel)
  have hagree := (h g c hr hloc hs).1.mp hhost
  rw [hrole] at hagree
  cases hagree

end RoleEnable
end Usb3Drd
