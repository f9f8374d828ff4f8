import Usb3Drd.DeviceLog

/-! When the loopback finds the payloads that were put into the buffer of endpoint 2: the
notification of an arrival is lost unless the loopback waits for it. -/
namespace Usb3Drd

open Coop DeviceController Inbound

namespace Stranded

variable {n : ℕ}

/-- The loopback has taken a payload, and its pulse has not run out. -/
def busy : Loc WaitPoint Payload TlmResponse → Bool
  | .calling _ => true
  | .ready (.returned _ _) => true
  | .waiting .bulkIrqPulse => true
  | _ => false

/-- A payload of endpoint 2 will still be found. -/
def Awaited (s : Drd) (l : Loc WaitPoint Payload TlmResponse) : Prop :=
  s.devCtrl.mEp2Out.hasData = false ∨ s.devCtrl.mOutEpEvent = true ∨ l = .ready (.woke .outEp)

instance (s : Drd) (l : Loc WaitPoint Payload TlmResponse) : Decidable (Awaited s l) :=
  inferInstanceAs (Decidable (_ ∨ _ ∨ _))

def Timely (p : Payload) (s : Drd) (l : Loc WaitPoint Payload TlmResponse) : Prop :=
  (kind p = .out → busy l = false) ∧
    (kind p = .configure → s.devCtrl.mConfigured = false → Awaited s l)

instance (p : Payload) (s : Drd) (l : Loc WaitPoint Payload TlmResponse) :
    Decidable (Timely p s l) := inferInstanceAs (Decidable ((_ → _) ∧ (_ → _ → _)))

/-- No OUT data arrives while the loopback is busy, and no SET_CONFIGURATION while data
that came before it lies there unnoticed. -/
def timely (g : DeviceLog n) (c : DrdConf n) : DrdLabel Action n → Prop
  | .eval t => ∀ p ∈ g.arrived t, c.loc t = .ready .start → Handled p c.state →
      Timely p c.state (c.loc loopbackThread)
  | _ => True

instance (g : DeviceLog n) (c : DrdConf n) : ∀ l, Decidable (timely g c l)
  | .eval t => inferInstanceAs (Decidable (∀ p ∈ g.arrived t, _))
  | .act _ | .enter _ _ | .reply _ _ | .delta | .advance _ => isTrue trivial

def Notified (s : Drd) : Prop :=
  s.devCtrl.mConfigured = true → s.devCtrl.mEp2Out.hasData = true → s.devCtrl.mOutEpEvent = true

def Moved (s : Drd) : Prop :=
  s.devCtrl.mConfigured = true ∧ s.devCtrl.mEp2Out.hasData = false

inductive LoopAt (s : Drd) : Loc WaitPoint Payload TlmResponse → Prop
  | starts (h : s.devCtrl.mConfigured = false) (hoff : s.sigDevEnable.cur = false) :
      LoopAt s (.ready .start)
  | waits (h : Notified s) : LoopAt s (.waiting .outEp)
  | woken : LoopAt s (.ready (.woke .outEp))
  | sends (q : Payload) (h : Moved s) : LoopAt s (.calling q)
  | sent (q : Payload) (r : TlmResponse) (h : Moved s) : LoopAt s (.ready (.returned q r))
  | pulses (h : Moved s) : LoopAt s (.waiting .bulkIrqPulse)
  | pulsed (hconf : s.devCtrl.mConfigured = true) (h : Notified s) :
      LoopAt s (.ready (.woke .bulkIrqPulse))

def loopSpec (n : ℕ) : Spec (DeviceLog n) Drd WaitPoint Payload TlmResponse Loop where
  held l _ s := LoopAt s l
  pre o _ s := LoopAt s (.ready o)
  rely _ _ _ _ := True
  guar _ _ _ _ _ := True
  leave g o s l s' := { g with
    events := g.events ++ if o = .woke .outEp then [.turn s s'] else []
    sent := g.sent ++ DeviceLog.bulkInOf (saidAt l) }
  head l x := l = .loopback ∧ Notified x.state

theorem loopSpec_loops : (loopSpec n).Loops loopCode := by
  rintro l x ⟨rfl,hnot⟩
  simp only [loopCode,Spec.Safe,loopbackLoop,Proc.wp_bind,Proc.wp_sleep,Spec.setting_onWait,
    Spec.wp_read,Proc.wp_ite]
  refine ⟨⟨trivial,.waits hnot⟩,fun g s _ => ⟨fun hoff => ?_,fun hon => ⟨fun _ => ?_,fun hempty => ?_⟩⟩⟩
  · exact ⟨rfl,fun hconf => absurd (hoff.symm.trans hconf) (by simp)⟩
  · have hconf : s.devCtrl.mConfigured = true := by simpa using hon
    simp only [Proc.wp_bind,Spec.wp_modify]
    refine sendToProtocol_wp _ _ fun q layer _ _ => ⟨⟨trivial,.sends q ⟨hconf,rfl⟩⟩,fun r g s hs => ?_⟩
    have hmoved : Moved s := by
      have hat : LoopAt s (.ready (.returned q r)) := hs.2
      cases hat with
      | sent q r h => exact h
    refine ⟨⟨trivial,.pulses hmoved⟩,fun g s hs => ?_⟩
    have hat : LoopAt s (.ready (.woke .bulkIrqPulse)) := hs.2
    cases hat with
    | pulsed hconf h => exact ⟨rfl,h⟩
  · exact ⟨rfl,fun _ hfull => absurd hfull hempty⟩

theorem LoopAt.congr {s s' : Drd} {l : Loc WaitPoint Payload TlmResponse} (h : LoopAt s l)
    (hdev : s'.devCtrl = s.devCtrl) (hon : s'.sigDevEnable.cur = s.sigDevEnable.cur) :
    LoopAt s' l := by
  have hnot : Notified s → Notified s' := by
    intro hn
    rw [Notified,hdev]
    exact hn
  have hmoved : Moved s → Moved s' := by
    intro hm
    rw [Moved,hdev]
    exact hm
  cases h with
  | starts h hoff => exact .starts (by rw [hdev]; exact h) (by rw [hon]; exact hoff)
  | waits h => exact .waits (hnot h)
  | woken => exact .woken
  | sends q h => exact .sends q (hmoved h)
  | sent q r h => exact .sent q r (hmoved h)
  | pulses h => exact .pulses (hmoved h)
  | pulsed hconf h => exact .pulsed (by rw [hdev]; exact hconf) (hnot h)

theorem LoopAt.absorb {p : Payload} {s : Drd} {l : Loc WaitPoint Payload TlmResponse}
    (h : LoopAt s l) (hh : Handled p s) (ht : Timely p s l) : LoopAt (absorb p s) l := by
  have hbuffer := absorb_mEp2Out p s
  have hevent := absorb_mOutEpEvent p s
  have hconf := absorb_mConfigured p s
  by_cases hout : kind p = .out
  · have hidle := ht.1 hout
    have hnot : Notified (Inbound.absorb p s) := by
      intro _ _
      rw [hevent,decide_eq_true hout,Bool.or_true]
    cases h with
    | starts h hoff => exact absurd (hoff.symm.trans hh.2.2) (by simp)
    | waits => exact .waits hnot
    | woken => exact .woken
    | sends => cases hidle
    | sent => cases hidle
    | pulses => cases hidle
    | pulsed hc => exact .pulsed (by rw [hconf,hc,Bool.true_or]) hnot
  · rw [if_neg hout] at hbuffer
    rw [decide_eq_false hout,Bool.or_false] at hevent
    have hmoved : Moved s → Moved (Inbound.absorb p s) := by
      rintro ⟨hc,hempty⟩
      exact ⟨by rw [hconf,hc,Bool.true_or],by rw [hbuffer,hempty]⟩
    have hkept : s.devCtrl.mConfigured = true → Notified s → Notified (Inbound.absorb p s) := by
      intro hc hn _ hfull
      rw [hevent]
      exact hn hc (hbuffer ▸ hfull)
    cases h with
    | starts h hoff => exact absurd (hoff.symm.trans hh.2.2) (by simp)
    | waits h =>
      refine .waits fun hc hfull => ?_
      by_cases hold : s.devCtrl.mConfigured = true
      · exact hkept hold h hc hfull
      · have hset : kind p = .configure := by
          rw [hconf] at hc
          simpa [hold] using hc
        rw [hevent]
        rcases ht.2 hset (by simpa using hold) with hempty | hpending | hwoken
        · exact absurd (hempty.symm.trans (hbuffer ▸ hfull)) (by simp)
        · exact hpending
        · cases hwoken
    | woken => exact .woken
    | sends q h => exact .sends q (hmoved h)
    | sent q r h => exact .sent q r (hmoved h)
    | pulses h => exact .pulses (hmoved h)
    | pulsed hc h => exact .pulsed (by rw [hconf,hc,Bool.true_or]) (hkept hc h)

section Runs
variable {g : DeviceLog n} {c c' : DrdConf n}

theorem loopAt_peer {u : Tid n} (hu : u ≠ loopbackThread)
    (ht : Taken (drdKernel n) (drdBoot n) (DeviceLog.deviceLog n) timely g c (.eval u) c')
    (h : LoopAt c.state (c.loc loopbackThread)) : LoopAt c'.state (c.loc loopbackThread) := by
  have hon := (enables_eval ht).2
  rcases u with p | i
  · have hp : p ≠ .loopbackProcess := by
      rintro rfl
      exact hu rfl
    exact h.congr (DeviceLog.core_peer hp ht).1 hon
  · obtain ⟨p,o,hp,hloc,hguar⟩ := (DeviceLog.call_server i).eval ht
    cases o with
    | start =>
      by_cases hh : Handled p c.state
      · rw [callGuar,if_pos hh] at hguar
        obtain ⟨⟨layer,hs⟩,-⟩ := hguar
        have habsorb := h.absorb hh (ht.allowed p hp hloc hh)
        exact habsorb.congr (by rw [hs]) (by rw [hs])
      · rw [callGuar,if_neg hh] at hguar
        refine h.congr ?_ hon
        obtain ⟨_,hs⟩ := passBy_frame p c.state
        rw [hguar.1,hs]
    | woke w => exact h.congr (by rw [hguar.1]) hon
    | returned q r => exact h.congr (by rw [hguar.1]) hon

theorem loopSpec_meets : Meets (drdKernel n) (drdBoot n) (DeviceLog.deviceLog n) timely
    loopbackThread (loopSpec n) where
  loops := loopSpec_loops
  begins e p hp := by cases hp
  timed := bootWith_wellTimed
  start := by
    refine ⟨.starts rfl rfl,fun g s _ hs => ⟨rfl,fun hconf => ?_⟩⟩
    have hat : LoopAt s (.ready .start) := hs
    cases hat with
    | starts h => exact absurd (h.symm.trans hconf) (by simp)
  refl _ _ := trivial
  trans _ _ _ _ _ _ _ _ := trivial
  own g c o hr hloc hok hheld := hheld
  leave g c o c' hloc _ := by
    simp [DeviceLog.deviceLog,DeviceLog.eventAt,DeviceLog.sentAt,loopSpec,hloc]
  peer g c u c' ht hne hh := ⟨loopAt_peer hne ht hh,trivial⟩
  act g c a c' ht ha hh := by
    have hkeep := Action.apply_unwritten ha
    have hdev := congrArg Drd.devCtrl hkeep
    have hon := congrArg (·.sigDevEnable.cur) hkeep
    exact ⟨LoopAt.congr hh hdev hon,trivial⟩
  still g c l c' ht hl hh := ⟨hh,trivial⟩
  delta g c c' ht hready hwait hh := by
    refine ⟨?_,trivial⟩
    have hat : LoopAt c.state (c.loc loopbackThread) := hh
    generalize c.loc loopbackThread = l at hat hready hwait
    cases hat with
    | waits h =>
      have hquiet : c.state.devCtrl.mOutEpEvent = false := hwait _ rfl
      exact .waits fun hc hfull => absurd (hquiet.symm.trans (h hc hfull)) (by simp)
    | sends q h => exact .sends q h
    | pulses h => exact .pulses h
    | _ => exact absurd rfl (hready _)
  wake g c c' w' ht hloc hw hh := by
    refine ⟨?_,trivial⟩
    cases hh with
    | waits => exact .woken
    | pulses => cases hw
  expire g c d c' w' ht hloc hd hq hh := by
    refine ⟨?_,trivial⟩
    cases hh with
    | waits => exact absurd rfl hd
    | pulses h => exact .pulsed h.1 fun _ hfull => absurd (h.2.symm.trans hfull) (by simp)
  answer g c q r c' ht hloc hh := by
    refine ⟨?_,trivial⟩
    cases hh with
    | sends q h => exact .sent q r h
  enter g c e c' ht hloc hh := by cases hh

end Runs

/-- While the loopback waits, and no notification is pending, a configured device holds no
OUT data, in every run in which no OUT data comes while the loopback is busy and no
SET_CONFIGURATION while older data lies unnoticed. -/
theorem empty_of_timely (n : ℕ) (g : DeviceLog n) (c : DrdConf n)
    (hr : Reach (drdKernel n) (drdBoot n) (DeviceLog.deviceLog n) timely g c)
    (hloc : c.loc loopbackThread = .waiting .outEp) (hquiet : c.state.devCtrl.mOutEpEvent = false)
    (hconf : c.state.devCtrl.mConfigured = true) : c.state.devCtrl.mEp2Out.hasData = false := by
  have hat : LoopAt c.state (c.loc loopbackThread) := loopSpec_meets.held hr
  rw [hloc] at hat
  cases hat with
  | waits h =>
    cases hfull : c.state.devCtrl.mEp2Out.hasData with
    | false => rfl
    | true => exact absurd (hquiet.symm.trans (h hconf hfull)) (by simp)

theorem empty_afterLoop : ∃ g c, Reach (drdKernel 1) (drdBoot 1) (DeviceLog.deviceLog 1) timely g c ∧
    c.loc loopbackThread = .waiting .outEp ∧ c.state.devCtrl.mEp1In.buffer = [1] ∧
      c.state.devCtrl.mEp2Out.hasData = false := by
  obtain ⟨g,c,hr,hloc,hquiet,hconf,hone⟩ := exists_reach (drdKernel 1) (drdBoot 1)
    (DeviceLog.deviceLog 1) timely (fun _ c => c.loc loopbackThread = .waiting .outEp ∧
      c.state.devCtrl.mOutEpEvent = false ∧ c.state.devCtrl.mConfigured = true ∧
      c.state.devCtrl.mEp1In.buffer = [1])
    (attachRun .dfpAttached ++ DeviceLog.arrive DeviceLog.configurePacket ++ DeviceLog.loopRun [1])
    (by decide +kernel)
  exact ⟨g,c,hr,hloc,hone,empty_of_timely 1 g c hr hloc hquiet hconf⟩

/-- OUT data that comes within the pulse stays where it is. -/
theorem not_empty_duringPulse : ¬ ∀ g c,
    Reach (drdKernel 1) (drdBoot 1) (DeviceLog.deviceLog 1) (fun _ _ _ => True) g c →
    c.loc loopbackThread = .waiting .outEp → c.state.devCtrl.mOutEpEvent = false →
      c.state.devCtrl.mConfigured = true → c.state.devCtrl.mEp2Out.hasData = false := by
  intro h
  obtain ⟨g,c,hr,hloc,hquiet,hconf,hfull⟩ := exists_reach (drdKernel 1) (drdBoot 1)
    (DeviceLog.deviceLog 1) (fun _ _ _ => True) (fun _ c => c.loc loopbackThread = .waiting .outEp ∧
      c.state.devCtrl.mOutEpEvent = false ∧ c.state.devCtrl.mConfigured = true ∧
      c.state.devCtrl.mEp2Out.hasData = true)
    (attachRun .dfpAttached ++ DeviceLog.arrive DeviceLog.configurePacket ++
      DeviceLog.arrive (DeviceLog.outPacket [1]) ++
      [.delta,.eval loopbackThread,.reply loopbackThread .ok,.eval loopbackThread] ++
      DeviceLog.arrive (DeviceLog.outPacket [2]) ++
      [.delta,.eval collectorThread,.delta,.advance (10*ns),.eval loopbackThread,.delta])
    (by decide +kernel)
  exact absurd (hfull.symm.trans (h g c hr hloc hquiet hconf)) (by simp)

end Stranded
end Usb3Drd
