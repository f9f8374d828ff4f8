import Usb3Drd.Coop.Calls
import Usb3Drd.Coop.Timeouts
import Usb3Drd.Footprint

/-! The role and the pulse that announces it, in the whole device, with software requests
at any time: they change together, and the pulses are apart. -/
namespace Usb3Drd
namespace RolePulse

open Coop RoleManager

variable {n : ℕ}

/-- The environment of the device, which may also request a role directly. -/
inductive PortAction
  | device (a : Action)
  | requestRole (r : Usb3Role)

def PortAction.apply : PortAction → Drd → Option Drd
  | .device a, s => a.apply s
  | .requestRole r, s => some (RoleManager.requestRole r s)

def portKernel (n : ℕ) := kernelOf n PortAction.apply

abbrev PortLabel (n : ℕ) := DrdLabel PortAction n

/-- The time of the last rising edge of `role_changed`, and whether it has been low since. -/
structure PulseLog where
  lastRise : Option ℕ := none
  low : Bool := true

def PulseLog.note (g : PulseLog) (c c' : DrdConf n) : PulseLog :=
  if c.state.sigRoleChanged.cur = false ∧ c'.state.sigRoleChanged.cur = true then
    ⟨some c'.now,false⟩
  else { g with low := g.low || !c'.state.sigRoleChanged.cur }

def pulseLog : Watch PulseLog Drd WaitPoint Payload TlmResponse Loop PortAction Payload (Tid n) where
  init := {}
  next g c _ c' := g.note c c'

def roleSide (s : Drd) : Sig Bool × Sig Usb3Role × Usb3Role :=
  (s.sigRoleChanged,s.sigRole,s.roleMgr.mRole)

/-- One evaluation of the role manager: it waits for its inputs, or begins a pulse. -/
def roleGuar : Origin WaitPoint Payload TlmResponse → Drd → Loc WaitPoint Payload TlmResponse →
    Drd → Prop
  | .start, s, l, s' => l = .waiting .roleInputs ∧
      roleSide s' = (s.sigRoleChanged.write false,s.sigRole.write .none,s.roleMgr.mRole)
  | .woke .roleInputs, s, l, s' => (l = .waiting .roleInputs ∧ roleSide s' = roleSide s) ∨
      (l = .waiting .rolePulse ∧ ∃ role, role ≠ s.roleMgr.mRole ∧
        roleSide s' = (s.sigRoleChanged.write true,s.sigRole.write role,role))
  | .woke .rolePulse, s, l, s' => l = .waiting .roleInputs ∧
      roleSide s' = (s.sigRoleChanged.write false,s.sigRole,s.roleMgr.mRole)
  | _, _, _, _ => False

def roleHead (l : Loop) (x : Trail Unit Drd WaitPoint Payload TlmResponse) : Prop :=
  l = .roleDetection ∧ roleGuar x.origin x.start (.waiting .roleInputs) x.state

theorem roleGuar_cur {o : Origin WaitPoint Payload TlmResponse} {s s' : Drd}
    {l : Loc WaitPoint Payload TlmResponse} (h : roleGuar o s l s') :
    s'.sigRole.cur = s.sigRole.cur ∧ s'.sigRoleChanged.cur = s.sigRoleChanged.cur := by
  have hcur : ∀ line role member, roleSide s' = (line,role,member) →
      line.cur = s.sigRoleChanged.cur → role.cur = s.sigRole.cur →
      s'.sigRole.cur = s.sigRole.cur ∧ s'.sigRoleChanged.cur = s.sigRoleChanged.cur := by
    intro line role member hside hline hrole
    simp only [roleSide,Prod.mk.injEq] at hside
    rw [hside.1,hside.2.1]
    exact ⟨hrole,hline⟩
  unfold roleGuar at h
  split at h
  · exact hcur _ _ _ h.2 rfl rfl
  · obtain ⟨-,hside⟩ | ⟨-,role,-,hside⟩ := h
    · exact hcur _ _ _ hside rfl rfl
    · exact hcur _ _ _ hside rfl rfl
  · exact hcur _ _ _ h.2 rfl rfl
  · cases h

theorem role_loops : (Spec.evals roleGuar roleHead).Loops loopCode := by
  rintro l x ⟨rfl,hguar⟩
  simp only [loopCode,Spec.Safe,roleDetectionLoop,Proc.wp_bind,Proc.wp_sleep,Spec.setting_onWait]
  refine ⟨⟨hguar,trivial⟩,fun g s _ => ?_⟩
  apply detectRole_wp _ _ rfl
  · intro _
    exact ⟨rfl,.inl ⟨rfl,rfl⟩⟩
  · intro hne
    exact ⟨⟨.inr ⟨rfl,_,hne,rfl⟩,trivial⟩,fun g' s' _ => ⟨rfl,rfl,rfl⟩⟩

theorem role_meets : Meets (portKernel n) (drdBoot n) noWatch (fun _ _ _ => True) roleThread
    (Spec.evals roleGuar roleHead) := by
  refine Meets.plain role_loops ?_ bootWith_wellTimed ?_ ?_ ?_
  · intro e p hp
    cases hp
  · exact ⟨trivial,fun _ _ _ _ => ⟨rfl,rfl,rfl⟩⟩
  · intros
    trivial
  · intros
    rfl

section Steps
variable {γ : Type} {w : Watch γ Drd WaitPoint Payload TlmResponse Loop PortAction Payload (Tid n)}
  {ok : γ → DrdConf n → PortLabel n → Prop} {g : γ} {c c' : DrdConf n} {l : PortLabel n}

theorem roleSide_peer {u : Tid n} (hu : u ≠ roleThread)
    (ht : Taken (portKernel n) (drdBoot n) w ok g c (.eval u) c') :
    roleSide c'.state = roleSide c.state := by
  have hside := congrArg roleSide (taken_unwritten ht)
  match u with
  | .inl p =>
    cases p with
    | roleDetectionProcess => exact absurd rfl hu
    | _ => exact hside
  | .inr _ => exact hside

theorem roleSide_act {a : PortAction} {s s' : Drd} (ha : a.apply s = some s') :
    roleSide s' = roleSide s := by
  cases a with
  | device a =>
    have hside := congrArg roleSide (Action.apply_unwritten ha)
    exact hside
  | requestRole r => cases ha; rfl

theorem roleSide_elsewhere (ht : Taken (portKernel n) (drdBoot n) w ok g c l c')
    (hl : l ≠ .eval roleThread) : Elsewhere (portKernel n) roleSide c c' l := by
  refine step_elsewhere ht.step ?_ fun a s _ ha => roleSide_act ha
  rintro u rfl
  exact roleSide_peer (fun h => hl (congrArg Label.eval h)) ht

end Steps

def Published (s : Drd) : Prop := s.sigRole = .steady s.roleMgr.mRole

/-- The last rising edge is at least the length of a pulse ago. -/
def Apart (g : PulseLog) (now : ℕ) : Prop := ∀ t, g.lastRise = some t → t + 10*ns ≤ now

/-- Where the role manager stands in its pulse, and what was seen of it. -/
inductive PulseAt (g : PulseLog) (now : ℕ) (s : Drd) :
    Thread Drd WaitPoint Payload TlmResponse Loop → Prop
  | start {p} (hrole : Published s) (hnone : s.roleMgr.mRole = .none)
      (hline : s.sigRoleChanged = .steady false) (hapart : Apart g now) (hlow : g.low = true) :
      PulseAt g now s (.ready .start p)
  | waits {next} (hrole : Published s) (hline : s.sigRoleChanged.nxt = false) (hapart : Apart g now)
      (hlow : s.sigRoleChanged.cur = false → g.low = true) :
      PulseAt g now s (.waiting .roleInputs none next)
  | woken {p} (hrole : Published s) (hline : s.sigRoleChanged = .steady false)
      (hapart : Apart g now) (hlow : g.low = true) : PulseAt g now s (.ready (.woke .roleInputs) p)
  | rises {next} (hrole : s.sigRole.cur ≠ s.sigRole.nxt) (hnext : s.sigRole.nxt = s.roleMgr.mRole)
      (hline : s.sigRoleChanged.rises = true) (hapart : Apart g now) (hlow : g.low = true) :
      PulseAt g now s (.waiting .rolePulse (some (now + 10*ns)) next)
  | high {t next} (hrole : Published s) (hline : s.sigRoleChanged = .steady true)
      (hrise : g.lastRise = some t) : PulseAt g now s (.waiting .rolePulse (some (t + 10*ns)) next)
  | ends {p} (hrole : Published s) (hline : s.sigRoleChanged = .steady true) (hapart : Apart g now) :
      PulseAt g now s (.ready (.woke .rolePulse) p)

section Inv
variable {g : PulseLog} {c c' : DrdConf n} {l : PortLabel n}

theorem note_keep (g : PulseLog) (c c' : DrdConf n) (h : c'.state.sigRoleChanged.cur = c.state.sigRoleChanged.cur) :
    (g.note c c').lastRise = g.lastRise ∧ (g.low = true → (g.note c c').low = true) ∧
      (c'.state.sigRoleChanged.cur = false → (g.note c c').low = true) := by
  have hno : ¬(c.state.sigRoleChanged.cur = false ∧ c'.state.sigRoleChanged.cur = true) := by
    rintro ⟨hlow,hhigh⟩
    rw [h,hlow] at hhigh
    cases hhigh
  rw [PulseLog.note,if_neg hno]
  exact ⟨rfl,fun hlow => by simp [hlow],fun hlow => by simp [hlow]⟩

theorem Apart.mono {g' : PulseLog} {now now' : ℕ} (h : Apart g now)
    (hg : g'.lastRise = g.lastRise) (hnow : now ≤ now') : Apart g' now' := by
  intro t ht
  rw [hg] at ht
  exact (h t ht).trans hnow

theorem eval_inv (ht : Taken (portKernel n) (drdBoot n) pulseLog (fun _ _ _ => True) g c
      (.eval roleThread) c') (hat : PulseAt g c.now c.state (c.thread roleThread)) :
    PulseAt (g.note c c') c'.now c'.state (c'.thread roleThread) := by
  obtain ⟨o,hloc,-,hguar⟩ := role_meets.guar ht.forget
  have hwaits : ∀ {w}, c'.loc roleThread = .waiting w → c'.now = c.now ∧
      ∃ next, c'.thread roleThread = .waiting w ((w.delay).map (c.now + ·)) next :=
    fun hw => eval_waits ht.step hw
  simp only [Conf.loc] at hloc
  generalize c.thread roleThread = th at hat hloc
  cases hat with
  | start hrole hnone hline hapart hlow =>
    cases hloc
    obtain ⟨hl,hside⟩ := hguar
    simp only [roleSide,Prod.mk.injEq] at hside
    obtain ⟨hchanged,hsig,hmember⟩ := hside
    obtain ⟨hnow,next,hth⟩ := hwaits hl
    obtain ⟨hg,hlow',-⟩ := note_keep g c c' (by rw [hchanged]; rfl)
    rw [hth,hnow]
    refine .waits ?_ (by rw [hchanged]; rfl) (hapart.mono hg le_rfl) fun _ => hlow' hlow
    rw [Published,hsig,hmember,hrole,hnone]
    rfl
  | woken hrole hline hapart hlow =>
    cases hloc
    obtain ⟨hl,hside⟩ | ⟨hl,role,hne,hside⟩ := hguar
    · simp only [roleSide,Prod.mk.injEq] at hside
      obtain ⟨hchanged,hsig,hmember⟩ := hside
      obtain ⟨hnow,next,hth⟩ := hwaits hl
      obtain ⟨hg,hlow',-⟩ := note_keep g c c' (by rw [hchanged])
      rw [hth,hnow]
      refine .waits ?_ (by rw [hchanged,hline]; rfl) (hapart.mono hg le_rfl) fun _ => hlow' hlow
      rw [Published,hsig,hmember]
      exact hrole
    · simp only [roleSide,Prod.mk.injEq] at hside
      obtain ⟨hchanged,hsig,hmember⟩ := hside
      obtain ⟨hnow,next,hth⟩ := hwaits hl
      obtain ⟨hg,hlow',-⟩ := note_keep g c c' (by rw [hchanged]; rfl)
      rw [hth,hnow]
      refine .rises ?_ (by rw [hsig,hmember]; rfl) (by rw [hchanged,hline]; rfl)
        (hapart.mono hg le_rfl) (hlow' hlow)
      rw [hsig,hrole]
      exact hne.symm
  | ends hrole hline hapart =>
    cases hloc
    obtain ⟨hl,hside⟩ := hguar
    simp only [roleSide,Prod.mk.injEq] at hside
    obtain ⟨hchanged,hsig,hmember⟩ := hside
    obtain ⟨hnow,next,hth⟩ := hwaits hl
    obtain ⟨hg,-,hlow⟩ := note_keep g c c' (by rw [hchanged]; rfl)
    rw [hth,hnow]
    refine .waits ?_ (by rw [hchanged]; rfl) (hapart.mono hg le_rfl) hlow
    rw [Published,hsig,hmember]
    exact hrole
  | _ => cases hloc

theorem PulseAt.keep {now : ℕ} {th : Thread Drd WaitPoint Payload TlmResponse Loop}
    (hat : PulseAt g now c.state th) (hside : roleSide c'.state = roleSide c.state) :
    PulseAt (g.note c c') now c'.state th := by
  simp only [roleSide,Prod.mk.injEq] at hside
  obtain ⟨hchanged,hsig,hmember⟩ := hside
  obtain ⟨hg,hlow,-⟩ := note_keep g c c' (by rw [hchanged])
  have hpublished : Published c.state → Published c'.state := by
    rw [Published,Published,hsig,hmember]
    exact id
  cases hat with
  | start hrole hnone hline hapart hlow' =>
    exact .start (hpublished hrole) (by rwa [hmember]) (by rwa [hchanged]) (hapart.mono hg le_rfl)
      (hlow hlow')
  | waits hrole hline hapart hlow' =>
    exact .waits (hpublished hrole) (by rwa [hchanged]) (hapart.mono hg le_rfl)
      fun h => hlow (hlow' (by rwa [hchanged] at h))
  | woken hrole hline hapart hlow' =>
    exact .woken (hpublished hrole) (by rwa [hchanged]) (hapart.mono hg le_rfl) (hlow hlow')
  | rises hrole hnext hline hapart hlow' =>
    exact .rises (by rwa [hsig]) (by rwa [hsig,hmember]) (by rwa [hchanged])
      (hapart.mono hg le_rfl) (hlow hlow')
  | high hrole hline hrise =>
    exact .high (hpublished hrole) (by rwa [hchanged]) (by rwa [hg])
  | ends hrole hline hapart =>
    exact .ends (hpublished hrole) (by rwa [hchanged]) (hapart.mono hg le_rfl)

theorem keep_inv (hs : (portKernel n).step c l = some c') (hl : l ≠ .eval roleThread)
    (hdelta : l ≠ .delta) (hadvance : ∀ d, l ≠ .advance d) (hnow : c'.now = c.now)
    (hside : roleSide c'.state = roleSide c.state)
    (hat : PulseAt g c.now c.state (c.thread roleThread)) :
    PulseAt (g.note c c') c'.now c'.state (c'.thread roleThread) := by
  have hthread : c'.thread roleThread = c.thread roleThread :=
    step_unmoved hs hl hdelta hadvance (fun h => by rw [h] at hat; cases hat)
      fun q next h => by rw [h] at hat; cases hat
  rw [hthread,hnow]
  exact hat.keep hside

theorem delta_inv (hs : (portKernel n).step c .delta = some c') (hnow : c'.now = c.now)
    (hside : roleSide c'.state = roleSide c.state.update)
    (hat : PulseAt g c.now c.state (c.thread roleThread)) :
    PulseAt (g.note c c') c'.now c'.state (c'.thread roleThread) := by
  simp only [roleSide,Prod.mk.injEq] at hside
  obtain ⟨hchanged,hsig,hmember⟩ := hside
  have hpublished : Published c.state → Published c'.state := by
    intro h
    rw [Published,hsig,hmember]
    exact congrArg Sig.update h
  generalize hth : c.thread roleThread = th at hat
  cases hat with
  | waits hrole hline hapart hlow =>
    have hsteady : c'.state.sigRoleChanged = .steady false := by
      rw [hchanged]
      exact Sig.eq_steady rfl hline
    have hno : ¬(c.state.sigRoleChanged.cur = false ∧ c'.state.sigRoleChanged.cur = true) := by
      simp [hsteady]
    have hg : g.note c c' = { g with low := true } := by
      rw [PulseLog.note,if_neg hno,hsteady]
      simp
    rw [hg,hnow]
    rcases delta_waiting hs hth with hstay | ⟨hwoken,-⟩
    · rw [hstay,hth]
      exact .waits (hpublished hrole) (by rw [hsteady]; rfl) hapart fun _ => rfl
    · rw [hwoken]
      exact .woken (hpublished hrole) hsteady hapart rfl
  | rises hrole hnext hline hapart hlow =>
    obtain ⟨hcur,hnxt⟩ := (Sig.rises_eq_true _).mp hline
    have hsteady : c'.state.sigRoleChanged = .steady true := by
      rw [hchanged]
      exact Sig.eq_steady rfl hnxt
    have hrise : (g.note c c').lastRise = some c.now := by
      rw [PulseLog.note,if_pos ⟨hcur,by rw [hsteady]; rfl⟩,hnow]
    rcases delta_waiting hs hth with hstay | ⟨-,hw⟩
    · rw [hstay,hth]
      refine .high ?_ hsteady hrise
      rw [Published,hsig,hmember]
      exact Sig.eq_steady rfl hnext
    · cases hw
  | high hrole hline hrise =>
    have hkeep : c'.state.sigRoleChanged = c.state.sigRoleChanged := by
      rw [hchanged,Drd.update,hline]
      rfl
    obtain ⟨hg,-,-⟩ := note_keep g c c' (by rw [hkeep])
    rcases delta_waiting hs hth with hstay | ⟨-,hw⟩
    · rw [hstay,hth]
      exact .high (hpublished hrole) (hkeep.trans hline) (hg.trans hrise)
    · cases hw
  | _ => exact absurd rfl (step_ready hs hth (by simp)).2.1

theorem advance_inv {d : ℕ} (hs : (portKernel n).step c (.advance d) = some c')
    (hside : roleSide c'.state = roleSide c.state)
    (hline : c.state.sigRoleChanged.cur = c.state.sigRoleChanged.nxt) (hnow : c.now ≤ c'.now)
    (hat : PulseAt g c.now c.state (c.thread roleThread)) :
    PulseAt (g.note c c') c'.now c'.state (c'.thread roleThread) := by
  simp only [roleSide,Prod.mk.injEq] at hside
  obtain ⟨hchanged,hsig,hmember⟩ := hside
  obtain ⟨hg,hlow,-⟩ := note_keep g c c' (by rw [hchanged])
  have hpublished : Published c.state → Published c'.state := by
    rw [Published,Published,hsig,hmember]
    exact id
  generalize hth : c.thread roleThread = th at hat
  cases hat with
  | waits hrole hline' hapart hlow' =>
    rcases advance_waiting hs hth with hstay | ⟨-,hdue⟩
    · rw [hstay,hth]
      exact .waits (hpublished hrole) (by rwa [hchanged]) (hapart.mono hg hnow)
        fun h => hlow (hlow' (by rwa [hchanged] at h))
    · cases hdue
  | rises _ _ hrises =>
    obtain ⟨hcur,hnxt⟩ := (Sig.rises_eq_true _).mp hrises
    rw [hcur,hnxt] at hline
    cases hline
  | high hrole hhigh hrise =>
    rcases advance_waiting hs hth with hstay | ⟨hout,hdue⟩
    · rw [hstay,hth]
      exact .high (hpublished hrole) (by rwa [hchanged]) (hg.trans hrise)
    · rw [hout]
      refine .ends (hpublished hrole) (by rwa [hchanged]) fun t ht => ?_
      rw [hg,hrise] at ht
      cases ht
      exact (Option.some.inj hdue).le
  | _ => exact absurd rfl ((step_ready hs hth (by simp)).2.2 d)

theorem step_inv (ht : Taken (portKernel n) (drdBoot n) pulseLog (fun _ _ _ => True) g c l c')
    (hat : PulseAt g c.now c.state (c.thread roleThread)) :
    PulseAt (g.note c c') c'.now c'.state (c'.thread roleThread) := by
  by_cases hl : l = .eval roleThread
  · subst hl
    exact eval_inv ht hat
  · have hs := ht.step
    cases roleSide_elsewhere ht hl with
    | stays hdelta hadvance hnow hside => exact keep_inv hs hl hdelta hadvance hnow hside hat
    | updates hnow hside => exact delta_inv hs hnow hside hat
    | passes hnow hside hquiet =>
      exact advance_inv hs hside (Drd.settled_of_quiet hquiet).roleChanged hnow hat

theorem reach_inv (hr : Reach (portKernel n) (drdBoot n) pulseLog (fun _ _ _ => True) g c) :
    PulseAt g c.now c.state (c.thread roleThread) := by
  induction hr with
  | boot => exact .start rfl rfl rfl (fun t ht => (by cases ht)) rfl
  | step hr hok hs ih => exact step_inv ⟨hr,hok,hs⟩ ih

/-- Once its signal has settled, the role is what the role manager took on. -/
theorem PulseAt.settled {now : ℕ} {s : Drd} {th : Thread Drd WaitPoint Payload TlmResponse Loop}
    (h : PulseAt g now s th) (hs : s.sigRole.cur = s.sigRole.nxt) :
    s.sigRole.cur = s.roleMgr.mRole := by
  have hpublished : Published s → s.sigRole.cur = s.roleMgr.mRole := fun h => by rw [h]; rfl
  cases h with
  | rises hrole => exact absurd hs hrole
  | start h => exact hpublished h
  | waits h => exact hpublished h
  | woken h => exact hpublished h
  | high h => exact hpublished h
  | ends h => exact hpublished h

/-- The update phase changes the role exactly where it raises the line, and only there does
the line rise. -/
theorem PulseAt.changes_iff {now : ℕ} {s : Drd}
    {th : Thread Drd WaitPoint Payload TlmResponse Loop} (h : PulseAt g now s th)
    (hth : ∀ o p, th ≠ .ready o p) :
    (s.sigRole.cur ≠ s.sigRole.nxt ↔ s.sigRoleChanged.rises = true) ∧
      (s.sigRoleChanged.rises = true → Apart g now ∧ g.low = true) := by
  cases h with
  | waits hrole hline =>
    have hno : ¬s.sigRoleChanged.rises = true := by simp [hline]
    exact ⟨iff_of_false (by rw [hrole]; simp) hno,fun h => absurd h hno⟩
  | rises hrole _ hline hapart hlow => exact ⟨iff_of_true hrole hline,fun _ => ⟨hapart,hlow⟩⟩
  | high hrole hline =>
    have hno : ¬s.sigRoleChanged.rises = true := by simp [hline]
    exact ⟨iff_of_false (by rw [hrole]; simp) hno,fun h => absurd h hno⟩
  | _ => exact absurd rfl (hth _ _)

end Inv

def Rises (s s' : Drd) : Prop := s.sigRoleChanged.cur = false ∧ s'.sigRoleChanged.cur = true

instance (s s' : Drd) : Decidable (Rises s s') := inferInstanceAs (Decidable (_ ∧ _))

/-- In every run role and pulse change together: at each step the role changes exactly if
`role_changed` rises, it does not change from a configuration in which that is high, the
last rise is a pulse length and a low ago, and a settled role is the one taken on. -/
theorem role_changes_iff_rises (n : ℕ) (g : PulseLog) (c c' : DrdConf n) (l : PortLabel n)
    (ht : Taken (portKernel n) (drdBoot n) pulseLog (fun _ _ _ => True) g c l c') :
    (c'.state.sigRole.cur ≠ c.state.sigRole.cur ↔ Rises c.state c'.state) ∧
      (c.state.sigRoleChanged.cur = true → c'.state.sigRole.cur = c.state.sigRole.cur) ∧
      (Rises c.state c'.state → ∀ t, g.lastRise = some t → t + 10*ns ≤ c'.now ∧ g.low = true) ∧
      (c'.state.settled = true → c'.state.sigRole.cur = c'.state.roleMgr.mRole) := by
  have hat := reach_inv ht.reach
  have hat' := step_inv ht hat
  have hsettled : c'.state.settled = true → c'.state.sigRole.cur = c'.state.roleMgr.mRole :=
    fun hs => hat'.settled (Drd.settled_signals hs).role
  suffices h : (c'.state.sigRole.cur ≠ c.state.sigRole.cur ↔ Rises c.state c'.state) ∧
      (Rises c.state c'.state → Apart g c'.now ∧ g.low = true) from
    ⟨h.1,fun hhigh => by_contra fun hne => by simpa [hhigh] using (h.1.mp hne).1,
      fun hrise t ht => ⟨(h.2 hrise).1 t ht,(h.2 hrise).2⟩,hsettled⟩
  have hkeep : c'.state.sigRole.cur = c.state.sigRole.cur →
      c'.state.sigRoleChanged.cur = c.state.sigRoleChanged.cur →
      (c'.state.sigRole.cur ≠ c.state.sigRole.cur ↔ Rises c.state c'.state) ∧
        (Rises c.state c'.state → Apart g c'.now ∧ g.low = true) := by
    intro hrole hline
    have hno : ¬Rises c.state c'.state := by
      rintro ⟨hlow,hhigh⟩
      rw [hline,hlow] at hhigh
      cases hhigh
    exact ⟨iff_of_false (not_not.mpr hrole) hno,fun h => absurd h hno⟩
  by_cases hl : l = .eval roleThread
  · subst hl
    obtain ⟨o,-,-,hguar⟩ := role_meets.guar ht.forget
    obtain ⟨hrole,hline⟩ := roleGuar_cur hguar
    exact hkeep hrole hline
  · cases roleSide_elsewhere ht hl with
    | stays _ _ _ hside =>
      simp only [roleSide,Prod.mk.injEq] at hside
      exact hkeep (by rw [hside.2.1]) (by rw [hside.1])
    | updates hnow hside =>
      simp only [roleSide,Prod.mk.injEq] at hside
      have hidle : ∀ o p, c.thread roleThread ≠ .ready o p :=
        fun o p hth => absurd rfl (step_ready ht.step hth (by simp)).2.1
      obtain ⟨hiff,hapart⟩ := hat.changes_iff hidle
      have hrises : Rises c.state c'.state ↔ c.state.sigRoleChanged.rises = true := by
        rw [Rises,hside.1,Sig.rises_eq_true]
        rfl
      rw [hrises,hside.2.1,hnow]
      exact ⟨ne_comm.trans hiff,hapart⟩
    | passes _ hside =>
      simp only [roleSide,Prod.mk.injEq] at hside
      exact hkeep (by rw [hside.2.1]) (by rw [hside.1])

def requestsRun : List (PortLabel 0) :=
  startRun ++ [.act (.requestRole .host),.delta,.eval roleThread,.delta,.eval monitorThread,
    .eval collectorThread,.delta,.advance (10*ns),.eval roleThread,.act (.requestRole .device),
    .delta,.eval roleThread,.eval collectorThread]

theorem role_changes_again : ∃ g c c', Taken (portKernel 0) (drdBoot 0) pulseLog
    (fun _ _ _ => True) g c .delta c' ∧ g.lastRise = some 0 ∧ 0 + 10*ns ≤ c'.now ∧
      c'.state.sigRole.cur ≠ c.state.sigRole.cur := by
  obtain ⟨g,c,c',ht,hrise,hlast⟩ := exists_taken (portKernel 0) (drdBoot 0) pulseLog
    (fun _ _ _ => True) .delta (fun g c c' => Rises c.state c'.state ∧ g.lastRise = some 0)
    requestsRun (by decide +kernel)
  obtain ⟨hiff,-,hapart,-⟩ := role_changes_iff_rises 0 g c c' .delta ht
  exact ⟨g,c,c',ht,hlast,(hapart hrise 0 hlast).1,hiff.mpr hrise⟩

end RolePulse
end Usb3Drd
