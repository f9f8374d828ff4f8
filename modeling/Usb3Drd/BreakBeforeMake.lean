import Usb3Drd.RoleEnable
import Usb3Drd.Coop.Timeouts

/-! Break before make: between the time one controller is enabled and the time the other
is, both are disabled for the settle time. -/
namespace Usb3Drd
namespace BreakBeforeMake

open Coop DrdController

variable {n : ℕ}

/-- The enables as they could be seen at some time. -/
structure Sample where
  now : ℕ
  host : Bool
  dev : Bool
  deriving DecidableEq

def sample (c : DrdConf n) : Sample :=
  ⟨c.now,c.state.sigHostEnable.cur,c.state.sigDevEnable.cur⟩

def samples : Watch (List Sample) Drd WaitPoint Payload TlmResponse Loop Action Payload (Tid n) where
  init := [⟨0,false,false⟩]
  next g _ _ c' := sample c'::g

/-- Both enables were low in the microsecond before `t`, delta cycles at its beginning
excepted. -/
def LowFor (g : List Sample) (t : ℕ) : Prop :=
  1*us ≤ t ∧ ∀ x ∈ g, t < x.now + 1*us → x.host = false ∧ x.dev = false

instance (g : List Sample) (t : ℕ) : Decidable (LowFor g t) := inferInstanceAs (Decidable (_ ∧ _))

def Rises (s s' : Drd) : Prop :=
  (s.sigHostEnable.cur = false ∧ s'.sigHostEnable.cur = true) ∨
    (s.sigDevEnable.cur = false ∧ s'.sigDevEnable.cur = true)

instance (s s' : Drd) : Decidable (Rises s s') := inferInstanceAs (Decidable (_ ∨ _))

def Kept (s s' : Drd) : Prop :=
  s'.sigHostEnable = s.sigHostEnable ∧ s'.sigDevEnable = s.sigDevEnable

def enables (s : Drd) : Sig Bool × Sig Bool := (s.sigHostEnable,s.sigDevEnable)

theorem kept_iff_enables {s s' : Drd} : Kept s s' ↔ enables s' = enables s := Prod.mk_inj.symm

def Lowered (s s' : Drd) : Prop :=
  s'.sigHostEnable = s.sigHostEnable.write false ∧ s'.sigDevEnable = s.sigDevEnable.write false

def Raised (s s' : Drd) : Prop :=
  ∃ role, Kept (enableRole role s) s'

theorem lowered {s s' : Drd} (h : s' = disableBoth s) : Lowered s s' := by
  subst h
  exact ⟨rfl,rfl⟩

theorem raised {s s' : Drd}
    (h : ∃ role, s' = raiseIrq intrRoleChanged (enableRole role s)) : Raised s s' := by
  obtain ⟨role,rfl⟩ := h
  have hraise := raiseIrq_unwritten intrRoleChanged (enableRole role s)
  have hhost := congrArg Drd.sigHostEnable hraise
  have hdev := congrArg Drd.sigDevEnable hraise
  exact ⟨role,hhost,hdev⟩

theorem monitorTurn_cur {o : Origin WaitPoint Payload TlmResponse} {s s' : Drd}
    {l : Loc WaitPoint Payload TlmResponse} (h : monitorTurn o s l s') :
    s'.sigHostEnable.cur = s.sigHostEnable.cur ∧ s'.sigDevEnable.cur = s.sigDevEnable.cur := by
  unfold monitorTurn at h
  split at h
  · obtain ⟨-,rfl⟩ := h
    exact ⟨rfl,rfl⟩
  · obtain ⟨-,rfl⟩ := h
    exact ⟨rfl,rfl⟩
  · obtain ⟨role,hhost,hdev⟩ := raised h.2
    rw [hhost,hdev]
    cases role <;> exact ⟨rfl,rfl⟩
  · cases h

section Runs
variable {γ : Type} {w : Watch γ Drd WaitPoint Payload TlmResponse Loop Action Payload (Tid n)}
  {ok : γ → DrdConf n → DrdLabel Action n → Prop} {g : γ} {c c' : DrdConf n}
  {l : DrdLabel Action n}

theorem enables_elsewhere (ht : Taken (drdKernel n) (drdBoot n) w ok g c l c')
    (hl : l ≠ .eval monitorThread) : Elsewhere (drdKernel n) enables c c' l := by
  refine step_elsewhere ht.step ?_ fun a s _ ha => kept_iff_enables.mp (RoleEnable.signals_act ha).2
  rintro u rfl
  exact kept_iff_enables.mp (RoleEnable.enableSignals_peer (fun h => hl (congrArg Label.eval h)) ht)

end Runs

structure Seen (g : List Sample) (c : DrdConf n) : Prop where
  here : sample c ∈ g
  past : ∀ x ∈ g, x.now ≤ c.now
  single : ¬(c.state.sigHostEnable.cur = true ∧ c.state.sigDevEnable.cur = true)

/-- An enable may be written high only out of a microsecond in which both were low. -/
def Made (g : List Sample) (now : ℕ) (s : Drd) : Prop :=
  ¬(s.sigHostEnable.nxt = true ∧ s.sigDevEnable.nxt = true) ∧
    (s.sigHostEnable.rises = true ∨ s.sigDevEnable.rises = true → LowFor g now)

def Off (s : Drd) : Prop := s.sigHostEnable.nxt = false ∧ s.sigDevEnable.nxt = false

/-- Where the monitor stands. -/
inductive MonitorAt (g : List Sample) (now : ℕ) (s : Drd) :
    Thread Drd WaitPoint Payload TlmResponse Loop → Prop
  | start {p} (h : Off s) : MonitorAt g now s (.ready .start p)
  | waits {next} (h : Made g now s) : MonitorAt g now s (.waiting .roleSwitch none next)
  | woken {p} (h : Made g now s) : MonitorAt g now s (.ready (.woke .roleSwitch) p)
  | settles {t next} (h : Off s) (hlow : LowFor g t) :
    MonitorAt g now s (.waiting .roleSettle (some t) next)
  | settled {p} (h : s.sigHostEnable = .steady false ∧ s.sigDevEnable = .steady false)
    (hlow : LowFor g now) : MonitorAt g now s (.ready (.woke .roleSettle) p)

section Steps
variable {g : List Sample} {c c' : DrdConf n} {l : DrdLabel Action n}

theorem LowFor.again {t : ℕ} (h : LowFor g t) {x : Sample} (hx : x ∈ g) : LowFor (x::g) t := by
  refine ⟨h.1,fun y hy => ?_⟩
  rcases List.mem_cons.mp hy with rfl | hy
  · exact h.2 y hx
  · exact h.2 y hy

theorem LowFor.low {t : ℕ} (h : LowFor g t) {x : Sample} (hx : x.host = false ∧ x.dev = false) :
    LowFor (x::g) t := by
  refine ⟨h.1,fun y hy => ?_⟩
  rcases List.mem_cons.mp hy with rfl | hy
  · exact fun _ => hx
  · exact h.2 y hy

/-- From the time at which the enables are lowered the settle time passes. -/
theorem Seen.lowFor (h : Seen g c) : LowFor g (c.now + 1*us) := by
  refine ⟨Nat.le_add_left _ _,fun x hx hlate => ?_⟩
  have hpast := h.past x hx
  omega

theorem Seen.again (h : Seen g c) (hnow : c'.now = c.now)
    (hhost : c'.state.sigHostEnable.cur = c.state.sigHostEnable.cur)
    (hdev : c'.state.sigDevEnable.cur = c.state.sigDevEnable.cur) :
    sample c' ∈ g ∧ Seen (sample c'::g) c' := by
  have hsample : sample c' = sample c := by rw [sample,hnow,hhost,hdev,sample]
  have hhere : sample c' ∈ g := by
    rw [hsample]
    exact h.here
  refine ⟨hhere,List.mem_cons_self,fun x hx => ?_,by rw [hhost,hdev]; exact h.single⟩
  have hold : x ∈ g := (List.mem_cons.mp hx).elim (fun hx => hx ▸ hhere) id
  rw [hnow]
  exact h.past x hold

theorem eval_inv (ht : Taken (drdKernel n) (drdBoot n) samples (fun _ _ _ => True) g c
      (.eval monitorThread) c') (hseen : Seen g c)
    (hat : MonitorAt g c.now c.state (c.thread monitorThread)) :
    Seen (sample c'::g) c' ∧
      MonitorAt (sample c'::g) c'.now c'.state (c'.thread monitorThread) := by
  obtain ⟨o,hloc,hturn⟩ := monitor_turn ht
  have hcur := monitorTurn_cur hturn
  have hwaits : ∀ {w}, c'.loc monitorThread = .waiting w → c'.now = c.now ∧
      ∃ next, c'.thread monitorThread = .waiting w ((w.delay).map (c.now + ·)) next :=
    fun hw => eval_waits ht.step hw
  simp only [Conf.loc] at hloc
  generalize c.thread monitorThread = th at hat hloc
  cases hat with
  | start h =>
    cases hloc
    obtain ⟨hl,hlow⟩ := hturn
    obtain ⟨hhost,hdev⟩ := lowered hlow
    obtain ⟨hnow,next,hth⟩ := hwaits hl
    obtain ⟨hsame,hagain⟩ := hseen.again hnow hcur.1 hcur.2
    refine ⟨hagain,?_⟩
    rw [hth]
    refine .waits ⟨by simp [hhost],fun hrises => ?_⟩
    simp [hhost,hdev] at hrises
  | woken h =>
    cases hloc
    obtain ⟨hl,hlow⟩ := hturn
    obtain ⟨hhost,hdev⟩ := lowered hlow
    obtain ⟨hnow,next,hth⟩ := hwaits hl
    obtain ⟨hsame,hagain⟩ := hseen.again hnow hcur.1 hcur.2
    refine ⟨hagain,?_⟩
    rw [hth]
    refine .settles ⟨by rw [hhost]; rfl,by rw [hdev]; rfl⟩ (hseen.lowFor.again hsame)
  | settled h hlow =>
    cases hloc
    obtain ⟨hl,hraised⟩ := hturn
    obtain ⟨role,hhost,hdev⟩ := raised hraised
    obtain ⟨hnow,next,hth⟩ := hwaits hl
    obtain ⟨hsame,hagain⟩ := hseen.again hnow hcur.1 hcur.2
    refine ⟨hagain,?_⟩
    rw [hth,hnow]
    refine .waits ⟨?_,fun _ => hlow.again hsame⟩
    rw [hhost,hdev]
    cases role <;> simp [enableRole,h.1,h.2]
  | waits => cases hloc
  | settles => cases hloc

theorem MonitorAt.keep {now : ℕ} {s s' : Drd} {th : Thread Drd WaitPoint Payload TlmResponse Loop}
    {x : Sample} (h : MonitorAt g now s th) (hk : Kept s s') (hx : x ∈ g) :
    MonitorAt (x::g) now s' th := by
  obtain ⟨hhost,hdev⟩ := hk
  have hmade : Made g now s → Made (x::g) now s' := by
    rintro ⟨hone,hlow⟩
    rw [Made,hhost,hdev]
    exact ⟨hone,fun hrises => (hlow hrises).again hx⟩
  cases h with
  | start h => exact .start (by rwa [Off,hhost,hdev])
  | waits h => exact .waits (hmade h)
  | woken h => exact .woken (hmade h)
  | settles h hlow => exact .settles (by rwa [Off,hhost,hdev]) (hlow.again hx)
  | settled h hlow => exact .settled (by rwa [hhost,hdev]) (hlow.again hx)

theorem keep_inv (hs : (drdKernel n).step c l = some c') (hl : l ≠ .eval monitorThread)
    (hdelta : l ≠ .delta) (hadvance : ∀ d, l ≠ .advance d) (hnow : c'.now = c.now)
    (hk : Kept c.state c'.state) (hseen : Seen g c)
    (hat : MonitorAt g c.now c.state (c.thread monitorThread)) :
    Seen (sample c'::g) c' ∧
      MonitorAt (sample c'::g) c'.now c'.state (c'.thread monitorThread) := by
  obtain ⟨hsame,hagain⟩ := hseen.again hnow (by rw [hk.1]) (by rw [hk.2])
  have hthread : c'.thread monitorThread = c.thread monitorThread :=
    step_unmoved hs hl hdelta hadvance (fun h => by rw [h] at hat; cases hat)
      fun q next h => by rw [h] at hat; cases hat
  rw [hthread,hnow]
  exact ⟨hagain,hat.keep hk hsame⟩

/-- The update phase raises an enable only where that was due. -/
theorem delta_inv (hs : (drdKernel n).step c .delta = some c') (hnow : c'.now = c.now)
    (hhost : c'.state.sigHostEnable = c.state.sigHostEnable.update)
    (hdev : c'.state.sigDevEnable = c.state.sigDevEnable.update) (hseen : Seen g c)
    (hat : MonitorAt g c.now c.state (c.thread monitorThread)) :
    Seen (sample c'::g) c' ∧
      MonitorAt (sample c'::g) c'.now c'.state (c'.thread monitorThread) := by
  have hpast : ∀ x ∈ sample c'::g, x.now ≤ c'.now := by
    intro x hx
    rcases List.mem_cons.mp hx with rfl | hx
    · exact le_refl _
    · rw [hnow]
      exact hseen.past x hx
  generalize hth : c.thread monitorThread = th at hat
  cases hat with
  | waits h =>
    have hmade : Made (sample c'::g) c'.now c'.state := by
      rw [Made,hhost,hdev]
      exact ⟨h.1,fun hrises => by simp [Sig.rises] at hrises⟩
    refine ⟨⟨List.mem_cons_self,hpast,by rw [hhost,hdev]; exact h.1⟩,?_⟩
    rcases delta_waiting hs hth with hstay | ⟨hwoken,-⟩
    · rw [hstay,hth]
      exact .waits hmade
    · rw [hwoken]
      exact .woken hmade
  | settles h hlow =>
    have hoff : c'.state.sigHostEnable.cur = false ∧ c'.state.sigDevEnable.cur = false := by
      rw [hhost,hdev]
      exact h
    refine ⟨⟨List.mem_cons_self,hpast,fun hboth => by simp [hoff.1] at hboth⟩,?_⟩
    rcases delta_waiting hs hth with hstay | ⟨-,hw⟩
    · rw [hstay,hth]
      exact .settles (by rw [Off,hhost,hdev]; exact h) (hlow.low hoff)
    · cases hw
  | _ => exact absurd rfl (step_ready hs hth (by simp)).2.1

theorem advance_inv {d : ℕ} (hs : (drdKernel n).step c (.advance d) = some c')
    (hnow : c.now ≤ c'.now) (hk : Kept c.state c'.state)
    (hhost : c.state.sigHostEnable.cur = c.state.sigHostEnable.nxt)
    (hdev : c.state.sigDevEnable.cur = c.state.sigDevEnable.nxt) (hseen : Seen g c)
    (hat : MonitorAt g c.now c.state (c.thread monitorThread)) :
    Seen (sample c'::g) c' ∧
      MonitorAt (sample c'::g) c'.now c'.state (c'.thread monitorThread) := by
  have hseen' : Seen (sample c'::g) c' := by
    refine ⟨List.mem_cons_self,fun x hx => ?_,by rw [hk.1,hk.2]; exact hseen.single⟩
    rcases List.mem_cons.mp hx with rfl | hx
    · exact le_refl _
    · exact (hseen.past x hx).trans hnow
  refine ⟨hseen',?_⟩
  generalize hth : c.thread monitorThread = th at hat
  cases hat with
  | waits h =>
    rcases advance_waiting hs hth with hstay | ⟨-,hdue⟩
    · rw [hstay,hth]
      refine .waits ?_
      rw [Made,hk.1,hk.2]
      refine ⟨h.1,fun hrises => ?_⟩
      simp only [Sig.rises_eq_true,hhost,hdev] at hrises
      rcases hrises with ⟨hcur,hnxt⟩ | ⟨hcur,hnxt⟩
      · simp [hcur] at hnxt
      · simp [hcur] at hnxt
    · cases hdue
  | settles h hlow =>
    have hoff : c'.state.sigHostEnable.cur = false ∧ c'.state.sigDevEnable.cur = false := by
      rw [hk.1,hk.2,hhost,hdev]
      exact h
    rcases advance_waiting hs hth with hstay | ⟨hout,hdue⟩
    · rw [hstay,hth]
      exact .settles (by rw [Off,hk.1,hk.2]; exact h) (hlow.low hoff)
    · cases hdue
      rw [hout]
      have hsteady : c'.state.sigHostEnable = .steady false ∧
          c'.state.sigDevEnable = .steady false :=
        ⟨hk.1.trans (Sig.eq_steady hhost h.1),hk.2.trans (Sig.eq_steady hdev h.2)⟩
      exact .settled hsteady (hlow.low hoff)
  | _ => exact absurd rfl ((step_ready hs hth (by simp)).2.2 d)

theorem MonitorAt.made {now : ℕ} {s : Drd} {th : Thread Drd WaitPoint Payload TlmResponse Loop}
    (h : MonitorAt g now s th) (hth : ∀ o p, th ≠ .ready o p) : Made g now s := by
  cases h with
  | waits h => exact h
  | settles h => exact ⟨fun hboth => by simp [h.1] at hboth,fun hrises => by simp [h.1,h.2] at hrises⟩
  | _ => exact absurd rfl (hth _ _)

theorem not_rises {s s' : Drd} (hhost : s'.sigHostEnable.cur = s.sigHostEnable.cur)
    (hdev : s'.sigDevEnable.cur = s.sigDevEnable.cur) : ¬Rises s s' := by
  simp [Rises,hhost,hdev]

/-- Every step keeps what has been seen and where the monitor stands. -/
theorem step_inv (ht : Taken (drdKernel n) (drdBoot n) samples (fun _ _ _ => True) g c l c')
    (hseen : Seen g c) (hat : MonitorAt g c.now c.state (c.thread monitorThread)) :
    Seen (sample c'::g) c' ∧
      MonitorAt (sample c'::g) c'.now c'.state (c'.thread monitorThread) := by
  by_cases hl : l = .eval monitorThread
  · subst hl
    exact eval_inv ht hseen hat
  · have hs := ht.step
    cases enables_elsewhere ht hl with
    | stays hdelta hadvance hnow hview =>
      exact keep_inv hs hl hdelta hadvance hnow (kept_iff_enables.mpr hview) hseen hat
    | updates hnow hview =>
      obtain ⟨hhost,hdev⟩ := kept_iff_enables.mpr hview
      exact delta_inv hs hnow hhost hdev hseen hat
    | passes hnow hview hquiet =>
      have hsettled := Drd.settled_of_quiet hquiet
      exact advance_inv hs hnow (kept_iff_enables.mpr hview) hsettled.hostEnable hsettled.devEnable
        hseen hat

theorem reach_inv (hr : Reach (drdKernel n) (drdBoot n) samples (fun _ _ _ => True) g c) :
    Seen g c ∧ MonitorAt g c.now c.state (c.thread monitorThread) := by
  induction hr with
  | boot =>
    refine ⟨⟨List.mem_cons_self,fun x hx => ?_,by simp [drdBoot,bootWith,Drd.reset]⟩,.start ⟨rfl,rfl⟩⟩
    rw [List.mem_singleton.mp hx]
    rfl
  | step hr hok hs ih => exact step_inv ⟨hr,hok,hs⟩ ih.1 ih.2

end Steps

/-- In every run the two enables are never both high, and both have been low for the settle
time when one of them rises. -/
theorem breakBeforeMake (n : ℕ) (g : List Sample) (c : DrdConf n)
    (hr : Reach (drdKernel n) (drdBoot n) samples (fun _ _ _ => True) g c) :
    ¬(c.state.sigHostEnable.cur = true ∧ c.state.sigDevEnable.cur = true) ∧
      ∀ l c', (drdKernel n).step c l = some c' → Rises c.state c'.state → LowFor g c.now := by
  obtain ⟨hseen,hat⟩ := reach_inv hr
  refine ⟨hseen.single,fun l c' hs hrises => ?_⟩
  have ht : Taken (drdKernel n) (drdBoot n) samples (fun _ _ _ => True) g c l c' := ⟨hr,trivial,hs⟩
  by_cases hl : l = .eval monitorThread
  · subst hl
    obtain ⟨o,-,hturn⟩ := monitor_turn ht
    exact absurd hrises (not_rises (monitorTurn_cur hturn).1 (monitorTurn_cur hturn).2)
  · have hkeep : Kept c.state c'.state → LowFor g c.now :=
      fun hk => absurd hrises (not_rises (by rw [hk.1]) (by rw [hk.2]))
    cases enables_elsewhere ht hl with
    | stays _ _ _ hview => exact hkeep (kept_iff_enables.mpr hview)
    | updates _ hview =>
      obtain ⟨hhost,hdev⟩ := kept_iff_enables.mpr hview
      have hidle : ∀ o p, c.thread monitorThread ≠ .ready o p :=
        fun o p hth => absurd rfl (step_ready hs hth (by simp)).2.1
      refine (hat.made hidle).2 (hrises.imp (fun h => ?_) fun h => ?_)
      · rw [hhost] at h
        exact (Sig.rises_eq_true _).mpr h
      · rw [hdev] at h
        exact (Sig.rises_eq_true _).mpr h
    | passes _ hview => exact hkeep (kept_iff_enables.mpr hview)

/-- The host is enabled at the end of a settle time that began with its attachment. -/
theorem breakBeforeMake_host : ∃ g c c', Reach (drdKernel 0) (drdBoot 0) samples
    (fun _ _ _ => True) g c ∧ (drdKernel 0).step c .delta = some c' ∧
    (c.state.sigHostEnable.cur = false ∧ c'.state.sigHostEnable.cur = true) ∧ LowFor g c.now := by
  obtain ⟨g,c,c',ht,hrises⟩ := exists_taken (drdKernel 0) (drdBoot 0) samples (fun _ _ _ => True)
    .delta (fun _ c c' => c.state.sigHostEnable.cur = false ∧ c'.state.sigHostEnable.cur = true)
    (roleRun .ufpAttached ++ switchRun) (by decide +kernel)
  exact ⟨g,c,c',ht.reach,ht.step,hrises,
    (breakBeforeMake 0 g c ht.reach).2 .delta c' ht.step (.inl hrises)⟩

end BreakBeforeMake
end Usb3Drd
