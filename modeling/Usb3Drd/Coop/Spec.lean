import Usb3Drd.Coop.Kernel

/-! Rely–guarantee reasoning about one thread of a scheduled system. A specification
names what holds while the thread stands at each location, what it may assume when
it runs again, how everything else may interfere meanwhile, and what each of its
own evaluations guarantees. -/
namespace Coop

variable {S W Q R L A E T γ α : Type}

/-- Where a running evaluation stands: the history and the state in which it began, why
it runs, and the state now. -/
structure Trail (γ S W Q R : Type) where
  hist : γ
  origin : Origin W Q R
  start : S
  state : S

/-- `held` is what holds while the thread stands at a location, `pre` what it may assume
when it runs, `rely` how everything else moves history and state meanwhile. `guar`
describes one evaluation by where it starts and where it stops, `leave` is the history
after it, and `head` the loop invariant. -/
structure Spec (γ S W Q R L : Type) where
  held : Loc W Q R → γ → S → Prop
  pre : Origin W Q R → γ → S → Prop
  rely : γ → S → γ → S → Prop
  guar : γ → Origin W Q R → S → Loc W Q R → S → Prop
  leave : γ → Origin W Q R → S → Loc W Q R → S → γ
  head : L → Trail γ S W Q R → Prop

namespace Spec
variable (sp : Spec γ S W Q R L)

def after (l : Loc W Q R) (x : Trail γ S W Q R) : γ :=
  sp.leave x.hist x.origin x.start l x.state

def stopsAt (l : Loc W Q R) (x : Trail γ S W Q R) : Prop :=
  sp.guar x.hist x.origin x.start l x.state ∧ sp.held l (sp.after l x) x.state

def resumes (l : Loc W Q R) (o : Origin W Q R) (x : Trail γ S W Q R) (g : γ) (s : S) : Prop :=
  sp.rely (sp.after l x) x.state g s ∧ sp.pre o g s

def setting : Setting S W Q R (Trail γ S W Q R) where
  state x := x.state
  store s x := { x with state := s }
  onWait w K x := sp.stopsAt (.waiting w) x ∧
    ∀ g s, sp.resumes (.waiting w) (.woke w) x g s → K ⟨g,.woke w,s,s⟩
  onCall q K x := sp.stopsAt (.calling q) x ∧
    ∀ r g s, sp.resumes (.calling q) (.returned q r) x g s → K r ⟨g,.returned q r,s,s⟩

@[simp] theorem setting_onWait (w : W) (K : Trail γ S W Q R → Prop) (x : Trail γ S W Q R) :
    sp.setting.onWait w K x ↔ sp.stopsAt (.waiting w) x ∧
      ∀ g s, sp.resumes (.waiting w) (.woke w) x g s → K ⟨g,.woke w,s,s⟩ := Iff.rfl
@[simp] theorem setting_onCall (q : Q) (K : R → Trail γ S W Q R → Prop) (x : Trail γ S W Q R) :
    sp.setting.onCall q K x ↔ sp.stopsAt (.calling q) x ∧
      ∀ r g s, sp.resumes (.calling q) (.returned q r) x g s → K r ⟨g,.returned q r,s,s⟩ :=
  Iff.rfl

-- Reads and writes in reduced form: a condition that a process branches on then never
-- mentions the setting.
@[simp high] theorem wp_read (f : S → α) (post : α → Trail γ S W Q R → Prop)
    (x : Trail γ S W Q R) :
    (Proc.read f : Proc S W Q R α).wp sp.setting post x ↔ post (f x.state) x := Iff.rfl

@[simp high] theorem wp_modify (f : S → S) (post : Unit → Trail γ S W Q R → Prop)
    (x : Trail γ S W Q R) :
    (Proc.modify f : Proc S W Q R Unit).wp sp.setting post x ↔
      post () { x with state := f x.state } := Iff.rfl

theorem setting_monotone : Proc.Monotone sp.setting :=
  ⟨fun _ _ _ _ h hw => ⟨hw.1,fun g s hr => h _ (hw.2 g s hr)⟩,
    fun _ _ _ _ h hc => ⟨hc.1,fun r g s hr => h r _ (hc.2 r g s hr)⟩⟩

/-- The rest of a thread meets the specification up to its next loop head. -/
def Safe (p : Proc S W Q R L) (x : Trail γ S W Q R) : Prop := p.wp sp.setting sp.head x

/-- Every loop body re-establishes the invariant of the loop it continues with. -/
def Loops (code : L → Option (Proc S W Q R L)) : Prop :=
  ∀ l x, sp.head l x →
    match code l with
    | some body => sp.Safe body x
    | none => sp.stopsAt .idle x

def Holds : Thread S W Q R L → γ → S → Prop
  | .idle, g, s => sp.held .idle g s
  | .ready o p, g, s => sp.held (.ready o) g s ∧
      ∀ g' s', sp.rely g s g' s' → sp.pre o g' s' → sp.Safe p ⟨g',o,s',s'⟩
  | .waiting w _ next, g, s => sp.held (.waiting w) g s ∧
      ∀ g' s', sp.rely g s g' s' → sp.pre (.woke w) g' s' → sp.Safe next ⟨g',.woke w,s',s'⟩
  | .calling q next, g, s => sp.held (.calling q) g s ∧
      ∀ r g' s', sp.rely g s g' s' → sp.pre (.returned q r) g' s' →
        sp.Safe (next r) ⟨g',.returned q r,s',s'⟩

theorem Holds.held {sp : Spec γ S W Q R L} {th : Thread S W Q R L} {g : γ} {s : S}
    (h : sp.Holds th g s) : sp.held th.loc g s := by
  cases th with
  | idle => exact h
  | ready o p => exact h.1
  | waiting w due next => exact h.1
  | calling q next => exact h.1

def Ends (x : Trail γ S W Q R) : Proc.Stop S W Q R L → Prop
  | .ret _ => sp.stopsAt .idle x
  | .wait w next => sp.setting.onWait w (sp.Safe next) x
  | .call q next => sp.setting.onCall q (fun r => sp.Safe (next r)) x

theorem segment_safe {code : L → Option (Proc S W Q R L)} (hcode : sp.Loops code)
    {n : ℕ} {p : Proc S W Q R L} {x : Trail γ S W Q R} {s' : S} {stop : Proc.Stop S W Q R L}
    (h : sp.Safe p x) (hseg : Kernel.segment code n p x.state = some (s',stop)) :
    sp.Ends { x with state := s' } stop := by
  induction n generalizing p x with
  | zero => simp [Kernel.segment] at hseg
  | succ n ih =>
    induction p generalizing x with
    | ret l =>
      have hl := hcode l x h
      simp only [Kernel.segment,Proc.run] at hseg
      cases hc : code l with
      | none =>
        simp only [hc,Option.some.injEq,Prod.mk.injEq] at hseg hl
        obtain ⟨rfl,rfl⟩ := hseg
        exact hl
      | some body =>
        simp only [hc] at hseg hl
        exact ih hl hseg
    | get next ihp => exact ihp _ h hseg
    | set s₁ next ihp => exact ihp (x := { x with state := s₁ }) h hseg
    | wait w next =>
      simp only [Kernel.segment,Proc.run,Option.some.injEq,Prod.mk.injEq] at hseg
      obtain ⟨rfl,rfl⟩ := hseg
      exact h
    | call q next =>
      simp only [Kernel.segment,Proc.run,Option.some.injEq,Prod.mk.injEq] at hseg
      obtain ⟨rfl,rfl⟩ := hseg
      exact h

end Spec

section System
variable [DecidableEq T] [Fintype T]

/-- A waiting thread has a timeout exactly when its wait point is a timed one. -/
def Conf.WellTimed (M : Kernel S W Q R L A E T) (c : Conf S W Q R L T) : Prop :=
  ∀ t w due next, c.thread t = .waiting w due next → (M.delay w = none → due = none)

section Update
variable {M : Kernel S W Q R L A E T}

omit [Fintype T] in
theorem Conf.WellTimed.update {c : Conf S W Q R L T} (h : c.WellTimed M) (now : ℕ) (s : S)
    (t : T) (th : Thread S W Q R L)
    (hth : ∀ w due next, th = .waiting w due next → (M.delay w = none → due = none)) :
    Conf.WellTimed M ⟨now,s,Function.update c.thread t th⟩ := by
  intro u w due next hu
  by_cases htu : u = t
  · subst htu
    simp only [Function.update_self] at hu
    exact hth w due next hu
  · simp only [Function.update_of_ne htu] at hu
    exact h u w due next hu

theorem step_wellTimed {c c' : Conf S W Q R L T} {l : Label R A E T} (h : c.WellTimed M)
    (hs : M.step c l = some c') : c'.WellTimed M := by
  cases l with
  | eval t =>
    obtain ⟨o,p,s,stop,-,-,rfl⟩ := step_eval hs
    apply h.update
    intro w due next hw hd
    cases stop with
    | ret l => cases hw
    | wait w' next' =>
      obtain ⟨rfl,rfl,rfl⟩ := Thread.waiting.inj hw
      simp [hd]
    | call q next' => cases hw
  | act a =>
    obtain ⟨s,-,rfl⟩ := step_act hs
    exact h
  | enter t e =>
    obtain ⟨p,-,-,rfl⟩ := step_enter hs
    exact h.update _ _ _ _ fun _ _ _ hw => by cases hw
  | reply t r =>
    obtain ⟨q,next,-,rfl⟩ := step_reply hs
    exact h.update _ _ _ _ fun _ _ _ hw => by cases hw
  | delta =>
    obtain ⟨-,rfl⟩ := step_delta hs
    intro t w due next ht
    cases hth : c.thread t with
    | waiting w' due' next' =>
      simp only [hth,Thread.notify] at ht
      split at ht
      · cases ht
      · obtain ⟨rfl,rfl,rfl⟩ := Thread.waiting.inj ht
        exact h t _ _ _ hth
    | _ => simp [hth,Thread.notify] at ht
  | advance d =>
    obtain ⟨-,-,-,rfl⟩ := step_advance hs
    intro t w due next ht
    cases hth : c.thread t with
    | waiting w' due' next' =>
      simp only [hth,Thread.expire] at ht
      split at ht
      · cases ht
      · obtain ⟨rfl,rfl,rfl⟩ := Thread.waiting.inj ht
        exact h t _ _ _ hth
    | _ => simp [hth,Thread.expire] at ht

end Update

variable (M : Kernel S W Q R L A E T) (boot : Conf S W Q R L T) (w : Watch γ S W Q R L A E T)
  (ok : γ → Conf S W Q R L T → Label R A E T → Prop) (t : T) (sp : Spec γ S W Q R L)

def Spec.Moves (l l' : Loc W Q R) (g : γ) (s : S) (g' : γ) (s' : S) : Prop :=
  sp.held l g s → sp.held l' g' s' ∧ sp.rely g s g' s'

def Label.isQuiet : Label R A E T → Bool
  | .enter _ _ => true
  | .reply _ _ => true
  | .advance _ => true
  | _ => false

/-- Thread `t` of the system meets its specification: its code does, and every step
that does not evaluate it moves its assertion as far as the step moves the thread. -/
structure Meets : Prop where
  loops : sp.Loops M.code
  begins : ∀ e p, M.entry t e = some p → ∀ g s, sp.pre .start g s → sp.Safe p ⟨g,.start,s,s⟩
  timed : boot.WellTimed M
  start : sp.Holds (boot.thread t) w.init boot.state
  refl : ∀ g s, sp.rely g s g s
  trans : ∀ g s g' s' g'' s'', sp.rely g s g' s' → sp.rely g' s' g'' s'' → sp.rely g s g'' s''
  own : ∀ g c o, Reach M boot w ok g c → c.loc t = .ready o → ok g c (.eval t) →
    sp.held (.ready o) g c.state → sp.pre o g c.state
  leave : ∀ g c o c', c.loc t = .ready o → M.step c (.eval t) = some c' →
    w.next g c (.eval t) c' = sp.leave g o c.state (c'.loc t) c'.state
  peer : ∀ g c u c', Taken M boot w ok g c (.eval u) c' → u ≠ t →
    sp.Moves (c.loc t) (c.loc t) g c.state (w.next g c (.eval u) c') c'.state
  act : ∀ g c a c', Taken M boot w ok g c (.act a) c' → M.act a c.state = some c'.state →
    sp.Moves (c.loc t) (c.loc t) g c.state (w.next g c (.act a) c') c'.state
  still : ∀ g c l c', Taken M boot w ok g c l c' → l.isQuiet = true →
    sp.Moves (c.loc t) (c.loc t) g c.state (w.next g c l c') c.state
  delta : ∀ g c c', Taken M boot w ok g c .delta c' → (∀ o, c.loc t ≠ .ready o) →
    (∀ w', c.loc t = .waiting w' → M.wakes w' c.state = false) →
    sp.Moves (c.loc t) (c.loc t) g c.state (w.next g c .delta c') (M.update c.state)
  wake : ∀ g c c' w', Taken M boot w ok g c .delta c' → c.loc t = .waiting w' →
    M.wakes w' c.state = true →
    sp.Moves (.waiting w') (.ready (.woke w')) g c.state (w.next g c .delta c') (M.update c.state)
  expire : ∀ g c d c' w', Taken M boot w ok g c (.advance d) c' → c.loc t = .waiting w' →
    M.delay w' ≠ none → M.quiet c.state = true →
    sp.Moves (.waiting w') (.ready (.woke w')) g c.state (w.next g c (.advance d) c') c.state
  answer : ∀ g c q r c', Taken M boot w ok g c (.reply t r) c' → c.loc t = .calling q →
    sp.Moves (.calling q) (.ready (.returned q r)) g c.state (w.next g c (.reply t r) c') c.state
  enter : ∀ g c e c', Taken M boot w ok g c (.enter t e) c' → c.loc t = .idle →
    sp.Moves .idle (.ready .start) g c.state (w.next g c (.enter t e) c') c.state

variable {M boot w ok t sp}

theorem Reach.wellTimed {g : γ} {c : Conf S W Q R L T} (hb : boot.WellTimed M)
    (hr : Reach M boot w ok g c) : c.WellTimed M := by
  induction hr with
  | boot => exact hb
  | step _ _ hs ih => exact step_wellTimed ih hs

theorem Meets.eval (hm : Meets M boot w ok t sp) {g : γ} {c c' : Conf S W Q R L T}
    (ht : Taken M boot w ok g c (.eval t) c') (hh : sp.Holds (c.thread t) g c.state) :
    (∃ o, c.loc t = .ready o ∧ sp.pre o g c.state ∧
      sp.guar g o c.state (c'.loc t) c'.state) ∧
      sp.Holds (c'.thread t) (w.next g c (.eval t) c') c'.state := by
  have hleave := hm.leave g c
  have hstep := ht.step
  obtain ⟨o,p,s,stop,hth,hseg,rfl⟩ := step_eval ht.step
  have hloc : c.loc t = .ready o := by simp [Conf.loc,hth,Thread.loc]
  rw [hth] at hh
  have hpre := hm.own g c o ht.reach hloc ht.allowed hh.1
  have hsafe := hh.2 g c.state (hm.refl _ _) hpre
  have hstop := sp.segment_safe hm.loops (x := ⟨g,o,c.state,c.state⟩) hsafe hseg
  rw [hleave o _ hloc hstep]
  simp only [Conf.loc,Function.update_self]
  refine (fun h => ⟨⟨o,hloc,hpre,h.1⟩,h.2⟩ :
    sp.guar g o c.state (M.park c.now stop).loc s ∧ _ → _) ?_
  cases stop with
  | ret l => exact hstop
  | wait w' next => exact ⟨hstop.1.1,hstop.1.2,fun g' s' hy hp => hstop.2 g' s' ⟨hy,hp⟩⟩
  | call q next => exact ⟨hstop.1.1,hstop.1.2,fun r g' s' hy hp => hstop.2 r g' s' ⟨hy,hp⟩⟩

section Lift
variable {g g' : γ} {s s' : S}

theorem Spec.Holds.stay {th : Thread S W Q R L} (hm : Meets M boot w ok t sp)
    (hh : sp.Holds th g s) (hv : sp.Moves th.loc th.loc g s g' s') :
    sp.Holds th g' s' := by
  obtain ⟨hheld,hrely⟩ := hv hh.held
  have hlift : ∀ g'' s'', sp.rely g' s' g'' s'' → sp.rely g s g'' s'' :=
    fun _ _ => hm.trans _ _ _ _ _ _ hrely
  cases th with
  | idle => exact hheld
  | ready o p => exact ⟨hheld,fun _ _ hy => hh.2 _ _ (hlift _ _ hy)⟩
  | waiting w' due next => exact ⟨hheld,fun _ _ hy => hh.2 _ _ (hlift _ _ hy)⟩
  | calling q next => exact ⟨hheld,fun r _ _ hy => hh.2 r _ _ (hlift _ _ hy)⟩

theorem Spec.Holds.wake {w' : W} {due : Option ℕ} {next : Proc S W Q R L}
    (hm : Meets M boot w ok t sp) (hh : sp.Holds (.waiting w' due next) g s)
    (hv : sp.Moves (.waiting w') (.ready (.woke w')) g s g' s') :
    sp.Holds (.ready (.woke w') next) g' s' := by
  obtain ⟨hheld,hrely⟩ := hv hh.held
  exact ⟨hheld,fun _ _ hy => hh.2 _ _ (hm.trans _ _ _ _ _ _ hrely hy)⟩

end Lift

section Other
variable {g : γ} {c c' : Conf S W Q R L T}

theorem Meets.other_enter (hm : Meets M boot w ok t sp) {u : T} {e : E}
    (ht : Taken M boot w ok g c (.enter u e) c') (hh : sp.Holds (c.thread t) g c.state) :
    sp.Holds (c'.thread t) (w.next g c (.enter u e) c') c'.state := by
  obtain ⟨p,hu,hp,hc⟩ := step_enter ht.step
  have hst : c'.state = c.state := by rw [hc]
  by_cases htu : t = u
  · subst htu
    obtain ⟨hheld,-⟩ := hm.enter g c e c' ht (by simp [Conf.loc,hu,Thread.loc])
      (by simpa [hu,Thread.loc] using hh.held)
    rw [hst]
    simp only [hc,Function.update_self] at hheld ⊢
    exact ⟨hheld,fun _ _ _ hpre => hm.begins e p hp _ _ hpre⟩
  · have hv := hm.still g c _ c' ht rfl
    rw [hst,show c'.thread t = c.thread t by rw [hc]; exact Function.update_of_ne htu _ _]
    exact hh.stay hm hv

theorem Meets.other_reply (hm : Meets M boot w ok t sp) {u : T} {r : R}
    (ht : Taken M boot w ok g c (.reply u r) c') (hh : sp.Holds (c.thread t) g c.state) :
    sp.Holds (c'.thread t) (w.next g c (.reply u r) c') c'.state := by
  obtain ⟨q,next,hu,hc⟩ := step_reply ht.step
  have hst : c'.state = c.state := by rw [hc]
  by_cases htu : t = u
  · subst htu
    rw [hu] at hh
    obtain ⟨hheld,hrely⟩ := hm.answer g c q r c' ht (by simp [Conf.loc,hu,Thread.loc]) hh.1
    rw [hst]
    simp only [hc,Function.update_self] at hheld hrely ⊢
    exact ⟨hheld,fun _ _ hy => hh.2 r _ _ (hm.trans _ _ _ _ _ _ hrely hy)⟩
  · have hv := hm.still g c _ c' ht rfl
    rw [hst,show c'.thread t = c.thread t by rw [hc]; exact Function.update_of_ne htu _ _]
    exact hh.stay hm hv

theorem Meets.other_delta (hm : Meets M boot w ok t sp) (ht : Taken M boot w ok g c .delta c')
    (hh : sp.Holds (c.thread t) g c.state) :
    sp.Holds (c'.thread t) (w.next g c .delta c') c'.state := by
  obtain ⟨hready,hc⟩ := step_delta ht.step
  have hstay := hm.delta g c c' ht
  have hwake := hm.wake g c c'
  rw [show c'.thread t = (c.thread t).notify (M.wakes · c.state) by rw [hc],
    show c'.state = M.update c.state by rw [hc]]
  cases hth : c.thread t with
  | waiting w' due next =>
    rw [hth] at hh
    simp only [Conf.loc,hth,Thread.loc,Thread.notify] at hstay hwake ⊢
    split
    · rename_i hw
      exact hh.wake hm (hwake w' ht rfl hw)
    · rename_i hw
      refine hh.stay hm (hstay (by simp) fun w'' h => ?_)
      cases h
      simpa using hw
  | ready o p => exact absurd (hready t) (by simp [hth,Thread.isReady])
  | idle =>
    rw [hth] at hh
    simp only [Conf.loc,hth,Thread.loc,Thread.notify] at hstay ⊢
    exact hh.stay hm (hstay (by simp) (by simp))
  | calling q next =>
    rw [hth] at hh
    simp only [Conf.loc,hth,Thread.loc,Thread.notify] at hstay ⊢
    exact hh.stay hm (hstay (by simp) (by simp))

theorem Meets.other_advance (hm : Meets M boot w ok t sp) {d : ℕ}
    (ht : Taken M boot w ok g c (.advance d) c') (hh : sp.Holds (c.thread t) g c.state) :
    sp.Holds (c'.thread t) (w.next g c (.advance d) c') c'.state := by
  obtain ⟨-,hq,-,hc⟩ := step_advance ht.step
  have hstill := hm.still g c _ c' ht rfl
  have hexp := hm.expire g c d c'
  have htimed := ht.reach.wellTimed hm.timed t
  rw [show c'.thread t = (c.thread t).expire (c.now + d) by rw [hc],
    show c'.state = c.state by rw [hc]]
  cases hth : c.thread t with
  | waiting w' due next =>
    rw [hth] at hh
    simp only [Conf.loc,hth,Thread.loc,Thread.expire] at hstill hexp ⊢
    split
    · rename_i hdue
      refine hh.wake hm (hexp w' ht rfl (fun hd => ?_) hq)
      simp [htimed w' due next hth hd] at hdue
    · exact hh.stay hm hstill
  | _ =>
    rw [hth] at hh
    simp only [Conf.loc,hth,Thread.loc,Thread.expire] at hstill ⊢
    exact hh.stay hm hstill

theorem Meets.other (hm : Meets M boot w ok t sp) {l : Label R A E T}
    (ht : Taken M boot w ok g c l c') (hl : l ≠ .eval t) (hh : sp.Holds (c.thread t) g c.state) :
    sp.Holds (c'.thread t) (w.next g c l c') c'.state := by
  cases l with
  | eval u =>
    have hne : t ≠ u := by rintro rfl; exact hl rfl
    have hv := hm.peer g c u c' ht hne.symm
    obtain ⟨o,p,s,stop,-,-,rfl⟩ := step_eval ht.step
    simp only [Function.update_of_ne hne]
    exact hh.stay hm hv
  | act a =>
    obtain ⟨s,ha,rfl⟩ := step_act ht.step
    exact hh.stay hm (hm.act g c a _ ht ha)
  | enter u e => exact hm.other_enter ht hh
  | reply u r => exact hm.other_reply ht hh
  | delta => exact hm.other_delta ht hh
  | advance d => exact hm.other_advance ht hh

end Other

/-- In every configuration reached the thread stands where its specification holds. -/
theorem Meets.holds (hm : Meets M boot w ok t sp) {g : γ} {c : Conf S W Q R L T}
    (hr : Reach M boot w ok g c) : sp.Holds (c.thread t) g c.state := by
  induction hr with
  | boot => exact hm.start
  | @step g c l c' hr hk hs ih =>
    by_cases hl : l = .eval t
    · subst hl
      exact (hm.eval ⟨hr,hk,hs⟩ ih).2
    · exact hm.other ⟨hr,hk,hs⟩ hl ih

theorem Meets.held (hm : Meets M boot w ok t sp) {g : γ} {c : Conf S W Q R L T}
    (hr : Reach M boot w ok g c) : sp.held (c.loc t) g c.state := (hm.holds hr).held

theorem Meets.guar (hm : Meets M boot w ok t sp) {g : γ} {c c' : Conf S W Q R L T}
    (ht : Taken M boot w ok g c (.eval t) c') :
    ∃ o, c.loc t = .ready o ∧ sp.pre o g c.state ∧
      sp.guar g o c.state (c'.loc t) c'.state :=
  (hm.eval ht (hm.holds ht.reach)).1

def Spec.plain (pre : Origin W Q R → γ → S → Prop)
    (guar : γ → Origin W Q R → S → Loc W Q R → S → Prop)
    (leave : γ → Origin W Q R → S → Loc W Q R → S → γ)
    (head : L → Trail γ S W Q R → Prop) : Spec γ S W Q R L :=
  ⟨fun _ _ _ => True,pre,fun _ _ _ _ => True,guar,leave,head⟩

theorem Meets.plain {pre : Origin W Q R → γ → S → Prop}
    {guar : γ → Origin W Q R → S → Loc W Q R → S → Prop}
    {leave : γ → Origin W Q R → S → Loc W Q R → S → γ} {head : L → Trail γ S W Q R → Prop}
    (loops : (Spec.plain pre guar leave head).Loops M.code)
    (begins : ∀ e p, M.entry t e = some p → ∀ g s, pre .start g s →
      (Spec.plain pre guar leave head).Safe p ⟨g,.start,s,s⟩)
    (timed : boot.WellTimed M)
    (start : (Spec.plain pre guar leave head).Holds (boot.thread t) w.init boot.state)
    (own : ∀ g c o, Reach M boot w ok g c → c.loc t = .ready o → ok g c (.eval t) →
      pre o g c.state)
    (hleave : ∀ g c o c', c.loc t = .ready o → M.step c (.eval t) = some c' →
      w.next g c (.eval t) c' = leave g o c.state (c'.loc t) c'.state) :
    Meets M boot w ok t (Spec.plain pre guar leave head) where
  loops := loops
  begins := begins
  timed := timed
  start := start
  refl _ _ := trivial
  trans _ _ _ _ _ _ _ _ := trivial
  own g c o hr hloc hok _ := own g c o hr hloc hok
  leave := hleave
  peer _ _ _ _ _ _ _ := ⟨trivial,trivial⟩
  act _ _ _ _ _ _ _ := ⟨trivial,trivial⟩
  still _ _ _ _ _ _ _ := ⟨trivial,trivial⟩
  delta _ _ _ _ _ _ _ := ⟨trivial,trivial⟩
  wake _ _ _ _ _ _ _ _ := ⟨trivial,trivial⟩
  expire _ _ _ _ _ _ _ _ _ _ := ⟨trivial,trivial⟩
  answer _ _ _ _ _ _ _ _ := ⟨trivial,trivial⟩
  enter _ _ _ _ _ _ _ := ⟨trivial,trivial⟩

end System
end Coop
