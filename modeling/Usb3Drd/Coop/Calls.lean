import Usb3Drd.Coop.Spec

/-! Threads that serve inbound calls. What the evaluations of such a thread guarantee
depends on the argument that its open call came with, which a history keeps. -/
namespace Coop

variable {S W Q R L A E T γ : Type}

/-- A specification of what each evaluation does, whatever happens in between. -/
def Spec.evals (guar : Origin W Q R → S → Loc W Q R → S → Prop)
    (head : L → Trail Unit S W Q R → Prop) : Spec Unit S W Q R L :=
  .plain (fun _ _ _ => True) (fun _ => guar) (fun _ _ _ _ _ => ()) head

def Spec.Serves (sp : Spec Unit S W Q R L) : Thread S W Q R L → Prop
  | .idle => True
  | .ready o p => ∀ s, sp.Safe p ⟨(),o,s,s⟩
  | .waiting w _ next => ∀ s, sp.Safe next ⟨(),.woke w,s,s⟩
  | .calling q next => ∀ r s, sp.Safe (next r) ⟨(),.returned q r,s,s⟩

section Serves
variable {sp : Spec Unit S W Q R L} {th : Thread S W Q R L}

theorem Spec.Serves.notify (h : sp.Serves th) (fires : W → Bool) : sp.Serves (th.notify fires) := by
  cases th with
  | waiting w due next =>
    rw [Thread.notify]
    split
    · exact h
    · exact h
  | _ => exact h

theorem Spec.Serves.expire (h : sp.Serves th) (now : ℕ) : sp.Serves (th.expire now) := by
  cases th with
  | waiting w due next =>
    rw [Thread.expire]
    split
    · exact h
    · exact h
  | _ => exact h

theorem Spec.segment_serves {guar : Origin W Q R → S → Loc W Q R → S → Prop}
    {head : L → Trail Unit S W Q R → Prop} {code : L → Option (Proc S W Q R L)}
    (hcode : (Spec.evals guar head).Loops code) {n : ℕ} {o : Origin W Q R} {p : Proc S W Q R L}
    {s s' : S} {stop : Proc.Stop S W Q R L} (hp : (Spec.evals guar head).Safe p ⟨(),o,s,s⟩)
    (hseg : Kernel.segment code n p s = some (s',stop)) (M : Kernel S W Q R L A E T) (now : ℕ) :
    guar o s (M.park now stop).loc s' ∧ (Spec.evals guar head).Serves (M.park now stop) := by
  have hends := Spec.segment_safe _ hcode (x := ⟨(),o,s,s⟩) hp hseg
  cases stop with
  | ret l => exact ⟨hends.1,trivial⟩
  | wait w next => exact ⟨hends.1.1,fun s => hends.2 () s ⟨trivial,trivial⟩⟩
  | call q next => exact ⟨hends.1.1,fun r s => hends.2 r () s ⟨trivial,trivial⟩⟩

end Serves

def Loc.outstanding : Loc W Q R → Option Q
  | .calling q => some q
  | .ready (.returned q _) => some q
  | _ => none

theorem step_outstanding [DecidableEq T] [Fintype T] {M : Kernel S W Q R L A E T}
    {c c' : Conf S W Q R L T} {l : Label R A E T} {t : T} (hs : M.step c l = some c')
    (hl : l ≠ .eval t) : (c'.loc t).outstanding = (c.loc t).outstanding := by
  have hupdate : ∀ {u th}, (t = u → th.loc.outstanding = (c.thread t).loc.outstanding) →
      c'.thread = Function.update c.thread u th →
      (c'.thread t).loc.outstanding = (c.thread t).loc.outstanding := by
    intro u th hsame hth
    by_cases htu : t = u
    · subst htu
      rw [hth,Function.update_self,hsame rfl]
    · rw [hth,Function.update_of_ne htu]
  cases l with
  | eval u =>
    obtain ⟨_,_,_,_,-,-,rfl⟩ := step_eval hs
    exact hupdate (fun htu => absurd (congrArg Label.eval htu.symm) hl) rfl
  | act a =>
    obtain ⟨_,-,rfl⟩ := step_act hs
    rfl
  | enter u e =>
    obtain ⟨p,hu,-,rfl⟩ := step_enter hs
    refine hupdate (fun htu => ?_) rfl
    rw [htu,hu]
    rfl
  | reply u r =>
    obtain ⟨q,next,hu,rfl⟩ := step_reply hs
    refine hupdate (fun htu => ?_) rfl
    rw [htu,hu]
    rfl
  | delta =>
    obtain ⟨-,rfl⟩ := step_delta hs
    simp only [Conf.loc]
    cases c.thread t with
    | waiting w due next =>
      rw [Thread.notify]
      split <;> rfl
    | _ => rfl
  | advance d =>
    obtain ⟨-,-,-,rfl⟩ := step_advance hs
    simp only [Conf.loc]
    cases c.thread t with
    | waiting w due next =>
      rw [Thread.expire]
      split <;> rfl
    | _ => rfl

section Arguments
variable [DecidableEq T] [Fintype T]

/-- The history keeps the argument of the last call to each thread. -/
structure Records (w : Watch γ S W Q R L A E T) (arg : γ → T → Option E) : Prop where
  enter : ∀ g c t e c', arg (w.next g c (.enter t e) c') t = some e
  keep : ∀ g c l c' t, (∀ e, l ≠ .enter t e) → arg (w.next g c l c') t = arg g t

omit [Fintype T] in
theorem Records.of_update {w : Watch γ S W Q R L A E T} {arg : γ → T → Option E}
    (henter : ∀ g c t e c', arg (w.next g c (.enter t e) c') = Function.update (arg g) t (some e))
    (hkeep : ∀ g c l c', (∀ t e, l ≠ .enter t e) → arg (w.next g c l c') = arg g) :
    Records w arg where
  enter g c t e c' := by rw [henter,Function.update_self]
  keep g c l c' t hl := by
    cases l with
    | enter u e =>
      have hne : t ≠ u := by
        rintro rfl
        exact hl e rfl
      rw [henter,Function.update_of_ne hne]
    | _ => rw [hkeep]; simp

/-- A thread that runs only calls, each of which meets the specification of its argument. -/
structure Server (M : Kernel S W Q R L A E T) (boot : Conf S W Q R L T)
    (w : Watch γ S W Q R L A E T) (arg : γ → T → Option E) (t : T)
    (guar : E → Origin W Q R → S → Loc W Q R → S → Prop)
    (head : E → L → Trail Unit S W Q R → Prop) : Prop where
  records : Records w arg
  idle : boot.thread t = .idle
  loops : ∀ e, (Spec.evals (guar e) (head e)).Loops M.code
  begins : ∀ e p, M.entry t e = some p → ∀ s, (Spec.evals (guar e) (head e)).Safe p ⟨(),.start,s,s⟩

variable {M : Kernel S W Q R L A E T} {boot : Conf S W Q R L T} {w : Watch γ S W Q R L A E T}
  {ok : γ → Conf S W Q R L T → Label R A E T → Prop} {arg : γ → T → Option E} {t : T}
  {guar : E → Origin W Q R → S → Loc W Q R → S → Prop} {head : E → L → Trail Unit S W Q R → Prop}
  {g : γ} {c c' : Conf S W Q R L T} {l : Label R A E T}

def Serving (guar : E → Origin W Q R → S → Loc W Q R → S → Prop)
    (head : E → L → Trail Unit S W Q R → Prop) (arg : Option E) (th : Thread S W Q R L) : Prop :=
  th = .idle ∨ ∃ e, arg = some e ∧ (Spec.evals (guar e) (head e)).Serves th

theorem Serving.map {a : Option E} {th th' : Thread S W Q R L} (h : Serving guar head a th)
    (hidle : th = .idle → th' = .idle)
    (hserves : ∀ e, (Spec.evals (guar e) (head e)).Serves th →
      (Spec.evals (guar e) (head e)).Serves th') : Serving guar head a th' := by
  rcases h with h | ⟨e,he,h⟩
  · exact .inl (hidle h)
  · exact .inr ⟨e,he,hserves e h⟩

theorem Server.step (hs : Server M boot w arg t guar head)
    (h : Serving guar head (arg g t) (c.thread t)) (hstep : M.step c l = some c') :
    Serving guar head (arg (w.next g c l c') t) (c'.thread t) := by
  have hsame : (∀ e, l ≠ .enter t e) → c'.thread t = c.thread t →
      Serving guar head (arg (w.next g c l c') t) (c'.thread t) := by
    intro hl hthread
    rw [hs.records.keep g c l c' t hl,hthread]
    exact h
  cases l with
  | eval u =>
    obtain ⟨o,p,s,stop,hu,hseg,rfl⟩ := step_eval hstep
    by_cases htu : t = u
    · subst htu
      rw [hs.records.keep _ _ _ _ _ fun _ => by simp]
      rw [hu] at h
      rcases h with h | ⟨e,he,h⟩
      · cases h
      · refine .inr ⟨e,he,?_⟩
        simp only [Function.update_self]
        exact (Spec.segment_serves (hs.loops e) (h c.state) hseg M c.now).2
    · exact hsame (fun _ => by simp) (Function.update_of_ne htu _ _)
  | act a =>
    obtain ⟨s,-,rfl⟩ := step_act hstep
    exact hsame (fun _ => by simp) rfl
  | enter u e =>
    obtain ⟨p,-,hp,rfl⟩ := step_enter hstep
    by_cases htu : t = u
    · subst htu
      rw [hs.records.enter]
      refine .inr ⟨e,rfl,?_⟩
      simp only [Function.update_self]
      exact hs.begins e p hp
    · refine hsame (fun e' he => ?_) (Function.update_of_ne htu _ _)
      cases he
      exact htu rfl
  | reply u r =>
    obtain ⟨q,next,hu,rfl⟩ := step_reply hstep
    by_cases htu : t = u
    · subst htu
      rw [hs.records.keep _ _ _ _ _ fun _ => by simp]
      rw [hu] at h
      rcases h with h | ⟨e,he,h⟩
      · cases h
      · refine .inr ⟨e,he,?_⟩
        simp only [Function.update_self]
        exact h r
    · exact hsame (fun _ => by simp) (Function.update_of_ne htu _ _)
  | delta =>
    obtain ⟨-,rfl⟩ := step_delta hstep
    rw [hs.records.keep _ _ _ _ _ fun _ => by simp]
    refine h.map (fun hth => ?_) fun e he => he.notify _
    simp only [hth,Thread.notify]
  | advance d =>
    obtain ⟨-,-,-,rfl⟩ := step_advance hstep
    rw [hs.records.keep _ _ _ _ _ fun _ => by simp]
    refine h.map (fun hth => ?_) fun e he => he.expire _
    simp only [hth,Thread.expire]

theorem Server.serving (hs : Server M boot w arg t guar head) (hr : Reach M boot w ok g c) :
    Serving guar head (arg g t) (c.thread t) := by
  induction hr with
  | boot => exact .inl hs.idle
  | step _ _ hstep ih => exact hs.step ih hstep

/-- In every run an evaluation of the thread guarantees what its open call asks for. -/
theorem Server.eval (hs : Server M boot w arg t guar head)
    (ht : Taken M boot w ok g c (.eval t) c') :
    ∃ e o, arg g t = some e ∧ c.loc t = .ready o ∧ guar e o c.state (c'.loc t) c'.state := by
  have hserving := hs.serving ht.reach
  obtain ⟨o,p,s,stop,hth,hseg,rfl⟩ := step_eval ht.step
  rw [hth] at hserving
  rcases hserving with h | ⟨e,he,h⟩
  · cases h
  · refine ⟨e,o,he,by simp [Conf.loc,hth,Thread.loc],?_⟩
    simp only [Conf.loc,Function.update_self]
    exact (Spec.segment_serves (hs.loops e) (h c.state) hseg M c.now).1

end Arguments
end Coop
