import Usb3Drd.Coop.Kernel

/-! Timeouts. A thread that begins to wait sets its timeout by the clock, keeps it while it
waits, and runs again when an event fires or the clock reaches the timeout. -/
namespace Coop

variable {S W Q R L A E T : Type} [DecidableEq T] [Fintype T] {M : Kernel S W Q R L A E T}
  {c c' : Conf S W Q R L T} {l : Label R A E T} {t : T}

theorem eval_waits {w : W} (hs : M.step c (.eval t) = some c') (hw : c'.loc t = .waiting w) :
    c'.now = c.now ∧ ∃ next, c'.thread t = .waiting w ((M.delay w).map (c.now + ·)) next := by
  obtain ⟨o,p,s,stop,-,-,rfl⟩ := step_eval hs
  simp only [Conf.loc,Function.update_self] at hw
  cases stop with
  | ret l => cases hw
  | wait w' next =>
    cases hw
    exact ⟨rfl,next,Function.update_self _ _ _⟩
  | call q next => cases hw

theorem eval_not_ready (hs : M.step c (.eval t) = some c') (o : Origin W Q R) :
    c'.loc t ≠ .ready o := by
  obtain ⟨_,_,_,stop,-,-,rfl⟩ := step_eval hs
  simp only [Conf.loc,Function.update_self]
  cases stop <;> simp [Kernel.park,Thread.loc]

theorem step_ready {o : Origin W Q R} {p : Proc S W Q R L} (hs : M.step c l = some c')
    (hr : c.thread t = .ready o p) (hl : l ≠ .eval t) :
    c'.thread t = c.thread t ∧ l ≠ .delta ∧ ∀ d, l ≠ .advance d := by
  have hready : (c.thread t).isReady = true := by rw [hr]; rfl
  cases l with
  | eval u =>
    have hne : t ≠ u := by
      rintro rfl
      exact hl rfl
    obtain ⟨-,-,-,-,-,-,rfl⟩ := step_eval hs
    exact ⟨Function.update_of_ne hne _ _,by simp,by simp⟩
  | act a =>
    obtain ⟨s,-,rfl⟩ := step_act hs
    exact ⟨rfl,by simp,by simp⟩
  | enter u e =>
    obtain ⟨q,hu,-,rfl⟩ := step_enter hs
    have hne : t ≠ u := by
      rintro rfl
      rw [hr] at hu
      cases hu
    exact ⟨Function.update_of_ne hne _ _,by simp,by simp⟩
  | reply u r =>
    obtain ⟨q,next,hu,rfl⟩ := step_reply hs
    have hne : t ≠ u := by
      rintro rfl
      rw [hr] at hu
      cases hu
    exact ⟨Function.update_of_ne hne _ _,by simp,by simp⟩
  | delta =>
    obtain ⟨hidle,-⟩ := step_delta hs
    rw [hidle t] at hready
    cases hready
  | advance d =>
    obtain ⟨-,-,hidle,-⟩ := step_advance hs
    rw [(hidle t).1] at hready
    cases hready

/-- A waiting thread keeps waiting, is woken by an update phase, or is timed out. -/
theorem step_waiting {w : W} {due : Option ℕ} {next : Proc S W Q R L}
    (hs : M.step c l = some c') (hw : c.thread t = .waiting w due next) :
    c'.thread t = c.thread t ∨ (c'.thread t = .ready (.woke w) next ∧
      ((l = .delta ∧ M.wakes w c.state = true) ∨ (∃ d, l = .advance d) ∧ due = some c'.now)) := by
  cases l with
  | eval u =>
    obtain ⟨_,_,_,_,hu,-,rfl⟩ := step_eval hs
    have hne : t ≠ u := by
      rintro rfl
      rw [hw] at hu
      cases hu
    exact .inl (Function.update_of_ne hne _ _)
  | act a =>
    obtain ⟨s,-,rfl⟩ := step_act hs
    exact .inl rfl
  | enter u e =>
    obtain ⟨q,hu,-,rfl⟩ := step_enter hs
    have hne : t ≠ u := by
      rintro rfl
      rw [hw] at hu
      cases hu
    exact .inl (Function.update_of_ne hne _ _)
  | reply u r =>
    obtain ⟨q,next',hu,rfl⟩ := step_reply hs
    have hne : t ≠ u := by
      rintro rfl
      rw [hw] at hu
      cases hu
    exact .inl (Function.update_of_ne hne _ _)
  | delta =>
    obtain ⟨-,rfl⟩ := step_delta hs
    by_cases hwake : M.wakes w c.state = true
    · exact .inr ⟨by simp only [hw,Thread.notify,if_pos hwake],.inl ⟨rfl,hwake⟩⟩
    · exact .inl (by simp only [hw,Thread.notify,if_neg hwake])
  | advance d =>
    obtain ⟨-,-,-,rfl⟩ := step_advance hs
    by_cases hdue : due = some (c.now + d)
    · exact .inr ⟨by simp only [hw,Thread.expire,if_pos hdue],.inr ⟨⟨d,rfl⟩,hdue⟩⟩
    · exact .inl (by simp only [hw,Thread.expire,if_neg hdue])

theorem delta_waiting {w : W} {due : Option ℕ} {next : Proc S W Q R L}
    (hs : M.step c .delta = some c') (hw : c.thread t = .waiting w due next) :
    c'.thread t = c.thread t ∨
      (c'.thread t = .ready (.woke w) next ∧ M.wakes w c.state = true) := by
  rcases step_waiting hs hw with hstay | ⟨hout,⟨-,hwake⟩ | ⟨⟨d,hd⟩,-⟩⟩
  · exact .inl hstay
  · exact .inr ⟨hout,hwake⟩
  · cases hd

theorem advance_waiting {d : ℕ} {w : W} {due : Option ℕ} {next : Proc S W Q R L}
    (hs : M.step c (.advance d) = some c') (hw : c.thread t = .waiting w due next) :
    c'.thread t = c.thread t ∨ (c'.thread t = .ready (.woke w) next ∧ due = some c'.now) := by
  rcases step_waiting hs hw with hstay | ⟨hout,⟨hd,-⟩ | ⟨-,hdue⟩⟩
  · exact .inl hstay
  · cases hd
  · exact .inr ⟨hout,hdue⟩

/-- A thread that neither is idle nor calls is moved by its own evaluation, an update phase
or the passing of time only. -/
theorem step_unmoved (hs : M.step c l = some c') (hl : l ≠ .eval t) (hdelta : l ≠ .delta)
    (hadvance : ∀ d, l ≠ .advance d) (hidle : c.thread t ≠ .idle)
    (hcall : ∀ q next, c.thread t ≠ .calling q next) : c'.thread t = c.thread t := by
  cases hth : c.thread t with
  | idle => exact absurd hth hidle
  | ready o p => exact (step_ready hs hth hl).1.trans hth
  | waiting w due next =>
    rcases step_waiting hs hth with hstay | ⟨-,⟨hd,-⟩ | ⟨⟨d,hd⟩,-⟩⟩
    · exact hstay.trans hth
    · exact absurd hd hdelta
    · exact absurd hd (hadvance d)
  | calling q next => exact absurd hth (hcall q next)

/-- What a step does to a part of the state that no evaluation and no action changes: only an
update phase may change it, and time passes in quiet states. -/
inductive Elsewhere {V : Type} (M : Kernel S W Q R L A E T) (view : S → V)
    (c c' : Conf S W Q R L T) : Label R A E T → Prop
  | stays {k : Label R A E T} (hdelta : k ≠ .delta) (hadvance : ∀ d, k ≠ .advance d)
      (hnow : c'.now = c.now) (hview : view c'.state = view c.state) : Elsewhere M view c c' k
  | updates (hnow : c'.now = c.now) (hview : view c'.state = view (M.update c.state)) :
      Elsewhere M view c c' .delta
  | passes {d : ℕ} (hnow : c.now ≤ c'.now) (hview : view c'.state = view c.state)
      (hquiet : M.quiet c.state = true) : Elsewhere M view c c' (.advance d)

theorem step_elsewhere {V : Type} {view : S → V} (hs : M.step c l = some c')
    (heval : ∀ u, l = .eval u → view c'.state = view c.state)
    (hact : ∀ a s, l = .act a → M.act a c.state = some s → view s = view c.state) :
    Elsewhere M view c c' l := by
  cases l with
  | eval u =>
    have hview := heval u rfl
    obtain ⟨_,_,_,_,-,-,rfl⟩ := step_eval hs
    exact .stays (by simp) (by simp) rfl hview
  | act a =>
    obtain ⟨s,ha,rfl⟩ := step_act hs
    exact .stays (by simp) (by simp) rfl (hact a s rfl ha)
  | enter u e =>
    obtain ⟨p,-,-,rfl⟩ := step_enter hs
    exact .stays (by simp) (by simp) rfl rfl
  | reply u r =>
    obtain ⟨q,next,-,rfl⟩ := step_reply hs
    exact .stays (by simp) (by simp) rfl rfl
  | delta =>
    obtain ⟨-,rfl⟩ := step_delta hs
    exact .updates rfl rfl
  | advance d =>
    obtain ⟨-,hquiet,-,rfl⟩ := step_advance hs
    exact .passes (Nat.le_add_right _ _) rfl hquiet

inductive Thread.Passes (M : Kernel S W Q R L A E T) (t : T) (l : Label R A E T) :
    Thread S W Q R L → Thread S W Q R L → Prop
  | stay (th : Thread S W Q R L) : Passes M t l th th
  | wake (w : W) (due : Option ℕ) (next : Proc S W Q R L) :
      Passes M t l (.waiting w due next) (.ready (.woke w) next)
  | enter (e : E) (p : Proc S W Q R L) (hl : l = .enter t e) (hp : M.entry t e = some p) :
      Passes M t l .idle (.ready .start p)
  | reply (q : Q) (next : R → Proc S W Q R L) (r : R) (hl : l = .reply t r) :
      Passes M t l (.calling q next) (.ready (.returned q r) (next r))

theorem step_passes (hs : M.step c l = some c') (hl : l ≠ .eval t) :
    Thread.Passes M t l (c.thread t) (c'.thread t) := by
  have hupdate : ∀ {now s u th}, (t = u → Thread.Passes M t l (c.thread t) th) →
      Thread.Passes M t l (c.thread t)
        ((⟨now,s,Function.update c.thread u th⟩ : Conf S W Q R L T).thread t) := by
    intro now s u th hsame
    by_cases htu : t = u
    · subst htu
      simp only [Function.update_self]
      exact hsame rfl
    · simp only [Function.update_of_ne htu]
      exact .stay _
  cases l with
  | eval u =>
    obtain ⟨_,_,_,_,-,-,rfl⟩ := step_eval hs
    exact hupdate fun htu => absurd (congrArg Label.eval htu.symm) hl
  | act a =>
    obtain ⟨_,-,rfl⟩ := step_act hs
    exact .stay _
  | enter u e =>
    obtain ⟨p,hu,hp,rfl⟩ := step_enter hs
    refine hupdate fun htu => ?_
    subst htu
    rw [hu]
    exact .enter e p rfl hp
  | reply u r =>
    obtain ⟨q,next,hu,rfl⟩ := step_reply hs
    refine hupdate fun htu => ?_
    subst htu
    rw [hu]
    exact .reply q next r rfl
  | delta =>
    obtain ⟨-,rfl⟩ := step_delta hs
    show Thread.Passes M t _ (c.thread t) ((c.thread t).notify _)
    cases c.thread t with
    | waiting w due next =>
      rw [Thread.notify]
      split
      · exact .wake w due next
      · exact .stay _
    | _ => exact .stay _
  | advance d =>
    obtain ⟨-,-,-,rfl⟩ := step_advance hs
    show Thread.Passes M t _ (c.thread t) ((c.thread t).expire _)
    cases c.thread t with
    | waiting w due next =>
      rw [Thread.expire]
      split
      · exact .wake w due next
      · exact .stay _
    | _ => exact .stay _

theorem step_now (hs : M.step c l = some c') :
    c.now ≤ c'.now ∧ ((∀ d, l ≠ .advance d) → c'.now = c.now) := by
  cases l with
  | eval u => obtain ⟨_,_,_,_,-,-,rfl⟩ := step_eval hs; exact ⟨le_refl _,fun _ => rfl⟩
  | act a => obtain ⟨s,-,rfl⟩ := step_act hs; exact ⟨le_refl _,fun _ => rfl⟩
  | enter u e => obtain ⟨p,-,-,rfl⟩ := step_enter hs; exact ⟨le_refl _,fun _ => rfl⟩
  | reply u r => obtain ⟨q,next,-,rfl⟩ := step_reply hs; exact ⟨le_refl _,fun _ => rfl⟩
  | delta => obtain ⟨-,rfl⟩ := step_delta hs; exact ⟨le_refl _,fun _ => rfl⟩
  | advance d =>
    obtain ⟨-,-,-,rfl⟩ := step_advance hs
    exact ⟨Nat.le_add_right _ _,fun h => absurd rfl (h d)⟩

/-- A thread that is on time waits for an instant that is not past, or stands at it. -/
def Thread.OnTime (now slot : ℕ) : Thread S W Q R L → Prop
  | .waiting _ due _ => due = some slot ∧ now ≤ slot
  | _ => now = slot

theorem Thread.OnTime.le {now slot : ℕ} {th : Thread S W Q R L} (h : th.OnTime now slot) :
    now ≤ slot := by
  cases th with
  | waiting w due next => exact h.2
  | _ => exact (show now = slot from h).le

/-- A thread that is on time stays so while others run, as long as no time passes during its
calls and no event ends its wait. -/
theorem onTime_step {slot : ℕ} (hs : M.step c l = some c') (hl : l ≠ .eval t)
    (htime : (c.thread t).OnTime c.now slot) (hidle : c.thread t ≠ .idle)
    (hcall : ∀ q, c.loc t = .calling q → ∀ d, l ≠ .advance d)
    (hwait : ∀ w, c.loc t = .waiting w → M.wakes w c.state = false) :
    (c'.thread t).OnTime c'.now slot := by
  cases hth : c.thread t with
  | idle => exact absurd hth hidle
  | ready o p =>
    obtain ⟨hstay,-,hadvance⟩ := step_ready hs hth hl
    rw [hstay,(step_now hs).2 hadvance]
    exact htime
  | waiting w due next =>
    have hloc : c.loc t = .waiting w := by rw [Conf.loc,hth]; rfl
    rw [hth] at htime
    obtain ⟨rfl,hnow⟩ := htime
    rcases step_waiting hs hth with hstay | ⟨hout,⟨-,hwake⟩ | ⟨-,hdue⟩⟩
    · rw [hstay,hth]
      refine ⟨rfl,?_⟩
      by_cases hadvance : ∃ d, l = .advance d
      · obtain ⟨d,rfl⟩ := hadvance
        obtain ⟨-,-,hpending,rfl⟩ := step_advance hs
        have hlate := (hpending t).2
        rw [hth] at hlate
        exact of_decide_eq_true hlate
      · rw [(step_now hs).2 fun d hd => hadvance ⟨d,hd⟩]
        exact hnow
    · rw [hwait w hloc] at hwake
      cases hwake
    · rw [hout]
      exact (Option.some.inj hdue).symm
  | calling q next =>
    have hloc : c.loc t = .calling q := by rw [Conf.loc,hth]; rfl
    have hpasses := step_passes hs hl
    rw [hth] at htime hpasses
    rw [(step_now hs).2 (hcall q hloc)]
    generalize c'.thread t = th' at hpasses ⊢
    cases hpasses with
    | stay => exact htime
    | reply => exact htime

end Coop
