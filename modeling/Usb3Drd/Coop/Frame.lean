import Usb3Drd.Coop.Timeouts

/-! Frames: what the evaluations of a thread leave alone. The frame of a process is an
observation of the state that no stretch of it between two suspensions changes. -/
namespace Coop

variable {S W Q R L A E T γ α β X : Type}

namespace Proc

/-- Every suspension must find the observation as it was when the stretch began. -/
def keeping (f : S → X) : Setting S W Q R (S × X) where
  state x := x.1
  store s x := (s,x.2)
  onWait _ K x := f x.1 = x.2 ∧ ∀ s, K (s,f s)
  onCall _ K x := f x.1 = x.2 ∧ ∀ r s, K r (s,f s)

theorem keeping_monotone (f : S → X) : Monotone (keeping f : Setting S W Q R (S × X)) :=
  ⟨fun _ _ _ _ h hw => ⟨hw.1,fun s => h _ (hw.2 s)⟩,
    fun _ _ _ _ h hc => ⟨hc.1,fun r s => h r _ (hc.2 r s)⟩⟩

def KeepsTo (f : S → X) (post : α → Prop) (p : Proc S W Q R α) : Prop :=
  ∀ s, p.wp (keeping f) (fun a x => post a ∧ f x.1 = x.2) (s,f s)

abbrev Keeps (f : S → X) (p : Proc S W Q R α) : Prop := KeepsTo f (fun _ => True) p

variable {f : S → X} {post : β → Prop}

theorem KeepsTo.pure {b : β} (h : post b) :
    KeepsTo f post (Pure.pure b : Proc S W Q R β) := fun _ => ⟨h,rfl⟩

theorem KeepsTo.bind {p : Proc S W Q R α} {q : α → Proc S W Q R β} (hp : Keeps f p)
    (hq : ∀ a, KeepsTo f post (q a)) : KeepsTo f post (p >>= q) := by
  intro s
  refine (wp_bind _ _ _ _ _).mpr (wp_mono (keeping_monotone f) p ?_ _ (hp s))
  rintro a ⟨s',v⟩ ⟨-,hv⟩
  obtain rfl : f s' = v := hv
  exact hq a s'

theorem KeepsTo.read (g : S → α) : Keeps f (Proc.read g : Proc S W Q R α) :=
  fun _ => ⟨trivial,rfl⟩

theorem KeepsTo.modify {g : S → S} (h : ∀ s, f (g s) = f s) :
    Keeps f (Proc.modify g : Proc S W Q R Unit) := fun s => ⟨trivial,h s⟩

theorem KeepsTo.sleep (w : W) : Keeps f (Proc.sleep w : Proc S W Q R Unit) :=
  fun _ => ⟨rfl,fun _ => ⟨trivial,rfl⟩⟩

theorem KeepsTo.request (q : Q) : Keeps f (Proc.request q : Proc S W Q R R) :=
  fun _ => ⟨rfl,fun _ _ => ⟨trivial,rfl⟩⟩

theorem KeepsTo.ite {c : Prop} [Decidable c] {p q : Proc S W Q R β} (hp : KeepsTo f post p)
    (hq : KeepsTo f post q) : KeepsTo f post (if c then p else q) := by
  split
  · exact hp
  · exact hq

end Proc

def Thread.Keeps (f : S → X) (own : L → Prop) : Thread S W Q R L → Prop
  | .idle => True
  | .ready _ p => p.KeepsTo f own
  | .waiting _ _ next => next.KeepsTo f own
  | .calling _ next => ∀ r, (next r).KeepsTo f own

namespace Kernel

theorem segment_keeps {code : L → Option (Proc S W Q R L)} {f : S → X} {own : L → Prop}
    (hcode : ∀ l body, own l → code l = some body → body.KeepsTo f own) {n : ℕ}
    {p : Proc S W Q R L} {v : X} {s s' : S} {stop : Proc.Stop S W Q R L}
    (hp : p.wp (Proc.keeping f) (fun l x => own l ∧ f x.1 = x.2) (s,v))
    (hseg : segment code n p s = some (s',stop)) (M : Kernel S W Q R L A E T) (now : ℕ) :
    f s' = v ∧ (M.park now stop).Keeps f own := by
  induction n generalizing p s with
  | zero => simp [segment] at hseg
  | succ n ih =>
    induction p generalizing s with
    | ret l =>
      simp only [segment,Proc.run] at hseg
      cases hc : code l with
      | none =>
        simp only [hc,Option.some.injEq,Prod.mk.injEq] at hseg
        obtain ⟨rfl,rfl⟩ := hseg
        exact ⟨hp.2,trivial⟩
      | some body =>
        simp only [hc] at hseg
        obtain ⟨hl,hv⟩ := hp
        obtain rfl : f s = v := hv
        exact ih (hcode l body hl hc s) hseg
    | get next ihp => exact ihp _ hp hseg
    | set s₁ next ihp => exact ihp (s := s₁) hp hseg
    | wait w next =>
      simp only [segment,Proc.run,Option.some.injEq,Prod.mk.injEq] at hseg
      obtain ⟨rfl,rfl⟩ := hseg
      exact hp
    | call q next =>
      simp only [segment,Proc.run,Option.some.injEq,Prod.mk.injEq] at hseg
      obtain ⟨rfl,rfl⟩ := hseg
      exact hp

end Kernel

section Runs
variable [DecidableEq T] [Fintype T]

/-- Each thread has an observation that its code keeps, whatever the run. -/
structure Footprint (M : Kernel S W Q R L A E T) (boot : Conf S W Q R L T) (f : T → S → X)
    (own : T → L → Prop) : Prop where
  code : ∀ t l body, own t l → M.code l = some body → body.KeepsTo (f t) (own t)
  entry : ∀ t e p, M.entry t e = some p → p.KeepsTo (f t) (own t)
  boot : ∀ t, (boot.thread t).Keeps (f t) (own t)

variable {M : Kernel S W Q R L A E T} {boot : Conf S W Q R L T} {f : T → S → X}
  {own : T → L → Prop} {c c' : Conf S W Q R L T} {l : Label R A E T} {t : T}

theorem Footprint.eval (hf : Footprint M boot f own) (ht : (c.thread t).Keeps (f t) (own t))
    (hs : M.step c (.eval t) = some c') :
    f t c'.state = f t c.state ∧ (c'.thread t).Keeps (f t) (own t) := by
  obtain ⟨o,p,s,stop,hth,hseg,rfl⟩ := step_eval hs
  rw [hth] at ht
  simpa only [Function.update_self] using Kernel.segment_keeps (hf.code t) (ht c.state) hseg M c.now

theorem Footprint.step (hf : Footprint M boot f own)
    (hc : ∀ t, (c.thread t).Keeps (f t) (own t)) (hs : M.step c l = some c') :
    ∀ t, (c'.thread t).Keeps (f t) (own t) := by
  intro t
  have ht := hc t
  by_cases hl : l = .eval t
  · subst hl
    exact (hf.eval ht hs).2
  · have hpasses := step_passes hs hl
    generalize c.thread t = th at hpasses ht
    generalize c'.thread t = th' at hpasses
    cases hpasses with
    | stay => exact ht
    | wake w due next => exact ht
    | enter e p _ hp => exact hf.entry t e p hp
    | reply q next r => exact ht r

theorem Footprint.taken (hf : Footprint M boot f own) {w : Watch γ S W Q R L A E T}
    {ok : γ → Conf S W Q R L T → Label R A E T → Prop} {g : γ}
    (ht : Taken M boot w ok g c (.eval t) c') : f t c'.state = f t c.state := by
  have hall : ∀ {g c}, Reach M boot w ok g c → ∀ t, (c.thread t).Keeps (f t) (own t) := by
    intro g c hr
    induction hr with
    | boot => exact hf.boot
    | step _ _ hs ih => exact hf.step ih hs
  exact (hf.eval (hall ht.reach t) ht.step).1

/-- A step that is no evaluation changes only what its action or the update phase changes. -/
theorem step_keeps {view : S → X} (hs : M.step c l = some c')
    (heval : ∀ u, l ≠ .eval u)
    (hact : ∀ a s, l = .act a → M.act a c.state = some s → view s = view c.state)
    (hupdate : l = .delta → view (M.update c.state) = view c.state) :
    view c'.state = view c.state := by
  cases l with
  | eval u => exact absurd rfl (heval u)
  | act a =>
    obtain ⟨s,ha,rfl⟩ := step_act hs
    exact hact a s rfl ha
  | enter u e =>
    obtain ⟨p,-,-,rfl⟩ := step_enter hs
    rfl
  | reply u r =>
    obtain ⟨q,next,-,rfl⟩ := step_reply hs
    rfl
  | delta =>
    obtain ⟨-,rfl⟩ := step_delta hs
    exact hupdate rfl
  | advance d =>
    obtain ⟨-,-,-,rfl⟩ := step_advance hs
    rfl

end Runs
end Coop
