import Mathlib.Order.Defs.Unbundled
import Usb3Drd.Coop.Calls

/-! Meters: observations of the state that each call moves in a way the call tells, and that
otherwise only run one way, along a preorder. With equality for it, only calls move the meter. -/
namespace Coop

variable {S W Q R L A E T α β X : Type}

/-- What one evaluation does to a meter, by where it stops. -/
def metered (f : S → X) (runs : X → X → Prop) (moves : X → Q → X → Prop) :
    Origin W Q R → S → Loc W Q R → S → Prop
  | _, s, .calling q, s' => moves (f s) q (f s')
  | _, s, _, s' => runs (f s) (f s')

/-- At a loop head of the thread no call has moved the meter yet. -/
def meterHead (f : S → X) (runs : X → X → Prop) (own : L → Prop) (l : L)
    (x : Trail Unit S W Q R) : Prop := own l ∧ runs (f x.start) (f x.state)

abbrev Spec.meter (f : S → X) (runs : X → X → Prop) (moves : X → Q → X → Prop) (own : L → Prop) :
    Spec Unit S W Q R L := .evals (metered f runs moves) (meterHead f runs own)

variable {f : S → X} {runs : X → X → Prop} {moves : X → Q → X → Prop} {own : L → Prop}
  {post : β → Prop}

namespace Proc

def MeteredTo (f : S → X) (runs : X → X → Prop) (moves : X → Q → X → Prop) (own : L → Prop)
    (post : α → Prop) (p : Proc S W Q R α) : Prop :=
  ∀ x : Trail Unit S W Q R, runs (f x.start) (f x.state) →
    p.wp (Spec.meter f runs moves own).setting
      (fun a y => post a ∧ runs (f y.start) (f y.state)) x

abbrev Metered (f : S → X) (runs : X → X → Prop) (moves : X → Q → X → Prop) (own : L → Prop)
    (p : Proc S W Q R α) : Prop := MeteredTo f runs moves own (fun _ => True) p

theorem MeteredTo.pure {b : β} (h : post b) :
    MeteredTo f runs moves own post (Pure.pure b : Proc S W Q R β) := fun _ hx => ⟨h,hx⟩

theorem MeteredTo.bind {p : Proc S W Q R α} {q : α → Proc S W Q R β}
    (hp : Metered f runs moves own p) (hq : ∀ a, MeteredTo f runs moves own post (q a)) :
    MeteredTo f runs moves own post (p >>= q) := by
  intro x hx
  refine (wp_bind _ _ _ _ _).mpr (wp_mono (Spec.setting_monotone _) p ?_ _ (hp x hx))
  rintro a y ⟨-,hy⟩
  exact hq a y hy

theorem MeteredTo.read (g : S → α) :
    Metered f runs moves own (Proc.read g : Proc S W Q R α) := fun _ hx => ⟨trivial,hx⟩

theorem MeteredTo.modify [IsTrans X runs] {g : S → S} (h : ∀ s, runs (f s) (f (g s))) :
    Metered f runs moves own (Proc.modify g : Proc S W Q R Unit) :=
  fun x hx => ⟨trivial,IsTrans.trans _ _ _ hx (h x.state)⟩

theorem MeteredTo.sleep [IsPreorder X runs] (w : W) :
    Metered f runs moves own (Proc.sleep w : Proc S W Q R Unit) :=
  fun _ hx => ⟨⟨hx,trivial⟩,fun _ s _ => ⟨trivial,refl (f s)⟩⟩

theorem MeteredTo.ite {c : Prop} [Decidable c] {p q : Proc S W Q R β}
    (hp : MeteredTo f runs moves own post p) (hq : MeteredTo f runs moves own post q) :
    MeteredTo f runs moves own post (if c then p else q) := by
  split
  · exact hp
  · exact hq

theorem metered_call [IsPreorder X runs] {q : Q} {x : Trail Unit S W Q R}
    (h : moves (f x.start) q (f x.state)) :
    (Proc.request q : Proc S W Q R R).wp (Spec.meter f runs moves own).setting
      (fun _ y => True ∧ runs (f y.start) (f y.state)) x :=
  ⟨⟨h,trivial⟩,fun _ _ s _ => ⟨trivial,refl (f s)⟩⟩

end Proc

section System
variable [DecidableEq T] [Fintype T] {M : Kernel S W Q R L A E T} {boot : Conf S W Q R L T} {t : T}

omit [DecidableEq T] [Fintype T] in
theorem meter_loops
    (hcode : ∀ l body, own l → M.code l = some body → body.MeteredTo f runs moves own own) :
    (Spec.meter f runs moves own).Loops M.code := by
  rintro l x ⟨hl,hx⟩
  cases hbody : M.code l with
  | none => exact ⟨hx,trivial⟩
  | some body => exact hcode l body hl hbody x hx

def Thread.Metered (f : S → X) (runs : X → X → Prop) (moves : X → Q → X → Prop) (own : L → Prop) :
    Thread S W Q R L → Prop
  | .idle => True
  | .ready _ p => p.MeteredTo f runs moves own own
  | .waiting _ _ next => next.MeteredTo f runs moves own own
  | .calling _ next => ∀ r, (next r).MeteredTo f runs moves own own

/-- In every run each evaluation of a metered thread moves the meter as stated. -/
theorem meter_meets [IsPreorder X runs]
    (hcode : ∀ l body, own l → M.code l = some body → body.MeteredTo f runs moves own own)
    (hentry : ∀ e p, M.entry t e = some p → p.MeteredTo f runs moves own own)
    (hboot : (boot.thread t).Metered f runs moves own) (timed : boot.WellTimed M) :
    Meets M boot noWatch (fun _ _ _ => True) t (Spec.meter f runs moves own) := by
  refine .plain (meter_loops hcode) (fun e p hp _ s _ => hentry e p hp _ (refl _)) timed ?_
    (fun _ _ _ _ _ _ => trivial) (fun _ _ _ _ _ _ => rfl)
  cases hth : boot.thread t with
  | idle => trivial
  | ready o p =>
    rw [hth] at hboot
    exact ⟨trivial,fun _ s _ _ => hboot _ (refl _)⟩
  | waiting w due next =>
    rw [hth] at hboot
    exact ⟨trivial,fun _ s _ _ => hboot _ (refl _)⟩
  | calling q next =>
    rw [hth] at hboot
    exact ⟨trivial,fun r _ s _ _ => hboot r _ (refl _)⟩

end System
end Coop
