import Mathlib.Logic.Basic

/-! Resumable processes of a cooperative simulation. A process runs over a shared
state `S` without interruption until it blocks at a wait point `W` or calls out
to code beyond the model with a request `Q`, whose answer is an `R`. -/
namespace Coop

inductive Proc (S W Q R α : Type) where
  | ret (a : α)
  | get (next : S → Proc S W Q R α)
  | set (s : S) (next : Proc S W Q R α)
  | wait (w : W) (next : Proc S W Q R α)
  | call (q : Q) (next : R → Proc S W Q R α)

variable {S W Q R X α β : Type}

namespace Proc

def bind : Proc S W Q R α → (α → Proc S W Q R β) → Proc S W Q R β
  | .ret a, f => f a
  | .get next, f => .get fun s => (next s).bind f
  | .set s next, f => .set s (next.bind f)
  | .wait w next, f => .wait w (next.bind f)
  | .call q next, f => .call q fun r => (next r).bind f

instance : Monad (Proc S W Q R) where
  pure := .ret
  bind := .bind

def read (f : S → α) : Proc S W Q R α := .get fun s => .ret (f s)

def modify (f : S → S) : Proc S W Q R Unit := .get fun s => .set (f s) (.ret ())

def sleep (w : W) : Proc S W Q R Unit := .wait w (.ret ())

def request (q : Q) : Proc S W Q R R := .call q .ret

/-- Where one uninterrupted stretch of a process ends. -/
inductive Stop (S W Q R α : Type) where
  | ret (a : α)
  | wait (w : W) (next : Proc S W Q R α)
  | call (q : Q) (next : R → Proc S W Q R α)

def run : Proc S W Q R α → S → S × Stop S W Q R α
  | .ret a, s => (s,.ret a)
  | .get next, s => (next s).run s
  | .set s next, _ => next.run s
  | .wait w next, s => (s,.wait w next)
  | .call q next, s => (s,.call q next)

theorem run_read_bind (f : S → α) (k : α → Proc S W Q R β) (s : S) :
    (read f >>= k).run s = (k (f s)).run s := rfl

end Proc

/-- What surrounds a process while a property of it is computed: how the shared
state sits in the state `X` of the argument, and what a suspension requires of it
and grants to the rest of the process. -/
structure Setting (S W Q R X : Type) where
  state : X → S
  store : S → X → X
  onWait : W → (X → Prop) → X → Prop
  onCall : Q → (R → X → Prop) → X → Prop

namespace Proc

/-- Weakest precondition of a process in a setting. -/
def wp (e : Setting S W Q R X) : Proc S W Q R α → (α → X → Prop) → X → Prop
  | .ret a, post, x => post a x
  | .get next, post, x => (next (e.state x)).wp e post x
  | .set s next, post, x => next.wp e post (e.store s x)
  | .wait w next, post, x => e.onWait w (next.wp e post) x
  | .call q next, post, x => e.onCall q (fun r => (next r).wp e post) x

section Rules
variable (e : Setting S W Q R X)

@[simp] theorem wp_bind (p : Proc S W Q R α) (f : α → Proc S W Q R β) (post : β → X → Prop) (x : X) :
    (p >>= f).wp e post x ↔ p.wp e (fun a => (f a).wp e post) x := by
  have h : ∀ x, (p.bind f).wp e post x = p.wp e (fun a => (f a).wp e post) x := by
    induction p with
    | ret a => intro x; rfl
    | get next ih => intro x; exact ih (e.state x) x
    | set s next ih => intro x; exact ih (e.store s x)
    | wait w next ih => intro x; exact congrArg (e.onWait w · x) (funext ih)
    | call q next ih => intro x; exact congrArg (e.onCall q · x) (funext fun r => funext (ih r))
  exact iff_of_eq (h x)

@[simp] theorem wp_pure (a : α) (post : α → X → Prop) (x : X) :
    (pure a : Proc S W Q R α).wp e post x ↔ post a x := Iff.rfl

@[simp] theorem wp_read (f : S → α) (post : α → X → Prop) (x : X) :
    (read f : Proc S W Q R α).wp e post x ↔ post (f (e.state x)) x := Iff.rfl

@[simp] theorem wp_modify (f : S → S) (post : Unit → X → Prop) (x : X) :
    (modify f : Proc S W Q R Unit).wp e post x ↔ post () (e.store (f (e.state x)) x) := Iff.rfl

@[simp] theorem wp_sleep (w : W) (post : Unit → X → Prop) (x : X) :
    (sleep w : Proc S W Q R Unit).wp e post x ↔ e.onWait w (post ()) x := Iff.rfl

@[simp] theorem wp_request (q : Q) (post : R → X → Prop) (x : X) :
    (request q : Proc S W Q R R).wp e post x ↔ e.onCall q post x := Iff.rfl

@[simp] theorem wp_ite (c : Prop) [Decidable c] (p q : Proc S W Q R α) (post : α → X → Prop) (x : X) :
    (if c then p else q).wp e post x ↔ (c → p.wp e post x) ∧ (¬c → q.wp e post x) := by
  by_cases h : c <;> simp [h]

end Rules

def Monotone (e : Setting S W Q R X) : Prop :=
  (∀ w K K' x, (∀ y, K y → K' y) → e.onWait w K x → e.onWait w K' x) ∧
  ∀ q K K' x, (∀ r y, K r y → K' r y) → e.onCall q K x → e.onCall q K' x

theorem wp_mono {e : Setting S W Q R X} (he : Monotone e) (p : Proc S W Q R α)
    {post post' : α → X → Prop} (h : ∀ a x, post a x → post' a x) (x : X) :
    p.wp e post x → p.wp e post' x := by
  induction p generalizing x with
  | ret a => exact h a x
  | get next ih => exact ih _ x
  | set s next ih => exact ih _
  | wait w next ih => exact he.1 w _ _ x ih
  | call q next ih => exact he.2 q _ _ x ih

/-- The setting that observes a process only if it ends without a suspension. -/
def ending : Setting S W Q R S := ⟨id,fun s _ => s,fun _ _ _ => True,fun _ _ _ => True⟩

theorem wp_ending_of_forall (p : Proc S W Q R α) {post : α → S → Prop} (h : ∀ a s, post a s) (s : S) :
    p.wp ending post s := by
  induction p generalizing s with
  | ret a => exact h a s
  | get next ih => exact ih _ s
  | set s₁ next ih => exact ih s₁
  | wait w next => trivial
  | call q next => trivial

theorem ending_monotone : Monotone (ending : Setting S W Q R S) :=
  ⟨fun _ _ _ _ _ h => h,fun _ _ _ _ _ h => h⟩

@[simp] theorem ending_onWait (w : W) (K : S → Prop) (s : S) :
    (ending : Setting S W Q R S).onWait w K s ↔ True := Iff.rfl
@[simp] theorem ending_onCall (q : Q) (K : R → S → Prop) (s : S) :
    (ending : Setting S W Q R S).onCall q K s ↔ True := Iff.rfl

end Proc
end Coop
