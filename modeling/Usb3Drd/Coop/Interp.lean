import Usb3Drd.Coop.Proc

/-! Processes run to their end by a handler that serves every suspension, and the
handler that serves them from a given script of turns. -/
namespace Coop

variable {S W Q R A X α β : Type}

/-- How a process is run over a state `X` that contains the shared one: a suspension may
fail, and a call is answered. -/
structure Handler (S W Q R X : Type) where
  state : X → S
  store : S → X → X
  wait : W → X → Option X
  call : Q → X → Option (R × X)

structure Handler.Lawful (h : Handler S W Q R X) : Prop where
  state_store : ∀ s x, h.state (h.store s x) = s
  store_state : ∀ x, h.store (h.state x) x = x

namespace Proc

/-- Run a process to its end; `none` if one of its suspensions fails. -/
def interp (h : Handler S W Q R X) : Proc S W Q R α → X → Option (α × X)
  | .ret a, x => some (a,x)
  | .get next, x => (next (h.state x)).interp h x
  | .set s next, x => next.interp h (h.store s x)
  | .wait w next, x => (h.wait w x).bind (next.interp h)
  | .call q next, x => (h.call q x).bind fun y => (next y.1).interp h y.2

section Rules
variable (h : Handler S W Q R X)

@[simp] theorem interp_bind (p : Proc S W Q R α) (f : α → Proc S W Q R β) (x : X) :
    (p >>= f).interp h x = (p.interp h x).bind fun y => (f y.1).interp h y.2 := by
  have hbind : ∀ x, (p.bind f).interp h x = (p.interp h x).bind fun y => (f y.1).interp h y.2 := by
    induction p with
    | ret a => intro x; rfl
    | get next ih => intro x; exact ih (h.state x) x
    | set s next ih => intro x; exact ih (h.store s x)
    | wait w next ih =>
      intro x
      simp only [bind,interp,Option.bind_assoc]
      exact congrArg ((h.wait w x).bind ·) (funext ih)
    | call q next ih =>
      intro x
      simp only [bind,interp,Option.bind_assoc]
      exact congrArg ((h.call q x).bind ·) (funext fun y => ih y.1 y.2)
  exact hbind x

@[simp] theorem interp_pure (a : α) (x : X) :
    (pure a : Proc S W Q R α).interp h x = some (a,x) := rfl

@[simp] theorem interp_read (f : S → α) (x : X) :
    (read f : Proc S W Q R α).interp h x = some (f (h.state x),x) := rfl

@[simp] theorem interp_modify (f : S → S) (x : X) :
    (modify f : Proc S W Q R Unit).interp h x = some ((),h.store (f (h.state x)) x) := rfl

@[simp] theorem interp_sleep (w : W) (x : X) :
    (sleep w : Proc S W Q R Unit).interp h x = (h.wait w x).map fun y => ((),y) := by
  simp only [sleep,interp,Option.map_eq_bind]
  rfl

@[simp] theorem interp_request (q : Q) (x : X) :
    (request q : Proc S W Q R R).interp h x = h.call q x :=
  Option.bind_fun_some (h.call q x)

@[simp] theorem interp_ite (c : Prop) [Decidable c] (p q : Proc S W Q R α) (x : X) :
    (if c then p else q).interp h x = if c then p.interp h x else q.interp h x := by
  by_cases hc : c <;> simp [hc]

end Rules
end Proc

/-- The process runs to its end, with a result and a state of the given kind. -/
def Proc.Yields (h : Handler S W Q R X) (post : α → X → Prop) (p : Proc S W Q R α) (x : X) : Prop :=
  ∃ a y, p.interp h x = some (a,y) ∧ post a y

namespace Proc
section Yields
variable {h : Handler S W Q R X} {post : α → X → Prop} {post' : β → X → Prop} {x : X}

theorem Yields.mono {p : Proc S W Q R α} {post₂ : α → X → Prop} (hp : p.Yields h post x)
    (himp : ∀ a y, post a y → post₂ a y) : p.Yields h post₂ x := by
  obtain ⟨a,y,hrun,hpost⟩ := hp
  exact ⟨a,y,hrun,himp a y hpost⟩

@[simp] theorem yields_bind (p : Proc S W Q R α) (f : α → Proc S W Q R β) :
    (p >>= f).Yields h post' x ↔ p.Yields h (fun a y => (f a).Yields h post' y) x := by
  rw [Yields,interp_bind]
  constructor
  · rintro ⟨b,z,hrun,hpost⟩
    obtain ⟨⟨a,y⟩,hp,hf⟩ := Option.bind_eq_some_iff.mp hrun
    exact ⟨a,y,hp,b,z,hf,hpost⟩
  · rintro ⟨a,y,hp,b,z,hf,hpost⟩
    exact ⟨b,z,by rw [hp,Option.bind_some,hf],hpost⟩

theorem yields_of_eq {p : Proc S W Q R α} {a : α} {y : X} (hp : p.interp h x = some (a,y)) :
    p.Yields h post x ↔ post a y := by
  constructor
  · rintro ⟨b,z,hrun,hpost⟩
    cases hp.symm.trans hrun
    exact hpost
  · exact fun hpost => ⟨a,y,hp,hpost⟩

@[simp] theorem yields_pure (a : α) :
    (pure a : Proc S W Q R α).Yields h post x ↔ post a x := yields_of_eq rfl

@[simp] theorem yields_read (f : S → α) :
    (read f : Proc S W Q R α).Yields h post x ↔ post (f (h.state x)) x := yields_of_eq rfl

@[simp] theorem yields_modify (f : S → S) {post : Unit → X → Prop} :
    (modify f : Proc S W Q R Unit).Yields h post x ↔ post () (h.store (f (h.state x)) x) :=
  yields_of_eq rfl

theorem yields_sleep {w : W} {y : X} (hw : h.wait w x = some y) {post : Unit → X → Prop} :
    (sleep w : Proc S W Q R Unit).Yields h post x ↔ post () y :=
  yields_of_eq (by rw [interp_sleep,hw]; rfl)

end Yields
end Proc

def recorded (r : R) : Handler S W Q R (S × List Q) where
  state x := x.1
  store s x := (s,x.2)
  wait _ x := some x
  call q x := some (r,(x.1,x.2 ++ [q]))

theorem recorded_lawful (r : R) : (recorded r : Handler S W Q R (S × List Q)).Lawful :=
  ⟨fun _ _ => rfl,fun _ => rfl⟩

namespace Proc
variable (p : Proc S W Q R α) {s s' : S} {log : List Q} {r : R}

theorem recorded_of_ret {a : α} (h : p.run s = (s',.ret a)) :
    p.interp (recorded r) (s,log) = some (a,(s',log)) := by
  induction p generalizing s with
  | ret b => obtain ⟨rfl,hb⟩ := Prod.mk.inj h; cases hb; rfl
  | get next ih => exact ih s h
  | set s₁ next ih => exact ih h
  | wait w next => cases congrArg Prod.snd h
  | call q next => cases congrArg Prod.snd h

theorem recorded_of_call {q : Q} {next : R → Proc S W Q R α} (h : p.run s = (s',.call q next)) :
    p.interp (recorded r) (s,log) = (next r).interp (recorded r) (s',log ++ [q]) := by
  induction p generalizing s with
  | ret b => cases congrArg Prod.snd h
  | get next ih => exact ih s h
  | set s₁ next ih => exact ih h
  | wait w next => cases congrArg Prod.snd h
  | call q next => obtain ⟨rfl,hcall⟩ := Prod.mk.inj h; cases hcall; rfl

end Proc

def immediate : Handler S W Q R S where
  state s := s
  store s _ := s
  wait _ _ := none
  call _ _ := none

theorem immediate_lawful : (immediate : Handler S W Q R S).Lawful := ⟨fun _ _ => rfl,fun _ => rfl⟩

theorem Proc.run_of_immediate (p : Proc S W Q R α) {s s' : S} {a : α}
    (h : p.interp immediate s = some (a,s')) : p.run s = (s',.ret a) := by
  induction p generalizing s with
  | ret b => cases h; rfl
  | get next ih => exact ih s h
  | set s₁ next ih => exact ih h
  | wait w next => cases h
  | call q next => cases h

/-- What happens during one suspension: the actions of everyone else, and the answer if
the process waits for one. -/
structure Turn (R A : Type) where
  acts : List A
  answer : R

structure Driven (S R A : Type) where
  state : S
  turns : List (Turn R A)

section Driven
variable (act : A → S → S)

def Turn.elapse (t : Turn R A) (s : S) : S := t.acts.foldl (fun s a => act a s) s

/-- Every suspension takes the next turn of the script. -/
def driven : Handler S W Q R (Driven S R A) where
  state x := x.state
  store s x := { x with state := s }
  wait _ x := match x.turns with
    | [] => none
    | t::ts => some ⟨t.elapse act x.state,ts⟩
  call _ x := match x.turns with
    | [] => none
    | t::ts => some (t.answer,⟨t.elapse act x.state,ts⟩)

theorem driven_lawful : (driven act : Handler S W Q R (Driven S R A)).Lawful :=
  ⟨fun _ _ => rfl,fun _ => rfl⟩

section Script
variable {act} {x : Driven S R A}

theorem sleep_driven {w : W} {y : Unit × Driven S R A}
    (h : (Proc.sleep w : Proc S W Q R Unit).interp (driven act) x = some y) :
    ∃ t, x.turns = t::y.2.turns ∧ y.2.state = t.elapse act x.state := by
  cases hts : x.turns with
  | nil => simp [driven,hts] at h
  | cons t ts =>
    simp only [Proc.interp_sleep,driven,hts,Option.map_some,Option.some.injEq] at h
    exact ⟨t,by rw [← h],by rw [← h]⟩

theorem call_driven {q : Q} {y : R × Driven S R A}
    (h : (driven act : Handler S W Q R (Driven S R A)).call q x = some y) :
    ∃ t, x.turns = t::y.2.turns ∧ y.1 = t.answer ∧ y.2.state = t.elapse act x.state := by
  cases hts : x.turns with
  | nil => simp [driven,hts] at h
  | cons t ts =>
    simp only [driven,hts,Option.some.injEq] at h
    exact ⟨t,by rw [← h],by rw [← h],by rw [← h]⟩

end Script
end Driven
end Coop
