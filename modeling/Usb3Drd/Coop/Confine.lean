import Mathlib.Algebra.Group.Action.End
import Mathlib.Algebra.Group.Submonoid.Operations
import Mathlib.GroupTheory.Submonoid.Centralizer
import Usb3Drd.Coop.Timeouts

/-! Independence of threads. A process is confined when each of its stretches changes the
state by effects of its own only, and the effects of others make no difference to it. Two
threads that are confined against each other may be evaluated in either order. -/
namespace Coop

variable {S W Q R L A E T γ α β : Type}

namespace Proc

def Stop.andThen (f : α → Proc S W Q R β) (x : S × Stop S W Q R α) : S × Stop S W Q R β :=
  match x.2 with
  | .ret a => (f a).run x.1
  | .wait w next => (x.1,.wait w (next >>= f))
  | .call q next => (x.1,.call q fun r => next r >>= f)

theorem run_bind (p : Proc S W Q R α) (f : α → Proc S W Q R β) (s : S) :
    (p >>= f).run s = Stop.andThen f (p.run s) := by
  have h : ∀ s, (p.bind f).run s = Stop.andThen f (p.run s) := by
    induction p with
    | get next ih => intro s; exact ih s s
    | set s₁ next ih => intro s; exact ih s₁
    | _ => intro s; rfl
  exact h s

/-- The state changes that make no difference to the stretch a process begins with: run
after one it does the same, and the change stays. -/
def transparent (p : Proc S W Q R α) : Submonoid (Function.End S) where
  carrier := {e | ∀ s, p.run (e s) = (e (p.run s).1,(p.run s).2)}
  one_mem' := fun _ => rfl
  mul_mem' := by
    intro e e' he he' s
    show p.run (e (e' s)) = (e (e' (p.run s).1),(p.run s).2)
    rw [he (e' s),he' s]

/-- The stretch a process begins with changes the state by an effect from `own`, and the
changes from `others` make no difference to it. -/
structure Local (own others : Submonoid (Function.End S)) (p : Proc S W Q R α) : Prop where
  effect : ∀ s, ∃ e ∈ own, (p.run s).1 = e s
  blind : others ≤ p.transparent

def Leaves (points : W → Prop) (P : Proc S W Q R α → Prop) (post : α → Prop) :
    Proc S W Q R α → Prop
  | .ret a => post a
  | .get next => ∀ s, (next s).Leaves points P post
  | .set _ next => next.Leaves points P post
  | .wait w next => (points w ∧ P next) ∧ next.Leaves points P post
  | .call _ next => ∀ r, P (next r) ∧ (next r).Leaves points P post

def Stop.Leaves (points : W → Prop) (P : Proc S W Q R α → Prop) (post : α → Prop) :
    Stop S W Q R α → Prop
  | .ret a => post a
  | .wait w next => points w ∧ P next
  | .call _ next => ∀ r, P (next r)

theorem Leaves.run {points : W → Prop} {P : Proc S W Q R α → Prop} {post : α → Prop}
    {p : Proc S W Q R α} (h : p.Leaves points P post) (s : S) :
    (p.run s).2.Leaves points (fun next => P next ∧ next.Leaves points P post) post := by
  induction p generalizing s with
  | ret a => exact h
  | get next ih => exact ih s (h s) s
  | set s₁ next ih => exact ih h s₁
  | wait w next => exact ⟨h.1.1,h.1.2,h.2⟩
  | call q next => exact h

/-- All stretches of the process are local, it waits at its own points, and it returns as
stated. -/
structure Confined (own others : Submonoid (Function.End S)) (points : W → Prop) (post : α → Prop)
    (p : Proc S W Q R α) : Prop where
  first : p.Local own others
  rest : p.Leaves points (Local own others) post

section Rules
variable {own others : Submonoid (Function.End S)} {points : W → Prop} {post : β → Prop}

theorem Local.bind {p : Proc S W Q R α} {f : α → Proc S W Q R β} (hp : p.Local own others)
    (hf : ∀ a, (f a).Local own others) : (p >>= f).Local own others where
  effect s := by
    obtain ⟨e,he,hs⟩ := hp.effect s
    rw [run_bind,Stop.andThen]
    cases hstop : (p.run s).2 with
    | ret a =>
      obtain ⟨e',he',hs'⟩ := (hf a).effect (p.run s).1
      refine ⟨e' * e,own.mul_mem he' he,hs'.trans ?_⟩
      rw [hs]
      rfl
    | wait w next => exact ⟨e,he,hs⟩
    | call q next => exact ⟨e,he,hs⟩
  blind := by
    intro b hb s
    rw [run_bind,run_bind,hp.blind hb s,Stop.andThen,Stop.andThen]
    cases hstop : (p.run s).2 with
    | ret a => exact (hf a).blind hb (p.run s).1
    | wait w next => rfl
    | call q next => rfl

theorem Leaves.bind {P : Proc S W Q R α → Prop} {P' : Proc S W Q R β → Prop}
    {p : Proc S W Q R α} {f : α → Proc S W Q R β} (hp : p.Leaves points P fun _ => True)
    (hnext : ∀ next, P next → P' (next >>= f)) (hf : ∀ a, (f a).Leaves points P' post) :
    (p >>= f).Leaves points P' post := by
  have h : (p.bind f).Leaves points P' post := by
    induction p with
    | ret a => exact hf a
    | get next ih => exact fun s => ih s (hp s)
    | set s₁ next ih => exact ih hp
    | wait w next ih => exact ⟨⟨hp.1.1,hnext next hp.1.2⟩,ih hp.2⟩
    | call q next ih => exact fun r => ⟨hnext _ (hp r).1,ih r (hp r).2⟩
  exact h

theorem Confined.bind {p : Proc S W Q R α} {f : α → Proc S W Q R β}
    (hp : p.Confined own others points fun _ => True) (hf : ∀ a, (f a).Confined own others points post) :
    (p >>= f).Confined own others points post :=
  ⟨hp.first.bind fun a => (hf a).first,
    hp.rest.bind (fun _ h => h.bind fun a => (hf a).first) fun a => (hf a).rest⟩

theorem Local.pure (b : β) : (Pure.pure b : Proc S W Q R β).Local own others :=
  ⟨fun _ => ⟨1,own.one_mem,rfl⟩,fun _ _ _ => rfl⟩

theorem Confined.pure {b : β} (h : post b) :
    (Pure.pure b : Proc S W Q R β).Confined own others points post := ⟨.pure b,h⟩

/-- What a process sees of the state: no foreign change makes a difference to it, and own
effects commute with foreign changes. -/
structure Sees {V : Type} (own : Submonoid (Function.End S)) (changes : Set (Function.End S))
    (view : S → V) : Prop where
  view : ∀ b ∈ changes, ∀ s, view (b s) = view s
  comm : ∀ e ∈ own, ∀ b ∈ changes, Commute e b

section Views
variable {V : Type} {changes : Set (Function.End S)} {view : S → V}

theorem Sees.read (h : Sees own changes view) (f : V → α) :
    (Proc.read fun s => f (view s) : Proc S W Q R α).Confined own (.closure changes) points
      fun _ => True where
  first := by
    refine ⟨fun _ => ⟨1,own.one_mem,rfl⟩,Submonoid.closure_le.mpr fun b hb s => ?_⟩
    exact congrArg (fun v => (b s,Stop.ret (f v))) (h.view b hb s)
  rest := fun _ => trivial

theorem Sees.modify (h : Sees own changes view) (e : V → Function.End S) (he : ∀ v, e v ∈ own) :
    (Proc.modify fun s => e (view s) s : Proc S W Q R Unit).Confined own (.closure changes) points
      fun _ => True where
  first := by
    refine ⟨fun s => ⟨e (view s),he _,rfl⟩,Submonoid.closure_le.mpr fun b hb s => ?_⟩
    show (e (view (b s)) (b s),Stop.ret ()) = (b (e (view s) s),Stop.ret ())
    rw [h.view b hb s]
    exact congrArg (fun s => (s,Stop.ret ())) (congrFun (h.comm _ (he (view s)) b hb) s)
  rest := fun _ => trivial

end Views

theorem Confined.sleep {w : W} (hw : points w) :
    (Proc.sleep w : Proc S W Q R Unit).Confined own others points fun _ => True :=
  ⟨⟨fun _ => ⟨1,own.one_mem,rfl⟩,fun _ _ _ => rfl⟩,⟨hw,.pure ()⟩,trivial⟩

theorem Confined.request (q : Q) :
    (Proc.request q : Proc S W Q R R).Confined own others points fun _ => True :=
  ⟨⟨fun _ => ⟨1,own.one_mem,rfl⟩,fun _ _ _ => rfl⟩,fun r => ⟨.pure r,trivial⟩⟩

theorem Confined.ite {c : Prop} [Decidable c] {p q : Proc S W Q R β}
    (hp : p.Confined own others points post) (hq : q.Confined own others points post) :
    (if c then p else q).Confined own others points post := by
  split
  · exact hp
  · exact hq

/-- Once suspended, the process neither reads nor writes the state any more. -/
abbrev Spent (points : W → Prop) (post : α → Prop) (p : Proc S W Q R α) : Prop :=
  p.Leaves points (Local ⊥ ⊤) post

theorem Spent.bind {p : Proc S W Q R α} {f : α → Proc S W Q R β}
    (hp : p.Spent points fun _ => True) (hf : ∀ a, (f a).Confined ⊥ ⊤ points post) :
    (p >>= f).Spent points post :=
  Leaves.bind hp (fun _ h => h.bind fun a => (hf a).first) fun a => (hf a).rest

theorem Spent.follow {p : Proc S W Q R α} {f : α → Proc S W Q R β}
    (hp : p.Leaves points (fun _ => False) fun _ => True) (hf : ∀ a, (f a).Spent points post) :
    (p >>= f).Spent points post :=
  Leaves.bind hp (fun _ h => h.elim) hf

theorem Spent.ite {c : Prop} [Decidable c] {p q : Proc S W Q R β} (hp : p.Spent points post)
    (hq : q.Spent points post) : (if c then p else q).Spent points post := by
  split
  · exact hp
  · exact hq

end Rules

end Proc

namespace Kernel

/-- An evaluation of a confined program, over loops that are confined too: it changes the
state by own effects, foreign changes make no difference to it, and what it leaves is
confined again. -/
theorem segment_confined {code : L → Option (Proc S W Q R L)}
    {own others : Submonoid (Function.End S)} {points : W → Prop} {loops : L → Prop}
    (hcode : ∀ l body, loops l → code l = some body → body.Confined own others points loops) {n : ℕ}
    {p : Proc S W Q R L} (hp : p.Confined own others points loops) {s s' : S}
    {stop : Proc.Stop S W Q R L} (hseg : segment code n p s = some (s',stop)) :
    (∃ e ∈ own, s' = e s) ∧ (∀ b ∈ others, segment code n p (b s) = some (b s',stop)) ∧
      stop.Leaves points (Proc.Confined own others points loops) loops := by
  induction n generalizing p s with
  | zero => cases hseg
  | succ n ih =>
    obtain ⟨e,he,hs⟩ := hp.first.effect s
    have hrun := hp.rest.run s
    cases hstop : (p.run s).2 with
    | ret l =>
      rw [hstop] at hrun
      have hl : loops l := hrun
      have heq : p.run s = ((p.run s).1,.ret l) := by rw [← hstop]
      have hblind : ∀ b ∈ others, p.run (b s) = (b (p.run s).1,.ret l) := by
        intro b hb
        rw [hp.first.blind hb s,hstop]
      rw [segment,heq] at hseg
      cases hc : code l with
      | none =>
        simp only [hc,Option.some.injEq,Prod.mk.injEq] at hseg
        obtain ⟨rfl,rfl⟩ := hseg
        refine ⟨⟨e,he,hs⟩,fun b hb => ?_,hl⟩
        rw [segment,hblind b hb]
        simp only [hc]
      | some body =>
        simp only [hc] at hseg
        obtain ⟨⟨e',he',hs'⟩,hothers,hleaves⟩ := ih (hcode l body hl hc) hseg
        refine ⟨⟨e' * e,own.mul_mem he' he,?_⟩,fun b hb => ?_,hleaves⟩
        · rw [hs',hs]
          rfl
        · rw [segment,hblind b hb]
          simp only [hc]
          exact hothers b hb
    | wait w next =>
      have heq : p.run s = ((p.run s).1,.wait w next) := by rw [← hstop]
      rw [segment,heq] at hseg
      obtain ⟨rfl,rfl⟩ := Prod.mk.inj (Option.some.inj hseg)
      rw [hstop] at hrun
      refine ⟨⟨e,he,hs⟩,fun b hb => ?_,hrun.1,hrun.2.1,hrun.2.2⟩
      rw [segment,hp.first.blind hb s,hstop]
    | call q next =>
      have heq : p.run s = ((p.run s).1,.call q next) := by rw [← hstop]
      rw [segment,heq] at hseg
      obtain ⟨rfl,rfl⟩ := Prod.mk.inj (Option.some.inj hseg)
      rw [hstop] at hrun
      refine ⟨⟨e,he,hs⟩,fun b hb => ?_,fun r => ⟨(hrun r).1,(hrun r).2⟩⟩
      rw [segment,hp.first.blind hb s,hstop]

theorem segment_spent {code : L → Option (Proc S W Q R L)} {points : W → Prop} {ends : L → Prop}
    (hcode : ∀ l, ends l → code l = none) {n : ℕ} {p : Proc S W Q R L} (hp : p.Spent points ends)
    {s s' : S} {stop : Proc.Stop S W Q R L} (hseg : segment code n p s = some (s',stop)) :
    stop.Leaves points (Proc.Confined ⊥ ⊤ points ends) ends := by
  cases n with
  | zero => cases hseg
  | succ n =>
    have hrun := hp.run s
    have heq : p.run s = ((p.run s).1,(p.run s).2) := rfl
    rw [segment,heq] at hseg
    cases hstop : (p.run s).2 with
    | ret l =>
      rw [hstop] at hrun hseg
      simp only [hcode l hrun,Option.some.injEq,Prod.mk.injEq] at hseg
      obtain ⟨-,rfl⟩ := hseg
      exact hrun
    | wait w next =>
      rw [hstop] at hrun hseg
      obtain ⟨-,rfl⟩ := Prod.mk.inj (Option.some.inj hseg)
      exact ⟨hrun.1,hrun.2.1,hrun.2.2⟩
    | call q next =>
      rw [hstop] at hrun hseg
      obtain ⟨-,rfl⟩ := Prod.mk.inj (Option.some.inj hseg)
      exact fun r => ⟨(hrun r).1,(hrun r).2⟩

end Kernel

def Thread.Within (points : W → Prop) (start rest : Proc S W Q R L → Prop) :
    Thread S W Q R L → Prop
  | .idle => True
  | .ready .start p => start p
  | .ready (.woke _) p => rest p
  | .ready (.returned _ _) p => rest p
  | .waiting w _ next => points w ∧ rest next
  | .calling _ next => ∀ r, rest (next r)

theorem Thread.Within.ready {points : W → Prop} {start rest : Proc S W Q R L → Prop}
    {o : Origin W Q R} {p : Proc S W Q R L} (h : (Thread.ready o p).Within points start rest) :
    start p ∨ rest p := by
  cases o with
  | start => exact .inl h
  | woke w => exact .inr h
  | returned q r => exact .inr h

section Runs
variable [DecidableEq T] [Fintype T] {M : Kernel S W Q R L A E T} {boot : Conf S W Q R L T}
  {points : T → W → Prop} {start rest : T → Proc S W Q R L → Prop} {c c' : Conf S W Q R L T} {l : Label R A E T}

/-- Each thread begins with programs of one kind, resumes programs of another, and waits at its
own points. -/
structure Inhabits (M : Kernel S W Q R L A E T) (boot : Conf S W Q R L T) (points : T → W → Prop)
    (start rest : T → Proc S W Q R L → Prop) : Prop where
  boot : ∀ t, (boot.thread t).Within (points t) (start t) (rest t)
  entry : ∀ t e p, M.entry t e = some p → start t p
  leaves : ∀ t p s s' stop, start t p ∨ rest t p → Kernel.segment M.code M.fuel p s = some (s',stop) →
    stop.Leaves (points t) (rest t) fun _ => True

theorem Inhabits.step (hM : Inhabits M boot points start rest)
    (hc : ∀ t, (c.thread t).Within (points t) (start t) (rest t)) (hs : M.step c l = some c') :
    ∀ t, (c'.thread t).Within (points t) (start t) (rest t) := by
  intro t
  have ht := hc t
  by_cases hl : l = .eval t
  · subst hl
    obtain ⟨o,p,s,stop,hth,hseg,rfl⟩ := step_eval hs
    rw [hth] at ht
    have hleaves := hM.leaves t p _ _ stop ht.ready hseg
    simp only [Function.update_self]
    cases stop with
    | ret l => trivial
    | wait w next => exact hleaves
    | call q next => exact hleaves
  · have hpasses := step_passes hs hl
    generalize c.thread t = th at hpasses ht
    generalize c'.thread t = th' at hpasses
    cases hpasses with
    | stay => exact ht
    | wake w due next => exact ht.2
    | enter e p _ hp => exact hM.entry t e p hp
    | reply q next r => exact ht r

theorem Inhabits.reach (hM : Inhabits M boot points start rest) {w : Watch γ S W Q R L A E T}
    {ok : γ → Conf S W Q R L T → Label R A E T → Prop} {g : γ} (h : Reach M boot w ok g c) :
    ∀ t, (c.thread t).Within (points t) (start t) (rest t) := by
  induction h with
  | boot => exact hM.boot
  | step _ _ hs ih => exact hM.step ih hs

theorem commute_closure {G G' : Set (Function.End S)} (h : ∀ e ∈ G, ∀ e' ∈ G', Commute e e')
    {e e' : Function.End S} (he : e ∈ Submonoid.closure G) (he' : e' ∈ Submonoid.closure G') :
    Commute e e' := by
  have hright : Submonoid.closure G' ≤ Submonoid.centralizer G :=
    Submonoid.closure_le.mpr fun x hx => Submonoid.mem_centralizer_iff.mpr fun g hg => h g hg x hx
  have hleft : Submonoid.closure G ≤ Submonoid.centralizer (Submonoid.closure G') :=
    Submonoid.closure_le.mpr fun g hg => Submonoid.mem_centralizer_iff.mpr fun x hx =>
      (Submonoid.mem_centralizer_iff.mp (hright hx) g hg).symm
  exact (Submonoid.mem_centralizer_iff.mp (hleft he) e' he').symm

def Runs (M : Kernel S W Q R L A E T) (c : Conf S W Q R L T) (t : T)
    (own others : Submonoid (Function.End S)) : Prop :=
  ∃ o p points loops, c.thread t = .ready o p ∧ p.Confined own others points loops ∧
    ∀ l body, loops l → M.code l = some body → body.Confined own others points loops

/-- Two runnable threads that are confined against each other can be evaluated in either
order. -/
theorem eval_comm {t u : T} (htu : t ≠ u) {own own' others others' : Submonoid (Function.End S)}
    (ht : Runs M c t own others) (hu : Runs M c u own' others') (hle : own ≤ others')
    (hle' : own' ≤ others) (hcomm : ∀ e ∈ own, ∀ e' ∈ own', Commute e e') {d d' : Conf S W Q R L T}
    (hs : M.step c (.eval t) = some d) (hs' : M.step c (.eval u) = some d') :
    ∃ f, M.step d (.eval u) = some f ∧ M.step d' (.eval t) = some f := by
  obtain ⟨o,p,points,loops,ht,hp,hcode⟩ := ht
  obtain ⟨o',q,points',loops',hu,hq,hcode'⟩ := hu
  obtain ⟨_,_,s,stop,ht₁,hseg,rfl⟩ := step_eval hs
  obtain ⟨_,_,s',stop',hu₁,hseg',rfl⟩ := step_eval hs'
  obtain ⟨rfl,rfl⟩ := Thread.ready.inj (ht.symm.trans ht₁)
  obtain ⟨rfl,rfl⟩ := Thread.ready.inj (hu.symm.trans hu₁)
  obtain ⟨⟨e,he,rfl⟩,hblind,-⟩ := Kernel.segment_confined hcode hp hseg
  obtain ⟨⟨e',he',rfl⟩,hblind',-⟩ := Kernel.segment_confined hcode' hq hseg'
  have hagree : e (e' c.state) = e' (e c.state) := congrFun (hcomm e he e' he') c.state
  refine ⟨⟨c.now,e (e' c.state),Function.update (Function.update c.thread t (M.park c.now stop)) u
    (M.park c.now stop')⟩,?_,?_⟩
  · simp only [Kernel.step,Function.update_of_ne htu.symm,hu,hblind' e (hle he),Option.map_some]
  · simp only [Kernel.step,Function.update_of_ne htu,ht,hblind e' (hle' he'),Option.map_some,hagree,
      Function.update_comm htu]

theorem Runs.effect {t : T} {own others : Submonoid (Function.End S)} (ht : Runs M c t own others)
    (hs : M.step c (.eval t) = some c') : ∃ e ∈ own, c'.state = e c.state := by
  obtain ⟨o,p,points,loops,ht,hp,hcode⟩ := ht
  obtain ⟨_,_,s,stop,ht₁,hseg,rfl⟩ := step_eval hs
  obtain ⟨rfl,rfl⟩ := Thread.ready.inj (ht.symm.trans ht₁)
  exact (Kernel.segment_confined hcode hp hseg).1

end Runs
end Coop
