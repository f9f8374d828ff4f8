import Mathlib.Data.Fintype.Basic
import Mathlib.Data.Fintype.Sum
import Usb3Drd.Coop.Proc

/-! The evaluate/update/notify scheduler of a discrete-event simulation. Runnable
processes run one at a time and uninterrupted; when none is runnable an update
phase makes signal writes visible and wakes the processes whose events fired;
when nothing is left to update, time advances to a pending timeout. An event is
lost to a process that does not wait for it. -/
namespace Coop

inductive Origin (W Q R : Type) where
  | start
  | woke (w : W)
  | returned (q : Q) (r : R)
  deriving DecidableEq

/-- Where a thread stands, its program forgotten. -/
inductive Loc (W Q R : Type) where
  | idle
  | ready (o : Origin W Q R)
  | waiting (w : W)
  | calling (q : Q)
  deriving DecidableEq

instance {W Q R : Type} (l : Loc W Q R) : Decidable (∃ q, l = .calling q) :=
  match l with
  | .calling q => isTrue ⟨q,rfl⟩
  | .idle | .ready _ | .waiting _ => isFalse fun ⟨_,h⟩ => nomatch h

inductive Thread (S W Q R L : Type) where
  | idle
  | ready (o : Origin W Q R) (p : Proc S W Q R L)
  | waiting (w : W) (due : Option ℕ) (next : Proc S W Q R L)
  | calling (q : Q) (next : R → Proc S W Q R L)

/-- `code` gives the body of each loop; a body returns the loop to continue with,
or a label without code to end its thread. `fuel` bounds the loop heads passed in
one evaluation. -/
structure Kernel (S W Q R L A E T : Type) where
  code : L → Option (Proc S W Q R L)
  fuel : ℕ
  update : S → S
  wakes : W → S → Bool
  delay : W → Option ℕ
  quiet : S → Bool
  act : A → S → Option S
  entry : T → E → Option (Proc S W Q R L)

structure Conf (S W Q R L T : Type) where
  now : ℕ
  state : S
  thread : T → Thread S W Q R L

/-- One scheduling decision: evaluate a runnable thread, let the environment act,
let it call in on an idle thread or answer a call, update, advance the time. -/
inductive Label (R A E T : Type) where
  | eval (t : T)
  | act (a : A)
  | enter (t : T) (e : E)
  | reply (t : T) (r : R)
  | delta
  | advance (d : ℕ)

variable {S W Q R L A E T γ : Type}

namespace Thread

def loc : Thread S W Q R L → Loc W Q R
  | .idle => .idle
  | .ready o _ => .ready o
  | .waiting w _ _ => .waiting w
  | .calling q _ => .calling q

def isReady : Thread S W Q R L → Bool
  | .ready _ _ => true
  | _ => false

def notify (fires : W → Bool) : Thread S W Q R L → Thread S W Q R L
  | .waiting w due next => if fires w then .ready (.woke w) next else .waiting w due next
  | th => th

def expire (now : ℕ) : Thread S W Q R L → Thread S W Q R L
  | .waiting w due next => if due = some now then .ready (.woke w) next else .waiting w due next
  | th => th

def pendingAfter (now : ℕ) : Thread S W Q R L → Bool
  | .waiting _ (some due) _ => decide (now ≤ due)
  | _ => true

end Thread

namespace Conf

def loc (c : Conf S W Q R L T) (t : T) : Loc W Q R := (c.thread t).loc

theorem exists_ready {c : Conf S W Q R L T} {t : T} {o : Origin W Q R} (h : c.loc t = .ready o) :
    ∃ p, c.thread t = .ready o p := by
  rw [loc] at h
  generalize c.thread t = th at h
  cases th with
  | ready o' p => cases h; exact ⟨p,rfl⟩
  | _ => cases h

theorem exists_calling {c : Conf S W Q R L T} {t : T} {q : Q} (h : c.loc t = .calling q) :
    ∃ next, c.thread t = .calling q next := by
  rw [loc] at h
  generalize c.thread t = th at h
  cases th with
  | calling q' next => cases h; exact ⟨next,rfl⟩
  | _ => cases h

end Conf

namespace Kernel

/-- Run up to the next suspension, following loop heads; a label without code ends
the thread. -/
def segment (code : L → Option (Proc S W Q R L)) :
    ℕ → Proc S W Q R L → S → Option (S × Proc.Stop S W Q R L)
  | 0, _, _ => none
  | n+1, p, s =>
    match p.run s with
    | (s',.ret l) =>
      match code l with
      | none => some (s',.ret l)
      | some body => segment code n body s'
    | x => some x

/-- An evaluation succeeds when every body that ends at once continues with a loop of
lower rank, and the fuel covers the ranks. -/
theorem segment_isSome {code : L → Option (Proc S W Q R L)} {rank : L → ℕ}
    (hcode : ∀ l body s, code l = some body → body.wp Proc.ending (fun l' _ => rank l' < rank l) s)
    {n : ℕ} {p : Proc S W Q R L} {s : S} (hp : p.wp Proc.ending (fun l _ => rank l < n) s) :
    (segment code (n+1) p s).isSome := by
  induction n generalizing p s with
  | zero =>
    induction p generalizing s with
    | ret l => exact absurd hp (Nat.not_lt_zero _)
    | get next ih => exact ih _ hp
    | set s₁ next ih => exact ih hp
    | wait w next => rfl
    | call q next => rfl
  | succ n ihn =>
    induction p generalizing s with
    | ret l =>
      have hl : rank l ≤ n := Nat.lt_succ_iff.mp hp
      simp only [segment,Proc.run]
      cases hc : code l with
      | none => rfl
      | some body =>
        exact ihn (Proc.wp_mono Proc.ending_monotone body
          (fun l' _ h => Nat.lt_of_lt_of_le h hl) s (hcode l body s hc))
    | get next ih => exact ih _ hp
    | set s₁ next ih => exact ih hp
    | wait w next => rfl
    | call q next => rfl

variable (M : Kernel S W Q R L A E T)

def park (now : ℕ) : Proc.Stop S W Q R L → Thread S W Q R L
  | .ret _ => .idle
  | .wait w next => .waiting w ((M.delay w).map (now + ·)) next
  | .call q next => .calling q next

variable [DecidableEq T] [Fintype T]

def step (c : Conf S W Q R L T) : Label R A E T → Option (Conf S W Q R L T)
  | .eval t =>
    match c.thread t with
    | .ready _ p => (segment M.code M.fuel p c.state).map fun x =>
        ⟨c.now,x.1,Function.update c.thread t (M.park c.now x.2)⟩
    | _ => none
  | .act a => (M.act a c.state).map fun s => ⟨c.now,s,c.thread⟩
  | .enter t e =>
    match c.thread t with
    | .idle => (M.entry t e).map fun p =>
        ⟨c.now,c.state,Function.update c.thread t (.ready .start p)⟩
    | _ => none
  | .reply t r =>
    match c.thread t with
    | .calling q next => some
        ⟨c.now,c.state,Function.update c.thread t (.ready (.returned q r) (next r))⟩
    | _ => none
  | .delta =>
    if ∀ t, (c.thread t).isReady = false then
      some ⟨c.now,M.update c.state,fun t => (c.thread t).notify (M.wakes · c.state)⟩
    else none
  | .advance d =>
    if 0 < d ∧ M.quiet c.state = true ∧
        ∀ t, (c.thread t).isReady = false ∧ (c.thread t).pendingAfter (c.now + d) = true then
      some ⟨c.now + d,c.state,fun t => (c.thread t).expire (c.now + d)⟩
    else none

end Kernel

/-- A history variable of a run. -/
structure Watch (γ S W Q R L A E T : Type) where
  init : γ
  next : γ → Conf S W Q R L T → Label R A E T → Conf S W Q R L T → γ

def noWatch : Watch Unit S W Q R L A E T := ⟨(),fun _ _ _ _ => ()⟩

def Watch.pair {δ : Type} (w : Watch γ S W Q R L A E T) (v : Watch δ S W Q R L A E T) :
    Watch (γ × δ) S W Q R L A E T :=
  ⟨(w.init,v.init),fun g c l c' => (w.next g.1 c l c',v.next g.2 c l c')⟩

/-- Configurations reached by runs all of whose steps meet `ok`, with the value the
history variable has there. -/
inductive Reach [DecidableEq T] [Fintype T] (M : Kernel S W Q R L A E T)
    (boot : Conf S W Q R L T) (w : Watch γ S W Q R L A E T)
    (ok : γ → Conf S W Q R L T → Label R A E T → Prop) : γ → Conf S W Q R L T → Prop
  | boot : Reach M boot w ok w.init boot
  | step {g c l c'} : Reach M boot w ok g c → ok g c l → M.step c l = some c' →
      Reach M boot w ok (w.next g c l c') c'

/-- A step taken in some run from the initial configuration. -/
structure Taken [DecidableEq T] [Fintype T] (M : Kernel S W Q R L A E T) (boot : Conf S W Q R L T)
    (w : Watch γ S W Q R L A E T) (ok : γ → Conf S W Q R L T → Label R A E T → Prop) (g : γ)
    (c : Conf S W Q R L T) (l : Label R A E T) (c' : Conf S W Q R L T) : Prop where
  reach : Reach M boot w ok g c
  allowed : ok g c l
  step : M.step c l = some c'

/-- Run a list of scheduling decisions, each of which must be allowed. -/
def Kernel.play [DecidableEq T] [Fintype T] (M : Kernel S W Q R L A E T)
    (w : Watch γ S W Q R L A E T) (ok : γ → Conf S W Q R L T → Label R A E T → Prop)
    [∀ g c l, Decidable (ok g c l)] :
    List (Label R A E T) → γ → Conf S W Q R L T → Option (γ × Conf S W Q R L T)
  | [], g, c => some (g,c)
  | l::ls, g, c =>
    if ok g c l then
      match M.step c l with
      | none => none
      | some c' => M.play w ok ls (w.next g c l c') c'
    else none

/-- The scheduler is left no choice: each decision of the list is the only one allowed where it is
taken. -/
def Kernel.Forced [DecidableEq T] [Fintype T] (M : Kernel S W Q R L A E T)
    (w : Watch γ S W Q R L A E T) (ok : γ → Conf S W Q R L T → Label R A E T → Prop) :
    List (Label R A E T) → γ → Conf S W Q R L T → Prop
  | [], _, _ => True
  | l::ls, g, c => (∀ l', ok g c l' → l' = l) ∧
      ∀ c', M.step c l = some c' → M.Forced w ok ls (w.next g c l c') c'

section Steps
variable [DecidableEq T] [Fintype T] {M : Kernel S W Q R L A E T}
  {boot : Conf S W Q R L T} {w : Watch γ S W Q R L A E T}
  {ok ok' : γ → Conf S W Q R L T → Label R A E T → Prop}

theorem Reach.mono {g : γ} {c : Conf S W Q R L T} (h : Reach M boot w ok g c)
    (hok : ∀ g c l, ok g c l → ok' g c l) : Reach M boot w ok' g c := by
  induction h with
  | boot => exact .boot
  | step _ hl hs ih => exact .step ih (hok _ _ _ hl) hs

theorem Reach.forget {g : γ} {c : Conf S W Q R L T} (h : Reach M boot w ok g c) :
    Reach M boot noWatch (fun _ _ _ => True) () c := by
  induction h with
  | boot => exact .boot
  | step _ _ hs ih => exact .step ih trivial hs

theorem Reach.watched {δ : Type} {u : δ} {v : Watch δ S W Q R L A E T} {c : Conf S W Q R L T}
    (h : Reach M boot v (fun _ _ _ => True) u c) (w : Watch γ S W Q R L A E T) :
    ∃ g, Reach M boot w (fun _ _ _ => True) g c := by
  induction h with
  | boot => exact ⟨_,.boot⟩
  | step _ _ hs ih =>
    obtain ⟨g,hg⟩ := ih
    exact ⟨_,hg.step trivial hs⟩

theorem Reach.pair {δ : Type} {g : γ} {c : Conf S W Q R L T} (h : Reach M boot w ok g c)
    (v : Watch δ S W Q R L A E T) :
    ∃ u, Reach M boot (v.pair w) (fun x c l => ok x.2 c l) (u,g) c := by
  induction h with
  | boot => exact ⟨_,.boot⟩
  | step _ hl hs ih =>
    obtain ⟨u,hu⟩ := ih
    exact ⟨_,hu.step hl hs⟩

theorem Reach.image {δ : Type} {v : Watch δ S W Q R L A E T} (φ : γ → δ) (hinit : φ w.init = v.init)
    (hnext : ∀ g c l c', φ (w.next g c l c') = v.next (φ g) c l c') {g : γ} {c : Conf S W Q R L T}
    (h : Reach M boot w ok g c) : Reach M boot v (fun _ _ _ => True) (φ g) c := by
  induction h with
  | boot =>
    rw [hinit]
    exact .boot
  | step _ _ hs ih =>
    rw [hnext]
    exact ih.step trivial hs

theorem Reach.project {δ : Type} {v : Watch δ S W Q R L A E T}
    {okv : δ → Conf S W Q R L T → Label R A E T → Prop} (φ : γ → δ) (hinit : φ w.init = v.init)
    (hnext : ∀ g c l c', φ (w.next g c l c') = v.next (φ g) c l c')
    (hok : ∀ g c l, ok g c l → okv (φ g) c l) {g : γ} {c : Conf S W Q R L T}
    (h : Reach M boot w ok g c) : Reach M boot v okv (φ g) c := by
  induction h with
  | boot =>
    rw [hinit]
    exact .boot
  | step _ hl hs ih =>
    rw [hnext]
    exact ih.step (hok _ _ _ hl) hs

/-- A finer history can be kept of any run. -/
theorem Reach.lift {δ : Type} {v : Watch δ S W Q R L A E T}
    {okv : δ → Conf S W Q R L T → Label R A E T → Prop} (φ : γ → δ) (hinit : φ w.init = v.init)
    (hnext : ∀ g c l c', φ (w.next g c l c') = v.next (φ g) c l c') {u : δ} {c : Conf S W Q R L T}
    (h : Reach M boot v okv u c) : ∃ g, φ g = u ∧ Reach M boot w (fun g => okv (φ g)) g c := by
  induction h with
  | boot => exact ⟨w.init,hinit,.boot⟩
  | step _ hl hs ih =>
    obtain ⟨g,rfl,hg⟩ := ih
    exact ⟨_,hnext _ _ _ _,hg.step hl hs⟩

theorem Taken.forget {g : γ} {c c' : Conf S W Q R L T} {l : Label R A E T}
    (h : Taken M boot w ok g c l c') : Taken M boot noWatch (fun _ _ _ => True) () c l c' :=
  ⟨h.reach.forget,trivial,h.step⟩

section Play
variable [∀ g c l, Decidable (ok g c l)]

theorem play_cons {g : γ} {c c' : Conf S W Q R L T} {l : Label R A E T} (ls : List (Label R A E T))
    (hl : ok g c l) (hs : M.step c l = some c') :
    M.play w ok (l::ls) g c = M.play w ok ls (w.next g c l c') c' := by
  rw [Kernel.play,if_pos hl,hs]

theorem Reach.play {ls : List (Label R A E T)} {g g' : γ} {c c' : Conf S W Q R L T}
    (h : Reach M boot w ok g c) (hp : M.play w ok ls g c = some (g',c')) :
    Reach M boot w ok g' c' := by
  induction ls generalizing g c with
  | nil =>
    obtain ⟨rfl,rfl⟩ := Prod.mk.inj (Option.some.inj hp)
    exact h
  | cons l ls ih =>
    simp only [Kernel.play] at hp
    split at hp
    · rename_i hl
      cases hs : M.step c l with
      | none => simp [hs] at hp
      | some d => exact ih (h.step hl hs) (by simpa [hs] using hp)
    · cases hp

variable (M boot w ok)

/-- What a played run shows at its end is reachable. -/
theorem exists_reach (P : γ → Conf S W Q R L T → Prop) [∀ g c, Decidable (P g c)]
    (ls : List (Label R A E T))
    (h : (M.play w ok ls w.init boot).any (fun x => decide (P x.1 x.2)) = true) :
    ∃ g c, Reach M boot w ok g c ∧ P g c := by
  obtain ⟨x,hx,hP⟩ := (Option.any_eq_true _ _).mp h
  exact ⟨x.1,x.2,Reach.boot.play hx,of_decide_eq_true hP⟩

/-- What one more step of a played run shows happens in some run. -/
theorem exists_taken (l : Label R A E T) (P : γ → Conf S W Q R L T → Conf S W Q R L T → Prop)
    [∀ g c c', Decidable (P g c c')] (ls : List (Label R A E T))
    (h : (M.play w ok ls w.init boot).any (fun x => decide (ok x.1 x.2 l) &&
      (M.step x.2 l).any fun c' => decide (P x.1 x.2 c')) = true) :
    ∃ g c c', Taken M boot w ok g c l c' ∧ P g c c' := by
  obtain ⟨x,hx,hP⟩ := (Option.any_eq_true _ _).mp h
  obtain ⟨hok,hstep⟩ := (Bool.and_eq_true _ _).mp hP
  obtain ⟨c',hc',hP'⟩ := (Option.any_eq_true _ _).mp hstep
  exact ⟨x.1,x.2,c',⟨Reach.boot.play hx,of_decide_eq_true hok,hc'⟩,of_decide_eq_true hP'⟩

end Play

theorem step_eval {c c' : Conf S W Q R L T} {t : T} (h : M.step c (.eval t) = some c') :
    ∃ o p s stop, c.thread t = .ready o p ∧ Kernel.segment M.code M.fuel p c.state = some (s,stop) ∧
      c' = ⟨c.now,s,Function.update c.thread t (M.park c.now stop)⟩ := by
  simp only [Kernel.step] at h
  cases ht : c.thread t with
  | ready o p =>
    simp only [ht,Option.map_eq_some_iff] at h
    obtain ⟨x,hx,rfl⟩ := h
    exact ⟨o,p,x.1,x.2,rfl,hx,rfl⟩
  | _ => simp [ht] at h

theorem step_act {c c' : Conf S W Q R L T} {a : A} (h : M.step c (.act a) = some c') :
    ∃ s, M.act a c.state = some s ∧ c' = ⟨c.now,s,c.thread⟩ := by
  simp only [Kernel.step,Option.map_eq_some_iff] at h
  obtain ⟨s,hs,rfl⟩ := h
  exact ⟨s,hs,rfl⟩

theorem step_enter {c c' : Conf S W Q R L T} {t : T} {e : E}
    (h : M.step c (.enter t e) = some c') :
    ∃ p, c.thread t = .idle ∧ M.entry t e = some p ∧
      c' = ⟨c.now,c.state,Function.update c.thread t (.ready .start p)⟩ := by
  simp only [Kernel.step] at h
  split at h
  · rename_i ht
    obtain ⟨p,hp,rfl⟩ := Option.map_eq_some_iff.mp h
    exact ⟨p,ht,hp,rfl⟩
  · cases h

theorem step_reply {c c' : Conf S W Q R L T} {t : T} {r : R}
    (h : M.step c (.reply t r) = some c') :
    ∃ q next, c.thread t = .calling q next ∧
      c' = ⟨c.now,c.state,Function.update c.thread t (.ready (.returned q r) (next r))⟩ := by
  simp only [Kernel.step] at h
  split at h
  · rename_i q next ht
    exact ⟨q,next,ht,(Option.some.inj h).symm⟩
  · cases h

theorem step_delta {c c' : Conf S W Q R L T} (h : M.step c .delta = some c') :
    (∀ t, (c.thread t).isReady = false) ∧
      c' = ⟨c.now,M.update c.state,fun t => (c.thread t).notify (M.wakes · c.state)⟩ := by
  simp only [Kernel.step] at h
  split at h
  · rename_i hr
    exact ⟨hr,(Option.some.inj h).symm⟩
  · cases h

theorem step_advance {c c' : Conf S W Q R L T} {d : ℕ} (h : M.step c (.advance d) = some c') :
    0 < d ∧ M.quiet c.state = true ∧
      (∀ t, (c.thread t).isReady = false ∧ (c.thread t).pendingAfter (c.now + d) = true) ∧
      c' = ⟨c.now + d,c.state,fun t => (c.thread t).expire (c.now + d)⟩ := by
  simp only [Kernel.step] at h
  split at h
  · rename_i hr
    exact ⟨hr.1,hr.2.1,hr.2.2,(Option.some.inj h).symm⟩
  · cases h

end Steps
end Coop
