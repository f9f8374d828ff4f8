import Mathlib.Algebra.BigOperators.Group.Finset.Basic
import Mathlib.Algebra.Order.BigOperators.Group.Finset
import Mathlib.Logic.Relation
import Usb3Drd.Coop.Timeouts

/-! Instants of simulated time. Left to itself, a system whose notifications form no cycle
comes to rest after a bounded number of evaluations and update phases; if its evaluations
commute, it comes to rest in one configuration only, and so evolves in one way. -/
namespace Coop

variable {S W Q R L A E T K : Type} [DecidableEq T] [Fintype T]

/-- A step that the system takes by itself and that takes no time: an evaluation, or an update
phase that has something to do. -/
inductive Inner (M : Kernel S W Q R L A E T) (c c' : Conf S W Q R L T) : Prop
  | eval {t : T} (hs : M.step c (.eval t) = some c')
  | delta (hq : M.quiet c.state = false) (hs : M.step c .delta = some c')

def Still (M : Kernel S W Q R L A E T) (c : Conf S W Q R L T) : Prop :=
  (∀ t, (c.thread t).isReady = false) ∧ M.quiet c.state = true

instance (M : Kernel S W Q R L A E T) (c : Conf S W Q R L T) : Decidable (Still M c) :=
  inferInstanceAs (Decidable (_ ∧ _))

/-- A stretch of a run within one instant, with the number of its inner steps and of what the
environment did meanwhile. -/
inductive Within (M : Kernel S W Q R L A E T) (c : Conf S W Q R L T) :
    ℕ → ℕ → Conf S W Q R L T → Prop
  | refl : Within M c 0 0 c
  | inner {i e d d'} : Within M c i e d → Inner M d d' → Within M c (i+1) e d'
  | act {i e d d' a} : Within M c i e d → M.step d (.act a) = some d' → Within M c i (e+1) d'
  | enter {i e d d' t x} : Within M c i e d → M.step d (.enter t x) = some d' → Within M c i (e+1) d'
  | reply {i e d d' t r} : Within M c i e d → M.step d (.reply t r) = some d' → Within M c i (e+1) d'

/-- Which channels of notification a thread may set off, and which threads a channel may wake,
with what each of them may cost. -/
structure Wiring (S T K : Type) where
  pending : K → S → Bool
  drives : T → K → Bool
  stirs : K → T → Bool
  load : T → ℕ
  charge : K → ℕ

section Costs
variable [Fintype K]

/-- The costs cover what follows: notifications go round in no circle. -/
structure Wiring.Acyclic (N : Wiring S T K) : Prop where
  load t : ∑ k with N.drives t k = true, N.charge k < N.load t
  charge k : ∑ t with N.stirs k t = true, N.load t < N.charge k

/-- The kernel notifies along the wiring in the configurations `I`. -/
structure Wiring.Fits (N : Wiring S T K) (M : Kernel S W Q R L A E T)
    (I : Conf S W Q R L T → Prop) : Prop where
  eval : ∀ c t c', I c → M.step c (.eval t) = some c' → ∀ k, N.pending k c'.state = true →
    N.pending k c.state = true ∨ N.drives t k = true
  wakes : ∀ c t w due next, I c → c.thread t = .waiting w due next → M.wakes w c.state = true →
    ∃ k, N.pending k c.state = true ∧ N.stirs k t = true
  quiet : ∀ s, M.quiet s = false → ∃ k, N.pending k s = true
  update : ∀ s k, N.pending k (M.update s) = false

omit [Fintype K] in
theorem Wiring.Fits.mono {N : Wiring S T K} {M : Kernel S W Q R L A E T}
    {I J : Conf S W Q R L T → Prop} (h : N.Fits M I) (hJ : ∀ c, J c → I c) : N.Fits M J where
  eval c t c' hc := h.eval c t c' (hJ c hc)
  wakes c t w due next hc := h.wakes c t w due next (hJ c hc)
  quiet := h.quiet
  update := h.update

namespace Wiring
variable (N : Wiring S T K)

def potential (c : Conf S W Q R L T) : ℕ :=
  ∑ t with (c.thread t).isReady = true, N.load t + ∑ k with N.pending k c.state = true, N.charge k

def bound : ℕ := ∑ t, N.load t + ∑ k, N.charge k

omit [DecidableEq T] in
theorem potential_le (c : Conf S W Q R L T) : N.potential c ≤ N.bound :=
  Nat.add_le_add (Finset.sum_le_sum_of_subset (Finset.filter_subset _ _))
    (Finset.sum_le_sum_of_subset (Finset.filter_subset _ _))

variable {N} {M : Kernel S W Q R L A E T} {I : Conf S W Q R L T → Prop} {c c' : Conf S W Q R L T}

/-- Every inner step uses up some of what is left to do. -/
theorem eval_lt (hN : N.Acyclic) (hM : N.Fits M I) (hc : I c) {t : T}
    (hs : M.step c (.eval t) = some c') : N.potential c' < N.potential c := by
  have hpending := hM.eval c t c' hc hs
  obtain ⟨o,p,s,stop,ht,-,rfl⟩ := step_eval hs
  have hpark : (M.park c.now stop).isReady = false := by cases stop <;> rfl
  have hready : (Finset.univ.filter fun u =>
      ((Function.update c.thread t (M.park c.now stop)) u).isReady = true) =
        (Finset.univ.filter fun u => (c.thread u).isReady = true).erase t := by
    ext u
    by_cases hu : u = t
    · subst hu
      simp [hpark]
    · simp [hu]
  have hmem : t ∈ Finset.univ.filter fun u => (c.thread u).isReady = true :=
    Finset.mem_filter.mpr ⟨Finset.mem_univ t,by rw [ht]; rfl⟩
  have hload := Finset.sum_erase_add _ N.load hmem
  have hcharge : ∑ k with N.pending k s = true, N.charge k ≤
      ∑ k with N.pending k c.state = true, N.charge k + ∑ k with N.drives t k = true, N.charge k := by
    classical
    rw [← Finset.sum_union_inter]
    refine le_trans (Finset.sum_le_sum_of_subset fun k hk => ?_) (Nat.le_add_right _ _)
    simpa using hpending k (by simpa using hk)
  have hdrives := hN.load t
  simp only [potential,hready]
  omega

theorem delta_lt (hN : N.Acyclic) (hM : N.Fits M I) (hc : I c) (hq : M.quiet c.state = false)
    (hs : M.step c .delta = some c') : N.potential c' < N.potential c := by
  obtain ⟨hidle,rfl⟩ := step_delta hs
  have hwoken : ∀ t, ((c.thread t).notify (M.wakes · c.state)).isReady = true →
      ∃ k, N.pending k c.state = true ∧ N.stirs k t = true := by
    intro t ht
    cases hth : c.thread t with
    | waiting w due next =>
      refine hM.wakes c t w due next hc hth ?_
      by_contra hw
      simp [hth,Thread.notify,hw,Thread.isReady] at ht
    | ready o p =>
      have hready := hidle t
      simp [hth,Thread.isReady] at hready
    | _ => simp [hth,Thread.notify,Thread.isReady] at ht
  have hload : ∑ t with ((c.thread t).notify (M.wakes · c.state)).isReady = true, N.load t ≤
      ∑ k with N.pending k c.state = true, ∑ t with N.stirs k t = true, N.load t := by
    simp only [Finset.sum_filter (N.stirs _ · = true)]
    rw [Finset.sum_comm,Finset.sum_filter]
    refine Finset.sum_le_sum fun t _ => ?_
    split
    · rename_i ht
      obtain ⟨k,hk,hkt⟩ := hwoken t ht
      calc N.load t = if N.stirs k t = true then N.load t else 0 := (if_pos hkt).symm
        _ ≤ _ := Finset.single_le_sum (f := fun k => if N.stirs k t = true then N.load t else 0)
          (fun _ _ => Nat.zero_le _) (by simpa using hk)
    · exact Nat.zero_le _
  obtain ⟨k,hk⟩ := hM.quiet c.state hq
  have hcharge : ∑ k with N.pending k c.state = true, ∑ t with N.stirs k t = true, N.load t <
      ∑ k with N.pending k c.state = true, N.charge k :=
    Finset.sum_lt_sum_of_nonempty ⟨k,by simpa using hk⟩ fun k _ => hN.charge k
  have hnone : ∑ k with N.pending k (M.update c.state) = true, N.charge k = 0 := by
    simp [hM.update]
  simp only [potential,hnone]
  omega

theorem inner_lt (hN : N.Acyclic) (hM : N.Fits M I) (hc : I c) (hs : Inner M c c') :
    N.potential c' < N.potential c := by
  cases hs with
  | eval hs => exact eval_lt hN hM hc hs
  | delta hq hs => exact delta_lt hN hM hc hq hs

/-- What a stretch of an instant costs is bounded by what it began with and by how often the
environment interfered. -/
theorem within_le (hN : N.Acyclic) (hM : N.Fits M I)
    (hkeeps : ∀ c l c', I c → M.step c l = some c' → I c') (hc : I c) {i e : ℕ}
    {d : Conf S W Q R L T} (h : Within M c i e d) : i + N.potential d ≤ N.potential c + e * N.bound ∧ I d := by
  have hstimulus : ∀ {i e : ℕ} {d d' : Conf S W Q R L T},
      i + N.potential d ≤ N.potential c + e * N.bound →
        i + N.potential d' ≤ N.potential c + (e+1) * N.bound := by
    intro i e d d' hle
    have hbound := N.potential_le d'
    rw [Nat.succ_mul]
    omega
  induction h with
  | refl => exact ⟨by omega,hc⟩
  | inner _ hs ih =>
    have hlt := inner_lt hN hM ih.2 hs
    refine ⟨by omega,?_⟩
    cases hs with
    | eval hs => exact hkeeps _ _ _ ih.2 hs
    | delta _ hs => exact hkeeps _ _ _ ih.2 hs
  | act _ hs ih => exact ⟨hstimulus ih.1,hkeeps _ _ _ ih.2 hs⟩
  | enter _ hs ih => exact ⟨hstimulus ih.1,hkeeps _ _ _ ih.2 hs⟩
  | reply _ hs ih => exact ⟨hstimulus ih.1,hkeeps _ _ _ ih.2 hs⟩

end Wiring

end Costs

section Rest
variable {M : Kernel S W Q R L A E T} {c c' d d' : Conf S W Q R L T}

theorem Still.rests (h : Still M c) : ¬Inner M c c' := by
  rintro (hs | ⟨hq,-⟩)
  · rename_i t
    obtain ⟨_,_,_,_,ht,-⟩ := step_eval hs
    have hready := h.1 t
    rw [ht] at hready
    cases hready
  · rw [h.2] at hq
    cases hq

theorem exists_inner (heval : ∀ t, (c.thread t).isReady = true → (M.step c (.eval t)).isSome)
    (h : ¬Still M c) : ∃ c', Inner M c c' := by
  by_contra hnone
  have hidle : ∀ t, (c.thread t).isReady = false := by
    intro t
    by_contra ht
    obtain ⟨c',hc'⟩ := Option.isSome_iff_exists.mp (heval t (by simpa using ht))
    exact hnone ⟨c',.eval hc'⟩
  refine h ⟨hidle,?_⟩
  by_contra hq
  have hs : M.step c .delta =
      some ⟨c.now,M.update c.state,fun t => (c.thread t).notify (M.wakes · c.state)⟩ := if_pos hidle
  exact hnone ⟨_,.delta (by simpa using hq) hs⟩

/-- Inner steps that differ can be joined by one more step each. -/
theorem inner_diamond
    (hcomm : ∀ t u d d', t ≠ u → M.step c (.eval t) = some d → M.step c (.eval u) = some d' →
      ∃ f, M.step d (.eval u) = some f ∧ M.step d' (.eval t) = some f)
    (hd : Inner M c d) (hd' : Inner M c d') :
    d = d' ∨ ∃ f, Inner M d f ∧ Inner M d' f := by
  have hclash : ∀ {t d d'}, M.step c (.eval t) = some d → M.step c .delta ≠ some d' := by
    intro t d d' hs hs'
    obtain ⟨o,p,_,_,ht,-⟩ := step_eval hs
    have hready := (step_delta hs').1 t
    rw [ht] at hready
    cases hready
  cases hd with
  | @eval t hs =>
    cases hd' with
    | @eval u hs' =>
      by_cases htu : t = u
      · subst htu
        exact .inl (Option.some.inj (hs.symm.trans hs'))
      · obtain ⟨f,hf,hf'⟩ := hcomm t u d d' htu hs hs'
        exact .inr ⟨f,.eval hf,.eval hf'⟩
    | delta _ hs' => exact absurd hs' (hclash hs)
  | delta _ hs =>
    cases hd' with
    | eval hs' => exact absurd hs (hclash hs')
    | delta _ hs' => exact .inl (Option.some.inj (hs.symm.trans hs'))

def Ahead (c : Conf S W Q R L T) : Prop :=
  ∀ t w due next, c.thread t = .waiting w (some due) next → c.now < due

theorem step_ahead {l : Label R A E T} (hdelay : ∀ w k, M.delay w = some k → 0 < k)
    (h : Ahead c) (hs : M.step c l = some c') : Ahead c' := by
  have hupdate : ∀ (s : S) (u : T) (th : Thread S W Q R L),
      (∀ w due next, th = .waiting w (some due) next → c.now < due) →
        Ahead ⟨c.now,s,Function.update c.thread u th⟩ := by
    intro s u th hth t w due next ht
    by_cases htu : t = u
    · subst htu
      simp only [Function.update_self] at ht
      exact hth w due next ht
    · simp only [Function.update_of_ne htu] at ht
      exact h t w due next ht
  cases l with
  | eval u =>
    obtain ⟨o,p,s,stop,-,-,rfl⟩ := step_eval hs
    refine hupdate s u _ fun w due next hw => ?_
    cases stop with
    | ret l => cases hw
    | wait w' next' =>
      obtain ⟨rfl,hdue,rfl⟩ := Thread.waiting.inj hw
      obtain ⟨k,hk,rfl⟩ := Option.map_eq_some_iff.mp hdue
      exact Nat.lt_add_of_pos_right (hdelay w' k hk)
    | call q next' => cases hw
  | act a => obtain ⟨s,-,rfl⟩ := step_act hs; exact h
  | enter u e =>
    obtain ⟨p,-,-,rfl⟩ := step_enter hs
    exact hupdate _ u _ (by simp)
  | reply u r =>
    obtain ⟨q,next,-,rfl⟩ := step_reply hs
    exact hupdate _ u _ (by simp)
  | delta =>
    obtain ⟨-,rfl⟩ := step_delta hs
    intro t w due next ht
    cases hth : c.thread t with
    | waiting w' due' next' =>
      simp only [hth,Thread.notify] at ht
      split at ht
      · cases ht
      · cases ht; exact h t _ _ _ hth
    | _ => simp [hth,Thread.notify] at ht
  | advance d =>
    obtain ⟨-,-,hpast,rfl⟩ := step_advance hs
    intro t w due next ht
    cases hth : c.thread t with
    | waiting w' due' next' =>
      simp only [hth,Thread.expire] at ht
      split at ht
      · cases ht
      · rename_i hne
        cases ht
        have hle := (hpast t).2
        simp only [hth,Thread.pendingAfter,decide_eq_true_eq] at hle
        exact lt_of_le_of_ne hle fun heq => hne (congrArg some heq.symm)
    | _ => simp [hth,Thread.expire] at ht

inductive Alone (M : Kernel S W Q R L A E T) (c c' : Conf S W Q R L T) : Prop
  | inner (h : Inner M c c')
  | advance {d : ℕ} (hs : M.step c (.advance d) = some c')

def Conf.tick (c : Conf S W Q R L T) : Conf S W Q R L T :=
  ⟨c.now + 1,c.state,fun t => (c.thread t).expire (c.now + 1)⟩

theorem step_tick (h : Still M c) (hahead : Ahead c) : M.step c (.advance 1) = some c.tick := by
  refine if_pos ⟨Nat.one_pos,h.2,fun t => ⟨h.1 t,?_⟩⟩
  cases hth : c.thread t with
  | waiting w due next =>
    cases due with
    | none => rfl
    | some due => exact decide_eq_true (hahead t w due next hth)
  | _ => rfl

theorem advance_tick {k : ℕ} (hk : 0 < k) (hs : M.step c (.advance (k+1)) = some c') :
    M.step c.tick (.advance k) = some c' := by
  obtain ⟨-,hquiet,hpast,rfl⟩ := step_advance hs
  have hsame : ∀ t, (c.thread t).expire (c.now + 1) = c.thread t := by
    intro t
    cases hth : c.thread t with
    | waiting w due next =>
      refine if_neg fun hdue => ?_
      have hle := (hpast t).2
      simp only [hth,hdue,Thread.pendingAfter,decide_eq_true_eq] at hle
      omega
    | _ => rfl
  have hnow : c.now + 1 + k = c.now + (k+1) := by omega
  have htick : c.tick = ⟨c.now + 1,c.state,c.thread⟩ := by
    rw [Conf.tick,funext hsame]
  rw [htick]
  simp only [Kernel.step,hnow]
  exact if_pos ⟨hk,hquiet,hpast⟩

theorem Inner.now_eq (h : Inner M c c') : c'.now = c.now := by
  cases h with
  | eval hs => obtain ⟨_,_,_,_,-,-,rfl⟩ := step_eval hs; rfl
  | delta _ hs => obtain ⟨-,rfl⟩ := step_delta hs; rfl

theorem Alone.now_le (h : Alone M c c') : c.now ≤ c'.now := by
  cases h with
  | inner h => exact h.now_eq.ge
  | advance hs => obtain ⟨-,-,-,rfl⟩ := step_advance hs; exact Nat.le_add_right _ _

theorem alone_now_le (h : Relation.ReflTransGen (Alone M) c d) : c.now ≤ d.now := by
  induction h with
  | refl => exact le_rfl
  | tail _ hs ih => exact ih.trans hs.now_le

theorem inner_now_eq (h : Relation.ReflTransGen (Inner M) c d) : d.now = c.now := by
  induction h with
  | refl => rfl
  | tail _ hs ih => exact hs.now_eq.trans ih

theorem inner_alone (h : Relation.ReflTransGen (Inner M) c d) : Relation.ReflTransGen (Alone M) c d :=
  Relation.ReflTransGen.mono (fun _ _ => Alone.inner) _ _ h

def Label.isStimulus : Label R A E T → Bool
  | .act _ => true
  | .enter _ _ => true
  | .reply _ _ => true
  | _ => false

/-- The system receives each stimulus at its time, while it rests, is left to itself between
them, and rests in `d` at the time `now`. -/
def Follows (M : Kernel S W Q R L A E T) (now : ℕ) (d : Conf S W Q R L T) :
    List (ℕ × Label R A E T) → Conf S W Q R L T → Prop
  | [], c => Relation.ReflTransGen (Alone M) c d ∧ Still M d ∧ d.now = now
  | (time,l)::rest, c => ∃ e f, Relation.ReflTransGen (Alone M) c e ∧ Still M e ∧ e.now = time ∧
      l.isStimulus = true ∧ M.step e l = some f ∧ Follows M now d rest f

def Kernel.evalAll (M : Kernel S W Q R L A E T) :
    List T → Conf S W Q R L T → Option (Conf S W Q R L T)
  | [], c => some c
  | t::ts, c => (M.step c (.eval t)).bind (M.evalAll ts)

/-- The next inner step of a scheduler that evaluates the first runnable thread of a list. -/
def Kernel.next (M : Kernel S W Q R L A E T) (order : List T) (c : Conf S W Q R L T) :
    Option (Conf S W Q R L T) :=
  match order.find? fun t => (c.thread t).isReady with
  | some t => M.step c (.eval t)
  | none => if M.quiet c.state = true then none else M.step c .delta

def Kernel.settle (M : Kernel S W Q R L A E T) (order : List T) :
    ℕ → Conf S W Q R L T → Conf S W Q R L T
  | 0, c => c
  | k+1, c => ((M.next order c).map (M.settle order k)).getD c

theorem next_inner {order : List T} (h : M.next order c = some c') : Inner M c c' := by
  simp only [Kernel.next] at h
  split at h
  · exact .eval h
  · split at h
    · cases h
    · rename_i hq
      exact .delta (by simpa using hq) h

theorem settle_path (order : List T) (k : ℕ) (c : Conf S W Q R L T) :
    Relation.ReflTransGen (Inner M) c (M.settle order k c) := by
  induction k generalizing c with
  | zero => exact .refl
  | succ k ih =>
    rw [Kernel.settle]
    cases hnext : M.next order c with
    | none => exact .refl
    | some c' => exact .head (next_inner hnext) (ih c')

end Rest

/-- What makes a system determinate, in configurations `J` that it does not leave by itself:
its notifications form no cycle, its evaluations end and commute, and timeouts lie ahead. -/
structure Determinate (M : Kernel S W Q R L A E T) (N : Wiring S T K) [Fintype K]
    (J : Conf S W Q R L T → Prop) : Prop where
  acyclic : N.Acyclic
  fits : N.Fits M J
  evaluates : ∀ c t, J c → (c.thread t).isReady = true → (M.step c (.eval t)).isSome
  commutes : ∀ c t u d d', J c → t ≠ u → M.step c (.eval t) = some d → M.step c (.eval u) = some d' →
    ∃ f, M.step d (.eval u) = some f ∧ M.step d' (.eval t) = some f
  keeps : ∀ c c', J c → Alone M c c' → J c'
  ahead : ∀ c, J c → Ahead c

section Determinate
variable [Fintype K] {M : Kernel S W Q R L A E T} {N : Wiring S T K}
  {J : Conf S W Q R L T → Prop} {c c' d d' : Conf S W Q R L T}

/-- An instant comes to rest in one configuration only. -/
theorem Determinate.outcome (h : Determinate M N J) (hc : J c) :
    ∃! d, Relation.ReflTransGen (Inner M) c d ∧ Still M d := by
  induction hn : N.potential c using Nat.strong_induction_on generalizing c with
  | _ n ih =>
    subst hn
    by_cases hstill : Still M c
    · refine ⟨c,⟨.refl,hstill⟩,fun e he => ?_⟩
      rcases Relation.ReflTransGen.cases_head he.1 with rfl | ⟨c₁,h₁,-⟩
      · rfl
      · exact absurd h₁ hstill.rests
    · obtain ⟨c₁,h₁⟩ := exists_inner (fun t => h.evaluates c t hc) hstill
      have hless : ∀ {c'}, Inner M c c' → N.potential c' < N.potential c :=
        fun hs => Wiring.inner_lt h.acyclic h.fits hc hs
      have hkeep : ∀ {c'}, Inner M c c' → J c' := fun hs => h.keeps _ _ hc (.inner hs)
      obtain ⟨d,⟨hd,hrest⟩,honly⟩ := ih _ (hless h₁) (hkeep h₁) rfl
      refine ⟨d,⟨.head h₁ hd,hrest⟩,fun e he => ?_⟩
      rcases Relation.ReflTransGen.cases_head he.1 with rfl | ⟨c₂,h₂,hpath⟩
      · exact absurd he.2 hstill
      obtain ⟨d₂,-,honly₂⟩ := ih _ (hless h₂) (hkeep h₂) rfl
      rcases inner_diamond (fun t u d d' => h.commutes c t u d d' hc) h₁ h₂ with rfl | ⟨f,hf,hf'⟩
      · exact honly e ⟨hpath,he.2⟩
      · have hlt := Wiring.inner_lt h.acyclic h.fits (hkeep h₁) hf
        obtain ⟨x,⟨hx,hxrest⟩,-⟩ := ih _ (hlt.trans (hless h₁)) (h.keeps _ _ (hkeep h₁) (.inner hf)) rfl
        calc e = d₂ := honly₂ e ⟨hpath,he.2⟩
          _ = x := (honly₂ x ⟨.head hf' hx,hxrest⟩).symm
          _ = d := honly x ⟨.head hf hx,hxrest⟩

theorem Determinate.keeps_inner (h : Determinate M N J) (hc : J c)
    (hd : Relation.ReflTransGen (Inner M) c d) : J d := by
  induction hd with
  | refl => exact hc
  | tail _ hs ih => exact h.keeps _ _ ih (.inner hs)

theorem Determinate.settle_still (h : Determinate M N J) {order : List T} (horder : ∀ t, t ∈ order)
    (hc : J c) {k : ℕ} (hk : N.potential c ≤ k) : Still M (M.settle order k c) := by
  have hrest : ∀ {c}, J c → M.next order c = none → Still M c := by
    intro c hc hnext
    simp only [Kernel.next] at hnext
    split at hnext
    · rename_i t hfind
      have hready : (c.thread t).isReady = true := by simpa using List.find?_some hfind
      have hsome := h.evaluates c t hc hready
      rw [hnext] at hsome
      cases hsome
    · rename_i hfind
      have hidle : ∀ t, (c.thread t).isReady = false := by
        intro t
        simpa using List.find?_eq_none.mp hfind t (horder t)
      split at hnext
      · rename_i hq
        exact ⟨hidle,hq⟩
      · simp only [Kernel.step,if_pos hidle,reduceCtorEq] at hnext
  induction k generalizing c with
  | zero =>
    refine hrest hc ?_
    by_contra hsome
    obtain ⟨c',hc'⟩ := Option.ne_none_iff_exists'.mp hsome
    have hlt := Wiring.inner_lt h.acyclic h.fits hc (next_inner hc')
    omega
  | succ k ih =>
    rw [Kernel.settle]
    cases hnext : M.next order c with
    | none => exact hrest hc hnext
    | some c' =>
      have hinner := next_inner hnext
      have hlt := Wiring.inner_lt h.acyclic h.fits hc hinner
      exact ih (h.keeps _ _ hc (.inner hinner)) (by omega)

/-- Whatever the order of its evaluations, an instant ends where the scheduler over a list does. -/
theorem Determinate.settles (h : Determinate M N J) {order : List T} (horder : ∀ t, t ∈ order)
    (hc : J c) {k : ℕ} (hk : N.potential c ≤ k) :
    Relation.ReflTransGen (Inner M) c d ∧ Still M d ↔ d = M.settle order k c := by
  have hsettled := And.intro (settle_path (M := M) order k c) (h.settle_still horder hc hk)
  constructor
  · intro hd
    exact (h.outcome hc).unique hd hsettled
  · rintro rfl
    exact hsettled

theorem Determinate.passes (h : Determinate M N J) (hpath : Relation.ReflTransGen (Alone M) c d)
    (hd : Still M d) (hc : J c) {e : Conf S W Q R L T} (he : Relation.ReflTransGen (Inner M) c e)
    (hrest : Still M e) :
    d = e ∨ c.now < d.now ∧ Relation.ReflTransGen (Alone M) e.tick d := by
  induction hpath using Relation.ReflTransGen.head_induction_on with
  | refl => exact .inl ((h.outcome hc).unique ⟨.refl,hd⟩ ⟨he,hrest⟩)
  | @head a b hs hpath ih =>
    cases hs with
    | inner hs =>
      have hb := h.keeps _ _ hc (.inner hs)
      obtain ⟨e',⟨he',hrest'⟩,-⟩ := h.outcome hb
      obtain rfl : e = e' := (h.outcome hc).unique ⟨he,hrest⟩ ⟨.head hs he',hrest'⟩
      rw [← hs.now_eq]
      exact ih hb he'
    | @advance k hs =>
      have hle := alone_now_le hpath
      obtain ⟨hpos,hquiet,hidle,rfl⟩ := step_advance hs
      obtain rfl : e = a :=
        (h.outcome hc).unique ⟨he,hrest⟩ ⟨.refl,fun t => (hidle t).1,hquiet⟩
      refine .inr ⟨lt_of_lt_of_le (Nat.lt_add_of_pos_right hpos) hle,?_⟩
      obtain ⟨k,rfl⟩ := Nat.exists_eq_succ_of_ne_zero hpos.ne'
      cases k with
      | zero => exact hpath
      | succ k => exact .head (.advance (advance_tick (Nat.succ_pos k) hs)) hpath

/-- Left to itself, the system rests at each later time in one configuration only. -/
theorem Determinate.evolution (h : Determinate M N J) (hc : J c) {now : ℕ} (hnow : c.now ≤ now) :
    ∃! d, Relation.ReflTransGen (Alone M) c d ∧ Still M d ∧ d.now = now := by
  obtain ⟨k,rfl⟩ := Nat.exists_eq_add_of_le hnow
  clear hnow
  induction k generalizing c with
  | zero =>
    obtain ⟨e,⟨he,hrest⟩,-⟩ := h.outcome hc
    refine ⟨e,⟨inner_alone he,hrest,inner_now_eq he⟩,fun d ⟨hd,hdrest,hdnow⟩ => ?_⟩
    rcases h.passes hd hdrest hc he hrest with rfl | ⟨hlt,-⟩
    · rfl
    · omega
  | succ k ih =>
    obtain ⟨e,⟨he,hrest⟩,-⟩ := h.outcome hc
    have hJ := h.keeps_inner hc he
    have hs := step_tick hrest (h.ahead e hJ)
    have henow := inner_now_eq he
    have htick : e.tick.now + k = c.now + (k+1) := by
      show e.now + 1 + k = _
      omega
    obtain ⟨d,⟨hd,hdrest,hdnow⟩,honly⟩ := ih (h.keeps _ _ hJ (.advance hs))
    have hfrom := (inner_alone he).trans (.head (.advance hs) hd)
    refine ⟨d,⟨hfrom,hdrest,hdnow.trans htick⟩,fun x ⟨hx,hxrest,hxnow⟩ => ?_⟩
    rcases h.passes hx hxrest hc he hrest with rfl | ⟨-,hpath⟩
    · omega
    · exact honly x ⟨hpath,hxrest,hxnow.trans htick.symm⟩

theorem Determinate.keeps_alone (h : Determinate M N J) (hc : J c)
    (hd : Relation.ReflTransGen (Alone M) c d) : J d := by
  induction hd with
  | refl => exact hc
  | tail _ hs ih => exact h.keeps _ _ ih hs

/-- The timed sequence of its stimuli determines what becomes of the system. -/
theorem Determinate.follows (h : Determinate M N J)
    (hstimulus : ∀ c l c', J c → Still M c → l.isStimulus = true → M.step c l = some c' → J c')
    {now : ℕ} {stimuli : List (ℕ × Label R A E T)} (hc : J c) (hd : Follows M now d stimuli c)
    (hd' : Follows M now d' stimuli c) : d = d' := by
  induction stimuli generalizing c with
  | nil =>
    have hnow : c.now ≤ now := hd.2.2 ▸ alone_now_le hd.1
    exact (h.evolution hc hnow).unique hd hd'
  | cons x rest ih =>
    obtain ⟨time,l⟩ := x
    obtain ⟨e,f,he,hrest,htime,hl,hs,hf⟩ := hd
    obtain ⟨e',f',he',hrest',htime',-,hs',hf'⟩ := hd'
    have hnow : c.now ≤ time := htime ▸ alone_now_le he
    obtain rfl : e = e' := (h.evolution hc hnow).unique ⟨he,hrest,htime⟩ ⟨he',hrest',htime'⟩
    obtain rfl : f = f' := Option.some.inj (hs.symm.trans hs')
    exact ih (hstimulus e l f (h.keeps_alone hc he) hrest hl hs) hf hf'

theorem Determinate.evalAll_perm (h : Determinate M N J) {ts ts' : List T} (hperm : ts.Perm ts')
    (hc : J c) (hd : M.evalAll ts c = some d) : M.evalAll ts' c = some d := by
  induction hperm generalizing c d with
  | nil => exact hd
  | cons t _ ih =>
    obtain ⟨c₁,h₁,hrest⟩ := Option.bind_eq_some_iff.mp hd
    exact Option.bind_eq_some_iff.mpr ⟨c₁,h₁,ih (h.keeps _ _ hc (.inner (.eval h₁))) hrest⟩
  | swap t u ts =>
    obtain ⟨c₁,h₁,hrest⟩ := Option.bind_eq_some_iff.mp hd
    obtain ⟨c₂,h₂,hend⟩ := Option.bind_eq_some_iff.mp hrest
    by_cases htu : t = u
    · subst htu
      exact Option.bind_eq_some_iff.mpr ⟨c₁,h₁,Option.bind_eq_some_iff.mpr ⟨c₂,h₂,hend⟩⟩
    · have hready : (c.thread t).isReady = true := by
        obtain ⟨o,p,_,_,ht,-⟩ := step_eval h₂
        obtain ⟨_,_,_,_,-,-,rfl⟩ := step_eval h₁
        simp only [Function.update_of_ne htu] at ht
        rw [ht]
        rfl
      obtain ⟨c₁',h₁'⟩ := Option.isSome_iff_exists.mp (h.evaluates c t hc hready)
      obtain ⟨f,hf,hf'⟩ := h.commutes c t u c₁' c₁ hc htu h₁' h₁
      obtain rfl : f = c₂ := Option.some.inj (hf'.symm.trans h₂)
      exact Option.bind_eq_some_iff.mpr ⟨c₁',h₁',Option.bind_eq_some_iff.mpr ⟨f,hf,hend⟩⟩
  | trans _ _ ih ih' => exact ih' hc (ih hc hd)

end Determinate
end Coop
