import Mathlib.Data.Fintype.BigOperators
import Usb3Drd.Coop.Instant
import Usb3Drd.Effects

/-! Simulated time of the device. Its processes notify each other without a cycle, so every
instant ends; their evaluations commute, so it ends in one configuration, and what becomes
of the device depends on its stimuli and not on the scheduler. -/
namespace Usb3Drd
namespace Instants

open Coop

inductive Channel
  | ccState | vbus | irq | role | roleChanged | ccStateInt | vbusInt | hostEnable | xferDone
  | enumDone | devAddr | devEnable | bulkIrq | configured | roleRequest | trbComplete | outEp
  deriving DecidableEq

instance : Fintype Channel where
  elems := {.ccState,.vbus,.irq,.role,.roleChanged,.ccStateInt,.vbusInt,.hostEnable,.xferDone,
    .enumDone,.devAddr,.devEnable,.bulkIrq,.configured,.roleRequest,.trbComplete,.outEp}
  complete k := by cases k <;> decide

namespace Channel

def pending : Channel → Drd → Bool
  | .ccState, s => s.ccState.changes
  | .vbus, s => s.vbus.changes
  | .irq, s => s.irq.changes
  | .role, s => s.sigRole.changes
  | .roleChanged, s => s.sigRoleChanged.changes
  | .ccStateInt, s => s.sigCcStateInt.changes
  | .vbusInt, s => s.sigVbusInt.changes
  | .hostEnable, s => s.sigHostEnable.changes
  | .xferDone, s => s.sigXferDone.changes
  | .enumDone, s => s.sigEnumDone.changes
  | .devAddr, s => s.sigDevAddr.changes
  | .devEnable, s => s.sigDevEnable.changes
  | .bulkIrq, s => s.sigBulkIrq.changes
  | .configured, s => s.sigConfigured.changes
  | .roleRequest, s => s.roleMgr.mRoleRequestEvent
  | .trbComplete, s => s.hostCtrl.mTrbCompleteEvent
  | .outEp, s => s.devCtrl.mOutEpEvent

def stirs : Channel → Process → Bool
  | .ccState, p => p = .forwardInputs
  | .vbus, p => p = .forwardInputs
  | .ccStateInt, p => p = .roleDetectionProcess
  | .vbusInt, p => p = .roleDetectionProcess
  | .roleRequest, p => p = .roleDetectionProcess
  | .roleChanged, p => p = .roleSwitchMonitor ∨ p = .interruptCollector
  | .enumDone, p => p = .interruptCollector
  | .xferDone, p => p = .interruptCollector
  | .bulkIrq, p => p = .interruptCollector
  | .hostEnable, p => p = .hostMainProcess
  | .trbComplete, p => p = .hostMainProcess
  | .outEp, p => p = .loopbackProcess
  | _, _ => false

/-- What a pending channel may cost: one step, and what it wakes. -/
def charge : Channel → ℕ
  | .ccState => 38
  | .vbus => 38
  | .ccStateInt => 18
  | .vbusInt => 18
  | .roleRequest => 18
  | .roleChanged => 15
  | .hostEnable => 9
  | .trbComplete => 9
  | .outEp => 5
  | .enumDone => 3
  | .xferDone => 3
  | .bulkIrq => 3
  | _ => 1

end Channel

/-- The channels that a process may set off; `none` stands for an inbound call. -/
def drives : Option Process → Channel → Bool
  | some .roleDetectionProcess, k => k = .role ∨ k = .roleChanged
  | some .roleSwitchMonitor, k => k = .hostEnable ∨ k = .devEnable ∨ k = .irq
  | some .interruptCollector, k => k = .irq
  | some .forwardInputs, k => k = .ccStateInt ∨ k = .vbusInt
  | some .hostMainProcess, k => k = .xferDone ∨ k = .enumDone ∨ k = .devAddr
  | some .loopbackProcess, k => k = .bulkIrq
  | none, k => k = .configured ∨ k = .outEp

/-- What a runnable thread may cost: its evaluation, and what that sets off. -/
def load : Option Process → ℕ
  | some .roleDetectionProcess => 17
  | some .roleSwitchMonitor => 12
  | some .interruptCollector => 2
  | some .forwardInputs => 37
  | some .hostMainProcess => 8
  | some .loopbackProcess => 4
  | none => 7

def wiring (n : ℕ) : Wiring Drd (Tid n) Channel where
  pending := Channel.pending
  drives t := drives t.getLeft?
  stirs k t := t.elim k.stirs fun _ => false
  load t := load t.getLeft?
  charge := Channel.charge

variable {n : ℕ}

theorem wiring_acyclic : (wiring n).Acyclic where
  load t := by
    show ∑ k with drives t.getLeft? k = true, Channel.charge k < load t.getLeft?
    cases t.getLeft? with
    | none => decide
    | some p => cases p <;> decide
  charge k := by
    rw [Finset.sum_filter,Fintype.sum_sum_type]
    have hcalls : ∀ i : Fin n, (if (wiring n).stirs k (.inr i) = true then (wiring n).load (.inr i) else 0) = 0 :=
      fun i => rfl
    rw [Finset.sum_congr rfl fun i _ => hcalls i,Finset.sum_const_zero,Nat.add_zero]
    show ∑ p : Process, (if k.stirs p = true then load (some p) else 0) < k.charge
    cases k <;> decide

theorem wiring_bound : (wiring n).bound = 262 + 7 * n := by
  have hcalls : ∑ _i : Fin n, load none = 7 * n := by
    rw [Finset.sum_const,Finset.card_univ,Fintype.card_fin,smul_eq_mul,Nat.mul_comm]
    rfl
  have hproc : ∑ p : Process, load (some p) = 80 := by decide
  have hchan : ∑ k : Channel, k.charge = 182 := by decide
  rw [Wiring.bound,Fintype.sum_sum_type]
  show ∑ p : Process, load (some p) + ∑ _i : Fin n, load none + ∑ k : Channel, k.charge = _
  rw [hcalls,hproc,hchan]
  omega

section Fits

theorem effect_pending {p : Process} {e : Function.End Drd} (he : p.Effect e) {k : Channel}
    (hk : drives (some p) k = false) (s : Drd) : k.pending (e s) = k.pending s := by
  cases he with
  | raise hp bits =>
    have hirq : k ≠ .irq := by
      rintro rfl
      rcases hp with rfl | rfl <;> cases hk
    cases k with
    | irq => exact absurd rfl hirq
    | _ => dsimp only [DrdController.raiseIrq]; split <;> rfl
  | _ => cases k <;> first | rfl | cases hk

theorem callEffect_pending {e : Function.End Drd} (he : CallEffect e) {k : Channel}
    (hk : drives none k = false) (s : Drd) : k.pending (e s) = k.pending s := by
  cases he with
  | call => cases k <;> first | rfl | cases hk

theorem closure_pending {G : Set (Function.End Drd)} {k : Channel}
    (h : ∀ e ∈ G, ∀ s, k.pending (e s) = k.pending s) {e : Function.End Drd}
    (he : e ∈ Submonoid.closure G) (s : Drd) : k.pending (e s) = k.pending s := by
  induction he using Submonoid.closure_induction generalizing s with
  | mem x hx => exact h x hx s
  | one => rfl
  | mul x y _ _ hx hy => exact (hx (y s)).trans (hy s)

variable {A : Type} {act : A → Drd → Option Drd} {present : Process → Bool} {c c' : DrdConf n}

abbrev Reachable (act : A → Drd → Option Drd) (present : Process → Bool) (c : DrdConf n) : Prop :=
  Reach (kernelOf n act) (bootWith n present) noWatch (fun _ _ _ => True) () c

theorem eval_pending (hr : Reachable act present c) {t : Tid n}
    (hs : (kernelOf n act).step c (.eval t) = some c') {k : Channel}
    (hk : drives t.getLeft? k = false) : k.pending c'.state = k.pending c.state := by
  have hready : (c.thread t).isReady = true := by
    obtain ⟨_,_,_,_,ht,-⟩ := step_eval hs
    rw [ht]
    rfl
  obtain ⟨p,rfl,ht⟩ | ⟨⟨i,_,rfl,-⟩,ht⟩ | ⟨-,ht⟩ := runs_of_ready hr hready
  · obtain ⟨e,he,heq⟩ := ht.effect hs
    rw [heq]
    exact closure_pending (fun _ hx => effect_pending hx hk) he _
  · obtain ⟨e,he,heq⟩ := ht.effect hs
    rw [heq]
    exact closure_pending (fun _ hx => callEffect_pending hx hk) he _
  · obtain ⟨e,he,heq⟩ := ht.effect hs
    rw [heq,Submonoid.mem_bot.mp he]
    rfl

theorem wakes_stirs {s : Drd} {w : WaitPoint} (h : s.wakes w = true) :
    ∃ (p : Process) (k : Channel), w.owner = some p ∧ k.pending s = true ∧ k.stirs p = true := by
  have hrises : ∀ {x : Sig Bool}, x.rises = true → x.changes = true := by
    intro x hx
    simp only [Sig.rises_eq_true,Sig.changes_eq_true] at hx ⊢
    simp [hx]
  cases w with
  | roleInputs =>
    simp only [Drd.wakes,Bool.or_eq_true] at h
    obtain (h | h) | h := h
    · exact ⟨_,.ccStateInt,rfl,h,rfl⟩
    · exact ⟨_,.vbusInt,rfl,h,rfl⟩
    · exact ⟨_,.roleRequest,rfl,h,rfl⟩
  | roleSwitch => exact ⟨_,.roleChanged,rfl,hrises h,rfl⟩
  | interruptSources =>
    simp only [Drd.wakes,Bool.or_eq_true] at h
    obtain ((h | h) | h) | h := h
    · exact ⟨_,.roleChanged,rfl,h,rfl⟩
    · exact ⟨_,.enumDone,rfl,h,rfl⟩
    · exact ⟨_,.xferDone,rfl,h,rfl⟩
    · exact ⟨_,.bulkIrq,rfl,hrises h,rfl⟩
  | externalInputs =>
    simp only [Drd.wakes,Bool.or_eq_true] at h
    obtain h | h := h
    · exact ⟨_,.ccState,rfl,h,rfl⟩
    · exact ⟨_,.vbus,rfl,h,rfl⟩
  | enablePosedge => exact ⟨_,.hostEnable,rfl,hrises h,rfl⟩
  | trbComplete => exact ⟨_,.trbComplete,rfl,h,rfl⟩
  | outEp => exact ⟨_,.outEp,rfl,h,rfl⟩
  | _ => cases h

theorem exists_pending {s : Drd} (h : s.quiet = false) : ∃ k : Channel, k.pending s = true := by
  by_contra hnone
  have hall : ∀ k : Channel, k.pending s = false := by simpa using hnone
  have hquiet : s.quiet = true := by
    simp only [Drd.quiet,Drd.settled,Bool.and_eq_true,Bool.not_eq_true']
    exact ⟨⟨⟨⟨⟨⟨⟨⟨⟨⟨⟨⟨⟨⟨⟨⟨hall .ccState,hall .vbus⟩,hall .irq⟩,hall .role⟩,hall .roleChanged⟩,
      hall .ccStateInt⟩,hall .vbusInt⟩,hall .hostEnable⟩,hall .xferDone⟩,hall .enumDone⟩,
      hall .devAddr⟩,hall .devEnable⟩,hall .bulkIrq⟩,hall .configured⟩,hall .roleRequest⟩,
      hall .trbComplete⟩,hall .outEp⟩
  rw [h] at hquiet
  cases hquiet

theorem wiring_fits : (wiring n).Fits (kernelOf n act) (Reachable act present) where
  eval c t c' hr hs k hk := by
    by_cases hdrives : drives t.getLeft? k = true
    · exact .inr hdrives
    · exact .inl ((eval_pending hr hs (by simpa using hdrives)).symm.trans hk)
  wakes c t w due next hr ht hw := by
    have hwithin := inhabits.reach hr t
    rw [ht] at hwithin
    obtain ⟨p,k,howner,hk,hkp⟩ := wakes_stirs hw
    match t with
    | .inl q =>
      obtain rfl : p = q := Option.some.inj (howner.symm.trans hwithin.1)
      exact ⟨k,hk,hkp⟩
    | .inr i => cases howner.symm.trans hwithin.1
  quiet s h := exists_pending h
  update s k := by cases k <;> simp [wiring,Channel.pending,kernelOf,Drd.update]

theorem reachable_step {l : DrdLabel A n} (hr : Reachable act present c)
    (hs : (kernelOf n act).step c l = some c') : Reachable act present c' := hr.step trivial hs

theorem boot_ahead : Ahead (bootWith n present) := by
  intro t w due next ht
  match t with
  | .inl p =>
    simp only [bootWith] at ht
    split at ht
    · cases p <;> cases ht
    · cases ht
  | .inr i => cases ht

theorem reachable_ahead {γ : Type} {w : Watch γ Drd WaitPoint Payload TlmResponse Loop A Payload (Tid n)}
    {ok : γ → DrdConf n → DrdLabel A n → Prop} {g : γ}
    (hr : Reach (kernelOf n act) (bootWith n present) w ok g c) : Ahead c := by
  have hdelay : ∀ (w : WaitPoint) k, w.delay = some k → 0 < k := by
    intro w k hw
    cases w <;> cases hw <;> decide
  induction hr with
  | boot => exact boot_ahead
  | step _ _ hs ih => exact step_ahead hdelay ih hs

/-- No call that has just arrived is about to run together with a thread that works on the same
state. -/
def Orderly (c : DrdConf n) : Prop :=
  ∀ t u, t ≠ u → (c.thread u).isReady = true → ¬Clash c t u

theorem orderly_alone (h : Orderly c) (hs : Alone (kernelOf n act) c c') : Orderly c' := by
  have hnone : ∀ (f : Thread Drd WaitPoint Payload TlmResponse Loop → Thread Drd WaitPoint Payload
      TlmResponse Loop), (∀ th p, th.isReady = false → f th ≠ .ready .start p) →
        (∀ t, (c.thread t).isReady = false) → ∀ {now s}, Orderly ⟨now,s,fun t => f (c.thread t)⟩ := by
    rintro f hf hidle now s t u - - ⟨⟨i,p,-,ht⟩,-⟩
    exact hf (c.thread t) p (hidle t) ht
  rcases hs with (hs | ⟨-,hs⟩) | hs
  · rename_i v
    obtain ⟨o,p,s,stop,-,-,rfl⟩ := step_eval hs
    have hpark : ∀ u, ((Function.update c.thread v ((kernelOf n act).park c.now stop)) u).isReady = true →
        u ≠ v ∧ (c.thread u).isReady = true := by
      intro u hu
      by_cases huv : u = v
      · subst huv
        rw [Function.update_self] at hu
        cases stop <;> cases hu
      · rw [Function.update_of_ne huv] at hu
        exact ⟨huv,hu⟩
    have hfresh : ∀ u, Fresh ⟨c.now,s,Function.update c.thread v ((kernelOf n act).park c.now stop)⟩ u →
        Fresh c u := by
      rintro u ⟨i,q,hu,hq⟩
      have hne := (hpark u (congrArg Thread.isReady hq)).1
      exact ⟨i,q,hu,(Function.update_of_ne hne _ _).symm.trans hq⟩
    intro t u htu hu hclash
    refine h t u htu (hpark u hu).2 ⟨hfresh t hclash.1,?_⟩
    exact hclash.2.imp_left (hfresh u)
  · obtain ⟨hidle,rfl⟩ := step_delta hs
    refine hnone (Thread.notify ((kernelOf n act).wakes · c.state)) (fun th p hth heq => ?_) hidle
    cases th with
    | waiting w due next =>
      simp only [Thread.notify] at heq
      split at heq <;> cases heq
    | ready o p => cases hth
    | _ => cases heq
  · obtain ⟨-,-,hidle,rfl⟩ := step_advance hs
    refine hnone (Thread.expire _) (fun th p hth heq => ?_) fun t => (hidle t).1
    cases th with
    | waiting w due next =>
      simp only [Thread.expire] at heq
      split at heq <;> cases heq
    | ready o p => cases hth
    | _ => cases heq

/-- The device is determinate where no call competes for its state. -/
theorem determinate : Determinate (kernelOf n act) (wiring n)
    fun c => Reachable act present c ∧ Orderly c where
  acyclic := wiring_acyclic
  fits := wiring_fits.mono fun _ h => h.1
  evaluates c t _ ht := eval_isSome ht
  commutes c t u d d' h htu hs hs' := by
    have hready : ∀ {t d}, (kernelOf n act).step c (.eval t) = some d → (c.thread t).isReady = true := by
      intro t d h
      obtain ⟨o,p,_,_,ht,-⟩ := step_eval h
      rw [ht]
      rfl
    exact evals_commute h.1 htu (h.2 t u htu (hready hs')) (h.2 u t htu.symm (hready hs)) hs hs'
  keeps c c' h hs := by
    refine ⟨?_,orderly_alone h.2 hs⟩
    rcases hs with (hs | ⟨-,hs⟩) | hs
    · exact reachable_step h.1 hs
    · exact reachable_step h.1 hs
    · exact reachable_step h.1 hs
  ahead c h := reachable_ahead h.1

theorem orderly_stimulus {l : DrdLabel A n} (h : Still (kernelOf n act) c)
    (hl : l.isStimulus = true) (hs : (kernelOf n act).step c l = some c') : Orderly c' := by
  have hone : ∀ (v : Tid n) th, ∀ u, ((Function.update c.thread v th) u).isReady = true → u = v := by
    intro v th u hu
    by_contra huv
    rw [Function.update_of_ne huv,h.1 u] at hu
    cases hu
  cases l with
  | act a =>
    obtain ⟨s,-,rfl⟩ := step_act hs
    intro t u _ hu
    rw [h.1 u] at hu
    cases hu
  | enter v e =>
    obtain ⟨p,-,-,rfl⟩ := step_enter hs
    rintro t u htu hu ⟨⟨i,q,-,ht⟩,-⟩
    exact htu ((hone v _ t (congrArg Thread.isReady ht)).trans (hone v _ u hu).symm)
  | reply v r =>
    obtain ⟨q,next,-,rfl⟩ := step_reply hs
    rintro t u htu hu ⟨⟨i,q,-,ht⟩,-⟩
    exact htu ((hone v _ t (congrArg Thread.isReady ht)).trans (hone v _ u hu).symm)
  | _ => cases hl

theorem boot_orderly : Orderly (bootWith n present) := by
  rintro t u - - ⟨⟨i,p,rfl,ht⟩,-⟩
  cases ht

end Fits

section Time
variable {A γ : Type} {act : A → Drd → Option Drd} {present : Process → Bool}
  {w : Watch γ Drd WaitPoint Payload TlmResponse Loop A Payload (Tid n)}
  {ok : γ → DrdConf n → DrdLabel A n → Prop} {g : γ} {c d d' : DrdConf n}

/-- No instant goes on for ever: within one, the evaluations and update phases are bounded by
how often the environment interferes. -/
theorem instant_bounded (hr : Reach (kernelOf n act) (bootWith n present) w ok g c) {i e : ℕ}
    (h : Within (kernelOf n act) c i e d) : i ≤ (e+1) * (262 + 7 * n) := by
  have hfits : (wiring n).Fits (kernelOf n act) (Reachable act present) := wiring_fits
  have hle := (Wiring.within_le wiring_acyclic hfits (fun _ _ _ => reachable_step) hr.forget h).1
  have hpotential := (wiring n).potential_le c
  rw [wiring_bound] at hle hpotential
  rw [Nat.succ_mul]
  omega

theorem boot_reachable : Reachable act present (bootWith n present) := .boot

/-- VBUS rises at reset, and all at time zero the processes start, the change is forwarded and the
role manager sees it: nine steps. -/
theorem instant_bounded_boot : ∃ d, Within (kernelOf 0 Action.apply) (bootWith 0 fun _ => true) 9 1 d ∧
    d.now = 0 ∧ d.state.sigVbusInt.cur = true ∧ 9 ≤ (1+1) * (262 + 7 * 0) := by
  have hraised : Within (kernelOf 0 Action.apply) (bootWith 0 fun _ => true) 0 1 _ :=
    .act (a := .setVbus true) .refl rfl
  have hstarted : Within (kernelOf 0 Action.apply) (bootWith 0 fun _ => true) 5 1 _ :=
    ((((hraised.inner (.eval (t := roleThread) rfl)).inner (.eval (t := monitorThread) rfl)).inner
      (.eval (t := .inl .forwardInputs) rfl)).inner (.eval (t := hostThread) rfl)).inner
      (.eval (t := loopbackThread) rfl)
  have hforwarded : Within (kernelOf 0 Action.apply) (bootWith 0 fun _ => true) 9 1 _ :=
    (((hstarted.inner (.delta rfl rfl)).inner (.eval (t := .inl .forwardInputs) rfl)).inner
      (.delta rfl rfl)).inner (.eval (t := roleThread) rfl)
  exact ⟨_,hforwarded,rfl,rfl,instant_bounded boot_reachable hforwarded⟩

/-- Runnable threads may be evaluated in any order, if no call that has just arrived competes
for the state of another one. -/
theorem evaluations_perm (hr : Reach (kernelOf n act) (bootWith n present) w ok g c)
    (ho : Orderly c) {ts ts' : List (Tid n)} (hperm : ts.Perm ts')
    (hd : (kernelOf n act).evalAll ts c = some d) : (kernelOf n act).evalAll ts' c = some d :=
  determinate.evalAll_perm hperm ⟨hr.forget,ho⟩ hd

theorem evaluations_perm_boot : (kernelOf 0 Action.apply).evalAll [hostThread,roleThread,monitorThread]
      (bootWith 0 fun _ => true) = (kernelOf 0 Action.apply).evalAll [monitorThread,roleThread,hostThread]
      (bootWith 0 fun _ => true) := by
  have hd : (kernelOf 0 Action.apply).evalAll [monitorThread,roleThread,hostThread]
      (bootWith 0 fun _ => true) = some _ := rfl
  rw [hd]
  exact evaluations_perm boot_reachable boot_orderly (List.reverse_perm _).symm hd

/-- However an instant is scheduled, it comes to rest where the scheduler does that always
evaluates the first runnable thread of a list, and that one needs a bounded number of steps. -/
theorem rests_iff_settled (hr : Reach (kernelOf n act) (bootWith n present) w ok g c)
    (ho : Orderly c) {order : List (Tid n)} (horder : ∀ t, t ∈ order) :
    Relation.ReflTransGen (Inner (kernelOf n act)) c d ∧ Still (kernelOf n act) d ↔
      d = (kernelOf n act).settle order (262 + 7 * n) c :=
  determinate.settles horder ⟨hr.forget,ho⟩ (wiring_bound ▸ (wiring n).potential_le c)

def processes : List (Tid 0) :=
  [roleThread,monitorThread,collectorThread,.inl .forwardInputs,hostThread,loopbackThread]

theorem mem_processes (t : Tid 0) : t ∈ processes := by
  match t with
  | .inl p => cases p <;> simp [processes]
  | .inr i => exact i.elim0

theorem rests_iff_settled_boot : Still (kernelOf 0 Action.apply)
    ((kernelOf 0 Action.apply).settle processes (262 + 7 * 0) (bootWith 0 fun _ => true)) :=
  ((rests_iff_settled boot_reachable boot_orderly mem_processes).mpr rfl).2

/-- Between stimuli the device evolves in one way: at each later time there is exactly one
configuration in which it can rest. -/
theorem rest_unique (hr : Reach (kernelOf n act) (bootWith n present) w ok g c) (ho : Orderly c)
    {now : ℕ} (hnow : c.now ≤ now) : ∃! d, Relation.ReflTransGen (Alone (kernelOf n act)) c d ∧
      Still (kernelOf n act) d ∧ d.now = now :=
  determinate.evolution ⟨hr.forget,ho⟩ hnow

theorem rest_unique_boot : ∃! d, Relation.ReflTransGen (Alone (kernelOf 0 Action.apply))
    (bootWith 0 fun _ => true) d ∧ Still (kernelOf 0 Action.apply) d ∧ d.now = 1000 :=
  rest_unique boot_reachable boot_orderly (Nat.zero_le 1000)

/-- What becomes of the device is a function of the timed sequence of its stimuli, each given
while it rests. -/
theorem stimuli_determine {now : ℕ} {stimuli : List (ℕ × DrdLabel A n)}
    (hd : Follows (kernelOf n act) now d stimuli (bootWith n present))
    (hd' : Follows (kernelOf n act) now d' stimuli (bootWith n present)) : d = d' :=
  determinate.follows
    (fun _ _ _ h hstill hl hs => ⟨reachable_step h.1 hs,orderly_stimulus hstill hl hs⟩)
    ⟨.boot,boot_orderly⟩ hd hd'

/-- Two schedulers that see VBUS rise at once agree. -/
theorem stimuli_determine_vbus :
    let M := kernelOf 0 Action.apply
    let settled (order : List (Tid 0)) := M.settle order 12 (bootWith 0 fun _ => true)
    let raised (order : List (Tid 0)) : DrdConf 0 := { settled order with
      state := { (settled order).state with vbus := (settled order).state.vbus.write true } }
    M.settle processes 12 (raised processes) =
      M.settle processes.reverse 12 (raised processes.reverse) := by
  intro M settled raised
  have hfollows : ∀ order, Still M (settled order) → Still M (M.settle order 12 (raised order)) →
      (settled order).now = 0 → (M.settle order 12 (raised order)).now = 0 →
        Follows M 0 (M.settle order 12 (raised order)) [(0,.act (.setVbus true))]
          (bootWith 0 fun _ => true) :=
    fun order h h' hnow hnow' => ⟨settled order,raised order,inner_alone (settle_path _ _ _),h,hnow,
      rfl,rfl,inner_alone (settle_path _ _ _),h',hnow'⟩
  have hfirst := hfollows processes (by decide +kernel) (by decide +kernel) (by decide +kernel)
    (by decide +kernel)
  have hlast := hfollows processes.reverse (by decide +kernel) (by decide +kernel)
    (by decide +kernel) (by decide +kernel)
  exact stimuli_determine hfirst hlast

end Time

end Instants
end Usb3Drd
