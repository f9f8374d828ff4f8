import Usb3Drd.PeerSession
import Usb3Drd.TransferRing

/-! The service of bulk transfers. The peer takes each at once and the host announces it for 1 ns,
so the ring is a queue with a fixed time of service. -/
namespace Usb3Drd
namespace PeerService

open Coop HostController HostMachine DeviceLog PeerBench PeerSession TransferRing

/-- When the transfers that were asked for are done, at 1 ns each. Those that wait when a device
has been enumerated follow the pulse that announces it. -/
def doneBy : BenchWatch ℕ where
  init := 0
  next due c l c' :=
    match l with
    | .act a => if (requestOf a).isSome then max due c.now + ns else due
    | .eval t =>
      if t = hostThread ∧ c'.loc hostThread = .waiting .enumPulse then
        c'.now + 10*ns + c'.state.hostCtrl.mTransferRing.length*ns
      else due
    | _ => due

def owed : Phase → Option ℕ
  | .announcing => some 0
  | .transfer _ => some ns
  | .completing => some 0
  | _ => none

/-- The host serves `k` more transfers in time. -/
def InService (due now : ℕ) (th : Thread Drd WaitPoint Payload TlmResponse Loop) (k : ℕ)
    (ph : Phase) : Prop :=
  match owed ph with
  | some d => ∃ slot, th.OnTime now slot ∧ slot + d + k*ns ≤ due
  | none => ph = .idle → k = 0 ∨ now + k*ns ≤ due

section Turns
variable {due now : ℕ} {ph : Phase} {s : Drd}

def InTime (due now : ℕ) (T : Turn) : Prop :=
  match T.phase with
  | .transfer _ => now + ns + T.state.hostCtrl.mTransferRing.length*ns ≤ due
  | .completing => now + ns + T.state.hostCtrl.mTransferRing.length*ns ≤ due
  | .idle => T.state.hostCtrl.mTransferRing.length = 0
  | _ => True

theorem InService.le {th : Thread Drd WaitPoint Payload TlmResponse Loop} {k d : ℕ}
    (h : InService due now th k ph) (howed : owed ph = some d) : now + d + k*ns ≤ due := by
  rw [InService,howed] at h
  obtain ⟨slot,htime,hle⟩ := h
  have hnow : now ≤ slot := htime.le
  omega

theorem ringHead_inTime (h : s.hostCtrl.mTransferRing.length = 0 ∨
      now + s.hostCtrl.mTransferRing.length*ns ≤ due) : InTime due now (ringHead s) := by
  rw [ringHead]
  split
  · trivial
  · cases hring : s.hostCtrl.mTransferRing with
    | nil => exact congrArg List.length hring
    | cons trb rest =>
      rw [hring,List.length_cons] at h
      have hrest : (sends (.transfer trb) (trbPacket trb)
          (setRing rest s)).state.hostCtrl.mTransferRing.length = rest.length := by
        rw [sends_hostCtrl]
        rfl
      show now + ns + (sends (.transfer trb) (trbPacket trb)
        (setRing rest s)).state.hostCtrl.mTransferRing.length*ns ≤ due
      rw [hrest]
      rw [Nat.succ_mul] at h
      omega

theorem turn_inTime {L : SessionLog} {v : View} {o : Origin WaitPoint Payload TlmResponse}
    {p : DrdProc Loop} (hagrees : Agrees L v s.hostCtrl ph)
    (h : InService due now (.ready o p) s.hostCtrl.mTransferRing.length ph) :
    InTime due now (turn ph o s) := by
  cases ph with
  | boot =>
    rw [turn,mainHead]
    split <;> trivial
  | settling k addr buf =>
    rw [turn,collect]
    split <;> trivial
  | closing k buf answered =>
    obtain ⟨-,-,-,rfl⟩ := hagrees
    cases k <;> trivial
  | announcing => exact ringHead_inTime (s := writeEnumDone false s) (.inr (h.le rfl))
  | idle => exact ringHead_inTime (h rfl)
  | transfer trb =>
    have hle := h.le rfl
    rw [← (receive_frame trb s).2] at hle
    rw [turn]
    split
    · exact hle
    · exact ringHead_inTime (.inr (by omega))
  | completing => exact ringHead_inTime (s := writeXferDone false s) (.inr (h.le rfl))
  | _ => trivial

end Turns

section Runs
variable {g : PeerState × (SessionLog × Phase) × ℕ} {c c' : DrdConf 1} {l : DrdLabel Action 1}
  {due : ℕ} {ph : Phase}

theorem stands_at {w : WaitPoint} (hs : (drdKernel 1).step c (.eval hostThread) = some c')
    (hst : ph.Stands (c'.loc hostThread)) (hw : ph.point = some w) :
    c'.loc hostThread = .waiting w := by
  cases hloc : c'.loc hostThread with
  | idle => rw [hloc] at hst; exact hst.elim
  | ready o => exact absurd hloc (eval_not_ready hs o)
  | waiting w' =>
    rw [hloc] at hst
    rw [Option.some.inj (hw.symm.trans hst)]
  | calling q =>
    rw [hloc] at hst
    obtain ⟨p,n,hp,-⟩ := hst
    rw [Phase.packet_none hw] at hp
    cases hp

theorem host_service {T : Turn} (hs : (drdKernel 1).step c (.eval hostThread) = some c')
    (hst : T.phase.Stands (c'.loc hostThread)) (hstate : c'.state = T.state)
    (h : InTime due c.now T) :
    InService (doneBy.next due c (.eval hostThread) c') c'.now (c'.thread hostThread)
      c'.state.hostCtrl.mTransferRing.length T.phase := by
  have hnow : c'.now = c.now := (step_now hs).2 (by simp)
  have hkeep : T.phase.point ≠ some .enumPulse →
      doneBy.next due c (.eval hostThread) c' = due := by
    intro hpoint
    refine if_neg fun h => hpoint ?_
    have hst' := hst
    rw [h.2] at hst'
    exact hst'
  rw [InTime,← hstate] at h
  cases hph : T.phase with
  | announcing =>
    rw [hph] at hst
    have hloc := stands_at hs hst rfl
    obtain ⟨-,next,hth⟩ := eval_waits hs hloc
    have hdue : doneBy.next due c (.eval hostThread) c' =
        c'.now + 10*ns + c'.state.hostCtrl.mTransferRing.length*ns := if_pos ⟨rfl,hloc⟩
    rw [hdue,hth]
    refine ⟨c'.now + 10*ns,⟨?_,Nat.le_add_right _ _⟩,le_refl _⟩
    rw [hnow]
    rfl
  | transfer trb =>
    rw [hkeep (by rw [hph]; simp [Phase.point])]
    rw [hph] at h
    refine ⟨c'.now,?_,by rw [hnow]; exact h⟩
    rw [hph] at hst
    cases hth : c'.thread hostThread with
    | waiting w due next =>
      rw [Conf.loc,hth] at hst
      cases hst
    | _ => rfl
  | completing =>
    rw [hkeep (by rw [hph]; simp [Phase.point])]
    rw [hph] at h hst
    obtain ⟨-,next,hth⟩ := eval_waits hs (stands_at hs hst rfl)
    rw [hth]
    refine ⟨c'.now + ns,⟨?_,Nat.le_add_right _ _⟩,by rw [hnow]; exact h⟩
    rw [hnow]
    rfl
  | idle =>
    rw [hph] at h
    exact fun _ => .inl h
  | _ => exact fun h => by cases h

theorem queue_step {γ : Type} {w : BenchWatch γ} {u : γ} (due : ℕ)
    {ok : γ → DrdConf 1 → DrdLabel Action 1 → Prop}
    (ht : Taken (drdKernel 1) (drdBoot 1) w ok u c l c') (hl : l ≠ .eval hostThread) :
    (c'.state.hostCtrl.mTransferRing.length = c.state.hostCtrl.mTransferRing.length ∧
      doneBy.next due c l c' = due) ∨
    (c'.state.hostCtrl.mTransferRing.length = c.state.hostCtrl.mTransferRing.length + 1 ∧
      doneBy.next due c l c' = max due c.now + ns ∧ c'.now = c.now) := by
  cases l with
  | eval t =>
    have hne : t ≠ hostThread := fun h => hl (by rw [h])
    have hside := hostSide_peer hne ht
    exact .inl ⟨congrArg (·.1.mTransferRing.length) hside,if_neg fun h => hne h.1⟩
  | act a =>
    obtain ⟨s,ha,rfl⟩ := step_act ht.step
    have hlength := congrArg List.length (apply_ring ha).1
    rw [List.length_map,List.length_append,List.length_map] at hlength
    cases hreq : requestOf a with
    | none =>
      rw [hreq] at hlength
      exact .inl ⟨hlength,by simp [doneBy,hreq]⟩
    | some x =>
      rw [hreq] at hlength
      exact .inr ⟨hlength,by simp [doneBy,hreq],rfl⟩
  | delta => obtain ⟨-,rfl⟩ := step_delta ht.step; exact .inl ⟨rfl,rfl⟩
  | advance d => obtain ⟨-,-,-,rfl⟩ := step_advance ht.step; exact .inl ⟨rfl,rfl⟩
  | enter t e => obtain ⟨_,-,-,rfl⟩ := step_enter ht.step; exact .inl ⟨rfl,rfl⟩
  | reply t r => obtain ⟨_,_,-,rfl⟩ := step_reply ht.step; exact .inl ⟨rfl,rfl⟩

/-- Time passes at the ring only if it is empty. -/
theorem empty_of_advance {d : ℕ}
    (hr : Reach (drdKernel 1) (drdBoot 1) noWatch (fun _ _ _ => True) () c)
    (hst : Phase.idle.Stands (c.loc hostThread))
    (hs : (drdKernel 1).step c (.advance d) = some c') :
    c.state.hostCtrl.mTransferRing.length = 0 := by
  obtain ⟨-,hquiet,hthreads,-⟩ := step_advance hs
  have hloc : c.loc hostThread = .waiting .trbComplete := by
    have hready := (hthreads hostThread).1
    rw [Conf.loc] at hst ⊢
    generalize c.thread hostThread = th at hst hready
    cases th with
    | idle => exact hst.elim
    | ready o p => cases hready
    | waiting w due next => cases hst; rfl
    | calling q next => obtain ⟨_,_,hp,-⟩ := hst; cases hp
  obtain ⟨g,hg⟩ := hr.watched traffic
  rcases (ringSpec_meets.held hg).attended hloc with hring | hevent
  · rw [hring]
    rfl
  · have hevent' : c.state.hostCtrl.mTrbCompleteEvent = false := by
      have hq : c.state.quiet = true := hquiet
      simp only [Drd.quiet,Bool.and_eq_true,Bool.not_eq_true'] at hq
      tauto
    rw [hevent'] at hevent
    cases hevent

/-- While other threads run, and the peer answers, the transfers stay on time. -/
theorem still_service
    (hr : Reach (drdKernel 1) (drdBoot 1) (bench.pair (phaseLog.pair doneBy)) served g c)
    (hok : served g c l) (hs : (drdKernel 1).step c l = some c') (hl : l ≠ .eval hostThread)
    (hst : ph.Stands (c.loc hostThread))
    (h : InService due c.now (c.thread hostThread) c.state.hostCtrl.mTransferRing.length ph) :
    InService (doneBy.next due c l c') c'.now (c'.thread hostThread)
      c'.state.hostCtrl.mTransferRing.length ph := by
  have hqueue := queue_step due ⟨hr,hok,hs⟩ hl
  rw [InService] at h ⊢
  cases howed : owed ph with
  | some d =>
    rw [howed] at h
    obtain ⟨slot,htime,hle⟩ := h
    refine ⟨slot,host_onTime (sound_reach hr) hok hs hl hst (fun w hw => ?_) htime,?_⟩
    · cases ph with
      | announcing => cases hw; rfl
      | transfer trb => cases hw
      | completing => cases hw; rfl
      | _ => cases howed
    · rcases hqueue with ⟨hlen,hdue⟩ | ⟨hlen,hdue,-⟩
      · rw [hlen,hdue]
        exact hle
      · rw [hlen,hdue,Nat.succ_mul]
        omega
  | none =>
    rw [howed] at h
    intro hidle
    rcases hqueue with ⟨hlen,hdue⟩ | ⟨hlen,hdue,hnow⟩
    · rw [hlen,hdue]
      by_cases hadvance : ∃ d, l = .advance d
      · obtain ⟨d,rfl⟩ := hadvance
        subst hidle
        exact .inl (empty_of_advance hr.forget hst hs)
      · rw [(step_now hs).2 fun d hd => hadvance ⟨d,hd⟩]
        exact h hidle
    · rw [hlen,hdue,hnow,Nat.succ_mul]
      have hbefore := h hidle
      refine .inr ?_
      rcases hbefore with hzero | hle
      · rw [hzero]
        omega
      · omega

theorem reach_service
    (hr : Reach (drdKernel 1) (drdBoot 1) (bench.pair (phaseLog.pair doneBy)) served g c) :
    InService g.2.2 c.now (c.thread hostThread) c.state.hostCtrl.mTransferRing.length g.2.1.2 := by
  induction hr with
  | boot => exact fun h => by cases h
  | @step g c l c' hr hok hs ih =>
    have hplain : Reach (drdKernel 1) (drdBoot 1) (bench.pair phaseLog) served (g.1,g.2.1) c :=
      hr.project (fun g : PeerState × (SessionLog × Phase) × ℕ => (g.1,g.2.1)) rfl
        (fun _ _ _ _ => rfl) fun _ _ _ h => h
    have hph := hostAt_reach hplain
    have hst := reach_stands rfl hph
    show InService (doneBy.next g.2.2 c l c') c'.now (c'.thread hostThread)
      c'.state.hostCtrl.mTransferRing.length ((phases Action 1).next g.2.1.2 c l c')
    by_cases hl : l = .eval hostThread
    · subst hl
      obtain ⟨o,hloc,-,-,hstate⟩ := taken_turn rfl ⟨hph,trivial,hs⟩
      have hnext : (phases Action 1).next g.2.1.2 c (.eval hostThread) c' =
          (turn g.2.1.2 o c.state).phase := by simp [phases,hloc]
      have hends := reach_stands rfl (hph.step trivial hs)
      rw [hnext] at hends ⊢
      obtain ⟨p,hready⟩ := Conf.exists_ready hloc
      rw [hready] at ih
      exact host_service hs hends hstate (turn_inTime (reach_agrees hplain) ih)
    · rw [phases_still _ hl]
      exact still_service hr hok hs hl hst ih

/-- In every run with the peer, for any transfers asked for at any time: while the host is in the
pulse of its enumeration or of a transfer, or waits at the ring, what is left in the ring is done by
the time that the requests fixed when they came in, and past that time it waits at the ring. -/
theorem transfers_on_time (g : PeerState × ℕ) (c : DrdConf 1) (w : WaitPoint)
    (hr : Reach (drdKernel 1) (drdBoot 1) (bench.pair doneBy) served g c)
    (hloc : c.loc hostThread = .waiting w)
    (hw : w = .enumPulse ∨ w = .trbComplete ∨ w = .xferPulse) :
    (c.state.hostCtrl.mTransferRing ≠ [] →
      c.now + c.state.hostCtrl.mTransferRing.length*ns ≤ g.2) ∧
    (g.2 < c.now → w = .trbComplete) := by
  obtain ⟨⟨peer,x,due⟩,rfl,hg⟩ := hr.lift (w := bench.pair (phaseLog.pair doneBy))
    (fun g : PeerState × (SessionLog × Phase) × ℕ => (g.1,g.2.2)) rfl fun _ _ _ _ => rfl
  have hph := hg.image (v := phases Action 1) (fun g => g.2.1.2) rfl fun _ _ _ _ => rfl
  have hst := reach_stands rfl hph
  rw [hloc] at hst
  obtain ⟨L,ph⟩ := x
  have hservice : InService due c.now (c.thread hostThread)
    c.state.hostCtrl.mTransferRing.length ph := reach_service hg
  rcases hw with rfl | rfl | rfl
  · cases ph with
    | announcing =>
      have hle := hservice.le rfl
      exact ⟨fun _ => hle,fun hlate : due < c.now => by omega⟩
    | _ => cases hst
  · cases ph with
    | idle =>
      refine ⟨fun hring => ?_,fun _ => rfl⟩
      exact (hservice rfl).resolve_left (by simpa using hring)
    | _ => cases hst
  · cases ph with
    | completing =>
      have hle := hservice.le rfl
      exact ⟨fun _ => hle,fun hlate : due < c.now => by omega⟩
    | _ => cases hst

def twoBlocksRun : List (DrdLabel Action 1) :=
  [.delta,.eval collectorThread,.advance (10*ns),.eval hostThread,.delta,.eval collectorThread,
    .act (.bulkOut 1 2 [3,4]),.act (.bulkOut 1 2 [5]),.delta,.eval hostThread,
    .reply hostThread .ok,.eval hostThread]

theorem transfers_on_time_two : ∃ (g : PeerState × ℕ) (c : DrdConf 1),
    Reach (drdKernel 1) (drdBoot 1) (bench.pair doneBy) served g c ∧
    c.state.hostCtrl.mTransferRing.length = 1 ∧ g.2 = c.now + 2*ns ∧ c.now + ns ≤ g.2 := by
  obtain ⟨g,c,hr,hloc,hlen,hdue⟩ := exists_reach (drdKernel 1) (drdBoot 1) (bench.pair doneBy)
    served (fun g c => c.loc hostThread = .waiting .xferPulse ∧
      c.state.hostCtrl.mTransferRing.length = 1 ∧ g.2 = c.now + 2*ns)
    (attachRun .ufpAttached ++ PeerSession.enumerateRun ++ twoBlocksRun) (by decide +kernel)
  have hle := (transfers_on_time g c .xferPulse hr hloc (.inr (.inr rfl))).1
    (List.ne_nil_of_length_pos (by omega))
  rw [hlen,Nat.one_mul] at hle
  exact ⟨g,c,hr,hlen,hdue,hle⟩

end Runs

end PeerService
end Usb3Drd
