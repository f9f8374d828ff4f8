import Usb3Drd.PeerSession

/-! The timetable of an enumeration. The peer answers at once, so each request of a session is sent
at a fixed time after its beginning, and the device is enumerated exactly 2.035 ms after it. -/
namespace Usb3Drd
namespace PeerTiming

open Coop HostController HostMachine DeviceLog PeerBench PeerSession

/-- When the request of a stage is sent, from the beginning of the session. -/
def slot : Stage → ℕ
  | .device => 0
  | .address _ => 7*us
  | .config => 14*us + 2*ms
  | .bos => 21*us + 2*ms
  | .configure => 28*us + 2*ms

def length : ℕ := 35*us + 2*ms

/-- When a phase of an enumeration ends its wait, or its packet is sent. -/
def ending : Phase → Option ℕ
  | .setup k _ _ => some (slot k)
  | .settling k _ _ => some (slot k + 5*us)
  | .status k _ _ => some (slot k + 5*us)
  | .closing k _ _ => some (slot k + 7*us)
  | .addressing _ => some (14*us + 2*ms)
  | _ => none

def pause : Phase → ℕ
  | .settling _ _ _ => 5*us
  | .closing _ _ _ => 2*us
  | .addressing _ => 2*ms
  | _ => 0

/-- The host is where the timetable has it. -/
def OnSchedule (L : SessionLog) (now : ℕ) (th : Thread Drd WaitPoint Payload TlmResponse Loop)
    (done : Bool) (ph : Phase) : Prop :=
  match L.start with
  | none => ending ph = none ∧ done = false
  | some start =>
    match ending ph with
    | some d => th.OnTime now (start + d)
    | none => done = true ∧ start + length ≤ now

abbrev atHost (L : SessionLog) (c : DrdConf 1) (ph : Phase) : Prop :=
  OnSchedule L c.now (c.thread hostThread) c.state.hostCtrl.mDev.enumerated ph

section Turns
variable {L : SessionLog} {start now d : ℕ} {ph : Phase} {T : Turn}

def Next (L : SessionLog) (now : ℕ) (T : Turn) : Prop :=
  match (opens now L T.phase).start with
  | none => ending T.phase = none ∧ T.state.hostCtrl.mDev.enumerated = false
  | some start =>
    match ending T.phase with
    | some d => start + d = now + pause T.phase
    | none => T.state.hostCtrl.mDev.enumerated = true ∧ start + length ≤ now

theorem session_next (s : Drd) : Next L now (begins .device 0 [] s) := by
  show now + 0 = now + 0
  rfl

theorem ringHead_next {s : Drd} (hstart : L.start = some start)
    (hdone : s.hostCtrl.mDev.enumerated = true) (hlate : start + length ≤ now) :
    Next L now (ringHead s) := by
  have hnext : ∀ T : Turn, opens now L T.phase = L → ending T.phase = none →
      T.state.hostCtrl.mDev.enumerated = true → Next L now T := by
    intro T hopens hending hdone
    rw [Next,hopens,hstart,hending]
    exact ⟨hdone,hlate⟩
  rw [ringHead]
  split
  · exact hnext _ rfl rfl hdone
  · split
    · exact hnext _ rfl rfl hdone
    · exact hnext _ rfl rfl (by rw [sends_hostCtrl]; exact hdone)

theorem enumerating_next {v : View} {s : Drd} {o : Origin WaitPoint Payload TlmResponse}
    (hagrees : Agrees L v s.hostCtrl ph) (hstart : L.start = some start) (hph : ending ph = some d)
    (hnow : now = start + d) : Next L now (turn ph o s) := by
  have hgo : ∀ (T : Turn) (ph' : Phase) (d' : ℕ), T.phase = ph' → opens now L ph' = L →
      ending ph' = some d' → d' = d + pause ph' → Next L now T := by
    intro T ph' d' hT hopens hending hd
    rw [Next,hT,hopens,hstart,hending]
    show start + d' = now + pause ph'
    rw [hd,hnow,Nat.add_assoc]
  cases ph with
  | setup k addr buf =>
    have hd := Option.some.inj hph
    exact hgo _ (.settling k addr buf) _ rfl rfl rfl (by rw [pause,hd])
  | settling k addr buf =>
    have hd := Option.some.inj hph
    rw [turn,collect]
    split
    · exact hgo _ (.status k addr _) _ rfl rfl rfl (by rw [hd]; exact (Nat.add_zero d).symm)
    · exact hgo _ (.status k addr _) _ rfl rfl rfl (by rw [hd]; exact (Nat.add_zero d).symm)
  | status k addr buf =>
    have hd := Option.some.inj hph
    exact hgo _ (.closing k buf _) _ rfl rfl rfl (by rw [pause,← hd]; omega)
  | closing k buf answered =>
    obtain ⟨-,-,-,rfl⟩ := hagrees
    have hd := Option.some.inj hph
    cases k with
    | device =>
      refine hgo _ (.setup (.address s.hostCtrl.mNextAddr) 0 buf) _ rfl rfl rfl ?_
      simp only [slot,pause] at hd ⊢
      omega
    | address a =>
      refine hgo _ (.addressing buf) _ rfl rfl rfl ?_
      simp only [slot,pause] at hd ⊢
      omega
    | config =>
      refine hgo _ (.setup .bos (learnConfig buf s).hostCtrl.mDev.addr []) _ rfl rfl rfl ?_
      simp only [slot,pause] at hd ⊢
      omega
    | bos =>
      refine hgo _ (.setup .configure s.hostCtrl.mDev.addr []) _ rfl rfl rfl ?_
      simp only [slot,pause] at hd ⊢
      omega
    | configure =>
      have hopens : opens now L (turn (.closing .configure buf true) o s).phase = L := rfl
      rw [Next,hopens,hstart]
      refine ⟨rfl,?_⟩
      simp only [slot] at hd
      rw [length]
      omega
  | addressing buf =>
    have hd := Option.some.inj hph
    refine hgo _ (.setup .config s.hostCtrl.mDev.addr buf) _ rfl rfl rfl ?_
    simp only [slot,pause]
    omega
  | _ => cases hph

end Turns

section Runs
variable {L : SessionLog} {ph : Phase} {g : PeerState × SessionLog × Phase} {c c' : DrdConf 1}
  {l : DrdLabel Action 1} {d : ℕ}

/-- In a phase of an enumeration only its timeout ends a wait. -/
theorem ending_waits {w : WaitPoint} (hw : ph.point = some w) (hph : ending ph = some d) :
    w.delay = some (pause ph) ∧ ∀ s : Drd, s.wakes w = false := by
  cases ph with
  | settling k addr buf => cases hw; exact ⟨rfl,fun _ => rfl⟩
  | closing k buf answered => cases hw; exact ⟨rfl,fun _ => rfl⟩
  | addressing buf => cases hw; exact ⟨rfl,fun _ => rfl⟩
  | setup k addr buf => cases hw
  | status k addr buf => cases hw
  | _ => cases hph

theorem pause_packet {p : Payload} (hp : ph.packet = some p) : pause ph = 0 := by
  cases ph <;> first | rfl | cases hp

theorem turn_next {v : View} {s : Drd} {o : Origin WaitPoint Payload TlmResponse}
    {p : DrdProc Loop} {now : ℕ} (hagrees : Agrees L v s.hostCtrl ph)
    (h : OnSchedule L now (.ready o p) s.hostCtrl.mDev.enumerated ph) :
    Next L now (turn ph o s) := by
  cases hstart : L.start with
  | none =>
    rw [OnSchedule,hstart] at h
    obtain ⟨hending,hdone⟩ := h
    have hnot : ∀ {P : Prop}, Enumerated L v s.hostCtrl.mDev → P := by
      intro P he
      rw [he.done] at hdone
      cases hdone
    cases ph with
    | boot =>
      rw [turn,mainHead]
      split
      · rw [Next]
        show match L.start with
          | none => _
          | some start => _
        rw [hstart]
        exact ⟨rfl,hdone⟩
      · exact session_next _
    | disabled => exact session_next _
    | announcing => exact hnot hagrees.2
    | idle => exact hnot hagrees.2
    | transfer trb => exact hnot hagrees.2
    | completing => exact hnot hagrees.2
    | _ => cases hending
  | some start =>
    rw [OnSchedule,hstart] at h
    cases hending : ending ph with
    | some d =>
      rw [hending] at h
      exact enumerating_next hagrees hstart hending h
    | none =>
      rw [hending] at h
      obtain ⟨hdone,hlate⟩ := h
      cases ph with
      | boot =>
        rw [hagrees.2] at hdone
        cases hdone
      | disabled => exact session_next _
      | announcing => exact ringHead_next hstart hdone hlate
      | idle => exact ringHead_next hstart hdone hlate
      | completing => exact ringHead_next hstart hdone hlate
      | transfer trb =>
        have hdone' : (receive trb s).hostCtrl.mDev.enumerated = true := by
          rw [(receive_frame trb s).1]
          exact hdone
        rw [turn]
        split
        · rw [Next]
          show match L.start with
            | none => _
            | some start => _
          rw [hstart]
          exact ⟨hdone',hlate⟩
        · exact ringHead_next hstart hdone' hlate
      | _ => cases hending

theorem host_schedule {T : Turn} (hs : (drdKernel 1).step c (.eval hostThread) = some c')
    (hloc : c'.loc hostThread = T.loc) (hst : T.phase.Stands T.loc) (hstate : c'.state = T.state)
    (hnext : Next L c.now T) : atHost (opens c'.now L T.phase) c' T.phase := by
  have hnow : c'.now = c.now := (step_now hs).2 (by simp)
  rw [atHost,OnSchedule,hnow,hstate]
  rw [Next] at hnext
  cases hstart : (opens c.now L T.phase).start with
  | none =>
    rw [hstart] at hnext
    exact hnext
  | some start =>
    rw [hstart] at hnext
    cases hending : ending T.phase with
    | none =>
      rw [hending] at hnext
      exact hnext
    | some d =>
      rw [hending] at hnext
      have hslot : start + d = c.now + pause T.phase := hnext
      rw [← hloc] at hst
      cases hth : c'.loc hostThread with
      | idle => rw [hth] at hst; exact hst.elim
      | ready o => exact absurd hth (eval_not_ready hs o)
      | waiting w =>
        rw [hth] at hst
        obtain ⟨-,next,hwait⟩ := eval_waits hs hth
        rw [show (drdKernel 1).delay w = some (pause T.phase) from (ending_waits hst hending).1] at hwait
        rw [hwait]
        refine ⟨?_,?_⟩
        · rw [hslot]
          rfl
        · rw [hslot]
          exact Nat.le_add_right _ _
      | calling q =>
        rw [hth] at hst
        obtain ⟨pkt,n,hpkt,-⟩ := hst
        rw [pause_packet hpkt,Nat.add_zero] at hslot
        obtain ⟨next,hth⟩ := Conf.exists_calling hth
        rw [hth]
        exact hslot.symm

theorem still_schedule {L' : SessionLog} (hsound : Sound g.1 c)
    (hok : served g c l) (hs : (drdKernel 1).step c l = some c') (hl : l ≠ .eval hostThread)
    (hst : ph.Stands (c.loc hostThread)) (hstart : L'.start = L.start)
    (hdone : c'.state.hostCtrl.mDev.enumerated = c.state.hostCtrl.mDev.enumerated)
    (h : atHost L c ph) : atHost L' c' ph := by
  rw [atHost,OnSchedule] at h ⊢
  rw [hstart,hdone]
  cases hstart' : L.start with
  | none =>
    rw [hstart'] at h
    exact h
  | some start =>
    rw [hstart'] at h
    cases hending : ending ph with
    | none =>
      rw [hending] at h
      exact ⟨h.1,h.2.trans (step_now hs).1⟩
    | some d =>
      rw [hending] at h
      exact host_onTime hsound hok hs hl hst (fun w hw => (ending_waits hw hending).2 _) h

/-- In every run with the peer the host is on schedule. -/
theorem reach_schedule (hr : Reach (drdKernel 1) (drdBoot 1) (bench.pair phaseLog) served g c) :
    atHost g.2.1 c g.2.2 := by
  induction hr with
  | boot => exact ⟨rfl,rfl⟩
  | @step g c l c' hr hok hs ih =>
    have hsound := sound_reach hr
    have hph := hostAt_reach hr
    have hst := reach_stands rfl hph
    show atHost (sessionLog.next g.2.1 c l c') c' ((phases Action 1).next g.2.2 c l c')
    by_cases hl : l = .eval hostThread
    · subst hl
      obtain ⟨o,hloc,hst',hloc',hstate⟩ := taken_turn rfl ⟨hph,trivial,hs⟩
      have hnext : (phases Action 1).next g.2.2 c (.eval hostThread) c' =
          (turn g.2.2 o c.state).phase := by simp [phases,hloc]
      have hends := reach_stands rfl (hph.step trivial hs)
      rw [hnext] at hends ⊢
      have hlog : sessionLog.next g.2.1 c (.eval hostThread) c' =
          opens c'.now g.2.1 (turn g.2.2 o c.state).phase := by
        rw [← opens_eq hends (eval_not_ready hs)]
        rfl
      rw [hlog]
      obtain ⟨p,hready⟩ := Conf.exists_ready hloc
      rw [atHost,hready] at ih
      exact host_schedule hs hloc' (by rw [← hloc']; exact hends) hstate
        (turn_next (reach_agrees hr) ih)
    · rw [phases_still _ hl]
      have hdone := congrArg (·.1.enumerated) (hostOwn_kept ⟨hr,hok,hs⟩ hl)
      refine still_schedule hsound hok hs hl hst ?_ hdone ih
      cases l with
      | eval t =>
        have ht : t ≠ hostThread := fun ht => hl (by rw [ht])
        simp only [sessionLog,if_neg ht]
        split <;> rfl
      | _ => rfl

theorem ending_le (hending : ending ph = some d) : d ≤ length := by
  cases ph with
  | setup k addr buf => cases hending; cases k <;> simp only [slot,length] <;> omega
  | settling k addr buf => cases hending; cases k <;> simp only [slot,length] <;> omega
  | status k addr buf => cases hending; cases k <;> simp only [slot,length] <;> omega
  | closing k buf answered => cases hending; cases k <;> simp only [slot,length] <;> omega
  | addressing buf => cases hending; simp only [length]; omega
  | _ => cases hending

theorem unenumerated_of_ending {v : View} {h : HostController} (hagrees : Agrees L v h ph)
    (hending : ending ph = some d) : h.mDev.enumerated = false := by
  cases ph with
  | setup k addr buf => exact hagrees.2.not_enumerated
  | settling k addr buf => exact hagrees.2.not_enumerated
  | status k addr buf => exact hagrees.2.2.not_enumerated
  | closing k buf answered => exact hagrees.2.2.1.not_enumerated
  | addressing buf => exact hagrees.2.1.2
  | _ => cases hending

theorem setup_in_slot {q : Payload} {setup : Usb3SetupPkt} (hst : ph.Stands (.calling q))
    (hsetup : setupRequest q = some setup) :
    ∃ k : Stage, setup = k.request ∧ ending ph = some (slot k) := by
  obtain ⟨pkt,n,hpkt,rfl⟩ := hst
  cases ph with
  | setup k addr buf =>
    cases hpkt
    rw [setupRequest_setupPacket] at hsetup
    exact ⟨k,(Option.some.inj hsetup).symm,rfl⟩
  | status k addr buf =>
    cases hpkt
    rw [setupRequest_statusPacket] at hsetup
    cases hsetup
  | transfer trb =>
    cases hpkt
    rw [setupRequest_bulk (isBulk_trbPacket trb n)] at hsetup
    cases hsetup
  | _ => cases hpkt

/-- In every run with the peer, whatever the environment does, a session keeps to the timetable:
the SETUP packet of each of its requests is sent at the slot of the request, and the device is
enumerated 2.035 ms after the beginning of the session, neither earlier nor later. -/
theorem session_on_time (g : PeerState × SessionLog) (c : DrdConf 1) (start : ℕ)
    (hr : Reach (drdKernel 1) (drdBoot 1) (bench.pair sessionLog) served g c)
    (hstart : g.2.start = some start) :
    (∀ q setup, c.loc hostThread = .calling q → setupRequest q = some setup →
      ∃ k : Stage, setup = k.request ∧ c.now = start + slot k) ∧
    (c.state.hostCtrl.mDev.enumerated = true → start + length ≤ c.now) ∧
    (start + length < c.now → c.state.hostCtrl.mDev.enumerated = true) := by
  obtain ⟨ph,hph⟩ := reach_phase hr
  have hschedule := reach_schedule hph
  have hst := reach_stands rfl (hostAt_reach hph)
  rw [atHost,OnSchedule,hstart] at hschedule
  refine ⟨fun q setup hq hsetup => ?_,?_⟩
  · rw [hq] at hst
    obtain ⟨k,hrequest,hslot⟩ := setup_in_slot hst hsetup
    obtain ⟨next,hth⟩ := Conf.exists_calling hq
    rw [hslot,hth] at hschedule
    exact ⟨k,hrequest,hschedule⟩
  cases hending : ending ph with
  | none =>
    rw [hending] at hschedule
    exact ⟨fun _ => hschedule.2,fun _ => hschedule.1⟩
  | some d =>
    rw [hending] at hschedule
    have hnow : c.now ≤ start + d := hschedule.le
    have hnot : c.state.hostCtrl.mDev.enumerated = false :=
      unenumerated_of_ending (reach_agrees hph) hending
    refine ⟨fun hdone => ?_,fun hover => ?_⟩
    · rw [hnot] at hdone
      cases hdone
    · have hd := ending_le hending
      omega

theorem session_on_time_attached : ∃ (g : PeerState × SessionLog) (c : DrdConf 1) (start : ℕ),
    Reach (drdKernel 1) (drdBoot 1) (bench.pair sessionLog) served g c ∧ g.2.start = some start ∧
      c.state.hostCtrl.mDev.enumerated = true ∧ start + length ≤ c.now := by
  obtain ⟨g,c,hr,hdone,hstart⟩ := exists_reach (drdKernel 1) (drdBoot 1) (bench.pair sessionLog)
    served (fun g c => c.state.hostCtrl.mDev.enumerated = true ∧ g.2.start.isSome = true)
    (attachRun .ufpAttached ++ PeerSession.enumerateRun) (by decide +kernel)
  obtain ⟨start,hstart⟩ := Option.isSome_iff_exists.mp hstart
  exact ⟨g,c,start,hr,hstart,hdone,(session_on_time g c start hr hstart).2.1 hdone⟩

end Runs

end PeerTiming
end Usb3Drd
