import Usb3Drd.Coop.Lapse
import Usb3Drd.DeviceLog
import Usb3Drd.HostMachine
import Usb3Drd.Transmit

/-! What a controller still sends once its enable has fallen. The host thread looks at its enable
between two transfers only, and the loopback never does. -/
namespace Usb3Drd
namespace LateTraffic

open Coop HostController HostMachine Inbound DeviceLog

variable {n : ℕ}

abbrev Sends (own : Tid n → Prop) (t : Tid n) (l : Loc WaitPoint Payload TlmResponse) : Prop :=
  own t ∧ (saidAt l).isSome = true

/-- The packets of the host thread since the host controller was enabled last. -/
def hostLate : Watch ℕ Drd WaitPoint Payload TlmResponse Loop Action Payload (Tid n) :=
  lapseLog (·.sigHostEnable.cur) (Sends (· = hostThread))

section Host
variable {s : Drd} {ph : Phase} {o : Origin WaitPoint Payload TlmResponse}

def later : Stage → ℕ
  | .device => 8
  | .address _ => 6
  | .config => 4
  | .bos => 2
  | .configure => 0

/-- The packets that are still sent if the enable stays low. -/
def left : Phase → ℕ
  | .setup k _ _ => later k + 1
  | .settling k _ _ => later k + 1
  | .status k _ _ => later k
  | .closing k _ _ => later k
  | .addressing _ => 6
  | _ => 0

theorem left_le (ph : Phase) : left ph ≤ 9 := by
  have hlater : ∀ k, later k ≤ 8 := fun k => by cases k <;> simp [later]
  cases ph with
  | setup k addr buf => exact Nat.succ_le_succ (hlater k)
  | settling k addr buf => exact Nat.succ_le_succ (hlater k)
  | status k addr buf => exact (hlater k).trans (by decide)
  | closing k buf answered => exact (hlater k).trans (by decide)
  | addressing buf => exact (by decide : 6 ≤ 9)
  | _ => exact Nat.zero_le _

def spends (t : Turn) : ℕ := (if (saidAt t.loc).isSome then 1 else 0) + left t.phase

theorem spends_sends (ph : Phase) (p : Payload) (s : Drd) : spends (sends ph p s) = 1 + left ph := rfl

theorem spends_waits (ph : Phase) (w : WaitPoint) (s : Drd) : spends (waits ph w s) = left ph :=
  Nat.zero_add _

theorem spends_ringHead (hoff : s.sigHostEnable.cur = false) : spends (ringHead s) = 0 := by
  rw [ringHead,if_pos hoff]
  rfl

theorem spends_conclude (k : Stage) (buf : List Byte) (answered : Bool)
    (hoff : s.sigHostEnable.cur = false) : spends (conclude k buf answered s) ≤ later k := by
  have hgo : ∀ T : Turn, spends T ≤ later k →
      spends (if answered = true then T else ringHead s) ≤ later k := by
    intro T hT
    split
    · exact hT
    · exact (spends_ringHead hoff).le.trans (Nat.zero_le _)
  cases k with
  | device => exact hgo _ (le_refl 8)
  | address newAddr => exact hgo _ (le_refl 6)
  | config => exact hgo _ (le_refl 4)
  | bos => exact le_refl 2
  | configure => exact hgo _ (le_refl 0)

theorem spends_turn (hoff : s.sigHostEnable.cur = false) (hph : ph ≠ .disabled) :
    spends (turn ph o s) ≤ left ph := by
  cases ph with
  | boot =>
    rw [turn,mainHead,if_pos (show (initSignals s).sigHostEnable.cur = false from hoff)]
    exact le_refl 0
  | disabled => exact absurd rfl hph
  | setup k addr buf => exact (spends_waits ..).le
  | settling k addr buf =>
    rw [turn,collect]
    split
    · rw [spends_sends]
      exact (Nat.add_comm _ _).le
    · rw [spends_sends]
      exact (Nat.add_comm _ _).le
  | status k addr buf => exact (spends_waits ..).le
  | closing k buf answered => exact spends_conclude k buf answered hoff
  | addressing buf => exact le_refl 6
  | announcing => exact (spends_ringHead (s := writeEnumDone false s) hoff).le
  | idle => exact (spends_ringHead hoff).le
  | transfer trb =>
    rw [turn]
    split
    · exact le_refl 0
    · refine (spends_ringHead ?_).le
      rw [receive]
      split <;> exact hoff
  | completing => exact (spends_ringHead (s := writeXferDone false s) hoff).le

end Host

section Runs
variable {γ : Type} {w : Watch γ Drd WaitPoint Payload TlmResponse Loop Action Payload (Tid n)}
  {ok : γ → DrdConf n → DrdLabel Action n → Prop} {g : γ} {c c' : DrdConf n}

theorem woken_enabled (hr : Reach (drdKernel n) (drdBoot n) w ok g c)
    (hloc : c.loc hostThread = .ready (.woke .enablePosedge)) :
    c.state.sigHostEnable.cur = true := by
  refine hr.woken (P := fun s => s.sigHostEnable.cur = true) rfl (fun s hs => ?_) bootWith_wellTimed
    (fun h => by cases h) (fun g c u c' ht h => ?_) (fun a s s' ha h => ?_) hloc
  · exact ((Sig.rises_eq_true _).mp hs).2
  · rw [(enables_eval ht).1]
    exact h
  · have hkeep := congrArg (·.sigHostEnable.cur) (Action.apply_unwritten ha)
    exact hkeep.trans h

theorem left_step {g : Phase} {l : DrdLabel Action n}
    (ht : Taken (drdKernel n) (drdBoot n) (phases Action n) (fun _ _ _ => True) g c l c')
    (hoff : c.state.sigHostEnable.cur = false) :
    (if Counted (Sends (· = hostThread)) c' l then 1 else 0) +
      left ((phases Action n).next g c l c') ≤ left g := by
  by_cases hl : l = .eval hostThread
  · subst hl
    obtain ⟨o,hloc,hst,hloc',-⟩ := taken_turn rfl ht
    have hph : g ≠ .disabled := by
      rintro rfl
      obtain rfl := hst.woke rfl
      rw [woken_enabled ht.reach hloc] at hoff
      cases hoff
    have hnext : (phases Action n).next g c (.eval hostThread) c' = (turn g o c.state).phase := by
      simp [phases,hloc]
    have hspends := spends_turn (o := o) hoff hph
    rw [hnext]
    simp only [Counted,Sends,hloc',true_and]
    exact hspends
  · have hcount : ¬Counted (Sends (· = hostThread)) c' l := by
      cases l with
      | eval t => exact fun h => hl (congrArg Label.eval h.1)
      | _ => exact id
    have hnext : (phases Action n).next g c l c' = g := by
      cases l with
      | eval t => exact if_neg fun h => hl (congrArg Label.eval h)
      | _ => rfl
    rw [if_neg hcount,hnext,Nat.zero_add]

end Runs

/-- In every run, whatever the peer does and however long its calls take: once it is disabled, the
host controller sends at most nine packets until it is enabled again, which are those that an
enumeration sends after its first. -/
theorem host_late (n : ℕ) (g : ℕ) (c : DrdConf n)
    (hr : Reach (drdKernel n) (drdBoot n) hostLate (fun _ _ _ => True) g c) : g ≤ 9 := by
  obtain ⟨x,rfl,hx⟩ := hr.lift (w := hostLate.pair (phases Action n)) Prod.fst rfl
    fun _ _ _ _ => rfl
  have hle := (lapse_le (fun _ _ _ => True) hx (fun ph _ => left ph) (fun ph _ => left_le ph)
    fun g c l c' ht hoff _ => left_step ht hoff).2
  exact (Nat.le_add_right _ _).trans hle

/-- VBUS falls after the first SETUP packet, and the enumeration goes on to its end. -/
def lateRun : List (DrdLabel Action 0) :=
  attachRun .ufpAttached ++ Transmit.dropDuringSetup ++ [.eval hostThread,.reply hostThread .ok,
    .eval hostThread,.advance (2*us)] ++ controlRun .ok ++ [.eval hostThread,.delta,
    .advance (2*ms)] ++ controlRun .ok ++ controlRun .ok ++ (controlRun .ok).take 5

theorem host_late_nine : ∃ (g : ℕ) (c : DrdConf 0),
    Reach (drdKernel 0) (drdBoot 0) hostLate (fun _ _ _ => True) g c ∧ g = 9 := by
  obtain ⟨g,c,hr,hnine⟩ := exists_reach (drdKernel 0) (drdBoot 0) hostLate (fun _ _ _ => True)
    (fun g _ => 9 ≤ g) lateRun (by decide +kernel)
  exact ⟨g,c,hr,(host_late 0 g c hr).antisymm hnine⟩

instance : DecidablePred (Transmit.ofDevice (n := n))
  | .inl p => inferInstanceAs (Decidable (p = .loopbackProcess))
  | .inr _ => isTrue trivial

/-- The bulk payload that the device controller takes in when a call begins. -/
def landing (g : DeviceLog n) (c : DrdConf n) : Tid n → Option (List Byte)
  | .inl _ => none
  | .inr i =>
    match g.arrived (.inr i) with
    | some p =>
      if c.loc (.inr i) = .ready .start ∧ Handled p c.state ∧ kind p = .out then some p.data else none
    | none => none

def lateAt (c' : DrdConf n) : DrdLabel Action n → List (Option Usb3PktType × List Byte)
  | .eval t => if Transmit.ofDevice t then (saidAt (c'.loc t)).toList else []
  | _ => []

/-- Beside the history of the device controller: the last payload that came in during the present
phase, the last one of the phase in which the enable fell, and what has been sent since. -/
structure DeviceLate (n : ℕ) where
  log : DeviceLog n := {}
  fresh : Option (List Byte) := none
  fall : Option (List Byte) := none
  sent : List (Option Usb3PktType × List Byte) := []

def deviceLate (n : ℕ) :
    Watch (DeviceLate n) Drd WaitPoint Payload TlmResponse Loop Action Payload (Tid n) where
  init := {}
  next g c l c' :=
    { log := (deviceLog n).next g.log c l c'
      fresh :=
        match l with
        | .eval t => (landing g.log c t).or g.fresh
        | .delta => none
        | _ => g.fresh
      fall :=
        if c.state.sigDevEnable.cur = true ∧ c'.state.sigDevEnable.cur = false then g.fresh
        else g.fall
      sent :=
        if c'.state.sigDevEnable.cur = true then []
        else if c.state.sigDevEnable.cur = false then g.sent ++ lateAt c' l else g.sent }

section Device
variable {ok : DeviceLog n → DrdConf n → DrdLabel Action n → Prop} {g : DeviceLog n}
  {c c' : DrdConf n} {l : DrdLabel Action n}

theorem call_off {i : Fin n} (hoff : c.state.sigDevEnable.cur = false)
    (ht : Taken (drdKernel n) (drdBoot n) (deviceLog n) ok g c (.eval (.inr i)) c') :
    c'.state.devCtrl = c.state.devCtrl ∧ saidAt (c'.loc (.inr i)) = none := by
  obtain ⟨p,o,-,-,hguar⟩ := (call_server i).eval ht
  cases o with
  | start =>
    have hnot : ¬Handled p c.state := fun h => absurd (hoff.symm.trans h.2.2) (by simp)
    rw [callGuar,if_neg hnot] at hguar
    obtain ⟨_,hs⟩ := passBy_frame p c.state
    exact ⟨by rw [hguar.1,hs],hguar.2⟩
  | woke w => exact ⟨by rw [hguar.1],hguar.2⟩
  | returned q r => exact ⟨by rw [hguar.1],hguar.2⟩

theorem loop_turn (ht : Taken (drdKernel n) (drdBoot n) (deviceLog n) ok g c
      (.eval loopbackThread) c') :
    (saidAt (c'.loc loopbackThread) = none ∧ c'.state.devCtrl = c.state.devCtrl) ∨
      (c.loc loopbackThread = .ready (.woke .outEp) ∧ Moves c.state ∧
        (∃ layer, c'.state = { DeviceController.moveLoopback c.state with protocol := layer }) ∧
        ∃ data, saidAt (c'.loc loopbackThread) = some (some .tpErdy,data)) := by
  obtain ⟨o,hloc,hguar⟩ := loop_eval ht
  have hwaits : ∀ {v}, c'.loc loopbackThread = .waiting v →
      saidAt (c'.loc loopbackThread) = none := by
    intro v hv
    rw [hv]
    rfl
  cases o with
  | start => exact .inl ⟨hwaits hguar.2,by rw [hguar.1]⟩
  | returned q r => exact .inl ⟨hwaits hguar.2,by rw [hguar.1]⟩
  | woke v =>
    rw [loopGuar] at hguar
    split at hguar
    · rename_i hv
      split at hguar
      · rename_i hmoves
        obtain ⟨hstate,q,hq,hty⟩ := hguar
        exact .inr ⟨by rw [hloc,hv],hmoves,hstate,q.data,by rw [hq,saidAt,hty]⟩
      · exact .inl ⟨hwaits hguar.2,by rw [hguar.1]⟩
    · exact .inl ⟨hwaits hguar.2,by rw [hguar.1]⟩

theorem loop_event (ht : Taken (drdKernel n) (drdBoot n) (deviceLog n) ok g c
      (.eval loopbackThread) c') :
    c'.state.devCtrl.mOutEpEvent = c.state.devCtrl.mOutEpEvent := by
  rcases loop_turn ht with ⟨-,hdev⟩ | ⟨-,-,⟨layer,hs⟩,-⟩
  · rw [hdev]
  · rw [hs]
    rfl

/-- While it is disabled, nothing is notified to the loopback. -/
theorem unnotified (hr : Reach (drdKernel n) (drdBoot n) (deviceLog n) ok g c)
    (hoff : c.state.sigDevEnable.cur = false) : c.state.devCtrl.mOutEpEvent = false := by
  induction hr with
  | boot => rfl
  | @step g c l c' hr hok hs ih =>
    have ht : Taken (drdKernel n) (drdBoot n) (deviceLog n) ok g c l c' := ⟨hr,hok,hs⟩
    cases l with
    | eval t =>
      have hoff' : c.state.sigDevEnable.cur = false := by rw [← (enables_eval ht).2,hoff]
      rcases t with p | i
      · by_cases hp : p = .loopbackProcess
        · subst hp
          rw [loop_event ht]
          exact ih hoff'
        · rw [(core_peer hp ht).1]
          exact ih hoff'
      · rw [(call_off hoff' ht).1]
        exact ih hoff'
    | act a =>
      obtain ⟨s,ha,rfl⟩ := step_act hs
      have hkeep := Action.apply_unwritten ha
      have hdev := congrArg (·.devCtrl.mOutEpEvent) hkeep
      have hen := congrArg (·.sigDevEnable.cur) hkeep
      exact hdev.trans (ih (hen.symm.trans hoff))
    | delta => obtain ⟨-,rfl⟩ := step_delta hs; rfl
    | advance d => obtain ⟨-,-,-,rfl⟩ := step_advance hs; exact ih hoff
    | enter t e => obtain ⟨_,-,-,rfl⟩ := step_enter hs; exact ih hoff
    | reply t r => obtain ⟨_,_,-,rfl⟩ := step_reply hs; exact ih hoff

def due (c : DrdConf n) : ℕ := if c.loc loopbackThread = .ready (.woke .outEp) then 1 else 0

theorem due_le (c : DrdConf n) : due c ≤ 1 := by
  rw [due]
  split
  · exact le_refl 1
  · exact Nat.zero_le 1

theorem due_step (ht : Taken (drdKernel n) (drdBoot n) (deviceLog n) ok g c l c')
    (hoff : c.state.sigDevEnable.cur = false) :
    (if Counted (Sends Transmit.ofDevice) c' l then 1 else 0) +
      due c' ≤ due c := by
  have hwoken : c'.loc loopbackThread = .ready (.woke .outEp) →
      c.loc loopbackThread = .ready (.woke .outEp) := by
    intro hloc
    rcases step_woken (ht.reach.wellTimed bootWith_wellTimed) rfl ht.step hloc with
      ⟨hbefore,-⟩ | ⟨-,hfires⟩
    · exact hbefore
    · have hevent : c.state.devCtrl.mOutEpEvent = true := hfires
      rw [unnotified ht.reach hoff] at hevent
      cases hevent
  have hquiet : ¬Counted (Sends Transmit.ofDevice) c' l →
      (if Counted (Sends Transmit.ofDevice) c' l then 1 else 0) +
        due c' ≤ due c := by
    intro hcount
    rw [if_neg hcount,Nat.zero_add,due]
    split
    · rename_i hloc
      rw [due,if_pos (hwoken hloc)]
    · exact Nat.zero_le _
  cases l with
  | eval t =>
    rcases t with p | i
    · by_cases hp : p = .loopbackProcess
      · subst hp
        by_cases hcount : Counted (Sends Transmit.ofDevice) c' (.eval loopbackThread : DrdLabel Action n)
        · -- it has spoken, so it stands in its call
          have hdone : due c' = 0 := if_neg (eval_not_ready ht.step _)
          have hsaid := hcount.2
          rcases loop_turn ht with ⟨hnone,-⟩ | ⟨hwoken,-⟩
          · rw [hnone] at hsaid
            cases hsaid
          · rw [if_pos hcount,hdone,due,if_pos hwoken]
        · exact hquiet hcount
      · exact hquiet fun h => hp h.1
    · refine hquiet fun h => ?_
      have hsaid := h.2
      rw [(call_off hoff ht).2] at hsaid
      cases hsaid
  | _ => exact hquiet id

theorem fifo_eval {t : Tid n} (hne : t ≠ loopbackThread)
    (ht : Taken (drdKernel n) (drdBoot n) (deviceLog n) ok g c (.eval t) c') :
    match landing g c t with
    | some data => c'.state.devCtrl.mEp2Out = ⟨data,true⟩
    | none => c'.state.devCtrl.mEp2Out = c.state.devCtrl.mEp2Out ∧
        c'.state.devCtrl.mOutEpEvent = c.state.devCtrl.mOutEpEvent := by
  rcases t with p | i
  · have hp : p ≠ .loopbackProcess := fun h => hne (congrArg Sum.inl h)
    have hdev := (core_peer hp ht).1
    exact ⟨congrArg _ hdev,congrArg _ hdev⟩
  obtain ⟨p,o,hp,hloc,hguar⟩ := (call_server i).eval ht
  have hlater : o ≠ .start → landing g c (.inr i) = none := by
    intro ho
    simp [landing,hp,hloc,ho]
  cases o with
  | start =>
    by_cases hh : Handled p c.state
    · rw [callGuar,if_pos hh] at hguar
      obtain ⟨⟨layer,hs⟩,-⟩ := hguar
      have hbuffer := absorb_mEp2Out p c.state
      have hevent := absorb_mOutEpEvent p c.state
      by_cases hout : kind p = .out
      · have hlands : landing g c (.inr i) = some p.data := by simp [landing,hp,hloc,hh,hout]
        rw [hlands,hs]
        exact hbuffer.trans (if_pos hout)
      · have hnone : landing g c (.inr i) = none := by simp [landing,hp,hout]
        rw [hnone,hs]
        exact ⟨hbuffer.trans (if_neg hout),hevent.trans (by simp [hout])⟩
    · have hnone : landing g c (.inr i) = none := by simp [landing,hp,hh]
      rw [callGuar,if_neg hh] at hguar
      obtain ⟨_,hs⟩ := passBy_frame p c.state
      rw [hnone,hguar.1,hs]
      exact ⟨rfl,rfl⟩
  | woke w =>
    rw [hlater (by simp),hguar.1]
    exact ⟨rfl,rfl⟩
  | returned q r =>
    rw [hlater (by simp),hguar.1]
    exact ⟨rfl,rfl⟩

end Device

section Late
variable {g : DeviceLate n} {c c' : DrdConf n} {l : DrdLabel Action n}

theorem late_log (hr : Reach (drdKernel n) (drdBoot n) (deviceLate n) (fun _ _ _ => True) g c) :
    Reach (drdKernel n) (drdBoot n) (deviceLog n) (fun _ _ _ => True) g.log c :=
  hr.image DeviceLate.log rfl fun _ _ _ _ => rfl

theorem length_lateAt (c' : DrdConf n) (l : DrdLabel Action n) :
    (lateAt c' l).length = if Counted (Sends Transmit.ofDevice) c' l then 1 else 0 := by
  cases l with
  | eval t =>
    by_cases hcount : Counted (Sends Transmit.ofDevice) c' (.eval t : DrdLabel Action n)
    · obtain ⟨x,hx⟩ := Option.isSome_iff_exists.mp hcount.2
      rw [if_pos hcount,lateAt,if_pos hcount.1,hx]
      rfl
    · rw [if_neg hcount,lateAt]
      split
      · rename_i ht
        have hnone : saidAt (c'.loc t) = none := by simpa using fun h => hcount ⟨ht,h⟩
        rw [hnone]
        rfl
      · rfl
  | _ => rfl

theorem lateAt_device {t : Tid n} (h : Transmit.ofDevice t) :
    lateAt c' (.eval t : DrdLabel Action n) = (saidAt (c'.loc t)).toList := if_pos h

/-- What has been sent and what is about to be sent are one packet at most. -/
theorem late_le (hr : Reach (drdKernel n) (drdBoot n) (deviceLate n) (fun _ _ _ => True) g c) :
    (c.state.sigDevEnable.cur = true → g.sent = []) ∧ g.sent.length + due c ≤ 1 := by
  have hx := hr.image (v := (lapseLog (·.sigDevEnable.cur) (Sends Transmit.ofDevice)).pair (deviceLog n))
    (fun g => (g.sent.length,g.log)) rfl fun g c l c' => by
      refine Prod.ext ?_ rfl
      show (if _ then _ else _ : List _).length = if _ then _ else _
      split
      · rfl
      · by_cases hoff : c.state.sigDevEnable.cur = false
        · rw [if_pos hoff,List.length_append,length_lateAt]
          split
          · rename_i hcount
            rw [if_pos ⟨hoff,hcount⟩]
          · rename_i hcount
            rw [if_neg fun h => hcount h.2]
            rfl
        · rw [if_neg hoff,if_neg fun h => hoff h.1]
  have hle := lapse_le (fun _ _ _ => True) hx (fun _ => due) (fun _ => due_le)
    fun _ _ _ _ ht hoff _ => due_step ht hoff
  exact ⟨fun hon => List.length_eq_zero_iff.mp (hle.1 hon),hle.2⟩

/-- A disabled controller does nothing but to move a payload that its loopback was woken for. -/
theorem late_turn (ht : Taken (drdKernel n) (drdBoot n) (deviceLog n) (fun _ _ _ => True) g.log c l c')
    (hoff : c.state.sigDevEnable.cur = false) :
    (lateAt c' l = [] ∧ c'.state.devCtrl.mEp1In = c.state.devCtrl.mEp1In ∧
        c'.state.devCtrl.mEp2Out = c.state.devCtrl.mEp2Out) ∨
      (c.loc loopbackThread = .ready (.woke .outEp) ∧ c.state.devCtrl.mEp2Out.hasData = true ∧
        (∃ data, lateAt c' l = [(some .tpErdy,data)]) ∧ c'.state.devCtrl.mEp2Out = {} ∧
        c'.state.devCtrl.mEp1In = ⟨c.state.devCtrl.mEp2Out.buffer,true⟩) := by
  have hbetween : (∀ t, l ≠ .eval t) → lateAt c' l = [] → lateAt c' l = [] ∧
      c'.state.devCtrl.mEp1In = c.state.devCtrl.mEp1In ∧
      c'.state.devCtrl.mEp2Out = c.state.devCtrl.mEp2Out := by
    intro hl hlate
    have hcore := core_between ht.step hl
    exact ⟨hlate,congrArg (·.1.mEp1In) hcore,congrArg (·.1.mEp2Out) hcore⟩
  cases l with
  | eval t =>
    rcases t with p | i
    · by_cases hp : p = .loopbackProcess
      · subst hp
        have hlate : lateAt c' (.eval loopbackThread : DrdLabel Action n) = _ := lateAt_device rfl
        rcases loop_turn ht with ⟨hsaid,hdev⟩ | ⟨hwoken,hmoves,⟨layer,hs⟩,data,hsaid⟩
        · exact .inl ⟨by rw [hlate,hsaid]; rfl,congrArg _ hdev,congrArg _ hdev⟩
        · exact .inr ⟨hwoken,hmoves.2,⟨data,by rw [hlate,hsaid]; rfl⟩,by rw [hs]; rfl,by rw [hs]; rfl⟩
      · have hdev := (core_peer hp ht).1
        exact .inl ⟨if_neg hp,congrArg _ hdev,congrArg _ hdev⟩
    · obtain ⟨hdev,hsaid⟩ := call_off hoff ht
      refine .inl ⟨?_,congrArg _ hdev,congrArg _ hdev⟩
      rw [lateAt_device (t := .inr i) trivial,hsaid]
      rfl
  | _ => exact .inl (hbetween (by simp) rfl)

theorem enable_between (ht : Taken (drdKernel n) (drdBoot n) (deviceLog n) (fun _ _ _ => True) g.log c
    l c') (hl : l ≠ .delta) : c'.state.sigDevEnable.cur = c.state.sigDevEnable.cur := by
  by_cases heval : ∃ t, l = .eval t
  · obtain ⟨t,rfl⟩ := heval
    exact (enables_eval ht).2
  · have hsig : c'.state.sigDevEnable = c.state.sigDevEnable := by
      refine step_keeps ht.step (fun t h => heval ⟨t,h⟩) (fun a s _ ha => ?_) fun h => absurd h hl
      exact congrArg (·.sigDevEnable) (Action.apply_unwritten ha)
    exact congrArg Sig.cur hsig

/-- What the loopback announces once the controller is disabled is the last payload that came in
before. -/
structure Announces (g : DeviceLate n) (c : DrdConf n) : Prop where
  fresh : c.state.devCtrl.mOutEpEvent = true → c.state.devCtrl.mEp2Out.hasData = true →
    g.fresh = some c.state.devCtrl.mEp2Out.buffer
  woken : c.state.sigDevEnable.cur = false → c.loc loopbackThread = .ready (.woke .outEp) →
    c.state.devCtrl.mEp2Out.hasData = true → g.fall = some c.state.devCtrl.mEp2Out.buffer
  sent : ∀ x ∈ g.sent, x.1 = some .tpErdy ∧ ∃ data, g.fall = some data ∧
    c.state.devCtrl.mEp1In = ⟨data,true⟩

theorem announces_fresh (h : Announces g c)
    (ht : Taken (drdKernel n) (drdBoot n) (deviceLog n) (fun _ _ _ => True) g.log c l c')
    (hevent : c'.state.devCtrl.mOutEpEvent = true) (hfull : c'.state.devCtrl.mEp2Out.hasData = true) :
    ((deviceLate n).next g c l c').fresh = some c'.state.devCtrl.mEp2Out.buffer := by
  have hsame : c'.state.devCtrl.mEp2Out = c.state.devCtrl.mEp2Out ∧
      c'.state.devCtrl.mOutEpEvent = c.state.devCtrl.mOutEpEvent →
      g.fresh = some c'.state.devCtrl.mEp2Out.buffer := by
    rintro ⟨hfifo,hevent'⟩
    rw [hevent'] at hevent
    rw [hfifo] at hfull ⊢
    exact h.fresh hevent hfull
  have hbetween : (∀ t, l ≠ .eval t) → l ≠ .delta → g.fresh = some c'.state.devCtrl.mEp2Out.buffer := by
    intro heval hdelta
    have hdev : c'.state.devCtrl = c.state.devCtrl := by
      refine step_keeps ht.step heval (fun a s _ ha => ?_) fun hl => absurd hl hdelta
      exact congrArg (·.devCtrl) (Action.apply_unwritten ha)
    exact hsame ⟨congrArg _ hdev,congrArg _ hdev⟩
  cases l with
  | eval t =>
    by_cases hloop : t = loopbackThread
    · subst hloop
      rcases loop_turn ht with ⟨-,hdev⟩ | ⟨-,-,⟨layer,hs⟩,-⟩
      · exact hsame ⟨congrArg _ hdev,congrArg _ hdev⟩
      · rw [hs] at hfull
        cases hfull
    · have hfifo := fifo_eval hloop ht
      show (landing g.log c t).or g.fresh = _
      cases hlands : landing g.log c t with
      | some data =>
        rw [hlands] at hfifo
        rw [hfifo]
        rfl
      | none =>
        rw [hlands] at hfifo
        exact hsame hfifo
  | delta =>
    obtain ⟨-,rfl⟩ := step_delta ht.step
    cases hevent
  | _ => exact hbetween (by simp) (by simp)

theorem announces_woken (h : Announces g c)
    (ht : Taken (drdKernel n) (drdBoot n) (deviceLog n) (fun _ _ _ => True) g.log c l c')
    (hoff : c'.state.sigDevEnable.cur = false) (hwoken : c'.loc loopbackThread = .ready (.woke .outEp))
    (hfull : c'.state.devCtrl.mEp2Out.hasData = true) :
    ((deviceLate n).next g c l c').fall = some c'.state.devCtrl.mEp2Out.buffer := by
  rcases step_woken (ht.reach.wellTimed bootWith_wellTimed) rfl ht.step hwoken with
    ⟨hbefore,hdelta,-⟩ | ⟨rfl,hfires⟩
  · -- it was woken before, and nothing has reached its buffer since
    have hoff' : c.state.sigDevEnable.cur = false := (enable_between ht hdelta).symm.trans hoff
    have hfall : ((deviceLate n).next g c l c').fall = g.fall :=
      if_neg fun h => absurd (hoff'.symm.trans h.1) (by simp)
    rcases late_turn ht hoff' with ⟨-,-,hfifo⟩ | ⟨-,-,-,hempty,-⟩
    · rw [hfall,hfifo]
      exact h.woken hoff' hbefore (by rw [← hfifo]; exact hfull)
    · rw [hempty] at hfull
      cases hfull
  · -- an event of this phase wakes it, so the enable falls in this very update
    have hevent : c.state.devCtrl.mOutEpEvent = true := hfires
    have hon : c.state.sigDevEnable.cur = true := by
      by_contra hoff'
      rw [unnotified ht.reach (by simpa using hoff')] at hevent
      cases hevent
    have hfall : ((deviceLate n).next g c .delta c').fall = g.fresh := if_pos ⟨hon,hoff⟩
    obtain ⟨-,rfl⟩ := step_delta ht.step
    rw [hfall]
    exact h.fresh hevent hfull

theorem announces_sent (h : Announces g c) (hle : (c.state.sigDevEnable.cur = true → g.sent = []) ∧
      g.sent.length + due c ≤ 1)
    (ht : Taken (drdKernel n) (drdBoot n) (deviceLog n) (fun _ _ _ => True) g.log c l c') :
    ∀ x ∈ ((deviceLate n).next g c l c').sent, x.1 = some .tpErdy ∧
      ∃ data, ((deviceLate n).next g c l c').fall = some data ∧
        c'.state.devCtrl.mEp1In = ⟨data,true⟩ := by
  intro x hx
  by_cases hoff' : c'.state.sigDevEnable.cur = true
  · rw [show ((deviceLate n).next g c l c').sent = [] from if_pos hoff'] at hx
    cases hx
  by_cases hoff : c.state.sigDevEnable.cur = false
  · have hfall : ((deviceLate n).next g c l c').fall = g.fall :=
      if_neg fun h => absurd (hoff.symm.trans h.1) (by simp)
    have hsent : ((deviceLate n).next g c l c').sent = g.sent ++ lateAt c' l :=
      (if_neg hoff').trans (if_pos hoff)
    rw [hsent] at hx
    rw [hfall]
    rcases late_turn ht hoff with ⟨hnone,hgiven,-⟩ | ⟨hwoken,hfull,⟨data,hone⟩,-,hgiven⟩
    · rw [hnone,List.append_nil] at hx
      rw [hgiven]
      exact h.sent x hx
    · -- the one packet was still due, so none has been sent
      have hdue : due c = 1 := if_pos hwoken
      have hempty : g.sent = [] := List.length_eq_zero_iff.mp (by omega)
      rw [hempty,hone,List.nil_append,List.mem_singleton] at hx
      exact ⟨by rw [hx],_,h.woken hoff hwoken hfull,hgiven⟩
  · have hsent : ((deviceLate n).next g c l c').sent = g.sent := (if_neg hoff').trans (if_neg hoff)
    rw [hsent,hle.1 (by simpa using hoff)] at hx
    cases hx

theorem announces_reach (hr : Reach (drdKernel n) (drdBoot n) (deviceLate n) (fun _ _ _ => True) g c) :
    Announces g c := by
  induction hr with
  | boot =>
    refine ⟨fun h => ?_,fun _ h => ?_,fun x hx => ?_⟩
    · cases h
    · cases h
    · cases hx
  | @step g c l c' hr _ hs ih =>
    have ht : Taken (drdKernel n) (drdBoot n) (deviceLog n) (fun _ _ _ => True) g.log c l c' :=
      ⟨late_log hr,trivial,hs⟩
    exact ⟨announces_fresh ih ht,announces_woken ih ht,announces_sent ih (late_le hr) ht⟩

end Late

/-- In every run, with any number of calls from the link: once it is disabled, the device
controller sends at most one packet until it is enabled again, by which the loopback announces the
last payload that came in during the phase in which the enable fell. -/
theorem device_late (n : ℕ) (g : DeviceLate n) (c : DrdConf n)
    (hr : Reach (drdKernel n) (drdBoot n) (deviceLate n) (fun _ _ _ => True) g c) :
    g.sent.length ≤ 1 ∧ ∀ x ∈ g.sent, x.1 = some .tpErdy ∧
      ∃ data, g.fall = some data ∧ c.state.devCtrl.mEp1In = ⟨data,true⟩ :=
  ⟨(Nat.le_add_right _ _).trans (late_le hr).2,(announces_reach hr).sent⟩

/-- The monitor enables the device controller of a role that is gone. When the role comes back
the device controller takes data in the phase in which the monitor disables it. -/
def takenLateRun : List (DrdLabel Action 1) :=
  roleRun .dfpAttached ++ [.eval monitorThread,.eval collectorThread,.delta] ++ pulseRun ++
    changeRun [.setVbus false] ++ [.eval collectorThread] ++ pulseRun ++
    [.advance (980*ns),.eval monitorThread,.delta] ++ changeRun [.setVbus true] ++
    [.eval collectorThread] ++
    arrive configurePacket ++ arrive (outPacket [7]) ++
    [.eval monitorThread,.delta,.eval loopbackThread]

theorem device_late_one : ∃ (g : DeviceLate 1) (c : DrdConf 1),
    Reach (drdKernel 1) (drdBoot 1) (deviceLate 1) (fun _ _ _ => True) g c ∧ g.sent.length = 1 ∧
    g.fall = some [7] ∧ ∀ x ∈ g.sent, x.1 = some .tpErdy := by
  obtain ⟨g,c,hr,hone,hfall⟩ := exists_reach (drdKernel 1) (drdBoot 1) (deviceLate 1)
    (fun _ _ _ => True) (fun g _ => 1 ≤ g.sent.length ∧ g.fall = some [7]) takenLateRun
    (by decide +kernel)
  obtain ⟨hle,hsent⟩ := device_late 1 g c hr
  exact ⟨g,c,hr,hle.antisymm hone,hfall,fun x hx => (hsent x hx).1⟩

end LateTraffic
end Usb3Drd
