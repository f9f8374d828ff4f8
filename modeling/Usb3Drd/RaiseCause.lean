import Usb3Drd.Coop.Latch
import Usb3Drd.StickyBits
import Usb3Drd.TransferRing

/-! Why a status bit rises. The collector samples all of its sources when any of them
changes, so a pulse whose bit was cleared already may raise it again. -/
namespace Usb3Drd
namespace RaiseCause

open Coop DrdController

variable {n : ℕ}

inductive Source
  | enumDone | xferDone | bulkIrq
  deriving DecidableEq

instance : Fintype Source where
  elems := {.enumDone,.xferDone,.bulkIrq}
  complete x := by cases x <;> decide

def Source.line : Source → Drd → Sig Bool
  | .enumDone, s => s.sigEnumDone
  | .xferDone, s => s.sigXferDone
  | .bulkIrq, s => s.sigBulkIrq

def Source.bit : Source → ℕ
  | .enumDone => 3
  | .xferDone => 4
  | .bulkIrq => 5

def Source.pending (x : Source) (s : Drd) : Bool := s.mIntrStatus.getLsbD x.bit

/-- What may raise or clear: an update phase, with the state it finds, and an access. -/
inductive IrqMark
  | update (s : Drd)
  | access (p : Payload)

def clearedBits (p : Payload) : BitVec 32 :=
  match Interrupt.written p with
  | some w => if w.1 = regIntrStatus then w.2 else 0
  | none => 0

def Source.RisesAt (x : Source) : IrqMark → Prop
  | .update s => (x.line s).rises = true
  | .access _ => False

/-- Software writes a one to the bit, be it set or not. -/
def Source.ClearedAt (x : Source) : IrqMark → Prop
  | .update _ => False
  | .access p => (clearedBits p).getLsbD x.bit = true

/-- What happened so far, and which sources had their bit cleared while they were high and
since they rose. -/
structure IrqLog where
  marks : List IrqMark := []
  served : Source → Bool := fun _ => false

def IrqLog.noteUpdate (g : IrqLog) (s : Drd) : IrqLog where
  marks := g.marks ++ [.update s]
  served x := if (x.line s).rises then false else g.served x

def IrqLog.noteAccess (g : IrqLog) (p : Payload) (s : Drd) : IrqLog where
  marks := g.marks ++ [.access p]
  served x := g.served x || ((x.line s).cur && (clearedBits p).getLsbD x.bit)

def irqLog : Watch IrqLog Drd WaitPoint Payload TlmResponse Loop Action Payload (Tid n) where
  init := {}
  next g c l _ := match l with
    | .delta => g.noteUpdate c.state
    | .act (.cfgAccess p) => g.noteAccess p c.state
    | _ => g

/-- The source rose after its bit was cleared last. -/
def Source.Fresh (x : Source) (g : IrqLog) : Prop := SetSince x.RisesAt x.ClearedAt g.marks

/-- A bit that goes from 0 to 1 has been raised by an edge of its source. -/
def Caused (g : IrqLog) (s s' : Drd) : Prop :=
  ∀ x : Source, x.pending s = false → x.pending s' = true → x.Fresh g

/-- The collector does not run while a source is high whose bit was cleared in that pulse. -/
def unserved (g : IrqLog) (c : DrdConf n) : DrdLabel Action n → Prop
  | .eval t => t = collectorThread → ∀ x : Source, (x.line c.state).cur = true → g.served x = false
  | _ => True

instance (g : IrqLog) (c : DrdConf n) : ∀ l, Decidable (unserved g c l)
  | .eval _ => inferInstanceAs (Decidable (_ → ∀ _ : Source, _))
  | .act _ | .enter _ _ | .reply _ _ | .delta | .advance _ => isTrue trivial

section Code
variable {γ : Type} {w : Watch γ Drd WaitPoint Payload TlmResponse Loop Action Payload (Tid n)}
  {ok : γ → DrdConf n → DrdLabel Action n → Prop} {g : γ} {c c' : DrdConf n}
  {l : DrdLabel Action n}

theorem collected_bit (x : Source) (s : Drd) :
    (collected s).getLsbD x.bit = (x.line s).cur := by
  cases henum : s.sigEnumDone.cur with
  | _ => cases hxfer : s.sigXferDone.cur with
    | _ => cases hbulk : s.sigBulkIrq.cur with
      | _ => cases x <;>
        simp [collected,Source.bit,Source.line,henum,hxfer,hbulk,intrEnumDone,intrXferDone,
          intrBulkIrq]

theorem pending_monitor (x : Source)
    (ht : Taken (drdKernel n) (drdBoot n) w ok g c (.eval monitorThread) c') :
    x.pending c'.state = x.pending c.state := by
  obtain ⟨o,-,hturn⟩ := monitor_turn ht
  unfold monitorTurn at hturn
  split at hturn
  · rw [hturn.2]
    rfl
  · rw [hturn.2]
    rfl
  · obtain ⟨-,role,hs⟩ := hturn
    have hstatus : (enableRole role c.state).mIntrStatus = c.state.mIntrStatus := by
      cases role <;> rfl
    rw [hs,Source.pending,raiseIrq_status,hstatus,BitVec.getLsbD_or]
    cases x <;> exact Bool.or_false _
  · cases hturn

theorem line_eval (x : Source) {t : Tid n}
    (ht : Taken (drdKernel n) (drdBoot n) w ok g c (.eval t) c') :
    (x.line c'.state).cur = (x.line c.state).cur := by
  have hkeep := taken_unwritten ht
  have henum := congrArg (·.sigEnumDone.cur) hkeep
  have hxfer := congrArg (·.sigXferDone.cur) hkeep
  have hbulk := congrArg (·.sigBulkIrq.cur) hkeep
  rcases t with p | i
  · cases x with
    | enumDone => cases p <;> exact henum
    | xferDone => cases p <;> exact hxfer
    | bulkIrq => cases p <;> exact hbulk
  · cases x with
    | enumDone => exact henum
    | xferDone => exact hxfer
    | bulkIrq => exact hbulk

theorem line_act (x : Source) {a : Action} {s s' : Drd} (ha : a.apply s = some s') :
    x.line s' = x.line s := by
  have hkeep := congrArg x.line (Action.apply_unwritten ha)
  cases x <;> exact hkeep

theorem access_pending (x : Source) (p : Payload) (s : Drd) :
    x.pending (cfgBTransport p s).1 = (x.pending s && !(clearedBits p).getLsbD x.bit) := by
  have hlt : x.bit < 32 := by cases x <;> decide
  rw [Interrupt.cfgBTransport_state,clearedBits]
  cases Interrupt.written p with
  | none => simp
  | some w =>
    simp only [Source.pending,writeReg_status]
    split
    · simp [hlt]
    · simp

theorem pending_act (x : Source) {a : Action} {s s' : Drd} (ha : a.apply s = some s')
    (hp : ∀ p, a ≠ .cfgAccess p) : x.pending s' = x.pending s := by
  cases a with
  | cfgAccess p => exact absurd rfl (hp p)
  | setCcState cc => cases ha; rfl
  | setVbus v => cases ha; rfl
  | bulkOut a ep data =>
    obtain ⟨ring,-,rfl⟩ := Option.map_eq_some_iff.mp ha
    rfl
  | bulkIn a ep len =>
    obtain ⟨ring,-,rfl⟩ := Option.map_eq_some_iff.mp ha
    rfl

theorem pending_eval (x : Source) {t : Tid n} (hne : t ≠ collectorThread)
    (ht : Taken (drdKernel n) (drdBoot n) w ok g c (.eval t) c') :
    x.pending c'.state = x.pending c.state := by
  by_cases hmon : t = monitorThread
  · subst hmon
    exact pending_monitor x ht
  · have hstatus := congrArg (·.mIntrStatus) (taken_unwritten ht)
    have hpending : c'.state.mIntrStatus = c.state.mIntrStatus := by
      rcases t with p | i
      · cases p with
        | interruptCollector => exact absurd rfl hne
        | roleSwitchMonitor => exact absurd rfl hmon
        | _ => exact hstatus
      · exact hstatus
    rw [Source.pending,hpending,Source.pending]

/-- A run of the collector raises the bits of the sources that are high. -/
theorem pending_collect (x : Source)
    (ht : Taken (drdKernel n) (drdBoot n) w ok g c (.eval collectorThread) c') :
    x.pending c'.state = (x.pending c.state || (x.line c.state).cur) := by
  rw [collector_turn ht,Source.pending,interruptCollector_status,BitVec.getLsbD_or,collected_bit,
    Source.pending]

end Code

def Tracked (g : IrqLog) (s : Drd) : Prop :=
  ∀ x : Source, (x.line s).cur = true → (g.served x = false ↔ x.Fresh g)

/-- A bit that was cleared while its source is high stays clear. -/
def StaysClear (g : IrqLog) (s : Drd) : Prop :=
  ∀ x : Source, (x.line s).cur = true → x.pending s = true → g.served x = false

section Inv
variable {ok : IrqLog → DrdConf n → DrdLabel Action n → Prop} {g : IrqLog} {c c' : DrdConf n}
  {l : DrdLabel Action n}

theorem Tracked.congr {s s' : Drd} (h : Tracked g s)
    (hline : ∀ x : Source, (x.line s').cur = (x.line s).cur) : Tracked g s' := by
  intro x hx
  rw [hline] at hx
  exact h x hx

theorem Tracked.update {s : Drd} (h : Tracked g s) : Tracked (g.noteUpdate s) s.update := by
  intro x hx
  have hnxt : (x.line s).nxt = true := by
    cases x <;> exact hx
  rw [Source.Fresh,IrqLog.noteUpdate,setSince_snoc]
  cases hcur : (x.line s).cur with
  | false =>
    have hrises : (x.line s).rises = true := (Sig.rises_eq_true _).mpr ⟨hcur,hnxt⟩
    exact iff_of_true (if_pos hrises) (.inl hrises)
  | true =>
    have hno : ¬(x.line s).rises = true := by simp [hcur]
    dsimp only
    rw [if_neg hno]
    refine (h x hcur).trans ⟨fun hf => .inr ⟨hf,fun hc => hc⟩,fun hf => ?_⟩
    exact (hf.resolve_left hno).1

theorem Tracked.access {s : Drd} (h : Tracked g s) (p : Payload) :
    Tracked (g.noteAccess p s) (cfgBTransport p s).1 := by
  intro x hx
  have hline : x.line (cfgBTransport p s).1 = x.line s := line_act x (a := .cfgAccess p) rfl
  rw [hline] at hx
  rw [Source.Fresh,IrqLog.noteAccess,setSince_snoc]
  simp only [hx,Bool.true_and,Bool.or_eq_false_iff,Source.RisesAt,Source.ClearedAt,false_or,
    Bool.not_eq_true]
  exact and_congr_left fun _ => h x hx

theorem tracked (hr : Reach (drdKernel n) (drdBoot n) irqLog ok g c) : Tracked g c.state := by
  induction hr with
  | boot => intro x hx; cases x <;> cases hx
  | @step g c l c' hr hok hs ih =>
    have ht : Taken (drdKernel n) (drdBoot n) irqLog ok g c l c' := ⟨hr,hok,hs⟩
    cases l with
    | eval t => exact ih.congr fun x => line_eval x ht
    | act a =>
      obtain ⟨s,ha,rfl⟩ := step_act hs
      replace ha : a.apply c.state = some s := ha
      cases a with
      | cfgAccess p => cases ha; exact ih.access p
      | _ => exact ih.congr fun x => by rw [line_act x ha]
    | delta => obtain ⟨-,rfl⟩ := step_delta hs; exact ih.update
    | enter t e => obtain ⟨p,-,-,rfl⟩ := step_enter hs; exact ih
    | reply t r => obtain ⟨q,next,-,rfl⟩ := step_reply hs; exact ih
    | advance d => obtain ⟨-,-,-,rfl⟩ := step_advance hs; exact ih

theorem staysClear (hr : Reach (drdKernel n) (drdBoot n) irqLog unserved g c) :
    StaysClear g c.state := by
  induction hr with
  | boot => intro x hx; cases x <;> cases hx
  | @step g c l c' hr hok hs ih =>
    have ht : Taken (drdKernel n) (drdBoot n) irqLog unserved g c l c' := ⟨hr,hok,hs⟩
    intro x hx hp
    cases l with
    | eval t =>
      rw [line_eval x ht] at hx
      by_cases hcol : t = collectorThread
      · exact hok hcol x hx
      · rw [pending_eval x hcol ht] at hp
        exact ih x hx hp
    | act a =>
      obtain ⟨s,ha,rfl⟩ := step_act hs
      replace ha : a.apply c.state = some s := ha
      rw [line_act x ha] at hx
      cases a with
      | cfgAccess p =>
        cases ha
        have hp' : x.pending (cfgBTransport p c.state).1 = true := hp
        rw [access_pending,Bool.and_eq_true,Bool.not_eq_true'] at hp'
        have hserved := ih x hx hp'.1
        show (g.noteAccess p c.state).served x = false
        simp [IrqLog.noteAccess,hserved,hp'.2]
      | _ =>
        have hp' := (pending_act x ha (by simp)).symm.trans hp
        exact ih x hx hp'
    | delta =>
      obtain ⟨-,rfl⟩ := step_delta hs
      show (g.noteUpdate c.state).served x = false
      rw [IrqLog.noteUpdate]
      dsimp only
      split
      · rfl
      · rename_i hno
        have hnxt : (x.line c.state).nxt = true := by
          cases x <;> exact hx
        have hcur : (x.line c.state).cur = true := by
          by_contra hlow
          exact hno ((Sig.rises_eq_true _).mpr ⟨by simpa using hlow,hnxt⟩)
        exact ih x hcur hp
    | enter t e => obtain ⟨p,-,-,rfl⟩ := step_enter hs; exact ih x hx hp
    | reply t r => obtain ⟨q,next,-,rfl⟩ := step_reply hs; exact ih x hx hp
    | advance d => obtain ⟨-,-,-,rfl⟩ := step_advance hs; exact ih x hx hp

end Inv

/-- In a run in which the collector never found a pulse whose bit had been cleared in it, the
next step raises a bit without an edge exactly if the collector finds one. -/
theorem caused_iff_unserved (n : ℕ) (g : IrqLog) (c c' : DrdConf n) (l : DrdLabel Action n)
    (hr : Reach (drdKernel n) (drdBoot n) irqLog unserved g c)
    (hs : (drdKernel n).step c l = some c') :
    Caused g c.state c'.state ↔ unserved g c l := by
  have ht : Taken (drdKernel n) (drdBoot n) irqLog (fun _ _ _ => True) g c l c' :=
    ⟨hr.mono fun _ _ _ _ => trivial,trivial,hs⟩
  have htracked := tracked hr
  have hsame : (∀ x : Source, x.pending c'.state = true → x.pending c.state = true) →
      Caused g c.state c'.state := by
    intro h x hlow hhigh
    rw [h x hhigh] at hlow
    cases hlow
  cases l with
  | eval t =>
    by_cases hcol : t = collectorThread
    · subst hcol
      constructor
      · intro h _ x hx
        cases hp : x.pending c.state with
        | true => exact staysClear hr x hx hp
        | false =>
          have hraised : x.pending c'.state = true := by
            rw [pending_collect x ht,hx,Bool.or_true]
          exact (htracked x hx).mpr (h x hp hraised)
      · intro h x hlow hhigh
        rw [pending_collect x ht,hlow,Bool.false_or] at hhigh
        exact (htracked x hhigh).mp (h rfl x hhigh)
    · refine iff_of_true (hsame fun x hp => ?_) fun h => absurd h hcol
      rwa [pending_eval x hcol ht] at hp
  | act a =>
    obtain ⟨s,ha,rfl⟩ := step_act hs
    replace ha : a.apply c.state = some s := ha
    refine iff_of_true (hsame fun x hp => ?_) trivial
    cases a with
    | cfgAccess p =>
      cases ha
      have hp' : x.pending (cfgBTransport p c.state).1 = true := hp
      rw [access_pending,Bool.and_eq_true] at hp'
      exact hp'.1
    | _ => exact (pending_act x ha (by simp)).symm.trans hp
  | delta =>
    obtain ⟨-,rfl⟩ := step_delta hs
    exact iff_of_true (hsame fun _ hp => hp) trivial
  | enter t e => obtain ⟨p,-,-,rfl⟩ := step_enter hs; exact iff_of_true (hsame fun _ hp => hp) trivial
  | reply t r => obtain ⟨q,next,-,rfl⟩ := step_reply hs; exact iff_of_true (hsame fun _ hp => hp) trivial
  | advance d => obtain ⟨-,-,-,rfl⟩ := step_advance hs; exact iff_of_true (hsame fun _ hp => hp) trivial

def completeRun : List (DrdLabel Action 0) :=
  attachRun .ufpAttached ++ controlRun .genericError ++
    [.act (.bulkOut 1 2 [0xAA]),.eval hostThread,.reply hostThread .ok,.eval hostThread,.delta]

theorem caused_completed : ∃ g c c', Reach (drdKernel 0) (drdBoot 0) irqLog unserved g c ∧
    (drdKernel 0).step c (.eval collectorThread) = some c' ∧
    Source.xferDone.pending c'.state = true ∧ Caused g c.state c'.state := by
  obtain ⟨g,c,c',ht,hraised⟩ := exists_taken (drdKernel 0) (drdBoot 0) irqLog unserved
    (.eval collectorThread) (fun _ _ c' => Source.xferDone.pending c'.state = true) completeRun
    (by decide +kernel)
  exact ⟨g,c,c',ht.reach,ht.step,hraised,
    (caused_iff_unserved 0 g c c' _ ht.reach ht.step).mpr ht.allowed⟩

/-- Software clears the bit of a transfer while its pulse lasts, and the loss of the role
raises it again. -/
theorem not_caused_roleLoss : ¬ ∀ g c c' l,
    Taken (drdKernel 0) (drdBoot 0) irqLog (fun _ _ _ => True) g c l c' →
      Caused g c.state c'.state := by
  intro h
  obtain ⟨g,c,c',ht,hlow,hhigh,hline,hserved⟩ := exists_taken (drdKernel 0) (drdBoot 0) irqLog
    (fun _ _ _ => True) (.eval collectorThread)
    (fun g c c' => Source.xferDone.pending c.state = false ∧
      Source.xferDone.pending c'.state = true ∧ (Source.xferDone.line c.state).cur = true ∧
      g.served .xferDone = true)
    (completeRun ++ [.eval collectorThread,
      .act (.cfgAccess (StickyBits.statusWrite intrXferDone))] ++ changeRun [.setVbus false])
    (by decide +kernel)
  have hfresh := (tracked ht.reach .xferDone hline).mpr (h g c c' _ ht .xferDone hlow hhigh)
  rw [hserved] at hfresh
  cases hfresh

end RaiseCause
end Usb3Drd
