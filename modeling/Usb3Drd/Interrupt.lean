import Usb3Drd.System

/-! The interrupt line as a level: any sequence of raised bits and register accesses,
with update phases anywhere between them. -/
namespace Usb3Drd
namespace Interrupt

open Coop DrdController

inductive IrqStep
  | raise (bits : BitVec 32)
  | access (p : Payload)
  | settle
  deriving DecidableEq

def IrqStep.apply (s : Drd) : IrqStep → Drd
  | .raise bits => raiseIrq bits s
  | .access p => (cfgBTransport p s).1
  | .settle => s.update

def run (s : Drd) (steps : List IrqStep) : Drd := steps.foldl IrqStep.apply s

def Pending (s : Drd) : Prop := s.mIntrStatus &&& s.mIntrEnable ≠ 0

instance (s : Drd) : Decidable (Pending s) := inferInstanceAs (Decidable (_ ≠ _))

/-- Once settled, the line is high exactly while an enabled bit is pending. -/
def Level (s : Drd) : Prop := s.update.irq.cur = true ↔ Pending s

instance (s : Drd) : Decidable (Level s) := inferInstanceAs (Decidable (_ ↔ _))

def written (p : Payload) : Option (BitVec 64 × BitVec 32) :=
  if p.data.length < 4 ∨ p.command = .read then none
  else some (alignAddr p.address,bytesToWord p.data)

/-- A step that leaves the line right: a clear leaves no bit pending at all or an enabled
one if there was one, and a new mask does not change whether an enabled bit is pending. -/
def Fitting (s : Drd) : IrqStep → Prop
  | .access p => ∀ w ∈ written p,
      (w.1 = regIntrStatus → s.mIntrStatus &&& ~~~w.2 = 0 ∨
        (Pending s → Pending { s with mIntrStatus := s.mIntrStatus &&& ~~~w.2 })) ∧
      (w.1 = regIntrEnable → (Pending { s with mIntrEnable := w.2 } ↔ Pending s))
  | _ => True

instance (s : Drd) : ∀ a, Decidable (Fitting s a)
  | .access p => inferInstanceAs (Decidable (∀ w ∈ written p, _ ∧ _))
  | .raise _ | .settle => isTrue trivial

section Bits
variable {status enable bits : BitVec 32}

theorem and_or_eq_zero (h : (status ||| bits) &&& enable = 0) : status &&& enable = 0 := by
  have hmono : status &&& enable = ((status ||| bits) &&& enable) &&& status := by
    ext i
    simp only [BitVec.getElem_and,BitVec.getElem_or]
    cases status[i] <;> simp
  rw [hmono,h]
  exact BitVec.zero_and

theorem pending_of_clear {val : BitVec 32} (h : (status &&& ~~~val) &&& enable ≠ 0) :
    status &&& enable ≠ 0 := by
  intro hzero
  have hmono : (status &&& ~~~val) &&& enable = (status &&& enable) &&& ~~~val := by
    rw [BitVec.and_assoc,BitVec.and_comm (~~~val),← BitVec.and_assoc]
  rw [hmono,hzero] at h
  exact h BitVec.zero_and

end Bits

section Steps
variable {s : Drd}

theorem level_iff : Level s ↔ (s.irq.nxt = true ↔ Pending s) := Iff.rfl

theorem level_raiseIrq (h : Level s) (bits : BitVec 32) : Level (raiseIrq bits s) := by
  rw [level_iff] at h ⊢
  by_cases hp : (s.mIntrStatus ||| bits) &&& s.mIntrEnable = 0
  · have hraise : raiseIrq bits s = { s with mIntrStatus := s.mIntrStatus ||| bits } := by
      rw [raiseIrq,if_neg (not_not.mpr hp)]
    have hwas : ¬Pending s := not_not.mpr (and_or_eq_zero hp)
    have hnow : ¬Pending { s with mIntrStatus := s.mIntrStatus ||| bits } := not_not.mpr hp
    rw [hraise]
    exact iff_of_false (fun hirq => hwas (h.mp hirq)) hnow
  · rw [raiseIrq,if_pos hp]
    exact iff_of_true rfl hp

theorem level_clear (h : Level s) (val : BitVec 32) :
    Level (writeReg s regIntrStatus val) ↔ s.mIntrStatus &&& ~~~val = 0 ∨
      (Pending s → Pending { s with mIntrStatus := s.mIntrStatus &&& ~~~val }) := by
  rw [level_iff] at h ⊢
  have hne : regIntrStatus ≠ regCtrl ∧ regIntrStatus ≠ regRoleCtrl := by decide
  simp only [writeReg,if_neg hne.1,if_neg hne.2,if_true]
  by_cases hzero : s.mIntrStatus &&& ~~~val = 0
  · rw [if_pos hzero]
    have hnow : ¬Pending { s with mIntrStatus := s.mIntrStatus &&& ~~~val } := by
      simp [Pending,hzero]
    exact iff_of_true (iff_of_false (by simp) hnow) (.inl hzero)
  · rw [if_neg hzero]
    have hdown : Pending { s with mIntrStatus := s.mIntrStatus &&& ~~~val } → Pending s :=
      pending_of_clear
    have hirq : (s.irq.nxt = true ↔ Pending { s with mIntrStatus := s.mIntrStatus &&& ~~~val }) ↔
        (Pending s → Pending { s with mIntrStatus := s.mIntrStatus &&& ~~~val }) := by
      rw [h]
      exact ⟨Iff.mp,fun hup => ⟨hup,hdown⟩⟩
    exact hirq.trans (by simp only [hzero,false_or])

theorem level_mask (h : Level s) (val : BitVec 32) :
    Level (writeReg s regIntrEnable val) ↔ (Pending { s with mIntrEnable := val } ↔ Pending s) := by
  rw [level_iff] at h ⊢
  have hne : regIntrEnable ≠ regCtrl ∧ regIntrEnable ≠ regRoleCtrl ∧ regIntrEnable ≠ regIntrStatus := by
    decide
  simp only [writeReg,if_neg hne.1,if_neg hne.2.1,if_neg hne.2.2,if_true]
  rw [h]
  exact iff_comm

theorem writeReg_frame {addr : BitVec 64} (hstatus : addr ≠ regIntrStatus)
    (henable : addr ≠ regIntrEnable) (val : BitVec 32) :
    (writeReg s addr val).irq = s.irq ∧ (writeReg s addr val).mIntrStatus = s.mIntrStatus ∧
      (writeReg s addr val).mIntrEnable = s.mIntrEnable := by
  unfold writeReg RoleManager.requestRole
  rw [if_neg hstatus,if_neg henable]
  repeat' split
  all_goals exact ⟨rfl,rfl,rfl⟩

theorem cfgBTransport_state (p : Payload) (s : Drd) : (cfgBTransport p s).1 =
    match written p with
    | some w => writeReg s w.1 w.2
    | none => s := by
  unfold cfgBTransport written
  by_cases hlen : p.data.length < 4
  · simp only [hlen,if_true,true_or]
  · by_cases hread : p.command = .read
    · simp only [hlen,hread,if_false,if_true,or_true]
    · simp only [hlen,hread,if_false,or_false]

/-- From a right level a step leads to one exactly if it is fitting. -/
theorem level_apply (h : Level s) (a : IrqStep) : Level (a.apply s) ↔ Fitting s a := by
  cases a with
  | raise bits => exact iff_of_true (level_raiseIrq h bits) trivial
  | settle => exact iff_of_true h trivial
  | access p =>
    simp only [IrqStep.apply,cfgBTransport_state,Fitting]
    cases hw : written p with
    | none => exact iff_of_true h (by simp)
    | some w =>
      obtain ⟨addr,val⟩ := w
      simp only [Option.mem_def,Option.some.injEq,forall_eq']
      by_cases hstatus : addr = regIntrStatus
      · subst hstatus
        have hne : regIntrStatus ≠ regIntrEnable := by decide
        simpa [hne] using level_clear h val
      · by_cases henable : addr = regIntrEnable
        · subst henable
          simpa [hstatus] using level_mask h val
        · obtain ⟨hirq,hst,hen⟩ := writeReg_frame (s := s) hstatus henable val
          have hsame : Level (writeReg s addr val) ↔ Level s := by
            rw [level_iff,level_iff,Pending,Pending,hirq,hst,hen]
          exact hsame.trans (iff_of_true h ⟨fun h => absurd h hstatus,fun h => absurd h henable⟩)

end Steps

theorem run_append (s : Drd) (steps : List IrqStep) (a : IrqStep) :
    run s (steps ++ [a]) = a.apply (run s steps) := by
  simp [run,List.foldl_append]

/-- After every step of a sequence the line is right, exactly if every step is fitting. -/
theorem level_iff_fitting (steps : List IrqStep) :
    (∀ before, before <+: steps → Level (run .reset before)) ↔
      ∀ before a, before ++ [a] <+: steps → Fitting (run .reset before) a := by
  constructor
  · intro h before a hbefore
    have hnow := h _ hbefore
    have hwas := h before ((List.prefix_append before [a]).trans hbefore)
    rw [run_append] at hnow
    exact (level_apply hwas a).mp hnow
  · intro h before
    induction before using List.reverseRecOn with
    | nil =>
      intro _
      decide
    | append_singleton before a ih =>
      intro hbefore
      have hwas := ih ((List.prefix_append before [a]).trans hbefore)
      rw [run_append]
      exact (level_apply hwas a).mpr (h before a hbefore)

def regWrite (addr : BitVec 64) (val : BitVec 32) : IrqStep :=
  .access { command := .write, address := addr, data := wordToBytes val }

/-- Masking the only pending bit leaves the line high. -/
theorem not_level_masked : ¬ ∀ steps before, before <+: steps → Level (run .reset before) := by
  intro h
  have hlevel := h [.raise intrXferDone,regWrite regIntrEnable 0] _ (List.prefix_refl _)
  revert hlevel
  decide

end Interrupt
end Usb3Drd
