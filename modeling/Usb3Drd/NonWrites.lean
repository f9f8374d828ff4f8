import Usb3Drd.DrdController

/-! Register accesses that are no writes. The handler takes whatever is not a read for a write,
a TLM_IGNORE_COMMAND included. -/
namespace Usb3Drd
namespace NonWrites

open Coop DrdController

/-- A write command with at least a word of data. -/
def IsWrite (p : Payload) : Prop := p.command = .write ∧ 4 ≤ p.data.length

instance (p : Payload) : Decidable (IsWrite p) := inferInstanceAs (Decidable (_ ∧ _))

/-- What only writes may change: the registers, the interrupt state and line, the requests. -/
def guarded (s : Drd) : Vector (BitVec 32) 8 × BitVec 32 × BitVec 32 × Sig Bool × Bool × Bool :=
  (s.mRegs,s.mIntrStatus,s.mIntrEnable,s.irq,s.roleMgr.mHostRequested,s.roleMgr.mDeviceRequested)

def Redundant (addr : BitVec 64) (val : BitVec 32) (s : Drd) : Prop :=
  if addr = regCtrl then True
  else if addr = regRoleCtrl then
    (val = 1 → s.roleMgr.mHostRequested = true) ∧ (val = 2 → s.roleMgr.mDeviceRequested = true)
  else if addr = regIntrStatus then
    s.mIntrStatus &&& val = 0 ∧ (s.mIntrStatus = 0 → s.irq.nxt = false)
  else if addr = regIntrEnable then s.mIntrEnable = val
  else ∀ h : addr.toNat/4 < 8, s.mRegs[addr.toNat/4] = val

/-- No word of data comes with a TLM_IGNORE_COMMAND, or a redundant one. -/
def Harmless (p : Payload) (s : Drd) : Prop :=
  p.command = .ignore → 4 ≤ p.data.length →
    Redundant (alignAddr p.address) (bytesToWord p.data) s

section Words
variable {x y : BitVec 32}

theorem and_not_eq_self : x &&& ~~~y = x ↔ x &&& y = 0 := by
  constructor
  · intro h
    rw [← h,BitVec.and_assoc,BitVec.and_comm (~~~y),BitVec.and_not_self]
    exact BitVec.and_zero
  · intro h
    ext i hi
    have hbit : (x &&& y)[i] = false := by simp [h]
    simp only [BitVec.getElem_and,BitVec.getElem_not] at hbit ⊢
    cases hx : x[i] with
    | false => rfl
    | true => simpa [hx] using hbit

theorem set_eq_self {v : Vector (BitVec 32) 8} {i : ℕ} (hi : i < 8) : v.set i x = v ↔ v[i] = x := by
  constructor
  · intro h
    rw [← h,Vector.getElem_set_self]
  · rintro rfl
    exact Vector.set_getElem_self hi

theorem write_eq_self {a : Bool} (w : Sig Bool) : w.write a = w ↔ w.nxt = a := by
  constructor
  · intro h
    rw [← h]
    rfl
  · rintro rfl
    rfl

end Words

section Registers
variable {s : Drd} {addr : BitVec 64} {val : BitVec 32}

theorem guarded_requestRole (r : Usb3Role) : guarded (RoleManager.requestRole r s) = guarded s ↔
    (r = .host → s.roleMgr.mHostRequested = true) ∧
      (r = .device → s.roleMgr.mDeviceRequested = true) := by
  cases r with
  | none => simp [guarded,RoleManager.requestRole]
  | host =>
    simp only [guarded,RoleManager.requestRole,Prod.mk.injEq,reduceCtorEq,if_true,if_false,
      true_and,and_true,true_implies,false_implies]
    exact eq_comm
  | device =>
    simp only [guarded,RoleManager.requestRole,Prod.mk.injEq,reduceCtorEq,if_true,if_false,
      true_and,true_implies,false_implies]
    exact eq_comm

theorem guarded_clear : guarded (writeReg s regIntrStatus val) = guarded s ↔
    s.mIntrStatus &&& val = 0 ∧ (s.mIntrStatus = 0 → s.irq.nxt = false) := by
  have hctrl : regIntrStatus ≠ regCtrl := by decide
  have hrole : regIntrStatus ≠ regRoleCtrl := by decide
  have hself : s.mIntrStatus &&& ~~~val = s.mIntrStatus ↔ s.mIntrStatus &&& val = 0 :=
    and_not_eq_self
  simp only [writeReg,if_neg hctrl,if_neg hrole,if_true]
  split
  · rename_i hzero
    rw [← hself]
    simp only [guarded,Prod.mk.injEq,and_true,true_and,write_eq_self]
    refine and_congr_right fun hsame => ?_
    rw [hsame] at hzero
    simp [hzero]
  · rename_i hpending
    rw [← hself]
    simp only [guarded,Prod.mk.injEq,and_true,true_and]
    refine ⟨fun hsame => ⟨hsame,fun hzero => absurd (hsame.trans hzero) hpending⟩,And.left⟩

/-- What a write shows, register by register. -/
theorem guarded_writeReg : guarded (writeReg s addr val) = guarded s ↔ Redundant addr val s := by
  unfold Redundant
  split
  · rename_i hctrl
    simp [writeReg,hctrl]
  · rename_i hctrl
    split
    · rename_i hrole
      simp only [writeReg,if_neg hctrl,if_pos hrole]
      split
      · rename_i hval
        rw [guarded_requestRole]
        simp [hval]
      · rename_i hval
        split
        · rename_i hval'
          rw [guarded_requestRole]
          simp [hval']
        · rename_i hval'
          exact iff_of_true rfl ⟨fun hone => absurd hone hval,fun htwo => absurd htwo hval'⟩
    · rename_i hrole
      split
      · rename_i hstatus
        subst hstatus
        exact guarded_clear
      · rename_i hstatus
        split
        · rename_i henable
          simp only [writeReg,if_neg hctrl,if_neg hrole,if_neg hstatus,if_pos henable,guarded,
            Prod.mk.injEq,and_true,true_and]
          exact eq_comm
        · rename_i henable
          simp only [writeReg,if_neg hctrl,if_neg hrole,if_neg hstatus,if_neg henable]
          split
          · rename_i hi
            simp only [guarded,Prod.mk.injEq,and_true,set_eq_self hi]
            exact ⟨fun h _ => h,fun h => h hi⟩
          · rename_i hi
            exact iff_of_true rfl fun h => absurd h hi

end Registers

/-- An access that is no write leaves registers, interrupts and requests alone exactly if it
carries no word, is a read, or carries what is there. -/
theorem guarded_iff_harmless (p : Payload) (s : Drd) (h : ¬IsWrite p) :
    guarded (cfgBTransport p s).1 = guarded s ↔ Harmless p s := by
  by_cases hlen : p.data.length < 4
  · have hsame : (cfgBTransport p s).1 = s := by rw [cfgBTransport,if_pos hlen]
    rw [hsame]
    exact iff_of_true rfl fun _ hlong => absurd hlong (by omega)
  · have hlong : 4 ≤ p.data.length := Nat.le_of_not_lt hlen
    cases hc : p.command with
    | read =>
      have hsame : (cfgBTransport p s).1 = s := by rw [cfgBTransport,if_neg hlen,if_pos hc]
      rw [hsame]
      exact iff_of_true rfl fun hign => by rw [hc] at hign; cases hign
    | write => exact absurd ⟨hc,hlong⟩ h
    | ignore =>
      have hwrite : (cfgBTransport p s).1 =
          writeReg s (alignAddr p.address) (bytesToWord p.data) := by
        rw [cfgBTransport,if_neg hlen,if_neg (by simp [hc])]
      rw [hwrite,guarded_writeReg]
      exact ⟨fun hred _ _ => hred,fun hharm => hharm hc hlong⟩

theorem guarded_read : guarded (cfgBTransport
    { command := .read, address := regIntrStatus, data := [0,0,0,0] } { mIntrStatus := 8 }).1 =
      guarded { mIntrStatus := 8 } :=
  (guarded_iff_harmless _ _ (by decide)).mpr fun h => by cases h

/-- A TLM_IGNORE_COMMAND to the status register clears the interrupt. -/
theorem not_guarded_ignore : ¬∀ (p : Payload) (s : Drd), ¬IsWrite p →
    guarded (cfgBTransport p s).1 = guarded s := by
  intro h
  have hclear := h { command := .ignore, address := regIntrStatus, data := [8,0,0,0] }
    { mIntrStatus := 8 } (by decide)
  exact absurd (congrArg (·.2.1) hclear) (by decide)

end NonWrites
end Usb3Drd
