import Mathlib.Tactic.FinCases
import Usb3Drd.Coop.Register
import Usb3Drd.Effects
import Usb3Drd.RaiseCause
import Usb3Drd.RegisterMap

/-! The register file over whole runs. Software finds eight registers, each of its own kind, and
none is changed through another. -/
namespace Usb3Drd
namespace RegisterFile

open Coop DrdController RegisterMap

variable {n : ℕ}

/-- The register map. CTRL and ROLE_CTRL do not read back, the word between DEV_ADDR and SPEED
is free for software, and INTR_STATUS has four bits. -/
def registers : Fin 8 → Register 32
  | 0 => .fixed 0
  | 1 => .follows
  | 2 => .fixed 0
  | 3 => .sticky (intrRoleChanged ||| intrEnumDone ||| intrXferDone ||| intrBulkIrq)
  | 4 => .holds 0xFFFFFFFF
  | 5 => .follows
  | 6 => .holds 0
  | 7 => .fixed 3

/-- STATUS by its fields: the role, SuperSpeed, a bit that is always set, and whether the device
controller is configured. -/
def statusWord (role : Usb3Role) (configured : Bool) : BitVec 32 :=
  .ofNat 32 (2^4 * role.value.toNat + 2^8 * 3 + 2^16 + if configured then 2^17 else 0)

def wires (s : Drd) : Fin 8 → BitVec 32
  | 1 => statusWord s.sigRole.cur s.sigConfigured.cur
  | 5 => s.sigDevAddr.cur.setWidth 32
  | _ => 0

def accessOp (p : Payload) (r : Fin 8) (s : Drd) : RegisterOp 32 :=
  if p.command = .read then .read (wires s r) (bytesToWord (cfgBTransport p s).2.1)
  else .write (bytesToWord p.data)

/-- The accesses of software, and what the collector and the monitor raise. -/
def regOps (c : DrdConf n) : DrdLabel Action n → List (Fin 8 × RegisterOp 32)
  | .act (.cfgAccess p) => (registerOf p).toList.map fun r => (r,accessOp p r c.state)
  | .eval t =>
    if t = collectorThread then [(3,.raise (collected c.state))]
    else if t = monitorThread ∧ c.loc t = .ready (.woke .roleSettle) then
      [(3,.raise intrRoleChanged)]
    else []
  | _ => []

abbrev RegLog := List (Fin 8 × RegisterOp 32)

def regLog : Watch RegLog Drd WaitPoint Payload TlmResponse Loop Action Payload (Tid n) where
  init := []
  next g c l _ := g ++ regOps c l

def RegLog.at (g : RegLog) (r : Fin 8) : List (RegisterOp 32) :=
  g.filterMap fun x => if x.1 = r then some x.2 else none

def cells (s : Drd) : Fin 8 → BitVec 32
  | 0 => s.mRegs[0]
  | 2 => s.mRegs[2]
  | 3 => s.mIntrStatus
  | 4 => s.mIntrEnable
  | 6 => s.mRegs[6]
  | 7 => 3
  | _ => 0

section Cells
variable (s : Drd) (r : Fin 8)

theorem buildStatusReg_eq : buildStatusReg s = statusWord s.sigRole.cur s.sigConfigured.cur := by
  rw [buildStatusReg,statusWord]
  cases s.sigRole.cur <;> cases s.sigConfigured.cur <;> rfl

theorem readReg_cells : readReg s (.ofNat 64 (4*r)) = (registers r).answer (cells s r) (wires s r) := by
  fin_cases r
  · rfl
  · exact buildStatusReg_eq s
  all_goals rfl

/-- Words of `m_regs` that no read returns. -/
theorem cells_shadow {i : ℕ} (hi : i < 8) (h : i ≠ 0 ∧ i ≠ 2 ∧ i ≠ 6) (val : BitVec 32) :
    cells { s with mRegs := s.mRegs.set i val } = cells s := by
  funext r
  fin_cases r
  · exact Vector.getElem_set_ne hi _ h.1
  · rfl
  · exact Vector.getElem_set_ne hi _ h.2.1
  · rfl
  · rfl
  · rfl
  · exact Vector.getElem_set_ne hi _ h.2.2
  · rfl

theorem cells_same (r' : Fin 8) : cells s r' = if r' = r then cells s r else cells s r' := by
  split
  · rename_i h
    rw [h]
  · rfl

theorem cells_write (r' : Fin 8) (val : BitVec 32) : cells (writeReg s (.ofNat 64 (4*r)) val) r' =
    if r' = r then (registers r).next (cells s r) (.write val) else cells s r' := by
  fin_cases r
  · exact cells_same s 0 r'
  · exact (congrFun (cells_shadow s (by decide) (by decide) val) r').trans (cells_same s 1 r')
  · have hrole : cells (writeReg s regRoleCtrl val) r' = cells s r' := by
      show cells (if val = 1 then RoleManager.requestRole .host s
        else if val = 2 then RoleManager.requestRole .device s else s) r' = cells s r'
      repeat' split
      all_goals rfl
    exact hrole.trans (cells_same s 2 r')
  · have hstatus : cells (writeReg s regIntrStatus val) r' =
        cells { s with mIntrStatus := s.mIntrStatus &&& ~~~val } r' := by
      show cells (if s.mIntrStatus &&& ~~~val = 0 then
          { s with mIntrStatus := s.mIntrStatus &&& ~~~val, irq := s.irq.write false }
        else { s with mIntrStatus := s.mIntrStatus &&& ~~~val }) r' = _
      split <;> rfl
    refine hstatus.trans ?_
    fin_cases r' <;> rfl
  · fin_cases r' <;> rfl
  · exact (congrFun (cells_shadow s (by decide) (by decide) val) r').trans (cells_same s 5 r')
  · have hset : cells (writeReg s 0x18 val) r' = cells { s with mRegs := s.mRegs.set 6 val } r' := rfl
    refine hset.trans ?_
    fin_cases r'
    · exact Vector.getElem_set_ne (by decide) _ (by decide)
    · rfl
    · exact Vector.getElem_set_ne (by decide) _ (by decide)
    · rfl
    · rfl
    · rfl
    · exact Vector.getElem_set_self _
    · rfl
  · exact (congrFun (cells_shadow s (by decide) (by decide) val) r').trans (cells_same s 7 r')

theorem cells_raise (bits : BitVec 32) : cells (raiseIrq bits s) r =
    if r = 3 then cells s 3 ||| bits else cells s r := by
  have hraise : cells (raiseIrq bits s) = cells { s with mIntrStatus := s.mIntrStatus ||| bits } := by
    dsimp only [raiseIrq]
    split
    · exact (cells_shadow (i := 3) { s with
        mIntrStatus := s.mIntrStatus ||| bits
        irq := s.irq.write true } (by decide) (by decide) (s.mIntrStatus ||| bits)).trans rfl
    · rfl
  rw [hraise]
  fin_cases r <;> rfl

theorem cells_raising (c : Bool) (bits : BitVec 32) (hr : r ≠ 3) :
    cells (raising c bits s) r = cells s r := by
  rw [raising]
  split
  · rw [cells_raise,if_neg hr]
  · rfl

theorem cells_collect : cells (interruptCollector s) r =
    if r = 3 then cells s 3 ||| collected s else cells s r := by
  split
  · rename_i hr
    rw [hr]
    exact interruptCollector_status s
  · rename_i hr
    rw [interruptCollector_eq]
    dsimp only [collect]
    rw [cells_raising _ _ _ _ hr,cells_raising _ _ _ _ hr]
    split
    · rw [cells_shadow (i := 5) _ (by decide) (by decide),cells_raising _ _ _ _ hr]
    · exact cells_raising _ _ _ _ hr

theorem collected_masked : collected s &&&
    (intrRoleChanged ||| intrEnumDone ||| intrXferDone ||| intrBulkIrq) = collected s := by
  rw [collected]
  cases s.sigEnumDone.cur <;> cases s.sigXferDone.cur <;> cases s.sigBulkIrq.cur <;> rfl

end Cells

section Accesses
variable {p : Payload} {r : Fin 8}

theorem cells_unregistered (h : registerOf p = none) (s : Drd) :
    cells (cfgBTransport p s).1 = cells s := by
  by_cases hlen : p.data.length < 4
  · simp only [cfgBTransport,if_pos hlen]
  · have hbeyond : 0x20 ≤ (alignAddr p.address).toNat := by
      rw [registerOf,if_neg hlen] at h
      split at h
      · cases h
      · omega
    rw [(absent_of_beyond (Nat.not_lt.mp hlen) hbeyond s).1]

theorem cells_access (h : registerOf p = some r) (s : Drd) (r' : Fin 8) :
    cells (cfgBTransport p s).1 r' =
      if r' = r then (registers r).next (cells s r) (accessOp p r s) else cells s r' := by
  obtain ⟨hlen,haddr⟩ := registerOf_eq_some h
  rw [accessOp]
  by_cases hread : p.command = .read
  · rw [if_pos hread,Register.next_read]
    simp only [cfgBTransport,if_neg (Nat.not_lt.mpr hlen),if_pos hread]
    exact cells_same s r r'
  · rw [if_neg hread]
    simp only [cfgBTransport,if_neg (Nat.not_lt.mpr hlen),if_neg hread,haddr]
    exact cells_write s r r' _

theorem accessOp_read (h : registerOf p = some r) (s : Drd) {x v : BitVec 32}
    (hop : accessOp p r s = .read x v) : v = (registers r).answer (cells s r) x := by
  obtain ⟨hlen,haddr⟩ := registerOf_eq_some h
  rw [accessOp] at hop
  split at hop
  · rename_i hread
    simp only [cfgBTransport,if_neg (Nat.not_lt.mpr hlen),if_pos hread,haddr,
      bytesToWord_wordToBytes,readReg_cells,RegisterOp.read.injEq] at hop
    obtain ⟨rfl,rfl⟩ := hop
    rfl
  · cases hop

end Accesses

theorem monitorTurn_cells {o : Origin WaitPoint Payload TlmResponse} {s s' : Drd}
    {l : Loc WaitPoint Payload TlmResponse} (h : monitorTurn o s l s') (r : Fin 8) : cells s' r =
      if r = 3 ∧ o = .woke .roleSettle then cells s 3 ||| intrRoleChanged else cells s r := by
  unfold monitorTurn at h
  split at h
  · rw [if_neg (by simp),h.2]
    rfl
  · rw [if_neg (by simp),h.2]
    rfl
  · obtain ⟨-,role,hs⟩ := h
    have henable : cells (enableRole role s) = cells s := by
      cases role <;> rfl
    simp only [hs,cells_raise,henable,and_true]
  · cases h

/-- What the registers hold is what the operations on each of them say. -/
def Refined (g : RegLog) (s : Drd) : Prop := ∀ r, cells s r = (registers r).value (g.at r)

section Runs
variable {g : RegLog} {c c' : DrdConf n} {l : DrdLabel Action n} {s s' : Drd} {r : Fin 8}

theorem at_snoc (op : RegisterOp 32) (r' : Fin 8) :
    RegLog.at (g ++ [(r,op)]) r' = if r' = r then g.at r' ++ [op] else g.at r' := by
  rw [RegLog.at,List.filterMap_append]
  split
  · rename_i h
    simp [RegLog.at,h]
  · rename_i h
    simp [RegLog.at,Ne.symm h]

theorem Refined.note {op : RegisterOp 32} (h : Refined g s) (hcells : ∀ r', cells s' r' =
    if r' = r then (registers r).next (cells s r) op else cells s r') :
    Refined (g ++ [(r,op)]) s' := by
  intro r'
  rw [hcells,at_snoc]
  split
  · rename_i hr
    rw [hr,h r,Register.value_snoc]
  · exact h r'

theorem Refined.same (h : Refined g s) (hcells : cells s' = cells s) : Refined g s' := by
  intro r
  rw [hcells]
  exact h r

theorem Refined.raised {bits : BitVec 32} (h : Refined g s)
    (hmask : bits &&& (intrRoleChanged ||| intrEnumDone ||| intrXferDone ||| intrBulkIrq) = bits)
    (hcells : ∀ r', cells s' r' = if r' = 3 then cells s 3 ||| bits else cells s r') :
    Refined (g ++ [(3,.raise bits)]) s' := by
  refine h.note fun r' => ?_
  rw [hcells,registers,Register.next,hmask]

theorem cells_eval {t : Tid n} (hcol : t ≠ collectorThread) (hmon : t ≠ monitorThread)
    (ht : Taken (drdKernel n) (drdBoot n) regLog (fun _ _ _ => True) g c (.eval t) c') :
    cells c'.state = cells c.state := by
  have hkeep := congrArg cells (taken_unwritten ht)
  rcases t with p | i
  · cases p with
    | interruptCollector => exact absurd rfl hcol
    | roleSwitchMonitor => exact absurd rfl hmon
    | _ => exact hkeep
  · exact hkeep

/-- One step: the registers take the operations that are logged for it. -/
theorem Refined.step (h : Refined g c.state)
    (ht : Taken (drdKernel n) (drdBoot n) regLog (fun _ _ _ => True) g c l c') :
    Refined (g ++ regOps c l) c'.state := by
  have hquiet : regOps c l = [] → cells c'.state = cells c.state →
      Refined (g ++ regOps c l) c'.state := by
    intro hops hcells
    rw [hops,List.append_nil]
    exact h.same hcells
  cases l with
  | eval t =>
    by_cases hcol : t = collectorThread
    · subst hcol
      refine h.raised (collected_masked c.state) fun r => ?_
      rw [collector_turn ht]
      exact cells_collect c.state r
    by_cases hmon : t = monitorThread
    · subst hmon
      obtain ⟨o,hloc,hturn⟩ := monitor_turn ht
      by_cases ho : o = .woke .roleSettle
      · subst ho
        have hops : regOps c (.eval monitorThread) = [(3,.raise intrRoleChanged)] := by
          simp [regOps,hloc]
        rw [hops]
        refine h.raised (by decide) fun r => ?_
        rw [monitorTurn_cells hturn r]
        simp only [and_true]
      · refine hquiet (by simp [regOps,hloc,ho]) (funext fun r => ?_)
        rw [monitorTurn_cells hturn r,if_neg fun hr => ho hr.2]
    · exact hquiet (by simp [regOps,hcol,hmon]) (cells_eval hcol hmon ht)
  | act a =>
    obtain ⟨s,ha,rfl⟩ := step_act ht.step
    replace ha : a.apply c.state = some s := ha
    cases a with
    | cfgAccess p =>
      cases ha
      show Refined (g ++ (registerOf p).toList.map _) (cfgBTransport p c.state).1
      cases hreg : registerOf p with
      | none =>
        rw [Option.toList_none,List.map_nil,List.append_nil]
        exact h.same (cells_unregistered hreg c.state)
      | some r =>
        rw [Option.toList_some,List.map_singleton]
        refine h.note fun r' => ?_
        exact cells_access hreg c.state r'
    | setCcState cc => cases ha; exact hquiet rfl rfl
    | setVbus v => cases ha; exact hquiet rfl rfl
    | bulkOut a ep data =>
      obtain ⟨ring,-,rfl⟩ := Option.map_eq_some_iff.mp ha
      exact hquiet rfl rfl
    | bulkIn a ep len =>
      obtain ⟨ring,-,rfl⟩ := Option.map_eq_some_iff.mp ha
      exact hquiet rfl rfl
  | delta => obtain ⟨-,rfl⟩ := step_delta ht.step; exact hquiet rfl rfl
  | advance d => obtain ⟨-,-,-,rfl⟩ := step_advance ht.step; exact hquiet rfl rfl
  | enter t e => obtain ⟨_,-,-,rfl⟩ := step_enter ht.step; exact hquiet rfl rfl
  | reply t r => obtain ⟨_,_,-,rfl⟩ := step_reply ht.step; exact hquiet rfl rfl

theorem refined (hr : Reach (drdKernel n) (drdBoot n) regLog (fun _ _ _ => True) g c) :
    Refined g c.state := by
  induction hr with
  | boot =>
    intro r
    fin_cases r <;> rfl
  | step hr hok hs ih => exact ih.step ⟨hr,hok,hs⟩

theorem regOps_cases (c : DrdConf n) (l : DrdLabel Action n) : regOps c l = [] ∨
    ∃ r op, regOps c l = [(r,op)] ∧
      ∀ x v, op = .read x v → v = (registers r).answer (cells c.state r) x := by
  cases l with
  | act a =>
    cases a with
    | cfgAccess p =>
      cases hreg : registerOf p with
      | none => exact .inl (by simp [regOps,hreg])
      | some r => exact .inr ⟨r,_,by simp [regOps,hreg],fun x v hop => accessOp_read hreg c.state hop⟩
    | _ => exact .inl rfl
  | eval t =>
    rw [regOps]
    split
    · exact .inr ⟨3,_,rfl,by simp⟩
    · split
      · exact .inr ⟨3,_,rfl,by simp⟩
      · exact .inl rfl
  | _ => exact .inl rfl

end Runs

/-- In every run each register is a cell of its own kind: a read of it returned what its own
history says, whatever software did to the other registers and the hardware to the device. -/
theorem reads_explained (n : ℕ) (g : RegLog) (c : DrdConf n)
    (hr : Reach (drdKernel n) (drdBoot n) regLog (fun _ _ _ => True) g c) (r : Fin 8) :
    (registers r).Explains (g.at r) := by
  induction hr with
  | boot => exact Register.explains_nil
  | @step g c l c' hr _ _ ih =>
    show (registers r).Explains (RegLog.at (g ++ regOps c l) r)
    obtain hops | ⟨r',op,hops,hread⟩ := regOps_cases c l
    · rw [hops,List.append_nil]
      exact ih
    · rw [hops,at_snoc]
      split
      · rename_i hr'
        subst hr'
        refine ih.snoc fun x v hop => ?_
        rw [← refined hr]
        exact hread x v hop
      · exact ih

def wordWrite (addr : BitVec 64) (val : BitVec 32) : Payload :=
  { command := .write, address := addr, data := wordToBytes val }

/-- Software uses the free word, masks all interrupts and asks for the host role. When the
monitor has switched to it, the status is read. -/
def accessRun : List (DrdLabel Action 0) :=
  startRun ++ [.act (.cfgAccess (wordWrite 0x18 0xCAFE)),
    .act (.cfgAccess (wordWrite regIntrEnable 0)),.act (.cfgAccess (wordRead 0x18)),
    .act (.cfgAccess (wordWrite regRoleCtrl 1)),.delta,.eval roleThread,.delta] ++ switchRun ++
    [.act (.cfgAccess (wordRead regIntrStatus))]

theorem reads_explained_switch : ∃ g c, Reach (drdKernel 0) (drdBoot 0) regLog (fun _ _ _ => True) g c ∧
    g.at 3 = [.raise 0,.raise 0,.raise intrRoleChanged,.read 0 1] ∧
    g.at 6 = [.write 0xCAFE,.read 0 0xCAFE] ∧
    ∀ r, (registers r).Explains (g.at r) := by
  obtain ⟨g,c,hr,hstatus,hfree⟩ := exists_reach (drdKernel 0) (drdBoot 0) regLog (fun _ _ _ => True)
    (fun g _ => g.at 3 = [.raise 0,.raise 0,.raise intrRoleChanged,.read 0 1] ∧
      g.at 6 = [.write 0xCAFE,.read 0 0xCAFE])
    accessRun (by decide +kernel)
  exact ⟨g,c,hr,hstatus,hfree,reads_explained 0 g c hr⟩

end RegisterFile
end Usb3Drd
