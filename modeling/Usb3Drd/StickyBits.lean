import Usb3Drd.Coop.Latch
import Usb3Drd.Interrupt

/-! The interrupt status register as 32 latches: a bit reads 1 exactly if it was raised
since a write last cleared it, whatever else happens to the device. -/
namespace Usb3Drd
namespace StickyBits

open Coop DrdController

/-- What uses the interrupt logic: a raise, a run of the collector, a register access. -/
inductive IrqEvent
  | raise (bits : BitVec 32)
  | collect
  | access (p : Payload)

def IrqEvent.apply : IrqEvent → Drd → Drd
  | .raise bits, s => raiseIrq bits s
  | .collect, s => interruptCollector s
  | .access p, s => (cfgBTransport p s).1

/-- Reads, and writes of at least a word below `2^32`. -/
def IrqEvent.Regular : IrqEvent → Prop
  | .access p => p.command = .read ∨
      (p.command = .write ∧ 4 ≤ p.data.length ∧ p.address.toNat < 2^32)
  | _ => True

structure IrqUse where
  state : Drd
  event : IrqEvent

/-- `raiseIrq` is called with the bit. -/
def IrqUse.Raises (b : ℕ) (u : IrqUse) : Prop :=
  match u.event with
  | .raise bits => bits.getLsbD b = true
  | .collect => (collected u.state).getLsbD b = true
  | .access _ => False

/-- A word with the bit set is written to the status register. -/
def IrqUse.Clears (b : ℕ) (u : IrqUse) : Prop :=
  match u.event with
  | .access p => p.command = .write ∧ p.address &&& ~~~3 = regIntrStatus ∧
      (bytesToWord p.data).getLsbD b = true
  | _ => False

/-- A sequence of events from reset, and the status after it. Between the events all of the
device changes freely but for the status. -/
inductive Uses : List IrqUse → BitVec 32 → Prop
  | reset : Uses [] Drd.reset.mIntrStatus
  | next {uses : List IrqUse} {s : Drd} {e : IrqEvent} (h : Uses uses s.mIntrStatus)
      (he : e.Regular) : Uses (uses ++ [⟨s,e⟩]) (e.apply s).mIntrStatus

section Steps
variable {s : Drd} {b : ℕ}

theorem access_status {p : Payload} (hp : (IrqEvent.access p).Regular) :
    ((cfgBTransport p s).1.mIntrStatus.getLsbD b = true ↔
      s.mIntrStatus.getLsbD b = true ∧ ¬IrqUse.Clears b ⟨s,.access p⟩) := by
  rw [Interrupt.cfgBTransport_state]
  rcases hp with hread | ⟨hwrite,hlen,haddr⟩
  · have hnone : Interrupt.written p = none := if_pos (.inr hread)
    have hkeep : ¬IrqUse.Clears b ⟨s,.access p⟩ := fun h => by simpa [hread] using h.1
    rw [hnone]
    exact (and_iff_left hkeep).symm
  · have hsome : Interrupt.written p = some (p.address &&& ~~~3,bytesToWord p.data) := by
      rw [Interrupt.written,if_neg (by simp [hwrite,hlen]),alignAddr_of_lt haddr]
    rw [hsome]
    simp only [writeReg_status,IrqUse.Clears,hwrite,true_and]
    split
    · rename_i hstatus
      simp only [hstatus,true_and,BitVec.getLsbD_and,BitVec.getLsbD_not,Bool.and_eq_true,
        decide_eq_true_eq,Bool.not_eq_true',Bool.not_eq_true]
      exact ⟨fun h => ⟨h.1,h.2.2⟩,fun h => ⟨h.1,BitVec.lt_of_getLsbD h.1,h.2⟩⟩
    · rename_i hother
      simp only [hother,false_and,not_false_eq_true,and_true]

theorem apply_bit {e : IrqEvent} (he : e.Regular) : (e.apply s).mIntrStatus.getLsbD b = true ↔
    IrqUse.Raises b ⟨s,e⟩ ∨ (s.mIntrStatus.getLsbD b = true ∧ ¬IrqUse.Clears b ⟨s,e⟩) := by
  cases e with
  | raise bits =>
    simp only [IrqEvent.apply,raiseIrq_status,BitVec.getLsbD_or,Bool.or_eq_true,IrqUse.Raises,
      IrqUse.Clears,not_false_eq_true,and_true]
    exact or_comm
  | collect =>
    simp only [IrqEvent.apply,interruptCollector_status,BitVec.getLsbD_or,Bool.or_eq_true,
      IrqUse.Raises,IrqUse.Clears,not_false_eq_true,and_true]
    exact or_comm
  | access p =>
    simp only [IrqEvent.apply,IrqUse.Raises,false_or]
    exact access_status he

end Steps

/-- After any events a status bit is set exactly if it was raised since it was cleared. -/
theorem status_iff {uses : List IrqUse} {status : BitVec 32} (h : Uses uses status) (b : ℕ) :
    status.getLsbD b = true ↔ SetSince (IrqUse.Raises b) (IrqUse.Clears b) uses := by
  induction h with
  | reset => exact iff_of_false (by simp [Drd.reset]) not_setSince_nil
  | next _ he ih => rw [apply_bit he,setSince_snoc,ih]

/-- A read of the status register shows each bit set exactly if it was raised and no later
write to the register had it set. -/
theorem intrStatus_read (uses : List IrqUse) (s : Drd) (p : Payload) (b : Fin 32)
    (h : Uses uses s.mIntrStatus) (hread : p.command = .read) (hlen : 4 ≤ p.data.length)
    (haddr : alignAddr p.address = regIntrStatus) :
    (bytesToWord (cfgBTransport p s).2.1).getLsbD b = true ↔
      SetSince (IrqUse.Raises b) (IrqUse.Clears b) uses := by
  have hword : (cfgBTransport p s).2.1 = wordToBytes s.mIntrStatus ++ p.data.drop 4 := by
    have hne : regIntrStatus ≠ regStatus := by decide
    simp only [cfgBTransport,if_neg (Nat.not_lt.mpr hlen),hread,if_true,haddr,readReg,if_neg hne]
  rw [hword,bytesToWord_wordToBytes]
  exact status_iff h b

def statusRead : Payload := { command := .read, address := regIntrStatus, data := [0,0,0,0] }

def statusWrite (val : BitVec 32) : Payload :=
  { command := .write, address := regIntrStatus, data := wordToBytes val }

/-- A bit that is raised, cleared and raised again. -/
theorem intrStatus_read_again : ∃ uses s, Uses uses s.mIntrStatus ∧ uses.length = 3 ∧
    (bytesToWord (cfgBTransport statusRead s).2.1).getLsbD 4 = true := by
  let raised := raiseIrq intrXferDone .reset
  let cleared := (cfgBTransport (statusWrite intrXferDone) raised).1
  have huses : Uses ([] ++ [⟨.reset,.raise intrXferDone⟩] ++
      [⟨raised,.access (statusWrite intrXferDone)⟩] ++ [⟨cleared,.raise intrXferDone⟩])
      (raiseIrq intrXferDone cleared).mIntrStatus :=
    .next (.next (.next .reset trivial) (.inr ⟨rfl,by decide,by decide⟩)) trivial
  refine ⟨_,_,huses,rfl,(intrStatus_read _ _ statusRead 4 huses rfl (by decide) (by decide)).mpr ?_⟩
  exact setSince_snoc.mpr (.inl rfl)

end StickyBits
end Usb3Drd
