import Usb3Drd.Footprint

/-! The host controller with the interrupt collector behind it: its enable port, its
bulk interface and the packets of its peer are driven freely. -/
namespace Usb3Drd

open Coop HostController

inductive HostInput
  | setEnable (v : Bool)
  | bulkOut (devAddr ep : BitVec 8) (data : List Byte)
  | bulkIn (devAddr ep : BitVec 8) (len : BitVec 64)
  | deliver (p : Payload)
  deriving DecidableEq

/-- A delivered packet ends in the mailbox within the call. -/
def HostInput.apply : HostInput → Drd → Option Drd
  | .setEnable v, s => some { s with sigHostEnable := s.sigHostEnable.write v }
  | .bulkOut a ep data, s => HostController.bulkOut a ep data s
  | .bulkIn a ep len, s => HostController.bulkIn a ep len s
  | .deliver p, s => some (storeResponse p.data s)

def hostKernel := kernelOf 0 HostInput.apply

def hostBoot : DrdConf 0 :=
  bootWith 0 fun p => decide (p = .hostMainProcess ∨ p = .interruptCollector)

abbrev HostLabel := DrdLabel HostInput 0

abbrev HostWatch (γ : Type) :=
  Watch γ Drd WaitPoint Payload TlmResponse Loop HostInput Payload (Tid 0)

def HostInput.unwritten (s : Drd) : Drd :=
  { s with
    sigHostEnable := s.sigHostEnable.write false
    hostCtrl := { s.hostCtrl with
      mTransferRing := [], mTrbCompleteEvent := false, mRespData := [], mRespValid := false } }

theorem HostInput.apply_unwritten {a : HostInput} {s s' : Drd} (h : a.apply s = some s') :
    HostInput.unwritten s' = HostInput.unwritten s := by
  cases a with
  | setEnable v => cases h; rfl
  | deliver p =>
    cases h
    unfold storeResponse
    split <;> rfl
  | bulkOut a ep data =>
    obtain ⟨ring,-,rfl⟩ := Option.map_eq_some_iff.mp h
    rfl
  | bulkIn a ep len =>
    obtain ⟨ring,-,rfl⟩ := Option.map_eq_some_iff.mp h
    rfl

/-- Every request in the ring asks for an interrupt on completion. -/
def AllIoc (s : Drd) : Prop := ∀ trb ∈ s.hostCtrl.mTransferRing, trb.ioc = true

theorem AllIoc.congr {s s' : Drd} (h : AllIoc s)
    (hring : s'.hostCtrl.mTransferRing = s.hostCtrl.mTransferRing) : AllIoc s' := by
  simpa only [AllIoc,hring] using h

theorem AllIoc.enqueueBulkTrb {devAddr ep : BitVec 8} {dir : Usb3Dir} {len : BitVec 64}
    {payload : List Byte} {s s' : Drd} (h : AllIoc s)
    (hs : enqueueBulkTrb devAddr ep dir len payload s = some s') : AllIoc s' := by
  obtain ⟨ring,hring,rfl⟩ := Option.map_eq_some_iff.mp hs
  simp only [enqueue] at hring
  split at hring
  · cases hring
    intro trb htrb
    obtain htrb | htrb := List.mem_append.mp htrb
    · exact h trb htrb
    · rw [List.mem_singleton.mp htrb]
  · cases hring

theorem AllIoc.input {a : HostInput} {s s' : Drd} (h : AllIoc s) (hs : a.apply s = some s') :
    AllIoc s' := by
  cases a with
  | setEnable v => cases hs; exact h
  | deliver p =>
    cases hs
    refine h.congr ?_
    unfold storeResponse
    split <;> rfl
  | bulkOut a ep data => exact h.enqueueBulkTrb hs
  | bulkIn a ep len => exact h.enqueueBulkTrb hs

section Threads
variable {γ : Type} {w : HostWatch γ} {ok : γ → DrdConf 0 → HostLabel → Prop} {g : γ}
  {c c' : DrdConf 0}

theorem thread_eq {u : Tid 0} (ht : Taken hostKernel hostBoot w ok g c (.eval u) c') :
    u = hostThread ∨ u = collectorThread := by
  obtain ⟨o,p,s,stop,hloc,-,-⟩ := step_eval ht.step
  match u with
  | .inl q =>
    by_cases hq : q = .hostMainProcess ∨ q = .interruptCollector
    · exact hq.imp (congrArg Sum.inl) (congrArg Sum.inl)
    · rw [absent_idle (decide_eq_false hq) ht.reach] at hloc
      cases hloc

theorem hostCtrl_peer {u : Tid 0} (hu : u ≠ hostThread)
    (ht : Taken hostKernel hostBoot w ok g c (.eval u) c') :
    u = collectorThread ∧ c'.state.hostCtrl = c.state.hostCtrl ∧
      c'.state.sigHostEnable = c.state.sigHostEnable ∧
      c'.state.sigXferDone = c.state.sigXferDone ∧
      c'.state.sigEnumDone = c.state.sigEnumDone := by
  obtain rfl := (thread_eq ht).resolve_left hu
  have hkeep := taken_unwritten ht
  have hctrl := congrArg Drd.hostCtrl hkeep
  have henable := congrArg Drd.sigHostEnable hkeep
  have hxfer := congrArg Drd.sigXferDone hkeep
  have henum := congrArg Drd.sigEnumDone hkeep
  exact ⟨rfl,hctrl,henable,hxfer,henum⟩

theorem undriven_steady (hr : Reach hostKernel hostBoot w ok g c) :
    c.state.sigRoleChanged = .steady false ∧ c.state.sigBulkIrq = .steady false := by
  induction hr with
  | boot => exact ⟨rfl,rfl⟩
  | @step g c l c' hr hk hs ih =>
    cases l with
    | eval u =>
      have ht : Taken hostKernel hostBoot w ok g c (.eval u) c' := ⟨hr,hk,hs⟩
      have hkeep := taken_unwritten ht
      obtain rfl | rfl := thread_eq ht
      · have hrole := congrArg Drd.sigRoleChanged hkeep
        have hbulk := congrArg Drd.sigBulkIrq hkeep
        exact ⟨hrole.trans ih.1,hbulk.trans ih.2⟩
      · have hrole := congrArg Drd.sigRoleChanged hkeep
        have hbulk := congrArg Drd.sigBulkIrq hkeep
        exact ⟨hrole.trans ih.1,hbulk.trans ih.2⟩
    | act a =>
      obtain ⟨s,ha,rfl⟩ := step_act hs
      have hkeep := HostInput.apply_unwritten ha
      have hrole := congrArg Drd.sigRoleChanged hkeep
      have hbulk := congrArg Drd.sigBulkIrq hkeep
      exact ⟨hrole.trans ih.1,hbulk.trans ih.2⟩
    | delta =>
      obtain ⟨-,rfl⟩ := step_delta hs
      exact ⟨congrArg Sig.update ih.1,congrArg Sig.update ih.2⟩
    | enter u e =>
      obtain ⟨p,-,-,rfl⟩ := step_enter hs
      exact ih
    | reply u r =>
      obtain ⟨q,next,-,rfl⟩ := step_reply hs
      exact ih
    | advance d =>
      obtain ⟨-,-,-,rfl⟩ := step_advance hs
      exact ih

end Threads

def enumerateRun : List HostLabel :=
  transferRun .ok ++ [.eval hostThread] ++ transferRun .ok ++
    [.eval hostThread,.delta,.advance (2*ms),.eval hostThread] ++
    transferRun .ok ++ [.eval hostThread] ++ transferRun .ok ++ [.eval hostThread] ++
    transferRun .ok ++
    [.eval hostThread,.delta,.eval collectorThread,.delta,.advance (10*ns)]

end Usb3Drd
