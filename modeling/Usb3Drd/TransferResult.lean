import Usb3Drd.HostData

/-! What a control transfer tells its caller, against what its stages came to: only the answer
to the status stage is looked at, and the data are whatever the mailbox holds. -/
namespace Usb3Drd

open Coop HostController ProtocolLayer HostData

namespace TransferResult

/-- What may happen during a transfer: a packet reaches the host controller, or anything but
its mailbox becomes what it is in another state. -/
inductive Arrival
  | deliver (p : Payload)
  | other (s : Drd)
  deriving DecidableEq

def Arrival.apply : Arrival → Drd → Drd
  | .deliver p, s => ((fromProtocolBTransport p).run s).1
  | .other s', s => { s' with hostCtrl := { s'.hostCtrl with
      mRespData := s.hostCtrl.mRespData, mRespValid := s.hostCtrl.mRespValid } }

def latest (m : Option (List Byte)) (acts : List Arrival) : Option (List Byte) :=
  acts.foldl (fun m a => match a with
    | .deliver p => if p.data = [] then m else some p.data
    | .other _ => m) m

abbrev Stage := Turn TlmResponse Arrival

/-- What the peer makes of the stages, and what arrives in the waits after them. -/
structure Peer where
  setup : Stage
  setupWait : List Arrival
  data : Stage
  dataWait : List Arrival
  status : Stage
  statusWait : List Arrival

/-- A call of `ctrlTransfer`, the host that makes it, and the peer. -/
structure Transfer where
  devAddr : BitVec 8
  setup : Usb3SetupPkt
  dataBuf : List Byte
  hostToDevice : Bool
  host : Drd
  peer : Peer

namespace Transfer

def sendsData (t : Transfer) : Prop := t.setup.wLength ≠ 0 ∧ t.hostToDevice = true
def receivesData (t : Transfer) : Prop := t.setup.wLength ≠ 0 ∧ t.hostToDevice = false

instance (t : Transfer) : Decidable t.sendsData := inferInstanceAs (Decidable (_ ∧ _))
instance (t : Transfer) : Decidable t.receivesData := inferInstanceAs (Decidable (_ ∧ _))

def stages (t : Transfer) : List Stage :=
  [t.peer.setup] ++ (if t.sendsData then [t.peer.data] else []) ++ [t.peer.status]

def turns (t : Transfer) : List Stage :=
  [t.peer.setup,⟨t.peer.setupWait,.incomplete⟩] ++
    (if t.sendsData then [t.peer.data,⟨t.peer.dataWait,.incomplete⟩] else []) ++
    [t.peer.status,⟨t.peer.statusWait,.incomplete⟩]

def run (t : Transfer) : Option (Bool × List Byte) :=
  ((ctrlTransfer t.devAddr t.setup t.dataBuf t.hostToDevice).interp (driven Arrival.apply)
    ⟨t.host,t.turns⟩).map (·.1)

/-- The payloads of the packets of one type that were delivered during the transfer. -/
def delivered (t : Transfer) (pktType : Usb3PktType) : List (List Byte) :=
  (t.turns.flatMap (·.acts)).filterMap fun
    | .deliver p => if p.pktType = some pktType then some p.data else none
    | .other _ => none

/-- No stage ended in an error, nothing was stalled, and the data that were asked for are there. -/
def Succeeded (t : Transfer) (buf : List Byte) : Prop :=
  (∀ stage ∈ t.stages, stage.answer = .ok) ∧ t.delivered .tpStall = [] ∧
    (t.receivesData → buf ∈ t.delivered .ctrlData)

/-- Success is reported only if there is success, and without it the buffer is left alone. -/
def Reports (t : Transfer) (r : Bool × List Byte) : Prop :=
  (r.1 = true → t.Succeeded r.2) ∧ (r.1 = false → r.2 = t.dataBuf)

/-- What the mailbox holds when the SETUP stage is over, be it left over or new. -/
def found (t : Transfer) : Option (List Byte) :=
  latest (mailbox t.host) (t.peer.setup.acts ++ t.peer.setupWait)

/-- The status stage tells how the transfer went: answered with OK, the other stages are too,
nothing is stalled, and the mailbox has the data; answered otherwise, it has nothing new. -/
def Telling (t : Transfer) : Prop :=
  if t.peer.status.answer = .ok then
    t.peer.setup.answer = .ok ∧ (t.sendsData → t.peer.data.answer = .ok) ∧
      t.delivered .tpStall = [] ∧
      (t.receivesData → t.found.getD t.dataBuf ∈ t.delivered .ctrlData)
  else t.receivesData → ∀ data ∈ t.found, data = t.dataBuf

end Transfer

section Script
variable (s : Drd) (ts : List Stage)

theorem mailbox_elapse (t : Stage) :
    mailbox (t.elapse Arrival.apply s) = latest (mailbox s) t.acts := by
  have hfold : ∀ (acts : List Arrival) s,
      mailbox (acts.foldl (fun s a => a.apply s) s) = latest (mailbox s) acts := by
    intro acts
    induction acts with
    | nil => exact fun _ => rfl
    | cons a acts ih =>
      intro s
      rw [List.foldl_cons,ih]
      cases a with
      | deliver p =>
        have hrun : (Arrival.deliver p).apply s = storeResponse p.data s := rfl
        rw [hrun,mailbox_storeResponse]
        rfl
      | other s' => rfl
  exact hfold t.acts s

theorem send_eq {p : Payload} (hp : p.ext.isSome = true) (t : Stage) :
    ∃ s', (hostBTransport p).interp (driven Arrival.apply) ⟨s,t::ts⟩ = some (t.answer,⟨s',ts⟩) ∧
      mailbox s' = latest (mailbox s) t.acts := by
  obtain ⟨n,layer,hsend⟩ := routeTx_interp (driven_lawful Arrival.apply) hp ⟨s,t::ts⟩
  refine ⟨t.elapse Arrival.apply { s with protocol := layer },?_,mailbox_elapse _ t⟩
  rw [hostBTransport,hsend]
  rfl

theorem sleep_eq (w : WaitPoint) (t : Stage) :
    ∃ s', (Proc.sleep w : DrdProc Unit).interp (driven Arrival.apply) ⟨s,t::ts⟩ = some ((),⟨s',ts⟩) ∧
      mailbox s' = latest (mailbox s) t.acts :=
  ⟨t.elapse Arrival.apply s,rfl,mailbox_elapse s t⟩

end Script

section Code
variable (t : Transfer) {s : Drd} (ts : List Stage)

theorem dataStage_eq (hs : mailbox s = t.found) :
    ∃ s', (dataStage t.devAddr t.setup t.dataBuf t.hostToDevice).interp (driven Arrival.apply)
      ⟨s,(if t.sendsData then [t.peer.data,⟨t.peer.dataWait,.incomplete⟩] else []) ++ ts⟩ =
        some (if t.receivesData then t.found.getD t.dataBuf else t.dataBuf,⟨s',ts⟩) := by
  by_cases hsends : t.sendsData
  · obtain ⟨hlen,hdir⟩ := hsends
    have hreceives : ¬t.receivesData := fun h => by simp [h.2] at hdir
    obtain ⟨s₁,hsend,-⟩ := send_eq s (⟨t.peer.dataWait,.incomplete⟩::ts)
      (p := dataPacket t.devAddr t.setup t.dataBuf) rfl t.peer.data
    obtain ⟨s₂,hsleep,-⟩ := sleep_eq s₁ ts .dataStage ⟨t.peer.dataWait,.incomplete⟩
    refine ⟨s₂,?_⟩
    rw [if_pos ⟨hlen,hdir⟩,if_neg hreceives,dataStage,if_neg hlen,if_neg (by simp [hdir])]
    simp only [List.cons_append,List.nil_append]
    rw [Proc.interp_bind,hsend,Option.bind_some,Proc.interp_bind,hsleep]
    rfl
  · have hlen : t.hostToDevice = true → t.setup.wLength = 0 :=
      fun hdir => by_contra fun hlen => hsends ⟨hlen,hdir⟩
    rw [if_neg hsends,List.nil_append,dataStage_interp _ _ hlen]
    by_cases hzero : t.setup.wLength = 0
    · refine ⟨s,?_⟩
      rw [if_neg fun h => h.1 hzero,if_neg fun h => h.1 hzero]
    · have hreceives : t.receivesData :=
        ⟨hzero,Bool.eq_false_of_not_eq_true fun hdir => hzero (hlen hdir)⟩
      rw [if_pos hreceives,← hs]
      by_cases hvalid : s.hostCtrl.mRespValid = true
      · refine ⟨drain s,?_⟩
        rw [if_pos ⟨hzero,hvalid⟩,mailbox,if_pos hvalid]
        rfl
      · refine ⟨s,?_⟩
        rw [if_neg fun h => hvalid h.2,mailbox,if_neg hvalid]
        rfl

/-- A transfer returns the answer to its status stage, and what it found. -/
theorem run_eq : t.run = some (decide (t.peer.status.answer = .ok),
    if t.receivesData then t.found.getD t.dataBuf else t.dataBuf) := by
  let rest := (if t.sendsData then [t.peer.data,⟨t.peer.dataWait,.incomplete⟩] else []) ++
    [t.peer.status,⟨t.peer.statusWait,.incomplete⟩]
  obtain ⟨s₁,hsetup,hs₁⟩ := send_eq t.host (⟨t.peer.setupWait,.incomplete⟩::rest)
    (p := setupPacket t.devAddr t.setup) rfl t.peer.setup
  obtain ⟨s₂,hwait,hs₂⟩ := sleep_eq s₁ rest .setupStage ⟨t.peer.setupWait,.incomplete⟩
  have hfound : mailbox s₂ = t.found := by
    rw [hs₂,hs₁,Transfer.found,latest,latest,latest,List.foldl_append]
  obtain ⟨s₃,hdata⟩ := dataStage_eq t [t.peer.status,⟨t.peer.statusWait,.incomplete⟩] hfound
  obtain ⟨s₄,hstatus,-⟩ := send_eq s₃ [⟨t.peer.statusWait,.incomplete⟩]
    (p := statusPacket t.devAddr t.hostToDevice) rfl t.peer.status
  have hturns : t.turns = t.peer.setup::⟨t.peer.setupWait,.incomplete⟩::rest := by
    simp [Transfer.turns,rest]
  rw [Transfer.run,ctrlTransfer,hturns,Proc.interp_bind,hsetup,Option.bind_some,Proc.interp_bind,
    hwait,Option.bind_some,Proc.interp_bind,hdata,Option.bind_some,Proc.interp_bind,hstatus]
  rfl

theorem stages_ok_iff : (∀ stage ∈ t.stages, stage.answer = .ok) ↔
    t.peer.setup.answer = .ok ∧ (t.sendsData → t.peer.data.answer = .ok) ∧
      t.peer.status.answer = .ok := by
  by_cases hsends : t.sendsData
  · simp [Transfer.stages,hsends]
  · simp [Transfer.stages,hsends]

end Code

/-- A transfer reports what came of it exactly if its status stage tells it. -/
theorem reports_iff_telling (t : Transfer) : ∃ r, t.run = some r ∧ (t.Reports r ↔ t.Telling) := by
  refine ⟨_,run_eq t,?_⟩
  rw [Transfer.Reports,Transfer.Telling,Transfer.Succeeded,stages_ok_iff]
  by_cases hok : t.peer.status.answer = .ok
  · simp only [hok,decide_true,if_true,forall_const,and_true,reduceCtorEq,false_implies,and_assoc]
    by_cases hreceives : t.receivesData
    · simp [hreceives]
    · simp [hreceives]
  · simp only [hok,decide_false,if_false,reduceCtorEq,false_implies,true_and,forall_const]
    by_cases hreceives : t.receivesData
    · cases t.found <;> simp [hreceives]
    · simp [hreceives]

def stalled : Transfer where
  devAddr := 0
  setup := descriptorRequest 0x22 0
  dataBuf := []
  hostToDevice := false
  host := {}
  peer :=
    { setup := ⟨[.deliver { command := .write, data := .replicate 4 0
                            ext := some { pktType := .tpStall, code := .stallErr } }],.genericError⟩
      setupWait := []
      data := ⟨[],.incomplete⟩
      dataWait := []
      status := ⟨[.deliver { command := .write, data := [0], ext := some { pktType := .ctrlStatus } }],.ok⟩
      statusWait := [] }

/-- The stall is reported as success, with the payload of the stall for the descriptor. -/
theorem not_reports_stalled : ¬∀ t r, Transfer.run t = some r → t.Reports r := by
  intro hall
  have hrun : stalled.run = some (true,.replicate 4 0) := by decide +kernel
  have hsucceeded := (hall stalled _ hrun).1 rfl
  cases hsucceeded.1 stalled.peer.setup (.head _)

end TransferResult
end Usb3Drd
