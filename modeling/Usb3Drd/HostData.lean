import Usb3Drd.DrdController

/-! Where the bytes that the host hands out come from: any sequence of its control and
bulk transfers, while a peer delivers any packets to a device in the host role. -/
namespace Usb3Drd
namespace HostData

open Coop HostController ProtocolLayer

/-- What may happen while the host thread is suspended: a packet comes in, or anything
but the role, the mailbox and the receive buffer becomes what it is in another state. -/
inductive Meanwhile
  | deliver (p : Payload)
  | other (s : Drd)
  deriving DecidableEq

def Meanwhile.apply : Meanwhile → Drd → Drd
  | .deliver p, s => ((DrdController.upstreamBTransport p).run s).1
  | .other s', s => { s' with
      sigRole := s.sigRole
      hostCtrl := { s'.hostCtrl with
        mRxBuf := s.hostCtrl.mRxBuf
        mRespData := s.hostCtrl.mRespData
        mRespValid := s.hostCtrl.mRespValid } }

abbrev HostTurn := Turn TlmResponse Meanwhile

abbrev HostScript := Driven Drd TlmResponse Meanwhile

def hostHandler : Handler Drd WaitPoint Payload TlmResponse HostScript := driven Meanwhile.apply

/-- What the host thread does: the transfers that enumeration and ring are made of, and
waits between them. -/
inductive HostOp
  | getDescriptor (devAddr descType descIndex : BitVec 8) (buf : List Byte)
  | setAddress (oldAddr newAddr : BitVec 8)
  | setConfiguration (devAddr configVal : BitVec 8)
  | bulk (trb : Usb3Trb)
  | idle (w : WaitPoint)
  deriving DecidableEq

namespace HostOp

def buffer : HostOp → List Byte
  | .getDescriptor _ _ _ buf => buf
  | _ => []

def proc : HostOp → DrdProc (List Byte)
  | .getDescriptor devAddr descType descIndex buf => do
    let r ← HostController.getDescriptor devAddr descType descIndex buf
    pure r.2
  | .setAddress oldAddr newAddr => do
    let r ← ctrlTransfer oldAddr (addressRequest newAddr) [] true
    pure r.2
  | .setConfiguration devAddr configVal => do
    let r ← ctrlTransfer devAddr (configurationRequest configVal) [] true
    pure r.2
  | .bulk trb => do
    runTrb trb
    pure []
  | .idle w => do
    Proc.sleep w
    pure []

end HostOp

structure OpRun where
  op : HostOp
  before : Drd
  turns : List HostTurn
  data : List Byte
  after : Drd

/-- Run the operations one after the other; `none` if the script is too short. -/
def history : List HostOp → HostScript → Option (List OpRun)
  | [], _ => some []
  | op::ops, x => do
    let y ← op.proc.interp hostHandler x
    let runs ← history ops y.2
    pure (⟨op,x.state,x.turns,y.1,y.2.state⟩::runs)

def delivered (pktType : Usb3PktType) (acts : List Meanwhile) : List (List Byte) :=
  acts.filterMap fun
    | .deliver p => if p.pktType = some pktType then some p.data else none
    | .other _ => none

namespace OpRun

/-- What happened from the SETUP packet to the status stage, and during the packet of a
bulk transfer. -/
def setupWindow (r : OpRun) : List Meanwhile := (r.turns.take 2).flatMap (·.acts)
def bulkWindow (r : OpRun) : List Meanwhile := (r.turns.take 1).flatMap (·.acts)

/-- The data buffer was left alone or holds what a CTRL_DATA packet of this transfer
carried, and the receive buffer was left alone or holds what a BULK_IN packet carried
that came during this IN transfer. -/
def Sourced (r : OpRun) : Prop :=
  (r.data = r.op.buffer ∨ r.data ∈ delivered .ctrlData r.setupWindow) ∧
    (r.after.hostCtrl.mRxBuf = r.before.hostCtrl.mRxBuf ∨
      (∃ trb, r.op = .bulk trb ∧ trb.direction = .deviceToHost) ∧
        r.after.hostCtrl.mRxBuf ∈ delivered .bulkIn r.bulkWindow)

end OpRun

def mailbox (s : Drd) : Option (List Byte) :=
  if s.hostCtrl.mRespValid then some s.hostCtrl.mRespData else none

/-- The content of the mailbox after what happened meanwhile: that of the last packet
with data that was passed on. -/
def latest (m : Option (List Byte)) (acts : List Meanwhile) : Option (List Byte) :=
  acts.foldl (fun m a => match a with
    | .deliver p => if isForwarded p ∧ p.data ≠ [] then some p.data else m
    | .other _ => m) m

/-- What the transfer finds in the mailbox, be it left over or new, is what it asked for. -/
def OpRun.Answered (r : OpRun) : Prop :=
  match r.op with
  | .getDescriptor _ _ _ buf => ∀ data ∈ latest (mailbox r.before) r.setupWindow,
      data = buf ∨ data ∈ delivered .ctrlData r.setupWindow
  | .bulk trb => trb.direction = .deviceToHost →
      ∀ data ∈ latest (mailbox r.before) r.bulkWindow,
        data = r.before.hostCtrl.mRxBuf ∨ data ∈ delivered .bulkIn r.bulkWindow
  | _ => True

instance : ∀ r : OpRun, Decidable r.Answered
  | ⟨.getDescriptor _ _ _ _,_,_,_,_⟩ => inferInstanceAs (Decidable (∀ data ∈ latest _ _, _ ∨ _))
  | ⟨.bulk _,_,_,_,_⟩ => inferInstanceAs (Decidable (_ → ∀ data ∈ latest _ _, _ ∨ _))
  | ⟨.setAddress _ _,_,_,_,_⟩ | ⟨.setConfiguration _ _,_,_,_,_⟩ | ⟨.idle _,_,_,_,_⟩ => isTrue trivial

structure Sees (s : Drd) (m : Option (List Byte)) (rx : List Byte) : Prop where
  role : s.sigRole.cur = .host
  mail : mailbox s = m
  rxBuf : s.hostCtrl.mRxBuf = rx

section View
variable {s : Drd} {m : Option (List Byte)} {rx : List Byte}

theorem sees_of_role (hrole : s.sigRole.cur = .host) : Sees s (mailbox s) s.hostCtrl.mRxBuf :=
  ⟨hrole,rfl,rfl⟩

theorem upstream_host (hrole : s.sigRole.cur = .host) (p : Payload) :
    (DrdController.upstreamBTransport p).run s =
      (if isForwarded p then storeResponse p.data s else s,.ret p.response) := by
  rw [DrdController.upstreamBTransport,ProtocolLayer.linkBTransport,handleRx_eq]
  by_cases hf : isForwarded p = true
  · rw [if_pos hf,if_pos hf,forwardToActiveController,Proc.run_read_bind,hrole,← markStall_data,
      ← markStall_response]
    rfl
  · rw [if_neg hf,if_neg hf]
    rfl

theorem mailbox_storeResponse (data : List Byte) (s : Drd) :
    mailbox (storeResponse data s) = if data = [] then mailbox s else some data := by
  unfold storeResponse
  split <;> rfl

theorem Sees.post (h : Sees s m rx) (data : List Byte) :
    Sees (storeResponse data s) (if data = [] then m else some data) rx := by
  refine ⟨?_,by rw [mailbox_storeResponse,h.mail],?_⟩
  · rw [← h.role,storeResponse]
    split <;> rfl
  · rw [← h.rxBuf,storeResponse]
    split <;> rfl

theorem Sees.act (h : Sees s m rx) (a : Meanwhile) : Sees (a.apply s) (latest m [a]) rx := by
  cases a with
  | other s' => exact ⟨h.role,h.mail,h.rxBuf⟩
  | deliver p =>
    have hrun : (Meanwhile.deliver p).apply s = if isForwarded p then storeResponse p.data s else s :=
      congrArg Prod.fst (upstream_host h.role p)
    rw [hrun]
    by_cases hf : isForwarded p = true
    · rw [if_pos hf]
      have hlatest : latest m [.deliver p] = if p.data = [] then m else some p.data := by
        simp only [latest,List.foldl_cons,List.foldl_nil,hf,true_and,ite_not]
      rw [hlatest]
      exact h.post p.data
    · rw [if_neg hf]
      have hlatest : latest m [.deliver p] = m := by simp [latest,hf]
      rwa [hlatest]

theorem latest_cons (m : Option (List Byte)) (a : Meanwhile) (acts : List Meanwhile) :
    latest m (a::acts) = latest (latest m [a]) acts := rfl

theorem latest_append (m : Option (List Byte)) (as bs : List Meanwhile) :
    latest m (as ++ bs) = latest (latest m as) bs := List.foldl_append

theorem Sees.elapse (h : Sees s m rx) (t : HostTurn) :
    Sees (t.elapse Meanwhile.apply s) (latest m t.acts) rx := by
  have hfold : ∀ (acts : List Meanwhile) s m, Sees s m rx →
      Sees (acts.foldl (fun s a => a.apply s) s) (latest m acts) rx := by
    intro acts
    induction acts with
    | nil => exact fun _ _ h => h
    | cons a acts ih =>
      intro s m h
      rw [latest_cons]
      exact ih _ _ (h.act a)
  exact hfold t.acts s m h

theorem Sees.drain (h : Sees s m rx) : Sees (drain s) none rx := ⟨h.role,rfl,h.rxBuf⟩

end View

section Code
variable {x : HostScript} {m : Option (List Byte)} {rx : List Byte}

theorem send_spec {p : Payload} (hp : p.ext.isSome = true) {y : TlmResponse × HostScript}
    (h : (ProtocolLayer.hostBTransport p).interp hostHandler x = some y) (hx : Sees x.state m rx) :
    ∃ t, x.turns = t::y.2.turns ∧ y.1 = t.answer ∧ Sees y.2.state (latest m t.acts) rx := by
  obtain ⟨n,layer,hcall⟩ := ProtocolLayer.routeTx_interp (driven_lawful Meanwhile.apply) hp x
  rw [ProtocolLayer.hostBTransport,hostHandler,hcall] at h
  obtain ⟨t,hts,hans,hstate⟩ := call_driven h
  have hsent : Sees { x.state with protocol := layer } m rx := ⟨hx.role,hx.mail,hx.rxBuf⟩
  exact ⟨t,hts,hans,hstate ▸ hsent.elapse t⟩

theorem sleep_spec {w : WaitPoint} {y : Unit × HostScript}
    (h : (Proc.sleep w : DrdProc Unit).interp hostHandler x = some y) (hx : Sees x.state m rx) :
    ∃ t, x.turns = t::y.2.turns ∧ Sees y.2.state (latest m t.acts) rx := by
  obtain ⟨t,hts,hstate⟩ := sleep_driven h
  exact ⟨t,hts,hstate ▸ hx.elapse t⟩

theorem dataStage_spec {devAddr : BitVec 8} {setup : Usb3SetupPkt} {buf : List Byte} {dir : Bool}
    (hlen : dir = true → setup.wLength = 0) {y : List Byte × HostScript}
    (h : (dataStage devAddr setup buf dir).interp hostHandler x = some y) (hx : Sees x.state m rx) :
    y.2.turns = x.turns ∧ y.1 = (if setup.wLength = 0 then buf else m.getD buf) ∧
      ∃ m', Sees y.2.state m' rx := by
  rw [dataStage_interp _ _ hlen,Option.some.injEq] at h
  by_cases hzero : setup.wLength = 0
  · rw [if_neg fun hc => hc.1 hzero] at h
    rw [← h,if_pos hzero]
    exact ⟨rfl,rfl,m,hx⟩
  · rw [if_neg hzero]
    by_cases hvalid : x.state.hostCtrl.mRespValid = true
    · have hm : m = some x.state.hostCtrl.mRespData := by rw [← hx.mail,mailbox,if_pos hvalid]
      rw [if_pos ⟨hzero,hvalid⟩] at h
      rw [← h,hm]
      exact ⟨rfl,rfl,none,hx.drain⟩
    · have hm : m = none := by rw [← hx.mail,mailbox,if_neg hvalid]
      rw [if_neg fun hc => hvalid hc.2] at h
      rw [← h,hm]
      exact ⟨rfl,rfl,none,hm ▸ hx⟩

/-- A control transfer that sends no data: its SETUP packet and the wait after it, the
copy, and the status stage. -/
theorem ctrlTransfer_spec {devAddr : BitVec 8} {setup : Usb3SetupPkt} {buf : List Byte} {dir : Bool}
    (hlen : dir = true → setup.wLength = 0) {y : (Bool × List Byte) × HostScript}
    (h : (ctrlTransfer devAddr setup buf dir).interp hostHandler x = some y)
    (hx : Sees x.state m rx) :
    (∃ m', Sees y.2.state m' rx) ∧ y.1.2 = (if setup.wLength = 0 then buf
      else (latest m ((x.turns.take 2).flatMap (·.acts))).getD buf) := by
  simp only [ctrlTransfer,Proc.interp_bind,Option.bind_eq_some_iff] at h
  obtain ⟨a,ha,b,hb,c,hc,d,hd,e,he,hret⟩ := h
  obtain ⟨t₁,hts₁,-,hx₁⟩ := send_spec rfl ha hx
  obtain ⟨t₂,hts₂,hx₂⟩ := sleep_spec hb hx₁
  obtain ⟨-,hdata,m',hx₃⟩ := dataStage_spec hlen hc hx₂
  obtain ⟨t₃,-,-,hx₄⟩ := send_spec rfl hd hx₃
  obtain ⟨t₄,-,hx₅⟩ := sleep_spec he hx₄
  have hwindow : (x.turns.take 2).flatMap (·.acts) = t₁.acts ++ t₂.acts := by
    rw [hts₁,hts₂]
    simp
  rw [Proc.interp_pure,Option.some.injEq] at hret
  rw [← hret,hwindow,latest_append]
  exact ⟨⟨_,hx₅⟩,hdata⟩

theorem descriptorRequest_length (descType descIndex : BitVec 8) :
    (descriptorRequest descType descIndex).wLength ≠ 0 := by
  simp only [descriptorRequest]
  repeat' split
  all_goals decide

theorem getDescriptor_spec {devAddr descType descIndex : BitVec 8} {buf : List Byte}
    {y : (Bool × List Byte) × HostScript}
    (h : (getDescriptor devAddr descType descIndex buf).interp hostHandler x = some y)
    (hx : Sees x.state m rx) :
    (∃ m', Sees y.2.state m' rx) ∧
      y.1.2 = (latest m ((x.turns.take 2).flatMap (·.acts))).getD buf := by
  obtain ⟨hy,hdata⟩ := ctrlTransfer_spec (by simp) h hx
  rw [if_neg (descriptorRequest_length descType descIndex)] at hdata
  exact ⟨hy,hdata⟩

theorem runTrb_spec {trb : Usb3Trb} {y : Unit × HostScript}
    (h : (runTrb trb).interp hostHandler x = some y) (hx : Sees x.state m rx) :
    ∃ m', Sees y.2.state m' (if trb.direction = .deviceToHost then
      (latest m ((x.turns.take 1).flatMap (·.acts))).getD rx else rx) := by
  simp only [runTrb,Proc.interp_bind,Option.bind_eq_some_iff] at h
  obtain ⟨a,ha,b,hb,htail⟩ := h
  obtain ⟨t,hts,-,hx₁⟩ := send_spec rfl ha hx
  have hwindow : (x.turns.take 1).flatMap (·.acts) = t.acts := by
    rw [hts]
    simp
  rw [hwindow]
  obtain ⟨m',hx₂⟩ : ∃ m', Sees b.2.state m'
      (if trb.direction = .deviceToHost then (latest m t.acts).getD rx else rx) := by
    rw [Proc.interp_modify,Option.some.injEq] at hb
    rw [← hb]
    show ∃ m', Sees (receive trb a.2.state) m' _
    by_cases hin : trb.direction = .deviceToHost
    · rw [if_pos hin]
      by_cases hvalid : a.2.state.hostCtrl.mRespValid = true
      · have hm : latest m t.acts = some a.2.state.hostCtrl.mRespData := by
          rw [← hx₁.mail,mailbox,if_pos hvalid]
        rw [hm,receive,if_pos ⟨hin,hvalid⟩]
        exact ⟨none,hx₁.role,rfl,rfl⟩
      · have hm : latest m t.acts = none := by rw [← hx₁.mail,mailbox,if_neg hvalid]
        rw [hm,receive,if_neg fun h => hvalid h.2]
        exact ⟨_,hx₁⟩
    · rw [if_neg hin,receive,if_neg fun h => hin h.1]
      exact ⟨_,hx₁⟩
  by_cases hioc : trb.ioc = true
  · simp only [if_pos hioc,Proc.interp_bind,Option.bind_eq_some_iff,Proc.interp_modify,
      Option.some.injEq] at htail
    obtain ⟨c,rfl,d,hd,rfl⟩ := htail
    have hpulse : Sees (writeXferDone true b.2.state) m' _ := ⟨hx₂.role,hx₂.mail,hx₂.rxBuf⟩
    obtain ⟨t',-,hx₃⟩ := sleep_spec hd hpulse
    exact ⟨_,hx₃.role,hx₃.mail,hx₃.rxBuf⟩
  · rw [if_neg hioc,Proc.interp_pure,Option.some.injEq] at htail
    rw [← htail]
    exact ⟨m',hx₂⟩

def OpRun.dataLeft (r : OpRun) : List Byte :=
  match r.op with
  | .getDescriptor _ _ _ buf => (latest (mailbox r.before) r.setupWindow).getD buf
  | _ => []

def OpRun.rxLeft (r : OpRun) : List Byte :=
  match r.op with
  | .bulk trb => if trb.direction = .deviceToHost then
      (latest (mailbox r.before) r.bulkWindow).getD r.before.hostCtrl.mRxBuf
    else r.before.hostCtrl.mRxBuf
  | _ => r.before.hostCtrl.mRxBuf

theorem getD_sourced (m : Option (List Byte)) (b : List Byte) (L : List (List Byte)) :
    (m.getD b = b ∨ m.getD b ∈ L) ↔ ∀ data ∈ m, data = b ∨ data ∈ L := by
  cases m <;> simp

theorem OpRun.sourced_iff {r : OpRun} (hdata : r.data = r.dataLeft)
    (hrx : r.after.hostCtrl.mRxBuf = r.rxLeft) : r.Sourced ↔ r.Answered := by
  obtain ⟨op,before,turns,data,after⟩ := r
  cases op with
  | getDescriptor devAddr descType descIndex buf =>
    have hsame : after.hostCtrl.mRxBuf = before.hostCtrl.mRxBuf := hrx
    have hget : data = (latest (mailbox before) _).getD buf := hdata
    simp only [Sourced,Answered,HostOp.buffer,hsame,true_or,and_true]
    rw [hget]
    exact getD_sourced _ _ _
  | bulk trb =>
    have hnone : data = [] := hdata
    by_cases hin : trb.direction = .deviceToHost
    · have hget : after.hostCtrl.mRxBuf = (latest (mailbox before) _).getD before.hostCtrl.mRxBuf :=
        hrx.trans (if_pos hin)
      have hop : ∃ trb', HostOp.bulk trb = .bulk trb' ∧ trb'.direction = .deviceToHost := ⟨trb,rfl,hin⟩
      simp only [Sourced,Answered,HostOp.buffer,hnone,true_or,true_and,hop,hin,forall_const]
      rw [hget]
      exact getD_sourced _ _ _
    · have hsame : after.hostCtrl.mRxBuf = before.hostCtrl.mRxBuf := hrx.trans (if_neg hin)
      simp [Sourced,Answered,HostOp.buffer,hnone,hsame,hin]
  | setAddress | setConfiguration | idle =>
    have hsame : after.hostCtrl.mRxBuf = before.hostCtrl.mRxBuf := hrx
    have hnone : data = [] := hdata
    simp [Sourced,Answered,HostOp.buffer,hsame,hnone]

/-- One operation, by what it finds in the mailbox. -/
theorem op_spec {op : HostOp} {y : List Byte × HostScript}
    (h : op.proc.interp hostHandler x = some y) (hrole : x.state.sigRole.cur = .host) :
    y.2.state.sigRole.cur = .host ∧
      y.1 = (⟨op,x.state,x.turns,y.1,y.2.state⟩ : OpRun).dataLeft ∧
      y.2.state.hostCtrl.mRxBuf = (⟨op,x.state,x.turns,y.1,y.2.state⟩ : OpRun).rxLeft := by
  have hx := sees_of_role hrole
  cases op with
  | getDescriptor devAddr descType descIndex buf =>
    simp only [HostOp.proc,Proc.interp_bind,Option.bind_eq_some_iff,Proc.interp_pure,
      Option.some.injEq] at h
    obtain ⟨z,hz,rfl⟩ := h
    obtain ⟨⟨m',hz'⟩,hdata⟩ := getDescriptor_spec hz hx
    exact ⟨hz'.role,hdata,hz'.rxBuf⟩
  | setAddress oldAddr newAddr =>
    simp only [HostOp.proc,Proc.interp_bind,Option.bind_eq_some_iff,Proc.interp_pure,
      Option.some.injEq] at h
    obtain ⟨z,hz,rfl⟩ := h
    obtain ⟨⟨m',hz'⟩,hdata⟩ := ctrlTransfer_spec (fun _ => rfl) hz hx
    exact ⟨hz'.role,hdata,hz'.rxBuf⟩
  | setConfiguration devAddr configVal =>
    simp only [HostOp.proc,Proc.interp_bind,Option.bind_eq_some_iff,Proc.interp_pure,
      Option.some.injEq] at h
    obtain ⟨z,hz,rfl⟩ := h
    obtain ⟨⟨m',hz'⟩,hdata⟩ := ctrlTransfer_spec (fun _ => rfl) hz hx
    exact ⟨hz'.role,hdata,hz'.rxBuf⟩
  | bulk trb =>
    simp only [HostOp.proc,Proc.interp_bind,Option.bind_eq_some_iff,Proc.interp_pure,
      Option.some.injEq] at h
    obtain ⟨z,hz,rfl⟩ := h
    obtain ⟨m',hz'⟩ := runTrb_spec hz hx
    exact ⟨hz'.role,rfl,hz'.rxBuf⟩
  | idle w =>
    simp only [HostOp.proc,Proc.interp_bind,Option.bind_eq_some_iff,Proc.interp_pure,
      Option.some.injEq] at h
    obtain ⟨z,hz,rfl⟩ := h
    obtain ⟨t,-,hz'⟩ := sleep_spec hz hx
    exact ⟨hz'.role,rfl,hz'.rxBuf⟩

end Code

/-- In every sequence of transfers, each hands out bytes of its own packets exactly if
what it finds in the mailbox is what it asked for. -/
theorem sourced_iff_answered (ops : List HostOp) (x : HostScript) (runs : List OpRun)
    (hrole : x.state.sigRole.cur = .host) (h : history ops x = some runs) :
    ∀ r ∈ runs, r.Sourced ↔ r.Answered := by
  induction ops generalizing x runs with
  | nil =>
    cases h
    simp
  | cons op ops ih =>
    simp only [history,Option.bind_eq_bind,Option.bind_eq_some_iff,Option.pure_def,
      Option.some.injEq] at h
    obtain ⟨y,hy,rest,hrest,rfl⟩ := h
    obtain ⟨hrole',hdata,hrx⟩ := op_spec hy hrole
    intro r hr
    obtain rfl | hr := List.mem_cons.mp hr
    · exact OpRun.sourced_iff hdata hrx
    · exact ih y.2 rest hrole' hrest r hr

def quietTurn : HostTurn := ⟨[],.ok⟩

def packetTurn (pktType : Usb3PktType) (data : List Byte) : HostTurn :=
  ⟨[.deliver { data, ext := some { pktType } }],.ok⟩

def hostScript (turns : List HostTurn) : HostScript :=
  ⟨{ sigRole := .steady .host },turns⟩

theorem sourced_answered : ∃ ops x runs, history ops x = some runs ∧ runs.length = 2 ∧
    ∀ r ∈ runs, r.Sourced := by
  let ops : List HostOp := [.getDescriptor 0 usbDescDevice 0 [],.bulk { direction := .deviceToHost }]
  let x := hostScript [packetTurn .ctrlData [18,1],quietTurn,quietTurn,quietTurn,
    packetTurn .bulkIn [7],quietTurn]
  have hrun : (history ops x).any fun runs => decide (runs.length = 2 ∧ ∀ r ∈ runs, r.Answered) := by
    decide +kernel
  obtain ⟨runs,h,hruns⟩ := (Option.any_eq_true _ _).mp hrun
  obtain ⟨hlen,hans⟩ := of_decide_eq_true hruns
  have hiff := sourced_iff_answered ops x runs rfl h
  exact ⟨ops,x,runs,h,hlen,fun r hr => (hiff r hr).mpr (hans r hr)⟩

/-- The answer to the status stage of SET_ADDRESS stays in the mailbox, and a bulk IN
transfer that is not answered takes it for its data. -/
theorem not_sourced_leftover : ¬ ∀ ops x runs, x.state.sigRole.cur = .host →
    history ops x = some runs → ∀ r ∈ runs, r.Sourced := by
  intro hall
  let ops : List HostOp := [.setAddress 0 1,.bulk { direction := .deviceToHost }]
  let x := hostScript [quietTurn,quietTurn,packetTurn .ctrlStatus [0],quietTurn,quietTurn,quietTurn]
  have hrun : (history ops x).any fun runs => runs.any fun r => decide
      (r.after.hostCtrl.mRxBuf ≠ r.before.hostCtrl.mRxBuf ∧ delivered .bulkIn r.bulkWindow = []) := by
    decide +kernel
  obtain ⟨runs,h,hruns⟩ := (Option.any_eq_true _ _).mp hrun
  obtain ⟨r,hr,hbad⟩ := List.any_eq_true.mp hruns
  obtain ⟨hne,hnone⟩ := of_decide_eq_true hbad
  obtain ⟨-,hrx⟩ := hall ops x runs rfl h r hr
  have hmem := (hrx.resolve_left hne).2
  rw [hnone] at hmem
  cases hmem

end HostData
end Usb3Drd
