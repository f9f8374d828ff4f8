import Usb3Drd.Coop.Echo
import Usb3Drd.PeerSession

/-! Bulk data of the test bench. Host and peer together are an echo: what the receive buffer of the
host holds is the payload of the last OUT transfer that an IN transfer of the host role followed
at once. -/
namespace Usb3Drd
namespace PeerStore

open Coop HostController HostMachine Inbound DeviceLog PeerDevice PeerBench PeerSession

abbrev Ops := List (EchoOp Byte)

/-- The bulk transfer that is called out, and whether the controller has the host role then. -/
def bulkOp (inHost : Bool) : Loc WaitPoint Payload TlmResponse → Ops
  | .calling q =>
    if q.pktType = some .bulkOut then [.write q.data]
    else if q.pktType = some .bulkIn then [.read inHost]
    else []
  | _ => []

def bulkLog : BenchWatch Ops where
  init := []
  next ops _ l c' :=
    match l with
    | .eval t => if t = hostThread then
        ops ++ bulkOp (decide (c'.state.sigRole.cur = .host)) (c'.loc hostThread)
      else ops
    | _ => ops

def received (h : HostController) : Phase → List Byte
  | .transfer _ => if h.mRespValid then h.mRespData else h.mRxBuf
  | _ => h.mRxBuf

/-- A BULK_IN of the peer is on its way. -/
def Fetching (g : PeerState) : Prop :=
  match g.service with
  | .sends _ e _ => e.pktType = some .bulkIn
  | .inside _ e _ => e.pktType = some .bulkIn
  | _ => False

instance (g : PeerState) : Decidable (Fetching g) := by
  unfold Fetching
  split <;> infer_instance

/-- Host and peer as an echo, which is ahead of them while the peer's data is on its way. -/
def Stores (ops : Ops) (g : PeerState) (s : Drd) (ph : Phase) : Prop :=
  if Fetching g then Quiet s.hostCtrl ∧ ({} : Echo Byte).replay ops =
    (⟨g.partner.mLoopbackBuf,s.hostCtrl.mRxBuf⟩ : Echo Byte).step
      (.read (decide (s.sigRole.cur = .host)))
  else ({} : Echo Byte).replay ops = ⟨g.partner.mLoopbackBuf,received s.hostCtrl ph⟩

section Turns
variable {L : SessionLog} {v : View} {s : Drd} {ph : Phase} {o : Origin WaitPoint Payload TlmResponse}

theorem ringHead_rx (s : Drd) : (ringHead s).state.hostCtrl.mRxBuf = s.hostCtrl.mRxBuf := by
  rw [ringHead]
  split
  · rfl
  · split
    · rfl
    · rw [sends_hostCtrl]
      rfl

theorem ringHead_quiet (hquiet : Quiet s.hostCtrl) : Quiet (ringHead s).state.hostCtrl := by
  rw [ringHead]
  split
  · exact hquiet
  · split
    · exact hquiet
    · rw [sends_hostCtrl]
      exact hquiet

theorem receive_quiet {trb : Usb3Trb} (hquiet : trb.direction = .hostToDevice → Quiet s.hostCtrl) :
    Quiet (receive trb s).hostCtrl := by
  rw [receive]
  split
  · rfl
  · rename_i hkeep
    cases hdir : trb.direction with
    | hostToDevice => exact hquiet hdir
    | deviceToHost => exact Bool.eq_false_iff.mpr fun hvalid => hkeep ⟨hdir,hvalid⟩

theorem turn_rx (hagrees : Agrees L v s.hostCtrl ph) :
    (turn ph o s).state.hostCtrl.mRxBuf = received s.hostCtrl ph := by
  have hmain : ∀ s, (mainHead s).state.hostCtrl.mRxBuf = s.hostCtrl.mRxBuf := by
    intro s
    rw [mainHead]
    split <;> rfl
  cases ph with
  | boot => exact hmain _
  | settling k addr buf =>
    rw [turn,collect]
    split
    · rw [sends_hostCtrl]
      rfl
    · rw [sends_hostCtrl]
      rfl
  | closing k buf answered =>
    obtain ⟨-,-,-,rfl⟩ := hagrees
    cases k <;> rfl
  | announcing => exact ringHead_rx _
  | idle => exact ringHead_rx _
  | completing => exact ringHead_rx _
  | transfer trb =>
    have hreceive : (receive trb s).hostCtrl.mRxBuf = received s.hostCtrl (.transfer trb) := by
      rw [receive,received]
      cases hdir : trb.direction with
      | hostToDevice =>
        have hvalid : s.hostCtrl.mRespValid = false := hagrees.1 hdir
        simp [hvalid]
      | deviceToHost =>
        cases hvalid : s.hostCtrl.mRespValid with
        | true => simp
        | false => simp
    rw [turn]
    split
    · exact hreceive
    · rw [ringHead_rx]
      exact hreceive
  | _ => rfl

theorem turn_quiet {trb : Usb3Trb} (hagrees : Agrees L v s.hostCtrl ph)
    (htransfer : (turn ph o s).phase = .transfer trb) : Quiet (turn ph o s).state.hostCtrl := by
  cases ph with
  | boot =>
    rw [turn,mainHead] at htransfer
    split at htransfer <;> cases htransfer
  | settling k addr buf =>
    rw [turn,collect] at htransfer
    split at htransfer <;> cases htransfer
  | closing k buf answered =>
    obtain ⟨-,-,-,rfl⟩ := hagrees
    cases k <;> cases htransfer
  | announcing => exact ringHead_quiet hagrees.1
  | idle => exact ringHead_quiet hagrees.1
  | completing => exact ringHead_quiet hagrees.1
  | transfer trb' =>
    rw [turn] at htransfer ⊢
    split at htransfer
    · cases htransfer
    · rename_i hioc
      rw [if_neg hioc]
      exact ringHead_quiet (receive_quiet hagrees.1)
  | _ => cases htransfer

end Turns

section Peer
variable {p : PeerDevice} {ph : Phase} {pkt e : Payload} {n : BitVec 32}

def phaseOp (inHost : Bool) : Phase → Ops
  | .transfer trb => if trb.direction = .hostToDevice then [.write trb.payload] else [.read inHost]
  | _ => []

theorem bulkOp_phase (hpkt : ph.packet = some pkt) (inHost : Bool) :
    bulkOp inHost (.calling (pkt.numbered n)) = phaseOp inHost ph := by
  cases ph with
  | setup k addr buf => cases hpkt; rfl
  | status k addr buf => cases hpkt; rfl
  | transfer trb =>
    cases hpkt
    rw [bulkOp,Payload.numbered_pktType]
    cases hdir : trb.direction <;> simp [phaseOp,trbPacket,makeUsb3Ext,Payload.pktType,
      Payload.numbered,hdir]
  | _ => cases hpkt

/-- The buffer of the peer after the packet of a phase. -/
theorem loopback_settle (hpkt : ph.packet = some pkt) :
    (settle (pkt.numbered n) p).mLoopbackBuf = match ph with
      | .transfer trb => if trb.direction = .hostToDevice then trb.payload else []
      | _ => p.mLoopbackBuf := by
  cases ph with
  | setup k addr buf => cases hpkt; cases k <;> rfl
  | status k addr buf => cases hpkt; rfl
  | transfer trb =>
    cases hpkt
    cases hdir : trb.direction <;> simp [settle,trbPacket,Payload.numbered,makeUsb3Ext,hdir]
  | _ => cases hpkt

theorem loopback_empty {trb : Usb3Trb} (hdir : trb.direction ≠ .hostToDevice)
    (hreply : reply ((trbPacket trb).numbered n) p = none) : p.mLoopbackBuf = [] := by
  cases hdir' : trb.direction with
  | hostToDevice => exact absurd hdir' hdir
  | deviceToHost =>
    simp only [reply,trbPacket,Payload.numbered,makeUsb3Ext,hdir',reduceCtorEq,if_false,
      Option.map_some] at hreply
    by_contra hne
    rw [if_neg hne] at hreply
    cases hreply

theorem stores_settled {ops : Ops} {h : HostController} {inHost : Bool}
    (hpkt : ph.packet = some pkt) (hreply : reply (pkt.numbered n) p = none)
    (hops : ({} : Echo Byte).replay ops = ⟨p.mLoopbackBuf,h.mRxBuf⟩)
    (hquiet : ∀ trb, ph = .transfer trb → Quiet h) :
    ({} : Echo Byte).replay (ops ++ phaseOp inHost ph) =
      ⟨(settle (pkt.numbered n) p).mLoopbackBuf,received h ph⟩ := by
  rw [loopback_settle hpkt]
  cases ph with
  | transfer trb =>
    have hvalid : h.mRespValid = false := hquiet trb rfl
    cases hpkt
    rw [phaseOp,received,hvalid]
    by_cases hdir : trb.direction = .hostToDevice
    · simp only [if_pos hdir,Echo.replay_append,hops,Echo.step_write]
      rfl
    · have hempty := loopback_empty hdir hreply
      simp only [if_neg hdir,Echo.replay_append,hops]
      rw [Echo.step_read_nil hempty,hempty]
      rfl
  | _ =>
    show ({} : Echo Byte).replay (ops ++ []) = _
    rw [List.append_nil]
    exact hops

end Peer

section Runs
variable {g : PeerState × (SessionLog × Phase) × Ops} {c c' : DrdConf 1} {l : DrdLabel Action 1}

abbrev storeLog : BenchWatch ((SessionLog × Phase) × Ops) := phaseLog.pair bulkLog

theorem agrees_reach (hr : Reach (drdKernel 1) (drdBoot 1) (bench.pair storeLog) served g c) :
    Reach (drdKernel 1) (drdBoot 1) (bench.pair phaseLog) served (g.1,g.2.1) c :=
  hr.project (fun g : PeerState × (SessionLog × Phase) × Ops => (g.1,g.2.1)) rfl (fun _ _ _ _ => rfl) fun _ _ _ h => h

theorem stores_plain {ops : Ops} {peer : PeerState} {s : Drd} {ph : Phase} (h : ¬Fetching peer) :
    Stores ops peer s ph ↔
      ({} : Echo Byte).replay ops = ⟨peer.partner.mLoopbackBuf,received s.hostCtrl ph⟩ := by
  rw [Stores,if_neg h]

theorem not_fetching {peer : PeerState} (h : peer.service = .free) : ¬Fetching peer := by
  rw [Fetching,h]
  exact id

theorem received_none {h : HostController} {ph : Phase} (hpkt : ph.packet = none) :
    received h ph = h.mRxBuf := by
  cases ph with
  | transfer trb => cases hpkt
  | _ => rfl

def boxes (s : Drd) : List Byte × List Byte × Bool :=
  (s.hostCtrl.mRxBuf,s.hostCtrl.mRespData,s.hostCtrl.mRespValid)

theorem received_congr {s s' : Drd} (h : boxes s' = boxes s) (ph : Phase) :
    received s'.hostCtrl ph = received s.hostCtrl ph := by
  obtain ⟨hrx,hmail⟩ := Prod.mk.inj h
  obtain ⟨hdata,hvalid⟩ := Prod.mk.inj hmail
  cases ph with
  | transfer trb => simp only [received,hrx,hdata,hvalid]
  | _ => exact hrx

theorem boxes_between (hs : (drdKernel 1).step c l = some c') (hl : ∀ t, l ≠ .eval t) :
    boxes c'.state = boxes c.state := by
  refine step_keeps hs hl (fun a s _ ha => ?_) fun _ => rfl
  have hkeep := congrArg boxes (Action.apply_unwritten ha)
  exact hkeep

theorem visit_stores {ops : Ops} {p : PeerDevice} {ph : Phase} {pkt e : Payload} {n : BitVec 32}
    {next : Unit → PeerProc TlmResponse} {s : Drd} (hpkt : ph.packet = some pkt)
    (hreply : reply (pkt.numbered n) p = some e)
    (h : Stores ops ⟨p,.inside hostThread e next⟩ s ph) :
    Stores ops ⟨settle (pkt.numbered n) p,.answers hostThread .ok⟩ (deliver e s) ph := by
  have hslot := loopback_settle (p := p) (n := n) hpkt
  rw [stores_plain id]
  show _ = (⟨(settle (pkt.numbered n) p).mLoopbackBuf,_⟩ : Echo Byte)
  obtain ⟨k,addr,buf,rfl,-,hty,-,hne⟩ | ⟨trb,rfl,hdir,hty,hdata,hne⟩ := reply_phase hpkt hreply
  · have hnot : ¬Fetching (⟨p,.inside hostThread e next⟩ : PeerState) := by
      show ¬e.pktType = some .bulkIn
      rw [hty]
      simp
    rw [stores_plain hnot] at h
    rw [h,hslot,deliver_hostCtrl (.inl hty) hne]
    show (⟨p.mLoopbackBuf,s.hostCtrl.mRxBuf⟩ : Echo Byte) = ⟨p.mLoopbackBuf,HostController.mRxBuf _⟩
    split <;> rfl
  · rw [Stores,if_pos (show Fetching (⟨p,.inside hostThread e next⟩ : PeerState) from hty)] at h
    obtain ⟨hquiet,hops⟩ := h
    rw [hdata] at hne
    rw [hops,hslot,Echo.step_read hne,deliver_hostCtrl (.inr hty) (by rw [hdata]; exact hne)]
    by_cases hhost : s.sigRole.cur = .host
    · simp [hhost,received,hdir,hdata]
    · have hvalid : s.hostCtrl.mRespValid = false := hquiet
      simp [hhost,received,hdir,hvalid]

theorem reach_stores (hr : Reach (drdKernel 1) (drdBoot 1) (bench.pair storeLog) served g c) :
    Stores g.2.2 g.1 c.state g.2.1.2 := by
  induction hr with
  | boot => exact (stores_plain (not_fetching rfl)).mpr rfl
  | @step g c l c' hr hok hs ih =>
    have hsound := sound_reach hr
    have hagrees := reach_agrees (agrees_reach hr)
    have hph := hostAt_reach (agrees_reach hr)
    have hbeat := hsound.beat ⟨hr,hok,hs⟩
    show Stores (bulkLog.next g.2.2 c l c') (bench.next g.1 c l c') c'.state
      ((phases Action 1).next g.2.1.2 c l c')
    have hturn : l = .eval hostThread → g.1.service = .free → ∃ ph',
        (phases Action 1).next g.2.1.2 c l c' = ph' ∧ ph'.Stands (c'.loc hostThread) ∧
        bulkLog.next g.2.2 c l c' =
          g.2.2 ++ bulkOp (decide (c'.state.sigRole.cur = .host)) (c'.loc hostThread) ∧
        ({} : Echo Byte).replay g.2.2 = ⟨g.1.partner.mLoopbackBuf,c'.state.hostCtrl.mRxBuf⟩ ∧
        ∀ trb, ph' = .transfer trb → Quiet c'.state.hostCtrl := by
      rintro rfl hfree
      obtain ⟨o,hloc,-,-,hstate⟩ := taken_turn rfl ⟨hph,trivial,hs⟩
      have hnext : (phases Action 1).next g.2.1.2 c (.eval hostThread) c' =
          (turn g.2.1.2 o c.state).phase := by simp [phases,hloc]
      refine ⟨_,rfl,reach_stands rfl (hph.step trivial hs),by simp [bulkLog],?_,fun trb htrb => ?_⟩
      · rw [(stores_plain (not_fetching hfree)).mp ih,hstate,turn_rx hagrees]
      · rw [hstate]
        exact turn_quiet hagrees (hnext.symm.trans htrb)
    generalize bench.next g.1 c l c' = g' at hbeat
    cases hbeat with
    | silent hfree hnone =>
      obtain ⟨ph',hnext,hst,hlog,hops,-⟩ := hturn rfl hfree
      have hquiet : bulkOp (decide (c'.state.sigRole.cur = .host)) (c'.loc hostThread) = [] := by
        cases hloc : c'.loc hostThread with
        | calling q => exact absurd hloc (hnone q)
        | _ => rfl
      have hpkt : ph'.packet = none := by
        cases hloc : c'.loc hostThread with
        | calling q => exact absurd hloc (hnone q)
        | ready o => exact absurd hloc (eval_not_ready hs o)
        | idle => rw [hloc] at hst; exact hst.elim
        | waiting w' => rw [hloc] at hst; exact Phase.packet_none hst
      rw [hnext,hlog,hquiet,List.append_nil,stores_plain (not_fetching hfree),received_none hpkt]
      exact hops
    | speaks q hfree hq hreply =>
      obtain ⟨ph',hnext,hst,hlog,hops,hquiet⟩ := hturn rfl hfree
      rw [hq] at hst
      obtain ⟨pkt,n,hpkt,rfl⟩ := hst
      rw [hnext,hlog,hq,bulkOp_phase hpkt,stores_plain id]
      exact stores_settled hpkt hreply hops hquiet
    | asks q e next hfree hq hreply hnext' =>
      obtain ⟨ph',hnext,hst,hlog,hops,hquiet⟩ := hturn rfl hfree
      rw [hq] at hst
      obtain ⟨pkt,n,hpkt,rfl⟩ := hst
      rw [hnext,hlog,hq,bulkOp_phase hpkt]
      obtain ⟨k,addr,buf,rfl,-,hty,-⟩ | ⟨trb,rfl,hdir,hty,-⟩ := reply_phase hpkt hreply
      · have hnot : ¬Fetching (⟨g.1.partner,.sends hostThread e next⟩ : PeerState) := by
          show ¬e.pktType = some .bulkIn
          rw [hty]
          simp
        rw [stores_plain hnot,phaseOp,List.append_nil]
        · exact hops
        · simp
      · rw [Stores,if_pos (show Fetching (⟨g.1.partner,.sends hostThread e next⟩ : PeerState) from hty),
          phaseOp,if_neg (by simp [hdir]),Echo.replay_append,hops]
        exact ⟨hquiet trb rfl,rfl⟩
    | visit q e next hservice hq hreply hidle hstate =>
      have hst := reach_stands rfl hph
      rw [hq] at hst
      obtain ⟨pkt,n,hpkt,rfl⟩ := hst
      have hlog : bulkLog.next g.2.2 c (.eval callThread) c' = g.2.2 := by simp [bulkLog]
      rw [hlog,phases_still _ (by simp),hstate]
      have hstores : Stores g.2.2 ⟨g.1.partner,.inside hostThread e next⟩ c.state g.2.1.2 := by
        rw [← hservice]
        exact ih
      exact visit_stores hpkt hreply hstores
    | enter e next hservice =>
      obtain ⟨_,_,_,hc⟩ := step_enter hs
      have hstate : c'.state = c.state := by rw [hc]
      rw [phases_still _ (by simp),hstate]
      have hfetch : Fetching { g.1 with service := .inside hostThread e next } ↔ Fetching g.1 := by
        simp only [Fetching,hservice]
      have hstores := ih
      rw [Stores] at hstores ⊢
      simp only [hfetch]
      exact hstores
    | answer hservice =>
      obtain ⟨_,_,_,hc⟩ := step_reply hs
      have hstate : c'.state = c.state := by rw [hc]
      have hnot : ¬Fetching g.1 := by
        rw [Fetching,hservice]
        exact id
      rw [phases_still _ (by simp),hstate,stores_plain (not_fetching rfl)]
      exact (stores_plain hnot).mp ih
    | process p hfree hp =>
      have hkeep : boxes c'.state = boxes c.state := by
        have hkeep := congrArg boxes (taken_unwritten ⟨hr,hok,hs⟩)
        cases p with
        | hostMainProcess => exact absurd rfl hp
        | _ => exact hkeep
      have hlog : bulkLog.next g.2.2 c (.eval (.inl p)) c' = g.2.2 := if_neg (by simpa using hp)
      rw [hlog,phases_still _ (by simpa using hp),stores_plain (not_fetching hfree),
        received_congr hkeep]
      exact (stores_plain (not_fetching hfree)).mp ih
    | other _ hfree heval hreply =>
      have hlog : bulkLog.next g.2.2 c l c' = g.2.2 := by
        cases l with
        | eval t => exact absurd rfl (heval t)
        | _ => rfl
      rw [hlog,phases_still _ (heval _),stores_plain (not_fetching hfree),
        received_congr (boxes_between hs heval)]
      exact (stores_plain (not_fetching hfree)).mp ih

/-- When the host waits, its receive buffer holds the last payload that it wrote to the peer and
read back with nothing between, and the peer keeps the payload of the last transfer if that went
out. An IN transfer outside the host role loses the data that the peer sends for it. -/
theorem receive_buffer_echoes (g : PeerState × Ops) (c : DrdConf 1)
    (hr : Reach (drdKernel 1) (drdBoot 1) (bench.pair bulkLog) served g c) (w : WaitPoint)
    (hw : c.loc hostThread = .waiting w) :
    c.state.hostCtrl.mRxBuf = (Echo.echoes g.2).getLastD [] ∧
    g.1.partner.mLoopbackBuf = Echo.kept g.2 := by
  obtain ⟨⟨peer,x,ops⟩,rfl,hg⟩ := hr.lift (w := bench.pair storeLog)
    (fun g : PeerState × (SessionLog × Phase) × Ops => (g.1,g.2.2)) rfl fun _ _ _ _ => rfl
  have hst := reach_stands rfl (hostAt_reach (agrees_reach hg))
  rw [hw] at hst
  have hfree : ¬Fetching peer := by
    have howes := (sound_reach hg).owes
    have hcall : ∀ q, c.loc hostThread ≠ .calling q := by simp [hw]
    obtain ⟨p,service⟩ := peer
    cases service with
    | sends t e next =>
      obtain ⟨-,q,hq,-⟩ := howes
      exact absurd hq (hcall q)
    | inside t e next =>
      obtain ⟨-,q,hq,-⟩ := howes
      exact absurd hq (hcall q)
    | _ => exact id
  have hops : ({} : Echo Byte).replay ops = ⟨peer.partner.mLoopbackBuf,c.state.hostCtrl.mRxBuf⟩ := by
    rw [← received_none (Phase.packet_none hst)]
    exact (stores_plain hfree).mp (reach_stores hg)
  constructor
  · have hgot := Echo.got_replay ops {}
    rw [hops,Echo.echoes_write [] ops (by simp)] at hgot
    exact hgot
  · have hslot := Echo.slot_replay ops
    rw [hops] at hslot
    exact hslot

def echoRun (block : List Byte) : List (DrdLabel Action 1) :=
  [.delta,.eval collectorThread,.advance (10*ns),.eval hostThread,.delta,.eval collectorThread,
    .act (.bulkOut 1 2 block),.delta,.eval hostThread,.reply hostThread .ok,.eval hostThread,
    .delta,.eval collectorThread,.advance ns,.eval hostThread,.delta,.eval collectorThread,
    .act (.bulkIn 1 1 2),.delta,.eval hostThread,.enter callThread (bulkInPacket 1 1 block),
    .eval callThread,.reply hostThread .ok,.eval hostThread]

theorem receive_buffer_echoes_block : ∃ g c,
    Reach (drdKernel 1) (drdBoot 1) (bench.pair bulkLog) served g c ∧
    g.2 = [.write [3,4],.read true] ∧ c.state.hostCtrl.mRxBuf = [3,4] := by
  obtain ⟨g,c,hr,hw,hops⟩ := exists_reach (drdKernel 1) (drdBoot 1) (bench.pair bulkLog) served
    (fun g c => c.loc hostThread = .waiting .xferPulse ∧ g.2 = [.write [3,4],.read true])
    (attachRun .ufpAttached ++ PeerSession.enumerateRun ++ echoRun [3,4]) (by decide +kernel)
  obtain ⟨hrx,-⟩ := receive_buffer_echoes g c hr .xferPulse hw
  rw [hops] at hrx
  exact ⟨g,c,hr,hops,hrx⟩

end Runs

end PeerStore
end Usb3Drd
