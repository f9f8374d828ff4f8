import Usb3Drd.DisabledLink
import Usb3Drd.HostMeter
import Usb3Drd.TransferRing

/-! How much an IN transfer brings. The length that was asked for sizes the packet of the
request; what comes back is a packet of its own, copied as it is. -/
namespace Usb3Drd
namespace ReceiveBuffer

open Coop Proc HostController ProtocolLayer TransferRing Inbound HostMeter

variable {n : ℕ}

inductive BulkCall
  | bulkOut (devAddr ep : BitVec 8) (data : List Byte)
  | bulkIn (devAddr ep : BitVec 8) (len : BitVec 64)
  deriving DecidableEq

def callOf : Action → Option BulkCall
  | .bulkOut devAddr ep data => some (.bulkOut devAddr ep data)
  | .bulkIn devAddr ep len => some (.bulkIn devAddr ep len)
  | _ => none

def BulkCall.transfer : BulkCall → Transfer
  | .bulkOut devAddr ep data => ⟨.bulkOut,devAddr,ep,.hostToDevice,data⟩
  | .bulkIn devAddr ep len =>
    ⟨.bulkIn,devAddr,ep,.deviceToHost,.replicate (len.setWidth 32).toNat 0⟩

/-- The packet of each open call, the calls of the bulk interface and the transfers sent for
them, and the data of the last packet with any that came in for the host. -/
structure ReceiveLog (n : ℕ) where
  arrived : Tid n → Option Payload := fun _ => none
  asked : List BulkCall := []
  sent : List Transfer := []
  delivered : List Byte := []

namespace ReceiveLog

/-- The call whose transfer was sent last. -/
def running (g : ReceiveLog n) : Option BulkCall := g.asked[g.sent.length-1]?

def traffic (g : ReceiveLog n) : Traffic := ⟨g.asked.map BulkCall.transfer,g.sent⟩

/-- The packet is passed on to the host, with data. -/
def brings (s : Drd) (p : Payload) : Bool :=
  decide (isForwarded p = true ∧ s.sigRole.cur = .host ∧ p.data ≠ [])

def noteDelivered (g : ReceiveLog n) (c : DrdConf n) : Tid n → ReceiveLog n
  | .inl _ => g
  | .inr i =>
    match g.arrived (.inr i) with
    | some p =>
      if c.loc (.inr i) = .ready .start ∧ brings c.state p = true then
        { g with delivered := p.data }
      else g
    | none => g

end ReceiveLog

def receiveLog (n : ℕ) :
    Watch (ReceiveLog n) Drd WaitPoint Payload TlmResponse Loop Action Payload (Tid n) where
  init := {}
  next g c l c' :=
    match l with
    | .enter t p => { g with arrived := Function.update g.arrived t (some p) }
    | .act a => { g with asked := g.asked ++ (callOf a).toList }
    | .eval t =>
      if t = hostThread then { g with sent := (g.traffic.noteSent (c'.loc t)).sent }
      else g.noteDelivered c t
    | _ => g

section Requests

theorem noteDelivered_keeps (g : ReceiveLog n) (c : DrdConf n) (t : Tid n) :
    ∃ data, g.noteDelivered c t = { g with delivered := data } := by
  unfold ReceiveLog.noteDelivered
  split
  · exact ⟨g.delivered,rfl⟩
  · split
    · rename_i p _
      split
      · exact ⟨p.data,rfl⟩
      · exact ⟨g.delivered,rfl⟩
    · exact ⟨g.delivered,rfl⟩

theorem requestOf_eq (a : Action) : requestOf a = (callOf a).map BulkCall.transfer := by
  cases a <;> rfl

theorem exists_transferOf {q : Payload} (hq : isBulk q) : ∃ t, transferOf q = some t := by
  cases hext : q.ext with
  | none => simp [isBulk,Payload.pktType,hext] at hq
  | some ext => exact ⟨_,by rw [transferOf,if_pos hq,hext]; rfl⟩

/-- What is recorded here refines what the ring is about. -/
theorem traffic_next (g : ReceiveLog n) (c : DrdConf n) (l : DrdLabel Action n) (c' : DrdConf n) :
    ((receiveLog n).next g c l c').traffic = TransferRing.traffic.next g.traffic c l c' := by
  cases l with
  | act a =>
    simp only [receiveLog,TransferRing.traffic,ReceiveLog.traffic,requestOf_eq,List.map_append]
    cases callOf a <;> rfl
  | eval t =>
    by_cases ht : t = hostThread
    · simp only [receiveLog,TransferRing.traffic,if_pos ht]
      cases c'.loc t <;> rfl
    · obtain ⟨data,hdata⟩ := noteDelivered_keeps g c t
      simp only [receiveLog,TransferRing.traffic,if_neg ht,hdata]
      rfl
  | _ => rfl

theorem traffic_reach {g : ReceiveLog n} {c : DrdConf n}
    (hr : Reach (drdKernel n) (drdBoot n) (receiveLog n) (fun _ _ _ => True) g c) :
    Reach (drdKernel n) (drdBoot n) TransferRing.traffic (fun _ _ _ => True) g.traffic c :=
  hr.image ReceiveLog.traffic rfl traffic_next

end Requests

def received (o : Origin WaitPoint Payload TlmResponse) (s s' : Drd) : Prop :=
  ∀ q r, o = .returned q r → isBulk q → s'.hostCtrl.mRxBuf =
    if q.pktType = some .bulkIn ∧ s.hostCtrl.mRespValid = true then s.hostCtrl.mRespData
    else s.hostCtrl.mRxBuf

def receivedHead (l : Loop) (x : Trail Unit Drd WaitPoint Payload TlmResponse) : Prop :=
  Process.hostMainProcess.runs l ∧ received x.origin x.start x.state

abbrev receiveSpec : Spec Unit Drd WaitPoint Payload TlmResponse Loop :=
  .evals (fun o s _ s' => received o s s') receivedHead

section Host
variable {x : Trail Unit Drd WaitPoint Payload TlmResponse}

theorem received_woke (w : WaitPoint) (s s' : Drd) : received (.woke w) s s' := by
  rintro q r ⟨⟩

theorem receiveSpec_indifferent :
    Indifferent receiveSpec fun x => received x.origin x.start x.state where
  edit x s h hs := by
    intro q r ho hq
    have hrx := congrArg (·.hostCtrl.mRxBuf) hs
    exact hrx.trans (h q r ho hq)
  call x q h hq := by
    refine ⟨⟨h,trivial⟩,fun r g s _ => ?_⟩
    rintro q' r' ⟨⟩ hbulk
    exact absurd hbulk hq
  wait x w h _ := ⟨⟨h,trivial⟩,fun g s _ => received_woke w s s⟩

theorem receive_mRxBuf (trb : Usb3Trb) (k : BitVec 32) (s : Drd) :
    (receive trb s).hostCtrl.mRxBuf =
      if ((trbPacket trb).numbered k).pktType = some .bulkIn ∧ s.hostCtrl.mRespValid = true then
        s.hostCtrl.mRespData
      else s.hostCtrl.mRxBuf := by
  rw [Payload.numbered_pktType]
  cases hdir : trb.direction with
  | hostToDevice => simp [receive,trbPacket,Payload.pktType,makeUsb3Ext,hdir]
  | deviceToHost =>
    cases hvalid : s.hostCtrl.mRespValid with
    | false => simp [receive,hvalid]
    | true => simp [receive,trbPacket,Payload.pktType,makeUsb3Ext,hdir,hvalid]

theorem runTrb_receives {trb : Usb3Trb} (h : received x.origin x.start x.state) :
    (runTrb trb).wp receiveSpec.setting (fun _ => receivedHead .transferRing) x := by
  refine runTrb_wp _ x fun k layer => ⟨⟨h,trivial⟩,fun r g s _ => ?_⟩
  have hreceived : received (.returned ((trbPacket trb).numbered k) r) s (receive trb s) := by
    rintro q r' ⟨⟩ _
    exact receive_mRxBuf trb k s
  dsimp only
  split
  · exact ⟨⟨hreceived,trivial⟩,fun g s _ => ⟨.inr rfl,received_woke _ _ _⟩⟩
  · exact ⟨.inr rfl,hreceived⟩

theorem receiveSpec_loops : receiveSpec.Loops loopCode := by
  rintro l x ⟨hl,h⟩
  obtain rfl | rfl := hl
  · refine hostMainLoop_wp _ x (fun _ => ⟨⟨h,trivial⟩,fun g s _ => ?_⟩) fun _ => ?_
    · exact enumerateDevice_indifferent receiveSpec_indifferent (received_woke _ _ _)
        fun y hy => ⟨.inr rfl,hy⟩
    · exact enumerateDevice_indifferent receiveSpec_indifferent h fun y hy => ⟨.inr rfl,hy⟩
  · refine processTransferRing_wp _ x (fun _ => ⟨.inl rfl,h⟩) (fun _ _ => ?_) fun trb rest _ _ => ?_
    · exact ⟨⟨h,trivial⟩,fun g s _ => ⟨.inr rfl,received_woke _ _ _⟩⟩
    · exact runTrb_receives h

theorem receiveSpec_meets : Meets (drdKernel n) (drdBoot n) noWatch (fun _ _ _ => True) hostThread
    receiveSpec := by
  refine .plain receiveSpec_loops (fun e p hp => by cases hp) bootWith_wellTimed ?_
    (fun _ _ _ _ _ _ => trivial) (fun _ _ _ _ _ _ => rfl)
  refine ⟨trivial,fun g s _ _ => ⟨.inl rfl,?_⟩⟩
  rintro q r ⟨⟩

theorem mail_obeys {own : Loop → Prop} : Obeys mail Drains (fun m _ m' => Drains m m') own where
  send _ hp x hx := routeTx_wp _ hp x fun _ _ => metered_call hx
  edit _ _ _ hmail := hmail

theorem mail_meets : Meets (drdKernel n) (drdBoot n) noWatch (fun _ _ _ => True) hostThread
    (Spec.meter mail Drains (fun m _ m' => Drains m m') Process.hostMainProcess.runs) :=
  meter_meets (fun l body hl hbody => hostCode_metered mail_obeys l body hl hbody)
    (fun e p hp => by cases hp) (hostMainProcess_metered mail_obeys) bootWith_wellTimed

end Host

section Runs
variable {g : ReceiveLog n} {c c' : DrdConf n} {l : DrdLabel Action n}

theorem mail_eval (ht : Taken (drdKernel n) (drdBoot n) (receiveLog n) (fun _ _ _ => True) g c
    (.eval hostThread) c') : Drains (mail c.state) (mail c'.state) := by
  obtain ⟨o,-,-,hguar⟩ := mail_meets.guar ht.forget
  cases hloc : c'.loc hostThread <;> rw [hloc] at hguar <;> exact hguar

theorem receiveLog_records : Records (receiveLog n) ReceiveLog.arrived :=
  .of_update (fun _ _ _ _ _ => rfl) fun g c l c' hl => by
    cases l with
    | enter t e => exact absurd rfl (hl t e)
    | eval t =>
      obtain ⟨data,hdata⟩ := noteDelivered_keeps g c t
      simp only [receiveLog,hdata]
      split <;> rfl
    | _ => rfl

theorem call_server (i : Fin n) : Server (drdKernel n) (drdBoot n) (receiveLog n)
    ReceiveLog.arrived (.inr i) callGuar callHead :=
  inbound_server receiveLog_records i

/-- A full mailbox holds the data of the last packet with any. -/
def Latest (g : ReceiveLog n) (s : Drd) : Prop :=
  s.hostCtrl.mRespValid = true → s.hostCtrl.mRespData = g.delivered

theorem Latest.drains {s s' : Drd} (h : Latest g s) (hmail : Drains (mail s) (mail s')) :
    Latest g s' := by
  intro hvalid
  rcases hmail with hsame | hempty
  · obtain ⟨hdata,hfull⟩ := Prod.mk.inj hsame
    exact hdata.trans (h (hfull.symm.trans hvalid))
  · exact absurd (hempty.symm.trans hvalid) (by simp)

theorem Latest.same {s s' : Drd} (h : Latest g s) (hmail : mail s' = mail s) : Latest g s' :=
  h.drains (.inl hmail)

theorem latest_pass {p : Payload} {s : Drd} (h : Latest g s) :
    Latest (if ReceiveLog.brings s p = true then { g with delivered := p.data } else g)
      (passBy p s) := by
  by_cases hhost : isForwarded p = true ∧ s.sigRole.cur = .host
  · by_cases hdata : p.data = []
    · rw [if_neg (by simp [ReceiveLog.brings,hdata]),passBy,if_pos hhost,storeResponse,if_pos hdata]
      exact h
    · rw [if_pos (by simp [ReceiveLog.brings,hhost.1,hhost.2,hdata]),passBy,if_pos hhost,
        storeResponse,if_neg hdata]
      exact fun _ => rfl
  · have hno : ¬ReceiveLog.brings s p = true :=
      fun hb => hhost ⟨(of_decide_eq_true hb).1,(of_decide_eq_true hb).2.1⟩
    rw [if_neg hno,passBy,if_neg hhost]
    exact h

theorem latest_call {i : Fin n} (ht : Taken (drdKernel n) (drdBoot n) (receiveLog n)
    (fun _ _ _ => True) g c (.eval (.inr i)) c') (h : Latest g c.state) :
    Latest (g.noteDelivered c (.inr i)) c'.state := by
  obtain ⟨p,o,hp,hloc,hguar⟩ := (call_server i).eval ht
  have hlater : o ≠ .start → c'.state = c.state →
      Latest (g.noteDelivered c (.inr i)) c'.state := by
    intro ho hs
    have hnote : g.noteDelivered c (.inr i) = g := by
      simp [ReceiveLog.noteDelivered,hp,hloc,ho]
    rw [hnote,hs]
    exact h
  cases o with
  | start =>
    have hnote : g.noteDelivered c (.inr i) =
        if ReceiveLog.brings c.state p = true then { g with delivered := p.data } else g := by
      simp [ReceiveLog.noteDelivered,hp,hloc]
    rw [hnote]
    by_cases hh : Handled p c.state
    · rw [callGuar,if_pos hh] at hguar
      obtain ⟨⟨layer,hs⟩,-⟩ := hguar
      have hno : ¬ReceiveLog.brings c.state p = true := by
        intro hb
        exact absurd (hh.2.1.symm.trans (of_decide_eq_true hb).2.1) (by simp)
      rw [if_neg hno]
      refine h.same ?_
      have hctrl := absorb_hostCtrl p c.state
      rw [hs,mail,mail]
      exact congrArg (fun k : HostController => (k.mRespData,k.mRespValid)) hctrl
    · rw [callGuar,if_neg hh] at hguar
      rw [hguar.1]
      exact latest_pass h
  | woke w => exact hlater (by simp) hguar.1
  | returned q r => exact hlater (by simp) hguar.1

theorem mail_peer {p : Process} (hp : p ≠ .hostMainProcess) (ht : Taken (drdKernel n) (drdBoot n)
    (receiveLog n) (fun _ _ _ => True) g c (.eval (.inl p)) c') : mail c'.state = mail c.state := by
  have hmail := congrArg mail (taken_unwritten ht)
  cases p with
  | hostMainProcess => exact absurd rfl hp
  | _ => exact hmail

theorem mail_between (hs : (drdKernel n).step c l = some c') (hl : ∀ t, l ≠ .eval t) :
    mail c'.state = mail c.state := by
  refine step_keeps hs hl (fun a s _ ha => ?_) fun _ => rfl
  have hkeep := congrArg mail (Action.apply_unwritten ha)
  exact hkeep

theorem reach_latest (hr : Reach (drdKernel n) (drdBoot n) (receiveLog n) (fun _ _ _ => True) g c) :
    Latest g c.state := by
  induction hr with
  | boot =>
    intro hvalid
    cases hvalid
  | @step g c l c' hr hok hs ih =>
    have ht : Taken (drdKernel n) (drdBoot n) (receiveLog n) (fun _ _ _ => True) g c l c' :=
      ⟨hr,hok,hs⟩
    cases l with
    | eval t =>
      show Latest (if t = hostThread then _ else g.noteDelivered c t) c'.state
      by_cases hhost : t = hostThread
      · subst hhost
        rw [if_pos rfl]
        exact ih.drains (mail_eval ht)
      · rw [if_neg hhost]
        rcases t with p | i
        · exact ih.same (mail_peer (fun hp => hhost (by rw [hp])) ht)
        · exact latest_call ht ih
    | _ => exact ih.same (mail_between hs (by simp))

/-- The bulk packet on its way is the transfer sent last. -/
def InFlight (g : ReceiveLog n) (c : DrdConf n) : Prop :=
  ∀ q, (c.loc hostThread).outstanding = some q → isBulk q → g.sent.getLast? = transferOf q

theorem reach_inFlight
    (hr : Reach (drdKernel n) (drdBoot n) (receiveLog n) (fun _ _ _ => True) g c) :
    InFlight g c := by
  induction hr with
  | boot =>
    intro q hq
    cases hq
  | @step g c l c' hr hok hs ih =>
    by_cases hl : l = .eval hostThread
    · subst hl
      intro q hq hbulk
      show (g.traffic.noteSent (c'.loc hostThread)).sent.getLast? = transferOf q
      obtain ⟨_,_,_,stop,-,-,rfl⟩ := step_eval hs
      simp only [Conf.loc,Function.update_self] at hq ⊢
      cases stop with
      | ret l => cases hq
      | wait w next => cases hq
      | call q' next =>
        cases hq
        obtain ⟨t,ht⟩ := exists_transferOf hbulk
        simp [Kernel.park,Thread.loc,Traffic.noteSent,ht]
    · have hsent : ((receiveLog n).next g c l c').sent = g.sent := by
        cases l with
        | eval t =>
          have ht : t ≠ hostThread := fun ht => hl (by rw [ht])
          obtain ⟨data,hdata⟩ := noteDelivered_keeps g c t
          simp only [receiveLog,if_neg ht,hdata]
        | _ => rfl
      rw [InFlight,hsent,step_outstanding hs hl]
      exact ih

/-- The transfers sent are those asked for, as far as they go. -/
theorem sent_prefix (hr : Reach (drdKernel n) (drdBoot n) (receiveLog n) (fun _ _ _ => True) g c) :
    g.sent <+: g.asked.map BulkCall.transfer :=
  (sent_prefix_requested g.traffic c (traffic_reach hr)).1

theorem transferOf_running
    (hr : Reach (drdKernel n) (drdBoot n) (receiveLog n) (fun _ _ _ => True) g c) {q : Payload}
    (hq : (c.loc hostThread).outstanding = some q) (hbulk : isBulk q) {call : BulkCall}
    (hcall : g.running = some call) : transferOf q = some call.transfer := by
  obtain ⟨t,ht⟩ := exists_transferOf hbulk
  have hlast := (reach_inFlight hr q hq hbulk).trans ht
  rw [List.getLast?_eq_getElem?] at hlast
  obtain ⟨rest,hrest⟩ := sent_prefix hr
  have hasked : (g.asked.map BulkCall.transfer)[g.sent.length-1]? = some t := by
    rw [← hrest,List.getElem?_append_left (List.getElem?_eq_some_iff.mp hlast).1]
    exact hlast
  rw [List.getElem?_map,← ReceiveLog.running,hcall] at hasked
  rw [ht,← hasked]
  rfl

end Runs

/-- In every run, whatever the peer sends and whatever was transferred before: when the request
of a `bulk_in` comes back and updates the receive buffer, that holds no more than was asked for
exactly if the last packet with data that came in for the host carried no more. -/
theorem rxBuf_le_iff (n : ℕ) (g : ReceiveLog n) (c c' : DrdConf n) (q : Payload) (r : TlmResponse)
    (devAddr ep : BitVec 8) (len : BitVec 64)
    (ht : Taken (drdKernel n) (drdBoot n) (receiveLog n) (fun _ _ _ => True) g c
      (.eval hostThread) c') (hback : c.loc hostThread = .ready (.returned q r)) (hbulk : isBulk q)
    (hcall : g.running = some (.bulkIn devAddr ep len))
    (hupdate : c.state.hostCtrl.mRespValid = true) :
    c'.state.hostCtrl.mRxBuf.length ≤ len.toNat ↔ g.delivered.length ≤ len.toNat := by
  have htransfer := transferOf_running ht.reach (by rw [hback]; rfl) hbulk hcall
  have htype : q.pktType = some .bulkIn := by
    rw [transferOf,if_pos hbulk] at htransfer
    obtain ⟨ext,hext,heq⟩ := Option.map_eq_some_iff.mp htransfer
    rw [Payload.pktType,hext]
    exact congrArg (some ·.pktType) heq
  obtain ⟨o,hloc,-,hguar⟩ := receiveSpec_meets.guar ht.forget
  rw [hback] at hloc
  cases hloc
  have hrx : c'.state.hostCtrl.mRxBuf = c.state.hostCtrl.mRespData :=
    (hguar q r rfl hbulk).trans (if_pos ⟨htype,hupdate⟩)
  rw [hrx,reach_latest ht.reach hupdate]

/-- The host is enabled, its enumeration refused, and a `bulk_in` is answered with one packet. -/
def receiveRun (len : BitVec 64) (data : List Byte) : List (DrdLabel Action 1) :=
  attachRun .ufpAttached ++ controlRun .genericError ++
    [.act (.bulkIn 1 1 len),.eval hostThread,
    .enter DeviceLog.callThread { data, ext := some { pktType := .bulkIn, endpoint := 1 } },
    .eval DeviceLog.callThread,.reply hostThread .ok]

def oneByte : Payload :=
  { command := .read, data := [0]
    ext := some { pktType := .bulkIn, devAddr := 1, endpoint := 1, direction := .deviceToHost
                  epType := .bulk, seqNum := 1 } }

def ComesBack (data : List Byte) (g : ReceiveLog 1) (c : DrdConf 1) : Prop :=
  c.loc hostThread = .ready (.returned oneByte .ok) ∧ g.running = some (.bulkIn 1 1 1) ∧
    c.state.hostCtrl.mRespValid = true ∧ g.delivered = data

instance (data : List Byte) (g : ReceiveLog 1) (c : DrdConf 1) : Decidable (ComesBack data g c) :=
  inferInstanceAs (Decidable (_ ∧ _))

theorem rxBuf_le_one : ∃ g c c', Taken (drdKernel 1) (drdBoot 1) (receiveLog 1)
    (fun _ _ _ => True) g c (.eval hostThread) c' ∧ ComesBack [7] g c ∧
      c'.state.hostCtrl.mRxBuf.length ≤ 1 := by
  obtain ⟨g,c,c',ht,hloc,hcall,hupdate,hdata⟩ := exists_taken (drdKernel 1) (drdBoot 1)
    (receiveLog 1) (fun _ _ _ => True) (.eval hostThread) (fun g c _ => ComesBack [7] g c)
    (receiveRun 1 [7]) (by decide +kernel)
  refine ⟨g,c,c',ht,⟨hloc,hcall,hupdate,hdata⟩,?_⟩
  refine (rxBuf_le_iff 1 g c c' oneByte .ok 1 1 1 ht hloc (by decide) hcall hupdate).mpr ?_
  rw [hdata]
  decide

/-- Two bytes answer a request for one, and both end in the receive buffer. -/
theorem not_rxBuf_le_two : ¬∀ g c c' q r devAddr ep len,
    Taken (drdKernel 1) (drdBoot 1) (receiveLog 1) (fun _ _ _ => True) g c
      (.eval hostThread) c' → c.loc hostThread = .ready (.returned q r) → isBulk q →
    g.running = some (.bulkIn devAddr ep len) → c.state.hostCtrl.mRespValid = true →
      c'.state.hostCtrl.mRxBuf.length ≤ len.toNat := by
  intro h
  obtain ⟨g,c,c',ht,⟨hloc,hcall,hupdate,-⟩,hlong⟩ := exists_taken (drdKernel 1) (drdBoot 1)
    (receiveLog 1) (fun _ _ _ => True) (.eval hostThread)
    (fun g c c' => ComesBack [7,8] g c ∧ c'.state.hostCtrl.mRxBuf.length = 2) (receiveRun 1 [7,8])
    (by decide +kernel)
  have hshort := h g c c' oneByte .ok 1 1 1 ht hloc (by decide) hcall hupdate
  rw [hlong] at hshort
  exact absurd hshort (by decide)

end ReceiveBuffer
end Usb3Drd
