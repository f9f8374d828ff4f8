import Usb3Drd.Transmit

/-! The transfer ring, whoever runs when: what the host thread sends is what was asked for,
in that order, and it does not sleep on a request. -/
namespace Usb3Drd
namespace TransferRing

open Coop HostController

variable {n : ℕ}

/-- A bulk transfer as a packet carries it: for IN, the room that was asked for. -/
structure Transfer where
  pktType : Usb3PktType
  devAddr : BitVec 8
  endpoint : BitVec 8
  direction : Usb3Dir
  data : List Byte
  deriving DecidableEq

/-- What the caller of the bulk interface asks for; the length is a 32-bit field. -/
def requestOf : Action → Option Transfer
  | .bulkOut a ep data => some ⟨.bulkOut,a,ep,.hostToDevice,data⟩
  | .bulkIn a ep len => some ⟨.bulkIn,a,ep,.deviceToHost,.replicate (len.setWidth 32).toNat 0⟩
  | _ => none

def transferOf (q : Payload) : Option Transfer :=
  if isBulk q then
    q.ext.map fun ext => ⟨ext.pktType,ext.devAddr,ext.endpoint,ext.direction,q.data⟩
  else none

/-- What was asked for, and what went out, in order. -/
structure Traffic where
  requested : List Transfer := []
  sent : List Transfer := []

def Traffic.noteSent (g : Traffic) : Loc WaitPoint Payload TlmResponse → Traffic
  | .calling q => { g with sent := g.sent ++ (transferOf q).toList }
  | _ => g

def traffic : Watch Traffic Drd WaitPoint Payload TlmResponse Loop Action Payload (Tid n) where
  init := {}
  next g _ l c' := match l with
    | .eval t => if t = hostThread then g.noteSent (c'.loc t) else g
    | .act a => { g with requested := g.requested ++ (requestOf a).toList }
    | _ => g

def queued (trb : Usb3Trb) : Transfer where
  pktType := if trb.direction = .hostToDevice then .bulkOut else .bulkIn
  devAddr := trb.devAddr
  endpoint := trb.endpoint
  direction := trb.direction
  data := if trb.direction = .hostToDevice then trb.payload else .replicate trb.trbLength.toNat 0

def InOrder (g : Traffic) (s : Drd) : Prop :=
  g.requested = g.sent ++ s.hostCtrl.mTransferRing.map queued

/-- There is nothing to do, or the thread that waits for it is about to wake. -/
def Attended (s : Drd) : Prop :=
  s.hostCtrl.mTransferRing = [] ∨ s.hostCtrl.mTrbCompleteEvent = true

structure RingAt (g : Traffic) (s : Drd) (l : Loc WaitPoint Payload TlmResponse) : Prop where
  order : InOrder g s
  attended : l = .waiting .trbComplete → Attended s
  asserted : l ≠ .waiting .assertion

def ringSpec : Spec Traffic Drd WaitPoint Payload TlmResponse Loop where
  held l g s := RingAt g s l
  pre _ g s := InOrder g s
  rely _ _ _ _ := True
  guar _ _ _ _ _ := True
  leave g _ _ l _ := g.noteSent l
  head l x := (l = .hostMain ∨ l = .transferRing) ∧ InOrder x.hist x.state

section Requests
variable {a : Action} {s s' : Drd} {g : Traffic}

theorem transferOf_trbPacket (trb : Usb3Trb) (k : BitVec 32) :
    transferOf ((trbPacket trb).numbered k) = some (queued trb) := by
  rw [transferOf,if_pos (isBulk_trbPacket trb k)]
  rfl

theorem noteSent_calling {q : Payload} (hq : ¬isBulk q) : g.noteSent (.calling q) = g := by
  rw [Traffic.noteSent,transferOf,if_neg hq]
  simp

theorem enqueueBulkTrb_ring {devAddr ep : BitVec 8} {direction : Usb3Dir} {len : BitVec 64}
    {payload : List Byte} (h : enqueueBulkTrb devAddr ep direction len payload s = some s') :
    s'.hostCtrl.mTrbCompleteEvent = true ∧ s'.hostCtrl.mTransferRing =
      s.hostCtrl.mTransferRing ++ [{ devAddr, endpoint := ep, direction, epType := .bulk, payload
                                     trbLength := len.setWidth 32, ioc := true }] := by
  obtain ⟨ring,hring,rfl⟩ := Option.map_eq_some_iff.mp h
  simp only [enqueue] at hring
  split at hring
  · cases hring
    exact ⟨rfl,rfl⟩
  · cases hring

theorem apply_ring (h : a.apply s = some s') :
    s'.hostCtrl.mTransferRing.map queued =
        s.hostCtrl.mTransferRing.map queued ++ (requestOf a).toList ∧
      (Attended s → Attended s') := by
  cases a with
  | bulkOut devAddr ep data =>
    obtain ⟨hevent,hring⟩ := enqueueBulkTrb_ring h
    exact ⟨by rw [hring,List.map_append]; rfl,fun _ => .inr hevent⟩
  | bulkIn devAddr ep len =>
    obtain ⟨hevent,hring⟩ := enqueueBulkTrb_ring h
    exact ⟨by rw [hring,List.map_append]; rfl,fun _ => .inr hevent⟩
  | setCcState cc => cases h; exact ⟨by simp [requestOf],id⟩
  | setVbus v => cases h; exact ⟨by simp [requestOf],id⟩
  | cfgAccess p =>
    cases h
    have hctrl : (DrdController.cfgBTransport p s).1.hostCtrl = s.hostCtrl := by
      simp only [DrdController.cfgBTransport,DrdController.writeReg,RoleManager.requestRole]
      repeat' split
      all_goals rfl
    rw [Attended,Attended,hctrl]
    exact ⟨by simp [requestOf],id⟩

theorem InOrder.congr (h : InOrder g s)
    (hring : s'.hostCtrl.mTransferRing = s.hostCtrl.mTransferRing) : InOrder g s' := by
  rw [InOrder,hring]
  exact h

end Requests

section Host
variable {x : Trail Traffic Drd WaitPoint Payload TlmResponse}

theorem stopsAt_waiting {w : WaitPoint} (h : InOrder x.hist x.state) (hwait : w ≠ .trbComplete)
    (hassert : w ≠ .assertion) : ringSpec.stopsAt (.waiting w) x :=
  ⟨trivial,h,fun hl => absurd (Loc.waiting.inj hl) hwait,fun hl => hassert (Loc.waiting.inj hl)⟩

theorem ringSpec_indifferent : Indifferent ringSpec fun x => InOrder x.hist x.state where
  edit x s h hs := h.congr (congrArg (·.hostCtrl.mTransferRing) hs)
  call x q h hq := by
    refine ⟨⟨trivial,?_,fun hl => (by cases hl),by simp⟩,fun r g s hr => hr.2⟩
    rw [show ringSpec.after (.calling q) x = x.hist from noteSent_calling hq]
    exact h
  wait x w h hw := by
    refine ⟨stopsAt_waiting h ?_ ?_,fun g s hr => hr.2⟩
    · rintro rfl
      simp [ofEnumeration] at hw
    · rintro rfl
      simp [ofEnumeration] at hw

theorem runTrb_sends {trb : Usb3Trb} {rest : List Usb3Trb}
    (h : x.hist.requested = x.hist.sent ++ (trb::rest).map queued)
    (hrest : x.state.hostCtrl.mTransferRing = rest) :
    (runTrb trb).wp ringSpec.setting (fun _ => ringSpec.head .transferRing) x := by
  refine runTrb_wp _ x fun k layer =>
    ⟨⟨trivial,?_,fun hl => (by cases hl),by simp⟩,fun r g s hr => ?_⟩
  · have hsent : x.hist.noteSent (.calling ((trbPacket trb).numbered k)) =
        { x.hist with sent := x.hist.sent ++ [queued trb] } := by
      rw [Traffic.noteSent,transferOf_trbPacket]
      rfl
    change InOrder (x.hist.noteSent (.calling ((trbPacket trb).numbered k))) _
    rw [hsent,InOrder,hrest,h]
    simp
  · have hback : InOrder g (receive trb s) := InOrder.congr hr.2 (receive_frame trb s).2
    dsimp only
    split
    · exact ⟨stopsAt_waiting hback (by simp) (by simp),fun g s hw => ⟨.inr rfl,hw.2⟩⟩
    · exact ⟨.inr rfl,hback⟩

theorem ringSpec_loops : ringSpec.Loops loopCode := by
  rintro l x ⟨hl,horder⟩
  obtain rfl | rfl := hl
  · refine hostMainLoop_wp _ x (fun _ => ?_) fun _ => ?_
    · refine ⟨stopsAt_waiting horder (by simp) (by simp),fun g s hw => ?_⟩
      exact enumerateDevice_indifferent ringSpec_indifferent hw.2 fun y hy => ⟨.inr rfl,hy⟩
    · exact enumerateDevice_indifferent ringSpec_indifferent horder fun y hy => ⟨.inr rfl,hy⟩
  · refine processTransferRing_wp _ x (fun _ => ⟨.inl rfl,horder⟩) (fun _ hempty => ?_)
      fun trb rest _ hring => ?_
    · exact ⟨⟨trivial,horder,fun _ => .inl hempty,by simp⟩,fun g s hw => ⟨.inr rfl,hw.2⟩⟩
    · have hfirst : x.hist.requested = x.hist.sent ++ (trb::rest).map queued := by
        rw [← hring]
        exact horder
      exact runTrb_sends hfirst rfl

end Host

section Interference
variable {g g' : Traffic} {s s' : Drd} {l : Loc WaitPoint Payload TlmResponse}

theorem RingAt.congr (h : RingAt g s l)
    (hring : s'.hostCtrl.mTransferRing = s.hostCtrl.mTransferRing)
    (hevent : s'.hostCtrl.mTrbCompleteEvent = s.hostCtrl.mTrbCompleteEvent) : RingAt g s' l where
  order := h.order.congr hring
  attended hl := by
    rw [Attended,hring,hevent]
    exact h.attended hl
  asserted := h.asserted

theorem ringSpec_meets : Meets (drdKernel n) (drdBoot n) traffic (fun _ _ _ => True) hostThread
    ringSpec where
  loops := ringSpec_loops
  begins e p hp := by cases hp
  timed := bootWith_wellTimed
  start := ⟨⟨rfl,fun hl => (by cases hl),by simp⟩,fun g s _ h => ⟨.inl rfl,h⟩⟩
  refl _ _ := trivial
  trans _ _ _ _ _ _ _ _ := trivial
  own g c o _ _ _ hh := hh.order
  leave g c o c' _ _ := by simp [traffic,ringSpec]
  peer g c u c' ht hne hh := by
    have hside := congrArg (·.1) (hostSide_peer hne ht)
    have hhist : traffic.next g c (.eval u) c' = g := if_neg hne
    have hring := congrArg HostController.mTransferRing hside
    have hevent := congrArg HostController.mTrbCompleteEvent hside
    rw [hhist]
    exact ⟨hh.congr hring hevent,trivial⟩
  act g c a c' ht ha hh := by
    obtain ⟨hqueue,hattend⟩ := apply_ring ha
    refine ⟨⟨?_,fun hl => hattend (hh.attended hl),hh.asserted⟩,trivial⟩
    show g.requested ++ (requestOf a).toList = _
    rw [hqueue,hh.order,List.append_assoc]
    rfl
  still g c l c' ht hl hh := by
    cases l <;> first | exact ⟨hh,trivial⟩ | cases hl
  delta g c c' ht _ hwait hh := by
    -- a notification that is not taken is spent: only an empty ring may be left behind
    refine ⟨⟨hh.order,fun hl => .inl ?_,hh.asserted⟩,trivial⟩
    have hevent : c.state.hostCtrl.mTrbCompleteEvent = false := hwait _ hl
    exact (hh.attended hl).resolve_right (by simp [hevent])
  wake g c c' w' ht _ _ hh := ⟨⟨hh.order,fun hl => (by cases hl),by simp⟩,trivial⟩
  expire g c d c' w' ht _ _ _ hh := ⟨⟨hh.order,fun hl => (by cases hl),by simp⟩,trivial⟩
  answer g c q r c' ht _ hh := ⟨⟨hh.order,fun hl => (by cases hl),by simp⟩,trivial⟩
  enter g c e c' ht _ hh := ⟨⟨hh.order,fun hl => (by cases hl),by simp⟩,trivial⟩

end Interference

/-- In every run the bulk packets sent are the requests in order, up to some point, and the
ring is never asked for a request that it does not hold. -/
theorem sent_prefix_requested (g : Traffic) (c : DrdConf n)
    (hr : Reach (drdKernel n) (drdBoot n) traffic (fun _ _ _ => True) g c) :
    g.sent <+: g.requested ∧ c.loc hostThread ≠ .waiting .assertion := by
  have hheld := ringSpec_meets.held hr
  refine ⟨?_,hheld.asserted⟩
  rw [hheld.order]
  exact List.prefix_append _ _

theorem sent_first : ∃ g c, Reach (drdKernel 0) (drdBoot 0) traffic (fun _ _ _ => True) g c ∧
    g.requested.length = 2 ∧ g.sent.length = 1 ∧ g.sent <+: g.requested := by
  obtain ⟨g,c,hr,hrequested,hsent⟩ := exists_reach (drdKernel 0) (drdBoot 0) traffic
    (fun _ _ _ => True) (fun g _ => g.requested.length = 2 ∧ g.sent.length = 1)
    (attachRun .ufpAttached ++ controlRun .genericError ++
      [.act (.bulkOut 1 2 [0xAA,0xBB]),.act (.bulkIn 1 1 2),.eval hostThread]) (by decide +kernel)
  exact ⟨g,c,hr,hrequested,hsent,(sent_prefix_requested g c hr).1⟩

/-- A thread that sleeps at the ring with no wake-up on the way has nothing to do. -/
theorem ring_empty_of_blocked (c : DrdConf n)
    (hr : Reach (drdKernel n) (drdBoot n) noWatch (fun _ _ _ => True) () c)
    (hwait : c.loc hostThread = .waiting .trbComplete)
    (hevent : c.state.hostCtrl.mTrbCompleteEvent = false) : c.state.hostCtrl.mTransferRing = [] := by
  obtain ⟨g,hg⟩ := hr.watched traffic
  exact ((ringSpec_meets.held hg).attended hwait).resolve_right (by simp [hevent])

theorem ring_blocked : ∃ c, Reach (drdKernel 0) (drdBoot 0) noWatch (fun _ _ _ => True) () c ∧
    c.loc hostThread = .waiting .trbComplete ∧ c.state.hostCtrl.mTransferRing = [] := by
  obtain ⟨_,c,hr,hwait,hevent⟩ := exists_reach (drdKernel 0) (drdBoot 0) noWatch (fun _ _ _ => True)
    (fun _ c => c.loc hostThread = .waiting .trbComplete ∧ c.state.hostCtrl.mTrbCompleteEvent = false)
    (attachRun .ufpAttached ++ controlRun .genericError ++ [.eval hostThread]) (by decide +kernel)
  exact ⟨c,hr,hwait,ring_empty_of_blocked c hr hwait hevent⟩

end TransferRing
end Usb3Drd
