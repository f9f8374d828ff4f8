import Usb3Drd.TransferRing

/-! The device address as software reads it, against the one the host knows: the host
forgets its device with each session, the register keeps the address assigned last. -/
namespace Usb3Drd
namespace DeviceAddress

open Coop HostController DrdController

variable {n : ℕ}

/-- The last setup request of the host thread, the address in the last SET_ADDRESS whose
status stage was answered OK, and whether the latest enumeration sent it. -/
structure AddressLog where
  request : Usb3SetupPkt := {}
  assigned : BitVec 8 := 0
  latest : Bool := false

namespace AddressLog

def send (g : AddressLog) (setup : Usb3SetupPkt) : AddressLog :=
  { g with
    request := setup
    latest := g.latest && decide (setup ≠ descriptorRequest usbDescDevice 0) }

def answer (g : AddressLog) (r : TlmResponse) : AddressLog :=
  if r = .ok ∧ g.request.bRequest = usbReqSetAddress then
    { g with assigned := g.request.wValue.setWidth 8, latest := true }
  else g

def noteAnswer : AddressLog → Loc WaitPoint Payload TlmResponse → AddressLog :=
  HostController.noteAnswer answer

def note : AddressLog → Loc WaitPoint Payload TlmResponse → Loc WaitPoint Payload TlmResponse →
    AddressLog := noteControl send answer

end AddressLog

def addressLog : Watch AddressLog Drd WaitPoint Payload TlmResponse Loop Action Payload (Tid n) where
  init := {}
  next g c l c' := match l with
    | .eval t => if t = hostThread then g.note (c.loc t) (c'.loc t) else g
    | _ => g

def Enumerates : Loc WaitPoint Payload TlmResponse → Prop
  | .waiting w => ofEnumeration w
  | .ready (.woke w) => ofEnumeration w
  | .calling q => ¬isBulk q
  | .ready (.returned q _) => ¬isBulk q
  | _ => False

instance (w : WaitPoint) : Decidable (ofEnumeration w) := inferInstanceAs (Decidable (_ ∨ _))

instance : ∀ l, Decidable (Enumerates l)
  | .waiting w => inferInstanceAs (Decidable (ofEnumeration w))
  | .ready (.woke w) => inferInstanceAs (Decidable (ofEnumeration w))
  | .calling q => inferInstanceAs (Decidable ¬isBulk q)
  | .ready (.returned q _) => inferInstanceAs (Decidable ¬isBulk q)
  | .idle | .ready .start => isFalse id

def addrSide (s : Drd) : BitVec 8 × BitVec 8 := (s.hostCtrl.mDev.addr,s.sigDevAddr.nxt)

/-- The host gives out the address assigned last, and knows it if the latest enumeration
assigned it. -/
def Known (g : AddressLog) (s : Drd) : Prop :=
  addrSide s = (if g.latest then g.assigned else 0,g.assigned)

def addressSpec : Spec AddressLog Drd WaitPoint Payload TlmResponse Loop where
  held l g s := ¬Enumerates l → Known g s
  pre _ _ _ := True
  rely g s g' s' := g' = g ∧ addrSide s' = addrSide s
  guar _ _ _ _ _ := True
  leave g o _ l _ := g.note (.ready o) l
  head l x := (l = .hostMain ∨ l = .transferRing) ∧ Known x.hist x.state ∧
    x.hist.noteAnswer (.ready x.origin) = x.hist

section Host
variable {x : Trail AddressLog Drd WaitPoint Payload TlmResponse} {g : AddressLog} {s : Drd}

theorem Known.congr {s' : Drd} (h : Known g s) (hs : addrSide s' = addrSide s) : Known g s' :=
  hs.trans h

theorem stopsAt_enumerating {l : Loc WaitPoint Payload TlmResponse} (hl : Enumerates l) :
    addressSpec.stopsAt l x := ⟨trivial,fun h => absurd hl h⟩

theorem stopsAt_known {l : Loc WaitPoint Payload TlmResponse}
    (h : Known (x.hist.note (.ready x.origin) l) x.state) : addressSpec.stopsAt l x :=
  ⟨trivial,fun _ => h⟩

theorem ctrlTransfer_addr {devAddr : BitVec 8} {setup : Usb3SetupPkt} {dataBuf : List Byte}
    {dir : Bool} (hlen : dir = true → setup.wLength = 0)
    (ho : x.hist.noteAnswer (.ready x.origin) = x.hist)
    {post : Bool × List Byte → Trail AddressLog Drd WaitPoint Payload TlmResponse → Prop}
    (hpost : ∀ r buf s, addrSide s = addrSide x.state →
      post (decide (r = .ok),buf) ⟨(x.hist.send setup).answer r,.woke .statusStage,s,s⟩) :
    (ctrlTransfer devAddr setup dataBuf dir).wp addressSpec.setting post x := by
  refine ctrlTransfer_wp _ hlen x fun k layer => ?_
  refine ⟨stopsAt_enumerating (not_isBulk_setupPacket _ _ _),fun r₁ g₁ s₁ h₁ => ?_⟩
  obtain ⟨⟨rfl,hside₁⟩,-⟩ := h₁
  refine ⟨stopsAt_enumerating (.inl rfl),fun g₂ s₂ h₂ buf s hs k' layer => ?_⟩
  obtain ⟨⟨rfl,hside₂⟩,-⟩ := h₂
  have hside : addrSide s = addrSide s₂ := by
    obtain rfl | rfl := hs
    · rfl
    · rfl
  refine ⟨stopsAt_enumerating (not_isBulk_statusPacket _ _ _),fun r g₃ s₃ h₃ => ?_⟩
  obtain ⟨⟨rfl,hside₃⟩,-⟩ := h₃
  refine ⟨stopsAt_enumerating (.inr (.inl rfl)),fun g₄ s₄ h₄ => ?_⟩
  obtain ⟨⟨rfl,hside₄⟩,-⟩ := h₄
  have hpost' := hpost r buf s₄ ((hside₄.trans hside₃).trans (hside.trans (hside₂.trans hside₁)))
  have hhist : ((x.hist.noteAnswer (.ready x.origin)).send setup).answer r =
      (x.hist.send setup).answer r := by rw [ho]
  rw [← hhist] at hpost'
  exact hpost'

theorem answer_of_ne {r : TlmResponse} (h : g.request.bRequest ≠ usbReqSetAddress) :
    g.answer r = g := if_neg fun hr => h hr.2

/-- An address request that is answered OK assigns its address. -/
theorem answer_address (g : AddressLog) (a : BitVec 8) :
    ((g.send (addressRequest a)).answer .ok).assigned = a ∧
      ((g.send (addressRequest a)).answer .ok).latest = true := by
  rw [AddressLog.answer,if_pos ⟨rfl,rfl⟩]
  simp [AddressLog.send,addressRequest]

theorem ctrlTransfer_known {devAddr : BitVec 8} {setup : Usb3SetupPkt} {dataBuf : List Byte}
    {dir : Bool} (hlen : dir = true → setup.wLength = 0)
    (hbegin : setup ≠ descriptorRequest usbDescDevice 0) (hset : setup.bRequest ≠ usbReqSetAddress)
    (ho : x.hist.noteAnswer (.ready x.origin) = x.hist) (h : Known x.hist x.state)
    {post : Bool × List Byte → Trail AddressLog Drd WaitPoint Payload TlmResponse → Prop}
    (hpost : ∀ (r : TlmResponse) buf g s, Known g s →
      post (decide (r = .ok),buf) ⟨g,.woke .statusStage,s,s⟩) :
    (ctrlTransfer devAddr setup dataBuf dir).wp addressSpec.setting post x := by
  refine ctrlTransfer_addr hlen ho fun r buf s hs => hpost r buf _ s ?_
  have hsend : Known (x.hist.send setup) x.state := by
    have hlatest : (x.hist.send setup).latest = x.hist.latest := by
      rw [AddressLog.send,decide_eq_true hbegin,Bool.and_true]
    rw [Known,hlatest]
    exact h
  rw [answer_of_ne (g := x.hist.send setup) hset]
  exact hsend.congr hs

/-- Whatever becomes of an enumeration, at its end both addresses are as recorded. -/
theorem enumerateDevice_known (ho : x.hist.noteAnswer (.ready x.origin) = x.hist)
    (h : addrSide x.state = (0,x.hist.assigned)) :
    enumerateDevice.wp addressSpec.setting (fun _ => addressSpec.head .transferRing) x := by
  have hleave : ∀ w g s, Known g s → addressSpec.head .transferRing ⟨g,.woke w,s,s⟩ :=
    fun w g s h => ⟨.inr rfl,h,rfl⟩
  refine enumerateDevice_wp _ x ?_
  refine ctrlTransfer_addr (by simp) ho fun r buf s hs => ?_
  have hne : usbReqGetDescriptor ≠ usbReqSetAddress := by decide
  rw [answer_of_ne (g := x.hist.send (descriptorRequest usbDescDevice 0)) hne]
  generalize hg : x.hist.send (descriptorRequest usbDescDevice 0) = g₀
  have hlatest : g₀.latest = false := by rw [← hg]; simp [AddressLog.send]
  have hside : addrSide s = (0,g₀.assigned) := by rw [hs,h,← hg]; rfl
  refine ⟨fun _ => hleave _ _ _ ?_,fun _ => ?_⟩
  · rw [Known,hlatest]
    exact hside
  -- the address: the host knows it as soon as it gives it out
  dsimp only
  generalize s.hostCtrl.mNextAddr = newAddr
  refine ctrlTransfer_addr (fun _ => rfl) rfl fun r buf' s' hs' => ?_
  have hside' : addrSide s' = (0,g₀.assigned) := by
    rw [hs',← hside]
    exact Prod.ext (noteDevice_addr _ _) rfl
  refine ⟨fun hr => hleave _ _ _ ?_,fun hr => ?_⟩
  · have hfail : r ≠ .ok := of_decide_eq_false hr
    rw [AddressLog.answer,if_neg fun h => hfail h.1,Known,AddressLog.send]
    simpa [hlatest] using hside'
  have hok : r = .ok := of_decide_eq_true hr
  refine ⟨stopsAt_enumerating (.inr (.inr (.inl rfl))),fun g s hw => ?_⟩
  obtain ⟨⟨hhist,hside⟩,-⟩ := hw
  have hknown : Known g s := by
    subst hok
    obtain ⟨hassigned,hlatest⟩ := answer_address g₀ newAddr
    have hg' : g = (g₀.send (addressRequest newAddr)).answer .ok := hhist
    rw [Known,hside,hg',hassigned,hlatest]
    rfl
  -- the rest of the enumeration
  refine ctrlTransfer_known (by simp) (by decide) hne rfl hknown fun r buf g s hknown => ?_
  refine ⟨fun _ => hleave _ _ _ hknown,fun _ => ?_⟩
  refine ctrlTransfer_known (by simp) (by decide) hne rfl (hknown.congr ?_)
    fun r buf g s hknown => ?_
  · exact Prod.ext (noteConfig_addr _ _) rfl
  refine ctrlTransfer_known (fun _ => rfl) (by decide) (by decide) rfl hknown
    fun r buf g s hknown => ?_
  refine ⟨fun _ => hleave _ _ _ hknown,fun _ => ?_⟩
  refine ⟨stopsAt_enumerating (.inr (.inr (.inr rfl))),fun g' s' hw => hleave _ _ _ ?_⟩
  obtain ⟨⟨rfl,hside⟩,-⟩ := hw
  exact hknown.congr hside

theorem note_bulk {o : Origin WaitPoint Payload TlmResponse} {l : Loc WaitPoint Payload TlmResponse}
    (ho : g.noteAnswer (.ready o) = g) (hl : ∀ q, l = .calling q → isBulk q) :
    g.note (.ready o) l = g := by
  show noteRequest AddressLog.send (g.noteAnswer (.ready o)) l = g
  rw [ho,noteRequest_bulk _ g hl]

theorem runTrb_known {trb : Usb3Trb} (ho : x.hist.noteAnswer (.ready x.origin) = x.hist)
    (h : Known x.hist x.state) :
    (runTrb trb).wp addressSpec.setting (fun _ => addressSpec.head .transferRing) x := by
  refine runTrb_wp _ x fun k layer => ?_
  have hbulk := isBulk_trbPacket trb k
  have hsend : x.hist.note (.ready x.origin) (.calling ((trbPacket trb).numbered k)) = x.hist :=
    note_bulk ho fun q hq => by cases hq; exact hbulk
  refine ⟨stopsAt_known (by rw [hsend]; exact h),fun r g s hr => ?_⟩
  obtain ⟨⟨hhist,hside⟩,-⟩ := hr
  obtain rfl : g = x.hist := hhist.trans hsend
  have hknown : Known x.hist (receive trb s) := by
    refine (h.congr hside).congr ?_
    unfold receive
    split <;> rfl
  have hback : x.hist.noteAnswer (.ready (.returned ((trbPacket trb).numbered k) r)) = x.hist :=
    noteAnswer_bulk _ _ fun q r hq => by cases hq; exact hbulk
  dsimp only
  split
  · have hwait : ∀ w, x.hist.note (.ready (.returned ((trbPacket trb).numbered k) r)) (.waiting w) =
        x.hist := fun w => note_bulk hback fun q hq => by cases hq
    refine ⟨stopsAt_known (by rw [hwait]; exact hknown),fun g s hw => ⟨.inr rfl,?_,rfl⟩⟩
    obtain ⟨⟨hhist,hside⟩,-⟩ := hw
    obtain rfl : g = x.hist := hhist.trans (hwait .xferPulse)
    exact hknown.congr hside
  · exact ⟨.inr rfl,hknown,hback⟩

theorem addressSpec_loops : addressSpec.Loops loopCode := by
  rintro l x ⟨hl,hknown,ho⟩
  have hwait : ∀ w, x.hist.note (.ready x.origin) (.waiting w) = x.hist :=
    fun w => note_bulk ho fun q hq => by cases hq
  have hforget : ∀ {g s}, Known g s → addrSide
      { s with hostCtrl := { s.hostCtrl with mDev := {} } } = (0,g.assigned) := by
    intro g s h
    have hsig := congrArg Prod.snd h
    exact Prod.ext rfl hsig
  obtain rfl | rfl := hl
  · refine hostMainLoop_wp _ x (fun _ => ⟨stopsAt_known ?_,fun g s hw => ?_⟩) fun _ => ?_
    · rw [hwait]
      exact hknown
    · obtain ⟨⟨hhist,hside⟩,-⟩ := hw
      obtain rfl : g = x.hist := hhist.trans (hwait .enablePosedge)
      exact enumerateDevice_known rfl (hforget (hknown.congr hside))
    · exact enumerateDevice_known ho (hforget hknown)
  · refine processTransferRing_wp _ x (fun _ => ⟨.inl rfl,hknown,ho⟩) (fun _ _ => ?_)
      fun trb rest _ _ => runTrb_known ho hknown
    refine ⟨stopsAt_known (by rw [hwait]; exact hknown),fun g s hw => ⟨.inr rfl,?_,rfl⟩⟩
    obtain ⟨⟨hhist,hside⟩,-⟩ := hw
    obtain rfl : g = x.hist := hhist.trans (hwait .trbComplete)
    exact hknown.congr hside

end Host

theorem addressSpec_meets : Meets (drdKernel n) (drdBoot n) addressLog (fun _ _ _ => True)
    hostThread addressSpec where
  loops := addressSpec_loops
  begins e p hp := by cases hp
  timed := bootWith_wellTimed
  start := by
    refine ⟨fun _ => rfl,fun g s hs _ => ⟨.inl rfl,?_,rfl⟩⟩
    obtain ⟨rfl,hside⟩ := hs
    have hdev := congrArg Prod.fst hside
    exact Prod.ext hdev rfl
  refl _ _ := ⟨rfl,rfl⟩
  trans _ _ _ _ _ _ h h' := ⟨h'.1.trans h.1,h'.2.trans h.2⟩
  own _ _ _ _ _ _ _ := trivial
  leave g c o c' hloc _ := by simp [addressLog,addressSpec,hloc]
  peer g c u c' ht hne hh := by
    have hkeep := hostSide_peer hne ht
    have hdev := congrArg (·.1.mDev.addr) hkeep
    have hsig := congrArg (·.2.2.2.nxt) hkeep
    have hside : addrSide c'.state = addrSide c.state := Prod.ext hdev hsig
    have hhist : addressLog.next g c (.eval u) c' = g := if_neg hne
    rw [hhist]
    exact ⟨fun hl => (hh hl).congr hside,rfl,hside⟩
  act g c a c' ht ha hh := by
    have hside := congrArg addrSide (Action.apply_unwritten ha)
    exact ⟨fun hl => (hh hl).congr hside,rfl,hside⟩
  still g c l c' ht hl hh := by
    cases l <;> first | exact ⟨hh,rfl,rfl⟩ | cases hl
  delta g c c' ht _ _ hh := ⟨hh,rfl,rfl⟩
  wake g c c' w' ht _ _ hh := ⟨hh,rfl,rfl⟩
  expire g c d c' w' ht _ _ _ hh := ⟨hh,rfl,rfl⟩
  answer g c q r c' ht _ hh := ⟨hh,rfl,rfl⟩
  enter g c e c' ht _ hh := ⟨hh,rfl,rfl⟩

def addressRead : Payload := { command := .read, address := regDevAddr, data := [0,0,0,0] }

/-- A read of the register returns the address of the device that the host knows. -/
def Agrees (s : Drd) : Prop :=
  bytesToWord (cfgBTransport addressRead s).2.1 = s.hostCtrl.mDev.addr.setWidth 32

instance (s : Drd) : Decidable (Agrees s) := inferInstanceAs (Decidable (_ = _))

theorem agrees_iff_cur (s : Drd) : Agrees s ↔ s.sigDevAddr.cur = s.hostCtrl.mDev.addr := by
  have hread : (cfgBTransport addressRead s).2.1 = wordToBytes (s.sigDevAddr.cur.setWidth 32) ++ [] :=
    rfl
  rw [Agrees,hread,bytesToWord_wordToBytes]
  constructor
  · intro h
    have hback := congrArg (BitVec.setWidth 8) h
    simpa using hback
  · intro h
    rw [h]

/-- Outside an enumeration, with the signals settled, the register agrees with the host
exactly if the latest enumeration assigned its address or the last one assigned is 0. -/
theorem agrees_iff_latest (n : ℕ) (g : AddressLog) (c : DrdConf n)
    (hr : Reach (drdKernel n) (drdBoot n) addressLog (fun _ _ _ => True) g c)
    (hout : ¬Enumerates (c.loc hostThread)) (hs : c.state.settled = true) :
    Agrees c.state ↔ g.latest = true ∨ g.assigned = 0 := by
  have hknown := addressSpec_meets.held hr hout
  have hdev : c.state.hostCtrl.mDev.addr = if g.latest then g.assigned else 0 :=
    congrArg Prod.fst hknown
  have hsig : c.state.sigDevAddr.nxt = g.assigned := congrArg Prod.snd hknown
  rw [agrees_iff_cur,(Drd.settled_signals hs).devAddr,hsig,hdev]
  cases g.latest with
  | true => simp
  | false => simp

def assignRun : List (DrdLabel Action 0) :=
  attachRun .ufpAttached ++ controlRun .ok ++ controlRun .ok ++
    [.eval hostThread,.delta,.advance (2*ms)] ++ controlRun .genericError ++ [.eval hostThread]

theorem agrees_assigned : ∃ g c, Reach (drdKernel 0) (drdBoot 0) addressLog (fun _ _ _ => True) g c ∧
    g.assigned = 1 ∧ Agrees c.state := by
  obtain ⟨g,c,hr,hout,hs,hlatest,hone⟩ := exists_reach (drdKernel 0) (drdBoot 0) addressLog
    (fun _ _ _ => True) (fun g c => ¬Enumerates (c.loc hostThread) ∧ c.state.settled = true ∧
      g.latest = true ∧ g.assigned = 1) assignRun (by decide +kernel)
  exact ⟨g,c,hr,hone,(agrees_iff_latest 0 g c hr hout hs).mpr (.inl hlatest)⟩

/-- The host is disabled and enabled again, and its second enumeration fails at once. -/
theorem not_agrees_secondSession : ¬ ∀ g c,
    Reach (drdKernel 0) (drdBoot 0) addressLog (fun _ _ _ => True) g c →
      ¬Enumerates (c.loc hostThread) → c.state.settled = true → Agrees c.state := by
  intro h
  obtain ⟨g,c,hr,hout,hs,hdiffer⟩ := exists_reach (drdKernel 0) (drdBoot 0) addressLog
    (fun _ _ _ => True) (fun _ c => ¬Enumerates (c.loc hostThread) ∧ c.state.settled = true ∧
      ¬Agrees c.state)
    (assignRun ++ vbusRun false ++ [.delta,.act (.bulkIn 1 1 1),.delta,.eval hostThread] ++
      vbusRun true ++ [.delta] ++ controlRun .genericError ++ [.eval hostThread])
    (by decide +kernel)
  exact hdiffer (h g c hr hout hs)

end DeviceAddress
end Usb3Drd
