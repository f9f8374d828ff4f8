import Usb3Drd.Footprint

/-! The host thread as a machine: what it waits for or has sent, and for each reason to run the
one stretch of work that it does then. The code of the thread refines it, and what holds of
whole runs of the thread is proved about the machine. -/
namespace Usb3Drd
namespace HostMachine

open Coop ProtocolLayer HostController

inductive Stage
  | device | address (newAddr : BitVec 8) | config | bos | configure
  deriving DecidableEq

def Stage.request : Stage → Usb3SetupPkt
  | .device => descriptorRequest usbDescDevice 0
  | .address newAddr => addressRequest newAddr
  | .config => descriptorRequest usbDescConfiguration 0
  | .bos => descriptorRequest usbDescBos 0
  | .configure => configurationRequest 1

def Stage.hostToDevice : Stage → Bool
  | .address _ => true
  | .configure => true
  | _ => false

/-- Where the thread stands between two stretches. `buf` is the buffer that the descriptors are
read into. -/
inductive Phase
  | boot | disabled
  | setup (k : Stage) (addr : BitVec 8) (buf : List Byte)
  | settling (k : Stage) (addr : BitVec 8) (buf : List Byte)
  | status (k : Stage) (addr : BitVec 8) (buf : List Byte)
  | closing (k : Stage) (buf : List Byte) (answered : Bool)
  | addressing (buf : List Byte)
  | announcing | idle | transfer (trb : Usb3Trb) | completing
  deriving DecidableEq

namespace Phase

def packet : Phase → Option Payload
  | .setup k addr _ => some (setupPacket addr k.request)
  | .status k addr _ => some (statusPacket addr k.hostToDevice)
  | .transfer trb => some (trbPacket trb)
  | _ => none

def point : Phase → Option WaitPoint
  | .disabled => some .enablePosedge
  | .settling _ _ _ => some .setupStage
  | .closing _ _ _ => some .statusStage
  | .addressing _ => some .addrSettle
  | .announcing => some .enumPulse
  | .idle => some .trbComplete
  | .completing => some .xferPulse
  | _ => none

/-- The location of the thread, but for the number of its packet. -/
def Stands (ph : Phase) : Loc WaitPoint Payload TlmResponse → Prop
  | .idle => False
  | .ready .start => ph = .boot
  | .ready (.woke w) => ph.point = some w
  | .ready (.returned q _) => ∃ p n, ph.packet = some p ∧ q = p.numbered n
  | .waiting w => ph.point = some w
  | .calling q => ∃ p n, ph.packet = some p ∧ q = p.numbered n

end Phase

structure Turn where
  phase : Phase
  loc : Loc WaitPoint Payload TlmResponse
  state : Drd

/-- A packet takes the next number, if its type carries one. -/
def stamp (p : Payload) (s : Drd) : Payload × Drd :=
  if p.pktType.any usesSequence then
    (p.numbered s.protocol.mSeqNum,
      { s with protocol := { s.protocol with mSeqNum := s.protocol.mSeqNum+1 } })
  else (p,s)

def sends (ph : Phase) (p : Payload) (s : Drd) : Turn :=
  ⟨ph,.calling (stamp p s).1,(stamp p s).2⟩

def waits (ph : Phase) (w : WaitPoint) (s : Drd) : Turn := ⟨ph,.waiting w,s⟩

def begins (k : Stage) (addr : BitVec 8) (buf : List Byte) (s : Drd) : Turn :=
  sends (.setup k addr buf) (setupPacket addr k.request) s

def resetDev (s : Drd) : Drd := { s with hostCtrl := { s.hostCtrl with mDev := {} } }

def mainHead (s : Drd) : Turn :=
  if s.sigHostEnable.cur = false then waits .disabled .enablePosedge s
  else begins .device 0 [] (resetDev s)

def ringHead (s : Drd) : Turn :=
  if s.sigHostEnable.cur = false then waits .disabled .enablePosedge s
  else match s.hostCtrl.mTransferRing with
    | [] => waits .idle .trbComplete s
    | trb::rest => sends (.transfer trb) (trbPacket trb) (setRing rest s)

def collect (k : Stage) (addr : BitVec 8) (buf : List Byte) (s : Drd) : Turn :=
  if k.request.wLength ≠ 0 ∧ s.hostCtrl.mRespValid = true then
    sends (.status k addr s.hostCtrl.mRespData) (statusPacket addr k.hostToDevice) (drain s)
  else sends (.status k addr buf) (statusPacket addr k.hostToDevice) s

/-- A transfer is over. The outcome of the BOS read does not matter, any other failure ends
the enumeration. -/
def conclude (k : Stage) (buf : List Byte) (answered : Bool) (s : Drd) : Turn :=
  match k with
  | .bos => begins .configure s.hostCtrl.mDev.addr [] s
  | .device =>
    if answered then begins (.address s.hostCtrl.mNextAddr) 0 buf (learnDevice buf s)
    else ringHead s
  | .address newAddr =>
    if answered then waits (.addressing buf) .addrSettle (adoptAddr newAddr s) else ringHead s
  | .config =>
    if answered then begins .bos (learnConfig buf s).hostCtrl.mDev.addr [] (learnConfig buf s)
    else ringHead s
  | .configure =>
    if answered then waits .announcing .enumPulse (completeEnum s) else ringHead s

def answeredOk : Origin WaitPoint Payload TlmResponse → Bool
  | .returned _ r => decide (r = .ok)
  | _ => false

def initSignals (s : Drd) : Drd :=
  { s with
    sigXferDone := s.sigXferDone.write false
    sigEnumDone := s.sigEnumDone.write false
    sigDevAddr := s.sigDevAddr.write 0 }

def turn : Phase → Origin WaitPoint Payload TlmResponse → Drd → Turn
  | .boot, _, s => mainHead (initSignals s)
  | .disabled, _, s => begins .device 0 [] (resetDev s)
  | .setup k addr buf, _, s => waits (.settling k addr buf) .setupStage s
  | .settling k addr buf, _, s => collect k addr buf s
  | .status k _ buf, o, s => waits (.closing k buf (answeredOk o)) .statusStage s
  | .closing k buf answered, _, s => conclude k buf answered s
  | .addressing buf, _, s => begins .config s.hostCtrl.mDev.addr buf s
  | .announcing, _, s => ringHead (writeEnumDone false s)
  | .idle, _, s => ringHead s
  | .transfer trb, _, s =>
    if trb.ioc then waits .completing .xferPulse (writeXferDone true (receive trb s))
    else ringHead (receive trb s)
  | .completing, _, s => ringHead (writeXferDone false s)

def phases (A : Type) (n : ℕ) :
    Watch Phase Drd WaitPoint Payload TlmResponse Loop A Payload (Tid n) where
  init := .boot
  next g c l _ :=
    match l with
    | .eval t => if t = hostThread then
        match c.loc t with
        | .ready o => (turn g o c.state).phase
        | _ => g
      else g
    | _ => g

abbrev machineSpec : Spec Phase Drd WaitPoint Payload TlmResponse Loop where
  held l g _ := g.Stands l
  pre o g _ := g.Stands (.ready o)
  rely g _ g' _ := g' = g
  guar g o s l s' := l = (turn g o s).loc ∧ s' = (turn g o s).state
  leave g o s _ _ := (turn g o s).phase
  head l x := (l = .hostMain ∧ turn x.hist x.origin x.start = mainHead x.state) ∨
    (l = .transferRing ∧ turn x.hist x.origin x.start = ringHead x.state)

section Origins
variable {ph : Phase} {o : Origin WaitPoint Payload TlmResponse}

theorem Phase.packet_none {w : WaitPoint} (hw : ph.point = some w) : ph.packet = none := by
  cases ph <;> first | rfl | cases hw

theorem Phase.Stands.woke {w : WaitPoint} (h : ph.Stands (.ready o)) (hw : ph.point = some w) :
    o = .woke w := by
  cases o with
  | start =>
    obtain rfl : ph = .boot := h
    cases hw
  | woke w' => exact congrArg Origin.woke (Option.some.inj ((show ph.point = some w' from h).symm.trans hw))
  | returned q r =>
    obtain ⟨p,n,hp,-⟩ := h
    rw [Phase.packet_none hw] at hp
    cases hp

theorem Phase.Stands.returned {p : Payload} (h : ph.Stands (.ready o)) (hp : ph.packet = some p) :
    ∃ n r, o = .returned (p.numbered n) r := by
  cases o with
  | start =>
    obtain rfl : ph = .boot := h
    cases hp
  | woke w =>
    rw [Phase.packet_none h] at hp
    cases hp
  | returned q r =>
    obtain ⟨p',n,hp',rfl⟩ := h
    obtain rfl := Option.some.inj (hp'.symm.trans hp)
    exact ⟨n,r,rfl⟩

end Origins

section Code
variable {x : Trail Phase Drd WaitPoint Payload TlmResponse}

theorem stamp_numbered (p : Payload) (s : Drd) : ∃ n, (stamp p s).1 = p.numbered n := by
  rw [stamp]
  split
  · exact ⟨_,rfl⟩
  · cases hext : p.ext with
    | none => exact ⟨0,by simp [Payload.numbered,hext]; rw [← hext]⟩
    | some ext => exact ⟨ext.seqNum,by simp [Payload.numbered,hext]; rw [← hext]⟩

theorem stamp_frame (p : Payload) (s : Drd) :
    ∃ layer, (stamp p s).2 = { s with protocol := layer } := by
  rw [stamp]
  split
  · exact ⟨_,rfl⟩
  · exact ⟨s.protocol,rfl⟩

theorem stopsAt_of_turn {ph : Phase} {l : Loc WaitPoint Payload TlmResponse}
    (hx : turn x.hist x.origin x.start = ⟨ph,l,x.state⟩) (hph : ph.Stands l) :
    machineSpec.stopsAt l x ∧ machineSpec.after l x = ph := by
  have hafter : machineSpec.after l x = ph := congrArg Turn.phase hx
  refine ⟨⟨⟨(congrArg Turn.loc hx).symm,(congrArg Turn.state hx).symm⟩,?_⟩,hafter⟩
  rw [hafter]
  exact hph

theorem routeTx_turns {ph : Phase} {p : Payload} (hp : p.ext.isSome = true)
    (hph : ph.packet = some p) (hx : turn x.hist x.origin x.start = sends ph p x.state)
    {post : TlmResponse → Trail Phase Drd WaitPoint Payload TlmResponse → Prop}
    (h : ∀ q r s, post r ⟨ph,.returned q r,s,s⟩) : (routeTx p).wp machineSpec.setting post x := by
  obtain ⟨ext,hext⟩ := Option.isSome_iff_exists.mp hp
  have hcall : ∀ q s, stamp p x.state = (q,s) →
      machineSpec.setting.onCall q post { x with state := s } := by
    intro q s hq
    have hturn : turn x.hist x.origin x.start = ⟨ph,.calling q,s⟩ := by rw [hx,sends,hq]
    obtain ⟨n,hn⟩ := stamp_numbered p x.state
    obtain ⟨hstop,hafter⟩ := stopsAt_of_turn (x := { x with state := s }) hturn
      ⟨p,n,hph,by rw [← hn,hq]⟩
    refine ⟨hstop,fun r g s' hr => ?_⟩
    obtain rfl : g = ph := hr.1.trans hafter
    exact h q r s'
  have htype : p.pktType.any usesSequence = usesSequence ext.pktType := by
    simp [Payload.pktType,hext]
  simp only [routeTx,hext,stampSeq,nextSeq,Proc.wp_bind,Proc.wp_ite,Spec.wp_read,Spec.wp_modify,
    Proc.wp_pure,Proc.wp_request]
  refine ⟨fun hseq => hcall _ _ ?_,fun hseq => hcall _ _ ?_⟩
  · rw [stamp,if_pos (htype.trans hseq),Payload.numbered,hext]
    rfl
  · rw [stamp,if_neg (by rw [htype]; exact hseq),← hext]

theorem sleep_turns {ph : Phase} {w : WaitPoint} (hph : ph.point = some w)
    (hx : turn x.hist x.origin x.start = waits ph w x.state)
    {K : Trail Phase Drd WaitPoint Payload TlmResponse → Prop}
    (h : ∀ s, K ⟨ph,.woke w,s,s⟩) : machineSpec.setting.onWait w K x := by
  obtain ⟨hstop,hafter⟩ := stopsAt_of_turn hx hph
  refine ⟨hstop,fun g s hs => ?_⟩
  obtain rfl : g = ph := hs.1.trans hafter
  exact h s

theorem dataStage_exact {devAddr : BitVec 8} {setup : Usb3SetupPkt} {dataBuf : List Byte}
    {dir : Bool} (hlen : dir = true → setup.wLength = 0)
    {post : List Byte → Trail Phase Drd WaitPoint Payload TlmResponse → Prop}
    (htake : setup.wLength ≠ 0 → x.state.hostCtrl.mRespValid = true →
      post x.state.hostCtrl.mRespData { x with state := drain x.state })
    (hkeep : ¬(setup.wLength ≠ 0 ∧ x.state.hostCtrl.mRespValid = true) → post dataBuf x) :
    (dataStage devAddr setup dataBuf dir).wp machineSpec.setting post x := by
  simp only [dataStage,takeResponse,Proc.wp_ite,Proc.wp_bind,Spec.wp_read,Spec.wp_modify,
    Proc.wp_pure]
  refine ⟨fun hzero => hkeep fun h => h.1 hzero,fun hlen' => ⟨fun _ => ⟨htake hlen',fun h => ?_⟩,
    fun hdir => absurd (hlen (by simpa using hdir)) hlen'⟩⟩
  exact hkeep fun h' => h h'.2

theorem Stage.wLength_out (k : Stage) (h : k.hostToDevice = true) : k.request.wLength = 0 := by
  cases k <;> first | rfl | cases h

/-- A control transfer of the enumeration. -/
theorem ctrlTransfer_turns (k : Stage) {addr : BitVec 8} (buf : List Byte) {dataBuf : List Byte}
    (hbuf : k.request.wLength ≠ 0 → dataBuf = buf)
    (hx : turn x.hist x.origin x.start = begins k addr buf x.state)
    {post : Bool × List Byte → Trail Phase Drd WaitPoint Payload TlmResponse → Prop}
    (h : ∀ answered data buf' s, (k.request.wLength ≠ 0 → data = buf') →
      (k.request.wLength = 0 → buf' = buf) →
        post (answered,data) ⟨.closing k buf' answered,.woke .statusStage,s,s⟩) :
    (ctrlTransfer addr k.request dataBuf k.hostToDevice).wp machineSpec.setting post x := by
  rw [ctrlTransfer,Proc.wp_bind]
  refine routeTx_turns rfl rfl hx fun q r s => ?_
  rw [Proc.wp_bind,Proc.wp_sleep]
  refine sleep_turns rfl rfl fun s => ?_
  have hstatus : ∀ data buf' s₁, collect k addr buf s =
        sends (.status k addr buf') (statusPacket addr k.hostToDevice) s₁ →
      (k.request.wLength ≠ 0 → data = buf') → (k.request.wLength = 0 → buf' = buf) →
      (do
        let status ← hostBTransport (statusPacket addr k.hostToDevice)
        Proc.sleep .statusStage
        pure (decide (status = TlmResponse.ok),data)).wp machineSpec.setting post
          ⟨.settling k addr buf,.woke .setupStage,s,s₁⟩ := by
    intro data buf' s₁ hs₁ hdata hkeep
    rw [Proc.wp_bind]
    refine routeTx_turns (x := ⟨.settling k addr buf,.woke .setupStage,s,s₁⟩) rfl rfl hs₁
      fun q r s₂ => ?_
    rw [Proc.wp_bind,Proc.wp_sleep]
    exact sleep_turns rfl rfl fun s₃ => h _ data buf' s₃ hdata hkeep
  rw [Proc.wp_bind]
  refine dataStage_exact k.wLength_out (fun hlen hvalid => ?_) fun hno => ?_
  · exact hstatus _ _ _ (if_pos ⟨hlen,hvalid⟩) (fun _ => rfl) fun hzero => absurd hzero hlen
  · exact hstatus _ _ _ (if_neg hno) hbuf fun _ => rfl

theorem enumerateDevice_turns
    (hx : turn x.hist x.origin x.start = begins .device 0 [] x.state) :
    enumerateDevice.wp machineSpec.setting (fun _ => machineSpec.head .transferRing) x := by
  have hfail : ∀ {k buf s answered} {P : Prop}, k ≠ .bos → (answered = true → P) →
      (answered = false → machineSpec.head .transferRing
        ⟨.closing k buf answered,.woke .statusStage,s,s⟩) ∧ (answered = true → P) := by
    intro k buf s answered P hk hP
    refine ⟨?_,hP⟩
    rintro rfl
    refine .inr ⟨rfl,?_⟩
    cases k <;> first | rfl | exact absurd rfl hk
  refine enumerateDevice_wp _ x ?_
  refine ctrlTransfer_turns .device [] (fun _ => rfl) hx fun answered data buf s hdata _ => ?_
  obtain rfl := hdata (by decide)
  refine hfail (by simp) ?_
  rintro rfl
  -- the address
  refine ctrlTransfer_turns (.address s.hostCtrl.mNextAddr) data (fun h => absurd rfl h) rfl
    fun answered _ buf _ _ hkeep => ?_
  obtain rfl := hkeep rfl
  refine hfail (by simp) ?_
  rintro rfl
  refine sleep_turns rfl rfl fun u => ?_
  -- the configuration descriptor
  refine ctrlTransfer_turns .config buf (fun _ => rfl) rfl fun answered data buf _ hdata _ => ?_
  obtain rfl := hdata (by decide)
  refine hfail (by simp) ?_
  rintro rfl
  -- the BOS and the configuration
  refine ctrlTransfer_turns .bos [] (fun _ => rfl) rfl fun _ _ _ _ _ _ => ?_
  refine ctrlTransfer_turns .configure [] (fun _ => rfl) rfl fun answered _ _ _ _ _ => ?_
  refine hfail (by simp) ?_
  rintro rfl
  exact sleep_turns rfl rfl fun _ => .inr ⟨rfl,rfl⟩

theorem runTrb_turns {trb : Usb3Trb}
    (hx : turn x.hist x.origin x.start = sends (.transfer trb) (trbPacket trb) x.state) :
    (runTrb trb).wp machineSpec.setting (fun _ => machineSpec.head .transferRing) x := by
  rw [runTrb,Proc.wp_bind]
  refine routeTx_turns rfl rfl hx fun q r s => ?_
  rw [Proc.wp_bind,Spec.wp_modify,Proc.wp_ite]
  refine ⟨fun hioc => ?_,fun hioc => ?_⟩
  · rw [Proc.wp_bind,Spec.wp_modify,Proc.wp_bind,Proc.wp_sleep]
    have hturn : turn (.transfer trb) (.returned q r) s =
        waits .completing .xferPulse (writeXferDone true (receive trb s)) := if_pos hioc
    exact sleep_turns (x := ⟨.transfer trb,.returned q r,s,_⟩) rfl hturn fun s' => .inr ⟨rfl,rfl⟩
  · rw [Proc.wp_pure]
    exact .inr ⟨rfl,if_neg hioc⟩

theorem mainHead_turns (hx : turn x.hist x.origin x.start = mainHead x.state) :
    hostMainLoop.wp machineSpec.setting machineSpec.head x := by
  refine hostMainLoop_wp _ x (fun hoff => ?_) fun hon => ?_
  · refine sleep_turns rfl (hx.trans (if_pos hoff)) fun s => ?_
    exact enumerateDevice_turns rfl
  · exact enumerateDevice_turns (hx.trans (if_neg (by rw [hon]; simp)))

theorem ringHead_turns (hx : turn x.hist x.origin x.start = ringHead x.state) :
    processTransferRing.wp machineSpec.setting machineSpec.head x := by
  refine processTransferRing_wp _ x (fun hoff => ?_) (fun hon hring => ?_) fun trb rest hon hring => ?_
  · exact .inl ⟨rfl,by rw [hx,ringHead,mainHead,if_pos hoff,if_pos hoff]⟩
  · have hidle : turn x.hist x.origin x.start = waits .idle .trbComplete x.state := by
      rw [hx,ringHead,if_neg (by rw [hon]; simp),hring]
    exact sleep_turns rfl hidle fun s => .inr ⟨rfl,rfl⟩
  · refine runTrb_turns ?_
    rw [hx,ringHead,if_neg (by rw [hon]; simp),hring]

theorem machineSpec_loops : machineSpec.Loops loopCode := by
  rintro l x (⟨rfl,hx⟩ | ⟨rfl,hx⟩)
  · exact mainHead_turns hx
  · exact ringHead_turns hx

end Code

section Runs
variable {A : Type} {n : ℕ} {act : A → Drd → Option Drd} {present : Process → Bool} {g : Phase}
  {c c' : DrdConf n}

theorem machineSpec_meets (hhost : present .hostMainProcess = true) :
    Meets (kernelOf n act) (bootWith n present) (phases A n) (fun _ _ _ => True) hostThread
      machineSpec where
  loops := machineSpec_loops
  begins e p hp := by cases hp
  timed := bootWith_wellTimed
  start := by
    have hstart : (bootWith n present).thread hostThread = .ready .start hostMainProcess :=
      if_pos hhost
    rw [hstart]
    refine ⟨rfl,fun g s hg _ => ?_⟩
    obtain rfl : g = .boot := hg
    exact .inl ⟨rfl,rfl⟩
  refl _ _ := rfl
  trans _ _ _ _ _ _ h h' := h'.trans h
  own _ _ _ _ _ _ h := h
  leave g c o c' hloc _ := by simp [phases,hloc]
  peer g c u c' _ hne h := by
    have hnext : (phases A n).next g c (.eval u) c' = g := if_neg hne
    rw [hnext]
    exact ⟨h,rfl⟩
  act _ _ _ _ _ _ h := ⟨h,rfl⟩
  still g c l c' _ hl h := by
    cases l with
    | eval u => cases hl
    | _ => exact ⟨h,rfl⟩
  delta _ _ _ _ _ _ h := ⟨h,rfl⟩
  wake _ _ _ _ _ _ _ h := ⟨h,rfl⟩
  expire _ _ _ _ _ _ _ _ _ h := ⟨h,rfl⟩
  answer _ _ _ _ _ _ _ h := ⟨h,rfl⟩
  enter _ _ _ _ _ _ h := h.elim

theorem reach_stands (hhost : present .hostMainProcess = true)
    (hr : Reach (kernelOf n act) (bootWith n present) (phases A n) (fun _ _ _ => True) g c) :
    g.Stands (c.loc hostThread) := (machineSpec_meets hhost).held hr

theorem taken_turn (hhost : present .hostMainProcess = true)
    (ht : Taken (kernelOf n act) (bootWith n present) (phases A n) (fun _ _ _ => True) g c
      (.eval hostThread) c') :
    ∃ o, c.loc hostThread = .ready o ∧ g.Stands (.ready o) ∧
      c'.loc hostThread = (turn g o c.state).loc ∧ c'.state = (turn g o c.state).state := by
  obtain ⟨o,hloc,hstands,hguar⟩ := (machineSpec_meets hhost).guar ht
  exact ⟨o,hloc,hstands,hguar⟩

end Runs

def hostOwn (s : Drd) : Usb3DeviceInfo × BitVec 8 × List Byte :=
  (s.hostCtrl.mDev,s.hostCtrl.mNextAddr,s.hostCtrl.mRxBuf)

theorem hostOwn_kept {γ : Type} {n : ℕ}
    {w : Watch γ Drd WaitPoint Payload TlmResponse Loop Action Payload (Tid n)}
    {ok : γ → DrdConf n → DrdLabel Action n → Prop} {g : γ} {c c' : DrdConf n}
    {l : DrdLabel Action n} (ht : Taken (drdKernel n) (drdBoot n) w ok g c l c')
    (hl : l ≠ .eval hostThread) : hostOwn c'.state = hostOwn c.state := by
  cases l with
  | eval t =>
    have hside := hostSide_peer (fun h => hl (by rw [h])) ht
    exact congrArg (fun x => (x.1.mDev,x.1.mNextAddr,x.1.mRxBuf)) hside
  | _ =>
    refine step_keeps ht.step (by simp) (fun a s _ ha => ?_) fun _ => rfl
    have hkeep := congrArg hostOwn (Action.apply_unwritten ha)
    exact hkeep

/-- In every run of the device, whatever its environment does, the host thread stands where the
machine does, and each stretch of the thread is the turn of the machine: it writes the same
state, and ends in the same wait or with the same packet on its way. -/
theorem host_refines (n : ℕ) (g : Phase) (c : DrdConf n)
    (hr : Reach (drdKernel n) (drdBoot n) (phases Action n) (fun _ _ _ => True) g c) :
    g.Stands (c.loc hostThread) ∧ ∀ c', (drdKernel n).step c (.eval hostThread) = some c' →
      ∃ o, c.loc hostThread = .ready o ∧ c'.loc hostThread = (turn g o c.state).loc ∧
        c'.state = (turn g o c.state).state := by
  refine ⟨reach_stands rfl hr,fun c' hs => ?_⟩
  obtain ⟨o,hloc,-,hturn⟩ := taken_turn rfl ⟨hr,trivial,hs⟩
  exact ⟨o,hloc,hturn⟩

/-- The turn that begins a session: the host forgets its device, and the numbered SETUP packet that
asks for the device descriptor is on its way. -/
theorem host_refines_attached : ∃ c c',
    Taken (drdKernel 0) (drdBoot 0) (phases Action 0) (fun _ _ _ => True) .disabled c
      (.eval hostThread) c' ∧
    c.state.sigHostEnable.cur = true ∧ c.loc hostThread = .ready (.woke .enablePosedge) ∧
    c'.loc hostThread = .calling ((setupPacket 0 (descriptorRequest usbDescDevice 0)).numbered
      c.state.protocol.mSeqNum) ∧
    c'.state = { resetDev c.state with
      protocol := { c.state.protocol with mSeqNum := c.state.protocol.mSeqNum+1 } } := by
  obtain ⟨g,c,c',ht,rfl,hon⟩ := exists_taken (drdKernel 0) (drdBoot 0) (phases Action 0)
    (fun _ _ _ => True) (.eval hostThread)
    (fun g c _ => g = .disabled ∧ c.state.sigHostEnable.cur = true) (attachRun .ufpAttached)
    (by decide +kernel)
  obtain ⟨hstands,hturn⟩ := host_refines 0 _ c ht.reach
  obtain ⟨o,hloc,hloc',hstate⟩ := hturn c' ht.step
  rw [hloc] at hstands
  obtain rfl : o = .woke .enablePosedge := hstands.woke rfl
  rw [turn,begins,sends,Stage.request,stamp,if_pos (by decide)] at hloc' hstate
  exact ⟨c,c',ht,hon,hloc,hloc',hstate⟩

end HostMachine
end Usb3Drd
