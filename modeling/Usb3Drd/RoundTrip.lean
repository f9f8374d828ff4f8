import Usb3Drd.Enumeration

/-! The bulk loopback as the host sees it: what it reads back of the payloads that it sends
round after round to a configured device. -/
namespace Usb3Drd
namespace RoundTrip

open Coop HostController DeviceController ProtocolLayer Exchange

/-- Another state of an end, some time later, without other traffic: both controllers, the
role and the enables are the same. -/
def keep (s s' : Drd) : Drd :=
  { s' with
    sigRole := s.sigRole, sigHostEnable := s.sigHostEnable, sigDevEnable := s.sigDevEnable
    hostCtrl := s.hostCtrl, devCtrl := s.devCtrl }

def elapse (drift : WaitPoint → Ends Drd → Ends Drd) (w : WaitPoint) (x : Ends Drd) : Ends Drd :=
  ⟨keep x.left (drift w x).left,keep x.right (drift w x).right⟩

def spendEvent (s : Drd) : Drd := { s with devCtrl := { s.devCtrl with mOutEpEvent := false } }

def settle (drift : WaitPoint → Ends Drd → Ends Drd) (depth : ℕ) (x : Ends Drd) :
    Option (Ends Drd) :=
  if x.right.devCtrl.mOutEpEvent = true then
    (loopbackLoop.interp (endHandler (elapse drift) (deliver (elapse drift) depth .left) .right)
      (x.set .right (spendEvent x.right))).map (·.2)
  else some x

/-- The host at its end of the link. The loopback settles while the host waits. -/
def bench (drift : WaitPoint → Ends Drd → Ends Drd) (depth : ℕ) :
    Handler Drd WaitPoint Payload TlmResponse (Ends Drd) where
  state x := x.left
  store s x := x.set .left s
  wait w x := settle drift depth (elapse drift w x)
  call q x := deliver (elapse drift) depth .right q x

def transfer (drift : WaitPoint → Ends Drd → Ends Drd) (depth : ℕ) (request : Drd → Option Drd)
    (x : Ends Drd) : Option (Ends Drd) :=
  (request x.left).bind fun s =>
    (processTransferRing.interp (bench drift depth) (elapse drift .trbComplete (x.set .left s))).map
      (·.2)

/-- A payload is sent to endpoint 2 and asked back from endpoint 1. -/
def round (drift : WaitPoint → Ends Drd → Ends Drd) (depth : ℕ) (addr : BitVec 8) (p : List Byte)
    (x : Ends Drd) : Option (Ends Drd) :=
  (transfer drift depth (bulkOut addr 2 p) x).bind
    (transfer drift depth (bulkIn addr 1 (.ofNat 64 p.length)))

def rounds (drift : WaitPoint → Ends Drd → Ends Drd) (depth : ℕ) (addr : BitVec 8) :
    List (List Byte) → Ends Drd → Option (List (List Byte))
  | [], _ => some []
  | p::ps, x => (round drift depth addr p x).bind fun y =>
    (rounds drift depth addr ps y).map (y.left.hostCtrl.mRxBuf::·)

structure Joined (x : Ends Drd) : Prop where
  role : x.left.sigRole.cur = .host
  enable : x.left.sigHostEnable.cur = true
  ring : x.left.hostCtrl.mTransferRing = []
  device : Answering x.right
  configured : x.right.devCtrl.mConfigured = true

/-- What an IN transfer that brings nothing leaves in the receive buffer. -/
def stale (h : HostController) : List Byte :=
  if h.mRespValid = true then h.mRespData else h.mRxBuf

/-- The receive buffers that follow from the payloads: an empty one brings nothing. -/
def received : List Byte → List (List Byte) → List (List Byte)
  | _, [] => []
  | r, p::ps => (if p = [] then r else p)::received (if p = [] then r else p) ps

theorem received_eq_iff (r : List Byte) (ps : List (List Byte)) :
    received r ps = ps ↔ (r::ps).IsChain fun p q => q = [] → p = [] := by
  induction ps generalizing r with
  | nil => simp [received]
  | cons p ps ih =>
    rw [received,List.isChain_cons_cons,List.cons.injEq]
    by_cases hp : p = []
    · subst hp
      rw [if_pos rfl]
      constructor
      · rintro ⟨rfl,hrest⟩
        exact ⟨fun _ => rfl,(ih []).mp hrest⟩
      · rintro ⟨hr,hrest⟩
        obtain rfl := hr rfl
        exact ⟨rfl,(ih []).mpr hrest⟩
    · rw [if_neg hp,ih p]
      simp [hp]

theorem receive_out {trb : Usb3Trb} (hdir : trb.direction = .hostToDevice) (s : Drd) :
    receive trb s = s := by
  rw [receive,if_neg (by rw [hdir]; simp)]

theorem receive_in (trb : Usb3Trb) (hdir : trb.direction = .deviceToHost) (s : Drd) :
    receive trb s = { s with hostCtrl := { s.hostCtrl with
      mRxBuf := stale s.hostCtrl, mRespValid := false
      mRespData := if s.hostCtrl.mRespValid = true then [] else s.hostCtrl.mRespData } } := by
  rw [receive,stale]
  by_cases hvalid : s.hostCtrl.mRespValid = true
  · rw [if_pos ⟨hdir,hvalid⟩,if_pos hvalid,if_pos hvalid]
  · rw [if_neg fun h => hvalid h.2,if_neg hvalid,if_neg hvalid]
    have hoff : s.hostCtrl.mRespValid = false := by simpa using hvalid
    rw [← hoff]

theorem stale_store (p : List Byte) (s : Drd) :
    stale (storeResponse p s).hostCtrl = if p = [] then stale s.hostCtrl else p := by
  rw [storeResponse]
  by_cases hp : p = []
  · rw [if_pos hp,if_pos hp]
  · rw [if_neg hp,if_neg hp]
    rfl

theorem Joined.store {x : Ends Drd} (h : Joined x) (p : List Byte) :
    Joined (x.set .left (storeResponse p x.left)) := by
  by_cases hp : p = []
  · rw [storeResponse,if_pos hp]
    exact h
  · rw [storeResponse,if_neg hp]
    exact ⟨h.role,h.enable,h.ring,h.device,h.configured⟩

section Transfers
variable (drift : WaitPoint → Ends Drd → Ends Drd) (n : ℕ) {x : Ends Drd}

theorem bench_lawful (depth : ℕ) : (bench drift depth).Lawful := ⟨fun _ _ => rfl,fun _ => rfl⟩

theorem settle_spec (h : Joined x) (hevent : x.right.devCtrl.mOutEpEvent = true) {p : List Byte}
    (hdata : x.right.devCtrl.mEp2Out = ⟨p,true⟩) :
    ∃ y, settle drift (n+1) x = some y ∧ Joined y ∧ y.left.hostCtrl = x.left.hostCtrl ∧
      y.right.devCtrl.mEp1In = ⟨p,true⟩ ∧ y.right.devCtrl.mOutEpEvent = false := by
  let env := endHandler (Q := Payload) (R := TlmResponse) (elapse drift)
    (deliver (elapse drift) (n+1) .left) .right
  let x₁ := elapse drift .outEp (x.set .right (spendEvent x.right))
  have hwait : env.wait .outEp (x.set .right (spendEvent x.right)) = some x₁ := rfl
  have hfull : x₁.right.devCtrl.mEp2Out = ⟨p,true⟩ := hdata
  obtain ⟨q,layer,hq,-,hturn⟩ := loopbackLoop_full (endHandler_lawful _ _ _) hwait h.configured
    (congrArg Usb3EpFifo.hasData hfull)
  let x₂ := x₁.set .right { moveLoopback x₁.right with protocol := layer }
  have hstays : deliver (elapse drift) (n+1) .left q x₂ = some (q.response,x₂) := by
    have hf : isForwarded q = false := by simp [isForwarded,hq]
    rw [deliver_eq,if_neg (by simp [hf])]
  let x₃ := elapse drift .bulkIrqPulse (x₂.set .right (writeBulkIrq true x₂.right))
  refine ⟨x₃.set .right (writeBulkIrq false x₃.right),?_,⟨h.role,h.enable,h.ring,h.device,h.configured⟩,
    rfl,congrArg (fun d : Usb3EpFifo => Usb3EpFifo.write {} d.buffer) hfull,rfl⟩
  rw [settle,if_pos hevent]
  show (loopbackLoop.interp env _).map _ = _
  rw [hturn]
  show ((deliver (elapse drift) (n+1) .left q x₂).bind _).map _ = _
  rw [hstays]
  rfl

theorem serve_bulkOut (h : Answering x.right) {q : Payload} (hty : q.pktType = some .bulkOut) :
    deliver (elapse drift) (n+1) .right q x = some (.ok,x.set .right { x.right with
      devCtrl := { x.right.devCtrl with mEp2Out := ⟨q.data,true⟩, mOutEpEvent := true } }) := by
  have hf : isForwarded q = true := by simp [isForwarded,hty]
  obtain ⟨ext,hext,hdeliver⟩ := deliver_reaction (elapse drift) n (i := .right) h hf hty
  rw [hdeliver,reaction,hext]
  simp only [handleBulkOut,Proc.interp_bind,Proc.interp_modify,Option.bind_some,Proc.interp_pure,
    markStall_data]
  rfl

theorem serve_bulkIn (hrole : x.left.sigRole.cur = .host) (h : Answering x.right) {q : Payload}
    (hty : q.pktType = some .bulkIn) {p : List Byte} (hdata : x.right.devCtrl.mEp1In = ⟨p,true⟩) :
    ∃ layer, deliver (elapse drift) (n+2) .right q x = some (.ok,
      ⟨storeResponse p x.left,{ x.right with
        protocol := layer, devCtrl := { x.right.devCtrl with mEp1In := .clear } }⟩) := by
  have hf : isForwarded q = true := by simp [isForwarded,hty]
  obtain ⟨ext,hext,hdeliver⟩ := deliver_reaction (elapse drift) (n+1) (i := .right) h hf hty
  let x₁ := x.set .right { x.right with devCtrl := { x.right.devCtrl with mEp1In := .clear } }
  obtain ⟨q',layer,hq',hdata',-,hsend⟩ := sendToProtocol_interp
    (endHandler_lawful (elapse drift) (deliver (elapse drift) (n+1) .left) .right)
    .bulkIn 1 .deviceToHost p .bulk x₁
  have hf' : isForwarded q' = true := by simp [isForwarded,hq']
  have hreply : deliver (elapse drift) (n+1) .left q'
      (x₁.set .right { x₁.get .right with protocol := layer }) = some (q'.response,
        ⟨storeResponse p x.left,{ x₁.right with protocol := layer }⟩) := by
    rw [deliver_eq,if_pos hf',hdata']
    simp only [Ends.get,Ends.set,x₁,hrole]
  refine ⟨layer,?_⟩
  rw [hdeliver,reaction,hext]
  simp only [handleBulkIn,Proc.interp_bind,Proc.interp_read,Option.bind_some,Proc.interp_ite,
    endHandler_state,Ends.get,hdata,if_true,Proc.interp_modify,endHandler_store]
  show ((sendBulkIn p 1).interp _ x₁).bind _ = _
  rw [Side.other,sendBulkIn,hsend]
  simp only [endHandler_call,endHandler_store,endHandler_state]
  rw [hreply]
  rfl

theorem run_spec {request : Drd → Option Drd} {trb : Usb3Trb} (h : Joined x)
    (hs : request x.left = some { x.left with hostCtrl := { x.left.hostCtrl with
      mTransferRing := [trb], mTrbCompleteEvent := true } }) (hioc : trb.ioc = true) :
    ∃ k x₁, Joined x₁ ∧ x₁.right.devCtrl = x.right.devCtrl ∧
      x₁.left.hostCtrl = { x.left.hostCtrl with mTrbCompleteEvent := true } ∧
      transfer drift (n+2) request x =
        (deliver (elapse drift) (n+2) .right ((trbPacket trb).numbered k) x₁).bind fun y =>
          (settle drift (n+2) (elapse drift .xferPulse
            (y.2.set .left (writeXferDone true (receive trb y.2.left))))).map fun z =>
              z.set .left (writeXferDone false z.left) := by
  let s : Drd := { x.left with hostCtrl := { x.left.hostCtrl with
      mTransferRing := [trb], mTrbCompleteEvent := true } }
  let x₀ := elapse drift .trbComplete (x.set .left s)
  have henable : ((bench drift (n+2)).state x₀).sigHostEnable.cur = true := h.enable
  have hring : ((bench drift (n+2)).state x₀).hostCtrl.mTransferRing = [trb] := rfl
  have hturn := processTransferRing_interp henable hring
  obtain ⟨k,layer,hrun⟩ := runTrb_interp (bench_lawful drift (n+2)) hioc
    ((bench drift (n+2)).store (setRing [] ((bench drift (n+2)).state x₀)) x₀)
  let x₁ := x₀.set .left { setRing [] x₀.left with protocol := layer }
  have hhost : x₁.left.hostCtrl = { x.left.hostCtrl with mTrbCompleteEvent := true } := by
    show { x.left.hostCtrl with mTransferRing := [], mTrbCompleteEvent := true } = _
    rw [← h.ring]
  refine ⟨k,x₁,⟨h.role,h.enable,rfl,h.device,h.configured⟩,rfl,hhost,?_⟩
  rw [transfer,hs,Option.bind_some]
  show ((processTransferRing.interp (bench drift (n+2)) x₀).map (·.2)) = _
  rw [hturn,hrun,Option.map_map,Option.map_bind]
  refine congrArg (Option.bind _) (funext fun y => ?_)
  simp only [Function.comp_apply,Option.map_map]
  rfl

/-- After an OUT transfer its payload waits in endpoint 1, and the host has nothing new. -/
theorem out_spec (h : Joined x) (addr : BitVec 8) (p : List Byte) :
    ∃ y, transfer drift (n+2) (bulkOut addr 2 p) x = some y ∧ Joined y ∧
      stale y.left.hostCtrl = stale x.left.hostCtrl ∧ y.right.devCtrl.mEp1In = ⟨p,true⟩ ∧
      y.right.devCtrl.mOutEpEvent = false := by
  let trb : Usb3Trb :=
    { devAddr := addr, endpoint := 2, direction := .hostToDevice, epType := .bulk, payload := p
      trbLength := (BitVec.ofNat 64 p.length).setWidth 32, ioc := true }
  have hrequest : bulkOut addr 2 p x.left = some { x.left with hostCtrl := { x.left.hostCtrl with
      mTransferRing := [trb], mTrbCompleteEvent := true } } := by
    rw [bulkOut,enqueueBulkTrb,h.ring]
    rfl
  obtain ⟨k,x₁,h₁,hdevice,hhost,hrun⟩ := run_spec drift n h hrequest rfl
  have hserve := serve_bulkOut drift (n+1) h₁.device (q := (trbPacket trb).numbered k) rfl
  let y₁ := x₁.set .right { x₁.right with
    devCtrl := { x₁.right.devCtrl with mEp2Out := ⟨p,true⟩, mOutEpEvent := true } }
  let y₂ := elapse drift .xferPulse (y₁.set .left (writeXferDone true (receive trb y₁.left)))
  have hreceive : receive trb y₁.left = y₁.left := receive_out rfl _
  have hleft : y₂.left.hostCtrl = x₁.left.hostCtrl := by
    show (receive trb y₁.left).hostCtrl = _
    rw [hreceive]
    rfl
  have h₂ : Joined y₂ := by
    refine ⟨?_,?_,?_,h₁.device,h₁.configured⟩
    · show (receive trb y₁.left).sigRole.cur = _
      rw [hreceive]
      exact h₁.role
    · show (receive trb y₁.left).sigHostEnable.cur = _
      rw [hreceive]
      exact h₁.enable
    · rw [hleft]
      exact h₁.ring
  obtain ⟨y₃,hsettle,h₃,hleft₃,hin,hevent⟩ := settle_spec drift (n+1) h₂ rfl (p := p) rfl
  refine ⟨y₃.set .left (writeXferDone false y₃.left),?_,?_,?_,hin,hevent⟩
  · rw [hrun,hserve,Option.bind_some]
    show (settle drift (n+2) y₂).map _ = _
    rw [hsettle]
    rfl
  · exact ⟨h₃.role,h₃.enable,h₃.ring,h₃.device,h₃.configured⟩
  · show stale y₃.left.hostCtrl = _
    rw [hleft₃,hleft,hhost]
    rfl

/-- An IN transfer brings what endpoint 1 held, or if that is nothing what was left over. -/
theorem in_spec (h : Joined x) (addr : BitVec 8) (len : BitVec 64) {p : List Byte}
    (hdata : x.right.devCtrl.mEp1In = ⟨p,true⟩) (hevent : x.right.devCtrl.mOutEpEvent = false) :
    ∃ y, transfer drift (n+2) (bulkIn addr 1 len) x = some y ∧ Joined y ∧
      y.left.hostCtrl.mRxBuf = (if p = [] then stale x.left.hostCtrl else p) ∧
      y.left.hostCtrl.mRespValid = false := by
  let trb : Usb3Trb :=
    { devAddr := addr, endpoint := 1, direction := .deviceToHost, epType := .bulk
      trbLength := len.setWidth 32, ioc := true }
  have hrequest : bulkIn addr 1 len x.left = some { x.left with hostCtrl := { x.left.hostCtrl with
      mTransferRing := [trb], mTrbCompleteEvent := true } } := by
    rw [bulkIn,enqueueBulkTrb,h.ring]
    rfl
  obtain ⟨k,x₁,h₁,hdevice,hhost,hrun⟩ := run_spec drift n h hrequest rfl
  obtain ⟨layer,hserve⟩ := serve_bulkIn drift n h₁.role h₁.device
    (q := (trbPacket trb).numbered k) rfl (p := p) (by rw [hdevice]; exact hdata)
  let r : Drd := { x₁.right with
    protocol := layer, devCtrl := { x₁.right.devCtrl with mEp1In := .clear } }
  let y₁ : Ends Drd := ⟨storeResponse p x₁.left,r⟩
  have hj₁ : Joined (x₁.set .left (storeResponse p x₁.left)) := h₁.store p
  let s : Drd := receive trb y₁.left
  have hs := receive_in trb rfl y₁.left
  have hrx : s.hostCtrl.mRxBuf = if p = [] then stale x.left.hostCtrl else p := by
    have hsame : stale x₁.left.hostCtrl = stale x.left.hostCtrl := by rw [hhost]; rfl
    rw [← hsame,← stale_store]
    show (receive trb y₁.left).hostCtrl.mRxBuf = _
    rw [hs]
  let y₂ := elapse drift .xferPulse (y₁.set .left (writeXferDone true s))
  have hquiet : y₂.right.devCtrl.mOutEpEvent = false := by
    show x₁.right.devCtrl.mOutEpEvent = false
    rw [hdevice,hevent]
  refine ⟨y₂.set .left (writeXferDone false y₂.left),?_,?_,hrx,?_⟩
  · rw [hrun,hserve,Option.bind_some]
    show (settle drift (n+2) y₂).map _ = _
    rw [settle,if_neg (by simp [hquiet])]
    rfl
  · refine ⟨?_,?_,?_,h₁.device,h₁.configured⟩
    · show (receive trb y₁.left).sigRole.cur = _
      rw [hs]
      exact hj₁.role
    · show (receive trb y₁.left).sigHostEnable.cur = _
      rw [hs]
      exact hj₁.enable
    · show (receive trb y₁.left).hostCtrl.mTransferRing = _
      rw [hs]
      exact hj₁.ring
  · show (receive trb y₁.left).hostCtrl.mRespValid = _
    rw [hs]

theorem round_spec (h : Joined x) (addr : BitVec 8) (p : List Byte) :
    ∃ y, round drift (n+2) addr p x = some y ∧ Joined y ∧
      y.left.hostCtrl.mRxBuf = (if p = [] then stale x.left.hostCtrl else p) ∧
      y.left.hostCtrl.mRespValid = false := by
  obtain ⟨y₁,hout,h₁,hstale,hfull,hevent⟩ := out_spec drift n h addr p
  obtain ⟨y₂,hin,h₂,hrx,hvalid⟩ := in_spec drift n h₁ addr (.ofNat 64 p.length) hfull hevent
  refine ⟨y₂,?_,h₂,?_,hvalid⟩
  · rw [round,hout,Option.bind_some,hin]
  · rw [hrx,hstale]

theorem rounds_spec (h : Joined x) (addr : BitVec 8) (ps : List (List Byte)) :
    rounds drift (n+2) addr ps x = some (received (stale x.left.hostCtrl) ps) := by
  induction ps generalizing x with
  | nil => rfl
  | cons p ps ih =>
    obtain ⟨y,hround,hy,hrx,hvalid⟩ := round_spec drift n h addr p
    have hstale : stale y.left.hostCtrl = y.left.hostCtrl.mRxBuf := if_neg (by simp [hvalid])
    rw [rounds,hround,Option.bind_some,ih hy,hstale,hrx,received]
    rfl

end Transfers

/-- Every round completes, and every payload is read back in its round exactly if no empty
one comes after one that is not, what was left over at the beginning counting as the first. -/
theorem readBack_iff (drift : WaitPoint → Ends Drd → Ends Drd) (depth : ℕ) (addr : BitVec 8)
    (ps : List (List Byte)) (x : Ends Drd) (h : Joined x) :
    ∃ rs, rounds drift (depth+2) addr ps x = some rs ∧
      (rs = ps ↔ (stale x.left.hostCtrl::ps).IsChain fun p q => q = [] → p = []) :=
  ⟨_,rounds_spec drift depth h addr ps,received_eq_iff _ ps⟩

theorem isChain_iff_nonempty {r : List Byte} (hr : r ≠ []) (ps : List (List Byte)) :
    ((r::ps).IsChain fun p q => q = [] → p = []) ↔ ∀ p ∈ ps, p ≠ [] := by
  induction ps generalizing r with
  | nil => simp
  | cons p ps ih =>
    rw [List.isChain_cons_cons,List.forall_mem_cons]
    constructor
    · rintro ⟨hp,hrest⟩
      have hne : p ≠ [] := fun h => hr (hp h)
      exact ⟨hne,(ih hne).mp hrest⟩
    · rintro ⟨hne,hrest⟩
      exact ⟨fun h => absurd h hne,(ih hne).mpr hrest⟩

/-- Every enumeration leaves a zero over, so after it every payload is read back exactly if
none is empty. -/
theorem readBack_afterEnumeration (drift : WaitPoint → Ends Drd → Ends Drd) (depth n : ℕ)
    (x : Ends Drd) (hx : Enumeration.Ready n x) :
    ∃ w, enumerateDevice.interp (Enumeration.bench drift (depth+2)) ⟨x,[]⟩ = some ((),w) ∧
      ∀ drift' addr ps, Joined w.ends → ∃ rs, rounds drift' (depth+2) addr ps w.ends = some rs ∧
        (rs = ps ↔ ∀ p ∈ ps, p ≠ []) := by
  obtain ⟨w,hw,hend,-,-⟩ := Enumeration.enumerateDevice_spec drift depth (x := ⟨x,[]⟩) hx.sees
  have hvalid : w.ends.left.hostCtrl.mRespValid = true := congrArg HostController.mRespValid hend.host
  have hmail : w.ends.left.hostCtrl.mRespData = [0] := congrArg HostController.mRespData hend.host
  have hstale : stale w.ends.left.hostCtrl = [0] := by rw [stale,if_pos hvalid,hmail]
  refine ⟨w,hw,fun drift' addr ps hj => ⟨_,rounds_spec drift' depth hj addr ps,?_⟩⟩
  rw [hstale,received_eq_iff,isChain_iff_nonempty (by simp)]

def enumerated : Ends Drd where
  left :=
    { sigRole := .steady .host
      sigHostEnable := .steady true
      hostCtrl :=
        { mNextAddr := 2, mRespData := [0], mRespValid := true
          mDev := { addr := 1, activeConfig := 1, enumerated := true } } }
  right :=
    { sigRole := .steady .device
      sigDevEnable := .steady true
      devCtrl := { mAssignedAddr := 1, mConfigured := true } }

theorem joined_enumerated : Joined enumerated := ⟨rfl,rfl,rfl,⟨rfl,rfl⟩,rfl⟩

theorem readBack_three : rounds (fun _ x => x) 2 1 [[1,2,3],[4],[5,6]] enumerated =
    some [[1,2,3],[4],[5,6]] := by
  obtain ⟨rs,hrs,hiff⟩ := readBack_iff (fun _ x => x) 0 1 [[1,2,3],[4],[5,6]] enumerated
    joined_enumerated
  have hsame : rs = [[1,2,3],[4],[5,6]] := hiff.mpr (by decide)
  rw [hrs,hsame]

/-- An empty payload right after the enumeration is read back as the zero of its last status
stage. -/
theorem not_readBack_empty : ¬∀ drift depth addr ps x, Joined x →
    ∀ rs, rounds drift (depth+2) addr ps x = some rs → rs = ps := by
  intro hall
  have hround := rounds_spec (fun _ x => x) 0 joined_enumerated 1 [[]]
  have hsame := hall _ 0 1 [[]] enumerated joined_enumerated _ hround
  cases hsame

end RoundTrip
end Usb3Drd
