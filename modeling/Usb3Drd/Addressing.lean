import Usb3Drd.Link

/-! The addresses that a host gives a device, enumeration after enumeration, with the
two joined by a link. -/
namespace Usb3Drd
namespace Addressing

open Coop HostController DeviceController Exchange Link

/-- Another state of the host: anything may have changed but its role, its address
counter, what it knows of the device, and the address it shows. -/
def keepHost (s s' : Drd) : Drd :=
  { s' with
    sigRole := s.sigRole
    sigDevAddr := { s'.sigDevAddr with nxt := s.sigDevAddr.nxt }
    hostCtrl := { s'.hostCtrl with mNextAddr := s.hostCtrl.mNextAddr, mDev := s.hostCtrl.mDev } }

def keepDevice (s s' : Drd) : Drd :=
  { s' with
    sigRole := s.sigRole
    sigDevEnable := s.sigDevEnable
    devCtrl := { s'.devCtrl with mAssignedAddr := s.devCtrl.mAssignedAddr } }

def elapse (drift : WaitPoint → Ends Drd → Ends Drd) (w : WaitPoint) (x : Ends Drd) : Ends Drd :=
  ⟨keepHost x.left (drift w x).left,keepDevice x.right (drift w x).right⟩

/-- The address that a SET_ADDRESS request passes. -/
def passed (q : Payload) : List ℕ :=
  match q.ext with
  | some ext => if ext.pktType = .setup ∧ ext.setup.bRequest = usbReqSetAddress then
      [ext.setup.wValue.toNat] else []
  | none => []

abbrev Wire := Linked ℕ

def wireHandler (drift : WaitPoint → Ends Drd → Ends Drd) (depth : ℕ) :
    Handler Drd WaitPoint Payload TlmResponse Wire :=
  hostHandler (elapse drift) (fun q _ => passed q) (fun _ => []) depth

/-- Before an enumeration anything may have happened, but the counter of the host is
where the last one left it, and its peer is an enabled device. -/
def prepare (x x' : Ends Drd) : Wire where
  ends :=
    { left := { x'.left with
        sigRole := .steady .host
        hostCtrl := { x'.left.hostCtrl with mNextAddr := x.left.hostCtrl.mNextAddr } }
      right := { x'.right with sigRole := .steady .device, sigDevEnable := .steady true } }
  log := []

/-- The outcome of the enumeration that follows `n` earlier ones since reset. -/
def enumeration (drift : WaitPoint → Ends Drd → Ends Drd) (between : ℕ → Ends Drd → Ends Drd)
    (depth : ℕ) : ℕ → Option Wire
  | 0 => run ⟨.reset,.reset⟩ 0
  | n+1 => (enumeration drift between depth n).bind fun w => run w.ends (n+1)
where
  run (x : Ends Drd) (n : ℕ) : Option Wire :=
    (enumerateDevice.interp (wireHandler drift depth) (prepare x (between n x))).map (·.2)

structure View where
  next : BitVec 8
  stored : BitVec 8
  shown : BitVec 8
  assigned : BitVec 8

/-- The host sees its peer as an enabled device, with the given view of the addresses. -/
structure Sees (x : Ends Drd) (v : View) : Prop where
  host : x.left.sigRole.cur = .host
  device : Answering x.right
  next : x.left.hostCtrl.mNextAddr = v.next
  stored : x.left.hostCtrl.mDev.addr = v.stored
  shown : x.left.sigDevAddr.nxt = v.shown
  assigned : x.right.devCtrl.mAssignedAddr = v.assigned

def View.after (v : View) (setup : Usb3SetupPkt) : View :=
  if setup.bRequest = usbReqSetAddress then
    { v with assigned := (setup.wValue &&& 0x7F).setWidth 8 }
  else v

def passedBy (setup : Usb3SetupPkt) : List ℕ :=
  if setup.bRequest = usbReqSetAddress then [setup.wValue.toNat] else []

theorem passed_setupPacket (a : BitVec 8) (setup : Usb3SetupPkt) (k : BitVec 32) :
    passed ((setupPacket a setup).numbered k) = passedBy setup := by
  by_cases haddr : setup.bRequest = usbReqSetAddress
  · rw [passedBy,if_pos haddr]
    simp [passed,setupPacket,Payload.numbered,makeUsb3Ext,haddr]
  · rw [passedBy,if_neg haddr]
    simp [passed,setupPacket,Payload.numbered,makeUsb3Ext,haddr]

/-- The mailbox is no part of the view, so nothing but an address request changes it. -/
def observer (drift : WaitPoint → Ends Drd → Ends Drd) :
    Observer (elapse drift) (fun q _ => passed q) (fun _ => []) View where
  Sees := Sees
  post _ v := v
  drain v := v
  serve r v := v.after r
  asked r _ := passedBy r
  level _ := []
  role h := h.host
  answering h := h.device
  elapsed w h := ⟨h.host,h.device,h.next,h.stored,h.shown,h.assigned⟩
  stamped i layer h := by
    cases i <;> exact ⟨h.host,h.device,h.next,h.stored,h.shown,h.assigned⟩
  posted data h := by
    unfold storeResponse
    split
    · exact h
    · exact ⟨h.host,h.device,h.next,h.stored,h.shown,h.assigned⟩
  drained h := ⟨h.host,h.device,h.next,h.stored,h.shown,h.assigned⟩
  addressed hr h := by
    rw [View.after,if_pos hr]
    exact ⟨h.host,h.device,h.next,h.stored,h.shown,rfl⟩
  configured hr h := by
    rw [View.after,if_neg (by rw [hr]; decide)]
    exact ⟨h.host,h.device,h.next,h.stored,h.shown,h.assigned⟩
  described hr _ h := by rw [View.after,if_neg (by rw [hr]; decide)]
  calledSetup a r k _ := passed_setupPacket a r k
  calledStatus _ _ _ _ := rfl
  waitedLevel _ := rfl
  level_post _ _ := rfl
  level_drain _ := rfl
  level_serve _ _ := rfl
  post_drain _ := rfl

theorem served (drift : WaitPoint → Ends Drd → Ends Drd) (r : Usb3SetupPkt) (v : View) :
    (observer drift).post [0] ((observer drift).serve r v) = v.after r := rfl

theorem after_other (v : View) {r : Usb3SetupPkt} (hr : r.bRequest ≠ usbReqSetAddress) :
    v.after r = v := if_neg hr

theorem after_address (v : View) (a : BitVec 8) :
    v.after (addressRequest a) = { v with assigned := a &&& 0x7F } := by
  have haddr : (addressRequest a).bRequest = usbReqSetAddress := rfl
  rw [View.after,if_pos haddr,masked_address]

def course (drift : WaitPoint → Ends Drd → Ends Drd) (v : View) : (observer drift).Course v where
  addr := v.next
  taken := { v with next := v.next+1 }
  settled := ⟨v.next+1,v.next,v.next,v.next &&& 0x7F⟩
  noted _ := ⟨v.next+1,v.next,v.next,v.next &&& 0x7F⟩
  raised := ⟨v.next+1,v.next,v.next,v.next &&& 0x7F⟩
  takes {x z buf} _ _ h := by
    rw [served,after_other v (by decide)] at h
    exact ⟨h.next,h.host,h.device,by rw [← h.next]; rfl,(noteDevice_addr _ _).trans h.stored,h.shown,
      h.assigned⟩
  settles {x} h := by
    rw [served,after_address] at h
    exact ⟨h.host,h.device,h.next,rfl,rfl,h.assigned⟩
  notes {x} buf h := by
    rw [served,after_other _ (by decide)] at h
    exact ⟨h.host,h.device,h.next,(noteConfig_addr _ _).trans h.stored,h.shown,h.assigned⟩
  raises {x _} h := by
    rw [served,served,after_other _ (by decide),after_other _ (by decide)] at h
    exact ⟨h.host,h.device,h.next,h.stored,h.shown,h.assigned⟩

theorem course_log (drift : WaitPoint → Ends Drd → Ends Drd) (v : View) (buf : List Byte) :
    (course drift v).log buf = [v.next.toNat] := by
  have hvalue : (addressRequest v.next).wValue.toNat = v.next.toNat := by
    have hlt := v.next.isLt
    simp only [addressRequest,BitVec.toNat_setWidth]
    omega
  have haddr : (addressRequest v.next).bRequest = usbReqSetAddress := rfl
  have hpassed : passedBy (addressRequest v.next) = [v.next.toNat] := by
    rw [passedBy,if_pos haddr,hvalue]
  exact hpassed

theorem enumerateDevice_spec (drift : WaitPoint → Ends Drd → Ends Drd) (n : ℕ) {x : Wire} {v : View}
    (h : Sees x.ends v) : ∃ y, enumerateDevice.interp (wireHandler drift (n+2)) x = some ((),y) ∧
      Sees y.ends ⟨v.next+1,v.next,v.next,v.next &&& 0x7F⟩ ∧ y.log = x.log ++ [v.next.toNat] := by
  obtain ⟨_,y,hy,z,buf,hz,hlog,hends⟩ := (course drift v).enumerateDevice_spec n h
  replace hz : Sees z ⟨v.next+1,v.next,v.next,v.next &&& 0x7F⟩ := hz
  rw [course_log] at hlog
  refine ⟨y,hy,?_,hlog⟩
  rw [hends]
  exact ⟨hz.host,hz.device,hz.next,hz.stored,hz.shown,hz.assigned⟩

section Runs
variable (drift : WaitPoint → Ends Drd → Ends Drd) (between : ℕ → Ends Drd → Ends Drd) (depth : ℕ)

def address (n : ℕ) : BitVec 8 := .ofNat 8 (n+1)

theorem address_succ (n : ℕ) : address (n+1) = address n + 1 := BitVec.ofNat_add (n+1) 1

theorem run_spec (x : Ends Drd) (n : ℕ) (hnext : x.left.hostCtrl.mNextAddr = address n) :
    ∃ w, enumeration.run drift between (depth+2) x n = some w ∧
      Sees w.ends ⟨address (n+1),address n,address n,address n &&& 0x7F⟩ ∧
      w.log = [(address n).toNat] := by
  let x' := between n x
  have hx : Sees (prepare x x').ends ⟨address n,x'.left.hostCtrl.mDev.addr,x'.left.sigDevAddr.nxt,
      x'.right.devCtrl.mAssignedAddr⟩ := ⟨rfl,⟨rfl,rfl⟩,hnext,rfl,rfl,rfl⟩
  obtain ⟨w,hw,hsees,hpassed⟩ := enumerateDevice_spec drift depth hx
  refine ⟨w,?_,address_succ n ▸ hsees,hpassed⟩
  rw [enumeration.run,hw]
  rfl

/-- Every enumeration succeeds, with the addresses that follow from its number alone. -/
theorem enumeration_spec (n : ℕ) : ∃ w, enumeration drift between (depth+2) n = some w ∧
    Sees w.ends ⟨address (n+1),address n,address n,address n &&& 0x7F⟩ ∧
    w.log = [(address n).toNat] := by
  induction n with
  | zero => exact run_spec drift between depth ⟨.reset,.reset⟩ 0 rfl
  | succ n ih =>
    obtain ⟨w,hw,hsees,-⟩ := ih
    obtain ⟨w',hw',hsees',hpassed'⟩ := run_spec drift between depth w.ends (n+1) hsees.next
    exact ⟨w',by rw [enumeration,hw,Option.bind_some,hw'],hsees',hpassed'⟩

/-- One valid address was passed to the device, and both ends and the register agree on it. -/
def Agreed (w : Wire) : Prop :=
  ∃ a, w.log = [a] ∧ 1 ≤ a ∧ a ≤ 127 ∧ w.ends.left.hostCtrl.mDev.addr.toNat = a ∧
    w.ends.left.sigDevAddr.nxt.toNat = a ∧ w.ends.right.devCtrl.mAssignedAddr.toNat = a

theorem address_toNat (n : ℕ) : (address n).toNat = (n+1) % 256 := BitVec.toNat_ofNat (n+1) 8

theorem masked_toNat (a : BitVec 8) : (a &&& 0x7F).toNat = a.toNat % 128 := by
  have hmask : (0x7F : BitVec 8).toNat = 2^7-1 := rfl
  rw [BitVec.toNat_and,hmask,Nat.and_two_pow_sub_one_eq_mod]

theorem agreed_of_view {w : Wire} {n : ℕ}
    (hsees : Sees w.ends ⟨address (n+1),address n,address n,address n &&& 0x7F⟩)
    (hpassed : w.log = [(address n).toNat]) :
    Agreed w ↔ 1 ≤ (n+1) % 256 ∧ (n+1) % 256 ≤ 127 := by
  have haddr := address_toNat n
  constructor
  · rintro ⟨a,ha,hlow,hhigh,-⟩
    rw [hpassed,List.singleton_inj] at ha
    omega
  · intro h
    have hmask : (address n &&& 0x7F).toNat = (address n).toNat := by
      rw [masked_toNat]
      omega
    refine ⟨(address n).toNat,hpassed,by omega,by omega,?_,?_,?_⟩
    · rw [hsees.stored]
    · rw [hsees.shown]
    · rw [hsees.assigned,hmask]

/-- The address of an enumeration is valid and agreed exactly if its number, counted from
one, is 1 to 127 modulo 256. -/
theorem agreed_iff (n : ℕ) : ∃ w, enumeration drift between (depth+2) n = some w ∧
    (Agreed w ↔ 1 ≤ (n+1) % 256 ∧ (n+1) % 256 ≤ 127) := by
  obtain ⟨w,hw,hsees,hpassed⟩ := enumeration_spec drift between depth n
  exact ⟨w,hw,agreed_of_view hsees hpassed⟩

end Runs

/-- The 128th enumeration passes an address that the device cuts to zero. -/
theorem not_agreed_128 : ¬ ∀ drift between depth n w,
    enumeration drift between (depth+2) n = some w → Agreed w := by
  intro h
  obtain ⟨w,hw,hsees,hpassed⟩ := enumeration_spec (fun _ x => x) (fun _ x => x) 0 127
  have hagreed := h _ _ 0 127 w hw
  rw [agreed_of_view hsees hpassed] at hagreed
  omega

end Addressing
end Usb3Drd
