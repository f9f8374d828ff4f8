import Usb3Drd.ControlRequests

/-! The status of an inbound packet. An error of the device controller leaves no trace, and a
stalled request is an error. Whether a packet was consumed, only that controller tells. -/
namespace Usb3Drd
namespace Verdicts

open Coop DeviceController ProtocolLayer Exchange Inbound ControlRequests

/-- What everything else does while the device waits, or has called out. -/
structure Meanwhile where
  wait : WaitPoint → Drd → Drd
  call : Payload → Drd → TlmResponse × Drd

def restore (s s' : Drd) : Drd :=
  { s' with devCtrl := s.devCtrl, sigConfigured := s.sigConfigured }

/-- A link that does not call back into the device, and what was put on it. -/
def oneWay (o : Meanwhile) : Handler Drd WaitPoint Payload TlmResponse (Drd × List Payload) where
  state x := x.1
  store s x := (s,x.2)
  wait w x := some (o.wait w x.1,x.2)
  call q x := some ((o.call q x.1).1,restore x.1 (o.call q x.1).2,x.2 ++ [q])

/-- A link and surroundings that do anything. -/
def anyone (o : Meanwhile) : Handler Drd WaitPoint Payload TlmResponse Drd where
  state s := s
  store s _ := s
  wait w s := some (o.wait w s)
  call q s := some (o.call q s)

def deviceSide (s : Drd) : Usb3EpFifo × Usb3EpFifo × BitVec 8 × Bool × Sig Bool × Bool :=
  (s.devCtrl.mEp1In,s.devCtrl.mEp2Out,s.devCtrl.mAssignedAddr,s.devCtrl.mConfigured,
    s.sigConfigured,s.devCtrl.mOutEpEvent)

def isStall (q : Payload) : Bool :=
  q.pktType = some .tpStall ∧ q.ext.map (·.endpoint) = some 0

def StalledOnce (sent : List Payload) : Prop :=
  (sent.filter isStall).length = 1 ∧ ∀ q ∈ sent, q.pktType ≠ some .ctrlData

/-- The device controller has a use for the packet. -/
def Useful (p : Payload) : Prop :=
  match p.pktType with
  | some .setup => ∀ ext ∈ p.ext, ¬Unknown ext.setup
  | some .bulkOut => True
  | some .ctrlData => True
  | some .ctrlStatus => True
  | some .bulkIn => True
  | _ => False

/-- The protocol layer consumes the packet, or the host controller, or the device controller. -/
def Consumed (p : Payload) (s : Drd) : Prop :=
  isForwarded p = false ∨ s.sigRole.cur = .host ∨ (s.sigDevEnable.cur = true ∧ Useful p)

/-- A packet that is consumed is OK, and any other ends in an error. -/
def Verdict (p : Payload) (s : Drd) (r : TlmResponse) : Prop :=
  (Consumed p s → r = .ok) ∧ (¬Consumed p s → r ≠ .ok ∧ r ≠ .incomplete)

section Status
variable {o : Meanwhile} {p : Payload} {s : Drd}

theorem oneWay_lawful : (oneWay o).Lawful := ⟨fun _ _ => rfl,fun _ => rfl⟩

theorem anyone_lawful : (anyone o).Lawful := ⟨fun _ _ => rfl,fun _ => rfl⟩

theorem status_error_iff (hty : p.pktType = some .setup) :
    status p s = .genericError ↔ (answer p s).map (·.1) = some (some .tpStall) := by
  rw [status_setup hty]
  split
  · rename_i hstall
    exact iff_of_true rfl hstall
  · rename_i hstall
    exact iff_of_false (by simp) hstall

theorem changes_of_unknown {setup : Usb3SetupPkt} (h : Unknown setup) :
    setup.bRequest ≠ usbReqSetAddress ∧ setup.bRequest ≠ usbReqSetConfiguration := by
  rcases h with ⟨hget,-⟩ | ⟨-,haddr,hconf,-⟩
  · exact ⟨fun h => requests_ne.1 (hget.symm.trans h),fun h => requests_ne.2.1 (hget.symm.trans h)⟩
  · exact ⟨haddr,hconf⟩

theorem kind_of_error (h : status p s = .genericError) : kind p = .other := by
  cases hext : p.ext with
  | none => simp only [kind,hext]
  | some ext =>
    have hpkt : p.pktType = some ext.pktType := by rw [Payload.pktType,hext]; rfl
    cases hty : ext.pktType with
    | setup =>
      rw [hty] at hpkt
      have hunknown : Unknown ext.setup :=
        (stalls_iff ⟨p,ext,hext,hty⟩ s).mp ((status_error_iff hpkt).mp h)
      obtain ⟨haddr,hconf⟩ := changes_of_unknown hunknown
      exact kind_otherRequest hext hty haddr hconf
    | bulkOut => rw [status,hpkt,hty] at h; cases h
    | ctrlData => rw [status,hpkt,hty] at h; cases h
    | bulkIn => rw [status,hpkt,hty] at h; cases h
    | _ => simp only [kind,hext,hty]

theorem deviceSide_absorb (h : status p s = .genericError) :
    deviceSide (absorb p s) = deviceSide s := by
  rw [absorb_of_other (kind_of_error h)]

theorem status_ok (p : Payload) (s : Drd) :
    (Useful p → status p s = .ok) ∧ (¬Useful p → status p s = .genericError) := by
  cases hext : p.ext with
  | none =>
    have hpkt : p.pktType = none := by rw [Payload.pktType,hext]; rfl
    simp [Useful,status,hpkt]
  | some ext =>
    have hpkt : p.pktType = some ext.pktType := by rw [Payload.pktType,hext]; rfl
    cases hty : ext.pktType with
    | setup =>
      rw [hty] at hpkt
      have hstall := stalls_iff ⟨p,ext,hext,hty⟩ s
      have huseful : Useful p ↔ ¬Unknown ext.setup := by
        simp only [Useful,hpkt,hext,Option.mem_some_iff]
        exact ⟨fun h => h ext rfl,fun h ext' hext' => hext' ▸ h⟩
      rw [huseful]
      refine ⟨fun hknown => ?_,fun hunknown => ?_⟩
      · rw [status_setup hpkt]
        exact if_neg fun h => hknown (hstall.mp h)
      · exact (status_error_iff hpkt).mpr (hstall.mpr (not_not.mp hunknown))
    | _ =>
      simp only [Useful,status,hpkt,hty]
      simp

end Status

/-- What the device controller does with a packet that it takes. -/
theorem reaction_atomic {o : Meanwhile} {p : Payload} {s : Drd} {ext : Usb3PktExt}
    (hext : p.ext = some ext) : ∃ r y, (reaction p ext).interp (oneWay o) (s,[]) = some (r,y) ∧
      (r = .genericError → deviceSide y.1 = deviceSide s) ∧
      (p.pktType = some .setup → (r = .genericError ↔ StalledOnce y.2)) := by
  have hreact := reaction_reaction oneWay_lawful (h := oneWay o) (x := (s,[])) hext
  have hside := deviceSide_absorb (p := p) (s := s)
  have hsilent : answer p s = none → p.pktType = some .setup →
      (status p s = .genericError ↔ StalledOnce []) := by
    intro hans hty
    rw [status_error_iff hty,hans]
    exact iff_of_false (by simp) fun h => absurd h.1 (by simp)
  generalize (reaction p ext).interp (oneWay o) (s,[]) = y at hreact ⊢
  cases hreact with
  | done hans hkind => exact ⟨_,_,rfl,hside,hsilent hans⟩
  | pause a hans hkind =>
    refine ⟨_,_,rfl,fun herr => ?_,hsilent hans⟩
    rw [kind_of_error herr] at hkind
    cases hkind
  | reply ty data n layer hans hkind =>
    refine ⟨_,_,rfl,hside,fun hty => ?_⟩
    let q := replyPacket p s ty data n
    have hq : answer p s = some (q.pktType,q.data) := hans
    have hzero : q.ext.map (·.endpoint) = some 0 := by
      have hout : kind p ≠ .bulkIn := by
        rw [Ne,kind_bulkIn_iff,hty]
        simp
      exact congrArg some (if_neg hout)
    show status p s = .genericError ↔ StalledOnce [q]
    rw [status_error_iff hty,hq,Option.map_some,Option.some_inj]
    by_cases hstall : q.pktType = some .tpStall
    · refine iff_of_true hstall ⟨?_,?_⟩
      · simp [isStall,hstall,hzero]
      · simp [hstall]
    · refine iff_of_false hstall fun h => ?_
      have hnone : [q].filter isStall = [] := by simp [isStall,hstall]
      rw [StalledOnce,hnone] at h
      cases h.1

/-- A packet that the device controller ends in an error leaves it as it was, and an enabled one
ends a SETUP in an error exactly if it stalled it. -/
theorem error_atomic (o : Meanwhile) (p : Payload) (s : Drd) :
    ∃ r y, (fromProtoBTransport p).interp (oneWay o) (s,[]) = some (r,y) ∧
      (r = .genericError → deviceSide y.1 = deviceSide s) ∧
      (s.sigDevEnable.cur = true → p.pktType = some .setup →
        (r = .genericError ↔ StalledOnce y.2)) := by
  cases henable : s.sigDevEnable.cur with
  | false =>
    have hdrop := fromProto_disabled (h := oneWay o) (x := (s,[])) henable p
    exact ⟨_,_,hdrop,fun _ => rfl,fun h => by cases h⟩
  | true =>
    cases hext : p.ext with
    | none =>
      refine ⟨_,_,fromProto_bare hext _,fun _ => rfl,fun _ hty => ?_⟩
      rw [Payload.pktType,hext] at hty
      cases hty
    | some ext =>
      rw [fromProto_enabled (h := oneWay o) (x := (s,[])) henable hext]
      obtain ⟨r,y,hr,herr,hsetup⟩ := reaction_atomic (o := o) (s := s) hext
      exact ⟨r,y,hr,herr,fun _ => hsetup⟩

section Upstream
variable {o : Meanwhile} {p : Payload} {s : Drd}

theorem handled_status (hh : Handled p s) :
    ∃ s', (DrdController.upstreamBTransport p).interp (anyone o) s = some (status p s,s') := by
  have hreact := upstream_reaction anyone_lawful (h := anyone o) (p := p) (x := s) hh
  generalize (DrdController.upstreamBTransport p).interp (anyone o) s = y at hreact ⊢
  cases hreact with
  | done => exact ⟨_,rfl⟩
  | reply => exact ⟨_,rfl⟩
  | pause a => exact ⟨_,rfl⟩

theorem unhandled_status (hh : ¬Handled p s) (hrole : s.sigRole.cur ≠ .none) :
    ∃ s', (DrdController.upstreamBTransport p).interp (anyone o) s = some
      (if isForwarded p = true ∧ s.sigRole.cur = .device then .genericError else p.response,s') := by
  rw [DrdController.upstream_interp]
  by_cases hf : isForwarded p = true
  · rw [if_pos hf]
    cases hcur : s.sigRole.cur with
    | none => exact absurd hcur hrole
    | host =>
      rw [show ((anyone o).state s).sigRole.cur = .host from hcur,if_neg (by simp)]
      exact ⟨_,rfl⟩
    | device =>
      have henable : ((anyone o).state s).sigDevEnable.cur = false := by
        by_contra hon
        exact hh ⟨hf,hcur,Bool.eq_true_of_not_eq_false hon⟩
      rw [show ((anyone o).state s).sigRole.cur = .device from hcur,if_pos ⟨hf,rfl⟩]
      exact ⟨_,fromProto_disabled henable _⟩
  · rw [if_neg hf,if_neg fun h => hf h.1]
    exact ⟨_,rfl⟩

theorem verdict_status (hh : Handled p s) : Verdict p s (status p s) := by
  have hconsumed : Consumed p s ↔ Useful p := by
    simp [Consumed,hh.1,hh.2.1,hh.2.2]
  obtain ⟨hok,herr⟩ := status_ok p s
  rw [Verdict,hconsumed]
  exact ⟨hok,fun h => by rw [herr h]; simp⟩

end Upstream

/-- A packet that comes without a verdict gets the right one, in the role of a host or a device,
exactly if it is passed on to the device controller. -/
theorem verdict_iff_device (o : Meanwhile) (p : Payload) (s : Drd) (hp : p.response = .incomplete)
    (hrole : s.sigRole.cur ≠ .none) :
    ∃ r s', (DrdController.upstreamBTransport p).interp (anyone o) s = some (r,s') ∧
      (Verdict p s r ↔ s.sigRole.cur = .device ∧ isForwarded p = true) := by
  by_cases hh : Handled p s
  · obtain ⟨s',hs'⟩ := handled_status (o := o) hh
    exact ⟨_,s',hs',iff_of_true (verdict_status hh) ⟨hh.2.1,hh.1⟩⟩
  · obtain ⟨s',hs'⟩ := unhandled_status (o := o) hh hrole
    refine ⟨_,s',hs',?_⟩
    by_cases hdev : isForwarded p = true ∧ s.sigRole.cur = .device
    · rw [if_pos hdev]
      refine iff_of_true ⟨fun hc => ?_,fun _ => by simp⟩ hdev.symm
      rcases hc with hc | hc | ⟨hon,-⟩
      · rw [hdev.1] at hc
        cases hc
      · rw [hdev.2] at hc
        cases hc
      · exact absurd ⟨hdev.1,hdev.2,hon⟩ hh
    · rw [if_neg hdev,hp]
      refine iff_of_false (fun h => ?_) fun h => hdev h.symm
      have hconsumed : Consumed p s := by
        cases hf : isForwarded p with
        | false => exact .inl hf
        | true =>
          cases hcur : s.sigRole.cur with
          | none => exact absurd hcur hrole
          | host => exact .inr (.inl hcur)
          | device => exact absurd ⟨hf,hcur⟩ hdev
      cases h.1 hconsumed

def stillness : Meanwhile := ⟨fun _ s => s,fun _ s => (.ok,s)⟩

theorem verdict_bulkOut : ∃ r s', (DrdController.upstreamBTransport
      { data := [1], ext := some { pktType := .bulkOut } }).interp (anyone stillness)
        { sigRole := .steady .device, sigDevEnable := .steady true } = some (r,s') ∧
      Verdict { data := [1], ext := some { pktType := .bulkOut } }
        { sigRole := .steady .device, sigDevEnable := .steady true } r := by
  obtain ⟨r,s',hr,hverdict⟩ := verdict_iff_device stillness
    { data := [1], ext := some { pktType := .bulkOut } }
    { sigRole := .steady .device, sigDevEnable := .steady true } rfl (by decide)
  exact ⟨r,s',hr,hverdict.mpr ⟨rfl,rfl⟩⟩

/-- A host takes data in, and leaves it without a verdict. -/
theorem not_verdict_host : ¬∀ (o : Meanwhile) (p : Payload) (s : Drd), p.response = .incomplete →
    s.sigRole.cur ≠ .none → ∀ r s',
      (DrdController.upstreamBTransport p).interp (anyone o) s = some (r,s') → Verdict p s r := by
  intro h
  have hverdict := h stillness { data := [1], ext := some { pktType := .bulkIn } }
    { sigRole := .steady .host } rfl (by decide) _ _ rfl
  cases hverdict.1 (.inr (.inl rfl))

end Verdicts
end Usb3Drd
