import Usb3Drd.Coop.Ends
import Usb3Drd.DrdController

/-! Two devices on one link: which packets set off a chain of replies that ends. -/
namespace Usb3Drd
namespace Exchange

open Coop DrdController DeviceController ProtocolLayer

/-- A packet arrives at one end, with at most `n` deliveries within one another. -/
def deliver (elapse : WaitPoint → Ends Drd → Ends Drd) (n : ℕ) (i : Side) (p : Payload)
    (x : Ends Drd) : Option (TlmResponse × Ends Drd) :=
  exchange upstreamBTransport elapse n i p x

def Answering (s : Drd) : Prop := s.sigRole.cur = .device ∧ s.sigDevEnable.cur = true

instance (s : Drd) : Decidable (Answering s) := inferInstanceAs (Decidable (_ ∧ _))

/-- The packets that a device controller may answer with one of its own. -/
def asksReply (p : Payload) : Bool :=
  match p.pktType with
  | some .setup => true
  | some .ctrlStatus => true
  | some .bulkIn => true
  | _ => false

theorem markStall_ext {p : Payload} {ty : Usb3PktType} (h : p.pktType = some ty) :
    ∃ ext, (markStall p).ext = some ext ∧ ext.pktType = ty := by
  obtain ⟨ext,hext,rfl⟩ := Option.map_eq_some_iff.mp h
  by_cases hstall : p.pktType = some .tpStall
  · exact ⟨{ ext with code := .stallErr },by rw [markStall,if_pos hstall,hext]; rfl,rfl⟩
  · exact ⟨ext,by rw [markStall,if_neg hstall,hext],rfl⟩

theorem markStall_bare {p : Payload} (h : p.pktType = none) : (markStall p).ext = none := by
  rw [markStall,if_neg (by simp [h])]
  exact Option.map_eq_none_iff.mp h

section Chain
variable {elapse : WaitPoint → Ends Drd → Ends Drd} {n : ℕ} {i : Side} {p : Payload} {x : Ends Drd}

theorem deliver_eq : deliver elapse (n+1) i p x =
    if isForwarded p then
      match (x.get i).sigRole.cur with
      | .host => some (p.response,x.set i (HostController.storeResponse p.data (x.get i)))
      | .device => (fromProtoBTransport (markStall p)).interp
          (endHandler elapse (deliver elapse n i.other) i) x
      | .none => some (.incomplete,x)
    else some (p.response,x) := upstream_interp _ p x

theorem deliver_answering (h : Answering (x.get i)) (hf : isForwarded p = true) :
    deliver elapse (n+1) i p x = (fromProtoBTransport (markStall p)).interp
      (endHandler elapse (deliver elapse n i.other) i) x := by
  rw [deliver_eq,if_pos hf,h.1]

theorem deliver_idle (h : ¬Answering (x.get i)) : (deliver elapse (n+1) i p x).isSome := by
  rw [deliver_eq]
  split
  · split
    · rfl
    · rename_i hrole
      have henable : (x.get i).sigDevEnable.cur = false := by
        cases he : (x.get i).sigDevEnable.cur with
        | false => rfl
        | true => exact absurd ⟨hrole,he⟩ h
      rw [fromProto_disabled henable]
      rfl
    · rfl
  · rfl

variable (elapse n) in
theorem deliver_reaction (h : Answering (x.get i)) (hf : isForwarded p = true) {ty : Usb3PktType}
    (hty : p.pktType = some ty) : ∃ ext : Usb3PktExt, ext.pktType = ty ∧
      deliver elapse (n+1) i p x = (reaction (markStall p) ext).interp
        (endHandler elapse (deliver elapse n i.other) i) x := by
  obtain ⟨ext,hext,rfl⟩ := markStall_ext hty
  refine ⟨ext,rfl,?_⟩
  rw [deliver_answering h hf,fromProto_enabled (h := endHandler elapse _ i) h.2 hext]

theorem deliver_unasked (h : asksReply p = false) : (deliver elapse (n+1) i p x).isSome := by
  by_cases ha : Answering (x.get i)
  · by_cases hf : isForwarded p = true
    · cases hty : p.pktType with
      | none =>
        rw [deliver_answering ha hf,fromProto_bare (markStall_bare hty)]
        rfl
      | some ty =>
        obtain ⟨ext,rfl,hdeliver⟩ := deliver_reaction elapse n ha hf hty
        rw [hdeliver,reaction]
        cases hext : ext.pktType <;> first | rfl | simp [asksReply,hty,hext] at h
    · rw [deliver_eq,if_neg hf]
      rfl
  · exact deliver_idle ha

theorem sendToProtocol_isSome {ty : Usb3PktType} {endpoint : BitVec 8} {direction : Usb3Dir}
    {data : List Byte} {epType : Usb3EpType}
    (h : ∀ q layer, q.pktType = some ty →
      (deliver elapse n i.other q (x.set i { x.get i with protocol := layer })).isSome) :
    ((sendToProtocol ty endpoint direction data epType).interp
      (endHandler elapse (deliver elapse n i.other) i) x).isSome := by
  obtain ⟨q,layer,hq,-,-,hsend⟩ := sendToProtocol_interp
    (endHandler_lawful elapse (deliver elapse n i.other) i) ty endpoint direction data epType x
  rw [hsend,Option.isSome_map]
  exact h q layer hq

theorem isSome_bind {α β X : Type} {o : Option (α × X)} {f : α × X → Option (β × X)}
    (h : o.isSome) (hf : ∀ y, (f y).isSome) : (o.bind f).isSome := by
  obtain ⟨y,rfl⟩ := Option.isSome_iff_exists.mp h
  exact hf y

theorem deliver_setup (h : p.pktType = some .setup) : (deliver elapse (n+2) i p x).isSome := by
  by_cases ha : Answering (x.get i)
  · have hf : isForwarded p = true := by simp [isForwarded,h]
    obtain ⟨ext,hext,hdeliver⟩ := deliver_reaction elapse (n+1) ha hf h
    have hreply : ∀ ty endpoint data, asksReply { ext := some { pktType := ty } } = false →
        ((sendToProtocol ty endpoint .deviceToHost data).interp
          (endHandler elapse (deliver elapse (n+1) i.other) i) x).isSome := by
      intro ty endpoint data hty
      refine sendToProtocol_isSome fun q layer hq => deliver_unasked ?_
      rw [asksReply,hq]
      exact hty
    rw [hdeliver,reaction,hext]
    simp only [handleSetup,handleGetDescriptor,handleSetAddress,handleSetConfiguration,
      stallEndpoint,Proc.interp_ite,Proc.interp_bind,Proc.interp_read,Option.bind_some]
    split
    · split
      · rw [Proc.interp_bind]
        exact isSome_bind (hreply .tpStall 0 _ rfl) fun _ => rfl
      · rw [Proc.interp_bind]
        exact isSome_bind (hreply .ctrlData 0 _ rfl) fun _ => rfl
    · split
      · rfl
      · split
        · rfl
        · split
          · exact isSome_bind (hreply .ctrlData 0 _ rfl) fun _ => rfl
          · exact isSome_bind (hreply .tpStall 0 _ rfl) fun _ => rfl
  · exact deliver_idle ha

theorem deliver_bulkIn (h : p.pktType = some .bulkIn)
    (hn : (x.get i).devCtrl.mEp1In.hasData.toNat + (x.get i.other).devCtrl.mEp1In.hasData.toNat < n) :
    (deliver elapse n i p x).isSome := by
  induction n generalizing i p x with
  | zero => omega
  | succ n ih =>
    by_cases ha : Answering (x.get i)
    · have hf : isForwarded p = true := by simp [isForwarded,h]
      obtain ⟨ext,hext,hdeliver⟩ := deliver_reaction elapse n ha hf h
      rw [hdeliver,reaction,hext]
      simp only [handleBulkIn,sendBulkIn,Proc.interp_bind,Proc.interp_read,Option.bind_some,
        Proc.interp_ite,endHandler_state,Proc.interp_modify,endHandler_store]
      by_cases hfull : (x.get i).devCtrl.mEp1In.hasData = true
      · rw [if_pos hfull]
        refine isSome_bind (sendToProtocol_isSome fun q layer hq => ih hq ?_) fun _ => rfl
        simp only [Side.other_other,Ends.set_set,Ends.get_set,Ends.get_set_other]
        rw [hfull] at hn
        have hclear : Usb3EpFifo.clear.hasData = false := rfl
        rw [hclear]
        simp only [Bool.toNat_true,Bool.toNat_false] at hn ⊢
        omega
      · rw [if_neg hfull]
        rfl
    · exact deliver_idle ha

/-- A status stage is answered with another, which ends there unless it is answered too. -/
theorem deliver_ctrlStatus (h : p.pktType = some .ctrlStatus)
    (hidle : ¬(Answering (x.get i) ∧ Answering (x.get i.other))) :
    (deliver elapse (n+2) i p x).isSome := by
  by_cases ha : Answering (x.get i)
  · have hf : isForwarded p = true := by simp [isForwarded,h]
    obtain ⟨ext,hext,hdeliver⟩ := deliver_reaction elapse (n+1) ha hf h
    rw [hdeliver,reaction,hext]
    simp only [Proc.interp_bind]
    refine isSome_bind (sendToProtocol_isSome fun q layer hq => deliver_idle ?_) fun _ => rfl
    rw [Ends.get_set_other]
    exact fun hother => hidle ⟨ha,hother⟩
  · exact deliver_idle ha

/-- Between two answering ends it is never the last. -/
theorem deliver_ctrlStatus_none (h : p.pktType = some .ctrlStatus) (ha : Answering (x.get i))
    (hother : Answering (x.get i.other)) : deliver elapse n i p x = none := by
  induction n generalizing i p x with
  | zero => rfl
  | succ n ih =>
    have hf : isForwarded p = true := by simp [isForwarded,h]
    obtain ⟨ext,hext,hdeliver⟩ := deliver_reaction elapse n ha hf h
    obtain ⟨q,layer,hq,-,-,hsend⟩ := sendToProtocol_interp
      (endHandler_lawful elapse (deliver elapse n i.other) i) .ctrlStatus 0 .deviceToHost [0] .control x
    have hnone : deliver elapse n i.other q (x.set i { x.get i with protocol := layer }) = none := by
      refine ih hq ?_ ?_
      · rw [Ends.get_set_other]
        exact hother
      · rw [Side.other_other,Ends.get_set]
        exact ha
    rw [hdeliver,reaction,hext]
    simp only [Proc.interp_bind,hsend,endHandler_call,endHandler_store,endHandler_state,hnone]
    rfl

end Chain

/-- The chain of deliveries that a packet sets off is finite unless it is a CTRL_STATUS
between two ends that both answer as devices. -/
theorem terminates_iff (elapse : WaitPoint → Ends Drd → Ends Drd) (i : Side) (p : Payload)
    (x : Ends Drd) : (∃ n, (deliver elapse n i p x).isSome) ↔
      ¬(p.pktType = some .ctrlStatus ∧ Answering (x.get i) ∧ Answering (x.get i.other)) := by
  constructor
  · rintro ⟨n,hn⟩ ⟨hty,ha,hother⟩
    rw [deliver_ctrlStatus_none hty ha hother] at hn
    cases hn
  · intro h
    by_cases hask : asksReply p = true
    · refine ⟨3,?_⟩
      cases hty : p.pktType with
      | none => simp [asksReply,hty] at hask
      | some ty =>
        by_cases hstatus : ty = .ctrlStatus
        · subst hstatus
          exact deliver_ctrlStatus (n := 1) hty fun hboth => h ⟨hty,hboth⟩
        · by_cases hsetup : ty = .setup
          · subst hsetup
            exact deliver_setup (n := 1) hty
          · have hbulk : ty = .bulkIn := by
              cases ty <;> simp_all [asksReply]
            subst hbulk
            have hleft := Bool.toNat_le (x.get i).devCtrl.mEp1In.hasData
            have hright := Bool.toNat_le (x.get i.other).devCtrl.mEp1In.hasData
            exact deliver_bulkIn hty (by omega)
    · exact ⟨1,deliver_unasked (by simpa using hask)⟩

/-- Two enabled devices answer each other's status stages for ever. -/
theorem not_terminates_bothDevices : ¬ ∀ elapse i p x, ∃ n, (deliver elapse n i p x).isSome := by
  intro h
  let device : Drd := { sigRole := .steady .device, sigDevEnable := .steady true }
  have hfin := h (fun _ x => x) .left { ext := some { pktType := .ctrlStatus } } ⟨device,device⟩
  obtain ⟨n,hn⟩ := hfin
  have hnone : deliver (fun _ x => x) n .left { ext := some { pktType := .ctrlStatus } }
      ⟨device,device⟩ = none := deliver_ctrlStatus_none rfl (by decide) (by decide)
  rw [hnone] at hn
  cases hn

end Exchange
end Usb3Drd
