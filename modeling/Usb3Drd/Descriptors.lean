import Usb3Drd.DeviceLog

/-! The replies to GET_DESCRIPTOR, against the length that was asked for and the length that
the descriptor declares of itself. -/
namespace Usb3Drd
namespace Descriptors

open Coop DeviceController ProtocolLayer Inbound DeviceLog

variable {n : ℕ}

/-- The descriptor that a request names, before it is cut. -/
def descriptor (d : DeviceController) (setup : Usb3SetupPkt) : Option (List Byte) :=
  let descType := highByte setup.wValue
  if descType = usbDescDevice then some (devDescToBytes d.mDevDesc)
  else if descType = usbDescConfiguration then some d.mConfigBlob
  else if descType = usbDescBos then some bosDescriptor
  else if descType = usbDescString then some (stringDescriptor (lowByte setup.wValue))
  else none

/-- `wTotalLength` of a configuration or a BOS, `bLength` of the others. A string that does
not exist declares nothing. -/
def declaredLength (descType : BitVec 8) (bytes : List Byte) : Option ℕ :=
  if descType = usbDescConfiguration ∨ descType = usbDescBos then
    if 4 ≤ bytes.length then some (HostController.le16 bytes 2).toNat else none
  else bytes.head?.map (·.toNat)

/-- The reply is the descriptor up to the smaller one of the two lengths. -/
def Complies (d : DeviceController) (setup : Usb3SetupPkt) (data : List Byte) : Prop :=
  ∃ desc len, descriptor d setup = some desc ∧
    declaredLength (highByte setup.wValue) desc = some len ∧
    data <+: desc ∧ data.length = min setup.wLength.toNat len

/-- The device descriptor is asked for in full, the BOS not beyond the table that there is,
and a string that exists. -/
def Sized (setup : Usb3SetupPkt) : Prop :=
  (highByte setup.wValue = usbDescDevice → 18 ≤ setup.wLength.toNat) ∧
    (highByte setup.wValue = usbDescBos → setup.wLength.toNat ≤ 15) ∧
    (highByte setup.wValue = usbDescString → (lowByte setup.wValue).toNat ≤ 3)

instance (setup : Usb3SetupPkt) : Decidable (Sized setup) := inferInstanceAs (Decidable (_ ∧ _))

def Built (s : Drd) : Prop := s.devCtrl.mDevDesc = {} ∧ s.devCtrl.mConfigBlob = initDescriptors

section Replies
variable {d : DeviceController} {setup : Usb3SetupPkt} {desc data : List Byte} {len : ℕ}

theorem complies_iff_length (hdesc : descriptor d setup = some desc)
    (hlen : declaredLength (highByte setup.wValue) desc = some len) (hpre : data <+: desc) :
    Complies d setup data ↔ data.length = min setup.wLength.toNat len := by
  constructor
  · rintro ⟨desc',len',hdesc',hlen',-,hdata⟩
    obtain rfl : desc = desc' := Option.some.inj (hdesc.symm.trans hdesc')
    obtain rfl : len = len' := Option.some.inj (hlen.symm.trans hlen')
    exact hdata
  · exact fun hdata => ⟨desc,len,hdesc,hlen,hpre,hdata⟩

theorem complies_take (hdesc : descriptor d setup = some desc)
    (hlen : declaredLength (highByte setup.wValue) desc = some desc.length) :
    Complies d setup (desc.take setup.wLength.toNat) :=
  (complies_iff_length hdesc hlen (List.take_prefix _ _)).mpr List.length_take

theorem declaredLength_string (i : BitVec 8) :
    (i.toNat ≤ 3 → declaredLength usbDescString (stringDescriptor i) =
      some (stringDescriptor i).length) ∧
    (¬i.toNat ≤ 3 → declaredLength usbDescString (stringDescriptor i) = none) := by
  constructor
  · intro hi
    have hcases : i = 0 ∨ i = 1 ∨ i = 2 ∨ i = 3 := by
      have hnat : i.toNat = 0 ∨ i.toNat = 1 ∨ i.toNat = 2 ∨ i.toNat = 3 := by omega
      exact hnat.imp BitVec.eq_of_toNat_eq (.imp BitVec.eq_of_toNat_eq
        (.imp BitVec.eq_of_toNat_eq BitVec.eq_of_toNat_eq))
    rcases hcases with rfl | rfl | rfl | rfl <;> decide
  · intro hi
    have hne : ∀ k : BitVec 8, k.toNat ≤ 3 → i ≠ k := by
      rintro k hk rfl
      exact hi hk
    have hnone : stringDescriptor i = [] := by
      rw [stringDescriptor,if_neg (hne 0 (by decide)),stringText,if_neg (hne 1 (by decide)),
        if_neg (hne 2 (by decide)),if_neg (hne 3 (by decide))]
    rw [hnone]
    rfl

theorem types_ne : usbDescDevice ≠ usbDescConfiguration ∧ usbDescDevice ≠ usbDescBos ∧
    usbDescDevice ≠ usbDescString ∧ usbDescConfiguration ≠ usbDescBos ∧
    usbDescConfiguration ≠ usbDescString ∧ usbDescBos ≠ usbDescString := by decide

theorem device_iff {s : Drd} (hb : Built s) (hty : highByte setup.wValue = usbDescDevice) :
    Complies s.devCtrl setup (devDescToBytes s.devCtrl.mDevDesc) ↔ Sized setup := by
  obtain ⟨hdc,hdb,hds,-⟩ := types_ne
  have hdesc : descriptor s.devCtrl setup = some (devDescToBytes s.devCtrl.mDevDesc) := by
    rw [descriptor,if_pos hty]
  have hlen : declaredLength (highByte setup.wValue) (devDescToBytes s.devCtrl.mDevDesc) =
      some 18 := by
    rw [hty,hb.1]
    rfl
  rw [complies_iff_length hdesc hlen List.prefix_rfl,Sized,hty]
  simp only [hdb,hds,true_implies,false_implies,and_true]
  rw [hb.1,show (devDescToBytes {}).length = 18 from rfl]
  omega

theorem configuration_iff {s : Drd} (hb : Built s)
    (hty : highByte setup.wValue = usbDescConfiguration) :
    Complies s.devCtrl setup (s.devCtrl.mConfigBlob.take setup.wLength.toNat) ↔ Sized setup := by
  obtain ⟨hdc,-,-,hcb,hcs,-⟩ := types_ne
  have hdesc : descriptor s.devCtrl setup = some s.devCtrl.mConfigBlob := by
    rw [descriptor,hty,if_neg hdc.symm,if_pos rfl]
  have hlen : declaredLength (highByte setup.wValue) s.devCtrl.mConfigBlob =
      some s.devCtrl.mConfigBlob.length := by
    rw [hty,hb.2]
    decide
  refine iff_of_true (complies_take hdesc hlen) ?_
  rw [Sized,hty]
  simp [hdc.symm,hcb,hcs]

theorem bos_iff (hty : highByte setup.wValue = usbDescBos) :
    Complies d setup (bosDescriptor.take setup.wLength.toNat) ↔ Sized setup := by
  obtain ⟨-,hdb,-,hcb,-,hbs⟩ := types_ne
  have hdesc : descriptor d setup = some bosDescriptor := by
    rw [descriptor,hty,if_neg hdb.symm,if_neg hcb.symm,if_pos rfl]
  have hlen : declaredLength (highByte setup.wValue) bosDescriptor = some 22 := by
    rw [hty]
    rfl
  rw [complies_iff_length hdesc hlen (List.take_prefix _ _),Sized,hty,List.length_take]
  simp only [hdb.symm,hbs,true_implies,false_implies,and_true,true_and]
  rw [show bosDescriptor.length = 15 from rfl]
  omega

theorem string_iff (hty : highByte setup.wValue = usbDescString) :
    Complies d setup ((stringDescriptor (lowByte setup.wValue)).take setup.wLength.toNat) ↔
      Sized setup := by
  obtain ⟨-,-,hds,-,hcs,hbs⟩ := types_ne
  have hdesc : descriptor d setup = some (stringDescriptor (lowByte setup.wValue)) := by
    rw [descriptor,hty,if_neg hds.symm,if_neg hcs.symm,if_neg hbs.symm,if_pos rfl]
  have hsized : Sized setup ↔ (lowByte setup.wValue).toNat ≤ 3 := by
    rw [Sized,hty]
    simp [hds.symm,hbs.symm]
  have hstring := declaredLength_string (lowByte setup.wValue)
  rw [← hty] at hstring
  rw [hsized]
  by_cases hi : (lowByte setup.wValue).toNat ≤ 3
  · exact iff_of_true (complies_take hdesc (hstring.1 hi)) hi
  · refine iff_of_false ?_ hi
    rintro ⟨desc,len,hdesc',hlen,-⟩
    rw [hdesc] at hdesc'
    cases hdesc'
    rw [hstring.2 hi] at hlen
    cases hlen

/-- What each of the four types of descriptor is answered with. -/
theorem complies_iff {s : Drd} (hb : Built s) (h : descriptorReply s.devCtrl setup = some data) :
    Complies s.devCtrl setup data ↔ Sized setup := by
  simp only [descriptorReply] at h
  split at h
  · rename_i hty
    cases h
    exact device_iff hb hty
  · split at h
    · rename_i hty
      cases h
      exact configuration_iff hb hty
    · split at h
      · rename_i hty
        cases h
        exact bos_iff hty
      · split at h
        · rename_i hty
          cases h
          exact string_iff hty
        · cases h

end Replies

section Runs
variable {ok : DeviceLog n → DrdConf n → DrdLabel Action n → Prop} {g : DeviceLog n}
  {c c' : DrdConf n} {i : Fin n}

theorem Built.absorb {s : Drd} (h : Built s) (p : Payload) : Built (absorb p s) := by
  unfold Inbound.absorb
  repeat' split
  all_goals exact h

theorem built_reach (hr : Reach (drdKernel n) (drdBoot n) (deviceLog n) ok g c) :
    Built c.state := by
  induction hr with
  | boot => exact ⟨rfl,rfl⟩
  | @step g c l c' hr hk hs ih =>
    have hsame : ∀ s : Drd, core c'.state = core s → Built s → Built c'.state := by
      intro s hcore hb
      have hdev := congrArg (·.1.mDevDesc) hcore
      have hconf := congrArg (·.1.mConfigBlob) hcore
      exact ⟨hdev.trans hb.1,hconf.trans hb.2⟩
    cases deviceStep ⟨hr,hk,hs⟩ with
    | still hevents hsent hcore => exact hsame _ hcore ih
    | packet p hp hevents hsent hcore => exact hsame _ hcore (ih.absorb p)
    | turn hevents hsent hcore =>
      refine hsame _ hcore ?_
      split
      · exact ih
      · exact ih

/-- A packet is sent in the first evaluation of its call only, as an answer to what arrived. -/
theorem called_answers
    (ht : Taken (drdKernel n) (drdBoot n) (deviceLog n) ok g c (.eval (.inr i)) c') {p q : Payload}
    (hp : g.arrived (.inr i) = some p) (hq : c'.loc (.inr i) = .calling q) :
    answer p c.state = some (q.pktType,q.data) := by
  obtain ⟨p',o,hp',-,hguar⟩ := (call_server i).eval ht
  obtain rfl : p = p' := Option.some.inj (hp.symm.trans hp')
  have hsaid : saidAt (c'.loc (.inr i)) = some (q.pktType,q.data) := by rw [hq,saidAt]
  cases o with
  | start =>
    rw [callGuar] at hguar
    split at hguar
    · exact hguar.2.symm.trans hsaid
    · rw [hguar.2] at hsaid
      cases hsaid
  | woke w => rw [hguar.2] at hsaid; cases hsaid
  | returned q' r => rw [hguar.2] at hsaid; cases hsaid

end Runs

/-- A SETUP packet for GET_DESCRIPTOR that is answered with CTRL_DATA: the reply is as long as
both lengths allow exactly if the request is sized to what the device has. -/
theorem complies_iff_sized (n : ℕ) (g : DeviceLog n) (c c' : DrdConf n) (i : Fin n)
    (ht : Taken (drdKernel n) (drdBoot n) (deviceLog n) (fun _ _ _ => True) g c (.eval (.inr i)) c')
    (p q : Payload) (setup : Usb3SetupPkt) (hp : g.arrived (.inr i) = some p)
    (hsetup : HostController.setupRequest p = some setup)
    (hget : setup.bRequest = usbReqGetDescriptor) (hq : c'.loc (.inr i) = .calling q)
    (hty : q.pktType = some .ctrlData) :
    Complies c.state.devCtrl setup q.data ↔ Sized setup := by
  have hanswer := called_answers ht hp hq
  have hreply : descriptorReply c.state.devCtrl setup = some q.data := by
    simp only [HostController.setupRequest] at hsetup
    split at hsetup
    · rename_i hpkt
      obtain ⟨ext,hext,rfl⟩ := Option.map_eq_some_iff.mp hsetup
      rw [Payload.pktType,hext] at hpkt
      simp only [answer,hext,Option.some.inj hpkt,hget,if_true] at hanswer
      cases hreply : descriptorReply c.state.devCtrl ext.setup with
      | none =>
        rw [hreply,hty] at hanswer
        cases hanswer
      | some data =>
        rw [hreply] at hanswer
        exact congrArg some (Prod.mk.inj (Option.some.inj hanswer)).2
    · cases hsetup
  exact complies_iff (built_reach ht.reach) hreply

def ask (setup : Usb3SetupPkt) : Payload := HostController.setupPacket 0 setup

def askRun (setup : Usb3SetupPkt) : List (DrdLabel Action 1) :=
  attachRun .dfpAttached ++ [.enter callThread (ask setup)]

theorem calling_of_said {l : Loc WaitPoint Payload TlmResponse} {ty : Usb3PktType}
    {data : List Byte} (h : saidAt l = some (some ty,data)) :
    ∃ q, l = .calling q ∧ q.pktType = some ty ∧ q.data = data := by
  cases l with
  | calling q =>
    obtain ⟨hty,hdata⟩ := Prod.mk.inj (Option.some.inj h)
    exact ⟨q,rfl,hty,hdata⟩
  | _ => cases h

theorem complies_configuration : ∃ g c c' q, Taken (drdKernel 1) (drdBoot 1) (deviceLog 1)
    (fun _ _ _ => True) g c (.eval (.inr 0)) c' ∧ c'.loc (.inr 0) = .calling q ∧ q.data.length = 9 ∧
      Complies c.state.devCtrl
        { bRequest := usbReqGetDescriptor, wValue := 0x0200, wLength := 9 } q.data := by
  obtain ⟨g,c,c',ht,hp,hsaid⟩ := exists_taken (drdKernel 1) (drdBoot 1) (deviceLog 1)
    (fun _ _ _ => True) (.eval (.inr 0)) (fun g _ c' => g.arrived (.inr 0) = some (ask
      { bRequest := usbReqGetDescriptor, wValue := 0x0200, wLength := 9 }) ∧
        saidAt (c'.loc (.inr 0)) = some (some .ctrlData,[9,2,44,0,1,1,0,0xC0,0]))
    (askRun { bRequest := usbReqGetDescriptor, wValue := 0x0200, wLength := 9 }) (by decide +kernel)
  obtain ⟨q,hq,hty,hdata⟩ := calling_of_said hsaid
  refine ⟨g,c,c',q,ht,hq,by rw [hdata]; rfl,?_⟩
  exact (complies_iff_sized 1 g c c' 0 ht _ q _ hp rfl rfl hq hty).mpr (by decide)

/-- The first eight bytes of the device descriptor are asked for, and all of it comes. -/
theorem not_complies_device : ¬∀ (g : DeviceLog 1) (c c' : DrdConf 1) (p q : Payload)
    (setup : Usb3SetupPkt), Taken (drdKernel 1) (drdBoot 1) (deviceLog 1) (fun _ _ _ => True) g c
      (.eval (.inr 0)) c' → g.arrived (.inr 0) = some p →
    HostController.setupRequest p = some setup → setup.bRequest = usbReqGetDescriptor →
    c'.loc (.inr 0) = .calling q → q.pktType = some .ctrlData →
      Complies c.state.devCtrl setup q.data := by
  intro h
  obtain ⟨g,c,c',ht,hp,hsaid⟩ := exists_taken (drdKernel 1) (drdBoot 1) (deviceLog 1)
    (fun _ _ _ => True) (.eval (.inr 0)) (fun g _ c' => g.arrived (.inr 0) = some (ask
      { bRequest := usbReqGetDescriptor, wValue := 0x0100, wLength := 8 }) ∧
        saidAt (c'.loc (.inr 0)) = some (some .ctrlData,devDescToBytes {}))
    (askRun { bRequest := usbReqGetDescriptor, wValue := 0x0100, wLength := 8 }) (by decide +kernel)
  obtain ⟨q,hq,hty,hdata⟩ := calling_of_said hsaid
  obtain ⟨desc,len,-,-,-,hlen⟩ := h g c c' _ q _ ht hp rfl rfl hq hty
  have hshort : q.data.length ≤ 8 := hlen.le.trans (min_le_left _ _)
  rw [hdata] at hshort
  exact absurd hshort (by decide)

end Descriptors
end Usb3Drd
