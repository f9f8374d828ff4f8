import Usb3Drd.Coop.Spec
import Usb3Drd.Coop.Interp
import Usb3Drd.State

/-! The protocol layer: outbound packets get a sequence number and leave through
the link; inbound ones go to the controller of the current role. The sockets toward
the controllers are parameters, bound by the top level. -/
namespace Usb3Drd
namespace ProtocolLayer

open Coop

def usesSequence : Usb3PktType → Bool
  | .dpData => true
  | .bulkOut => true
  | .bulkIn => true
  | .setup => true
  | _ => false

def nextSeq : DrdProc (BitVec 32) := do
  let n ← Proc.read (·.protocol.mSeqNum)
  Proc.modify fun s => { s with protocol := { s.protocol with mSeqNum := n+1 } }
  pure n

/-- Number the packet, if its type carries a sequence number. -/
def stampSeq (ext : Usb3PktExt) : DrdProc Usb3PktExt :=
  if usesSequence ext.pktType then do
    let n ← nextSeq
    pure { ext with seqNum := n }
  else pure ext

def routeTx (p : Payload) : DrdProc TlmResponse :=
  match p.ext with
  | none => Proc.request { p with ext := some { pktType := .dpData } }
  | some ext => do
    let ext ← stampSeq ext
    Proc.request { p with ext := some ext }

def hostBTransport (p : Payload) : DrdProc TlmResponse := routeTx p

def deviceBTransport (p : Payload) : DrdProc TlmResponse := routeTx p

section Inbound
variable (toHost toDevice : Payload → DrdProc TlmResponse)

def forwardToActiveController (p : Payload) : DrdProc TlmResponse := do
  let role ← Proc.read (·.sigRole.cur)
  match role with
  | .host => toHost p
  | .device => toDevice p
  | .none => pure .incomplete

def handleRx (p : Payload) : DrdProc TlmResponse :=
  match p.ext with
  | none => forwardToActiveController toHost toDevice p
  | some ext =>
    match ext.pktType with
    | .tpAck => pure p.response
    | .tpNrdy => pure p.response
    | .tpErdy => pure p.response
    | .tpStall =>
      forwardToActiveController toHost toDevice { p with ext := some { ext with code := .stallErr } }
    | _ => forwardToActiveController toHost toDevice p

def linkBTransport (p : Payload) : DrdProc TlmResponse := handleRx toHost toDevice p

/-- The packets that are passed on to the controller. -/
def isForwarded (p : Payload) : Bool :=
  match p.pktType with
  | some .tpAck => false
  | some .tpNrdy => false
  | some .tpErdy => false
  | _ => true

/-- A STALL is passed on with its completion code. -/
def markStall (p : Payload) : Payload :=
  if p.pktType = some .tpStall then
    { p with ext := p.ext.map fun ext => { ext with code := .stallErr } }
  else p

@[simp] theorem markStall_data (p : Payload) : (markStall p).data = p.data := by
  unfold markStall
  split <;> rfl
@[simp] theorem markStall_response (p : Payload) : (markStall p).response = p.response := by
  unfold markStall
  split <;> rfl

theorem handleRx_eq (p : Payload) : handleRx toHost toDevice p =
    if isForwarded p then forwardToActiveController toHost toDevice (markStall p)
    else pure p.response := by
  unfold handleRx isForwarded markStall Payload.pktType
  cases hext : p.ext with
  | none => rfl
  | some ext => cases hty : ext.pktType <;> simp [hty]

theorem forward_interp {X : Type} (h : Handler Drd WaitPoint Payload TlmResponse X) (p : Payload)
    (x : X) : (forwardToActiveController toHost toDevice p).interp h x =
      match (h.state x).sigRole.cur with
      | .host => (toHost p).interp h x
      | .device => (toDevice p).interp h x
      | .none => some (.incomplete,x) := by
  rw [forwardToActiveController,Proc.interp_bind,Proc.interp_read,Option.bind_some]
  cases (h.state x).sigRole.cur <;> rfl

end Inbound

theorem routeTx_ending (p : Payload) (post : TlmResponse → Drd → Prop) (s : Drd) :
    (routeTx p).wp Proc.ending post s := by
  unfold routeTx
  split
  · simp
  · simp [stampSeq,nextSeq]

/-- Sending calls the link with the packet, numbered, and writes the sequence counter. -/
theorem routeTx_wp {γ : Type} (sp : Spec γ Drd WaitPoint Payload TlmResponse Loop)
    {post : TlmResponse → Trail γ Drd WaitPoint Payload TlmResponse → Prop} {p : Payload}
    (hp : p.ext.isSome = true) (x : Trail γ Drd WaitPoint Payload TlmResponse)
    (h : ∀ n layer, sp.setting.onCall (p.numbered n) post
      { x with state := { x.state with protocol := layer } }) :
    (routeTx p).wp sp.setting post x := by
  obtain ⟨ext,hext⟩ := Option.isSome_iff_exists.mp hp
  simp only [Payload.numbered,hext,Option.map_some] at h
  simp only [routeTx,hext,stampSeq,nextSeq,Proc.wp_bind,Proc.wp_ite,Spec.wp_read,Spec.wp_modify,
    Proc.wp_pure,Proc.wp_request]
  exact ⟨fun _ => h _ _,fun _ => h ext.seqNum x.state.protocol⟩

theorem routeTx_stamped {X : Type} {h : Handler Drd WaitPoint Payload TlmResponse X} (hl : h.Lawful)
    {p : Payload} {ext : Usb3PktExt} (hext : p.ext = some ext) (x : X) : ∃ n layer,
      (usesSequence ext.pktType = false → n = ext.seqNum) ∧
      (routeTx p).interp h x = h.call (p.numbered n) (h.store { h.state x with protocol := layer } x) := by
  simp only [Payload.numbered,hext,Option.map_some,routeTx,stampSeq,nextSeq,Proc.interp_bind,
    Proc.interp_ite,Proc.interp_read,Proc.interp_modify,Proc.interp_pure,Proc.interp_request,
    Option.bind_some]
  by_cases hseq : usesSequence ext.pktType = true
  · exact ⟨(h.state x).protocol.mSeqNum,_,by simp [hseq],by rw [if_pos hseq]; rfl⟩
  · refine ⟨ext.seqNum,(h.state x).protocol,fun _ => rfl,?_⟩
    rw [if_neg hseq,hl.store_state]
    rfl

theorem routeTx_interp {X : Type} {h : Handler Drd WaitPoint Payload TlmResponse X} (hl : h.Lawful)
    {p : Payload} (hp : p.ext.isSome = true) (x : X) : ∃ n layer,
      (routeTx p).interp h x = h.call (p.numbered n) (h.store { h.state x with protocol := layer } x) := by
  obtain ⟨ext,hext⟩ := Option.isSome_iff_exists.mp hp
  obtain ⟨n,layer,-,hsend⟩ := routeTx_stamped hl hext x
  exact ⟨n,layer,hsend⟩

end ProtocolLayer
end Usb3Drd
