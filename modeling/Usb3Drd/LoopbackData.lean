import Usb3Drd.Coop.Relay
import Usb3Drd.DeviceLog

/-! The two endpoint buffers and the loopback between them are a relay: what comes out was
accepted in this order, and what is lost was overwritten. -/
namespace Usb3Drd

open Coop DeviceController Inbound

namespace DeviceLog

/-- The packet is answered at once, with success. -/
def answeredOk (p : Payload) (s : Drd) : Bool :=
  match ((DrdController.upstreamBTransport p).run s).2 with
  | .ret .ok => true
  | _ => false

/-- The payload that the bulk OUT handler took and answered with success. -/
def Event.landed : Event → Option (List Byte)
  | .packet p s _ => if kind p = .out ∧ answeredOk p s = true then some p.data else none
  | .turn _ _ => none

def Event.overwrites : Event → Bool
  | .packet p s _ => decide (kind p = .out) && s.devCtrl.mEp2Out.hasData
  | .turn s _ => decide (Moves s) && s.devCtrl.mEp1In.hasData

def accepted (events : List Event) : List (List Byte) := events.filterMap Event.landed

def slot (f : Usb3EpFifo) : Option (List Byte) := if f.hasData then some f.buffer else none

/-- What the endpoint buffers hold, the oldest first. -/
def held (s : Drd) : List (List Byte) :=
  (slot s.devCtrl.mEp1In).toList ++ (slot s.devCtrl.mEp2Out).toList

variable {n : ℕ}

def relay (g : DeviceLog n) (s : Drd) : Relay (List Byte) where
  accepted := accepted g.events
  sent := g.sent
  first := slot s.devCtrl.mEp2Out
  second := slot s.devCtrl.mEp1In
  lost := g.events.countP Event.overwrites

section Steps
variable {g g' : DeviceLog n} {s s' : Drd} {p : Payload}

theorem core_fifos (h : core s' = core s) :
    s'.devCtrl.mEp1In = s.devCtrl.mEp1In ∧ s'.devCtrl.mEp2Out = s.devCtrl.mEp2Out :=
  ⟨congrArg (·.1.mEp1In) h,congrArg (·.1.mEp2Out) h⟩

theorem slot_write (f : Usb3EpFifo) (data : List Byte) : slot (f.write data) = some data := rfl

theorem slot_clear : slot .clear = none := rfl

theorem slot_length (f : Usb3EpFifo) : (slot f).toList.length = f.hasData.toNat := by
  unfold slot
  cases f.hasData <;> rfl

theorem out_run (h : Handled p s) (hout : kind p = .out) : answeredOk p s = true := by
  have hty := (kind_out_iff p).mp hout
  obtain ⟨hf,hrole,hon⟩ := h
  have hmark : ProtocolLayer.markStall p = p := by
    rw [ProtocolLayer.markStall,if_neg]
    rcases hty with hty | hty
    · simp [hty]
    · simp [hty]
  have hrun : (DrdController.upstreamBTransport p).run s = (fromProtoBTransport p).run s := by
    rw [DrdController.upstreamBTransport,ProtocolLayer.linkBTransport,ProtocolLayer.handleRx_eq,
      if_pos hf,ProtocolLayer.forwardToActiveController,Proc.run_read_bind,hrole,hmark]
  have hreact : ∃ s', (fromProtoBTransport p).run s = (s',.ret .ok) := by
    rw [fromProtoBTransport,Proc.run_read_bind,hon]
    rcases hty with hty | hty
    · obtain ⟨ext,hext,hty⟩ := Option.map_eq_some_iff.mp hty
      simp only [hext,reaction,hty]
      exact ⟨_,rfl⟩
    · obtain ⟨ext,hext,hty⟩ := Option.map_eq_some_iff.mp hty
      simp only [hext,reaction,hty]
      exact ⟨_,rfl⟩
  obtain ⟨s',hs⟩ := hreact
  rw [answeredOk,hrun,hs]

theorem relay_out (h : Handled p s) (hout : kind p = .out)
    (hevents : g'.events = g.events ++ [.packet p s s']) (hsent : g'.sent = g.sent)
    (hone : s'.devCtrl.mEp1In = s.devCtrl.mEp1In)
    (htwo : s'.devCtrl.mEp2Out = s.devCtrl.mEp2Out.write p.data) :
    relay g' s' = (relay g s).accept p.data := by
  have hlanded : (Event.packet p s s').landed = some p.data := by
    simp only [Event.landed,hout,out_run h hout,and_self,if_true]
  have hlost : (Event.packet p s s').overwrites = s.devCtrl.mEp2Out.hasData := by
    simp only [Event.overwrites,decide_eq_true hout,Bool.true_and]
  simp only [relay,Relay.accept,hevents,hsent,hone,htwo,slot_write,slot_length,accepted,
    List.filterMap_append,List.filterMap_cons_some hlanded,List.filterMap_nil,List.countP_append,
    List.countP_singleton,hlost]
  cases s.devCtrl.mEp2Out.hasData <;> rfl

theorem relay_other (hout : kind p ≠ .out) (hevents : g'.events = g.events ++ [.packet p s s']) :
    accepted g'.events = accepted g.events ∧
      g'.events.countP Event.overwrites = g.events.countP Event.overwrites := by
  have hlanded : (Event.packet p s s').landed = none := by
    rw [Event.landed,if_neg fun h => hout h.1]
  have hlost : (Event.packet p s s').overwrites = false := by
    simp only [Event.overwrites,decide_eq_false hout,Bool.false_and]
  constructor
  · simp only [accepted,hevents,List.filterMap_append,List.filterMap_cons_none hlanded,
      List.filterMap_nil,List.append_nil]
  · simp [hevents,hlost]

theorem bulkInOf_answer (p : Payload) (s : Drd) : bulkInOf (answer p s) =
    if kind p = .bulkIn then (slot s.devCtrl.mEp1In).toList else [] := by
  cases hext : p.ext with
  | none => simp [answer,kind,bulkInOf,hext]
  | some ext =>
    cases hty : ext.pktType with
    | setup =>
      have hkind : kind p ≠ .bulkIn := by
        rw [ne_eq,kind_bulkIn_iff,Payload.pktType,hext]
        simp [hty]
      rw [if_neg hkind]
      simp only [answer,hext,hty]
      repeat' split
      all_goals rfl
    | bulkIn =>
      simp only [answer,kind,hext,hty,if_true,slot]
      split <;> rfl
    | _ => simp [answer,kind,bulkInOf,hext,hty]

theorem relay_packet (h : Handled p s) (hevents : g'.events = g.events ++ [.packet p s s'])
    (hsent : g'.sent = g.sent ++ bulkInOf (answer p s)) (hcore : core s' = core (absorb p s)) :
    Relay.Step (relay g s) (relay g' s') := by
  obtain ⟨hone,htwo⟩ := core_fifos hcore
  rw [absorb_mEp1In] at hone
  rw [absorb_mEp2Out] at htwo
  rw [bulkInOf_answer] at hsent
  by_cases hout : kind p = .out
  · have hin : kind p ≠ .bulkIn := by simp [hout]
    rw [if_neg fun hc => hin hc.1] at hone
    rw [if_pos hout] at htwo
    rw [if_neg hin,List.append_nil] at hsent
    rw [relay_out h hout hevents hsent hone htwo]
    exact .accept _ _
  · obtain ⟨haccepted,hlost⟩ := relay_other hout hevents
    rw [if_neg hout] at htwo
    by_cases hin : kind p = .bulkIn
    · have hslot : slot s'.devCtrl.mEp1In = none := by
        rw [hone]
        by_cases hfull : s.devCtrl.mEp1In.hasData = true
        · rw [if_pos ⟨hin,hfull⟩,slot_clear]
        · rw [if_neg fun hc => hfull hc.2,slot,if_neg hfull]
      rw [if_pos hin] at hsent
      have htake : relay g' s' = (relay g s).take := by
        simp only [relay,Relay.take,haccepted,hlost,hsent,hslot,htwo]
      rw [htake]
      exact .take _
    · rw [if_neg fun hc => hin hc.1] at hone
      rw [if_neg hin,List.append_nil] at hsent
      have hstay : relay g' s' = relay g s := by
        simp only [relay,haccepted,hlost,hsent,hone,htwo]
      rw [hstay]
      exact .stay _

theorem relay_turn (hevents : g'.events = g.events ++ [.turn s s']) (hsent : g'.sent = g.sent)
    (hcore : core s' = core (if Moves s then moveLoopback s else s)) :
    Relay.Step (relay g s) (relay g' s') := by
  obtain ⟨hone,htwo⟩ := core_fifos hcore
  have haccepted : accepted g'.events = accepted g.events := by
    simp [accepted,hevents,Event.landed]
  by_cases hm : Moves s
  · rw [if_pos hm] at hone htwo
    have hfirst : slot s.devCtrl.mEp2Out = some s.devCtrl.mEp2Out.buffer := by
      rw [slot,if_pos hm.2]
    have hlost : g'.events.countP Event.overwrites =
        g.events.countP Event.overwrites + s.devCtrl.mEp1In.hasData.toNat := by
      have hevent : (Event.turn s s').overwrites = s.devCtrl.mEp1In.hasData := by
        simp only [Event.overwrites,decide_eq_true hm,Bool.true_and]
      rw [hevents,List.countP_append,List.countP_singleton,hevent]
      cases s.devCtrl.mEp1In.hasData <;> rfl
    have hmove : relay g' s' = (relay g s).move := by
      simp only [relay,Relay.move,haccepted,hsent,hone,htwo,moveLoopback,slot_write,slot_clear,hfirst,
        hlost,slot_length]
    rw [hmove]
    exact .move _
  · rw [if_neg hm] at hone htwo
    have hlost : (Event.turn s s').overwrites = false := by
      simp only [Event.overwrites,decide_eq_false hm,Bool.false_and]
    have hstay : relay g' s' = relay g s := by
      simp only [relay,haccepted,hsent,hone,htwo]
      simp [hevents,hlost]
    rw [hstay]
    exact .stay _

/-- A step of the device is a step of the relay. -/
theorem relay_step (h : DeviceStep g s g' s') : Relay.Step (relay g s) (relay g' s') := by
  cases h with
  | still hevents hsent hcore =>
    obtain ⟨hone,htwo⟩ := core_fifos hcore
    have hstay : relay g' s' = relay g s := by simp only [relay,hevents,hsent,hone,htwo]
    rw [hstay]
    exact .stay _
  | packet p hp hevents hsent hcore => exact relay_packet hp hevents hsent hcore
  | turn hevents hsent hcore => exact relay_turn hevents hsent hcore

end Steps

section Runs
variable {ok : DeviceLog n → DrdConf n → DrdLabel Action n → Prop} {g : DeviceLog n} {c : DrdConf n}

theorem relay_reach (hr : Reach (drdKernel n) (drdBoot n) (deviceLog n) ok g c) :
    (relay g c.state).Ordered ∧ (relay g c.state).Counted := by
  induction hr with
  | boot => exact ⟨List.Sublist.refl _,rfl⟩
  | step hr hk hs ih =>
    have hstep := relay_step (deviceStep ⟨hr,hk,hs⟩)
    exact ⟨ih.1.step hstep,ih.2.step hstep⟩

end Runs

/-- Every accepted payload was sent or is held. -/
def Kept (g : DeviceLog n) (s : Drd) : Prop := (accepted g.events).Subperm (g.sent ++ held s)

/-- Every accepted payload was sent or is held exactly if no write to one of the two
buffers found it full. -/
theorem kept_iff (n : ℕ) (g : DeviceLog n) (c : DrdConf n)
    (hr : Reach (drdKernel n) (drdBoot n) (deviceLog n) (fun _ _ _ => True) g c) :
    Kept g c.state ↔ ∀ e ∈ g.events, e.overwrites = false := by
  obtain ⟨ho,hc⟩ := relay_reach hr
  have hkept : Kept g c.state ↔ (relay g c.state).lost = 0 := Relay.subperm_iff ho hc
  rw [hkept]
  simp [relay,List.countP_eq_zero]

theorem kept_waiting : ∃ g c, Reach (drdKernel 1) (drdBoot 1) (deviceLog 1) (fun _ _ _ => True) g c ∧
    accepted g.events = [[1]] ∧ Kept g c.state := by
  obtain ⟨g,c,hr,haccepted,hfits⟩ := exists_reach (drdKernel 1) (drdBoot 1) (deviceLog 1)
    (fun _ _ _ => True) (fun g _ => accepted g.events = [[1]] ∧ ∀ e ∈ g.events, e.overwrites = false)
    (attachRun .dfpAttached ++ arrive configurePacket ++ arrive (outPacket [1])) (by decide +kernel)
  exact ⟨g,c,hr,haccepted,(kept_iff 1 g c hr).mpr hfits⟩

/-- A second BULK_OUT before the loopback runs overwrites the first payload. -/
theorem not_kept_twoOuts : ¬ ∀ g c,
    Reach (drdKernel 1) (drdBoot 1) (deviceLog 1) (fun _ _ _ => True) g c →
    c.state.devCtrl.mConfigured = true →
      ∀ data ∈ accepted g.events, data ∈ g.sent ∨ data ∈ held c.state := by
  intro h
  obtain ⟨g,c,hr,hconf,haccepted,hsent,hheld⟩ := exists_reach (drdKernel 1) (drdBoot 1)
    (deviceLog 1) (fun _ _ _ => True) (fun g c => c.state.devCtrl.mConfigured = true ∧
      [1] ∈ accepted g.events ∧ [1] ∉ g.sent ∧ [1] ∉ held c.state)
    (attachRun .dfpAttached ++ arrive configurePacket ++ arrive (outPacket [1]) ++ arrive (outPacket [2]))
    (by decide +kernel)
  rcases h g c hr hconf [1] haccepted with hin | hin
  · exact hsent hin
  · exact hheld hin

/-- What the device sends in BULK_IN packets are accepted payloads, byte for byte, and
their arrival numbers increase strictly. -/
theorem arrivals_increase (n : ℕ) (g : DeviceLog n) (c : DrdConf n)
    (hr : Reach (drdKernel n) (drdBoot n) (deviceLog n) (fun _ _ _ => True) g c) :
    ∃ f : Fin g.sent.length → Fin (accepted g.events).length,
      StrictMono f ∧ ∀ i, g.sent.get i = (accepted g.events).get (f i) :=
  (relay_reach hr).1.arrivals

theorem arrivals_two : ∃ g c, Reach (drdKernel 1) (drdBoot 1) (deviceLog 1) (fun _ _ _ => True) g c ∧
    g.sent = [[1,2],[3]] ∧ ∃ f : Fin g.sent.length → Fin (accepted g.events).length,
      StrictMono f ∧ ∀ i, g.sent.get i = (accepted g.events).get (f i) := by
  let reply : List (DrdLabel Action 1) := [.reply (.inr 0) .ok,.eval (.inr 0)]
  obtain ⟨g,c,hr,hsent⟩ := exists_reach (drdKernel 1) (drdBoot 1) (deviceLog 1) (fun _ _ _ => True)
    (fun g _ => g.sent = [[1,2],[3]])
    (attachRun .dfpAttached ++ arrive configurePacket ++ loopRun [1,2] ++ arrive inPacket ++ reply ++
      loopRun [3] ++ arrive inPacket) (by decide +kernel)
  exact ⟨g,c,hr,hsent,arrivals_increase 1 g c hr⟩

end DeviceLog
end Usb3Drd
