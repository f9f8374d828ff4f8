import Usb3Drd.LoopbackData

/-! Which packets touch which endpoint buffer. The endpoint number of a packet is never
looked at, and the data stage of a control transfer is taken for bulk data. -/
namespace Usb3Drd

open Coop DeviceController Inbound DeviceLog

namespace Endpoints

variable {n : ℕ}

def bulkOut2 (p : Payload) : Bool := p.ext.any fun ext => ext.pktType = .bulkOut ∧ ext.endpoint = 2

def bulkIn1 (p : Payload) : Bool := p.ext.any fun ext => ext.pktType = .bulkIn ∧ ext.endpoint = 1

/-- A packet changes the buffer of endpoint 2 only as a BULK_OUT for endpoint 2, and
empties that of endpoint 1 only as a BULK_IN for endpoint 1. -/
def Isolated : Event → Prop
  | .packet p s s' =>
    (s'.devCtrl.mEp2Out ≠ s.devCtrl.mEp2Out → bulkOut2 p = true) ∧
      (s.devCtrl.mEp1In.hasData = true → s'.devCtrl.mEp1In.hasData = false →
        bulkIn1 p = true)
  | .turn _ _ => True

/-- OUT data comes in a BULK_OUT for endpoint 2, unless endpoint 2 holds the same data
already, and data is fetched by a BULK_IN for endpoint 1, unless there is none. -/
def Proper : Event → Prop
  | .packet p s _ =>
    (kind p = .out → bulkOut2 p = true ∨ s.devCtrl.mEp2Out = ⟨p.data,true⟩) ∧
      (kind p = .bulkIn → bulkIn1 p = true ∨ s.devCtrl.mEp1In.hasData = false)
  | .turn _ _ => True

instance : ∀ e, Decidable (Isolated e)
  | .packet _ _ _ => inferInstanceAs (Decidable ((_ → _) ∧ (_ → _ → _)))
  | .turn _ _ => isTrue trivial

instance : ∀ e, Decidable (Proper e)
  | .packet _ _ _ => inferInstanceAs (Decidable ((_ → _) ∧ (_ → _)))
  | .turn _ _ => isTrue trivial

/-- The payloads of the BULK_OUT packets for endpoint 2. -/
def bulkData (events : List Event) : List (List Byte) :=
  events.filterMap fun e => match e with
    | .packet p _ _ => if bulkOut2 p then some p.data else none
    | .turn _ _ => none

section Steps
variable {g g' : DeviceLog n} {s s' : Drd} {p : Payload}

theorem kind_of_bulkOut2 (h : bulkOut2 p = true) : kind p = .out := by
  obtain ⟨ext,hext,hty⟩ := (Option.any_eq_true _ _).mp h
  rw [kind_out_iff,Payload.pktType,hext]
  exact .inl (congrArg some (of_decide_eq_true hty).1)

theorem isolated_packet (hcore : core s' = core (absorb p s)) :
    Isolated (.packet p s s') ↔ Proper (.packet p s s') := by
  obtain ⟨hone,htwo⟩ := core_fifos hcore
  rw [absorb_mEp1In] at hone
  rw [absorb_mEp2Out] at htwo
  refine and_congr ⟨fun h hout => ?_,fun h hchange => ?_⟩ ⟨fun h hin => ?_,fun h hfull hempty => ?_⟩
  · rw [if_pos hout] at htwo
    by_cases hsame : s'.devCtrl.mEp2Out = s.devCtrl.mEp2Out
    · exact .inr (hsame.symm.trans htwo)
    · exact .inl (h hsame)
  · by_cases hout : kind p = .out
    · rw [if_pos hout] at htwo
      rcases h hout with haddr | hsame
      · exact haddr
      · exact absurd (htwo.trans hsame.symm) hchange
    · rw [if_neg hout] at htwo
      exact absurd htwo hchange
  · cases hfull : s.devCtrl.mEp1In.hasData with
    | false => exact .inr rfl
    | true =>
      rw [if_pos ⟨hin,hfull⟩] at hone
      exact .inl (h hfull (by rw [hone]; rfl))
  · by_cases hin : kind p = .bulkIn
    · rcases h hin with haddr | hnone
      · exact haddr
      · exact absurd (hnone.symm.trans hfull) (by simp)
    · rw [if_neg fun hc => hin hc.1] at hone
      exact absurd (hfull.symm.trans (hone ▸ hempty)) (by simp)

/-- The relay as it is if only BULK_OUT packets for endpoint 2 are accepted. -/
def bulkRelay (g : DeviceLog n) (s : Drd) : Relay (List Byte) :=
  { relay g s with accepted := bulkData g.events }

theorem step_accepted {α : Type} {r r' : Relay α} (h : Relay.Step r r')
    (hsame : r'.accepted = r.accepted) (a : List α) :
    Relay.Step { r with accepted := a } { r' with accepted := a } := by
  cases h with
  | stay => exact .stay _
  | accept b =>
    have hlength := congrArg List.length hsame
    simp [Relay.accept] at hlength
  | move =>
    have hmove : { r.move with accepted := a } = ({ r with accepted := a } : Relay α).move := by
      cases r with
      | mk acc sent first second lost => cases first <;> rfl
    rw [hmove]
    exact .move _
  | take => exact .take _

theorem bulkData_snoc (e : Event) (hevents : g'.events = g.events ++ [e])
    (h : ∀ p s s', e = .packet p s s' → kind p ≠ .out) : bulkData g'.events = bulkData g.events := by
  cases e with
  | turn s s' => simp [bulkData,hevents]
  | packet p s s' =>
    have hnot : bulkOut2 p = false := by
      by_contra haddr
      exact h p s s' rfl (kind_of_bulkOut2 (by simpa using haddr))
    simp [bulkData,hevents,hnot]

theorem bulkRelay_step (h : DeviceStep g s g' s') (hproper : ∀ e ∈ g'.events, Proper e)
    (ho : (bulkRelay g s).Ordered) : (bulkRelay g' s').Ordered := by
  have hquiet : accepted g'.events = accepted g.events → bulkData g'.events = bulkData g.events →
      (bulkRelay g' s').Ordered := by
    intro hacc hbulk
    rw [bulkRelay,hbulk]
    exact ho.step (step_accepted (relay_step h) hacc _)
  cases h with
  | still hevents hsent hcore => exact hquiet (by rw [hevents]) (by rw [hevents])
  | turn hevents hsent hcore =>
    refine hquiet ?_ (bulkData_snoc _ hevents fun _ _ _ hp => by cases hp)
    simp [accepted,hevents,Event.landed]
  | packet p hp hevents hsent hcore =>
    by_cases hout : kind p = .out
    · obtain ⟨hone,htwo⟩ := core_fifos hcore
      rw [absorb_mEp1In,if_neg fun hc => by rw [hout] at hc; cases hc.1] at hone
      rw [absorb_mEp2Out,if_pos hout] at htwo
      rw [bulkInOf_answer,if_neg (by simp [hout]),List.append_nil] at hsent
      have hrelay := relay_out hp hout hevents hsent hone htwo
      have hmem : Event.packet p s s' ∈ g'.events := by simp [hevents]
      cases haddr : bulkOut2 p with
      | true =>
        have hbulk : bulkData g'.events = bulkData g.events ++ [p.data] := by
          simp [bulkData,hevents,haddr]
        have haccept : bulkRelay g' s' = (bulkRelay g s).accept p.data := by
          rw [bulkRelay,hrelay,hbulk]
          rfl
        rw [haccept]
        exact ho.step (.accept _ _)
      | false =>
        have hsame := ((hproper _ hmem).1 hout).resolve_left (by simp [haddr])
        have hbulk : bulkData g'.events = bulkData g.events := by
          simp [bulkData,hevents,haddr]
        have hheld : held s' = held s := by
          rw [held,held,hone,htwo,hsame]
          rfl
        rw [Relay.Ordered] at ho ⊢
        show (g'.sent ++ held s').Sublist (bulkData g'.events)
        rw [hsent,hheld,hbulk]
        exact ho
    · refine hquiet (relay_other hout hevents).1 (bulkData_snoc _ hevents fun p' _ _ hp' => ?_)
      obtain ⟨rfl,-,-⟩ := Event.packet.inj hp'
      exact hout

end Steps

section Runs
variable {ok : DeviceLog n → DrdConf n → DrdLabel Action n → Prop} {g : DeviceLog n} {c : DrdConf n}

/-- Every event of a run is isolated exactly if it is proper. -/
theorem isolated_events (hr : Reach (drdKernel n) (drdBoot n) (deviceLog n) ok g c) :
    ∀ e ∈ g.events, Isolated e ↔ Proper e := by
  induction hr with
  | boot =>
    intro e he
    cases he
  | @step g c l c' hr hk hs ih =>
    have hsnoc : ∀ e', ((deviceLog n).next g c l c').events = g.events ++ [e'] →
        (Isolated e' ↔ Proper e') →
          ∀ e ∈ ((deviceLog n).next g c l c').events, Isolated e ↔ Proper e := by
      intro e' hevents hnew e he
      rw [hevents] at he
      rcases List.mem_append.mp he with he | he
      · exact ih e he
      · rw [List.mem_singleton.mp he]
        exact hnew
    cases deviceStep ⟨hr,hk,hs⟩ with
    | still hevents hsent hcore => rwa [hevents]
    | packet p hp hevents hsent hcore => exact hsnoc _ hevents (isolated_packet hcore)
    | turn hevents hsent hcore => exact hsnoc _ hevents Iff.rfl

theorem bulkRelay_reach (hr : Reach (drdKernel n) (drdBoot n) (deviceLog n) ok g c) :
    (∀ e ∈ g.events, Proper e) → (bulkRelay g c.state).Ordered := by
  induction hr with
  | boot => exact fun _ => List.Sublist.refl _
  | @step g c l c' hr hk hs ih =>
    intro hproper
    have hstep := deviceStep ⟨hr,hk,hs⟩
    refine bulkRelay_step hstep hproper (ih fun e he => hproper e ?_)
    cases hstep with
    | still hevents => rwa [hevents]
    | packet p hp hevents => rw [hevents]; exact List.mem_append_left _ he
    | turn hevents => rw [hevents]; exact List.mem_append_left _ he

end Runs

/-- The endpoints are kept apart, and what is sent in BULK_IN packets came in BULK_OUT
packets for endpoint 2, exactly if every packet that moves data is of the right type and
names the right endpoint. -/
theorem isolated_iff (n : ℕ) (g : DeviceLog n) (c : DrdConf n)
    (hr : Reach (drdKernel n) (drdBoot n) (deviceLog n) (fun _ _ _ => True) g c) :
    ((∀ e ∈ g.events, Isolated e) ∧ g.sent.Sublist (bulkData g.events)) ↔
      ∀ e ∈ g.events, Proper e := by
  have hevents := isolated_events hr
  constructor
  · rintro ⟨h,-⟩ e he
    exact (hevents e he).mp (h e he)
  · intro h
    refine ⟨fun e he => (hevents e he).mpr (h e he),?_⟩
    exact (List.sublist_append_left _ _).trans (bulkRelay_reach hr h)

theorem isolated_bulk : ∃ g c, Reach (drdKernel 1) (drdBoot 1) (deviceLog 1) (fun _ _ _ => True) g c ∧
    g.sent = [[1]] ∧ (∀ e ∈ g.events, Isolated e) ∧ g.sent.Sublist (bulkData g.events) := by
  obtain ⟨g,c,hr,hsent,hproper⟩ := exists_reach (drdKernel 1) (drdBoot 1) (deviceLog 1)
    (fun _ _ _ => True) (fun g _ => g.sent = [[1]] ∧ ∀ e ∈ g.events, Proper e)
    (attachRun .dfpAttached ++ arrive configurePacket ++ loopRun [1] ++ arrive inPacket) (by decide +kernel)
  exact ⟨g,c,hr,hsent,(isolated_iff 1 g c hr).mpr hproper⟩

/-- The data stage of a control transfer comes back in a BULK_IN packet. -/
theorem not_isolated_ctrlData : ¬ ∀ g c,
    Reach (drdKernel 1) (drdBoot 1) (deviceLog 1) (fun _ _ _ => True) g c →
      (∀ e ∈ g.events, Isolated e) ∧ g.sent.Sublist (bulkData g.events) := by
  intro h
  let ctrlPacket : Payload := { data := [7], ext := some { pktType := .ctrlData, endpoint := 0 } }
  obtain ⟨g,c,hr,hsent,hbulk⟩ := exists_reach (drdKernel 1) (drdBoot 1) (deviceLog 1)
    (fun _ _ _ => True) (fun g _ => g.sent = [[7]] ∧ bulkData g.events = [])
    (attachRun .dfpAttached ++ arrive configurePacket ++ arrive ctrlPacket ++ [.delta,.eval loopbackThread,
      .reply loopbackThread .ok,.eval loopbackThread] ++ arrive inPacket) (by decide +kernel)
  have hsub := (h g c hr).2
  rw [hsent,hbulk] at hsub
  cases hsub

end Endpoints
end Usb3Drd
