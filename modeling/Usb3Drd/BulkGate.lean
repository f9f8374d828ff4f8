import Usb3Drd.DeviceLog

/-! Bulk traffic and the configuration of the device, whatever drives its enable and its role.
Only the loopback looks at the configuration; what it does afterwards depends on that. -/
namespace Usb3Drd
namespace BulkGate

open Coop DeviceController Inbound DeviceLog

variable {n : ℕ}

/-- The environment of the device, which may also drive enable and role as it likes. -/
inductive LinkAction
  | device (a : Action)
  | setDevEnable (enable : Sig Bool)
  | setRole (role : Sig Usb3Role)

def LinkAction.apply : LinkAction → Drd → Option Drd
  | .device a, s => a.apply s
  | .setDevEnable enable, s => some { s with sigDevEnable := enable }
  | .setRole role, s => some { s with sigRole := role }

def linkKernel (n : ℕ) := kernelOf n LinkAction.apply

abbrev LinkLabel (n : ℕ) := DrdLabel LinkAction n

/-- The packet of each open call, and whether a SET_CONFIGURATION has been handled. -/
structure GateLog (n : ℕ) where
  arrived : Tid n → Option Payload := fun _ => none
  handled : Bool := false

def GateLog.configures (g : GateLog n) (c : DrdConf n) (t : Tid n) : Bool :=
  (g.arrived t).any fun p =>
    decide (c.loc t = .ready .start ∧ kind p = .configure ∧ Handled p c.state)

def gateLog (n : ℕ) :
    Watch (GateLog n) Drd WaitPoint Payload TlmResponse Loop LinkAction Payload (Tid n) where
  init := {}
  next g c l _ :=
    match l with
    | .enter t p => { g with arrived := Function.update g.arrived t (some p) }
    | .eval t => { g with handled := g.handled || g.configures c t }
    | _ => g

def ofDevice : Tid n → Bool
  | .inl .loopbackProcess => true
  | .inr _ => true
  | .inl _ => false

def isBulk : Said → Bool
  | some (some .bulkIn,_) => true
  | some (some .tpErdy,_) => true
  | _ => false

/-- A write of `bulk_irq` or the update phase raises it. -/
def Raises (s s' : Drd) : Prop :=
  (s.sigBulkIrq.nxt = false ∧ s'.sigBulkIrq.nxt = true) ∨
    (s.sigBulkIrq.cur = false ∧ s'.sigBulkIrq.cur = true)

/-- The loopback has sent its TP_ERDY and not raised the line yet. -/
def Moved (c : DrdConf n) : Prop := (c.loc loopbackThread).outstanding.isSome = true

/-- Something bears witness to a configuration. -/
inductive Open (c : DrdConf n) : Prop
  | configured (h : c.state.devCtrl.mConfigured = true)
  | full (h : c.state.devCtrl.mEp1In.hasData = true)
  | irq (h : c.state.sigBulkIrq.cur = true ∨ c.state.sigBulkIrq.nxt = true)
  | moved (h : Moved c)

section Steps
variable {present : Process → Bool} {g : GateLog n} {c c' : DrdConf n} {l : LinkLabel n}

theorem gateLog_records : Records (gateLog n) GateLog.arrived :=
  .of_update (fun _ _ _ _ _ => rfl) fun g c l c' hl => by
    cases l with
    | enter t e => exact absurd rfl (hl t e)
    | _ => rfl

theorem call_server (i : Fin n) : Server (linkKernel n) (bootWith n present) (gateLog n)
    GateLog.arrived (.inr i) callGuar callHead :=
  inbound_server gateLog_records i

def gateSide (s : Drd) : Bool × Bool × Sig Bool :=
  (s.devCtrl.mConfigured,s.devCtrl.mEp1In.hasData,s.sigBulkIrq)

theorem Open.same (h : Open c') (hside : gateSide c'.state = gateSide c.state)
    (hmoved : Moved c' → Moved c) : Open c := by
  simp only [gateSide,Prod.mk.injEq] at hside
  obtain ⟨hconf,hfull,hirq⟩ := hside
  cases h with
  | configured h => exact .configured (hconf.symm.trans h)
  | full h => exact .full (hfull.symm.trans h)
  | irq h => exact .irq (by rwa [hirq] at h)
  | moved h => exact .moved (hmoved h)

theorem moved_elsewhere (hs : (linkKernel n).step c l = some c') (hl : l ≠ .eval loopbackThread) :
    Moved c' → Moved c := by
  rw [Moved,step_outstanding hs hl]
  exact id

theorem full_of_answer {p : Payload} {s : Drd} (h : isBulk (answer p s) = true) :
    s.devCtrl.mEp1In.hasData = true := by
  cases hext : p.ext with
  | none => simp [answer,hext,isBulk] at h
  | some ext =>
    cases hty : ext.pktType with
    | bulkIn =>
      by_contra hempty
      simp only [answer,hext,hty] at h
      rw [if_neg hempty] at h
      cases h
    | setup =>
      simp only [answer,hext,hty] at h
      repeat' split at h
      all_goals cases h
    | _ => simp [answer,hext,hty,isBulk] at h

theorem gateSide_pass (p : Payload) (s : Drd) : gateSide (passBy p s) = gateSide s := by
  obtain ⟨_,hs⟩ := passBy_frame p s
  rw [hs]
  rfl

theorem gateSide_absorb (p : Payload) (s : Drd) :
    (absorb p s).sigBulkIrq = s.sigBulkIrq ∧
      ((absorb p s).devCtrl.mEp1In.hasData = true → s.devCtrl.mEp1In.hasData = true) ∧
      ((absorb p s).devCtrl.mConfigured = true →
        s.devCtrl.mConfigured = true ∨ kind p = .configure) := by
  refine ⟨?_,fun hfull => ?_,fun hconf => ?_⟩
  · obtain ⟨d,conf,h⟩ := absorb_frame p s
    rw [h]
  · rw [absorb_mEp1In] at hfull
    split at hfull
    · cases hfull
    · exact hfull
  · simpa [absorb_mConfigured] using hconf

/-- What one step may do: open the gate by a SET_CONFIGURATION, or send and raise the line
where it is open. -/
structure GateStep (g : GateLog n) (c : DrdConf n) (l : LinkLabel n) (c' : DrdConf n) : Prop where
  opens : Open c' → Open c ∨ ((gateLog n).next g c l c').handled = true
  sends : ∀ t, l = .eval t → ofDevice t = true → isBulk (saidAt (c'.loc t)) = true → Open c
  raises : Raises c.state c'.state → Open c

theorem GateStep.still (hside : gateSide c'.state = gateSide c.state)
    (hmoved : Moved c' → Moved c)
    (hsends : ∀ t, l = .eval t → ofDevice t = true → isBulk (saidAt (c'.loc t)) = true → Open c) :
    GateStep g c l c' where
  opens h := .inl (h.same hside hmoved)
  sends := hsends
  raises h := by
    have hirq := congrArg (·.2.2) hside
    simp only [gateSide] at hirq
    rw [Raises,hirq] at h
    simp at h

theorem step_call {i : Fin n} (ht : Taken (linkKernel n) (bootWith n present) (gateLog n)
    (fun _ _ _ => True) g c (.eval (.inr i)) c') : GateStep g c (.eval (.inr i)) c' := by
  obtain ⟨p,o,hp,hloc,hguar⟩ := (call_server i).eval ht
  have hmoved := moved_elsewhere ht.step (by simp)
  have hquiet : gateSide c'.state = gateSide c.state → saidAt (c'.loc (.inr i)) = none →
      GateStep g c (.eval (.inr i)) c' := by
    intro hside hsaid
    refine .still hside hmoved fun t hl _ hbulk => ?_
    cases hl
    rw [hsaid] at hbulk
    cases hbulk
  cases o with
  | start =>
    by_cases hh : Handled p c.state
    · rw [callGuar,if_pos hh] at hguar
      obtain ⟨⟨layer,hs⟩,hsaid⟩ := hguar
      obtain ⟨hirq,hfull,hconf⟩ := gateSide_absorb p c.state
      have hirq' : c'.state.sigBulkIrq = c.state.sigBulkIrq := by rw [hs,← hirq]
      refine ⟨fun h => ?_,fun t hl _ hbulk => ?_,fun h => ?_⟩
      · cases h with
        | configured h =>
          rw [hs] at h
          rcases hconf h with hconf | hkind
          · exact .inl (.configured hconf)
          · refine .inr ?_
            have hconfigures : g.configures c (.inr i) = true := by
              simp only [GateLog.configures,hp,Option.any_some,decide_eq_true_eq]
              exact ⟨hloc,hkind,hh⟩
            simp [gateLog,hconfigures]
        | full h =>
          rw [hs] at h
          exact .inl (.full (hfull h))
        | irq h =>
          rw [hirq'] at h
          exact .inl (.irq h)
        | moved h => exact .inl (.moved (hmoved h))
      · cases hl
        rw [hsaid] at hbulk
        exact .full (full_of_answer hbulk)
      · rw [Raises,hirq'] at h
        simp at h
    · rw [callGuar,if_neg hh] at hguar
      exact hquiet (by rw [hguar.1,gateSide_pass]) hguar.2
  | woke w => exact hquiet (by rw [hguar.1]) hguar.2
  | returned q r => exact hquiet (by rw [hguar.1]) hguar.2

theorem step_loop (ht : Taken (linkKernel n) (bootWith n present) (gateLog n)
    (fun _ _ _ => True) g c (.eval loopbackThread) c') :
    GateStep g c (.eval loopbackThread) c' := by
  obtain ⟨o,hloc,-,hguar⟩ := loopSpec_meets.guar ht.forget
  change loopGuar o c.state (c'.loc loopbackThread) c'.state at hguar
  have hopen : Open c → GateStep g c (.eval loopbackThread) c' :=
    fun h => ⟨fun _ => .inl h,fun _ _ _ _ => h,fun _ => h⟩
  have hwaits : ∀ w, c'.loc loopbackThread = .waiting w →
      ¬Moved c' ∧ ∀ t, (.eval loopbackThread : LinkLabel n) = .eval t →
        ofDevice t = true → isBulk (saidAt (c'.loc t)) = true → Open c := by
    intro w hw
    refine ⟨by simp [Moved,hw,Loc.outstanding],fun t hl _ hbulk => ?_⟩
    cases hl
    rw [hw] at hbulk
    cases hbulk
  cases o with
  | start =>
    obtain ⟨hmoved,hsends⟩ := hwaits _ hguar.2
    exact .still (by rw [hguar.1]) (fun h => absurd h hmoved) hsends
  | returned q r => exact hopen (.moved (by rw [Moved,hloc]; rfl))
  | woke w =>
    rw [loopGuar] at hguar
    split at hguar
    · split at hguar
      · rename_i hm
        exact hopen (.configured hm.1)
      · obtain ⟨hmoved,hsends⟩ := hwaits _ hguar.2
        exact .still (by rw [hguar.1]) (fun h => absurd h hmoved) hsends
    · obtain ⟨hmoved,hsends⟩ := hwaits _ hguar.2
      refine ⟨fun h => .inl ?_,hsends,fun h => ?_⟩
      · cases h with
        | configured h =>
          rw [hguar.1] at h
          exact .configured h
        | full h =>
          rw [hguar.1] at h
          exact .full h
        | irq h =>
          rw [hguar.1] at h
          exact .irq (.inl (by simpa using h))
        | moved h => exact absurd h hmoved
      · rw [hguar.1] at h
        simp [Raises] at h

theorem step_peer {p : Process} (hp : p ≠ .loopbackProcess)
    (ht : Taken (linkKernel n) (bootWith n present) (gateLog n) (fun _ _ _ => True) g c
      (.eval (.inl p)) c') : GateStep g c (.eval (.inl p)) c' := by
  have hside := congrArg gateSide (taken_unwritten ht)
  have hside' : gateSide c'.state = gateSide c.state := by
    cases p with
    | loopbackProcess => exact absurd rfl hp
    | _ => exact hside
  refine .still hside' (moved_elsewhere ht.step (by simpa using hp)) fun t hl hdev _ => ?_
  cases hl
  cases p with
  | loopbackProcess => exact absurd rfl hp
  | _ => cases hdev

theorem gateSide_act {a : LinkAction} {s s' : Drd} (ha : a.apply s = some s') :
    gateSide s' = gateSide s := by
  cases a with
  | device a =>
    have hside := congrArg gateSide (Action.apply_unwritten ha)
    exact hside
  | setDevEnable enable => cases ha; rfl
  | setRole role => cases ha; rfl

theorem gateStep (ht : Taken (linkKernel n) (bootWith n present) (gateLog n)
    (fun _ _ _ => True) g c l c') : GateStep g c l c' := by
  have hquiet : (∀ t, l ≠ .eval t) → gateSide c'.state = gateSide c.state → GateStep g c l c' :=
    fun hl hside => .still hside (moved_elsewhere ht.step (hl _)) fun t ht => absurd ht (hl t)
  cases l with
  | eval t =>
    rcases t with p | i
    · by_cases hp : p = .loopbackProcess
      · subst hp
        exact step_loop ht
      · exact step_peer hp ht
    · exact step_call ht
  | delta =>
    have hmoved := moved_elsewhere ht.step (by simp)
    obtain ⟨-,rfl⟩ := step_delta ht.step
    refine ⟨fun h => .inl ?_,fun t ht => (by cases ht),fun h => .irq (.inr ?_)⟩
    · cases h with
      | configured h => exact .configured h
      | full h => exact .full h
      | irq h => exact .irq (.inr (h.elim id id))
      | moved h => exact .moved (hmoved h)
    · rcases h with ⟨hlow,hhigh⟩ | ⟨-,hhigh⟩
      · exact absurd (hlow.symm.trans hhigh) (by simp)
      · exact hhigh
  | _ =>
    refine hquiet (by simp) (step_keeps ht.step (by simp) ?_ (by simp))
    exact fun a s _ ha => gateSide_act ha

theorem handled_of_open (hr : Reach (linkKernel n) (bootWith n present) (gateLog n)
    (fun _ _ _ => True) g c) : Open c → g.handled = true := by
  induction hr with
  | boot =>
    intro h
    cases h with
    | configured h => cases h
    | full h => cases h
    | irq h => exact absurd h (by simp [bootWith,Drd.reset])
    | moved h =>
      simp only [Moved,Conf.loc,bootWith] at h
      split at h
      · cases h
      · cases h
  | @step g c l c' hr hok hs ih =>
    have hmono : g.handled = true → ((gateLog n).next g c l c').handled = true := by
      intro h
      cases l with
      | eval t => simp [gateLog,h]
      | _ => exact h
    intro h
    rcases (gateStep ⟨hr,hok,hs⟩).opens h with h | h
    · exact hmono (ih h)
    · exact h

end Steps

/-- Whatever processes there are, whatever arrives and however enable and role are driven: the
device sends a BULK_IN or a TP_ERDY, or raises `bulk_irq`, only after it has handled a
SET_CONFIGURATION. -/
theorem bulk_after_configuration (n : ℕ) (present : Process → Bool) (g : GateLog n)
    (c c' : DrdConf n) (l : LinkLabel n)
    (ht : Taken (linkKernel n) (bootWith n present) (gateLog n) (fun _ _ _ => True) g c l c') :
    (∀ t, l = .eval t → ofDevice t = true → isBulk (saidAt (c'.loc t)) = true →
        g.handled = true) ∧
      (Raises c.state c'.state → g.handled = true) := by
  have hstep := gateStep ht
  have hopen := handled_of_open ht.reach
  exact ⟨fun t hl hdev hbulk => hopen (hstep.sends t hl hdev hbulk),fun h => hopen (hstep.raises h)⟩

def gateRun : List (LinkLabel 1) :=
  [.eval loopbackThread,.act (.setDevEnable (.steady true)),.act (.setRole (.steady .device)),
    .enter callThread configurePacket,.eval callThread,.enter callThread (outPacket [1]),
    .eval callThread,.act (.setDevEnable (.steady false)),.delta]

theorem erdy_after_configuration : ∃ g c c', Taken (linkKernel 1)
    (bootWith 1 (· = .loopbackProcess)) (gateLog 1) (fun _ _ _ => True) g c (.eval loopbackThread) c' ∧
      isBulk (saidAt (c'.loc loopbackThread)) = true ∧ g.handled = true := by
  obtain ⟨g,c,c',ht,hbulk⟩ := exists_taken (linkKernel 1) (bootWith 1 (· = .loopbackProcess))
    (gateLog 1) (fun _ _ _ => True) (.eval loopbackThread)
    (fun _ _ c' => isBulk (saidAt (c'.loc loopbackThread)) = true) gateRun (by decide +kernel)
  exact ⟨g,c,c',ht,hbulk,
    (bulk_after_configuration 1 _ g c c' _ ht).1 loopbackThread rfl rfl hbulk⟩

end BulkGate
end Usb3Drd
