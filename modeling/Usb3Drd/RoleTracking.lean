import Usb3Drd.System

/-! The role manager by itself: its two input ports and its request call are driven
freely, and the question is what it has caught up with when it waits again. -/
namespace Usb3Drd
namespace RoleTracking

open Coop RoleManager

inductive RoleInput
  | setCcState (cc : UsbCCcState)
  | setVbus (v : Bool)
  | requestRole (r : Usb3Role)
  deriving DecidableEq

/-- An input changes at most once between two update phases. -/
def RoleInput.apply : RoleInput → Drd → Option Drd
  | .setCcState cc, s =>
    if s.sigCcStateInt.changes then none
    else some { s with sigCcStateInt := s.sigCcStateInt.write cc }
  | .setVbus v, s =>
    if s.sigVbusInt.changes then none else some { s with sigVbusInt := s.sigVbusInt.write v }
  | .requestRole r, s => some (RoleManager.requestRole r s)

def roleKernel := kernelOf 0 RoleInput.apply

def roleBoot : DrdConf 0 := bootWith 0 fun p => decide (p = .roleDetectionProcess)

abbrev RoleLabel := DrdLabel RoleInput 0

abbrev RoleWatch (γ : Type) :=
  Watch γ Drd WaitPoint Payload TlmResponse Loop RoleInput Payload (Tid 0)

def Idle (c : DrdConf 0) : Prop :=
  c.loc roleThread = .waiting .roleInputs ∧ c.state.wakes .roleInputs = false

def Tracks (s : Drd) : Prop := s.roleMgr.mRole = askedRole s

instance (c : DrdConf 0) : Decidable (Idle c) := inferInstanceAs (Decidable (_ ∧ _))
instance (s : Drd) : Decidable (Tracks s) := inferInstanceAs (Decidable (_ = _))

def isRequest : RoleLabel → Bool
  | .act (.requestRole _) => true
  | _ => false

/-- The process is about to leave the wait inside `applyRole`. -/
def pulseEnds (c : DrdConf 0) : RoleLabel → Prop
  | .eval t => t = roleThread ∧ c.loc t = .ready (.woke .rolePulse)
  | _ => False

instance (c : DrdConf 0) (l : RoleLabel) : Decidable (pulseEnds c l) := by
  cases l with
  | eval t => exact inferInstanceAs (Decidable (_ ∧ _))
  | _ => exact isFalse id

theorem only_roleThread {γ : Type} {w : RoleWatch γ} {ok : γ → DrdConf 0 → RoleLabel → Prop}
    {g : γ} {c c' : DrdConf 0} {u : Tid 0}
    (ht : Taken roleKernel roleBoot w ok g c (.eval u) c') : u = roleThread := by
  obtain ⟨o,p,s,stop,hu,-,-⟩ := step_eval ht.step
  match u with
  | .inl q =>
    by_contra hne
    have hq : decide (q = .roleDetectionProcess) = false :=
      decide_eq_false fun h => hne (congrArg Sum.inl h)
    rw [absent_idle hq ht.reach] at hu
    cases hu

/-- What is recorded of a run: the role asked for when the process last ran, and whether
a role was requested since then, and since it last woke up to an event. -/
structure RoleLog where
  asked : Usb3Role := .none
  sinceRun : Bool := false
  sinceWake : Bool := false

def RoleLog.run (g : RoleLog) (l : Loc WaitPoint Payload TlmResponse) (s : Drd) : RoleLog where
  asked := askedRole s
  sinceRun := false
  sinceWake := if l = .ready (.woke .roleInputs) then false else g.sinceWake

def roleLog : Watch RoleLog Drd WaitPoint Payload TlmResponse Loop RoleInput Payload (Tid 0) where
  init := {}
  next g c l _ := match l with
    | .eval t => g.run (c.loc t) c.state
    | .act (.requestRole r) => if r = .none then g else { g with sinceRun := true, sinceWake := true }
    | _ => g

/-- No software request, and when a pulse ends the inputs ask for the same role as at
its start, or an event is about to fire. -/
def steadyPulse (g : RoleLog) (c : DrdConf 0) (l : RoleLabel) : Prop :=
  isRequest l = false ∧
    (pulseEnds c l → askedRole c.state = g.asked ∨ c.state.wakes .roleInputs = true)

/-- When a pulse ends no role was requested since its start, or an event is about to fire. -/
def quietPulse (g : RoleLog) (c : DrdConf 0) (l : RoleLabel) : Prop :=
  pulseEnds c l → g.sinceRun = false ∨ c.state.wakes .roleInputs = true

instance (g : RoleLog) (c : DrdConf 0) (l : RoleLabel) : Decidable (steadyPulse g c l) :=
  inferInstanceAs (Decidable (_ ∧ _))
instance (g : RoleLog) (c : DrdConf 0) (l : RoleLabel) : Decidable (quietPulse g c l) :=
  inferInstanceAs (Decidable (_ → _))

/-- An event is about to wake the process, or it has caught up: with the inputs when `A`
holds, with the requests when `B` does. -/
def CaughtUp (A B : Prop) (s : Drd) : Prop :=
  s.wakes .roleInputs = true ∨ ((A → Tracks s) ∧ (B → NoRequests s))

def MidPulse (A : Prop) (g : RoleLog) (s : Drd) : Prop :=
  (A → s.roleMgr.mRole = g.asked) ∧ (¬NoRequests s → g.sinceRun = true)

/-- Where the process stands, and what it has caught up with there. -/
inductive RoleAt (A B : Prop) (g : RoleLog) (s : Drd) : Loc WaitPoint Payload TlmResponse → Prop
  | start (h : CaughtUp A B s) : RoleAt A B g s (.ready .start)
  | waits (h : CaughtUp A B s) : RoleAt A B g s (.waiting .roleInputs)
  | woken : RoleAt A B g s (.ready (.woke .roleInputs))
  | pulse (h : MidPulse A g s) : RoleAt A B g s (.waiting .rolePulse)
  | pulseEnd (h : MidPulse A g s) : RoleAt A B g s (.ready (.woke .rolePulse))

def RequestsNew (A : Prop) (g : RoleLog) (s : Drd) : Prop :=
  (A → NoRequests s) ∧ (¬NoRequests s → g.sinceWake = true)

/-- `A` and `B` stand for the two conditions on the run. -/
def roleSpec (A B : Prop) : Spec RoleLog Drd WaitPoint Payload TlmResponse Loop where
  held l g s := RequestsNew A g s ∧ RoleAt A B g s l
  pre o g s := RequestsNew A g s ∧ RoleAt A B g s (.ready o) ∧
    (o = .woke .rolePulse → CaughtUp A B s)
  rely _ _ _ _ := True
  guar _ _ _ _ _ := True
  leave g o s _ _ := g.run (.ready o) s
  head l x := l = .roleDetection ∧ RequestsNew A (x.hist.run (.ready x.origin) x.start) x.state ∧
    CaughtUp A B x.state

theorem requestsNew_of_noRequests {A : Prop} {s : Drd} (h : NoRequests s) (g : RoleLog) :
    RequestsNew A g s := ⟨fun _ => h,fun hn => absurd h hn⟩

theorem roleSpec_loops (A B : Prop) : (roleSpec A B).Loops loopCode := by
  rintro l x ⟨rfl,hnew,hcaught⟩
  simp only [loopCode,Spec.Safe,roleDetectionLoop,Proc.wp_bind,Proc.wp_sleep,Spec.setting_onWait]
  refine ⟨⟨trivial,hnew,.waits hcaught⟩,fun g s hs => ?_⟩
  have hno : A → NoRequests s := hs.2.1.1
  have hclear := clearRequests_noRequests s
  apply detectRole_wp _ _ rfl
  · intro hsame
    refine ⟨rfl,requestsNew_of_noRequests hclear _,.inr ⟨fun a => ?_,fun _ => hclear⟩⟩
    rw [withRequests_eq (hno a)] at hsame
    exact hsame.symm
  · intro _
    refine ⟨⟨trivial,requestsNew_of_noRequests hclear _,.pulse ⟨fun a => ?_,fun h => ?_⟩⟩,
      fun g' s' hs' => ?_⟩
    · exact withRequests_eq (hno a) _
    · exact absurd hclear h
    · obtain ⟨-,hnew',-,hcaught'⟩ := hs'
      exact ⟨rfl,hnew',hcaught' rfl⟩

theorem roleSpec_start (A B : Prop) :
    (roleSpec A B).Holds (roleBoot.thread roleThread) {} .reset := by
  have hno : NoRequests .reset := ⟨rfl,rfl⟩
  refine ⟨⟨requestsNew_of_noRequests hno _,.start (.inr ⟨fun _ => rfl,fun _ => hno⟩)⟩,
    fun g s _ hs => ?_⟩
  obtain ⟨hnew,hat,-⟩ := hs
  cases hat with
  | start hcaught => exact ⟨rfl,hnew,hcaught⟩

section Runs
variable {A B : Prop} {ok : RoleLog → DrdConf 0 → RoleLabel → Prop} {g : RoleLog} {s : Drd}
  {l : Loc WaitPoint Payload TlmResponse}

theorem roleSpec_congr {s' : Drd} (hh : (roleSpec A B).held l g s)
    (hrm : s'.roleMgr.mRole = s.roleMgr.mRole) (hno : NoRequests s' ↔ NoRequests s)
    (hasked : askedRole s' = askedRole s)
    (hw : s.wakes .roleInputs = true → s'.wakes .roleInputs = true) :
    (roleSpec A B).held l g s' := by
  have hcaught : CaughtUp A B s → CaughtUp A B s' :=
    Or.imp hw (fun h => by simpa only [Tracks,hrm,hasked,hno] using h)
  have hmid : MidPulse A g s → MidPulse A g s' := fun h => by
    simpa only [MidPulse,hrm,hno] using h
  obtain ⟨hnew,hat⟩ := hh
  refine ⟨by simpa only [RequestsNew,hno] using hnew,?_⟩
  cases hat with
  | start h => exact .start (hcaught h)
  | waits h => exact .waits (hcaught h)
  | woken => exact .woken
  | pulse h => exact .pulse (hmid h)
  | pulseEnd h => exact .pulseEnd (hmid h)

theorem roleSpec_request (r : Usb3Role) (hA : ¬A) (hh : (roleSpec A B).held l g s) :
    (roleSpec A B).held l (if r = .none then g else { g with sinceRun := true, sinceWake := true })
      (requestRole r s) := by
  have hw : (requestRole r s).wakes .roleInputs = true := by simp [Drd.wakes,requestRole]
  by_cases hr : r = .none
  · subst hr
    exact roleSpec_congr hh rfl Iff.rfl rfl fun _ => hw
  · rw [if_neg hr]
    obtain ⟨-,hat⟩ := hh
    refine ⟨⟨fun a => absurd a hA,fun _ => rfl⟩,?_⟩
    cases hat with
    | start => exact .start (.inl hw)
    | waits => exact .waits (.inl hw)
    | woken => exact .woken
    | pulse => exact .pulse ⟨fun a => absurd a hA,fun _ => rfl⟩
    | pulseEnd => exact .pulseEnd ⟨fun a => absurd a hA,fun _ => rfl⟩

theorem roleSpec_act (hA : A → ∀ g c l, ok g c l → steadyPulse g c l) {c : DrdConf 0}
    {a : RoleInput} {c' : DrdConf 0} (hok : ok g c (.act a))
    (ha : RoleInput.apply a c.state = some c'.state) (hh : (roleSpec A B).held l g c.state) :
    (roleSpec A B).held l (roleLog.next g c (.act a) c') c'.state := by
  cases a with
  | requestRole r =>
    rw [← Option.some.inj ha]
    exact roleSpec_request r (fun a => by simpa [isRequest] using (hA a _ _ _ hok).1) hh
  | setCcState cc =>
    simp only [RoleInput.apply] at ha
    split at ha
    · cases ha
    · rw [← Option.some.inj ha]
      refine roleSpec_congr hh rfl Iff.rfl rfl fun hw => ?_
      grind [Drd.wakes]
  | setVbus v =>
    simp only [RoleInput.apply] at ha
    split at ha
    · cases ha
    · rw [← Option.some.inj ha]
      refine roleSpec_congr hh rfl Iff.rfl rfl fun hw => ?_
      grind [Drd.wakes]

/-- Without an event about to fire the update phase leaves the inputs alone. -/
theorem askedRole_update (hw : s.wakes .roleInputs = false) : askedRole s.update = askedRole s := by
  simp only [Drd.wakes,Bool.or_eq_false_iff,Sig.changes_eq_false] at hw
  simp [askedRole,Drd.update,hw.1.1,hw.1.2]

theorem roleSpec_update (hl : ∀ o, l ≠ .ready o) (hw : ∀ w, l = .waiting w → s.wakes w = false)
    (hh : (roleSpec A B).held l g s) : (roleSpec A B).held l g s.update := by
  obtain ⟨hnew,hat⟩ := hh
  cases hat with
  | waits h =>
    have hw' := hw _ rfl
    refine roleSpec_congr ⟨hnew,.waits h⟩ rfl Iff.rfl (askedRole_update hw') fun hf => ?_
    simp [hw'] at hf
  | pulse h => exact ⟨hnew,.pulse h⟩
  | _ => exact absurd rfl (hl _)

theorem roleSpec_meets (hA : A → ∀ g c l, ok g c l → steadyPulse g c l)
    (hB : B → ∀ g c l, ok g c l → quietPulse g c l) :
    Meets roleKernel roleBoot roleLog ok roleThread (roleSpec A B) where
  loops := roleSpec_loops A B
  begins e p hp := by cases hp
  timed := bootWith_wellTimed
  start := roleSpec_start A B
  refl _ _ := trivial
  trans _ _ _ _ _ _ _ _ := trivial
  own g c o hr hloc hok hheld := by
    refine ⟨hheld.1,hheld.2,?_⟩
    rintro rfl
    obtain ⟨hrole,hreq⟩ : MidPulse A g c.state := by
      cases hheld.2 with
      | pulseEnd h => exact h
    have hend : pulseEnds c (.eval roleThread) := ⟨rfl,hloc⟩
    by_cases hw : c.state.wakes .roleInputs = true
    · exact .inl hw
    · refine .inr ⟨fun a => ?_,fun b => ?_⟩
      · exact (hrole a).trans (((hA a _ _ _ hok).2 hend).resolve_right hw).symm
      · by_contra hno
        simpa [hreq hno] using (hB b _ _ _ hok hend).resolve_right hw
  leave g c o c' hloc _ := by simp [roleLog,roleSpec,hloc]
  peer g c u c' ht hne := absurd (only_roleThread ht) hne
  act g c a c' ht ha hh := ⟨roleSpec_act hA ht.allowed ha hh,trivial⟩
  still g c l c' ht hl hh := by
    cases l <;> first | exact ⟨hh,trivial⟩ | cases hl
  delta g c c' ht hready hwait hh := ⟨roleSpec_update hready hwait hh,trivial⟩
  wake g c c' w' ht hloc hw hh := by
    cases hh.2 with
    | waits => exact ⟨⟨hh.1,.woken⟩,trivial⟩
    | pulse => cases hw
  expire g c d c' w' ht hloc hd hq hh := by
    cases hh.2 with
    | waits => exact absurd rfl hd
    | pulse h => exact ⟨⟨hh.1,.pulseEnd h⟩,trivial⟩
  answer g c q r c' ht hloc hh := by cases hh.2
  enter g c e c' ht hloc hh := by cases hh.2

end Runs

/-- Outside a pulse the role manager follows its inputs, in every run without software
requests in which no pulse ends with its inputs asking for another role than at its start. -/
theorem tracks_of_steadyPulse (g : RoleLog) (c : DrdConf 0)
    (hr : Reach roleKernel roleBoot roleLog steadyPulse g c) (hi : Idle c) : Tracks c.state := by
  have hm : Meets roleKernel roleBoot roleLog steadyPulse roleThread (roleSpec True False) :=
    roleSpec_meets (fun _ _ _ _ h => h) (fun h => h.elim)
  have hheld := hm.held hr
  rw [hi.1] at hheld
  cases hheld.2 with
  | waits h => exact (h.resolve_left (by simp [hi.2])).1 trivial

def beginPulse (cc : UsbCCcState) : List RoleLabel :=
  [.eval roleThread,.act (.setCcState cc),.act (.setVbus true),.delta,.eval roleThread,.delta]

def endPulse : List RoleLabel := [.advance (10*ns),.eval roleThread,.delta]

theorem tracks_attached : ∃ g c, Reach roleKernel roleBoot roleLog steadyPulse g c ∧
    c.state.roleMgr.mRole = .host ∧ Tracks c.state := by
  obtain ⟨g,c,hr,hi,hhost⟩ := exists_reach roleKernel roleBoot roleLog steadyPulse
    (fun _ c => Idle c ∧ c.state.roleMgr.mRole = .host)
    (beginPulse .ufpAttached ++ endPulse) (by decide +kernel)
  exact ⟨g,c,hr,hhost,tracks_of_steadyPulse g c hr hi⟩

/-- VBUS falls during the pulse and nothing reports it afterwards. -/
theorem not_tracks_vbusDuringPulse : ¬ ∀ g c,
    Reach roleKernel roleBoot noWatch (fun _ _ l => isRequest l = false) g c →
    Idle c → Tracks c.state := by
  intro h
  obtain ⟨g,c,hr,hi,ht⟩ := exists_reach roleKernel roleBoot noWatch (fun _ _ l => isRequest l = false)
    (fun _ c => Idle c ∧ ¬Tracks c.state)
    (beginPulse .ufpAttached ++ [.act (.setVbus false),.delta] ++ endPulse) (by decide +kernel)
  exact ht (h g c hr hi)

/-- No request flag outlives the wake-up it causes, and a flag that is set is newer than
the last event that woke the process, in every run in which no pulse ends with a
request made during it. -/
theorem noRequests_of_quietPulse (g : RoleLog) (c : DrdConf 0)
    (hr : Reach roleKernel roleBoot roleLog quietPulse g c) :
    (Idle c → NoRequests c.state) ∧ (¬NoRequests c.state → g.sinceWake = true) := by
  have hm : Meets roleKernel roleBoot roleLog quietPulse roleThread (roleSpec False True) :=
    roleSpec_meets (fun h => h.elim) (fun _ _ _ _ h => h)
  have hheld := hm.held hr
  refine ⟨fun hi => ?_,hheld.1.2⟩
  rw [hi.1] at hheld
  cases hheld.2 with
  | waits h => exact (h.resolve_left (by simp [hi.2])).2 trivial

theorem noRequests_served : ∃ g c, Reach roleKernel roleBoot roleLog quietPulse g c ∧
    c.state.roleMgr.mRole = .device ∧ NoRequests c.state := by
  obtain ⟨g,c,hr,hi,hdev⟩ := exists_reach roleKernel roleBoot roleLog quietPulse
    (fun _ c => Idle c ∧ c.state.roleMgr.mRole = .device)
    ([.eval roleThread,.act (.requestRole .device),.delta,.eval roleThread,.delta] ++ endPulse)
    (by decide +kernel)
  exact ⟨g,c,hr,hdev,(noRequests_of_quietPulse g c hr).1 hi⟩

/-- A request made during the pulse stays pending with nothing to wake the process. -/
theorem not_noRequests_duringPulse : ¬ ∀ g c,
    Reach roleKernel roleBoot noWatch (fun _ _ _ => True) g c → Idle c → NoRequests c.state := by
  intro h
  obtain ⟨g,c,hr,hi,hn⟩ := exists_reach roleKernel roleBoot noWatch (fun _ _ _ => True)
    (fun _ c => Idle c ∧ ¬NoRequests c.state)
    (beginPulse .dfpAttached ++ [.act (.requestRole .host),.delta] ++ endPulse) (by decide +kernel)
  exact hn (h g c hr hi)

end RoleTracking
end Usb3Drd
