import Usb3Drd.HostBench

/-! One completion for each transfer: the pulses of `transfer_done`, counted against the
transfers that were executed and the interrupts that were raised for them. -/
namespace Usb3Drd
namespace Completion

open Coop HostController

/-- Rising edges of `sig_xfer_done`, transfers that came back from the link, and runs of
the collector that raised the interrupt of a completed transfer. -/
structure Counts where
  rises : ℕ := 0
  completed : ℕ := 0
  raised : ℕ := 0

def Counts.noteCompleted (g : Counts) : Loc WaitPoint Payload TlmResponse → Counts
  | .ready (.returned q _) => if isBulk q then { g with completed := g.completed+1 } else g
  | _ => g

def Counts.noteRaised (g : Counts) (s : Drd) : Counts :=
  if s.sigXferDone.cur then { g with raised := g.raised+1 } else g

def Counts.noteRise (g : Counts) (s : Drd) : Counts :=
  if s.sigXferDone.rises then { g with rises := g.rises+1 } else g

def counts : HostWatch Counts where
  init := {}
  next g c l _ := match l with
    | .eval t =>
      if t = hostThread then g.noteCompleted (c.loc t)
      else if t = collectorThread then g.noteRaised c.state
      else g
    | .delta => g.noteRise c.state
    | _ => g

/-- A completion pulse is about to end. -/
def pulseEnds (c : DrdConf 0) : HostLabel → Prop
  | .eval t => t = hostThread ∧ c.loc t = .ready (.woke .xferPulse)
  | _ => False

instance (c : DrdConf 0) : ∀ l, Decidable (pulseEnds c l)
  | .eval _ => inferInstanceAs (Decidable (_ ∧ _))
  | .act _ | .enter _ _ | .reply _ _ | .delta | .advance _ => isFalse id

/-- No transfer would be run now. -/
def NoWork (s : Drd) : Prop := s.hostCtrl.mTransferRing = [] ∨ s.sigHostEnable.cur = false

/-- When a pulse ends no further transfer is due. -/
def clearPulse (_ : Counts) (c : DrdConf 0) (l : HostLabel) : Prop := pulseEnds c l → NoWork c.state

instance (g : Counts) (c : DrdConf 0) (l : HostLabel) : Decidable (clearPulse g c l) :=
  inferInstanceAs (Decidable (_ → _ ∨ _))

/-- The line is low, and every completed transfer has had its edge. -/
structure Calm (g : Counts) (s : Drd) : Prop where
  low : s.sigXferDone = .steady false
  count : g.rises = g.completed
  ioc : AllIoc s

/-- The line is low or falls, and `sig_enum_done` does not change while it falls. -/
structure Ebbing (g : Counts) (s : Drd) : Prop where
  falls : s.sigXferDone.nxt = false
  alone : s.sigXferDone.cur = true → s.sigEnumDone.changes = false
  count : g.rises = g.completed
  ioc : AllIoc s

/-- The line is high or rises for the latest transfer. -/
structure Pulsing (g : Counts) (s : Drd) : Prop where
  rises : s.sigXferDone.nxt = true
  alone : s.sigXferDone.cur = true → s.sigEnumDone.changes = false
  count : g.rises + (if s.sigXferDone.cur then 0 else 1) = g.completed
  ioc : AllIoc s

def isCalm : Loc WaitPoint Payload TlmResponse → Prop
  | .idle => False
  | .ready (.woke .xferPulse) => False
  | .waiting .xferPulse => False
  | _ => True

theorem isCalm_calling (q : Payload) : isCalm (.calling q) := trivial

/-- Where the host thread stands. -/
inductive HostAt (g : Counts) (s : Drd) : Loc WaitPoint Payload TlmResponse → Prop
  | calm {l : Loc WaitPoint Payload TlmResponse} (hl : isCalm l) (h : Calm g s) : HostAt g s l
  | ebbs {w : WaitPoint} (hw : w = .trbComplete ∨ w = .enablePosedge) (h : Ebbing g s) :
      HostAt g s (.waiting w)
  | pulse (h : Pulsing g s) : HostAt g s (.waiting .xferPulse)
  | pulseEnd (h : Pulsing g s) (hcur : s.sigXferDone.cur = true) :
      HostAt g s (.ready (.woke .xferPulse))

/-- Where the thread turns to the ring, and where it turns back to the main loop. -/
def AtTurn (g : Counts) (s : Drd) : Loop → Prop
  | .transferRing => Calm g s ∨ (Ebbing g s ∧ NoWork s)
  | .hostMain => Calm g s ∨ (Ebbing g s ∧ s.sigHostEnable.cur = false)
  | _ => False

def hostSpec : Spec Counts Drd WaitPoint Payload TlmResponse Loop where
  held l g s := HostAt g s l
  pre o g s := HostAt g s (.ready o) ∧ (o = .woke .xferPulse → NoWork s)
  rely _ _ _ _ := True
  guar _ _ _ _ _ := True
  leave g o _ _ _ := g.noteCompleted (.ready o)
  head l x := (∀ q r, x.origin = .returned q r → ¬isBulk q) ∧ AtTurn x.hist x.state l

section Host
variable {x : Trail Counts Drd WaitPoint Payload TlmResponse} {g : Counts} {s : Drd}

theorem Calm.ebbing (h : Calm g s) : Ebbing g s where
  falls := by rw [h.low]; rfl
  alone hcur := by rw [h.low] at hcur; cases hcur
  count := h.count
  ioc := h.ioc

theorem Calm.congr {s' : Drd} (h : Calm g s) (hxfer : s'.sigXferDone = s.sigXferDone)
    (hring : s'.hostCtrl.mTransferRing = s.hostCtrl.mTransferRing) : Calm g s' :=
  ⟨hxfer.trans h.low,h.count,h.ioc.congr hring⟩

theorem noteCompleted_eq {o : Origin WaitPoint Payload TlmResponse}
    (ho : ∀ q r, o = .returned q r → ¬isBulk q) : g.noteCompleted (.ready o) = g := by
  cases o with
  | returned q r => exact if_neg (ho q r rfl)
  | _ => rfl

theorem calm_of_pre {o : Origin WaitPoint Payload TlmResponse} (h : hostSpec.pre o g s)
    (ho : o ≠ .woke .xferPulse) : Calm g s := by
  cases h.1 with
  | calm _ h => exact h
  | pulseEnd => exact absurd rfl ho

theorem after_eq (ho : ∀ q r, x.origin = .returned q r → ¬isBulk q)
    (l : Loc WaitPoint Payload TlmResponse) : hostSpec.after l x = x.hist := noteCompleted_eq ho

theorem stopsAt_calm (ho : ∀ q r, x.origin = .returned q r → ¬isBulk q)
    {l : Loc WaitPoint Payload TlmResponse} (hl : isCalm l) (h : Calm x.hist x.state) :
    hostSpec.stopsAt l x :=
  ⟨trivial,.calm hl (by rw [after_eq ho]; exact h)⟩

theorem head_of_calm {w : WaitPoint} (h : Calm g s) :
    hostSpec.head .transferRing ⟨g,.woke w,s,s⟩ := ⟨by simp,.inl h⟩

theorem hostSpec_indifferent : Indifferent hostSpec fun x =>
    (∀ q r, x.origin = .returned q r → ¬isBulk q) ∧ Calm x.hist x.state where
  edit x s h hs := ⟨h.1,h.2.congr (congrArg (·.sigXferDone) hs)
    (congrArg (·.hostCtrl.mTransferRing) hs)⟩
  call x q h hq := by
    refine ⟨stopsAt_calm h.1 trivial h.2,fun r g s hr => ⟨?_,calm_of_pre hr.2 (by simp)⟩⟩
    rintro q' r' ⟨⟩
    exact hq
  wait x w h hw := by
    have hpulse : w ≠ .xferPulse := by
      rintro rfl
      simp [ofEnumeration] at hw
    refine ⟨stopsAt_calm h.1 ?_ h.2,fun g s hr => ⟨by simp,calm_of_pre hr.2 (by simpa using hpulse)⟩⟩
    cases w with
    | xferPulse => exact absurd rfl hpulse
    | _ => trivial

theorem enumerateDevice_calm (ho : ∀ q r, x.origin = .returned q r → ¬isBulk q)
    (h : Calm x.hist x.state) :
    enumerateDevice.wp hostSpec.setting (fun _ => hostSpec.head .transferRing) x :=
  enumerateDevice_indifferent hostSpec_indifferent ⟨ho,h⟩ fun _ hy => ⟨hy.1,.inl hy.2⟩

theorem runTrb_pulse {trb : Usb3Trb} (htrb : trb.ioc = true)
    (ho : ∀ q r, x.origin = .returned q r → ¬isBulk q) (h : Calm x.hist x.state) :
    (runTrb trb).wp hostSpec.setting (fun _ => hostSpec.head .transferRing) x := by
  refine runTrb_wp _ x fun n layer => ?_
  have hsend : Calm x.hist { x.state with protocol := layer } := ⟨h.low,h.count,h.ioc⟩
  refine ⟨stopsAt_calm (x := { x with state := { x.state with protocol := layer } }) ho
    (isCalm_calling _) hsend,fun r g s hr => ?_⟩
  have h := calm_of_pre hr.2 (by simp)
  obtain ⟨-,hring⟩ := receive_frame trb s
  have hline : (receive trb s).sigXferDone = s.sigXferDone := by
    unfold receive
    split <;> rfl
  dsimp only
  rw [if_pos htrb]
  refine ⟨⟨trivial,.pulse ⟨rfl,fun hcur => ?_,?_,h.ioc.congr hring⟩⟩,fun g s hw => ?_⟩
  · have hcur' : (receive trb s).sigXferDone.cur = true := hcur
    rw [hline,h.low] at hcur'
    cases hcur'
  · have hafter : hostSpec.after (.waiting .xferPulse)
        ⟨g,.returned ((trbPacket trb).numbered n) r,s,writeXferDone true (receive trb s)⟩ =
          { g with completed := g.completed+1 } := if_pos (isBulk_trbPacket trb n)
    have hcur : (writeXferDone true (receive trb s)).sigXferDone.cur = false := by
      show (receive trb s).sigXferDone.cur = false
      rw [hline,h.low]
      rfl
    rw [hafter,if_neg (by rw [hcur]; decide),h.count]
  · obtain ⟨hat,hwork⟩ := hw.2
    cases hat with
    | calm hl => cases hl
    | pulseEnd h hcur =>
      refine ⟨by simp,.inr ⟨⟨rfl,fun _ => h.alone hcur,?_,h.ioc⟩,hwork rfl⟩⟩
      have hcount := h.count
      rwa [if_pos hcur] at hcount

theorem hostSpec_loops : hostSpec.Loops loopCode := by
  rintro l x ⟨ho,hturn⟩
  cases l with
  | hostMain =>
    refine hostMainLoop_wp _ x (fun hoff => ⟨⟨trivial,?_⟩,fun g s hw => ?_⟩) fun hon => ?_
    · rw [after_eq ho]
      refine .ebbs (.inr rfl) ?_
      obtain h | ⟨h,-⟩ := hturn
      · exact h.ebbing
      · exact h
    · have h := calm_of_pre hw.2 (by simp)
      exact enumerateDevice_calm (by simp) ⟨h.low,h.count,h.ioc⟩
    · have h := hturn.resolve_right fun hebb => by simp [hon] at hebb
      exact enumerateDevice_calm ho ⟨h.low,h.count,h.ioc⟩
  | transferRing =>
    refine processTransferRing_wp _ x (fun hoff => ⟨ho,?_⟩) (fun hon hempty => ?_)
      fun trb rest hon hring => ?_
    · exact hturn.imp id fun h => ⟨h.1,hoff⟩
    · refine ⟨⟨trivial,?_⟩,fun g s hw => head_of_calm (calm_of_pre hw.2 (by simp))⟩
      rw [after_eq ho]
      refine .ebbs (.inl rfl) ?_
      obtain h | ⟨h,-⟩ := hturn
      · exact h.ebbing
      · exact h
    · have hwork : ¬NoWork x.state := by simp [NoWork,hon,hring]
      have h := hturn.resolve_right fun hebb => hwork hebb.2
      have hrest : AllIoc (setRing rest x.state) := fun trb' h' =>
        h.ioc trb' (by rw [hring]; exact List.mem_cons_of_mem _ h')
      exact runTrb_pulse (h.ioc trb (by simp [hring])) ho ⟨h.low,h.count,hrest⟩
  | _ => exact hturn.elim

end Host

section Interference
variable {g : Counts} {s s' : Drd} {l : Loc WaitPoint Payload TlmResponse}

theorem HostAt.congr {g' : Counts} (h : HostAt g s l) (hg : g'.rises = g.rises ∧ g'.completed = g.completed)
    (hxfer : s'.sigXferDone = s.sigXferDone) (henum : s'.sigEnumDone = s.sigEnumDone)
    (hioc : AllIoc s → AllIoc s') : HostAt g' s' l := by
  cases h with
  | calm hl h => exact .calm hl ⟨hxfer.trans h.low,by rw [hg.1,hg.2]; exact h.count,hioc h.ioc⟩
  | ebbs hw h =>
    refine .ebbs hw ⟨?_,?_,by rw [hg.1,hg.2]; exact h.count,hioc h.ioc⟩
    · rw [hxfer]; exact h.falls
    · rw [hxfer,henum]; exact h.alone
  | pulse h =>
    refine .pulse ⟨?_,?_,?_,hioc h.ioc⟩
    · rw [hxfer]; exact h.rises
    · rw [hxfer,henum]; exact h.alone
    · rw [hxfer,hg.1,hg.2]; exact h.count
  | pulseEnd h hcur =>
    refine .pulseEnd ⟨?_,?_,?_,hioc h.ioc⟩ (by rw [hxfer]; exact hcur)
    · rw [hxfer]; exact h.rises
    · rw [hxfer,henum]; exact h.alone
    · rw [hxfer,hg.1,hg.2]; exact h.count

theorem noteRise_of_low (h : s.sigXferDone.nxt = false) : g.noteRise s = g :=
  if_neg (by simp [h])

theorem HostAt.update (h : HostAt g s l) (hl : ∀ o, l ≠ .ready o) :
    HostAt (g.noteRise s) s.update l := by
  cases h with
  | calm hl' h =>
    rw [noteRise_of_low (by rw [h.low]; rfl)]
    exact .calm hl' ⟨congrArg Sig.update h.low,h.count,h.ioc.congr rfl⟩
  | ebbs hw h =>
    rw [noteRise_of_low h.falls]
    exact .ebbs hw ⟨h.falls,fun _ => by simp [Drd.update],h.count,h.ioc.congr rfl⟩
  | pulse h =>
    refine .pulse ⟨h.rises,fun _ => by simp [Drd.update],?_,h.ioc.congr rfl⟩
    have hcur : s.update.sigXferDone.cur = true := h.rises
    have hcount := h.count
    rw [if_pos hcur,Counts.noteRise]
    cases hwas : s.sigXferDone.cur with
    | true =>
      rw [if_pos hwas] at hcount
      rw [if_neg (by simp [hwas])]
      exact hcount
    | false =>
      rw [if_neg (by simp [hwas])] at hcount
      rw [if_pos (by simp [hwas,h.rises])]
      exact hcount
  | pulseEnd => exact absurd rfl (hl _)

theorem HostAt.wake {w : WaitPoint} (h : HostAt g s (.waiting w))
    (hs : s.sigXferDone.cur = s.sigXferDone.nxt) : HostAt g s (.ready (.woke w)) := by
  cases h with
  | calm hl h =>
    refine .calm ?_ h
    cases w <;> trivial
  | ebbs hw h =>
    have hlow : s.sigXferDone = .steady false := by
      have hfalls := h.falls
      rw [hfalls] at hs
      cases hsig : s.sigXferDone with
      | mk cur nxt => simp_all [Sig.steady]
    refine .calm ?_ ⟨hlow,h.count,h.ioc⟩
    obtain rfl | rfl := hw <;> trivial
  | pulse h => exact .pulseEnd h (hs.trans h.rises)

end Interference

theorem hostSpec_meets : Meets hostKernel hostBoot counts clearPulse hostThread hostSpec where
  loops := hostSpec_loops
  begins e p hp := by cases hp
  timed := bootWith_wellTimed
  start := by
    refine ⟨.calm trivial ⟨rfl,rfl,fun trb h => (by cases h)⟩,fun g s _ hs => ?_⟩
    have h : Calm g s := calm_of_pre hs (by simp)
    have hlow : s.sigXferDone.write false = .steady false := by rw [h.low]; rfl
    exact ⟨fun _ _ ho => (by cases ho),.inl ⟨hlow,h.count,h.ioc⟩⟩
  refl _ _ := trivial
  trans _ _ _ _ _ _ _ _ := trivial
  own g c o hr hloc hok hheld := by
    refine ⟨hheld,?_⟩
    rintro rfl
    exact hok ⟨rfl,hloc⟩
  leave g c o c' hloc _ := by simp [counts,hostSpec,hloc]
  peer g c u c' ht hne hh := by
    obtain ⟨rfl,hctrl,-,hxfer,henum⟩ := hostCtrl_peer hne ht
    have hring := congrArg HostController.mTransferRing hctrl
    refine ⟨HostAt.congr hh ?_ hxfer henum fun h => h.congr hring,trivial⟩
    have hnext : counts.next g c (.eval collectorThread) c' = g.noteRaised c.state := by
      simp [counts]
    rw [hnext,Counts.noteRaised]
    split <;> exact ⟨rfl,rfl⟩
  act g c a c' ht ha hh := by
    have hkeep := HostInput.apply_unwritten ha
    have hxfer := congrArg Drd.sigXferDone hkeep
    have henum := congrArg Drd.sigEnumDone hkeep
    exact ⟨HostAt.congr hh ⟨rfl,rfl⟩ hxfer henum fun h => h.input ha,trivial⟩
  still g c l c' ht hl hh := by
    cases l with
    | eval u => cases hl
    | act a => cases hl
    | delta => cases hl
    | _ => exact ⟨hh,trivial⟩
  delta g c c' ht hready hwait hh := ⟨HostAt.update hh hready,trivial⟩
  wake g c c' w' ht hloc hw hh := by
    have hnow : HostAt (g.noteRise c.state) c.state.update (.waiting w') :=
      HostAt.update hh (by simp)
    exact ⟨hnow.wake rfl,trivial⟩
  expire g c d c' w' ht hloc hd hq hh := by
    have hquiet : c.state.quiet = true := hq
    exact ⟨HostAt.wake hh (Drd.settled_of_quiet hquiet).xferDone,trivial⟩
  answer g c q r c' ht hloc hh := by
    refine ⟨?_,trivial⟩
    cases hh with
    | calm hl h => exact .calm trivial h
  enter g c e c' ht hloc hh := by
    cases hh with
    | calm hl h => cases hl

/-- The interrupt of a transfer, once for each edge. -/
inductive CollectorAt (g : Counts) (s : Drd) : Loc WaitPoint Payload TlmResponse → Prop
  | waits (h : g.raised = g.rises) : CollectorAt g s (.waiting .interruptSources)
  | woken (h : g.raised + (if s.sigXferDone.cur then 1 else 0) = g.rises) :
      CollectorAt g s (.ready (.woke .interruptSources))

def collectorSpec : Spec Counts Drd WaitPoint Payload TlmResponse Loop where
  held l g s := CollectorAt g s l
  pre o g s := CollectorAt g s (.ready o)
  rely _ _ _ _ := True
  guar _ _ _ _ _ := True
  leave g _ s _ _ := g.noteRaised s
  head l x := l = .interruptCollector ∧
    (x.hist.noteRaised x.start).raised = (x.hist.noteRaised x.start).rises

section Collector
variable {g : Counts} {s : Drd}

/-- A run of the collector raises the interrupt of an edge that it was woken by. -/
theorem noteRaised_counts {o : Origin WaitPoint Payload TlmResponse}
    (h : CollectorAt g s (.ready o)) : (g.noteRaised s).raised = (g.noteRaised s).rises := by
  cases h with
  | woken h =>
    rw [Counts.noteRaised]
    cases hcur : s.sigXferDone.cur with
    | true => simpa [hcur] using h
    | false => simpa [hcur] using h

theorem collectorSpec_loops : collectorSpec.Loops loopCode := by
  rintro l x ⟨rfl,hcounts⟩
  refine ⟨⟨trivial,.waits hcounts⟩,fun g s hw => ⟨rfl,?_⟩⟩
  exact noteRaised_counts hw.2

theorem CollectorAt.congr {g' : Counts} {s' : Drd} {l : Loc WaitPoint Payload TlmResponse}
    (h : CollectorAt g s l) (hg : g'.raised = g.raised ∧ g'.rises = g.rises)
    (hcur : s'.sigXferDone.cur = s.sigXferDone.cur) : CollectorAt g' s' l := by
  cases h with
  | waits h => exact .waits (by rw [hg.1,hg.2]; exact h)
  | woken h => exact .woken (by rw [hg.1,hg.2,hcur]; exact h)

theorem CollectorAt.update {l : Loc WaitPoint Payload TlmResponse} (h : CollectorAt g s l)
    (hl : ∀ o, l ≠ .ready o) (hw : ∀ w, l = .waiting w → s.wakes w = false) :
    CollectorAt (g.noteRise s) s.update l := by
  cases h with
  | waits h =>
    have hquiet := hw _ rfl
    simp only [Drd.wakes,Bool.or_eq_false_iff,Sig.changes_eq_false] at hquiet
    have hrise : ¬s.sigXferDone.rises = true := by
      rw [Sig.rises_eq_true,hquiet.1.2]
      rintro ⟨hf,ht⟩
      rw [hf] at ht
      cases ht
    rw [Counts.noteRise,if_neg hrise]
    exact .waits h
  | woken => exact absurd rfl (hl _)

/-- An edge wakes the collector, and nothing else does while the line is high. -/
theorem woken_counts {l : Loc WaitPoint Payload TlmResponse} (hhost : HostAt g s l)
    (hcounts : g.raised = g.rises)
    (hwakes : s.sigEnumDone.changes = true ∨ s.sigXferDone.changes = true) :
    CollectorAt (g.noteRise s) s.update (.ready (.woke .interruptSources)) := by
  refine .woken ?_
  have hnow : s.update.sigXferDone.cur = s.sigXferDone.nxt := rfl
  rw [hnow,Counts.noteRise]
  cases hnxt : s.sigXferDone.nxt with
  | false => simpa [hnxt] using hcounts
  | true =>
    cases hcur : s.sigXferDone.cur with
    | false => simpa [hnxt,hcur] using hcounts
    | true =>
      have halone : s.sigEnumDone.changes = false := by
        cases hhost with
        | calm hl h => rw [h.low] at hcur; cases hcur
        | ebbs hw h => exact h.alone hcur
        | pulse h => exact h.alone hcur
        | pulseEnd h => exact h.alone hcur
      rw [halone] at hwakes
      have hchanges := hwakes.resolve_left (by simp)
      simp [hnxt,hcur] at hchanges

end Collector

theorem collectorSpec_meets :
    Meets hostKernel hostBoot counts clearPulse collectorThread collectorSpec where
  loops := collectorSpec_loops
  begins e p hp := by cases hp
  timed := bootWith_wellTimed
  start := ⟨.waits rfl,fun g s _ hs => ⟨rfl,noteRaised_counts hs⟩⟩
  refl _ _ := trivial
  trans _ _ _ _ _ _ _ _ := trivial
  own g c o hr hloc hok hheld := hheld
  leave g c o c' hloc _ := by simp [counts,collectorSpec]
  peer g c u c' ht hne hh := by
    obtain rfl := (thread_eq ht).resolve_right hne
    have hcur := congrArg (·.sigXferDone.cur) (taken_unwritten ht)
    have hnext : counts.next g c (.eval hostThread) c' = g.noteCompleted (c.loc hostThread) := by
      simp [counts]
    have hsame : (g.noteCompleted (c.loc hostThread)).rises = g.rises ∧
        (g.noteCompleted (c.loc hostThread)).raised = g.raised := by
      unfold Counts.noteCompleted
      split
      · split <;> exact ⟨rfl,rfl⟩
      · exact ⟨rfl,rfl⟩
    rw [hnext]
    exact ⟨CollectorAt.congr hh hsame.symm hcur,trivial⟩
  act g c a c' ht ha hh := by
    have hkeep := HostInput.apply_unwritten ha
    have hcur := congrArg (·.sigXferDone.cur) hkeep
    exact ⟨CollectorAt.congr hh ⟨rfl,rfl⟩ hcur,trivial⟩
  still g c l c' ht hl hh := by
    cases l with
    | eval u => cases hl
    | act a => cases hl
    | delta => cases hl
    | _ => exact ⟨hh,trivial⟩
  delta g c c' ht hready hwait hh := ⟨CollectorAt.update hh hready hwait,trivial⟩
  wake g c c' w' ht hloc hw hh := by
    refine ⟨?_,trivial⟩
    cases hh with
    | waits h =>
      have hhost : HostAt g c.state (c.loc hostThread) := hostSpec_meets.held ht.reach
      obtain ⟨hrole,hbulk⟩ := undriven_steady ht.reach
      have hwakes : c.state.wakes .interruptSources = true := hw
      refine woken_counts hhost h ?_
      simpa [Drd.wakes,hrole,hbulk,Sig.steady,Sig.rises] using hwakes
  expire g c d c' w' ht hloc hd hq hh := by
    cases hh with
    | waits h => exact absurd rfl hd
  answer g c q r c' ht hloc hh := by cases hh
  enter g c e c' ht hloc hh := by cases hh

/-- While the host thread waits for work every completed transfer has had its own edge,
and its interrupt once the collector has run, in every run in which no pulse ends with
another transfer due. -/
theorem completions_of_clearPulse (g : Counts) (c : DrdConf 0)
    (hr : Reach hostKernel hostBoot counts clearPulse g c)
    (hidle : c.loc hostThread = .waiting .trbComplete) : g.rises = g.completed ∧
      (c.loc collectorThread = .waiting .interruptSources → g.raised = g.completed) := by
  have hhost : HostAt g c.state (c.loc hostThread) := hostSpec_meets.held hr
  have hcollector : CollectorAt g c.state (c.loc collectorThread) := collectorSpec_meets.held hr
  have hcount : g.rises = g.completed := by
    rw [hidle] at hhost
    cases hhost with
    | calm hl h => exact h.count
    | ebbs hw h => exact h.count
  refine ⟨hcount,fun hwait => ?_⟩
  rw [hwait] at hcollector
  cases hcollector with
  | waits h => exact h.trans hcount

def readyRun : List HostLabel :=
  [.eval hostThread,.act (.setEnable true),.delta,.eval hostThread] ++ enumerateRun ++
    [.eval hostThread,.delta,.eval collectorThread]

def answerRun : List HostLabel :=
  [.reply hostThread .ok,.eval hostThread,.delta,.eval collectorThread,.delta,.advance (1*ns)]

def bulkRun : List HostLabel :=
  [.act (.bulkOut 1 2 [0x55]),.delta,.eval hostThread] ++ answerRun ++
    [.eval hostThread,.delta,.eval collectorThread]

theorem completions_spaced : ∃ g c, Reach hostKernel hostBoot counts clearPulse g c ∧
    g.completed = 2 ∧ g.rises = 2 ∧ g.raised = 2 := by
  obtain ⟨g,c,hr,⟨hidle,hwait⟩,htwo⟩ := exists_reach hostKernel hostBoot counts clearPulse
    (fun g c => (c.loc hostThread = .waiting .trbComplete ∧
      c.loc collectorThread = .waiting .interruptSources) ∧ g.completed = 2)
    (readyRun ++ bulkRun ++ bulkRun) (by decide +kernel)
  obtain ⟨hrises,hraised⟩ := completions_of_clearPulse g c hr hidle
  exact ⟨g,c,hr,htwo,hrises.trans htwo,(hraised hwait).trans htwo⟩

/-- The peer answers within the call, and the enable stays high once it is. -/
def steadyHost (_ : Counts) (c : DrdConf 0) : HostLabel → Prop
  | .delta | .advance _ => ¬∃ q, c.loc hostThread = .calling q
  | .act a => a ≠ .setEnable false
  | _ => True

instance (g : Counts) (c : DrdConf 0) : ∀ l, Decidable (steadyHost g c l)
  | .delta | .advance _ => inferInstanceAs (Decidable (¬∃ q, c.loc hostThread = .calling q))
  | .act _ => inferInstanceAs (Decidable (_ ≠ _))
  | .eval _ | .enter _ _ | .reply _ _ => isTrue trivial

/-- With two transfers queued the pulse of the first does not fall before the second. -/
theorem not_completions_queued : ¬ ∀ g c, Reach hostKernel hostBoot counts steadyHost g c →
    c.loc hostThread = .waiting .trbComplete → g.rises = g.completed := by
  intro h
  obtain ⟨g,c,hr,hidle,hne⟩ := exists_reach hostKernel hostBoot counts steadyHost
    (fun g c => c.loc hostThread = .waiting .trbComplete ∧ g.rises ≠ g.completed)
    (readyRun ++ [.act (.bulkOut 1 2 [0x55]),.act (.bulkOut 1 2 [0x66]),.delta,.eval hostThread] ++
      answerRun ++ [.eval hostThread,.reply hostThread .ok,.eval hostThread,.advance (1*ns),
      .eval hostThread]) (by decide +kernel)
  exact hne (h g c hr hidle)

end Completion
end Usb3Drd
