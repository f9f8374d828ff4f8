import Usb3Drd.Coop.Closed
import Usb3Drd.DeviceLog
import Usb3Drd.HostMachine
import Usb3Drd.PeerDevice
import Usb3Drd.Transmit

/-! The test bench closed by the peer: each packet of the controller is served by the code of
the peer before anything else happens, and what the peer sends meanwhile comes in through the
upstream socket. -/
namespace Usb3Drd
namespace PeerBench

open Coop HostController HostMachine Inbound DeviceLog PeerDevice

def testPeer : Partner PeerDevice Payload TlmResponse Payload (Tid 1) where
  init := {}
  serve := bTransport
  door := callThread

abbrev PeerState := Bench PeerDevice TlmResponse Payload (Tid 1)

abbrev BenchWatch (γ : Type) := Watch γ Drd WaitPoint Payload TlmResponse Loop Action Payload (Tid 1)

abbrev bench : BenchWatch PeerState := testPeer.watch

abbrev served {γ : Type} (x : PeerState × γ) (_ : DrdConf 1) (l : DrdLabel Action 1) : Prop :=
  testPeer.Allows x.1 l

/-- What the peer still owes for the packet that it serves. -/
def Owes (g : PeerState) (c : DrdConf 1) : Prop :=
  match g.service with
  | .free => True
  | .sends caller e next => caller = hostThread ∧ ∃ q, c.loc hostThread = .calling q ∧
      reply q g.partner = some e ∧ ∀ u, (next u).run g.partner = (settle q g.partner,.ret .ok)
  | .inside caller e next => caller = hostThread ∧ ∃ q, c.loc hostThread = .calling q ∧
      reply q g.partner = some e ∧ ∀ u, (next u).run g.partner = (settle q g.partner,.ret .ok)
  | .answers caller r => caller = hostThread ∧ r = .ok

/-- The device controller is never configured, so its loopback never speaks, and every packet of
the host is answered with OK. -/
structure Sound (g : PeerState) (c : DrdConf 1) : Prop where
  seated : testPeer.Seated (drdKernel 1) g c
  unconfigured : c.state.devCtrl.mConfigured = false
  drained : c.state.devCtrl.mEp1In.hasData = false
  owes : Owes g c
  answered : ∀ q r, c.loc hostThread = .ready (.returned q r) → r = .ok

section Visits
variable {e : Payload} {s : Drd}

/-- A packet that the peer sends of itself. -/
def isReply (e : Payload) : Prop := e.pktType = some .ctrlData ∨ e.pktType = some .bulkIn

def deliver (e : Payload) (s : Drd) : Drd := if Handled e s then absorb e s else passBy e s

theorem reply_isReply {q : Payload} {p : PeerDevice} (h : reply q p = some e) : isReply e := by
  unfold reply at h
  split at h
  · cases h
  · split at h
    · split at h
      · dsimp only at h
        split at h
        · cases h
        · cases h
          exact .inl rfl
      · cases h
    · split at h
      · cases h
      · cases h
        exact .inr rfl
    · cases h

theorem answer_reply (he : isReply e) (hs : s.devCtrl.mEp1In.hasData = false) :
    answer e s = none ∧ ∀ a, kind e ≠ .address a := by
  cases hext : e.ext with
  | none => exact ⟨answer_bare hext s,by simp [kind,hext]⟩
  | some ext =>
    rw [isReply,Payload.pktType,hext] at he
    obtain hty | hty := he
    · have hty' : ext.pktType = .ctrlData := Option.some.inj hty
      exact ⟨by simp only [answer,hext,hty'],by simp [kind,hext,hty']⟩
    · have hty' : ext.pktType = .bulkIn := Option.some.inj hty
      exact ⟨by simp [answer,hext,hty',hs],by simp [kind,hext,hty']⟩

theorem inboundCall_run (he : isReply e) (hs : s.devCtrl.mEp1In.hasData = false) :
    ∃ r, (inboundCall e).run s = (deliver e s,.ret (.returned r)) := by
  have hcall : ∀ r, (DrdController.upstreamBTransport e).interp immediate s =
      some (r,deliver e s) → (inboundCall e).run s = (deliver e s,.ret (.returned r)) := by
    intro r hr
    refine Proc.run_of_immediate _ ?_
    rw [inboundCall,Proc.interp_bind,hr]
    rfl
  obtain ⟨hnone,hkind⟩ := answer_reply he hs
  by_cases hh : Handled e s
  · have hreaction := upstream_reaction (p := e) (x := s) immediate_lawful hh
    generalize hrun : (DrdController.upstreamBTransport e).interp immediate s = y at hreaction
    cases hreaction with
    | done _ _ => exact ⟨_,hcall _ (by rw [hrun,deliver,if_pos hh]; rfl)⟩
    | reply ty data n layer ha =>
      have hsome := hnone.symm.trans ha
      cases hsome
    | pause a _ ha => exact absurd ha (hkind a)
  · obtain ⟨r,hr⟩ := upstream_unhandled (p := e) (x := s) immediate_lawful hh
    exact ⟨r,hcall r (by rw [hr,deliver,if_neg hh]; rfl)⟩

theorem visit_ends {c c' : DrdConf 1} (he : isReply e)
    (hdrained : c.state.devCtrl.mEp1In.hasData = false)
    (hth : c.thread callThread = .ready .start (inboundCall e))
    (hs : (drdKernel 1).step c (.eval callThread) = some c') :
    c'.thread callThread = .idle ∧ c'.state = deliver e c.state := by
  obtain ⟨o,p,s,stop,hready,hseg,rfl⟩ := step_eval hs
  obtain ⟨rfl,rfl⟩ := Thread.ready.inj (hth.symm.trans hready)
  obtain ⟨r,hrun⟩ := inboundCall_run he hdrained
  have hone : Kernel.segment loopCode 3 (inboundCall e) c.state =
      some (deliver e c.state,.ret (.returned r)) := by
    rw [Kernel.segment,hrun]
    rfl
  obtain ⟨rfl,rfl⟩ := Prod.mk.inj (Option.some.inj (hone.symm.trans hseg))
  exact ⟨Function.update_self callThread _ c.thread,rfl⟩

theorem deliver_device (he : isReply e) (hs : s.devCtrl.mEp1In.hasData = false) :
    (deliver e s).devCtrl.mConfigured = s.devCtrl.mConfigured ∧
      (deliver e s).devCtrl.mEp1In.hasData = false := by
  have hpass : (passBy e s).devCtrl = s.devCtrl := by
    obtain ⟨_,hs⟩ := passBy_frame e s
    rw [hs]
  rw [deliver]
  split
  · have hne : kind e ≠ .configure := by
      obtain he | he := he
      · rw [(kind_out_iff e).mpr (.inr he)]
        simp
      · rw [(kind_bulkIn_iff e).mpr he]
        simp
    refine ⟨by simp [absorb_mConfigured,hne],?_⟩
    rw [absorb_mEp1In,if_neg (by simp [hs])]
    exact hs
  · rw [hpass]
    exact ⟨rfl,hs⟩

end Visits

section Steps
variable {γ : Type} {w : BenchWatch γ} {g : PeerState × γ} {c c' : DrdConf 1} {l : DrdLabel Action 1}

def devSide (s : Drd) : Bool × Usb3EpFifo := (s.devCtrl.mConfigured,s.devCtrl.mEp1In)

theorem loopback_silent (hconf : c.state.devCtrl.mConfigured = false)
    (ht : Taken (drdKernel 1) (drdBoot 1) (bench.pair w) served g c (.eval loopbackThread) c') :
    devSide c'.state = devSide c.state ∧ ∀ q, c'.loc loopbackThread ≠ .calling q := by
  obtain ⟨o,-,-,hguar⟩ := loopSpec_meets.guar ht.forget
  have hstay : ¬Moves c.state := fun h => absurd (hconf.symm.trans h.1) (by simp)
  cases o with
  | start =>
    obtain ⟨hstate,hloc⟩ := hguar
    exact ⟨by rw [hstate],by rw [hloc]; simp⟩
  | returned q r =>
    obtain ⟨hstate,hloc⟩ := hguar
    exact ⟨by rw [hstate]; rfl,by rw [hloc]; simp⟩
  | woke w' =>
    have hguar : loopGuar (.woke w') c.state (c'.loc loopbackThread) c'.state := hguar
    rw [loopGuar] at hguar
    by_cases hw : w' = .outEp
    · rw [if_pos hw,if_neg hstay] at hguar
      exact ⟨by rw [hguar.1],by rw [hguar.2]; simp⟩
    · rw [if_neg hw] at hguar
      exact ⟨by rw [hguar.1]; rfl,by rw [hguar.2]; simp⟩

theorem process_silent {p : Process} (hhost : p ≠ .hostMainProcess) (hloop : p ≠ .loopbackProcess)
    (ht : Taken (drdKernel 1) (drdBoot 1) (bench.pair w) served g c (.eval (.inl p)) c') :
    ∀ q, c'.loc (.inl p) ≠ .calling q := by
  obtain ⟨u,hu⟩ := ht.reach.forget.watched Transmit.transferLog
  obtain ⟨o,-,-,hguar⟩ := (Transmit.silentSpec_meets hhost hloop).guar ⟨hu,trivial,ht.step⟩
  exact hguar

theorem devSide_process {p : Process} (hconf : c.state.devCtrl.mConfigured = false)
    (ht : Taken (drdKernel 1) (drdBoot 1) (bench.pair w) served g c (.eval (.inl p)) c') :
    devSide c'.state = devSide c.state := by
  have hkeep := congrArg devSide (taken_unwritten ht)
  cases p with
  | loopbackProcess => exact (loopback_silent hconf ht).1
  | _ => exact hkeep

theorem devSide_between (hs : (drdKernel 1).step c l = some c') (hl : ∀ t, l ≠ .eval t) :
    devSide c'.state = devSide c.state := by
  refine step_keeps hs hl (fun a s _ ha => ?_) fun _ => rfl
  have hkeep := congrArg devSide (Action.apply_unwritten ha)
  exact hkeep

/-- Only the host thread speaks, and all that it says carries an extension. -/
theorem speaks_host {p : Process} {q : Payload} (hconf : c.state.devCtrl.mConfigured = false)
    (ht : Taken (drdKernel 1) (drdBoot 1) (bench.pair w) served g c (.eval (.inl p)) c')
    (hq : c'.loc (.inl p) = .calling q) : p = .hostMainProcess ∧ verdict q = .ok := by
  by_cases hhost : p = .hostMainProcess
  · subst hhost
    refine ⟨rfl,?_⟩
    obtain ⟨ph,hph⟩ := ht.reach.forget.watched (phases Action 1)
    have hstands := reach_stands rfl (hph.step trivial ht.step)
    rw [hq] at hstands
    obtain ⟨pkt,n,hpkt,rfl⟩ := hstands
    refine if_neg ?_
    cases hnext : (phases Action 1).next ph c (.eval hostThread) c' with
    | setup k addr buf => rw [hnext] at hpkt; cases hpkt; simp [Payload.numbered,setupPacket]
    | status k addr buf => rw [hnext] at hpkt; cases hpkt; simp [Payload.numbered,statusPacket]
    | transfer trb => rw [hnext] at hpkt; cases hpkt; simp [Payload.numbered,trbPacket]
    | _ => rw [hnext] at hpkt; cases hpkt
  · by_cases hloop : p = .loopbackProcess
    · subst hloop
      exact absurd hq ((loopback_silent hconf ht).2 q)
    · exact absurd hq (process_silent hhost hloop ht q)

/-- What a step does to the peer: the host says something, the peer looks in, or neither. -/
inductive Beat (g : PeerState) (c c' : DrdConf 1) : DrdLabel Action 1 → PeerState → Prop
  | silent (hfree : g.service = .free) (hnone : ∀ q, c'.loc hostThread ≠ .calling q) :
      Beat g c c' (.eval hostThread) g
  | speaks (q : Payload) (hfree : g.service = .free) (hq : c'.loc hostThread = .calling q)
      (hreply : reply q g.partner = none) :
      Beat g c c' (.eval hostThread) ⟨settle q g.partner,.answers hostThread .ok⟩
  | asks (q e : Payload) (next : Unit → PeerProc TlmResponse) (hfree : g.service = .free)
      (hq : c'.loc hostThread = .calling q) (hreply : reply q g.partner = some e)
      (hnext : ∀ u, (next u).run g.partner = (settle q g.partner,.ret .ok)) :
      Beat g c c' (.eval hostThread) ⟨g.partner,.sends hostThread e next⟩
  | visit (q e : Payload) (next : Unit → PeerProc TlmResponse)
      (hservice : g.service = .inside hostThread e next) (hq : c.loc hostThread = .calling q)
      (hreply : reply q g.partner = some e) (hidle : c'.thread callThread = .idle)
      (hstate : c'.state = deliver e c.state) :
      Beat g c c' (.eval callThread) ⟨settle q g.partner,.answers hostThread .ok⟩
  | enter (e : Payload) (next : Unit → PeerProc TlmResponse)
      (hservice : g.service = .sends hostThread e next) :
      Beat g c c' (.enter callThread e) { g with service := .inside hostThread e next }
  | answer (hservice : g.service = .answers hostThread .ok) :
      Beat g c c' (.reply hostThread .ok) { g with service := .free }
  | process (p : Process) (hfree : g.service = .free) (hp : p ≠ .hostMainProcess) :
      Beat g c c' (.eval (.inl p)) g
  | other (l : DrdLabel Action 1) (hfree : g.service = .free) (heval : ∀ t, l ≠ .eval t)
      (hreply : ∀ t r, l ≠ .reply t r) : Beat g c c' l g

theorem Sound.beat (hsound : Sound g.1 c)
    (ht : Taken (drdKernel 1) (drdBoot 1) (bench.pair w) served g c l c') :
    Beat g.1 c c' l (bench.next g.1 c l c') := by
  have hmove := Partner.Allows.move ht.allowed hsound.seated ht.step
  change testPeer.Move (drdKernel 1) g.1 c c' l (bench.next g.1 c l c') at hmove
  have howes := hsound.owes
  generalize bench.next g.1 c l c' = g' at hmove
  cases hmove with
  | run t hfree hdoor hnone =>
    match t with
    | .inr 0 => exact absurd rfl hdoor
    | .inl p =>
      by_cases hp : p = .hostMainProcess
      · subst hp
        exact .silent hfree hnone
      · exact .process p hfree hp
  | call t q hfree hdoor hq =>
    match t with
    | .inr 0 => exact absurd rfl hdoor
    | .inl p =>
      obtain ⟨rfl,hverdict⟩ := speaks_host hsound.unconfigured ht hq
      have hserved := bTransport_served (q := q) (p := g.1.partner)
      change Served q g.1.partner ((testPeer.serve q).run g.1.partner) at hserved
      generalize (testPeer.serve q).run g.1.partner = x at hserved
      cases hserved with
      | silent hreply =>
        rw [hverdict]
        exact .speaks q hfree hq hreply
      | replies hreply hnext =>
        rw [hverdict] at hnext
        exact .asks q _ _ hfree hq hreply hnext
  | enter caller e next hservice =>
    rw [Owes,hservice] at howes
    obtain ⟨rfl,-⟩ := howes
    exact .enter e next hservice
  | visit caller e next p hservice hp hth =>
    rw [Owes,hservice] at howes
    obtain ⟨rfl,q,hq,hreply,hnext⟩ := howes
    obtain rfl := Option.some.inj hp
    obtain ⟨hidle,hstate⟩ := visit_ends (reply_isReply hreply) hsound.drained hth ht.step
    change Beat g.1 c c' (.eval callThread)
      (testPeer.noteEval g.1 (c'.thread callThread).loc callThread)
    rw [Partner.noteEval_inside hservice hidle,hnext]
    exact .visit q e next hservice hq hreply hidle hstate
  | answer caller r hservice =>
    rw [Owes,hservice] at howes
    obtain ⟨rfl,rfl⟩ := howes
    exact .answer hservice
  | other _ hfree heval henter hreply => exact .other l hfree heval hreply

theorem Sound.step {g' : PeerState} (hsound : Sound g.1 c)
    (ht : Taken (drdKernel 1) (drdBoot 1) (bench.pair w) served g c l c')
    (hmove : testPeer.Move (drdKernel 1) g.1 c c' l g') (hbeat : Beat g.1 c c' l g') :
    Sound g' c' := by
  have hvisit : l = .eval callThread → c'.thread callThread = .idle := by
    rintro rfl
    cases hbeat with
    | visit q e next hservice hq hreply hidle hstate => exact hidle
    | other _ _ heval _ => exact absurd rfl (heval _)
  have hdev : devSide c'.state = devSide c.state ∨
      (c'.state.devCtrl.mConfigured = c.state.devCtrl.mConfigured ∧
        c'.state.devCtrl.mEp1In.hasData = false) := by
    cases hbeat with
    | silent hfree hnone => exact .inl (devSide_process hsound.unconfigured ht)
    | speaks q hfree hq hreply => exact .inl (devSide_process hsound.unconfigured ht)
    | asks q e next hfree hq hreply hnext => exact .inl (devSide_process hsound.unconfigured ht)
    | visit q e next hservice hq hreply hidle hstate =>
      rw [hstate]
      exact .inr (deliver_device (reply_isReply hreply) hsound.drained)
    | enter e next hservice => exact .inl (devSide_between ht.step (by simp))
    | answer hservice => exact .inl (devSide_between ht.step (by simp))
    | process p hfree hp => exact .inl (devSide_process hsound.unconfigured ht)
    | other _ hfree heval hreply => exact .inl (devSide_between ht.step heval)
  refine ⟨hsound.seated.step hmove ht.step hvisit,?_,?_,?_,fun q r hready => ?_⟩
  · obtain hdev | hdev := hdev
    · exact (congrArg Prod.fst hdev).trans hsound.unconfigured
    · exact hdev.1.trans hsound.unconfigured
  · obtain hdev | hdev := hdev
    · exact (congrArg (·.2.hasData) hdev).trans hsound.drained
    · exact hdev.2
  · have howes := hsound.owes
    cases hbeat with
    | silent hfree hnone => rw [Owes,hfree]; trivial
    | speaks q hfree hq hreply => exact ⟨rfl,rfl⟩
    | asks q e next hfree hq hreply hnext => exact ⟨rfl,q,hq,hreply,hnext⟩
    | visit q e next hservice hq hreply hidle hstate => exact ⟨rfl,rfl⟩
    | enter e next hservice =>
      rw [Owes,hservice] at howes
      obtain ⟨-,q,hq,hreply,hnext⟩ := howes
      exact ⟨rfl,q,calling_stays ht.step (by simp) (by simp) hq,hreply,hnext⟩
    | answer hservice => trivial
    | process p hfree hp => rw [Owes,hfree]; trivial
    | other _ hfree heval hreply => rw [Owes,hfree]; trivial
  · by_cases hl : l = .eval hostThread
    · subst hl
      obtain ⟨o,p,s,stop,-,-,rfl⟩ := step_eval ht.step
      simp only [Conf.loc,Function.update_self] at hready
      cases stop <;> cases hready
    · have hpasses := step_passes ht.step hl
      rw [Conf.loc] at hready
      have hbefore := hsound.answered q r
      rw [Conf.loc] at hbefore
      generalize c.thread hostThread = th at hpasses hbefore
      generalize c'.thread hostThread = th' at hpasses hready
      cases hpasses with
      | stay => exact hbefore hready
      | wake => cases hready
      | enter => cases hready
      | reply q' next r' hlabel =>
        cases hready
        subst hlabel
        cases hbeat with
        | answer hservice => rfl
        | other _ _ _ hreply => exact absurd rfl (hreply _ _)

end Steps

theorem boot_sound : Sound bench.init (drdBoot 1) where
  seated := by
    refine ⟨fun t q hq => ?_,rfl⟩
    rcases t with p | i
    · cases p <;> cases hq
    · cases hq
  unconfigured := rfl
  drained := rfl
  owes := trivial
  answered q r h := by cases h

theorem sound_reach {γ : Type} {w : BenchWatch γ} {g : PeerState × γ} {c : DrdConf 1}
    (hr : Reach (drdKernel 1) (drdBoot 1) (bench.pair w) served g c) : Sound g.1 c := by
  induction hr with
  | boot => exact boot_sound
  | step hr hok hs ih =>
    exact ih.step ⟨hr,hok,hs⟩ (Partner.Allows.move hok ih.seated hs) (ih.beat ⟨hr,hok,hs⟩)

section Served
variable {γ : Type} {w : BenchWatch γ} {g : PeerState × γ} {c c' : DrdConf 1} {q : Payload}

/-- What the scheduler is left to do while a packet is served. -/
def exchange (q : Payload) (p : PeerDevice) : List (DrdLabel Action 1) :=
  match reply q p with
  | none => [.reply hostThread .ok]
  | some e => [.enter callThread e,.eval callThread,.reply hostThread .ok]

def heard (q : Payload) (p : PeerDevice) (s : Drd) : Drd := (reply q p).elim s (deliver · s)

theorem play_answer {p : PeerDevice} {u : γ} {next : TlmResponse → DrdProc Loop}
    (hth : c.thread hostThread = .calling q next) : ∃ g'' c'',
      (drdKernel 1).Forced (bench.pair w) served [.reply hostThread .ok]
        (⟨p,.answers hostThread .ok⟩,u) c ∧
      (drdKernel 1).play (bench.pair w) served [.reply hostThread .ok]
        (⟨p,.answers hostThread .ok⟩,u) c = some (g'',c'') ∧ g''.1 = ⟨p,.free⟩ ∧
      c''.loc hostThread = .ready (.returned q .ok) ∧ c''.now = c.now ∧ c''.state = c.state := by
  have hs : (drdKernel 1).step c (.reply hostThread .ok) = some ⟨c.now,c.state,
      Function.update c.thread hostThread (.ready (.returned q .ok) (next .ok))⟩ := by
    simp only [Kernel.step,hth]
  rw [play_cons [] ⟨rfl,rfl⟩ hs]
  refine ⟨_,_,⟨fun l hl => hl.eq_reply testPeer rfl,fun _ _ => trivial⟩,rfl,rfl,?_,rfl,rfl⟩
  simp only [Conf.loc,Function.update_self,Thread.loc]

theorem play_visit {p : PeerDevice} {u : γ} {e : Payload} {reply : Unit → PeerProc TlmResponse}
    {next : TlmResponse → DrdProc Loop} {p' : PeerDevice} (he : isReply e)
    (hth : c.thread hostThread = .calling q next) (hidle : c.thread callThread = .idle)
    (hdrained : c.state.devCtrl.mEp1In.hasData = false)
    (hreply : (reply ()).run p = (p',.ret .ok)) : ∃ g'' c'',
      (drdKernel 1).Forced (bench.pair w) served
        [.enter callThread e,.eval callThread,.reply hostThread .ok]
        (⟨p,.sends hostThread e reply⟩,u) c ∧
      (drdKernel 1).play (bench.pair w) served
        [.enter callThread e,.eval callThread,.reply hostThread .ok]
        (⟨p,.sends hostThread e reply⟩,u) c = some (g'',c'') ∧ g''.1 = ⟨p',.free⟩ ∧
      c''.loc hostThread = .ready (.returned q .ok) ∧ c''.now = c.now ∧
      c''.state = deliver e c.state := by
  obtain ⟨d,hd⟩ : ∃ d, d = (⟨c.now,c.state,
    Function.update c.thread callThread (.ready .start (inboundCall e))⟩ : DrdConf 1) := ⟨_,rfl⟩
  have henter : (drdKernel 1).step c (.enter callThread e) = some d := by
    simp only [Kernel.step,hidle,hd]
    rfl
  obtain ⟨r,hrun⟩ := inboundCall_run he hdrained
  have hone : Kernel.segment loopCode 3 (inboundCall e) d.state =
      some (deliver e c.state,.ret (.returned r)) := by
    rw [hd,Kernel.segment,hrun]
    rfl
  have hready : d.thread callThread = .ready .start (inboundCall e) := by
    rw [hd]
    exact Function.update_self callThread _ c.thread
  obtain ⟨f,hf⟩ : ∃ f, f = (⟨d.now,deliver e c.state,Function.update d.thread callThread .idle⟩ :
    DrdConf 1) := ⟨_,rfl⟩
  have heval : (drdKernel 1).step d (.eval callThread) = some f := by
    simp only [Kernel.step,hready,hf]
    show (Kernel.segment loopCode 3 (inboundCall e) d.state).map _ = _
    rw [hone]
    rfl
  have hhost : f.thread hostThread = .calling q next := by
    rw [hf,hd]
    simpa [Function.update_of_ne] using hth
  have hback : f.thread callThread = .idle := by
    rw [hf]
    exact Function.update_self callThread _ d.thread
  rw [play_cons _ ⟨rfl,rfl⟩ henter,play_cons _ rfl heval]
  have hnext : ∃ u', (bench.pair w).next ((bench.pair w).next (⟨p,.sends hostThread e reply⟩,u) c
      (.enter callThread e) d) d (.eval callThread) f = (⟨p',.answers hostThread .ok⟩,u') := by
    refine ⟨_,Prod.ext ?_ rfl⟩
    show testPeer.noteEval ⟨p,.inside hostThread e reply⟩ (f.thread callThread).loc callThread = _
    rw [Partner.noteEval_inside rfl hback,hreply]
    rfl
  obtain ⟨u',hnext⟩ := hnext
  obtain ⟨g'',c'',hforced,hplay,hg,hloc,hnow,hstate⟩ := play_answer (w := w) (p := p') (u := u') hhost
  rw [hnext]
  refine ⟨g'',c'',?_,hplay,hg,hloc,?_,?_⟩
  · refine ⟨fun l hl => hl.eq_enter testPeer rfl,fun d' hd' => ?_⟩
    obtain rfl : d = d' := Option.some.inj (henter.symm.trans hd')
    refine ⟨fun l hl => hl.eq_eval testPeer rfl,fun f' hf' => ?_⟩
    obtain rfl : f = f' := Option.some.inj (heval.symm.trans hf')
    rw [hnext]
    exact hforced
  · rw [hnow,hf,hd]
  · rw [hstate,hf]

/-- In every run with the peer, whatever the environment does and whatever else is recorded,
each packet that leaves the controller is the host's, and the scheduler is left no choice until
it is answered: the steps of its exchange are all that it can do, and after them the host goes on
with OK, no time has passed, the peer has settled the packet, and the controller has heard at most
the one reply. -/
theorem packet_served {γ : Type} (w : BenchWatch γ) (g : PeerState × γ) (c c' : DrdConf 1) (t : Tid 1)
    (q : Payload) (ht : Taken (drdKernel 1) (drdBoot 1) (bench.pair w) served g c (.eval t) c')
    (hq : c'.loc t = .calling q) : t = hostThread ∧
    (drdKernel 1).Forced (bench.pair w) served (exchange q g.1.partner)
      ((bench.pair w).next g c (.eval t) c') c' ∧
    ∃ g'' c'', (drdKernel 1).play (bench.pair w) served (exchange q g.1.partner)
        ((bench.pair w).next g c (.eval t) c') c' = some (g'',c'') ∧
      g''.1 = ⟨settle q g.1.partner,.free⟩ ∧ c''.loc hostThread = .ready (.returned q .ok) ∧
      c''.now = c.now ∧ c''.state = heard q g.1.partner c'.state := by
  have hsound := sound_reach ht.reach
  have hafter := sound_reach (ht.reach.step ht.allowed ht.step)
  have hnow : c'.now = c.now := by
    obtain ⟨_,_,_,_,-,-,rfl⟩ := step_eval ht.step
    rfl
  obtain ⟨u',hu'⟩ : ∃ u', (bench.pair w).next g c (.eval t) c' = (bench.next g.1 c (.eval t) c',u') :=
    ⟨_,rfl⟩
  have hbeat := hsound.beat ht
  rw [hu'] at hafter ⊢
  generalize bench.next g.1 c (.eval t) c' = g' at hbeat hafter
  have hcalling : t = hostThread → ∃ next, c'.thread hostThread = .calling q next := by
    rintro rfl
    exact Conf.exists_calling hq
  cases hbeat with
  | silent hfree hnone => exact absurd hq (hnone q)
  | speaks q' hfree hq' hreply =>
    obtain rfl : q = q' := Loc.calling.inj (hq.symm.trans hq')
    obtain ⟨next,hth⟩ := hcalling rfl
    simp only [exchange,heard,hreply,Option.elim_none]
    obtain ⟨g'',c'',hforced,hplay,hg,hloc,hnow',hstate⟩ := play_answer (w := w) (u := u') hth
    exact ⟨trivial,hforced,g'',c'',hplay,hg,hloc,hnow'.trans hnow,hstate⟩
  | asks q' e next' hfree hq' hreply hnext =>
    obtain rfl : q = q' := Loc.calling.inj (hq.symm.trans hq')
    obtain ⟨next,hth⟩ := hcalling rfl
    simp only [exchange,heard,hreply,Option.elim_some]
    obtain ⟨g'',c'',hforced,hplay,hg,hloc,hnow',hstate⟩ := play_visit (w := w) (u := u')
      (reply_isReply hreply) hth hafter.seated.2.2 hafter.drained (hnext ())
    exact ⟨trivial,hforced,g'',c'',hplay,hg,hloc,hnow'.trans hnow,hstate⟩
  | visit q' e next hservice hq' hreply hidle hstate =>
    rw [Conf.loc,hidle] at hq
    cases hq
  | process p hfree hp => exact absurd (speaks_host hsound.unconfigured ht hq).1 hp
  | other _ hfree heval hreply => exact absurd rfl (heval t)

theorem packet_served_attached : ∃ (g : PeerState × Unit) (c c' : DrdConf 1) (q : Payload),
    Taken (drdKernel 1) (drdBoot 1) (bench.pair noWatch) served g c (.eval hostThread) c' ∧
    c'.loc hostThread = .calling q ∧
    (drdKernel 1).Forced (bench.pair noWatch) served (exchange q g.1.partner)
      ((bench.pair noWatch).next g c (.eval hostThread) c') c' ∧
    ∃ g'' c'', (drdKernel 1).play (bench.pair noWatch) served
      (exchange q g.1.partner) ((bench.pair noWatch).next g c (.eval hostThread) c') c' =
        some (g'',c'') ∧ c''.loc hostThread = .ready (.returned q .ok) := by
  obtain ⟨g,c,c',ht,q,hq⟩ := exists_taken (drdKernel 1) (drdBoot 1) (bench.pair noWatch) served
    (.eval hostThread) (fun _ _ c' => ∃ q, c'.loc hostThread = .calling q)
    (attachRun .ufpAttached) (by decide +kernel)
  obtain ⟨-,hforced,g'',c'',hplay,-,hloc,-⟩ := packet_served noWatch g c c' hostThread q ht hq
  exact ⟨g,c,c',q,ht,hq,hforced,g'',c'',hplay,hloc⟩

end Served

end PeerBench
end Usb3Drd
