import Usb3Drd.HostMeter

/-! The sequence numbers on the link, whatever is sent through the two sockets of the protocol
layer, also from inside the delivery of another packet. -/
namespace Usb3Drd
namespace Numbering

open Coop Proc ProtocolLayer HostController DeviceController HostMeter

def seqNum (s : Drd) : BitVec 32 := s.protocol.mSeqNum

def usesSeq (q : Payload) : Bool := q.ext.any fun ext => usesSequence ext.pktType

def seqOf (q : Payload) : BitVec 32 := (q.ext.map (·.seqNum)).getD 0

/-- A packet of a numbered type takes the counter and moves it on; no other does. -/
def stamps (v : BitVec 32) (q : Payload) (v' : BitVec 32) : Prop :=
  if usesSeq q = true then seqOf q = v ∧ v' = v+1 else v' = v

section Code
variable {own : Loop → Prop}

theorem routeTx_stamps {p : Payload} (hp : p.ext.isSome = true) :
    Metered seqNum Eq stamps own (routeTx p) := by
  obtain ⟨ext,hext⟩ := Option.isSome_iff_exists.mp hp
  intro x hx
  simp only [routeTx,hext,stampSeq,nextSeq,wp_bind,wp_ite,Spec.wp_read,Spec.wp_modify,wp_pure]
  refine ⟨fun hseq => metered_call ?_,fun hseq => metered_call ?_⟩
  · rw [stamps,if_pos (by simpa [usesSeq] using hseq),hx]
    exact ⟨rfl,rfl⟩
  · rw [stamps,if_neg (by simpa [usesSeq] using hseq)]
    exact hx.symm

theorem host_stamps : Obeys seqNum Eq stamps own where
  send _ hp := routeTx_stamps hp
  edit _ _ hlayer _ := congrArg ProtocolLayer.mSeqNum hlayer.symm

theorem sendToProtocol_stamps (pktType : Usb3PktType) (endpoint : BitVec 8) (direction : Usb3Dir)
    (data : List Byte) (epType : Usb3EpType) :
    Metered seqNum Eq stamps own (sendToProtocol pktType endpoint direction data epType) :=
  .bind (.read _) fun _ => .bind (routeTx_stamps rfl) fun _ => .pure trivial

theorem loopbackLoop_stamps :
    MeteredTo seqNum Eq stamps own (· = .loopback) loopbackLoop := by
  refine .bind (.sleep _) fun _ => .bind (.read _) fun _ => .ite (.pure rfl) (.ite ?_ (.pure rfl))
  refine .bind (.modify fun _ => rfl) fun _ => .bind (sendToProtocol_stamps _ _ _ _ _) fun _ => ?_
  refine .bind (.modify fun _ => rfl) fun _ => .bind (.sleep _) fun _ => ?_
  exact .bind (.modify fun _ => rfl) fun _ => .pure rfl

theorem handleSetup_stamps (setup : Usb3SetupPkt) :
    Metered seqNum Eq stamps own (handleSetup setup) := by
  have hreply : ∀ ty endpoint data (r : TlmResponse), Metered seqNum Eq stamps own
      (do sendToProtocol ty endpoint .deviceToHost data; pure r) :=
    fun _ _ _ _ => .bind (sendToProtocol_stamps _ _ _ _ _) fun _ => .pure trivial
  refine .ite ?_ (.ite ?_ (.ite ?_ (.ite (hreply _ _ _ _) (hreply _ _ _ _))))
  · refine .bind (.read _) fun _ => ?_
    split
    · exact hreply _ _ _ _
    · exact hreply _ _ _ _
  · exact .bind (.bind (.modify fun _ => rfl) fun _ => .sleep _) fun _ => .pure trivial
  · exact .bind (.modify fun _ => rfl) fun _ => .pure trivial

theorem reaction_stamps (p : Payload) (ext : Usb3PktExt) :
    Metered seqNum Eq stamps own (reaction p ext) := by
  have hout : Metered seqNum Eq stamps own (handleBulkOut p) :=
    .bind (.modify fun _ => rfl) fun _ => .pure trivial
  unfold reaction
  split
  · exact handleSetup_stamps _
  · exact hout
  · exact hout
  · exact .bind (sendToProtocol_stamps _ _ _ _ _) fun _ => .pure trivial
  · refine .bind (.read _) fun _ => .ite ?_ (.pure trivial)
    refine .bind (.modify fun _ => rfl) fun _ => ?_
    exact .bind (sendToProtocol_stamps _ _ _ _ _) fun _ => .pure trivial
  · exact .pure trivial

theorem fromProtoBTransport_stamps (p : Payload) :
    Metered seqNum Eq stamps own (fromProtoBTransport p) := by
  refine .bind (.read _) fun _ => .ite (.pure trivial) ?_
  split
  · exact .pure trivial
  · exact reaction_stamps p _

theorem upstreamBTransport_stamps (p : Payload) :
    Metered seqNum Eq stamps own (DrdController.upstreamBTransport p) := by
  have hstore : ∀ data s, seqNum s = seqNum (storeResponse data s) := by
    intro data s
    unfold storeResponse
    split <;> rfl
  rw [DrdController.upstreamBTransport,linkBTransport,handleRx_eq]
  refine .ite (.bind (.read _) fun role => ?_) (.pure trivial)
  cases role with
  | host => exact .bind (.modify (hstore _)) fun _ => .pure trivial
  | device => exact fromProtoBTransport_stamps _
  | none => exact .pure trivial

theorem raiseIrq_seqNum (bits : BitVec 32) (s : Drd) :
    seqNum s = seqNum (DrdController.raiseIrq bits s) := by
  dsimp only [DrdController.raiseIrq]
  split <;> rfl

theorem interruptCollector_seqNum (s : Drd) :
    seqNum s = seqNum (DrdController.interruptCollector s) := by
  have hkeep := congrArg seqNum (DrdController.interruptCollector_unwritten s)
  exact hkeep.symm

theorem detectRole_stamps : Metered seqNum Eq stamps own RoleManager.detectRole := by
  refine .bind (.read _) fun _ => .bind (.read _) fun _ => .ite ?_ (.pure trivial)
  refine .bind (.modify fun _ => rfl) fun _ => .bind (.read _) fun _ => .ite (.pure trivial) ?_
  exact .bind (.modify fun _ => rfl) fun _ => .bind (.sleep _) fun _ => .modify fun _ => rfl

theorem roleSwitchLoop_stamps :
    MeteredTo seqNum Eq stamps own (· = .roleSwitch) DrdController.roleSwitchLoop := by
  have henable : ∀ role s, seqNum s = seqNum (DrdController.enableRole role s) := by
    intro role s
    unfold DrdController.enableRole
    repeat' split
    all_goals rfl
  refine .bind (.sleep _) fun _ => .bind (.read _) fun role => ?_
  refine .bind (.modify fun _ => rfl) fun _ => .bind (.sleep _) fun _ => ?_
  refine .bind (.modify (henable role)) fun _ => ?_
  exact .bind (.modify (raiseIrq_seqNum _)) fun _ => .pure rfl

/-- Every loop of the device numbers what it sends. -/
theorem loopCode_stamps (p : Process) (l : Loop) (body : DrdProc Loop) (hl : p.runs l)
    (hbody : loopCode l = some body) : MeteredTo seqNum Eq stamps own p.runs body := by
  cases p with
  | hostMainProcess => exact hostCode_metered host_stamps l body hl hbody
  | roleDetectionProcess =>
    cases hl; cases hbody
    exact .bind (.sleep _) fun _ => .bind detectRole_stamps fun _ => .pure rfl
  | roleSwitchMonitor => cases hl; cases hbody; exact roleSwitchLoop_stamps
  | interruptCollector =>
    cases hl; cases hbody
    exact .bind (.sleep _) fun _ => .bind (.modify interruptCollector_seqNum) fun _ => .pure rfl
  | forwardInputs =>
    cases hl; cases hbody
    exact .bind (.sleep _) fun _ => .bind (.modify fun _ => rfl) fun _ => .pure rfl
  | loopbackProcess => cases hl; cases hbody; exact loopbackLoop_stamps

theorem start_stamps (p : Process) : p.start.Metered seqNum Eq stamps p.runs := by
  cases p with
  | roleDetectionProcess => exact MeteredTo.bind (.modify fun _ => rfl) fun _ => .pure rfl
  | roleSwitchMonitor => exact MeteredTo.bind (.modify fun _ => rfl) fun _ => .pure rfl
  | interruptCollector =>
    exact MeteredTo.bind (.modify interruptCollector_seqNum) fun _ => .pure rfl
  | forwardInputs => exact MeteredTo.bind (.modify fun _ => rfl) fun _ => .pure rfl
  | hostMainProcess => exact hostMainProcess_metered host_stamps
  | loopbackProcess => exact MeteredTo.pure rfl

end Code

/-- A packet at one of the three sockets of the protocol layer. -/
inductive Arrival
  | fromHost (p : Payload)
  | fromDevice (p : Payload)
  | fromLink (p : Payload)

/-- The packet is to be sent and has no extension. -/
def Arrival.bare : Arrival → Bool
  | .fromHost p => p.ext.isNone
  | .fromDevice p => p.ext.isNone
  | .fromLink _ => false

def socketBTransport : Arrival → DrdProc TlmResponse
  | .fromHost p => hostBTransport p
  | .fromDevice p => deviceBTransport p
  | .fromLink p => DrdController.upstreamBTransport p

def socketCall (a : Arrival) : DrdProc Loop := do
  let response ← socketBTransport a
  pure (.returned response)

variable {n : ℕ}

/-- The device, with any further packets at the sockets of its protocol layer. -/
def socketKernel (n : ℕ) :
    Kernel Drd WaitPoint Payload TlmResponse Loop Action Arrival (Tid n) where
  code := loopCode
  fuel := 3
  update := Drd.update
  wakes w s := s.wakes w
  delay := WaitPoint.delay
  quiet := Drd.quiet
  act := Action.apply
  entry
    | .inl _, _ => none
    | .inr _, a => some (socketCall a)

abbrev SocketLabel (n : ℕ) := Label TlmResponse Action Arrival (Tid n)

/-- A packet of a numbered type on the link. -/
structure Sent where
  bare : Bool
  seqNum : BitVec 32
  deriving DecidableEq

/-- The packet of each open call, the packets of numbered types on the link, and how often the
counter moved without one. -/
structure LinkLog (n : ℕ) where
  arrived : Tid n → Option Arrival := fun _ => none
  sent : List Sent := []
  strays : ℕ := 0

namespace LinkLog

def bareAt (g : LinkLog n) : Tid n → Bool
  | .inl _ => false
  | .inr i => (g.arrived (.inr i)).any Arrival.bare

def sentBy (g : LinkLog n) (c' : DrdConf n) : SocketLabel n → List Sent
  | .eval t =>
    match c'.loc t with
    | .calling q => if usesSeq q = true then [⟨g.bareAt t,seqOf q⟩] else []
    | _ => []
  | _ => []

def note (g : LinkLog n) (c c' : DrdConf n) (l : SocketLabel n) : LinkLog n :=
  { g with
    sent := g.sent ++ g.sentBy c' l
    strays := if seqNum c'.state ≠ seqNum c.state ∧ g.sentBy c' l = [] then g.strays+1
      else g.strays }

end LinkLog

def linkLog (n : ℕ) :
    Watch (LinkLog n) Drd WaitPoint Payload TlmResponse Loop Action Arrival (Tid n) where
  init := {}
  next g c l c' :=
    match l with
    | .enter t a =>
      { g.note c c' (.enter t a) with arrived := Function.update g.arrived t (some a) }
    | l => g.note c c' l

/-- A packet without extension leaves with a new one and does not touch the counter. -/
def moves (a : Arrival) (v : BitVec 32) (q : Payload) (v' : BitVec 32) : Prop :=
  if a.bare = true then q.ext = some { pktType := .dpData } ∧ v' = v else stamps v q v'

theorem moves_stamps {a : Arrival} (ha : a.bare = false) : moves a = stamps := by
  funext v q v'
  rw [moves,if_neg (by simp [ha])]

def ended (l : Loop) : Prop := ∃ r, l = .returned r

theorem routeTx_moves {p : Payload} {a : Arrival} (ha : a.bare = p.ext.isNone) :
    Metered seqNum Eq (moves a) ended (routeTx p) := by
  cases hext : p.ext with
  | none =>
    intro x hx
    simp only [routeTx,hext]
    refine metered_call ?_
    rw [moves,if_pos (by rw [ha,hext]; rfl)]
    exact ⟨rfl,hx.symm⟩
  | some ext =>
    rw [moves_stamps (by rw [ha,hext]; rfl)]
    exact routeTx_stamps (by rw [hext]; rfl)

theorem socketCall_moves (a : Arrival) :
    (socketCall a).MeteredTo seqNum Eq (moves a) ended ended := by
  refine .bind ?_ fun r => .pure ⟨r,rfl⟩
  cases a with
  | fromHost p => exact routeTx_moves rfl
  | fromDevice p => exact routeTx_moves rfl
  | fromLink p =>
    rw [moves_stamps rfl]
    exact upstreamBTransport_stamps p

section Runs
variable {present : Process → Bool} {g : LinkLog n} {c c' : DrdConf n} {l : SocketLabel n}

theorem linkLog_records : Records (linkLog n) LinkLog.arrived :=
  .of_update (fun _ _ _ _ _ => rfl) fun g c l c' hl => by
    cases l with
    | enter t e => exact absurd rfl (hl t e)
    | _ => rfl

theorem call_server (i : Fin n) : Server (socketKernel n) (bootWith n present) (linkLog n)
    LinkLog.arrived (.inr i) (fun a => metered seqNum Eq (moves a))
    (fun _ => meterHead seqNum Eq ended) where
  records := linkLog_records
  idle := rfl
  loops a := by
    refine meter_loops ?_
    rintro l body ⟨r,rfl⟩ hbody
    cases hbody
  begins a p hp s := by
    cases hp
    exact socketCall_moves a _ rfl

theorem process_meets (p : Process) : Meets (socketKernel n) (bootWith n present) noWatch
    (fun _ _ _ => True) (.inl p) (Spec.meter seqNum Eq stamps p.runs) := by
  refine meter_meets (loopCode_stamps p) ?_ ?_ ?_
  · intro a q hq
    cases hq
  · simp only [bootWith]
    split
    · exact start_stamps p
    · trivial
  · have htimed : (bootWith n present).WellTimed (drdKernel n) := bootWith_wellTimed
    exact fun t w due next ht hd => htimed t w due next ht hd

inductive LinkStep (g : LinkLog n) (c c' : DrdConf n) (l : SocketLabel n) : Prop
  | still (hsent : g.sentBy c' l = []) (hseq : seqNum c'.state = seqNum c.state)
  | stamped (hsent : g.sentBy c' l = [⟨false,seqNum c.state⟩])
      (hseq : seqNum c'.state = seqNum c.state + 1)
  | bare (hsent : g.sentBy c' l = [⟨true,0⟩]) (hseq : seqNum c'.state = seqNum c.state)

theorem linkStep_stamps {t : Tid n} {o : Origin WaitPoint Payload TlmResponse}
    (hbare : g.bareAt t = false)
    (h : metered seqNum Eq stamps o c.state (c'.loc t) c'.state) : LinkStep g c c' (.eval t) := by
  cases hloc : c'.loc t with
  | calling q =>
    rw [hloc] at h
    have hstamps : stamps (seqNum c.state) q (seqNum c'.state) := h
    rw [stamps] at hstamps
    split at hstamps
    · rename_i huses
      refine .stamped ?_ hstamps.2
      simp [LinkLog.sentBy,hloc,huses,hbare,hstamps.1]
    · rename_i huses
      exact .still (by simp [LinkLog.sentBy,hloc,huses]) hstamps
  | _ =>
    rw [hloc] at h
    have hseq : seqNum c.state = seqNum c'.state := h
    exact .still (by simp [LinkLog.sentBy,hloc]) hseq.symm

theorem linkStep_bare {t : Tid n} {a : Arrival} {o : Origin WaitPoint Payload TlmResponse}
    (hbare : g.bareAt t = true) (ha : a.bare = true)
    (h : metered seqNum Eq (moves a) o c.state (c'.loc t) c'.state) : LinkStep g c c' (.eval t) := by
  cases hloc : c'.loc t with
  | calling q =>
    rw [hloc] at h
    have hmoves : moves a (seqNum c.state) q (seqNum c'.state) := h
    rw [moves,if_pos ha] at hmoves
    refine .bare ?_ hmoves.2
    have huses : usesSeq q = true := by
      rw [usesSeq,hmoves.1]
      rfl
    simp [LinkLog.sentBy,hloc,huses,hbare,seqOf,hmoves.1]
  | _ =>
    rw [hloc] at h
    have hseq : seqNum c.state = seqNum c'.state := h
    exact .still (by simp [LinkLog.sentBy,hloc]) hseq.symm

theorem seqNum_between (hs : (socketKernel n).step c l = some c') (hl : ∀ t, l ≠ .eval t) :
    seqNum c'.state = seqNum c.state := by
  refine step_keeps hs hl (fun a s _ ha => ?_) fun _ => rfl
  have hkeep := congrArg seqNum (Action.apply_unwritten ha)
  exact hkeep

theorem linkStep (ht : Taken (socketKernel n) (bootWith n present) (linkLog n) (fun _ _ _ => True)
    g c l c') : LinkStep g c c' l := by
  cases l with
  | eval t =>
    rcases t with p | i
    · obtain ⟨o,-,-,hguar⟩ := (process_meets p).guar ht.forget
      exact linkStep_stamps rfl hguar
    · obtain ⟨a,o,ha,-,hguar⟩ := (call_server i).eval ht
      have hat : g.bareAt (.inr i) = a.bare := by simp [LinkLog.bareAt,ha]
      cases hbare : a.bare with
      | true => exact linkStep_bare (hat.trans hbare) hbare hguar
      | false =>
        rw [moves_stamps hbare] at hguar
        exact linkStep_stamps (hat.trans hbare) hguar
  | _ => exact .still rfl (seqNum_between ht.step (by simp))

end Runs

/-- The numbered packets of a run, and the counter after them. -/
inductive Traced : List Sent → BitVec 32 → Prop
  | nil : Traced [] 0
  | stamped {sent : List Sent} {v : BitVec 32} (h : Traced sent v) :
      Traced (sent ++ [⟨false,v⟩]) (v+1)
  | bare {sent : List Sent} {v : BitVec 32} (h : Traced sent v) : Traced (sent ++ [⟨true,0⟩]) v

/-- The k-th packet carries k modulo 2^32. -/
def InOrder (sent : List Sent) : Prop := ∀ k (h : k < sent.length), sent[k].seqNum = .ofNat 32 k

/-- Only the last packet may be without an extension, after a multiple of 2^32 others. -/
def BareLast (sent : List Sent) : Prop :=
  ∀ k (h : k < sent.length), sent[k].bare = true → k+1 = sent.length ∧ 2^32 ∣ k

def AllStamped (sent : List Sent) : Prop := ∀ e ∈ sent, e.bare = false

instance (sent : List Sent) : Decidable (AllStamped sent) :=
  inferInstanceAs (Decidable (∀ e ∈ sent, _))

section Counting
variable {sent : List Sent} {v : BitVec 32} {e : Sent}

theorem forall_snoc {P : ℕ → Sent → Prop} :
    (∀ k (h : k < (sent ++ [e]).length), P k (sent ++ [e])[k]) ↔
      (∀ k (h : k < sent.length), P k sent[k]) ∧ P sent.length e := by
  constructor
  · intro h
    refine ⟨fun k hk => ?_,?_⟩
    · have hat := h k (by simp; omega)
      rwa [List.getElem_append_left hk] at hat
    · have hat := h sent.length (by simp)
      rwa [List.getElem_concat_length rfl] at hat
  · rintro ⟨h,hlast⟩ k hk
    by_cases hlt : k < sent.length
    · rw [List.getElem_append_left hlt]
      exact h k hlt
    · obtain rfl : k = sent.length := by
        simp only [List.length_append,List.length_singleton] at hk
        omega
      rwa [List.getElem_concat_length rfl]

theorem inOrder_snoc :
    InOrder (sent ++ [e]) ↔ InOrder sent ∧ e.seqNum = .ofNat 32 sent.length :=
  forall_snoc (P := fun k e => e.seqNum = .ofNat 32 k)

theorem bareLast_snoc :
    BareLast (sent ++ [e]) ↔ AllStamped sent ∧ (e.bare = true → 2^32 ∣ sent.length) := by
  refine (forall_snoc (P := fun k e' => e'.bare = true →
    k+1 = (sent ++ [e]).length ∧ 2^32 ∣ k)).trans (and_congr ?_ ?_)
  · rw [AllStamped,List.forall_mem_iff_getElem]
    refine forall_congr' fun k => forall_congr' fun hk => ?_
    simp only [List.length_append,List.length_singleton]
    constructor
    · intro h
      by_contra hbare
      have hlast := (h (by simpa using hbare)).1
      omega
    · intro h hbare
      rw [h] at hbare
      cases hbare
  · simp

theorem AllStamped.bareLast (h : AllStamped sent) : BareLast sent := by
  intro k hk hbare
  rw [h _ (List.getElem_mem hk)] at hbare
  cases hbare

theorem allStamped_snoc (h : AllStamped (sent ++ [e])) : AllStamped sent :=
  fun e' he => h e' (List.mem_append_left _ he)

/-- As long as every packet is stamped, the counter is their number. -/
theorem Traced.counter (h : Traced sent v) (hs : AllStamped sent) : v = .ofNat 32 sent.length := by
  induction h with
  | nil => rfl
  | stamped _ ih =>
    rw [ih (allStamped_snoc hs),List.length_append,List.length_singleton,BitVec.ofNat_add]
    rfl
  | @bare sent v h ih => exact absurd (hs ⟨true,0⟩ (by simp)) (by simp)

theorem Traced.allStamped (h : Traced sent v) (hlast : BareLast sent)
    (hv : v = .ofNat 32 sent.length) : AllStamped sent := by
  cases h with
  | nil => exact fun e he => by cases he
  | @stamped sent v h =>
    intro e he
    rcases List.mem_append.mp he with he | he
    · exact (bareLast_snoc.mp hlast).1 e he
    · rw [List.mem_singleton.mp he]
  | @bare sent v h =>
    have hbehind := h.counter (bareLast_snoc.mp hlast).1
    rw [hbehind,List.length_append,List.length_singleton,BitVec.ofNat_add] at hv
    simp at hv

theorem allStamped_of_dvd (hlast : BareLast sent) (hdvd : 2^32 ∣ sent.length) :
    AllStamped sent := by
  rcases List.eq_nil_or_concat sent with rfl | ⟨front,e,rfl⟩
  · exact fun e he => by cases he
  · rw [List.concat_eq_append] at hlast hdvd ⊢
    obtain ⟨hfront,hbare⟩ := bareLast_snoc.mp hlast
    rw [List.length_append,List.length_singleton] at hdvd
    intro e' he
    rcases List.mem_append.mp he with he | he
    · exact hfront e' he
    · rw [List.mem_singleton.mp he]
      by_contra h
      have hdvd' := hbare (by simpa using h)
      omega

theorem ofNat_eq_zero_iff {k : ℕ} : (0 : BitVec 32) = .ofNat 32 k ↔ 2^32 ∣ k := by
  rw [← BitVec.toNat_inj,BitVec.toNat_ofNat,Nat.dvd_iff_mod_eq_zero]
  exact eq_comm

theorem Traced.inOrder_iff (h : Traced sent v) : InOrder sent ↔ BareLast sent := by
  induction h with
  | nil => exact iff_of_true (fun k hk => by cases hk) fun k hk => by cases hk
  | @stamped sent v h ih =>
    rw [inOrder_snoc,bareLast_snoc,ih]
    constructor
    · rintro ⟨hlast,hv⟩
      exact ⟨h.allStamped hlast hv,fun hbare => by cases hbare⟩
    · rintro ⟨hs,-⟩
      exact ⟨hs.bareLast,h.counter hs⟩
  | @bare sent v h ih =>
    rw [inOrder_snoc,bareLast_snoc,ih]
    constructor
    · rintro ⟨hlast,hv⟩
      have hdvd := ofNat_eq_zero_iff.mp hv
      exact ⟨allStamped_of_dvd hlast hdvd,fun _ => hdvd⟩
    · rintro ⟨hs,hdvd⟩
      exact ⟨hs.bareLast,ofNat_eq_zero_iff.mpr (hdvd rfl)⟩

end Counting

theorem reach_traced {present : Process → Bool} {g : LinkLog n} {c : DrdConf n}
    (hr : Reach (socketKernel n) (bootWith n present) (linkLog n) (fun _ _ _ => True) g c) :
    Traced g.sent (seqNum c.state) ∧ g.strays = 0 := by
  induction hr with
  | boot => exact ⟨.nil,rfl⟩
  | @step g c l c' hr hok hs ih =>
    have hnext : ((linkLog n).next g c l c').sent = (g.note c c' l).sent ∧
        ((linkLog n).next g c l c').strays = (g.note c c' l).strays := by
      cases l <;> exact ⟨rfl,rfl⟩
    rw [hnext.1,hnext.2,LinkLog.note]
    cases linkStep ⟨hr,hok,hs⟩ with
    | still hsent hseq =>
      simp only [hsent,hseq,List.append_nil,ne_eq,not_true_eq_false,false_and,if_false]
      exact ih
    | stamped hsent hseq =>
      simp only [hsent,hseq,List.cons_ne_nil,and_false,if_false]
      exact ⟨.stamped ih.1,ih.2⟩
    | bare hsent hseq =>
      simp only [hsent,hseq,List.cons_ne_nil,and_false,if_false]
      exact ⟨.bare ih.1,ih.2⟩

/-- The packets of numbered types on the link count from zero, and nothing else advances the
counter. -/
def Numbered (g : LinkLog n) : Prop := InOrder g.sent ∧ g.strays = 0

/-- In every run, whatever is sent by host and device and however it is nested, the numbers on
the link are in order exactly if only the last packet may have come without an extension. -/
theorem numbered_iff_bareLast (n : ℕ) (present : Process → Bool) (g : LinkLog n) (c : DrdConf n)
    (hr : Reach (socketKernel n) (bootWith n present) (linkLog n) (fun _ _ _ => True) g c) :
    Numbered g ↔ BareLast g.sent := by
  obtain ⟨htraced,hstrays⟩ := reach_traced hr
  rw [Numbered,htraced.inOrder_iff,and_iff_left hstrays]

theorem numbered_nested : ∃ g c, Reach (socketKernel 2) (bootWith 2 fun _ => false) (linkLog 2)
    (fun _ _ _ => True) g c ∧ g.sent = [⟨false,0⟩,⟨false,1⟩] ∧ Numbered g := by
  obtain ⟨g,c,hr,hsent⟩ := exists_reach (socketKernel 2) (bootWith 2 fun _ => false) (linkLog 2)
    (fun _ _ _ => True) (fun g _ => g.sent = [⟨false,0⟩,⟨false,1⟩])
    [.enter (.inr 0) (.fromHost { ext := some { pktType := .setup } }),.eval (.inr 0),
      .enter (.inr 1) (.fromDevice { ext := some { pktType := .bulkIn } }),.eval (.inr 1)]
    (by decide +kernel)
  have hstamped : AllStamped g.sent := by
    rw [hsent]
    decide
  exact ⟨g,c,hr,hsent,(numbered_iff_bareLast 2 _ g c hr).mpr hstamped.bareLast⟩

/-- A packet without an extension and the next one carry the same number. -/
theorem not_numbered_bare : ¬∀ g c, Reach (socketKernel 1) (bootWith 1 fun _ => false) (linkLog 1)
    (fun _ _ _ => True) g c → Numbered g := by
  intro h
  obtain ⟨g,c,hr,hsent⟩ := exists_reach (socketKernel 1) (bootWith 1 fun _ => false) (linkLog 1)
    (fun _ _ _ => True) (fun g _ => g.sent = [⟨true,0⟩,⟨false,0⟩])
    [.enter (.inr 0) (.fromHost {}),.eval (.inr 0),.reply (.inr 0) .ok,.eval (.inr 0),
      .enter (.inr 0) (.fromHost { ext := some { pktType := .bulkOut } }),.eval (.inr 0)]
    (by decide +kernel)
  have horder := (h g c hr).1
  rw [hsent] at horder
  exact absurd (horder 1 (by decide)) (by decide)

end Numbering
end Usb3Drd
