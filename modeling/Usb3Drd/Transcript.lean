import Usb3Drd.DisabledLink
import Usb3Drd.HostMachine

/-! What the host says on the link in one session: the requests of an enumeration, in the order
of a script, each closed by its status stage to the same address, and bulk packets only after
the enumeration has ended. This holds with every peer. -/
namespace Usb3Drd
namespace Transcript

open Coop ProtocolLayer HostController HostMachine

/-- The setup requests of a session with their addresses, the addresses of its status stages, how
these were answered, and whether a bulk packet was sent. -/
structure SessionTrace where
  requests : List (BitVec 8 × Usb3SetupPkt) := []
  statuses : List (BitVec 8) := []
  answers : List TlmResponse := []
  bulk : Bool := false
  deriving DecidableEq

namespace SessionTrace

def noteRun (g : SessionTrace) : Origin WaitPoint Payload TlmResponse → SessionTrace
  | .start => {}
  | .woke w => if w = .enablePosedge then {} else g
  | .returned q r =>
    if q.pktType = some .ctrlStatus then { g with answers := g.answers ++ [r] } else g

def noteSent (g : SessionTrace) : Loc WaitPoint Payload TlmResponse → SessionTrace
  | .calling q =>
    match q.ext with
    | none => g
    | some ext =>
      match ext.pktType with
      | .setup => { g with requests := g.requests ++ [(ext.devAddr,ext.setup)] }
      | .ctrlStatus => { g with statuses := g.statuses ++ [ext.devAddr] }
      | .bulkIn => { g with bulk := true }
      | .bulkOut => { g with bulk := true }
      | _ => g
  | _ => g

end SessionTrace

def sessionTrace (n : ℕ) :
    Watch SessionTrace Drd WaitPoint Payload TlmResponse Loop Action Payload (Tid n) where
  init := {}
  next g c l c' :=
    match l with
    | .eval t => if t = hostThread then
        match c.loc t with
        | .ready o => (g.noteRun o).noteSent (c'.loc t)
        | _ => g
      else g
    | _ => g

def index : Stage → ℕ
  | .device => 0
  | .address _ => 1
  | .config => 2
  | .bos => 3
  | .configure => 4

def script (a : BitVec 8) : List (BitVec 8 × Usb3SetupPkt) :=
  [(0,descriptorRequest usbDescDevice 0),(0,addressRequest a),
    (a,descriptorRequest usbDescConfiguration 0),(a,descriptorRequest usbDescBos 0),
    (a,configurationRequest 1)]

/-- Every status stage was answered OK, but perhaps that of the BOS read. -/
def Passed (answers : List TlmResponse) : Prop :=
  ∀ i r, answers[i]? = some r → i ≠ 3 → r = .ok

/-- How far a session has got. -/
structure Progress (a : BitVec 8) (g : SessionTrace) (sent closed answered : ℕ) : Prop where
  requests : g.requests = (script a).take sent
  statuses : g.statuses = ((script a).take closed).map Prod.fst
  answers : g.answers.length = answered

def Fits (k : Stage) (addr a : BitVec 8) (d : Usb3DeviceInfo) : Prop :=
  match k with
  | .device => addr = 0
  | .address newAddr => addr = 0 ∧ a = newAddr
  | _ => addr = a ∧ d.addr = a

structure Within (k : Stage) (addr a : BitVec 8) (g : SessionTrace) (d : Usb3DeviceInfo) : Prop where
  fits : Fits k addr a d
  passed : Passed (g.answers.take (index k))
  enumerated : d.enumerated = false
  bulk : g.bulk = false

inductive Ended (g : SessionTrace) (d : Usb3DeviceInfo) : Prop
  | done (h : Progress d.addr g 5 5 5) (hpassed : Passed g.answers) (hdone : d.enumerated = true)
  | failed {a : BitVec 8} {k : ℕ} (hk : k < 5) (h : Progress a g (k+1) (k+1) (k+1))
      (hpassed : Passed (g.answers.take k)) (hfailed : ¬Passed g.answers) (hdone : d.enumerated = false)

def Blank (g : SessionTrace) (d : Usb3DeviceInfo) : Prop := g = {} ∧ d.enumerated = false

def Follows (g : SessionTrace) (d : Usb3DeviceInfo) : Phase → Prop
  | .boot => Blank g d
  | .disabled => Blank g d ∨ Ended g d
  | .setup k addr _ => ∃ a, Progress a g (index k+1) (index k) (index k) ∧
      Within k addr a g d
  | .settling k addr _ => ∃ a, Progress a g (index k+1) (index k) (index k) ∧
      Within k addr a g d
  | .status k addr _ => ∃ a, Progress a g (index k+1) (index k+1) (index k) ∧
      Within k addr a g d
  | .closing k _ answered => ∃ addr a,
      Progress a g (index k+1) (index k+1) (index k+1) ∧ Within k addr a g d ∧
      (g.answers[index k]? = some .ok ↔ answered = true)
  | .addressing _ => Progress d.addr g 2 2 2 ∧ Passed g.answers ∧ d.enumerated = false ∧ g.bulk = false
  | _ => Ended g d

section Turns
variable {g : SessionTrace} {d : Usb3DeviceInfo} {s : Drd} {ph : Phase}
  {o : Origin WaitPoint Payload TlmResponse}

@[simp] theorem noteSent_begins (k : Stage) (addr : BitVec 8) (buf : List Byte) :
    g.noteSent (begins k addr buf s).loc =
      { g with requests := g.requests ++ [(addr,k.request)] } := rfl
@[simp] theorem noteSent_status (addr : BitVec 8) (dir : Bool) :
    g.noteSent (sends ph (statusPacket addr dir) s).loc =
      { g with statuses := g.statuses ++ [addr] } := rfl
@[simp] theorem noteSent_waits (w : WaitPoint) : g.noteSent (waits ph w s).loc = g := rfl
@[simp] theorem noteSent_trb (trb : Usb3Trb) :
    g.noteSent (sends ph (trbPacket trb) s).loc = { g with bulk := true } := by
  cases hdir : trb.direction <;>
    simp [sends,stamp,trbPacket,hdir,SessionTrace.noteSent,makeUsb3Ext,Payload.numbered,
      Payload.pktType,usesSequence]

@[simp] theorem begins_dev (k : Stage) (addr : BitVec 8) (buf : List Byte) :
    (begins k addr buf s).state.hostCtrl.mDev = s.hostCtrl.mDev := rfl

theorem sends_dev (p : Payload) : (sends ph p s).state.hostCtrl.mDev = s.hostCtrl.mDev := by
  obtain ⟨layer,h⟩ := stamp_frame p s
  rw [sends,h]

theorem Progress.ask {a addr : BitVec 8} {g : SessionTrace} {k : Stage} {m : ℕ}
    (h : Progress a g (index k) m m) (hk : (script a)[index k]? = some (addr,k.request)) :
    Progress a { g with requests := g.requests ++ [(addr,k.request)] } (index k+1) m m := by
  refine ⟨?_,h.statuses,h.answers⟩
  rw [h.requests,List.take_add_one,hk]
  rfl

theorem script_fits {k : Stage} {addr a : BitVec 8} (h : Fits k addr a d) :
    (script a)[index k]? = some (addr,k.request) := by
  cases k with
  | device => obtain rfl := h; rfl
  | address newAddr => obtain ⟨rfl,rfl⟩ := h; rfl
  | _ => obtain ⟨rfl,-⟩ := h; rfl

theorem ringHead_follows (h : Ended g s.hostCtrl.mDev) :
    Follows (g.noteSent (ringHead s).loc) (ringHead s).state.hostCtrl.mDev (ringHead s).phase := by
  rw [ringHead]
  split
  · exact .inr h
  · split
    · exact h
    · rename_i trb rest _
      rw [noteSent_trb,sends_dev]
      cases h with
      | done h hpassed hdone => exact .done ⟨h.1,h.2,h.3⟩ hpassed hdone
      | failed hk h hpassed hfailed hdone => exact .failed hk ⟨h.1,h.2,h.3⟩ hpassed hfailed hdone

theorem passed_nil : Passed [] := by
  intro i r hi
  cases hi

theorem Passed.take {answers : List TlmResponse} (h : Passed answers) (k : ℕ) :
    Passed (answers.take k) := by
  intro i r hi hne
  rw [List.getElem?_take] at hi
  split at hi
  · exact h i r hi hne
  · cases hi

theorem passed_of_last {answers : List TlmResponse} {k : ℕ} (hlen : answers.length = k+1)
    (hbefore : Passed (answers.take k)) (hlast : k ≠ 3 → answers[k]? = some .ok) :
    Passed answers := by
  intro i r hi hne
  rcases Nat.lt_trichotomy i k with hik | rfl | hik
  · exact hbefore i r (by rw [List.getElem?_take_of_lt hik]; exact hi) hne
  · exact (Option.some.inj (hi.symm.trans (hlast hne)))
  · have hlt := (List.getElem?_eq_some_iff.mp hi).1
    omega

theorem not_passed_of_last {answers : List TlmResponse} {k : ℕ} (hlen : answers.length = k+1)
    (hk : k ≠ 3) (hlast : answers[k]? ≠ some .ok) : ¬Passed answers := by
  intro h
  have hlt : k < answers.length := by omega
  have hsome := List.getElem?_eq_getElem hlt
  exact hlast (hsome.trans (congrArg some (h k _ hsome hk)))

theorem index_lt (k : Stage) : index k < 5 := by
  cases k <;> simp [index]

theorem Within.ended {k : Stage} {addr a : BitVec 8} (h : Within k addr a g d)
    (hp : Progress a g (index k+1) (index k+1) (index k+1)) (hk : index k ≠ 3)
    (hlast : g.answers[index k]? ≠ some .ok) : Ended g d :=
  .failed (index_lt k) hp h.passed (not_passed_of_last hp.answers hk hlast) h.enumerated

theorem Within.passed_all {k : Stage} {addr a : BitVec 8} (h : Within k addr a g d)
    (hp : Progress a g (index k+1) (index k+1) (index k+1))
    (hlast : index k ≠ 3 → g.answers[index k]? = some .ok) : Passed g.answers :=
  passed_of_last hp.answers h.passed hlast

theorem take_answers {k m m' : ℕ} {a : BitVec 8} (hp : Progress a g m m' k) :
    g.answers.take k = g.answers := by
  rw [← hp.answers,List.take_length]

theorem begins_follows {k : Stage} {addr a : BitVec 8} (buf : List Byte)
    (hp : Progress a g (index k) (index k) (index k)) (hfits : Fits k addr a s.hostCtrl.mDev)
    (hpassed : Passed g.answers) (hdone : s.hostCtrl.mDev.enumerated = false)
    (hbulk : g.bulk = false) :
    Follows (g.noteSent (begins k addr buf s).loc) (begins k addr buf s).state.hostCtrl.mDev
      (begins k addr buf s).phase := by
  rw [noteSent_begins,begins_dev]
  refine ⟨a,hp.ask (script_fits hfits),hfits,?_,hdone,hbulk⟩
  show Passed (g.answers.take (index k))
  rw [take_answers hp]
  exact hpassed

theorem session_follows (hdone : s.hostCtrl.mDev.enumerated = false) :
    Follows (SessionTrace.noteSent {} (begins .device 0 [] s).loc)
      (begins .device 0 [] s).state.hostCtrl.mDev (begins .device 0 [] s).phase :=
  begins_follows (a := 0) [] ⟨rfl,rfl,rfl⟩ rfl passed_nil hdone rfl

theorem conclude_follows {k : Stage} {buf : List Byte} {answered : Bool}
    (h : Follows g s.hostCtrl.mDev (.closing k buf answered)) :
    Follows (g.noteSent (conclude k buf answered s).loc)
      (conclude k buf answered s).state.hostCtrl.mDev (conclude k buf answered s).phase := by
  obtain ⟨addr,a,hp,hw,hlast⟩ := h
  have hfail : index k ≠ 3 → answered = false → Ended g s.hostCtrl.mDev := by
    rintro hk rfl
    exact hw.ended hp hk fun h => absurd (hlast.mp h) (by simp)
  have hpass : (index k ≠ 3 → answered = true) → Passed g.answers :=
    fun hk => hw.passed_all hp fun h => hlast.mpr (hk h)
  cases k with
  | device =>
    cases answered with
    | false => exact ringHead_follows (hfail (by decide) rfl)
    | true =>
      refine begins_follows (a := s.hostCtrl.mNextAddr) _ ⟨hp.1,hp.2,hp.3⟩ ⟨rfl,rfl⟩
        (hpass fun _ => rfl) ?_ hw.bulk
      show (noteDevice _ _).enumerated = false
      unfold noteDevice
      split
      · exact hw.enumerated
      · exact hw.enumerated
  | address newAddr =>
    cases answered with
    | false => exact ringHead_follows (hfail (by simp [index]) rfl)
    | true =>
      obtain ⟨-,rfl⟩ := hw.fits
      exact ⟨hp,hpass fun _ => rfl,hw.enumerated,hw.bulk⟩
  | config =>
    cases answered with
    | false => exact ringHead_follows (hfail (by decide) rfl)
    | true =>
      obtain ⟨rfl,hdev⟩ := hw.fits
      have haddr : (noteConfig buf s.hostCtrl.mDev).addr = addr := by
        unfold noteConfig
        split
        · exact hdev
        · exact hdev
      refine begins_follows (a := addr) _ hp ⟨haddr,haddr⟩ (hpass fun _ => rfl) ?_ hw.bulk
      show (noteConfig _ _).enumerated = false
      unfold noteConfig
      split
      · exact hw.enumerated
      · exact hw.enumerated
  | bos =>
    obtain ⟨rfl,hdev⟩ := hw.fits
    exact begins_follows (a := addr) _ hp ⟨hdev,hdev⟩ (hpass fun h => absurd rfl h) hw.enumerated hw.bulk
  | configure =>
    cases answered with
    | false => exact ringHead_follows (hfail (by decide) rfl)
    | true =>
      obtain ⟨rfl,hdev⟩ := hw.fits
      refine .done ?_ (hpass fun _ => rfl) rfl
      show Progress s.hostCtrl.mDev.addr g 5 5 5
      rw [hdev]
      exact hp

/-- A turn of the machine goes on with the script. -/
theorem turn_follows (h : Follows g s.hostCtrl.mDev ph) (hst : ph.Stands (.ready o)) :
    Follows ((g.noteRun o).noteSent (turn ph o s).loc) (turn ph o s).state.hostCtrl.mDev
      (turn ph o s).phase := by
  have hwoke : ∀ {w}, ph.point = some w → w ≠ .enablePosedge → g.noteRun o = g := by
    intro w hw hne
    rw [hst.woke hw,SessionTrace.noteRun,if_neg hne]
  cases ph with
  | boot =>
    obtain ⟨rfl,hdone⟩ := h
    have hrun : SessionTrace.noteRun {} o = {} := by
      cases o with
      | start => rfl
      | woke w => cases hst
      | returned q r => obtain ⟨p,n,hp,-⟩ := hst; cases hp
    rw [hrun,turn,mainHead]
    split
    · exact .inl ⟨rfl,hdone⟩
    · exact session_follows rfl
  | disabled =>
    rw [hst.woke rfl]
    exact session_follows rfl
  | setup k addr buf =>
    obtain ⟨n,r,rfl⟩ := hst.returned rfl
    exact h
  | settling k addr buf =>
    rw [hwoke rfl (by decide)]
    obtain ⟨a,hp,hw⟩ := h
    have hstatus : ∀ buf' s', s'.hostCtrl.mDev = s.hostCtrl.mDev →
        Follows (g.noteSent (sends (.status k addr buf') (statusPacket addr k.hostToDevice) s').loc)
          (sends (.status k addr buf') (statusPacket addr k.hostToDevice) s').state.hostCtrl.mDev
          (.status k addr buf') := by
      intro buf' s' hdev
      rw [noteSent_status,sends_dev,hdev]
      refine ⟨a,⟨hp.1,?_,hp.3⟩,hw.1,hw.2,hw.3,hw.4⟩
      show g.statuses ++ [addr] = _
      rw [hp.2,List.take_add_one,script_fits hw.fits,List.map_append]
      rfl
    simp only [turn,collect]
    split
    · exact hstatus _ (drain s) rfl
    · exact hstatus _ s rfl
  | status k addr buf =>
    obtain ⟨n,r,rfl⟩ := hst.returned rfl
    obtain ⟨a,hp,hw⟩ := h
    have htake : (g.answers ++ [r]).take (index k) = g.answers := by
      rw [← hp.answers,List.take_left']
      rfl
    refine ⟨addr,a,⟨hp.1,hp.2,?_⟩,⟨hw.1,?_,hw.3,hw.4⟩,?_⟩
    · show (g.answers ++ [r]).length = _
      rw [List.length_append,hp.answers]
      rfl
    · show Passed ((g.answers ++ [r]).take (index k))
      rw [htake,← take_answers hp]
      exact hw.passed
    · show (g.answers ++ [r])[index k]? = some .ok ↔ decide (r = .ok) = true
      rw [← hp.answers,List.getElem?_concat_length]
      simp
  | closing k buf answered =>
    rw [hwoke rfl (by decide)]
    exact conclude_follows h
  | addressing buf =>
    rw [hwoke rfl (by decide)]
    obtain ⟨hp,hpassed,hdone,hbulk⟩ := h
    exact begins_follows _ hp ⟨rfl,rfl⟩ hpassed hdone hbulk
  | announcing => rw [hwoke rfl (by decide)]; exact ringHead_follows h
  | idle => rw [hwoke rfl (by decide)]; exact ringHead_follows h
  | completing => rw [hwoke rfl (by decide)]; exact ringHead_follows h
  | transfer trb =>
    obtain ⟨n,r,rfl⟩ := hst.returned rfl
    have hrun : g.noteRun (.returned ((trbPacket trb).numbered n) r) = g :=
      if_neg (not_status_bulk (isBulk_trbPacket trb n))
    have hdev := (receive_frame trb s).1
    rw [hrun,turn]
    split
    · exact hdev ▸ h
    · exact ringHead_follows (hdev ▸ h)

end Turns

/-- What a session's trace says about the enumeration of the attached device. -/
structure Conforms (g : SessionTrace) (d : Usb3DeviceInfo) (a : BitVec 8) : Prop where
  requests : g.requests <+: script a
  statuses : g.statuses <+: g.requests.map Prod.fst
  closed : g.requests.length ≤ g.answers.length + 1
  answered : g.answers.length ≤ g.statuses.length
  passed : Passed (g.answers.take (g.requests.length - 1))
  bulk : g.bulk = true → ¬Passed g.answers ∨ d.enumerated = true
  enumerated : d.enumerated = true →
    g.requests = script d.addr ∧ g.answers.length = 5 ∧ Passed g.answers

section Runs
variable {g : SessionTrace} {d : Usb3DeviceInfo} {ph : Phase}

theorem script_length (a : BitVec 8) : (script a).length = 5 := rfl

theorem Progress.conforms {a : BitVec 8} {m m' m'' : ℕ} (hp : Progress a g m m' m'')
    (hle : m'' ≤ m') (hle' : m' ≤ m) (hone : m ≤ m'' + 1) (hfive : m ≤ 5)
    (hpassed : Passed (g.answers.take (m - 1)))
    (hbulk : g.bulk = true → ¬Passed g.answers ∨ d.enumerated = true)
    (henum : d.enumerated = true → d.addr = a ∧ m = 5 ∧ m'' = 5 ∧ Passed g.answers) :
    Conforms g d a := by
  have hrequests : g.requests.length = m := by
    rw [hp.requests,List.length_take,script_length]
    omega
  have hstatuses : g.statuses.length = m' := by
    rw [hp.statuses,List.length_map,List.length_take,script_length]
    omega
  refine ⟨hp.requests ▸ List.take_prefix _ _,?_,?_,?_,hrequests.symm ▸ hpassed,hbulk,fun h => ?_⟩
  · rw [hp.statuses,hp.requests]
    exact List.IsPrefix.map _ (List.take_prefix_take_left hle')
  · rw [hrequests,hp.answers]
    exact hone
  · rw [hp.answers,hstatuses]
    exact hle
  · obtain ⟨haddr,rfl,rfl,hall⟩ := henum h
    exact ⟨by rw [hp.requests,haddr]; rfl,hp.answers,hall⟩

theorem Ended.conforms (h : Ended g d) : ∃ a, Conforms g d a := by
  cases h with
  | done h hpassed hdone =>
    exact ⟨_,h.conforms le_rfl le_rfl (by omega) le_rfl (hpassed.take _) (fun _ => .inr hdone)
      fun _ => ⟨rfl,rfl,rfl,hpassed⟩⟩
  | @failed a k hk h hpassed hfailed hdone =>
    exact ⟨a,h.conforms le_rfl le_rfl (by omega) hk hpassed (fun _ => .inl hfailed)
      fun h => by rw [hdone] at h; cases h⟩

theorem Blank.conforms (h : Blank g d) : ∃ a, Conforms g d a := by
  obtain ⟨rfl,hdone⟩ := h
  have hp : Progress 0 {} 0 0 0 := ⟨rfl,rfl,rfl⟩
  exact ⟨0,hp.conforms le_rfl le_rfl (by omega) (by omega) passed_nil (fun h => by cases h)
    fun h => by rw [hdone] at h; cases h⟩

theorem Within.conforms {k : Stage} {addr a : BitVec 8} {m m' : ℕ} (h : Within k addr a g d)
    (hp : Progress a g (index k+1) m m') (hle : m' ≤ m) (hle' : m ≤ index k+1)
    (hone : index k ≤ m') : ∃ a, Conforms g d a :=
  ⟨a,hp.conforms hle hle' (by omega) (index_lt k) h.passed
    (fun hb => by rw [h.bulk] at hb; cases hb) fun hd => by rw [h.enumerated] at hd; cases hd⟩

theorem Follows.conforms (h : Follows g d ph) : ∃ a, Conforms g d a := by
  cases ph with
  | boot => exact Blank.conforms h
  | disabled => exact h.elim Blank.conforms Ended.conforms
  | setup k addr buf =>
    obtain ⟨a,hp,hw⟩ := h
    exact hw.conforms hp le_rfl (by omega) le_rfl
  | settling k addr buf =>
    obtain ⟨a,hp,hw⟩ := h
    exact hw.conforms hp le_rfl (by omega) le_rfl
  | status k addr buf =>
    obtain ⟨a,hp,hw⟩ := h
    exact hw.conforms hp (by omega) le_rfl le_rfl
  | closing k buf answered =>
    obtain ⟨addr,a,hp,hw,-⟩ := h
    exact hw.conforms hp le_rfl le_rfl (by omega)
  | addressing buf =>
    obtain ⟨hp,hpassed,hdone,hbulk⟩ := h
    exact ⟨_,hp.conforms le_rfl le_rfl (by omega) (by omega) (hpassed.take _)
      (fun hb => by rw [hbulk] at hb; cases hb) fun hd => by rw [hdone] at hd; cases hd⟩
  | _ => exact Ended.conforms h

end Runs

section System
variable {n : ℕ}

/-- In every run the session follows the script, whoever answers. -/
theorem reach_follows {u : Phase × SessionTrace} {c : DrdConf n}
    (hr : Reach (drdKernel n) (drdBoot n) ((phases Action n).pair (sessionTrace n))
      (fun _ _ _ => True) u c) : Follows u.2 c.state.hostCtrl.mDev u.1 := by
  induction hr with
  | boot => exact ⟨rfl,rfl⟩
  | @step u c l c' hr _ hs ih =>
    have hphase := hr.image Prod.fst rfl fun _ _ _ _ => rfl
    by_cases hl : l = .eval hostThread
    · subst hl
      obtain ⟨o,hloc,hst,hturn,hstate⟩ := taken_turn rfl ⟨hphase,trivial,hs⟩
      have hnext : ((phases Action n).pair (sessionTrace n)).next u c (.eval hostThread) c' =
          ((turn u.1 o c.state).phase,(u.2.noteRun o).noteSent (c'.loc hostThread)) := by
        simp [Watch.pair,phases,sessionTrace,hloc]
      rw [hnext,hturn,hstate]
      exact turn_follows ih hst
    · have hdev := congrArg Prod.fst (hostOwn_kept ⟨hphase,trivial,hs⟩ hl)
      have hnext : ((phases Action n).pair (sessionTrace n)).next u c l c' = u := by
        cases l with
        | eval t =>
          have ht : t ≠ hostThread := fun h => hl (by rw [h])
          simp [Watch.pair,phases,sessionTrace,ht]
        | _ => rfl
      rw [hnext,show c'.state.hostCtrl.mDev = c.state.hostCtrl.mDev from hdev]
      exact ih

end System

/-- In every run, with every peer and every number of calls from the link, what the host has
sent in its session is a prefix of the script of an enumeration, each request closed by one
status stage to its own address, and it goes on only after a request that was answered OK.
Bulk packets come after a failure or after the whole script, and the host is enumerated only
after the whole script. When it waits for work, it is enumerated exactly if nothing failed. -/
theorem session_follows_script (n : ℕ) (g : SessionTrace) (c : DrdConf n)
    (hr : Reach (drdKernel n) (drdBoot n) (sessionTrace n) (fun _ _ _ => True) g c) :
    (∃ a, Conforms g c.state.hostCtrl.mDev a) ∧ (c.loc hostThread = .waiting .trbComplete →
      (c.state.hostCtrl.mDev.enumerated = true ↔ Passed g.answers)) := by
  obtain ⟨ph,hpair⟩ := hr.pair (phases Action n)
  have hfollows := reach_follows hpair
  refine ⟨hfollows.conforms,fun hloc => ?_⟩
  have hst := reach_stands rfl (hpair.image Prod.fst rfl fun _ _ _ _ => rfl)
  rw [hloc] at hst
  obtain rfl : ph = .idle := by
    have hpoint : ph.point = some .trbComplete := hst
    cases ph <;> first | rfl | cases hpoint
  cases hfollows with
  | done _ hpassed hdone => exact ⟨fun _ => hpassed,fun _ => hdone⟩
  | failed _ _ _ hfailed hdone =>
    exact ⟨fun h => absurd (hdone.symm.trans h) (by simp),fun h => absurd h hfailed⟩

theorem session_follows_script_refused : ∃ g c, Reach (drdKernel 1) (drdBoot 1) (sessionTrace 1)
    (fun _ _ _ => True) g c ∧ g.answers = [.genericError] ∧
      c.state.hostCtrl.mDev.enumerated = false := by
  obtain ⟨g,c,hr,hloc,hanswers⟩ := exists_reach (drdKernel 1) (drdBoot 1) (sessionTrace 1)
    (fun _ _ _ => True) (fun g c => c.loc hostThread = .waiting .trbComplete ∧
      g.answers = [.genericError])
    (attachRun .ufpAttached ++ controlRun .genericError ++ [.eval hostThread]) (by decide +kernel)
  refine ⟨g,c,hr,hanswers,?_⟩
  have hiff := (session_follows_script 1 g c hr).2 hloc
  cases hdone : c.state.hostCtrl.mDev.enumerated with
  | false => rfl
  | true =>
    have hpassed := hiff.mp hdone
    rw [hanswers] at hpassed
    exact absurd (hpassed 0 _ rfl (by decide)) (by decide)

end Transcript
end Usb3Drd
