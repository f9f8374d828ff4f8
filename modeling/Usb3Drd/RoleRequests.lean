import Usb3Drd.RolePulse

/-! Software role requests between two wake-ups of the role manager. They are kept as two
flags, without their order, and a pending request for the device role always prevails. -/
namespace Usb3Drd
namespace RoleRequests

open Coop RoleManager RolePulse DrdController

variable {n : ℕ} {g : List Usb3Role} {c c' : DrdConf n} {l : PortLabel n}

/-- The role requests of an action, direct or by a write to the role register. -/
def requestsOf : PortAction → List Usb3Role
  | .requestRole r => if r = .none then [] else [r]
  | .device (.cfgAccess p) =>
    if 4 ≤ p.data.length ∧ p.command ≠ .read ∧ alignAddr p.address = regRoleCtrl then
      if bytesToWord p.data = 1 then [.host] else if bytesToWord p.data = 2 then [.device] else []
    else []
  | _ => []

/-- The requests made since the role manager last ran. -/
def requests : Watch (List Usb3Role) Drd WaitPoint Payload TlmResponse Loop PortAction Payload
    (Tid n) where
  init := []
  next g _ l _ :=
    match l with
    | .eval t => if t = roleThread then [] else g
    | .act a => g ++ requestsOf a
    | _ => g

structure Recorded (g : List Usb3Role) (s : Drd) : Prop where
  named : .none ∉ g
  host : .host ∈ g → s.roleMgr.mHostRequested = true
  device : .device ∈ g → s.roleMgr.mDeviceRequested = true

def flags (s : Drd) : Bool × Bool := (s.roleMgr.mHostRequested,s.roleMgr.mDeviceRequested)

theorem Recorded.same {s s' : Drd} (h : Recorded g s) (hs : flags s' = flags s) :
    Recorded g s' := by
  obtain ⟨hhost,hdevice⟩ := Prod.mk.inj hs
  exact ⟨h.named,fun hm => hhost.trans (h.host hm),fun hm => hdevice.trans (h.device hm)⟩

theorem Recorded.idle {s s' : Drd} (h : Recorded g s) (hs : flags s' = flags s) :
    Recorded (g ++ []) s' := by
  rw [List.append_nil]
  exact h.same hs

theorem Recorded.request {s : Drd} {r : Usb3Role} (h : Recorded g s) (hr : r ≠ .none) :
    Recorded (g ++ [r]) (requestRole r s) := by
  constructor
  · simpa [hr.symm] using h.named
  · intro hm
    rcases List.mem_append.mp hm with hm | hm
    · simp [requestRole,h.host hm]
    · simp [requestRole,(List.mem_singleton.mp hm).symm]
  · intro hm
    rcases List.mem_append.mp hm with hm | hm
    · simp [requestRole,h.device hm]
    · simp [requestRole,(List.mem_singleton.mp hm).symm]

theorem Recorded.write {s : Drd} {addr : BitVec 64} {val : BitVec 32} (h : Recorded g s) :
    Recorded (g ++ if addr = regRoleCtrl then
        if val = 1 then [.host] else if val = 2 then [.device] else [] else [])
      (writeReg s addr val) := by
  by_cases hrole : addr = regRoleCtrl
  · have hctrl : addr ≠ regCtrl := by
      rw [hrole]
      decide
    simp only [writeReg,if_neg hctrl,if_pos hrole]
    split
    · exact h.request (by decide)
    · split
      · exact h.request (by decide)
      · rwa [List.append_nil]
  · rw [if_neg hrole,List.append_nil]
    apply h.same
    simp only [writeReg,if_neg hrole]
    repeat' split
    all_goals rfl

theorem Recorded.act {a : PortAction} {s s' : Drd} (h : Recorded g s) (ha : a.apply s = some s') :
    Recorded (g ++ requestsOf a) s' := by
  cases a with
  | requestRole r =>
    cases ha
    by_cases hr : r = .none
    · rw [requestsOf,if_pos hr,List.append_nil]
      apply h.same
      rw [hr]
      rfl
    · rw [requestsOf,if_neg hr]
      exact h.request hr
  | device a =>
    cases a with
    | cfgAccess p =>
      cases ha
      simp only [requestsOf,cfgBTransport]
      by_cases hlen : p.data.length < 4
      · rw [if_neg fun hall => absurd hall.1 (by omega),if_pos hlen,List.append_nil]
        exact h
      · by_cases hread : p.command = .read
        · rw [if_neg fun hall => hall.2.1 hread,if_neg hlen,if_pos hread,List.append_nil]
          exact h
        · rw [if_neg hlen,if_neg hread]
          simpa only [Nat.le_of_not_lt hlen,hread,ne_eq,not_false_eq_true,true_and] using h.write
    | setCcState cc =>
      cases ha
      exact h.idle rfl
    | setVbus v =>
      cases ha
      exact h.idle rfl
    | bulkOut devAddr ep data =>
      obtain ⟨ring,-,rfl⟩ := Option.map_eq_some_iff.mp ha
      exact h.idle rfl
    | bulkIn devAddr ep len =>
      obtain ⟨ring,-,rfl⟩ := Option.map_eq_some_iff.mp ha
      exact h.idle rfl

def decides : Origin WaitPoint Payload TlmResponse → Drd → Loc WaitPoint Payload TlmResponse →
    Drd → Prop
  | .woke .roleInputs, s, _, s' => s'.roleMgr.mRole = s.roleMgr.withRequests (askedRole s)
  | _, s, _, s' => s'.roleMgr.mRole = s.roleMgr.mRole

def decideHead (l : Loop) (x : Trail Unit Drd WaitPoint Payload TlmResponse) : Prop :=
  l = .roleDetection ∧ decides x.origin x.start (.waiting .roleInputs) x.state

theorem decide_loops : (Spec.evals decides decideHead).Loops loopCode := by
  rintro l x ⟨rfl,hguar⟩
  simp only [loopCode,Spec.Safe,roleDetectionLoop,Proc.wp_bind,Proc.wp_sleep,Spec.setting_onWait]
  refine ⟨⟨hguar,trivial⟩,fun g s _ => ?_⟩
  apply detectRole_wp _ _ rfl
  · intro hsame
    exact ⟨rfl,hsame.symm⟩
  · intro _
    exact ⟨⟨rfl,trivial⟩,fun _ _ _ => ⟨rfl,rfl⟩⟩

theorem decide_meets : Meets (portKernel n) (drdBoot n) noWatch (fun _ _ _ => True) roleThread
    (Spec.evals decides decideHead) := by
  refine Meets.plain decide_loops ?_ bootWith_wellTimed ?_ ?_ ?_
  · intro e p hp
    cases hp
  · exact ⟨trivial,fun _ _ _ _ => ⟨rfl,rfl⟩⟩
  · intros
    trivial
  · intros
    rfl

theorem flags_peer {t : Tid n} (ht : t ≠ roleThread)
    (htaken : Taken (portKernel n) (drdBoot n) requests (fun _ _ _ => True) g c (.eval t) c') :
    flags c'.state = flags c.state := by
  have hflags := congrArg flags (taken_unwritten htaken)
  match t with
  | .inl p =>
    cases p with
    | roleDetectionProcess => exact absurd rfl ht
    | _ => exact hflags
  | .inr _ => exact hflags

theorem reach_recorded (hr : Reach (portKernel n) (drdBoot n) requests (fun _ _ _ => True) g c) :
    Recorded g c.state := by
  have hnil : ∀ s, Recorded [] s := fun s => ⟨by simp,by simp,by simp⟩
  induction hr with
  | boot => exact hnil _
  | @step g c l c' hr hok hs ih =>
    cases l with
    | eval t =>
      show Recorded (if t = roleThread then [] else g) c'.state
      by_cases ht : t = roleThread
      · rw [if_pos ht]
        exact hnil _
      · rw [if_neg ht]
        exact ih.same (flags_peer ht ⟨hr,hok,hs⟩)
    | act a =>
      obtain ⟨s,ha,rfl⟩ := step_act hs
      exact ih.act ha
    | _ => exact ih.same (step_keeps hs (by simp) (by simp) fun _ => rfl)

/-- What is about to be published is always the role taken on. -/
theorem nxt_eq {p : PulseLog} {now : ℕ} {s : Drd}
    {th : Thread Drd WaitPoint Payload TlmResponse Loop} (h : PulseAt p now s th) :
    s.sigRole.nxt = s.roleMgr.mRole := by
  have hpublished : Published s → s.sigRole.nxt = s.roleMgr.mRole := fun h => by rw [h]; rfl
  cases h with
  | start h => exact hpublished h
  | waits h => exact hpublished h
  | woken h => exact hpublished h
  | rises _ hnext => exact hnext
  | high h => exact hpublished h
  | ends h => exact hpublished h

/-- The manager has taken the role on, and the next update phase shows it. -/
def InForce (r : Usb3Role) (s : Drd) : Prop := s.roleMgr.mRole = r ∧ s.sigRole.nxt = r

/-- After its wait for inputs, the last request is for the device role or none for that role
is pending; after a pulse, it is for the role that was announced. -/
def Prevails (w : WaitPoint) (r : Usb3Role) (s : Drd) : Prop :=
  if w = .roleInputs then r = .device ∨ s.roleMgr.mDeviceRequested = false
  else r = s.roleMgr.mRole

theorem withRequests_last {s : Drd} {r desired : Usb3Role} (h : Recorded g s)
    (hlast : g.getLast? = some r) : s.roleMgr.withRequests desired = r ↔
      r = .device ∨ s.roleMgr.mDeviceRequested = false := by
  have hmem : r ∈ g := List.mem_of_getLast? hlast
  cases r with
  | none => exact absurd hmem h.named
  | device => exact iff_of_true (if_pos (h.device hmem)) (.inl rfl)
  | host =>
    have hhost := h.host hmem
    cases hdevice : s.roleMgr.mDeviceRequested with
    | true => simp [RoleManager.withRequests,hdevice]
    | false => simp [RoleManager.withRequests,hdevice,hhost]

/-- Whatever the inputs are and whenever the requests come, after the next wake-up the role
of the last one is in force exactly if it prevails. -/
theorem last_iff_prevails (n : ℕ) (g : List Usb3Role) (c c' : DrdConf n) (w : WaitPoint)
    (r : Usb3Role)
    (ht : Taken (portKernel n) (drdBoot n) requests (fun _ _ _ => True) g c (.eval roleThread) c')
    (hw : c.loc roleThread = .ready (.woke w)) (hlast : g.getLast? = some r) :
    InForce r c'.state ↔ Prevails w r c.state := by
  have hnxt : c'.state.sigRole.nxt = c'.state.roleMgr.mRole := by
    obtain ⟨p,hp⟩ := (ht.reach.step trivial ht.step).watched pulseLog
    exact nxt_eq (reach_inv hp)
  have hforce : InForce r c'.state ↔ c'.state.roleMgr.mRole = r := by
    rw [InForce,hnxt,and_self_iff]
  obtain ⟨o,hloc,-,hguar⟩ := decide_meets.guar ht.forget
  rw [hw] at hloc
  cases hloc
  rw [hforce]
  by_cases hinputs : w = .roleInputs
  · subst hinputs
    have hrole : c'.state.roleMgr.mRole = c.state.roleMgr.withRequests (askedRole c.state) := hguar
    rw [hrole,withRequests_last (reach_recorded ht.reach) hlast,Prevails,if_pos rfl]
  · have hrole : c'.state.roleMgr.mRole = c.state.roleMgr.mRole := by
      cases w with
      | roleInputs => exact absurd rfl hinputs
      | _ => exact hguar
    rw [hrole,Prevails,if_neg hinputs]
    exact eq_comm

def requestRun (first last : Usb3Role) : List (PortLabel 0) :=
  startRun ++ [.act (.requestRole first),.act (.requestRole last),.delta]

theorem last_device : ∃ g c c', Taken (portKernel 0) (drdBoot 0) requests (fun _ _ _ => True)
    g c (.eval roleThread) c' ∧ g = [.host,.device] ∧ InForce .device c'.state := by
  obtain ⟨g,c,c',ht,hg,hw⟩ := exists_taken (portKernel 0) (drdBoot 0) requests
    (fun _ _ _ => True) (.eval roleThread)
    (fun g c _ => g = [.host,.device] ∧ c.loc roleThread = .ready (.woke .roleInputs))
    (requestRun .host .device) (by decide +kernel)
  exact ⟨g,c,c',ht,hg,(last_iff_prevails 0 g c c' .roleInputs .device ht hw
    (by rw [hg]; rfl)).mpr (.inl rfl)⟩

/-- A request for the host role after one for the device role is not heard. -/
theorem not_last_host : ¬∀ g c c', Taken (portKernel 0) (drdBoot 0) requests
    (fun _ _ _ => True) g c (.eval roleThread) c' → ∀ w, c.loc roleThread = .ready (.woke w) →
      ∀ r, g.getLast? = some r → InForce r c'.state := by
  intro h
  obtain ⟨g,c,c',ht,hg,hw,hrole⟩ := exists_taken (portKernel 0) (drdBoot 0) requests
    (fun _ _ _ => True) (.eval roleThread)
    (fun g c c' => g = [.device,.host] ∧ c.loc roleThread = .ready (.woke .roleInputs) ∧
      c'.state.roleMgr.mRole = .device)
    (requestRun .device .host) (by decide +kernel)
  have hforce := h g c c' ht _ hw .host (by rw [hg]; rfl)
  rw [hforce.1] at hrole
  cases hrole

end RoleRequests
end Usb3Drd
