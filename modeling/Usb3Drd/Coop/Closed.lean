import Usb3Drd.Coop.Timeouts

/-! A system closed by a partner. The partner serves each call out of the system before anything
else happens, one call at a time, and may call in through a door while it does: the nested calls
of one thread of control. -/
namespace Coop

variable {P S W Q R L A E T : Type}

/-- The partner's code for each call. It never waits, and looks at nothing that its own calls
return. -/
structure Partner (P Q R E T : Type) where
  init : P
  serve : Q → Proc P Empty E Unit R
  door : T

/-- How far the partner has got with a call. -/
inductive Service (P R E T : Type)
  | free
  | sends (caller : T) (e : E) (next : Unit → Proc P Empty E Unit R)
  | inside (caller : T) (e : E) (next : Unit → Proc P Empty E Unit R)
  | answers (caller : T) (r : R)

structure Bench (P R E T : Type) where
  partner : P
  service : Service P R E T

namespace Bench

def proceed (caller : T) : P × Proc.Stop P Empty E Unit R → Bench P R E T
  | (p,.ret r) => ⟨p,.answers caller r⟩
  | (p,.call e next) => ⟨p,.sends caller e next⟩

end Bench

namespace Partner
variable (pt : Partner P Q R E T)

def noteEval (g : Bench P R E T) (l : Loc W Q R) (t : T) : Bench P R E T :=
  match g.service, l with
  | .free, .calling q => .proceed t ((pt.serve q).run g.partner)
  | .inside caller _ next, .idle => .proceed caller ((next ()).run g.partner)
  | _, _ => g

def watch : Watch (Bench P R E T) S W Q R L A E T where
  init := ⟨pt.init,.free⟩
  next g _ l c' :=
    match l with
    | .eval t => pt.noteEval g (c'.loc t) t
    | .enter _ _ =>
      match g.service with
      | .sends caller e next => { g with service := .inside caller e next }
      | _ => g
    | .reply _ _ => { g with service := .free }
    | _ => g

/-- While a call is served nothing but the service goes on, and only the partner calls in. -/
def Allows (g : Bench P R E T) (l : Label R A E T) : Prop :=
  match g.service, l with
  | .free, .enter _ _ => False
  | .free, .reply _ _ => False
  | .free, _ => True
  | .sends _ e _, .enter t e' => t = pt.door ∧ e' = e
  | .inside _ _ _, .eval t => t = pt.door
  | .answers caller r, .reply t r' => t = caller ∧ r' = r
  | _, _ => False

instance [DecidableEq T] [DecidableEq E] [DecidableEq R] (g : Bench P R E T)
    (l : Label R A E T) : Decidable (pt.Allows g l) := by
  unfold Allows
  split <;> infer_instance

theorem Allows.eq_enter {g : Bench P R E T} {l : Label R A E T} {caller : T} {e : E}
    {next : Unit → Proc P Empty E Unit R} (h : pt.Allows g l) (hg : g.service = .sends caller e next) :
    l = .enter pt.door e := by
  cases l with
  | enter t e' =>
    simp only [Allows,hg] at h
    rw [h.1,h.2]
  | _ => simp only [Allows,hg] at h

theorem Allows.eq_eval {g : Bench P R E T} {l : Label R A E T} {caller : T} {e : E}
    {next : Unit → Proc P Empty E Unit R} (h : pt.Allows g l)
    (hg : g.service = .inside caller e next) : l = .eval pt.door := by
  cases l with
  | eval t =>
    simp only [Allows,hg] at h
    rw [h]
  | _ => simp only [Allows,hg] at h

theorem Allows.eq_reply {g : Bench P R E T} {l : Label R A E T} {caller : T} {r : R}
    (h : pt.Allows g l) (hg : g.service = .answers caller r) : l = .reply caller r := by
  cases l with
  | reply t r' =>
    simp only [Allows,hg] at h
    rw [h.1,h.2]
  | _ => simp only [Allows,hg] at h

/-- Exactly the call that is served is open, and the door only while the partner calls in. -/
def Seated (M : Kernel S W Q R L A E T) (g : Bench P R E T) (c : Conf S W Q R L T) : Prop :=
  match g.service with
  | .free => (∀ t q, c.loc t ≠ .calling q) ∧ c.thread pt.door = .idle
  | .sends caller _ _ => (∃ q, c.loc caller = .calling q) ∧
      (∀ t q, t ≠ caller → c.loc t ≠ .calling q) ∧ c.thread pt.door = .idle
  | .inside caller e _ => (∃ q, c.loc caller = .calling q) ∧
      (∀ t q, t ≠ caller → c.loc t ≠ .calling q) ∧
      ∃ p, M.entry pt.door e = some p ∧ c.thread pt.door = .ready .start p
  | .answers caller _ => (∃ q, c.loc caller = .calling q) ∧
      (∀ t q, t ≠ caller → c.loc t ≠ .calling q) ∧ c.thread pt.door = .idle

/-- What one step of a closed system is, and what it makes of the service. -/
inductive Move (M : Kernel S W Q R L A E T) (g : Bench P R E T) (c c' : Conf S W Q R L T) :
    Label R A E T → Bench P R E T → Prop
  | run (t : T) (hfree : g.service = .free) (hdoor : t ≠ pt.door)
      (hnone : ∀ q, c'.loc t ≠ .calling q) : Move M g c c' (.eval t) g
  | call (t : T) (q : Q) (hfree : g.service = .free) (hdoor : t ≠ pt.door)
      (hq : c'.loc t = .calling q) :
      Move M g c c' (.eval t) (.proceed t ((pt.serve q).run g.partner))
  | enter (caller : T) (e : E) (next : Unit → Proc P Empty E Unit R)
      (hservice : g.service = .sends caller e next) :
      Move M g c c' (.enter pt.door e) { g with service := .inside caller e next }
  | visit (caller : T) (e : E) (next : Unit → Proc P Empty E Unit R) (p : Proc S W Q R L)
      (hservice : g.service = .inside caller e next) (hp : M.entry pt.door e = some p)
      (hth : c.thread pt.door = .ready .start p) :
      Move M g c c' (.eval pt.door) (pt.noteEval g (c'.loc pt.door) pt.door)
  | answer (caller : T) (r : R) (hservice : g.service = .answers caller r) :
      Move M g c c' (.reply caller r) { g with service := .free }
  | other (l : Label R A E T) (hfree : g.service = .free) (heval : ∀ t, l ≠ .eval t)
      (henter : ∀ t e, l ≠ .enter t e) (hreply : ∀ t r, l ≠ .reply t r) : Move M g c c' l g

end Partner

section Steps
variable [DecidableEq T] [Fintype T] {M : Kernel S W Q R L A E T} {c c' : Conf S W Q R L T}
  {l : Label R A E T} {t : T}

theorem calling_of_step {q : Q} (hs : M.step c l = some c') (hl : l ≠ .eval t)
    (hq : c'.loc t = .calling q) : c.loc t = .calling q := by
  have hpasses := step_passes hs hl
  rw [Conf.loc] at hq ⊢
  generalize c.thread t = th at hpasses ⊢
  generalize c'.thread t = th' at hpasses hq
  cases hpasses with
  | stay => exact hq
  | _ => cases hq

theorem calling_stays {q : Q} (hs : M.step c l = some c') (hl : l ≠ .eval t)
    (hreply : ∀ r, l ≠ .reply t r) (hq : c.loc t = .calling q) : c'.loc t = .calling q := by
  have hpasses := step_passes hs hl
  rw [Conf.loc] at hq ⊢
  generalize c.thread t = th at hpasses hq
  generalize c'.thread t = th' at hpasses ⊢
  cases hpasses with
  | stay => exact hq
  | reply _ _ r hl => exact absurd hl (hreply r)
  | _ => cases hq

theorem idle_stays (hs : M.step c l = some c') (hl : l ≠ .eval t) (henter : ∀ e, l ≠ .enter t e)
    (hidle : c.thread t = .idle) : c'.thread t = .idle := by
  have hpasses := step_passes hs hl
  rw [hidle] at hpasses
  generalize c'.thread t = th' at hpasses
  cases hpasses with
  | stay => rfl
  | enter e p hl => exact absurd hl (henter e)

end Steps

namespace Partner
variable [DecidableEq T] [Fintype T] {M : Kernel S W Q R L A E T} {pt : Partner P Q R E T}
  {g : Bench P R E T} {c c' : Conf S W Q R L T} {l : Label R A E T}

omit [DecidableEq T] [Fintype T] in
theorem noteEval_inside {caller t : T} {e : E} {next : Unit → Proc P Empty E Unit R}
    {th : Thread S W Q R L} (hservice : g.service = .inside caller e next) (hth : th = .idle) :
    pt.noteEval g th.loc t = .proceed caller ((next ()).run g.partner) := by
  obtain ⟨p,service⟩ := g
  obtain rfl : service = .inside caller e next := hservice
  rw [hth]
  rfl

omit [DecidableEq T] [Fintype T] in
theorem Allows.free (hok : pt.Allows g l) (heval : ∀ t, l ≠ .eval t) (henter : ∀ t e, l ≠ .enter t e)
    (hreply : ∀ t r, l ≠ .reply t r) : g.service = .free := by
  obtain ⟨p,service⟩ := g
  cases service with
  | free => rfl
  | _ =>
    cases l with
    | eval t => exact absurd rfl (heval t)
    | enter t e => exact absurd rfl (henter t e)
    | reply t r => exact absurd rfl (hreply t r)
    | _ => exact hok.elim

theorem Allows.move (hok : pt.Allows g l) (hseat : pt.Seated M g c) (hs : M.step c l = some c') :
    pt.Move M g c c' l (pt.watch.next g c l c') := by
  obtain ⟨p,service⟩ := g
  cases service with
  | free =>
    cases l with
    | eval t =>
      have hdoor : t ≠ pt.door := by
        rintro rfl
        obtain ⟨o,p,s,stop,hth,-,-⟩ := step_eval hs
        rw [hseat.2] at hth
        cases hth
      cases hloc : c'.loc t with
      | calling q =>
        have hnext : (pt.watch : Watch _ S W Q R L A E T).next ⟨p,.free⟩ c (.eval t) c' =
            .proceed t ((pt.serve q).run p) := by simp only [watch,noteEval,hloc]
        rw [hnext]
        exact .call t q rfl hdoor hloc
      | _ =>
        have hnext : (pt.watch : Watch _ S W Q R L A E T).next ⟨p,.free⟩ c (.eval t) c' =
            ⟨p,.free⟩ := by simp only [watch,noteEval,hloc]
        rw [hnext]
        exact .run t rfl hdoor (by rw [hloc]; simp)
    | enter t e => exact hok.elim
    | reply t r => exact hok.elim
    | _ => exact .other _ rfl (by simp) (by simp) (by simp)
  | sends caller e next =>
    cases l with
    | enter t e' =>
      obtain ⟨rfl,rfl⟩ := hok
      exact .enter caller e' next rfl
    | _ => exact hok.elim
  | inside caller e next =>
    cases l with
    | eval t =>
      obtain rfl : t = pt.door := hok
      obtain ⟨-,-,p,hp,hth⟩ := hseat
      exact .visit caller e next p rfl hp hth
    | _ => exact hok.elim
  | answers caller r =>
    cases l with
    | reply t r' =>
      obtain ⟨rfl,rfl⟩ := hok
      exact .answer _ _ rfl
    | _ => exact hok.elim

omit [DecidableEq T] [Fintype T] in
theorem seated_proceed {caller : T} {x : P × Proc.Stop P Empty E Unit R}
    (hcaller : ∃ q, c.loc caller = .calling q) (hrest : ∀ t q, t ≠ caller → c.loc t ≠ .calling q)
    (hdoor : c.thread pt.door = .idle) : pt.Seated M (.proceed caller x) c := by
  obtain ⟨p,stop⟩ := x
  cases stop with
  | ret r => exact ⟨hcaller,hrest,hdoor⟩
  | wait w next => cases w
  | call e next => exact ⟨hcaller,hrest,hdoor⟩

/-- If every visit ends within its evaluation, the service always knows which call is open. -/
theorem Seated.step {g' : Bench P R E T} (hseat : pt.Seated M g c) (hmove : pt.Move M g c c' l g')
    (hs : M.step c l = some c') (hvisit : l = .eval pt.door → c'.thread pt.door = .idle) :
    pt.Seated M g' c' := by
  obtain ⟨partner,service⟩ := g
  cases hmove with
  | run t hfree hdoor hnone =>
    obtain rfl : service = .free := hfree
    refine ⟨fun u q hq => ?_,idle_stays hs (by simp [hdoor]) (by simp) hseat.2⟩
    by_cases hut : u = t
    · exact hnone q (hut ▸ hq)
    · exact hseat.1 u q (calling_of_step hs (by simp [Ne.symm hut]) hq)
  | call t q hfree hdoor hq =>
    obtain rfl : service = .free := hfree
    refine seated_proceed ⟨q,hq⟩ (fun u q' hu hq' => ?_)
      (idle_stays hs (by simp [hdoor]) (by simp) hseat.2)
    exact hseat.1 u q' (calling_of_step hs (by simp [Ne.symm hu]) hq')
  | enter caller e next hservice =>
    obtain rfl : service = .sends caller e next := hservice
    obtain ⟨⟨q,hq⟩,hrest,hidle⟩ := hseat
    obtain ⟨p,-,hp,hc'⟩ := step_enter hs
    refine ⟨⟨q,calling_stays hs (by simp) (by simp) hq⟩,fun u q' hu hq' => ?_,p,hp,?_⟩
    · exact hrest u q' hu (calling_of_step hs (by simp) hq')
    · rw [hc']
      exact Function.update_self ..
  | visit caller e next p hservice hp hth =>
    obtain rfl : service = .inside caller e next := hservice
    obtain ⟨⟨q,hq⟩,hrest,-⟩ := hseat
    have hidle := hvisit rfl
    have hne : caller ≠ pt.door := by
      rintro rfl
      rw [Conf.loc,hth] at hq
      cases hq
    rw [Conf.loc,noteEval_inside rfl hidle]
    refine seated_proceed ⟨q,calling_stays hs (by simp [hne.symm]) (by simp) hq⟩
      (fun u q' hu hq' => ?_) hidle
    by_cases hdoor : u = pt.door
    · subst hdoor
      rw [Conf.loc,hidle] at hq'
      cases hq'
    · exact hrest u q' hu (calling_of_step hs (by simp [Ne.symm hdoor]) hq')
  | answer caller r hservice =>
    obtain rfl : service = .answers caller r := hservice
    obtain ⟨⟨q,hq⟩,hrest,hidle⟩ := hseat
    refine ⟨fun u q' hq' => ?_,idle_stays hs (by simp) (by simp) hidle⟩
    by_cases hu : u = caller
    · subst hu
      obtain ⟨q'',next,-,rfl⟩ := step_reply hs
      simp only [Conf.loc,Function.update_self,Thread.loc] at hq'
      cases hq'
    · exact hrest u q' hu (calling_of_step hs (by simp) hq')
  | other l hfree heval henter hreply =>
    obtain rfl : service = .free := hfree
    exact ⟨fun u q hq => hseat.1 u q (calling_of_step hs (heval u) hq),
      idle_stays hs (heval _) (henter _) hseat.2⟩

end Partner
end Coop
