import Usb3Drd.Coop.Spec
import Usb3Drd.Coop.Timeouts

/-! What still happens once a condition has lapsed. A rank that each counted evaluation lowers
while the condition fails, and nothing else raises then, bounds their number. -/
namespace Coop

variable {S W Q R L A E T γ : Type} [DecidableEq T] [Fintype T] {M : Kernel S W Q R L A E T}
  {boot : Conf S W Q R L T}

def Counted (counts : T → Loc W Q R → Prop) (c' : Conf S W Q R L T) : Label R A E T → Prop
  | .eval t => counts t (c'.loc t)
  | _ => False

instance (counts : T → Loc W Q R → Prop) [∀ t l, Decidable (counts t l)] (c' : Conf S W Q R L T) :
    ∀ l : Label R A E T, Decidable (Counted counts c' l)
  | .eval t => inferInstanceAs (Decidable (counts t (c'.loc t)))
  | .act _ | .enter _ _ | .reply _ _ | .delta | .advance _ => isFalse id

/-- The evaluations that count since the condition held last. -/
def lapseLog (on : S → Bool) (counts : T → Loc W Q R → Prop) [∀ t l, Decidable (counts t l)] :
    Watch ℕ S W Q R L A E T where
  init := 0
  next g c l c' :=
    if on c'.state = true then 0
    else if on c.state = false ∧ Counted counts c' l then g+1 else g

variable {on : S → Bool} {counts : T → Loc W Q R → Prop} [∀ t l, Decidable (counts t l)]
  {w : Watch γ S W Q R L A E T}

theorem lapse_le (ok : γ → Conf S W Q R L T → Label R A E T → Prop) {x : ℕ × γ} {c : Conf S W Q R L T}
    (hr : Reach M boot ((lapseLog on counts).pair w) (fun x => ok x.2) x c)
    (rank : γ → Conf S W Q R L T → ℕ) {k : ℕ} (hk : ∀ g c, rank g c ≤ k)
    (hstep : ∀ g c l c', Taken M boot w ok g c l c' → on c.state = false → on c'.state = false →
      (if Counted counts c' l then 1 else 0) + rank (w.next g c l c') c' ≤ rank g c) :
    (on c.state = true → x.1 = 0) ∧ x.1 + rank x.2 c ≤ k := by
  induction hr with
  | boot => exact ⟨fun _ => rfl,(Nat.zero_add _).le.trans (hk _ _)⟩
  | @step x c l c' hr hok hs ih =>
    obtain ⟨n,g⟩ := x
    have ht : Taken M boot w ok g c l c' :=
      ⟨hr.project Prod.snd rfl (fun _ _ _ _ => rfl) fun _ _ _ h => h,hok,hs⟩
    show (_ → (lapseLog on counts).next n c l c' = 0) ∧
      (lapseLog on counts).next n c l c' + rank (w.next g c l c') c' ≤ k
    simp only [lapseLog]
    by_cases hon' : on c'.state = true
    · rw [if_pos hon']
      exact ⟨fun _ => rfl,(Nat.zero_add _).le.trans (hk _ _)⟩
    rw [if_neg hon']
    refine ⟨fun h => absurd h hon',?_⟩
    by_cases hon : on c.state = true
    · obtain rfl : n = 0 := ih.1 hon
      rw [if_neg (by simp [hon]),Nat.zero_add]
      exact hk _ _
    · have hoff : on c.state = false := by simpa using hon
      have hrank := hstep g c l c' ht hoff (by simpa using hon')
      have hle : n + rank g c ≤ k := ih.2
      simp only [hoff,true_and]
      split at hrank
      · rename_i hcount
        rw [if_pos hcount]
        omega
      · rename_i hcount
        rw [if_neg hcount]
        omega

theorem step_woken {t : T} {v : W} {c c' : Conf S W Q R L T} {l : Label R A E T}
    (timed : c.WellTimed M) (hdelay : M.delay v = none) (hs : M.step c l = some c')
    (hloc : c'.loc t = .ready (.woke v)) :
    (c.loc t = .ready (.woke v) ∧ l ≠ .delta ∧ ∀ d, l ≠ .advance d) ∨
      (l = .delta ∧ M.wakes v c.state = true) := by
  have hl : l ≠ .eval t := by
    rintro rfl
    exact eval_not_ready hs _ hloc
  have hpasses := step_passes hs hl
  obtain ⟨p,hready⟩ := Conf.exists_ready hloc
  cases hth : c.thread t with
  | ready o q =>
    obtain ⟨hstay,hdelta,hadvance⟩ := step_ready hs hth hl
    exact .inl ⟨by rw [Conf.loc,← hstay,hready]; rfl,hdelta,hadvance⟩
  | waiting w' due next =>
    rcases step_waiting hs hth with hstay | ⟨hout,⟨hl,hfires⟩ | ⟨-,hdue⟩⟩
    · rw [hstay,hth] at hready
      cases hready
    · rw [hout] at hready
      cases hready
      exact .inr ⟨hl,hfires⟩
    · rw [hout] at hready
      cases hready
      rw [timed t _ _ _ hth hdelay] at hdue
      cases hdue
  | idle =>
    rw [hth,hready] at hpasses
    cases hpasses
  | calling q next =>
    rw [hth,hready] at hpasses
    cases hpasses

/-- What an event brings still holds when the thread runs that only this event wakes, if the
evaluations and actions of others do not undo it. -/
theorem Reach.woken {ok : γ → Conf S W Q R L T → Label R A E T → Prop} {P : S → Prop} {t : T} {v : W} {g : γ} {c : Conf S W Q R L T}
    (hr : Reach M boot w ok g c) (hdelay : M.delay v = none)
    (hwake : ∀ s, M.wakes v s = true → P (M.update s)) (timed : boot.WellTimed M)
    (hboot : boot.loc t ≠ .ready (.woke v))
    (heval : ∀ g c u c', Taken M boot w ok g c (.eval u) c' → P c.state → P c'.state)
    (hact : ∀ a s s', M.act a s = some s' → P s → P s')
    (hloc : c.loc t = .ready (.woke v)) : P c.state := by
  induction hr with
  | boot => exact absurd hloc hboot
  | @step g c l c' hr hok hs ih =>
    rcases step_woken (hr.wellTimed timed) hdelay hs hloc with ⟨hwoken,hdelta,hadvance⟩ | ⟨rfl,hfires⟩
    · have hP : P c.state := ih hwoken
      cases l with
      | eval u => exact heval g c u c' ⟨hr,hok,hs⟩ hP
      | act a => obtain ⟨s,ha,rfl⟩ := step_act hs; exact hact a _ s ha hP
      | enter u e => obtain ⟨_,-,-,rfl⟩ := step_enter hs; exact hP
      | reply u r => obtain ⟨_,_,-,rfl⟩ := step_reply hs; exact hP
      | delta => exact absurd rfl hdelta
      | advance d => exact absurd rfl (hadvance d)
    · obtain ⟨-,rfl⟩ := step_delta hs
      exact hwake _ hfires

end Coop
