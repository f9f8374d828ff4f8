import Mathlib.Data.List.Basic

/-! What an observer can tell of events that do not concern him: nothing, if they leave what he
sees alone, and the others act on it by itself. -/
namespace Coop

variable {E S V : Type}

def play (step : E → S → Option S) : List E → S → Option S
  | [], s => some s
  | e::es, s => (step e s).bind (play step es)

/-- The conditions on single events. -/
structure Unwinds (step : E → S → Option S) (view : S → V) (concerns : E → Bool) : Prop where
  hidden : ∀ {e s s'}, concerns e = false → step e s = some s' → view s' = view s
  seen : ∀ {e s s' t t'}, concerns e = true → view s = view t →
    step e s = some s' → step e t = some t' → view s' = view t'

variable {step : E → S → Option S} {view : S → V} {concerns : E → Bool}

theorem play_isSome (h : ∀ e s, (step e s).isSome) (es : List E) (s : S) :
    (play step es s).isSome := by
  induction es generalizing s with
  | nil => rfl
  | cons e es ih =>
    obtain ⟨s₁,hs₁⟩ := Option.isSome_iff_exists.mp (h e s)
    rw [play,hs₁]
    exact ih s₁

/-- Without the events that do not concern him the observer sees the same. -/
theorem Unwinds.purge (h : Unwinds step view concerns) {es : List E} {s s' t t' : S}
    (hview : view s = view t) (hs : play step es s = some s')
    (ht : play step (es.filter concerns) t = some t') : view s' = view t' := by
  induction es generalizing s t with
  | nil =>
    cases hs
    cases ht
    exact hview
  | cons e es ih =>
    obtain ⟨s₁,hs₁,hrest⟩ := Option.bind_eq_some_iff.mp hs
    cases he : concerns e with
    | true =>
      rw [List.filter_cons_of_pos he] at ht
      obtain ⟨t₁,ht₁,hrest'⟩ := Option.bind_eq_some_iff.mp ht
      exact ih (h.seen he hview hs₁ ht₁) hrest hrest'
    | false =>
      rw [List.filter_cons_of_neg (by simp [he])] at ht
      exact ih ((h.hidden he hs₁).trans hview) hrest ht

end Coop
