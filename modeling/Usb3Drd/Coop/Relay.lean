import Mathlib.Data.List.NodupEquivFin
import Mathlib.Data.List.Perm.Subperm

/-! Two one-slot buffers in a row. Items are accepted into the first, moved to the second,
and taken from there; a write to a full buffer loses what it held. -/
namespace Coop

variable {α : Type}

/-- What was accepted and what was sent, what the buffers hold, and how many items were lost. -/
structure Relay (α : Type) where
  accepted : List α
  sent : List α
  first : Option α
  second : Option α
  lost : ℕ

namespace Relay

def accept (a : α) (r : Relay α) : Relay α :=
  { r with accepted := r.accepted ++ [a], first := some a, lost := r.lost + r.first.toList.length }

def move (r : Relay α) : Relay α :=
  match r.first with
  | none => r
  | some a => { r with first := none, second := some a, lost := r.lost + r.second.toList.length }

def take (r : Relay α) : Relay α := { r with sent := r.sent ++ r.second.toList, second := none }

def held (r : Relay α) : List α := r.second.toList ++ r.first.toList

/-- What came out and what is on the way was accepted in this order. -/
def Ordered (r : Relay α) : Prop := (r.sent ++ r.held).Sublist r.accepted

def Counted (r : Relay α) : Prop := r.accepted.length = r.sent.length + r.held.length + r.lost

inductive Step : Relay α → Relay α → Prop
  | stay (r) : Step r r
  | accept (r a) : Step r (r.accept a)
  | move (r) : Step r r.move
  | take (r) : Step r r.take

variable {r r' : Relay α}

theorem Ordered.step (h : r.Ordered) (hs : Step r r') : r'.Ordered := by
  cases hs with
  | stay => exact h
  | accept a =>
    have hkept : (r.sent ++ r.second.toList).Sublist r.accepted := by
      rw [Ordered,held,← List.append_assoc] at h
      exact (List.sublist_append_left _ _).trans h
    have hnew := hkept.append (List.Sublist.refl [a])
    simpa [Ordered,held,accept] using hnew
  | move =>
    unfold move
    cases hf : r.first with
    | none => exact h
    | some a =>
      have hkept : (r.sent ++ [a]).Sublist (r.sent ++ (r.second.toList ++ [a])) :=
        (List.Sublist.refl _).append (List.sublist_append_right _ _)
      rw [Ordered,held,hf] at h
      simpa [Ordered,held] using hkept.trans h
  | take => simpa [Ordered,held,take,List.append_assoc] using h

theorem Counted.step (h : r.Counted) (hs : Step r r') : r'.Counted := by
  cases hs with
  | stay => exact h
  | accept a =>
    simp only [Counted,held,accept,List.length_append,List.length_singleton,
      Option.toList_some] at h ⊢
    omega
  | move =>
    unfold move
    cases hf : r.first with
    | none => exact h
    | some a =>
      simp only [Counted,held,hf,List.length_append,Option.toList_some,Option.toList_none,
        List.length_singleton,List.length_nil] at h ⊢
      omega
  | take =>
    simp only [Counted,held,take,List.length_append,Option.toList_none,List.length_nil] at h ⊢
    omega

theorem subperm_iff (ho : r.Ordered) (hc : r.Counted) :
    r.accepted.Subperm (r.sent ++ r.held) ↔ r.lost = 0 := by
  have hlength : (r.sent ++ r.held).length = r.sent.length + r.held.length := List.length_append
  rw [Counted] at hc
  constructor
  · intro h
    have hle := h.length_le
    omega
  · intro h
    have heq : r.sent ++ r.held = r.accepted := ho.eq_of_length (by omega)
    rw [heq]

/-- The arrival numbers of what was sent increase strictly. -/
theorem Ordered.arrivals (h : r.Ordered) : ∃ f : Fin r.sent.length → Fin r.accepted.length,
    StrictMono f ∧ ∀ i, r.sent.get i = r.accepted.get (f i) := by
  have hsub : r.sent.Sublist r.accepted := (List.sublist_append_left _ _).trans h
  obtain ⟨f,hf⟩ := List.sublist_iff_exists_fin_orderEmbedding_get_eq.mp hsub
  exact ⟨f,f.strictMono,hf⟩

end Relay
end Coop
