import Mathlib.Data.List.Basic

/-! A latch: some events set it and others clear it. It holds as long as it was set since
it was cleared last. -/
namespace Coop

variable {E : Type} {sets clears : E → Prop} {es : List E} {e : E}

/-- Some event sets the latch, and no later one clears it. -/
def SetSince (sets clears : E → Prop) (es : List E) : Prop :=
  ∃ before e after, es = before ++ e::after ∧ sets e ∧ ∀ e' ∈ after, ¬clears e'

theorem not_setSince_nil : ¬SetSince sets clears [] := by
  rintro ⟨before,e,after,h,-⟩
  simp at h

theorem setSince_snoc : SetSince sets clears (es ++ [e]) ↔
    sets e ∨ (SetSince sets clears es ∧ ¬clears e) := by
  constructor
  · rintro ⟨before,e',after,h,hsets,hafter⟩
    rcases List.eq_nil_or_concat after with rfl | ⟨rest,last,rfl⟩
    · obtain ⟨-,hlast⟩ := List.append_inj' h rfl
      obtain rfl : e = e' := by simpa using hlast
      exact .inl hsets
    · rw [List.concat_eq_append,← List.cons_append,← List.append_assoc] at h
      obtain ⟨hes,hlast⟩ := List.append_inj' h rfl
      obtain rfl : e = last := by simpa using hlast
      refine .inr ⟨⟨before,e',rest,hes,hsets,fun e'' he => hafter e'' ?_⟩,hafter e ?_⟩
      · simp [he]
      · simp
  · rintro (hsets | ⟨⟨before,e',after,rfl,hsets,hafter⟩,hkeep⟩)
    · exact ⟨es,e,[],rfl,hsets,by simp⟩
    · refine ⟨before,e',after ++ [e],by simp,hsets,fun e'' he => ?_⟩
      obtain he | he := List.mem_append.mp he
      · exact hafter e'' he
      · rw [List.mem_singleton.mp he]
        exact hkeep

end Coop
