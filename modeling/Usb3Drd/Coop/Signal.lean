import Mathlib.Logic.Basic

/-! Signals with a deferred update. A write is seen by readers only after the
next update phase, and only a change of value produces an event. -/
namespace Coop

structure Sig (α : Type) where
  cur : α
  nxt : α
  deriving DecidableEq

namespace Sig
variable {α : Type}

/-- A signal that holds `v`, with no write pending. -/
def steady (v : α) : Sig α := ⟨v,v⟩

def write (x : Sig α) (v : α) : Sig α := ⟨x.cur,v⟩

def update (x : Sig α) : Sig α := ⟨x.nxt,x.nxt⟩

@[simp] theorem write_cur (x : Sig α) (v : α) : (x.write v).cur = x.cur := rfl
@[simp] theorem write_nxt (x : Sig α) (v : α) : (x.write v).nxt = v := rfl
@[simp] theorem update_cur (x : Sig α) : x.update.cur = x.nxt := rfl
@[simp] theorem update_nxt (x : Sig α) : x.update.nxt = x.nxt := rfl
@[simp] theorem steady_cur (v : α) : (steady v).cur = v := rfl
@[simp] theorem steady_nxt (v : α) : (steady v).nxt = v := rfl

theorem eq_steady {x : Sig α} {v : α} (h : x.cur = x.nxt) (hv : x.nxt = v) : x = steady v := by
  cases x
  simp_all [steady]

section Events
variable [DecidableEq α]

def changes (x : Sig α) : Bool := decide (x.cur ≠ x.nxt)

@[simp] theorem changes_eq_false (x : Sig α) : x.changes = false ↔ x.cur = x.nxt := by
  simp [changes]
@[simp] theorem changes_eq_true (x : Sig α) : x.changes = true ↔ x.cur ≠ x.nxt := by
  simp [changes]

end Events

/-- The next update phase produces a rising edge. -/
def rises (x : Sig Bool) : Bool := !x.cur && x.nxt

def falls (x : Sig Bool) : Bool := x.cur && !x.nxt

@[simp] theorem rises_eq_true (x : Sig Bool) : x.rises = true ↔ x.cur = false ∧ x.nxt = true := by
  simp [rises]
@[simp] theorem falls_eq_true (x : Sig Bool) : x.falls = true ↔ x.cur = true ∧ x.nxt = false := by
  simp [falls]

end Sig
end Coop
