import Mathlib.Data.BitVec

/-! Registers as software finds them. Each is a cell of its own kind, and what a read of it
returns is told by the operations on that register before. -/
namespace Coop

variable {w : ℕ}

/-- A fixed word, the value of wires elsewhere, the word that was written last, or bits that
events set and writing them clears. Of the latter only those of a mask exist. -/
inductive Register (w : ℕ)
  | fixed (v : BitVec w)
  | follows
  | holds (v : BitVec w)
  | sticky (mask : BitVec w)
  deriving DecidableEq

/-- A read of `v` comes with the value of the wires at that moment. -/
inductive RegisterOp (w : ℕ)
  | read (wires v : BitVec w)
  | write (v : BitVec w)
  | raise (bits : BitVec w)
  deriving DecidableEq

namespace Register

def reset : Register w → BitVec w
  | .fixed v => v
  | .holds v => v
  | .follows => 0
  | .sticky _ => 0

def next : Register w → BitVec w → RegisterOp w → BitVec w
  | .holds _, _, .write v => v
  | .sticky _, x, .write v => x &&& ~~~v
  | .sticky mask, x, .raise bits => x ||| (bits &&& mask)
  | _, x, _ => x

def value (r : Register w) (ops : List (RegisterOp w)) : BitVec w := ops.foldl r.next r.reset

def answer : Register w → (x wires : BitVec w) → BitVec w
  | .follows, _, wires => wires
  | _, x, _ => x

/-- Each read of a history returns what the operations before it leave. -/
def Explains (r : Register w) (ops : List (RegisterOp w)) : Prop :=
  ∀ before wires v after, ops = before ++ .read wires v::after → v = r.answer (r.value before) wires

section Histories
variable {r : Register w} {ops : List (RegisterOp w)} {op : RegisterOp w}

theorem value_snoc : r.value (ops ++ [op]) = r.next (r.value ops) op := by
  rw [value,List.foldl_append]
  rfl

@[simp] theorem next_read (x wires v : BitVec w) : r.next x (.read wires v) = x := by
  cases r <;> rfl

theorem explains_nil : r.Explains [] := by
  intro before wires v after h
  simp at h

theorem Explains.snoc (h : r.Explains ops)
    (hop : ∀ wires v, op = .read wires v → v = r.answer (r.value ops) wires) :
    r.Explains (ops ++ [op]) := by
  intro before wires v after heq
  rcases List.eq_nil_or_concat after with rfl | ⟨rest,last,rfl⟩
  · obtain ⟨rfl,hlast⟩ := List.append_inj' heq rfl
    exact hop wires v (by simpa using hlast)
  · rw [List.concat_eq_append,← List.cons_append,← List.append_assoc] at heq
    obtain ⟨rfl,-⟩ := List.append_inj' heq rfl
    exact h before wires v rest rfl

end Histories

end Register
end Coop
