import Usb3Drd.Coop.Interp
import Mathlib.Data.Nat.Notation

/-! The two ends of a link: what one end calls out is delivered to the other end within
the call, which may call back in turn. -/
namespace Coop

variable {S W Q R X α : Type}

inductive Side
  | left | right
  deriving DecidableEq

def Side.other : Side → Side
  | .left => .right
  | .right => .left

@[simp] theorem Side.other_other (i : Side) : i.other.other = i := by cases i <;> rfl

structure Ends (S : Type) where
  left : S
  right : S
  deriving DecidableEq

namespace Ends

def get (x : Ends S) : Side → S
  | .left => x.left
  | .right => x.right

def set (x : Ends S) : Side → S → Ends S
  | .left, s => { x with left := s }
  | .right, s => { x with right := s }

@[simp] theorem get_set (x : Ends S) (i : Side) (s : S) : (x.set i s).get i = s := by
  cases i <;> rfl
@[simp] theorem get_set_other (x : Ends S) (i : Side) (s : S) :
    (x.set i s).get i.other = x.get i.other := by
  cases i <;> rfl
@[simp] theorem set_get (x : Ends S) (i : Side) : x.set i (x.get i) = x := by
  cases i <;> rfl
@[simp] theorem set_set (x : Ends S) (i : Side) (s s' : S) : (x.set i s).set i s' = x.set i s' := by
  cases i <;> rfl

end Ends

/-- Code runs at one end; `elapse` is what becomes of both while it waits. -/
def endHandler (elapse : W → Ends S → Ends S) (call : Q → Ends S → Option (R × Ends S)) (i : Side) :
    Handler S W Q R (Ends S) where
  state x := x.get i
  store s x := x.set i s
  wait w x := some (elapse w x)
  call := call

theorem endHandler_lawful (elapse : W → Ends S → Ends S) (call : Q → Ends S → Option (R × Ends S))
    (i : Side) : (endHandler elapse call i).Lawful :=
  ⟨fun s x => x.get_set i s,fun x => x.set_get i⟩

/-- A packet arrives at one end, and the calls its code makes arrive at the other, at
most `n` of them within one another. -/
def exchange (code : Q → Proc S W Q R R) (elapse : W → Ends S → Ends S) :
    ℕ → Side → Q → Ends S → Option (R × Ends S)
  | 0, _, _, _ => none
  | n+1, i, q, x => (code q).interp (endHandler elapse (exchange code elapse n i.other) i) x

section Rules
variable {elapse : W → Ends S → Ends S} {call : Q → Ends S → Option (R × Ends S)} {i : Side}

@[simp] theorem endHandler_state (x : Ends S) :
    (endHandler elapse call i : Handler S W Q R (Ends S)).state x = x.get i := rfl
@[simp] theorem endHandler_store (s : S) (x : Ends S) :
    (endHandler elapse call i : Handler S W Q R (Ends S)).store s x = x.set i s := rfl
@[simp] theorem endHandler_wait (w : W) (x : Ends S) :
    (endHandler elapse call i : Handler S W Q R (Ends S)).wait w x = some (elapse w x) := rfl
@[simp] theorem endHandler_call (q : Q) (x : Ends S) :
    (endHandler elapse call i : Handler S W Q R (Ends S)).call q x = call q x := rfl

end Rules
end Coop
