import Mathlib.Data.List.Basic

/-! A partner that keeps the last block written to it and gives it back once. What its reader has
is told by the history of the operations alone: the last block that was read right after it was
written. -/
namespace Coop

variable {α : Type}

/-- A read may find the reader away; the block is gone in any case. -/
inductive EchoOp (α : Type)
  | write (block : List α)
  | read (live : Bool)
  deriving DecidableEq

/-- The block that is kept, and the block that the reader has. An empty block is none. -/
@[ext] structure Echo (α : Type) where
  slot : List α := []
  got : List α := []
  deriving DecidableEq

namespace Echo

def step (st : Echo α) : EchoOp α → Echo α
  | .write block => { st with slot := block }
  | .read live =>
    match st.slot with
    | [] => st
    | a::block => ⟨[],if live then a::block else st.got⟩

def replay (ops : List (EchoOp α)) (st : Echo α) : Echo α := ops.foldl step st

/-- The blocks that were read right after they were written. -/
def echoes : List (EchoOp α) → List (List α)
  | .write (a::block)::.read true::ops => (a::block)::echoes ops
  | _::ops => echoes ops
  | [] => []

def kept (ops : List (EchoOp α)) : List α :=
  match ops.getLast? with
  | some (.write block) => block
  | _ => []

@[simp] theorem step_write (st : Echo α) (block : List α) :
    st.step (.write block) = { st with slot := block } := rfl

theorem step_read_nil {st : Echo α} (h : st.slot = []) (live : Bool) : st.step (.read live) = st := by
  obtain ⟨slot,got⟩ := st
  obtain rfl : slot = [] := h
  rfl

theorem step_read {st : Echo α} (h : st.slot ≠ []) (live : Bool) :
    st.step (.read live) = ⟨[],if live then st.slot else st.got⟩ := by
  obtain ⟨slot,got⟩ := st
  cases slot with
  | nil => exact absurd rfl h
  | cons a block => rfl

theorem replay_append (ops : List (EchoOp α)) (op : EchoOp α) (st : Echo α) :
    (st.replay (ops ++ [op])) = (st.replay ops).step op := by
  rw [replay,List.foldl_append]
  rfl

theorem step_read_slot (st : Echo α) (live : Bool) : (st.step (.read live)).slot = [] := by
  by_cases h : st.slot = []
  · rw [step_read_nil h,h]
  · rw [step_read h]

@[simp] theorem echoes_write (block : List α) (ops : List (EchoOp α))
    (h : ∀ a b rest, block = a::b → ops ≠ .read true::rest) :
    echoes (.write block::ops) = echoes ops := by
  cases block with
  | nil => rfl
  | cons a b =>
    cases ops with
    | nil => rfl
    | cons op rest =>
      cases op with
      | write block => rfl
      | read live =>
        cases live with
        | false => rfl
        | true => exact absurd rfl (h a b rest rfl)

/-- The reader has the last echo. A block that is kept counts as just written. -/
theorem got_replay (ops : List (EchoOp α)) (st : Echo α) :
    (st.replay ops).got = (echoes (.write st.slot::ops)).getLastD st.got := by
  induction ops generalizing st with
  | nil =>
    rw [echoes_write _ _ (by simp)]
    rfl
  | cons op ops ih =>
    have hnext : st.replay (op::ops) = (st.step op).replay ops := rfl
    rw [hnext,ih]
    cases op with
    | write block => rw [step_write,echoes_write st.slot _ (by simp)]
    | read live =>
      rw [step_read_slot,echoes_write [] ops (by simp)]
      by_cases hslot : st.slot = []
      · rw [step_read_nil hslot,hslot,echoes_write [] _ (by simp)]
        rfl
      · rw [step_read hslot]
        obtain ⟨slot,got⟩ := st
        cases slot with
        | nil => exact absurd rfl hslot
        | cons a block =>
          cases live with
          | true => exact (List.getLastD_cons ..).symm
          | false => rfl

theorem slot_replay (ops : List (EchoOp α)) : (({} : Echo α).replay ops).slot = kept ops := by
  rcases List.eq_nil_or_concat ops with rfl | ⟨init,op,rfl⟩
  · rfl
  · rw [List.concat_eq_append,replay_append,kept,List.getLast?_append]
    cases op with
    | write block => rfl
    | read live => exact step_read_slot _ live

end Echo
end Coop
