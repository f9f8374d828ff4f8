import Usb3Drd.TransferRing

/-! The depth of the transfer ring. The callers of the bulk interface have to leave room: the
assertion holds as long as fewer than `ringDepth` of their requests are still to be sent. -/
namespace Usb3Drd
namespace RingDepth

open Coop HostController TransferRing

variable {n : ℕ} {g : Traffic} {c : DrdConf n}

theorem apply_isSome_iff {a : Action} {s : Drd} (ha : (requestOf a).isSome = true) :
    (a.apply s).isSome = true ↔ s.hostCtrl.mTransferRing.length < ringDepth := by
  have henqueue : ∀ trb, (enqueue s.hostCtrl.mTransferRing trb).isSome = true ↔
      s.hostCtrl.mTransferRing.length < ringDepth := by
    intro trb
    rw [enqueue]
    split
    · rename_i hroom
      exact iff_of_true rfl hroom
    · rename_i hfull
      exact iff_of_false (by simp) hfull
  cases a with
  | bulkOut devAddr ep data =>
    rw [Action.apply,bulkOut,enqueueBulkTrb,Option.isSome_map]
    exact henqueue _
  | bulkIn devAddr ep len =>
    rw [Action.apply,bulkIn,enqueueBulkTrb,Option.isSome_map]
    exact henqueue _
  | _ => cases ha

theorem length_ring (hr : Reach (drdKernel n) (drdBoot n) traffic (fun _ _ _ => True) g c) :
    g.requested.length = g.sent.length + c.state.hostCtrl.mTransferRing.length := by
  have horder := congrArg List.length (ringSpec_meets.held hr).order
  rwa [List.length_append,List.length_map] at horder

theorem waiting_le (hr : Reach (drdKernel n) (drdBoot n) traffic (fun _ _ _ => True) g c) :
    g.requested.length ≤ g.sent.length + ringDepth := by
  induction hr with
  | boot => exact Nat.zero_le _
  | @step g c l c' hr _ hs ih =>
    cases l with
    | eval t =>
      by_cases ht : t = hostThread
      · have hnext : traffic.next g c (.eval t) c' = g.noteSent (c'.loc t) := if_pos ht
        rw [hnext]
        cases c'.loc t with
        | calling q => exact ih.trans (by simp [Traffic.noteSent])
        | _ => exact ih
      · have hnext : traffic.next g c (.eval t) c' = g := if_neg ht
        rw [hnext]
        exact ih
    | act a =>
      show (g.requested ++ (requestOf a).toList).length ≤ g.sent.length + ringDepth
      cases hreq : requestOf a with
      | none => simpa using ih
      | some x =>
        obtain ⟨s,ha,-⟩ := step_act hs
        have hroom : c.state.hostCtrl.mTransferRing.length < ringDepth :=
          (apply_isSome_iff (a := a) (by rw [hreq]; rfl)).mp (Option.isSome_iff_exists.mpr ⟨s,ha⟩)
        have hlength := length_ring hr
        simp only [Option.toList_some,List.length_append,List.length_singleton]
        omega
    | _ => exact ih

/-- In every run the ring is within its depth, and the next call of the bulk interface passes
the assertion exactly if fewer than `ringDepth` requests are still to be sent. -/
theorem passes_iff_room (n : ℕ) (g : Traffic) (c : DrdConf n)
    (hr : Reach (drdKernel n) (drdBoot n) traffic (fun _ _ _ => True) g c) :
    c.state.hostCtrl.mTransferRing.length ≤ ringDepth ∧ ∀ a, (requestOf a).isSome = true →
      ((a.apply c.state).isSome = true ↔ g.requested.length < g.sent.length + ringDepth) := by
  have hlength := length_ring hr
  refine ⟨?_,fun a ha => (apply_isSome_iff ha).trans (by omega)⟩
  have hwaiting := waiting_le hr
  omega

theorem exists_full (k : ℕ) (hk : k ≤ ringDepth) : ∃ g c,
    Reach (drdKernel 0) (drdBoot 0) traffic (fun _ _ _ => True) g c ∧
      g.requested.length = k ∧ g.sent.length = 0 := by
  induction k with
  | zero => exact ⟨_,_,.boot,rfl,rfl⟩
  | succ k ih =>
    obtain ⟨g,c,hr,hrequested,hsent⟩ := ih (by omega)
    have hlength := length_ring hr
    have hroom : c.state.hostCtrl.mTransferRing.length < ringDepth := by omega
    have hpass := (apply_isSome_iff (a := .bulkOut 1 2 []) (s := c.state) rfl).mpr hroom
    obtain ⟨s,hs⟩ := Option.isSome_iff_exists.mp hpass
    have hstep : (drdKernel 0).step c (.act (.bulkOut 1 2 [])) = some ⟨c.now,s,c.thread⟩ := by
      rw [Kernel.step,show (drdKernel 0).act (.bulkOut 1 2 []) c.state = some s from hs]
      rfl
    refine ⟨_,_,hr.step trivial hstep,?_,hsent⟩
    show (g.requested ++ [_]).length = k+1
    rw [List.length_append,hrequested]
    rfl

theorem passes_first : ∃ g c, Reach (drdKernel 0) (drdBoot 0) traffic (fun _ _ _ => True) g c ∧
    g.requested.length = 1 ∧ (Action.apply (.bulkIn 1 1 64) c.state).isSome = true := by
  obtain ⟨g,c,hr,hrequested,hsent⟩ := exists_full 1 (by decide)
  refine ⟨g,c,hr,hrequested,((passes_iff_room 0 g c hr).2 (.bulkIn 1 1 64) rfl).mpr ?_⟩
  rw [hrequested,hsent]
  decide

/-- The 257th call for a host that is not enabled fails the assertion. -/
theorem not_passes_full : ¬∀ g c, Reach (drdKernel 0) (drdBoot 0) traffic (fun _ _ _ => True) g c →
    ∀ a, (requestOf a).isSome = true → (Action.apply a c.state).isSome = true := by
  intro h
  obtain ⟨g,c,hr,hrequested,hsent⟩ := exists_full ringDepth le_rfl
  have hlength := length_ring hr
  have hroom := (apply_isSome_iff rfl).mp (h g c hr (.bulkOut 1 2 []) rfl)
  omega

end RingDepth
end Usb3Drd
