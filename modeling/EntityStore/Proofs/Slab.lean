import EntityStore.Slab
import EntityStore.Proofs.Checked

set_option autoImplicit false

namespace EntityStore.Slab

open Checked

def Clean (s : Slab) : Prop := ∀ buffer ∈ s.pooled, buffer = .zeroed s.bufferBytes

variable {s : Slab}

theorem create_ok (bufferBytes capacity : Nat) (even : ¬ (bufferBytes = 0 ∨ bufferBytes % line ≠ 0)) :
    create bufferBytes capacity = .ok ⟨bufferBytes, capacity, 0, []⟩ := by
  rw [create, if_neg even]

theorem allocate_some (clean : s.Clean) (buffer : Buffer) (next : Slab)
    (taken : s.allocate = some (buffer, next)) :
    buffer = .zeroed s.bufferBytes ∧ next.Clean ∧ next.bufferBytes = s.bufferBytes ∧
      next.capacity = s.capacity ∧ next.outstanding = s.outstanding + 1 ∧
      s.outstanding < s.capacity := by
  unfold allocate at taken
  by_cases full : s.capacity ≤ s.outstanding
  · simp [full] at taken
  · rw [if_neg full] at taken
    have room := Nat.lt_of_not_le full
    cases waiting : s.pooled with
    | nil =>
        rw [waiting] at taken
        obtain ⟨rfl, rfl⟩ := Prod.mk.inj (Option.some.inj taken)
        exact ⟨rfl, fun _ member => absurd member List.not_mem_nil, rfl, rfl, rfl, room⟩
    | cons first rest =>
        rw [waiting] at taken
        obtain ⟨rfl, rfl⟩ := Prod.mk.inj (Option.some.inj taken)
        have zeroed (buffer : Buffer) (member : buffer ∈ first :: rest) :
            buffer = .zeroed s.bufferBytes := clean buffer (waiting ▸ member)
        exact ⟨zeroed _ List.mem_cons_self,
          fun buffer member => zeroed buffer (List.mem_cons_of_mem first member), rfl, rfl, rfl, room⟩

theorem allocate_none (refused : s.allocate = none) : s.capacity ≤ s.outstanding := by
  by_cases full : s.capacity ≤ s.outstanding
  · exact full
  · rw [allocate, if_neg full] at refused
    cases waiting : s.pooled <;> simp [waiting] at refused

theorem allocate_pooled {buffer : Buffer} {next : Slab} (taken : s.allocate = some (buffer, next)) :
    next.pooledCount = s.pooledCount - 1 := by
  unfold allocate at taken
  by_cases full : s.capacity ≤ s.outstanding
  · simp [full] at taken
  · rw [if_neg full] at taken
    unfold pooledCount
    cases waiting : s.pooled with
    | nil =>
        rw [waiting] at taken
        obtain ⟨_, rfl⟩ := Prod.mk.inj (Option.some.inj taken)
        rfl
    | cons first rest =>
        rw [waiting] at taken
        obtain ⟨_, rfl⟩ := Prod.mk.inj (Option.some.inj taken)
        rfl

theorem release_pooled {buffer : Buffer} {next : Slab} (released : s.release buffer = .ok next) :
    next.pooledCount = s.pooledCount + 1 := by
  obtain ⟨_, _, released⟩ := bind_ok_iff.mp released
  obtain ⟨_, _, released⟩ := bind_ok_iff.mp released
  obtain rfl := Except.ok.inj released
  rfl

theorem release_ok (clean : s.Clean) (buffer : Buffer) (size : buffer.size = s.bufferBytes)
    (lent : 0 < s.outstanding) :
    ∃ next, s.release buffer = .ok next ∧ next.Clean ∧ next.bufferBytes = s.bufferBytes ∧
      next.capacity = s.capacity ∧ next.outstanding + 1 = s.outstanding := by
  refine ⟨{ s with outstanding := s.outstanding - 1, pooled := .zeroed buffer.size :: s.pooled }, ?_,
    ?_, rfl, rfl, Nat.succ_pred_eq_of_pos lent⟩
  · simp only [release, Checked.require, size, lent, decide_true, if_true, Checked.ok_bind,
      Checked.pure_eq_ok]
  · exact List.forall_mem_cons.mpr ⟨congrArg Buffer.zeroed size, clean⟩

end EntityStore.Slab
