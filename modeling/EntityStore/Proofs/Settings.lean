import EntityStore.Settings

set_option autoImplicit false

namespace EntityStore.Settings

def least : Settings := { blockCapacity := 1, blockBytes := 64, maxBlocks := 1 }

theorem valid_iff (settings : Settings) : settings.validate = .ok () ↔
    0 < settings.blockCapacity ∧ settings.blockCapacity < 0x100000000 ∧ 0 < settings.maxBlocks ∧
      ¬ (settings.blockBytes = 0 ∨ settings.blockBytes % 64 ≠ 0) ∧
      Entity.width * settings.blockCapacity ≤ settings.blockBytes := by
  rw [validate, flaw?]
  by_cases zero : settings.blockCapacity = 0
  · simp [zero]
  by_cases large : 0x100000000 ≤ settings.blockCapacity
  · simp [zero, large, Nat.not_lt.mpr large]
  by_cases none : settings.maxBlocks = 0
  · simp [zero, large, none]
  by_cases uneven : settings.blockBytes = 0 ∨ settings.blockBytes % 64 ≠ 0
  · rw [if_neg zero, if_neg large, if_neg none, if_pos uneven]
    simp [uneven]
  by_cases tight : settings.blockBytes < Entity.width * settings.blockCapacity
  · rw [if_neg zero, if_neg large, if_neg none, if_neg uneven, if_pos tight]
    simp [Nat.not_le.mpr tight]
  · rw [if_neg zero, if_neg large, if_neg none, if_neg uneven, if_neg tight]
    exact ⟨fun _ => ⟨Nat.pos_of_ne_zero zero, Nat.lt_of_not_le large, Nat.pos_of_ne_zero none, uneven,
      Nat.le_of_not_lt tight⟩, fun _ => rfl⟩

variable (settings : Settings) (valid : settings.validate = .ok ())

include valid

theorem valid_bounds : 0 < settings.blockCapacity ∧ 0 < settings.maxBlocks ∧
    ¬ (settings.blockBytes = 0 ∨ settings.blockBytes % 64 ≠ 0) := by
  obtain ⟨capacity, _, blocks, even, _⟩ := (valid_iff settings).mp valid
  exact ⟨capacity, blocks, even⟩

theorem valid_narrow : settings.blockCapacity < UInt32.size := ((valid_iff settings).mp valid).2.1

theorem valid_handles : Entity.width * settings.blockCapacity < Checked.sizeLimit := by
  obtain ⟨_, small, _⟩ := (valid_iff settings).mp valid
  unfold Entity.width Checked.sizeLimit
  omega

end EntityStore.Settings
