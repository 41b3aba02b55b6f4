import EntityStore.Fault

set_option autoImplicit false

namespace EntityStore

-- Positions are kept in 32 bits. In the place of one that does not fit stands the last one that does.
def clip (position : Nat) : UInt32 :=
  if position < UInt32.size then .ofNat position else 0xffffffff

theorem toNat_clip {position : Nat} (small : position < UInt32.size) : (clip position).toNat = position := by
  rw [clip, if_pos small]
  exact UInt32.toNat_ofNat_of_lt small

theorem clip_le (position : Nat) : (clip position).toNat ≤ position := by
  by_cases small : position < UInt32.size
  · exact Nat.le_of_eq (toNat_clip small)
  · rw [clip, if_neg small]
    exact Nat.le_trans (by decide) (Nat.not_lt.mp small)

end EntityStore
