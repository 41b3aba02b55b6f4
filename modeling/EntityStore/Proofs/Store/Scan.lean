import EntityStore.Proofs.Pool
import EntityStore.Store
import Mathlib.Data.List.Sort

set_option autoImplicit false

namespace EntityStore.Store

def Matches (query : Signature) (b : Block) : Prop :=
  b.signature.isSuperset query = true ∧ 0 < b.entityCount

variable (s : Store) (query : Signature)

theorem mem_scan (id : BlockId) :
    id ∈ s.scan query ↔ ∃ b, s.block? id = some b ∧ Matches query b := by
  unfold scan
  rw [List.mem_filterMap]
  constructor
  · rintro ⟨⟨other, b⟩, member, hit⟩
    obtain ⟨good, same⟩ := Option.ite_none_right_eq_some.mp hit
    obtain rfl := Option.some.inj same
    obtain ⟨superset, enabled⟩ := Bool.and_eq_true_iff.mp good
    exact ⟨b, (Pool.mem_entries s.pool other b).mp member, superset, of_decide_eq_true enabled⟩
  · rintro ⟨b, found, superset, enabled⟩
    refine ⟨(id, b), (Pool.mem_entries s.pool id b).mpr found, ?_⟩
    simp [superset, enabled]

theorem scan_ascends : (s.scan query).Pairwise (· < ·) := by
  refine List.Pairwise.filterMap _ ?_ (Pool.entries_ascend s.pool)
  rintro ⟨a, x⟩ ⟨b, y⟩ before i left j right
  have first := Option.some.inj (Option.ite_none_right_eq_some.mp left).2
  have second := Option.some.inj (Option.ite_none_right_eq_some.mp right).2
  exact first ▸ second ▸ before

theorem scan_unique (ids : List BlockId) (ascends : ids.Pairwise (· < ·))
    (members : ∀ id, id ∈ ids ↔ ∃ b, s.block? id = some b ∧ Matches query b) :
    ids = s.scan query := by
  have distinct {ids : List BlockId} (ascends : ids.Pairwise (· < ·)) : ids.Nodup :=
    ascends.imp fun before => Nat.ne_of_lt before
  have perm : ids.Perm (s.scan query) := by
    rw [List.perm_ext_iff_of_nodup (distinct ascends) (distinct (scan_ascends s query))]
    intro id
    rw [members, mem_scan]
  refine perm.eq_of_pairwise (fun a b _ _ first second => ?_) ascends (scan_ascends s query)
  exact absurd first (Nat.lt_asymm second)

theorem scan_put (id : BlockId) (b nextBlock : Block) (found : s.block? id = some b)
    (signature : nextBlock.signature = b.signature) (count : nextBlock.entityCount = b.entityCount) :
    (s.put id nextBlock).scan query = s.scan query := by
  refine scan_unique s query _ (scan_ascends _ query) fun q => ?_
  rw [mem_scan]
  have content : (s.put id nextBlock).block? q = if q = id then some nextBlock else s.block? q := by
    have set := Pool.get_set s.pool id nextBlock q
    rw [show s.pool.get? id = some b from found] at set
    exact set
  rw [content]
  by_cases here : q = id
  · simp [here, found, Matches, signature, count]
  · rw [if_neg here]

end EntityStore.Store
