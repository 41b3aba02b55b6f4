import EntityStore.Proofs.Store.Cache
import EntityStore.Proofs.Store.Mirrors

set_option autoImplicit false

namespace EntityStore.Store

open Checked

def uncached (s : Store) : Store := { s with cacheQueries := false, cache := .empty }

abbrev plain {α : Type} (result : Checked (α × Store)) : Checked (α × Store) :=
  result.map fun (a, s) => (a, s.uncached)

variable (s : Store) (registry : Registry)

theorem prepare_uncached (signature : Signature) :
    s.uncached.prepare registry signature = (s.prepare registry signature).map (·.map uncached) := by
  rw [prepare, prepare]
  by_cases known : s.layouts.contains signature = true
  · rw [if_pos known]
    exact if_pos known
  · rw [if_neg known]
    refine (if_neg known).trans (bind_related _ _ _ _ fun generated => ?_)
    cases generated <;> rfl

theorem create_block_uncached (signature : Signature) :
    s.uncached.createBlock registry signature = plain (s.createBlock registry signature) := by
  rw [createBlock, prepare_uncached, createBlock]
  apply map_bind_related
  intro outcome
  cases outcome with
  | error error => rfl
  | ok s =>
      apply bind_related
      intro layout
      simp only [uncached]
      cases s.slab.allocate with
      | none => rfl
      | some held =>
          apply bind_related
          intro block
          apply bind_related
          intro allocated
          cases allocated with
          | error block => exact bind_related _ _ _ _ fun slab => rfl
          | ok taken => rfl

theorem acquire_uncached (signature : Signature) :
    s.uncached.acquire registry signature = plain (s.acquire registry signature) := by
  have same : s.uncached.withSpace signature = s.withSpace signature := rfl
  rw [acquire, same, acquire]
  apply bind_related
  intro chosen
  cases chosen with
  | some id => rfl
  | none => exact create_block_uncached s registry signature

theorem destroy_block_uncached (id : BlockId) :
    s.uncached.destroyBlock id = (s.destroyBlock id).map uncached := by
  apply bind_related
  intro released
  cases released with
  | none => rfl
  | some freed => exact bind_related _ _ _ _ fun slab => rfl

theorem clear_uncached : s.uncached.clear = s.clear.map uncached :=
  bind_related _ _ _ _ fun _ => rfl

theorem matching_blocks_uncached (turns : Nat) (fresh : s.Fresh turns) (enough : turns < 0x10000000000000000)
    (query : Signature) : s.uncached.matchingBlocks query =
      ((s.matchingBlocks query).1, (s.matchingBlocks query).2.uncached) := by
  obtain ⟨cache, same⟩ := matching_blocks_store s query
  rw [matching_blocks_eq turns fresh (Or.inr enough), same]
  rfl

-- Nothing but a look-up depends on what was kept.
theorem mirrors_uncached (registry : Registry) : Mirrors registry fun s other => other = s.uncached where
  pool := by
    rintro s _ rfl
    rfl
  put := by
    rintro s _ id block rfl
    rfl
  bump := by
    rintro s _ rfl
    rfl
  destroy := by
    rintro s _ id rfl
    rw [destroy_block_uncached]
    cases s.destroyBlock id with
    | error fault => exact .error fault
    | ok next => exact .ok rfl
  clear := by
    rintro s _ rfl
    rw [clear_uncached]
    cases s.clear with
    | error fault => exact .error fault
    | ok next => exact .ok rfl
  acquire := by
    rintro s _ signature rfl
    rw [acquire_uncached]
    cases s.acquire registry signature with
    | error fault => exact .error fault
    | ok acquired => exact .ok (.both acquired.1 rfl)

end EntityStore.Store
