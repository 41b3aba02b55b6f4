import EntityStore.Proofs.Store.Books
import EntityStore.Proofs.Store.Mirrors

set_option autoImplicit false

namespace EntityStore.Store

open Checked

variable {registry : Registry} {s other : Store}

-- Stores that may keep the layouts of different signatures, all of them as the registry gives them.
structure Recalling (registry : Registry) (s other : Store) : Prop where
  learns : Learns s other
  recalls : s.Recalls registry
  recallsOther : other.Recalls registry

theorem recalling_of {layouts others : Table Signature Layout} (recalls : ({ s with layouts } : Store).Recalls registry)
    (recallsOther : ({ s with layouts := others } : Store).Recalls registry) :
    Recalling registry { s with layouts } { s with layouts := others } :=
  ⟨⟨others, rfl⟩, recalls, recallsOther⟩

theorem build_recalling (recalling : Recalling registry s other) (signature : Signature) (layout : Layout) :
    Alongside (Abreast (Recalling registry)) (s.build signature layout) (other.build signature layout) := by
  obtain ⟨⟨layouts, rfl⟩, recalls, recallsOther⟩ := recalling
  rw [build, build]
  cases s.slab.allocate with
  | none => exact .ok (.both _ ⟨⟨layouts, rfl⟩, recalls, recallsOther⟩)
  | some lent =>
      refine alongside_bind_same _ fun block => alongside_bind_same _ fun allocated => ?_
      cases allocated with
      | error block =>
          exact alongside_bind_same _ fun slab => .ok (.both _ ⟨⟨layouts, rfl⟩, recalls, recallsOther⟩)
      | ok taken => exact .ok (.both _ ⟨⟨layouts, rfl⟩, recalls, recallsOther⟩)

theorem create_block_recalling (recalling : Recalling registry s other) (signature : Signature) :
    Alongside (Abreast (Recalling registry)) (s.createBlock registry signature)
      (other.createBlock registry signature) := by
  obtain ⟨⟨layouts, rfl⟩, recalls, recallsOther⟩ := recalling
  cases made : Layout.generate signature registry s.capacity s.blockBytes with
  | error fault =>
      rw [createBlock, createBlock, prepare_stops recalls (fun _ => by simp) made,
        prepare_stops recallsOther (fun _ => by simp) made]
      exact .error fault
  | ok outcome =>
      cases outcome with
      | error error =>
          rw [createBlock, createBlock, prepare_stops recalls (fun _ => by simp) made,
            prepare_stops recallsOther (fun _ => by simp) made]
          exact .ok (.both _ ⟨⟨layouts, rfl⟩, recalls, recallsOther⟩)
      | ok layout =>
          obtain ⟨here, built, recalls⟩ := create_block_built recalls made
          obtain ⟨there, builtOther, recallsOther⟩ := create_block_built recallsOther made
          rw [built, builtOther]
          exact build_recalling (recalling_of recalls recallsOther) signature layout

theorem mirrors_recalling (registry : Registry) : Mirrors registry (Recalling registry) where
  pool recalling := by
    obtain ⟨⟨layouts, rfl⟩, _⟩ := recalling
    rfl
  put id block recalling := by
    obtain ⟨⟨layouts, rfl⟩, recalls, recallsOther⟩ := recalling
    exact ⟨⟨layouts, rfl⟩, recalls, recallsOther⟩
  bump recalling := by
    obtain ⟨⟨layouts, rfl⟩, recalls, recallsOther⟩ := recalling
    exact ⟨⟨layouts, rfl⟩, recalls, recallsOther⟩
  destroy id recalling := by
    obtain ⟨⟨layouts, rfl⟩, recalls, recallsOther⟩ := recalling
    refine alongside_bind_same _ fun released => ?_
    cases released with
    | none => exact .ok ⟨⟨layouts, rfl⟩, recalls, recallsOther⟩
    | some freed => exact alongside_bind_same _ fun slab => .ok ⟨⟨layouts, rfl⟩, recalls, recallsOther⟩
  clear recalling := by
    obtain ⟨⟨layouts, rfl⟩, recalls, recallsOther⟩ := recalling
    exact alongside_bind_same _ fun slab => .ok ⟨⟨layouts, rfl⟩, recalls, recallsOther⟩
  acquire signature recalling := by
    obtain ⟨⟨layouts, rfl⟩, recalls, recallsOther⟩ := recalling
    refine alongside_bind_same _ fun chosen => ?_
    cases chosen with
    | some id => exact .ok (.both _ ⟨⟨layouts, rfl⟩, recalls, recallsOther⟩)
    | none => exact create_block_recalling ⟨⟨layouts, rfl⟩, recalls, recallsOther⟩ signature

theorem matching_blocks_recalling (recalling : Recalling registry s other) (query : Signature) :
    Abreast (Recalling registry) (s.matchingBlocks query) (other.matchingBlocks query) := by
  obtain ⟨⟨layouts, rfl⟩, recalls, recallsOther⟩ := recalling
  have with_cache (cache : Table Signature CachedMatch) :
      Recalling registry { s with cache } { s with layouts, cache } := ⟨⟨layouts, rfl⟩, recalls, recallsOther⟩
  by_cases caches : s.cacheQueries = true
  · rw [matchingBlocks, matchingBlocks, if_pos caches, if_pos caches]
    simp only
    cases (s.cache.find? query).filter fun cached => cached.generation = s.generation with
    | some cached => exact .both _ (with_cache s.cache)
    | none => exact .both _ (with_cache _)
  · rw [matchingBlocks, matchingBlocks, if_neg caches, if_neg caches]
    exact .both _ (with_cache s.cache)

end EntityStore.Store
