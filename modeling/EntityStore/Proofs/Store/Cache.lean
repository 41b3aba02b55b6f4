import EntityStore.Store

set_option autoImplicit false

namespace EntityStore.Store

-- Cached answers are right in the generation that they were found in. `turns` is the number of
-- generations that have begun.
structure Fresh (turns : Nat) (s : Store) : Prop where
  generation : s.generation = UInt64.ofNat turns
  cached : ∀ query answer, s.cache.find? query = some answer →
    ∃ turn ≤ turns, answer.generation = UInt64.ofNat turn ∧
      (turn = turns → answer.blocks = s.scan query)

structure Ages (s next : Store) (turns : Nat) : Prop where
  generation : next.generation = s.generation + UInt64.ofNat turns
  fresh : ∀ before, s.Fresh before → next.Fresh (before + turns)

variable {s next last : Store}

namespace Ages

theorem trans {first second : Nat} (start : Ages s next first) (rest : Ages next last second) :
    Ages s last (first + second) := by
  refine ⟨?_, fun before fresh => ?_⟩
  · rw [rest.generation, start.generation, UInt64.ofNat_add, UInt64.add_assoc]
  · rw [← Nat.add_assoc]
    exact rest.fresh _ (start.fresh before fresh)

theorem of_same (generation : next.generation = s.generation) (cache : next.cache = s.cache)
    (scan : ∀ query, next.scan query = s.scan query) : Ages s next 0 := by
  refine ⟨by simp [generation], fun before fresh => ⟨generation.trans fresh.generation, ?_⟩⟩
  intro query answer found
  rw [cache] at found
  obtain ⟨turn, bound, born, right⟩ := fresh.cached query answer found
  exact ⟨turn, bound, born, fun present => (right present).trans (scan query).symm⟩

theorem of_bump (generation : next.generation = s.generation + 1)
    (cache : ∀ query answer, next.cache.find? query = some answer →
      s.cache.find? query = some answer) : Ages s next 1 := by
  refine ⟨generation, fun before fresh => ⟨?_, ?_⟩⟩
  · rw [generation, fresh.generation, UInt64.ofNat_add]
    rfl
  · intro query answer found
    obtain ⟨turn, bound, born, _⟩ := fresh.cached query answer (cache query answer found)
    exact ⟨turn, Nat.le_succ_of_le bound, born, fun present => by omega⟩

end Ages

theorem create_blank {settings : Settings} (made : create settings = .ok s) :
    s.generation = 0 ∧ s.cache = .empty := by
  unfold create at made
  cases pool : (Pool.create settings.maxBlocks : Checked (Pool Block)) with
  | error fault => rw [pool] at made; contradiction
  | ok pool' =>
      cases slab : Slab.create settings.blockBytes settings.maxBlocks with
      | error fault => rw [pool, slab] at made; contradiction
      | ok slab' =>
          rw [pool, slab] at made
          obtain rfl := Except.ok.inj made
          exact ⟨rfl, rfl⟩

theorem fresh_create (settings : Settings) (made : create settings = .ok s) : s.Fresh 0 := by
  obtain ⟨zero, blank⟩ := create_blank made
  refine ⟨zero, fun query answer found => ?_⟩
  rw [blank] at found
  simp at found

theorem matching_blocks_cases (s : Store) (query : Signature) :
    (s.matchingBlocks query).1 = s.scan query ∨ s.cacheQueries = true ∧
      ∃ answer, s.cache.find? query = some answer ∧ answer.generation = s.generation ∧
        (s.matchingBlocks query).1 = answer.blocks := by
  unfold matchingBlocks
  by_cases caches : s.cacheQueries = true
  · rw [if_pos caches]
    cases hit : (s.cache.find? query).filter fun cached => cached.generation = s.generation with
    | none => exact Or.inl rfl
    | some answer =>
        obtain ⟨found, present⟩ := Option.filter_eq_some_iff.mp hit
        exact Or.inr ⟨caches, answer, found, of_decide_eq_true present, rfl⟩
  · rw [if_neg caches]
    exact Or.inl rfl

-- The answer is that of a scan, though it may come from the cache.
theorem matching_blocks_eq (turns : Nat) (fresh : s.Fresh turns)
    (enough : s.cacheQueries = false ∨ turns < 0x10000000000000000) (query : Signature) :
    (s.matchingBlocks query).1 = s.scan query := by
  rcases matching_blocks_cases s query with now | ⟨caches, answer, found, present, served⟩
  · exact now
  · obtain ⟨turn, bound, born, right⟩ := fresh.cached query answer found
    have same : UInt64.ofNat turn = UInt64.ofNat turns := by
      rw [← born, ← fresh.generation, present]
    -- Generations are compared as words, which tells turns apart only below this bound.
    have small : turns < 0x10000000000000000 := enough.resolve_left (by simp [caches])
    have numbers := congrArg UInt64.toNat same
    rw [UInt64.toNat_ofNat', UInt64.toNat_ofNat', Nat.mod_eq_of_lt (by omega),
      Nat.mod_eq_of_lt (by omega)] at numbers
    exact served.trans (right numbers)

theorem matching_blocks_next (s : Store) (query : Signature) : (s.matchingBlocks query).2 = s ∨
    (s.matchingBlocks query).2 =
      { s with cache := s.cache.insert query ⟨s.generation, s.scan query⟩ } := by
  unfold matchingBlocks
  by_cases caches : s.cacheQueries = true
  · rw [if_pos caches]
    cases (s.cache.find? query).filter fun cached => cached.generation = s.generation with
    | some answer => exact Or.inl rfl
    | none => exact Or.inr rfl
  · rw [if_neg caches]
    exact Or.inl rfl

theorem matching_blocks_store (s : Store) (query : Signature) :
    ∃ cache, (s.matchingBlocks query).2 = { s with cache } := by
  rcases matching_blocks_next s query with same | kept
  · exact ⟨s.cache, same⟩
  · exact ⟨_, kept⟩

theorem ages_matching_blocks (query : Signature) : Ages s (s.matchingBlocks query).2 0 := by
  rcases matching_blocks_next s query with same | kept
  · rw [same]
    exact Ages.of_same rfl rfl fun _ => rfl
  · rw [kept]
    refine ⟨by simp, fun before fresh => ⟨fresh.generation, fun other answer found => ?_⟩⟩
    rw [Table.find?_insert] at found
    by_cases here : query = other
    · rw [if_pos here] at found
      obtain rfl := Option.some.inj found
      exact ⟨before, Nat.le_refl before, fresh.generation, fun _ => here ▸ rfl⟩
    · rw [if_neg here] at found
      exact fresh.cached other answer found

end EntityStore.Store
