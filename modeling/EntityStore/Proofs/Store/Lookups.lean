import EntityStore.Proofs.Block.Recounts
import EntityStore.Proofs.Store.Books
import EntityStore.Proofs.Store.Scan
import EntityStore.Store.Operation
import Mathlib.Data.List.Induction

set_option autoImplicit false

namespace EntityStore.Store

open Checked

def Lists (s : Store) (query : Signature) (ids : List BlockId) : Prop :=
  ids.Pairwise (· < ·) ∧ ∀ id, id ∈ ids ↔ ∃ b, s.block? id = some b ∧ Matches query b

-- Number of generations that a history begins.
def turns (s : Store) (registry : Registry) : List Operation → Nat
  | [] => 0
  | operation :: rest =>
    match s.operate registry operation with
    | .error _ => 0
    | .ok (_, next) => (next.generation - s.generation).toNat + next.turns registry rest

def Operation.recounts : Operation → Bool
  | .rows _ operation => operation.recounts
  | _ => false

variable {registry : Registry} {s mid next last : Store} {id : BlockId} {query : Signature} {ids : List BlockId}

theorem scan_lists (s : Store) (query : Signature) : s.Lists query (s.scan query) :=
  ⟨scan_ascends s query, mem_scan s query⟩

theorem lists_iff : s.Lists query ids ↔ ids = s.scan query := by
  constructor
  · rintro ⟨ascends, members⟩
    exact scan_unique s query ids ascends members
  · rintro rfl
    exact scan_lists s query

section Begins

structure Begins (s next : Store) (count : Nat) : Prop where
  generation : next.generation = s.generation + UInt64.ofNat count
  cache : ∀ query answer, next.cache.find? query = some answer → s.cache.find? query = some answer
  steady : count = 0 → next.pool = s.pool

namespace Begins

theorem refl (s : Store) : Begins s s 0 := ⟨by simp, fun _ _ found => found, fun _ => rfl⟩

theorem trans {first second : Nat} (start : Begins s mid first) (rest : Begins mid next second) :
    Begins s next (first + second) := by
  refine ⟨?_, fun query answer found => start.cache query answer (rest.cache query answer found),
    fun none => ?_⟩
  · rw [rest.generation, start.generation, UInt64.ofNat_add, UInt64.add_assoc]
  · rw [rest.steady (by omega), start.steady (by omega)]

theorem bump (generation : mid.generation = s.generation)
    (cache : ∀ query answer, mid.cache.find? query = some answer → s.cache.find? query = some answer) :
    Begins s mid.bump 1 :=
  ⟨congrArg (· + 1) generation, cache, fun none => by contradiction⟩

end Begins

theorem learns_of_prepared {signature : Signature} (done : s.prepare registry signature = .ok (.ok next)) :
    Learns s next := by
  unfold prepare at done
  by_cases known : s.layouts.contains signature = true
  · rw [if_pos known] at done
    exact Except.ok.inj (Except.ok.inj done) ▸ learns_refl s
  · rw [if_neg known] at done
    obtain ⟨generated, _, done⟩ := bind_ok_iff.mp done
    cases generated with
    | error error => exact nomatch Except.ok.inj done
    | ok layout => exact ⟨_, (Except.ok.inj (Except.ok.inj done)).symm⟩

theorem Begins.of_learns (learns : Learns s next) : Begins s next 0 := by
  obtain ⟨layouts, rfl⟩ := learns
  exact ⟨by simp, fun _ _ found => found, fun _ => rfl⟩

theorem create_block_begins {signature : Signature} {outcome : Outcome BlockId}
    (done : s.createBlock registry signature = .ok (outcome, next)) : ∃ count ≤ 1, Begins s next count := by
  unfold createBlock at done
  obtain ⟨prepared, learned, done⟩ := bind_ok_iff.mp done
  cases prepared with
  | error error =>
      obtain ⟨_, rfl⟩ := Prod.mk.inj (Except.ok.inj done)
      exact ⟨0, by omega, Begins.refl s⟩
  | ok mid =>
      obtain ⟨layouts, rfl⟩ := learns_of_prepared learned
      obtain ⟨layout, _, done⟩ := bind_ok_iff.mp done
      cases taken : s.slab.allocate with
      | none =>
          simp only [taken] at done
          obtain ⟨_, rfl⟩ := Prod.mk.inj (Except.ok.inj done)
          exact ⟨0, by omega, Begins.of_learns ⟨layouts, rfl⟩⟩
      | some both =>
          obtain ⟨payload, slab⟩ := both
          simp only [taken] at done
          obtain ⟨block, _, done⟩ := bind_ok_iff.mp done
          obtain ⟨allocated, _, done⟩ := bind_ok_iff.mp done
          cases allocated with
          | error block =>
              obtain ⟨slab, _, done⟩ := bind_ok_iff.mp done
              obtain ⟨_, rfl⟩ := Prod.mk.inj (Except.ok.inj done)
              exact ⟨0, by omega, by simp, fun _ _ found => found, fun _ => rfl⟩
          | ok entry =>
              obtain ⟨_, rfl⟩ := Prod.mk.inj (Except.ok.inj done)
              exact ⟨1, by omega, Begins.bump rfl fun _ _ found => found⟩

theorem acquire_begins {signature : Signature} {outcome : Outcome BlockId}
    (done : s.acquire registry signature = .ok (outcome, next)) : ∃ count ≤ 1, Begins s next count := by
  unfold acquire at done
  obtain ⟨chosen, _, done⟩ := bind_ok_iff.mp done
  cases chosen with
  | some id =>
      obtain ⟨_, rfl⟩ := Prod.mk.inj (Except.ok.inj done)
      exact ⟨0, by omega, Begins.refl s⟩
  | none => exact create_block_begins done

theorem insert_begins {signature : Signature} {entity : Entity} {outcome : Outcome (BlockId × Nat)}
    (done : s.insert registry signature entity = .ok (outcome, next)) : ∃ count ≤ 2, Begins s next count := by
  unfold insert at done
  obtain ⟨⟨acquired, mid⟩, first, done⟩ := bind_ok_iff.mp done
  obtain ⟨count, few, begins⟩ := acquire_begins first
  cases acquired with
  | error error =>
      obtain ⟨_, rfl⟩ := Prod.mk.inj (Except.ok.inj done)
      exact ⟨count, by omega, begins⟩
  | ok id =>
      cases found : mid.block? id with
      | none =>
          simp only [found] at done
          obtain ⟨_, rfl⟩ := Prod.mk.inj (Except.ok.inj done)
          exact ⟨count, by omega, begins⟩
      | some block =>
          simp only [found] at done
          obtain ⟨pushed, _, done⟩ := bind_ok_iff.mp done
          cases pushed with
          | none =>
              obtain ⟨_, rfl⟩ := Prod.mk.inj (Except.ok.inj done)
              exact ⟨count, by omega, begins⟩
          | some entry =>
              obtain ⟨_, rfl⟩ := Prod.mk.inj (Except.ok.inj done)
              exact ⟨count + 1, by omega, begins.trans (Begins.bump rfl fun _ _ found => found)⟩

theorem destroy_block_begins (done : s.destroyBlock id = .ok next) :
    ∃ count ≤ 1, Begins s next count := by
  unfold destroyBlock at done
  obtain ⟨released, _, done⟩ := bind_ok_iff.mp done
  cases released with
  | none =>
      obtain rfl := Except.ok.inj done
      exact ⟨0, by omega, Begins.refl s⟩
  | some entry =>
      obtain ⟨slab, _, done⟩ := bind_ok_iff.mp done
      obtain rfl := Except.ok.inj done
      exact ⟨1, by omega, Begins.bump rfl fun _ _ found => found⟩

theorem release_if_empty_begins {told : Bool} (done : s.releaseIfEmpty id = .ok (told, next)) :
    ∃ count ≤ 1, Begins s next count := by
  unfold releaseIfEmpty at done
  cases found : s.block? id with
  | none =>
      rw [found] at done
      obtain ⟨_, rfl⟩ := Prod.mk.inj (Except.ok.inj done)
      exact ⟨0, by omega, Begins.refl s⟩
  | some block =>
      simp only [found] at done
      obtain ⟨empty, _, done⟩ := bind_ok_iff.mp done
      cases empty with
      | true =>
          obtain ⟨freed, destroyed, done⟩ := bind_ok_iff.mp done
          obtain ⟨_, rfl⟩ := Prod.mk.inj (Except.ok.inj done)
          exact destroy_block_begins destroyed
      | false =>
          obtain ⟨_, rfl⟩ := Prod.mk.inj (Except.ok.inj done)
          exact ⟨0, by omega, Begins.refl s⟩

theorem clear_begins (done : s.clear = .ok next) : ∃ count ≤ 1, Begins s next count := by
  unfold clear at done
  obtain ⟨slab, _, done⟩ := bind_ok_iff.mp done
  obtain rfl := Except.ok.inj done
  exact ⟨1, by omega, Begins.bump rfl fun query answer found => by simp at found⟩

end Begins

section Step

inductive Passes (s : Store) : Operation → Store → Prop where
  | begins (operation : Operation) (next : Store) (count : Nat) (few : count ≤ 2)
      (begins : Begins s next count) : Passes s operation next
  | rows (id : BlockId) (operation : Block.Operation) (b nextBlock : Block)
      (found : s.block? id = some b) (signature : nextBlock.signature = b.signature)
      (count : operation.recounts = false → nextBlock.entityCount = b.entityCount) :
      Passes s (.rows id operation) (s.put id nextBlock)
  | copied (target : BlockId) (row : Nat) (source : BlockId) (sourceRow : Nat) (b nextBlock : Block)
      (found : s.block? target = some b) (repaints : Block.Repaints b nextBlock) :
      Passes s (.copy target row source sourceRow) (s.put target nextBlock)
  | looked (query : Signature) : Passes s (.matching query) (s.matchingBlocks query).2

variable {operation : Operation} {outcome : Outcome Answer}

theorem told_ok {α : Type} {tell : α → Answer} {result : Checked (Outcome α × Store)}
    (done : operate.told tell result = .ok (outcome, next)) : ∃ told, result = .ok (told, next) := by
  unfold operate.told at done
  cases result with
  | error fault => simp at done
  | ok both =>
      obtain ⟨told, last⟩ := both
      obtain ⟨_, rfl⟩ := Prod.mk.inj (Except.ok.inj done)
      exact ⟨told, rfl⟩

theorem operate_passes (done : s.operate registry operation = .ok (outcome, next)) :
    Passes s operation next := by
  have unchanged (operation : Operation) : Passes s operation s :=
    .begins operation s 0 (by omega) (Begins.refl s)
  have once {operation : Operation} {next : Store} (begun : ∃ count ≤ 1, Begins s next count) :
      Passes s operation next := by
    obtain ⟨count, few, begins⟩ := begun
    exact .begins operation next count (by omega) begins
  cases operation with
  | acquire signature =>
      obtain ⟨_, acquired⟩ := told_ok done
      exact once (acquire_begins acquired)
  | insert signature entity =>
      obtain ⟨_, inserted⟩ := told_ok done
      obtain ⟨count, few, begins⟩ := insert_begins inserted
      exact .begins _ next count few begins
  | create signature =>
      obtain ⟨_, created⟩ := told_ok done
      exact once (create_block_begins created)
  | destroy id =>
      rw [operate] at done
      obtain ⟨freed, destroyed, done⟩ := bind_ok_iff.mp done
      obtain ⟨_, rfl⟩ := Prod.mk.inj (Except.ok.inj done)
      exact once (destroy_block_begins destroyed)
  | releaseIfEmpty id =>
      rw [operate] at done
      obtain ⟨⟨told, freed⟩, released, done⟩ := bind_ok_iff.mp done
      obtain ⟨_, rfl⟩ := Prod.mk.inj (Except.ok.inj done)
      exact once (release_if_empty_begins released)
  | clear =>
      rw [operate] at done
      obtain ⟨empty, cleared, done⟩ := bind_ok_iff.mp done
      obtain ⟨_, rfl⟩ := Prod.mk.inj (Except.ok.inj done)
      exact once (clear_begins cleared)
  | rows id operation =>
      rw [operate] at done
      cases found : s.block? id with
      | none =>
          rw [found] at done
          obtain ⟨_, rfl⟩ := Prod.mk.inj (Except.ok.inj done)
          exact unchanged _
      | some b =>
          simp only [found] at done
          obtain ⟨⟨answer, nextBlock⟩, operated, done⟩ := bind_ok_iff.mp done
          obtain ⟨_, rfl⟩ := Prod.mk.inj (Except.ok.inj done)
          obtain ⟨planned, count⟩ := Block.operate_keeps operated
          exact .rows id operation b nextBlock found planned.signature count
  | copy target row source sourceRow =>
      simp only [operate, Pool.get_pair_eq, ok_bind, pure_eq_ok] at done
      cases pair : s.pool.getPair? target source with
      | none =>
          rw [pair] at done
          obtain ⟨_, rfl⟩ := Prod.mk.inj (Except.ok.inj done)
          exact unchanged _
      | some both =>
          obtain ⟨b, other⟩ := both
          simp only [pair] at done
          obtain ⟨nextBlock, copied, done⟩ := bind_ok_iff.mp done
          obtain ⟨_, rfl⟩ := Prod.mk.inj (Except.ok.inj done)
          exact .copied target row source sourceRow b nextBlock (Pool.get_of_pair pair).1
            (Block.copy_columns_repaints b.columns copied)
  | matching query =>
      obtain ⟨_, rfl⟩ := Prod.mk.inj (Except.ok.inj done)
      exact .looked query

-- The answers that a store keeps were all kept before but for one that a look-up has just found.
theorem Passes.cache (passes : Passes s operation next) {answer : CachedMatch}
    (found : next.cache.find? query = some answer) :
    s.cache.find? query = some answer ∨
      operation = .matching query ∧ answer = ⟨s.generation, s.scan query⟩ := by
  cases passes with
  | begins _ _ count few begins => exact Or.inl (begins.cache query answer found)
  | rows => exact Or.inl found
  | copied => exact Or.inl found
  | looked other =>
      rcases matching_blocks_next s other with same | kept
      · rw [same] at found
        exact Or.inl found
      · rw [kept, Table.find?_insert] at found
        by_cases here : other = query
        · rw [if_pos here] at found
          exact Or.inr ⟨congrArg _ here, here ▸ (Option.some.inj found).symm⟩
        · rw [if_neg here] at found
          exact Or.inl found

theorem Passes.blocks (passes : Passes s operation next) (same : next.generation = s.generation)
    (id : BlockId) :
    (next.block? id).map Block.signature = (s.block? id).map Block.signature ∧
      (operation.recounts = false →
        (next.block? id).map Block.entityCount = (s.block? id).map Block.entityCount) := by
  cases passes with
  | begins _ _ count few begins =>
      have none : count = 0 := by
        have numbers := congrArg UInt64.toNat (begins.generation.symm.trans same)
        rw [UInt64.toNat_add, UInt64.toNat_ofNat'] at numbers
        have small := s.generation.toNat_lt
        omega
      have pool := begins.steady none
      unfold block?
      rw [pool]
      exact ⟨rfl, fun _ => rfl⟩
  | rows target operation b nextBlock found signature count =>
      rw [block_put found]
      by_cases here : id = target
      · rw [if_pos here, here, found]
        exact ⟨congrArg some signature, fun quiet => congrArg some (count quiet)⟩
      · rw [if_neg here]
        exact ⟨rfl, fun _ => rfl⟩
  | copied target row source sourceRow b nextBlock found repaints =>
      rw [block_put found]
      by_cases here : id = target
      · rw [if_pos here, here, found]
        exact ⟨congrArg some repaints.planned.signature, fun _ => congrArg some repaints.entityCount⟩
      · rw [if_neg here]
        exact ⟨rfl, fun _ => rfl⟩
  | looked query =>
      obtain ⟨cache, kept⟩ := matching_blocks_store s query
      rw [kept]
      exact ⟨rfl, fun _ => rfl⟩

end Step

section Run

variable {operations before after : List Operation} {answers : List (Outcome Answer)}

theorem operate_all_cons_iff (operation : Operation) (rest : List Operation) :
    s.operateAll registry (operation :: rest) = .ok (answers, last) ↔
      ∃ answer next others, s.operate registry operation = .ok (answer, next) ∧
        next.operateAll registry rest = .ok (others, last) ∧ answers = answer :: others := by
  rw [operateAll, bind_ok_iff]
  constructor
  · rintro ⟨⟨answer, next⟩, done, rest⟩
    obtain ⟨⟨others, final⟩, went, same⟩ := bind_ok_iff.mp rest
    obtain ⟨rfl, rfl⟩ := Prod.mk.inj (Except.ok.inj same)
    exact ⟨answer, next, others, done, went, rfl⟩
  · rintro ⟨answer, next, others, done, went, rfl⟩
    exact ⟨(answer, next), done, bind_ok_iff.mpr ⟨(others, last), went, rfl⟩⟩

theorem operate_all_append (before after : List Operation)
    (ran : s.operateAll registry (before ++ after) = .ok (answers, last)) :
    ∃ earlier mid later, s.operateAll registry before = .ok (earlier, mid) ∧
      mid.operateAll registry after = .ok (later, last) ∧
      s.turns registry (before ++ after) = s.turns registry before + mid.turns registry after := by
  induction before generalizing s answers with
  | nil => exact ⟨[], s, answers, rfl, ran, (Nat.zero_add _).symm⟩
  | cons operation rest ih =>
      obtain ⟨answer, next, others, done, went, _⟩ := (operate_all_cons_iff operation _).mp ran
      obtain ⟨earlier, mid, later, first, second, split⟩ := ih went
      refine ⟨answer :: earlier, mid, later,
        (operate_all_cons_iff operation rest).mpr ⟨answer, next, earlier, done, first, rfl⟩, second, ?_⟩
      simp only [List.cons_append, turns, done, split, Nat.add_assoc]

theorem generation_add (s next : Store) :
    next.generation = s.generation + UInt64.ofNat (next.generation - s.generation).toNat := by
  rw [UInt64.ofNat_toNat, UInt64.add_comm, UInt64.sub_add_cancel]

theorem operate_all_generation (ran : s.operateAll registry operations = .ok (answers, last)) :
    last.generation = s.generation + UInt64.ofNat (s.turns registry operations) := by
  induction operations generalizing s answers with
  | nil =>
      obtain ⟨_, rfl⟩ := Prod.mk.inj (Except.ok.inj ran)
      simp [turns]
  | cons operation rest ih =>
      obtain ⟨answer, next, others, done, went, _⟩ := (operate_all_cons_iff operation rest).mp ran
      rw [ih went, turns, done, UInt64.ofNat_add, ← UInt64.add_assoc, ← generation_add]

theorem operate_all_blocks (ran : s.operateAll registry operations = .ok (answers, last))
    (unturned : s.turns registry operations = 0) (id : BlockId) :
    (last.block? id).map Block.signature = (s.block? id).map Block.signature ∧
      ((∀ operation ∈ operations, operation.recounts = false) →
        (last.block? id).map Block.entityCount = (s.block? id).map Block.entityCount) := by
  induction operations generalizing s answers with
  | nil =>
      obtain ⟨_, rfl⟩ := Prod.mk.inj (Except.ok.inj ran)
      exact ⟨rfl, fun _ => rfl⟩
  | cons operation rest ih =>
      obtain ⟨answer, next, others, done, went, _⟩ := (operate_all_cons_iff operation rest).mp ran
      simp only [turns, done] at unturned
      have still : (next.generation - s.generation).toNat = 0 := by omega
      have same : next.generation = s.generation := by
        rw [generation_add s next, still]
        simp
      obtain ⟨signature, count⟩ := (operate_passes done).blocks same id
      obtain ⟨signatures, counts⟩ := ih went (by omega)
      refine ⟨signatures.trans signature, fun quiet => ?_⟩
      exact (counts fun other member => quiet other (List.mem_cons_of_mem operation member)).trans
        (count (quiet operation List.mem_cons_self))

theorem operate_all_cache (ran : s.operateAll registry operations = .ok (answers, last))
    (blank : s.cache = .empty) {answer : CachedMatch} (found : last.cache.find? query = some answer) :
    ∃ before rest earlier mid, operations = before ++ .matching query :: rest ∧
      s.operateAll registry before = .ok (earlier, mid) ∧ answer = ⟨mid.generation, mid.scan query⟩ := by
  -- The last operation is the one that can have added to what was kept before it.
  induction operations using List.reverseRecOn generalizing answers last with
  | nil =>
      obtain ⟨_, rfl⟩ := Prod.mk.inj (Except.ok.inj ran)
      rw [blank] at found
      simp at found
  | append_singleton operations operation ih =>
      obtain ⟨earlier, mid, later, first, second, _⟩ := operate_all_append operations [operation] ran
      obtain ⟨_, next, _, done, went, _⟩ := (operate_all_cons_iff operation []).mp second
      obtain ⟨_, rfl⟩ := Prod.mk.inj (Except.ok.inj went)
      rcases (operate_passes done).cache found with kept | ⟨rfl, here⟩
      · obtain ⟨before, rest, answers, past, rfl, began, same⟩ := ih first kept
        exact ⟨before, rest ++ [operation], answers, past, by simp, began, same⟩
      · exact ⟨operations, [], earlier, mid, rfl, first, here⟩

end Run

-- The list that a look-up in `s` gives is one that a look-up found in `mid`, from where the
-- operations `after` led to `s`.
structure Serves (registry : Registry) (mid s : Store) (after : List Operation) (query : Signature) (ids : List BlockId) :
    Prop where
  asked : after = [] ∨ ∃ rest, after = .matching query :: rest
  unturned : mid.turns registry after = 0
  found : mid.Lists query ids
  blocks : ∀ id, (s.block? id).map Block.signature = (mid.block? id).map Block.signature
  exact_iff : s.Lists query ids ↔ ∀ id b held, s.block? id = some b → mid.block? id = some held →
    b.signature.isSuperset query = true → (0 < b.entityCount ↔ 0 < held.entityCount)
  exact_of : (∀ operation ∈ after, operation.recounts = false) → s.Lists query ids

theorem lists_iff_of_blocks (found : mid.Lists query ids)
    (blocks : ∀ id, (s.block? id).map Block.signature = (mid.block? id).map Block.signature) :
    s.Lists query ids ↔ ∀ id b held, s.block? id = some b → mid.block? id = some held →
      b.signature.isSuperset query = true → (0 < b.entityCount ↔ 0 < held.entityCount) := by
  obtain ⟨ascends, members⟩ := found
  constructor
  · rintro ⟨_, present⟩ id b held live past superset
    have signature : b.signature = held.signature := by simpa [live, past] using blocks id
    have now : id ∈ ids ↔ 0 < b.entityCount := by
      simp [present, live, Matches, superset]
    have earlier : id ∈ ids ↔ 0 < held.entityCount := by
      simp [members, past, Matches, ← signature, superset]
    exact now.symm.trans earlier
  · intro counts
    refine ⟨ascends, fun id => (members id).trans ?_⟩
    have same := blocks id
    cases live : s.block? id with
    | none =>
        cases past : mid.block? id with
        | none => rfl
        | some held => simp [live, past] at same
    | some b =>
        cases past : mid.block? id with
        | none => simp [live, past] at same
        | some held =>
            have signature : b.signature = held.signature := by simpa [live, past] using same
            have count := counts id b held live past
            simp only [Option.some.injEq, exists_eq_left', Matches, ← signature]
            exact and_congr_right fun superset => (count superset).symm

theorem serves_now (s : Store) (query : Signature) : Serves registry s s [] query (s.scan query) where
  asked := Or.inl rfl
  unturned := rfl
  found := scan_lists s query
  blocks := fun _ => rfl
  exact_iff := lists_iff_of_blocks (scan_lists s query) fun _ => rfl
  exact_of := fun _ => scan_lists s query

theorem serves_since {rest : List Operation} {later : List (Outcome Answer)}
    (went : mid.operateAll registry (.matching query :: rest) = .ok (later, s))
    (unturned : mid.turns registry (.matching query :: rest) = 0) :
    Serves registry mid s (.matching query :: rest) query (mid.scan query) := by
  have blocks := operate_all_blocks went unturned
  have exact_iff := lists_iff_of_blocks (scan_lists mid query) fun id => (blocks id).1
  refine ⟨Or.inr ⟨rest, rfl⟩, unturned, scan_lists mid query, fun id => (blocks id).1, exact_iff,
    fun quiet => exact_iff.mpr fun id b held live past _ => ?_⟩
  have count : b.entityCount = held.entityCount := by
    simpa [live, past] using (blocks id).2 quiet
  rw [count]

/-- In a store of fewer than 2^64 generations, a look-up gives what a look-up of the same query found
in an earlier state (or finds now), since when no generation has begun. The blocks are still those of
that state. The list is that of the matching blocks which now hold enabled entities exactly if each of
them held one then, and no other did; it is if the rows of no block were pushed, removed, disabled or
enabled since then. -/
theorem operate_all_serves (settings : Settings) (registry : Registry) (first : Store)
    (made : create settings = .ok first) (operations : List Operation)
    (answers : List (Outcome Answer)) (s : Store)
    (ran : first.operateAll registry operations = .ok (answers, s))
    (few : first.turns registry operations < 0x10000000000000000) (query : Signature) :
    ∃ before after earlier mid later, operations = before ++ after ∧
      first.operateAll registry before = .ok (earlier, mid) ∧ mid.operateAll registry after = .ok (later, s) ∧
      Serves registry mid s after query (s.matchingBlocks query).1 := by
  rcases matching_blocks_cases s query with now | ⟨_, answer, kept, present, served⟩
  · rw [now]
    exact ⟨operations, [], answers, s, [], (List.append_nil _).symm, ran, rfl, serves_now s query⟩
  · obtain ⟨zero, blank⟩ := create_blank made
    obtain ⟨before, rest, earlier, mid, rfl, began, rfl⟩ := operate_all_cache ran blank kept
    obtain ⟨_, middle, later, again, went, split⟩ := operate_all_append before _ ran
    obtain ⟨_, rfl⟩ := Prod.mk.inj (Except.ok.inj (again.symm.trans began))
    -- Generations are compared as words; below this bound equal words are equal numbers.
    have unturned : middle.turns registry (.matching query :: rest) = 0 := by
      have numbers := congrArg UInt64.toNat present
      rw [operate_all_generation ran, operate_all_generation began, zero] at numbers
      simp only [UInt64.zero_add, UInt64.toNat_ofNat'] at numbers
      omega
    rw [served]
    exact ⟨before, _, earlier, middle, later, rfl, began, went, serves_since went unturned⟩

def lateArrival : List Operation :=
  [.create (.ofList [ComponentType.light.id]), .matching (.ofList [ComponentType.light.id]),
    .rows 0 (.push ⟨0, 1⟩)]

theorem operate_all_serves_light : ∃ first answers s before after earlier mid later,
    create .least = .ok first ∧ first.operateAll .builtins lateArrival = .ok (answers, s) ∧
    first.turns .builtins lateArrival < 0x10000000000000000 ∧ lateArrival = before ++ after ∧
    first.operateAll .builtins before = .ok (earlier, mid) ∧ mid.operateAll .builtins after = .ok (later, s) ∧
    Serves .builtins mid s after (.ofList [ComponentType.light.id])
      (s.matchingBlocks (.ofList [ComponentType.light.id])).1 := by
  obtain ⟨first, answers, s, made, ran, count⟩ : ∃ first answers s,
      create .least = .ok first ∧ first.operateAll .builtins lateArrival = .ok (answers, s) ∧
      first.turns .builtins lateArrival = 1 := ⟨_, _, _, rfl, rfl, rfl⟩
  have few : first.turns .builtins lateArrival < 0x10000000000000000 := by omega
  obtain ⟨before, after, earlier, mid, later, split, began, went, serves⟩ :=
    operate_all_serves .least .builtins first made lateArrival answers s ran few
      (.ofList [ComponentType.light.id])
  exact ⟨first, answers, s, before, after, earlier, mid, later, made, ran, few, split, began, went,
    serves⟩

-- The empty list from before the arrival is served again.
theorem stale_list_served : ∃ first answers s, create .least = .ok first ∧
    first.operateAll .builtins lateArrival = .ok (answers, s) ∧ s.cacheQueries = true ∧
    first.turns .builtins lateArrival < 0x10000000000000000 ∧
    ¬ s.Lists (.ofList [ComponentType.light.id])
      (s.matchingBlocks (.ofList [ComponentType.light.id])).1 := by
  obtain ⟨first, answers, s, made, ran, caches, count, served, live⟩ : ∃ first answers s,
      create .least = .ok first ∧ first.operateAll .builtins lateArrival = .ok (answers, s) ∧
      s.cacheQueries = true ∧ first.turns .builtins lateArrival = 1 ∧
      (s.matchingBlocks (.ofList [ComponentType.light.id])).1 = [] ∧
      s.scan (.ofList [ComponentType.light.id]) = [0] := ⟨_, _, _, rfl, rfl, rfl, rfl, rfl, rfl⟩
  refine ⟨first, answers, s, made, ran, caches, by omega, fun right => ?_⟩
  have same := lists_iff.mp right
  rw [served, live] at same
  contradiction

end EntityStore.Store
