import EntityStore.Proofs.Store.Books

set_option autoImplicit false

namespace EntityStore.Store

open Checked

structure Keeps (s : Store) (registry : Registry) (b : Block) : Prop where
  sound : b.Sound registry
  capacity : b.capacity = s.capacity
  size : b.payload.size = s.blockBytes

structure Sound (s : Store) (registry : Registry) : Prop where
  genuine : registry.Genuine
  positive : 0 < s.capacity
  -- So every row is a position.
  narrow : s.capacity < UInt32.size
  pool : s.pool.Sound
  clean : s.slab.Clean
  buffers : s.slab.bufferBytes = s.blockBytes
  lent : s.slab.outstanding = s.pool.allocated
  budget : s.slab.capacity = s.pool.capacity
  keeps : ∀ id b, s.block? id = some b → s.Keeps registry b
  index : ∀ signature id, id ∈ s.blocksWithSignature signature ↔
    ∃ b, s.block? id = some b ∧ b.signature = signature
  cached : ∀ query answer, s.cache.find? query = some answer → answer.blocks.Pairwise (· < ·)
  layouts : ∀ signature layout, s.layouts.find? signature = some layout →
    Layout.generate signature registry s.capacity s.blockBytes = .ok (.ok layout)

def Overflows (s : Store) (registry : Registry) (signature : Signature) (fault : Fault) : Prop :=
  Layout.generate signature registry s.capacity s.blockBytes = .error fault

-- Why no block can be created for a signature: no layout suits it, or all buffers are lent.
inductive Cramped (s : Store) (registry : Registry) (signature : Signature) : StoreError → Prop where
  | layout (error : StoreError) (unfit : Layout.generate signature registry s.capacity s.blockBytes =
      .ok (.error error)) : Cramped s registry signature error
  | slabs (spent : s.slab.capacity ≤ s.slab.outstanding) :
      Cramped s registry signature (.outOfSlabs s.slab.capacity)

variable {registry : Registry} {s next last : Store} {id : BlockId} {b nextBlock : Block}

theorem Sound.books (sound : s.Sound registry) : s.Books registry :=
  ⟨sound.pool, sound.clean, sound.buffers, sound.lent, sound.budget,
    fun id b found => (sound.keeps id b found).size, sound.index, sound.cached, sound.layouts⟩

theorem Cramped.expected {signature : Signature} {error : StoreError}
    (cramped : s.Cramped registry signature error) : error.Expected := by
  cases cramped with
  | layout _ unfit => exact Layout.generate_expected _ _ _ _ unfit
  | slabs => exact fun _ => by simp

namespace Alike

theorem keeps (same : Alike s next) (b : Block) : next.Keeps registry b ↔ s.Keeps registry b := by
  constructor
  · intro kept
    exact ⟨kept.sound, same.capacity ▸ kept.capacity, same.blockBytes ▸ kept.size⟩
  · intro kept
    exact ⟨kept.sound, same.capacity.symm ▸ kept.capacity, same.blockBytes.symm ▸ kept.size⟩

theorem overflows (same : Alike s next) (signature : Signature) (fault : Fault) :
    next.Overflows registry signature fault ↔ s.Overflows registry signature fault := by
  unfold Overflows
  rw [same.capacity, same.blockBytes]

end Alike

theorem sound_of_books (sound : s.Sound registry) (books : next.Books registry) (alike : Alike s next)
    (keeps : ∀ id b, next.block? id = some b → s.Keeps registry b) : next.Sound registry :=
  ⟨sound.genuine, alike.capacity ▸ sound.positive, alike.capacity ▸ sound.narrow, books.pool,
    books.clean, books.buffers, books.lent, books.budget, fun id b found => (alike.keeps b).mpr (keeps id b found),
    books.index, books.cached, books.layouts⟩

theorem keeps_framed (kept : s.Keeps registry b) (sound : nextBlock.Sound registry)
    (frame : Block.Framed b nextBlock) : s.Keeps registry nextBlock :=
  ⟨sound, frame.capacity.trans kept.capacity, frame.size.trans kept.size⟩

theorem sound_bump (sound : s.Sound registry) : s.bump.Sound registry :=
  sound_of_books sound (books_bump sound.books) (alike_bump s) sound.keeps

theorem sound_matching (sound : s.Sound registry) (query : Signature) : (s.matchingBlocks query).2.Sound registry := by
  obtain ⟨cache, same⟩ := matching_blocks_store s query
  have books := books_matching sound.books query
  rw [same] at books ⊢
  exact sound_of_books sound books (alike_cache s cache) sound.keeps

theorem sound_put (sound : s.Sound registry) (found : s.block? id = some b)
    (nextSound : nextBlock.Sound registry) (frame : Block.Framed b nextBlock) :
    (s.put id nextBlock).Sound registry := by
  refine sound_of_books sound (books_put sound.books found frame.signature frame.size)
    (alike_put s id nextBlock) fun q other hit => ?_
  rw [block_put found] at hit
  by_cases here : q = id
  · rw [if_pos here] at hit
    exact Option.some.inj hit ▸ keeps_framed (sound.keeps id b found) nextSound frame
  · rw [if_neg here] at hit
    exact sound.keeps q other hit

section Create

theorem newborn_keeps {signature : Signature} (newborn : s.Newborn registry signature b) : s.Keeps registry b :=
  ⟨newborn.sound, newborn.capacity, by rw [newborn.payload, Buffer.size_zeroed]⟩

theorem create_block_ok (sound : s.Sound registry) (signature : Signature) :
    Ensures (s.Overflows registry signature) (s.createBlock registry signature) fun (outcome, next) =>
      next.Sound registry ∧ Alike s next ∧ (∃ turns ≤ 1, Ages s next turns) ∧
        match outcome with
        | .error error => Learns s next ∧ s.Cramped registry signature error
        | .ok id => s.block? id = none ∧ ∃ b, b.signature = signature ∧ b.occupied = 0 ∧
            b.entityCount < b.disabledStart ∧
            ∀ q, next.block? q = if q = id then some b else s.block? q := by
  have same : ∃ turns ≤ 1, Ages s s turns := ⟨0, by omega, Ages.of_same rfl rfl fun _ => rfl⟩
  cases create_block_cases sound.books sound.genuine signature with
  | overflow fault unmade stopped =>
      rw [stopped]
      exact unmade
  | layout error unfit refused =>
      rw [refused]
      exact ⟨sound, Alike.refl s, same, learns_refl s, .layout error unfit⟩
  | slabs layout made full next learns books refused =>
      rw [refused]
      have spent : s.slab.capacity ≤ s.slab.outstanding := by
        rw [sound.lent, sound.budget]
        exact Nat.le_of_eq full.symm
      obtain ⟨layouts, rfl⟩ := learns
      exact ⟨sound_of_books sound books (alike_layouts s layouts) sound.keeps, alike_layouts s layouts,
        ⟨0, by omega, Ages.of_same rfl rfl fun _ => rfl⟩, ⟨layouts, rfl⟩, sound.budget ▸ .slabs spent⟩
  | created layout made room id b next done newborn gains =>
      rw [done]
      refine ⟨sound_of_books sound gains.books gains.alike fun q other hit => ?_, gains.alike,
        ⟨1, by omega, gains.ages⟩, gains.vacant, b, newborn.signature, ?_, ?_, gains.blocks⟩
      · rw [gains.blocks] at hit
        by_cases here : q = id
        · rw [if_pos here] at hit
          exact Option.some.inj hit ▸ newborn_keeps newborn
        · rw [if_neg here] at hit
          exact sound.keeps q other hit
      · simp [Block.occupied, Block.disabledCount, newborn.entityCount, newborn.disabledStart,
          newborn.capacity]
      · rw [newborn.entityCount, newborn.disabledStart]
        exact sound.positive

end Create

section Acquire

structure Room (s next : Store) (signature : Signature) (id : BlockId) (b : Block) : Prop where
  found : next.block? id = some b
  signature : b.signature = signature
  space : b.entityCount < b.disabledStart
  others : ∀ q, q ≠ id → next.block? q = s.block? q
  kept : s.block? id = some b ∨ s.block? id = none ∧ b.occupied = 0

theorem acquire_ok (sound : s.Sound registry) (signature : Signature) :
    Ensures (s.Overflows registry signature) (s.acquire registry signature) fun (outcome, next) =>
      next.Sound registry ∧ Alike s next ∧ (∃ turns ≤ 1, Ages s next turns) ∧
        match outcome with
        | .error error => Learns s next ∧ s.Cramped registry signature error
        | .ok id => ∃ b, Room s next signature id b := by
  rw [acquire, with_space_eq sound.books (fun id b found => (sound.keeps id b found).sound.disabled_le), ok_bind]
  cases chosen : s.withSpace? signature with
  | some id =>
      obtain ⟨b, found, same, space⟩ := with_space_ok sound.books signature id chosen
      exact ⟨sound, Alike.refl s, ⟨0, by omega, Ages.of_same rfl rfl fun _ => rfl⟩, b, found, same,
        space, fun _ _ => rfl, Or.inl found⟩
  | none =>
      refine ensures_mono (create_block_ok sound signature) (fun _ stopped => stopped) ?_
      rintro ⟨outcome, next⟩ ⟨nextSound, alike, ages, blocks⟩
      refine ⟨nextSound, alike, ages, ?_⟩
      cases outcome with
      | error error => exact blocks
      | ok id =>
          obtain ⟨vacant, b, same, empty, space, blocks⟩ := blocks
          exact ⟨b, (blocks id).trans (if_pos rfl), same, space,
            fun q away => (blocks q).trans (if_neg away), Or.inr ⟨vacant, empty⟩⟩

end Acquire

section Free

theorem destroy_block_ok (sound : s.Sound registry) (found : s.block? id = some b) :
    ∃ next, s.destroyBlock id = .ok next ∧ next.Sound registry ∧ Alike s next ∧ Ages s next 1 ∧
      ∀ q, next.block? q = if q = id then none else s.block? q := by
  obtain ⟨next, done, loses⟩ := destroy_block_live sound.books found
  refine ⟨next, done, sound_of_books sound loses.books loses.alike fun q other hit => ?_,
    loses.alike, loses.ages, loses.blocks⟩
  rw [loses.blocks] at hit
  by_cases here : q = id
  · rw [if_pos here] at hit
    contradiction
  · rw [if_neg here] at hit
    exact sound.keeps q other hit

theorem release_if_empty_ok (sound : s.Sound registry) (found : s.block? id = some b) :
    ∃ told next, s.releaseIfEmpty id = .ok (told, next) ∧ next.Sound registry ∧ Alike s next ∧
      (∃ turns ≤ 1, Ages s next turns) ∧
      ∀ q, next.block? q = if q = id ∧ b.occupied = 0 then none else s.block? q := by
  have counted := Block.read_empty_ok (sound.keeps id b found).sound.disabled_le
  unfold releaseIfEmpty
  by_cases empty : b.occupied = 0
  · obtain ⟨next, done, nextSound, alike, ages, blocks⟩ := destroy_block_ok sound found
    refine ⟨true, next, ?_, nextSound, alike, ⟨1, by omega, ages⟩, fun q => ?_⟩
    · simp only [found, counted, empty, decide_true, ok_bind, if_true, done]
      rfl
    · rw [blocks]
      simp only [empty, and_true]
  · refine ⟨false, s, ?_, sound, Alike.refl s, ⟨0, by omega, Ages.of_same rfl rfl fun _ => rfl⟩,
      fun q => ?_⟩
    · simp only [found, counted, empty, decide_false, ok_bind, Bool.false_eq_true, if_false]
      rfl
    · rw [if_neg fun both => empty both.2]

theorem clear_ok (sound : s.Sound registry) :
    ∃ next, s.clear = .ok next ∧ next.Sound registry ∧ Alike s next ∧ Ages s next 1 ∧
      ∀ q, next.block? q = none := by
  obtain ⟨next, done, books, alike, ages, content, _⟩ := clear_books sound.books
  refine ⟨next, done, sound_of_books sound books alike fun q b hit => ?_, alike, ages, content⟩
  exact absurd ((content q).symm.trans hit) (by simp)

end Free

end EntityStore.Store
