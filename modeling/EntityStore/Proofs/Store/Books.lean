import EntityStore.Proofs.Block.Arrivals
import EntityStore.Proofs.Pool
import EntityStore.Proofs.Settings
import EntityStore.Proofs.Slab
import EntityStore.Proofs.Store.Cache
import EntityStore.Proofs.Store.Scan

set_option autoImplicit false

namespace EntityStore.Store

open Checked

structure Books (s : Store) (registry : Registry) : Prop where
  pool : s.pool.Sound
  clean : s.slab.Clean
  buffers : s.slab.bufferBytes = s.blockBytes
  lent : s.slab.outstanding = s.pool.allocated
  budget : s.slab.capacity = s.pool.capacity
  sizes : ∀ id b, s.block? id = some b → b.payload.size = s.blockBytes
  index : ∀ signature id, id ∈ s.blocksWithSignature signature ↔
    ∃ b, s.block? id = some b ∧ b.signature = signature
  cached : ∀ query answer, s.cache.find? query = some answer → answer.blocks.Pairwise (· < ·)
  layouts : ∀ signature layout, s.layouts.find? signature = some layout →
    Layout.generate signature registry s.capacity s.blockBytes = .ok (.ok layout)

structure Alike (s next : Store) : Prop where
  capacity : next.capacity = s.capacity
  blockBytes : next.blockBytes = s.blockBytes
  policy : next.policy = s.policy
  cacheQueries : next.cacheQueries = s.cacheQueries
  slots : next.pool.capacity = s.pool.capacity

def Learns (s next : Store) : Prop := ∃ layouts, next = { s with layouts }

variable {registry : Registry} {s next last : Store} {id : BlockId} {b nextBlock : Block}

namespace Alike

theorem refl (s : Store) : Alike s s := ⟨rfl, rfl, rfl, rfl, rfl⟩

theorem trans (first : Alike s next) (second : Alike next last) : Alike s last :=
  ⟨second.capacity.trans first.capacity, second.blockBytes.trans first.blockBytes,
    second.policy.trans first.policy, second.cacheQueries.trans first.cacheQueries,
    second.slots.trans first.slots⟩

end Alike

structure Bare (settings : Settings) (registry : Registry) (s : Store) : Prop where
  books : s.Books registry
  capacity : s.capacity = settings.blockCapacity
  blockBytes : s.blockBytes = settings.blockBytes
  slots : s.pool.capacity = settings.maxBlocks
  caches : s.cacheQueries = settings.cacheQueries
  index : s.index = .empty
  vacant : ∀ id, s.block? id = none

theorem create_bare (settings : Settings) (registry : Registry)
    (valid : settings.validate = .ok ()) :
    ∃ s, create settings = .ok s ∧ Bare settings registry s := by
  obtain ⟨_, blocks, even⟩ := settings.valid_bounds valid
  obtain ⟨pool, made, poolSound, slots, allocated, vacant⟩ :=
    Pool.create_ok (α := Block) settings.maxBlocks blocks
  have slab := Slab.create_ok settings.blockBytes settings.maxBlocks even
  let s : Store :=
    { capacity := settings.blockCapacity, blockBytes := settings.blockBytes,
      policy := settings.blockMatch, cacheQueries := settings.cacheQueries, pool,
      slab := ⟨settings.blockBytes, settings.maxBlocks, 0, []⟩, index := .empty, layouts := .empty,
      generation := 0, cache := .empty }
  have noBlock (id : BlockId) : s.block? id = none := vacant id
  refine ⟨s, ?_,
    ⟨poolSound, fun buffer member => ?_, rfl, allocated.symm, slots.symm, fun id b found => ?_,
      fun signature id => ⟨fun member => ?_, fun ⟨b, found, _⟩ => ?_⟩, fun _ _ found => absurd found (by simp [s]),
      fun _ _ found => absurd found (by simp [s])⟩,
    rfl, rfl, slots, rfl, rfl, noBlock⟩
  · simp only [create, made, slab, ok_bind]
    rfl
  · exact absurd member List.not_mem_nil
  · rw [noBlock] at found
    contradiction
  · exact absurd member List.not_mem_nil
  · rw [noBlock] at found
    contradiction

theorem alike_bump (s : Store) : Alike s s.bump := ⟨rfl, rfl, rfl, rfl, rfl⟩

theorem alike_cache (s : Store) (cache : Table Signature CachedMatch) : Alike s { s with cache } :=
  ⟨rfl, rfl, rfl, rfl, rfl⟩

theorem alike_layouts (s : Store) (layouts : Table Signature Layout) : Alike s { s with layouts } :=
  ⟨rfl, rfl, rfl, rfl, rfl⟩

theorem learns_refl (s : Store) : Learns s s := ⟨s.layouts, rfl⟩

theorem alike_put (s : Store) (id : BlockId) (nextBlock : Block) : Alike s (s.put id nextBlock) :=
  ⟨rfl, rfl, rfl, rfl, (Pool.set_frame s.pool id nextBlock).1⟩

theorem books_bump (books : s.Books registry) : s.bump.Books registry :=
  ⟨books.pool, books.clean, books.buffers, books.lent, books.budget, books.sizes, books.index, books.cached,
    books.layouts⟩

theorem matching_blocks_ascend (books : s.Books registry) (query : Signature) :
    (s.matchingBlocks query).1.Pairwise (· < ·) := by
  rcases matching_blocks_cases s query with now | ⟨_, answer, found, _, served⟩
  · rw [now]
    exact scan_ascends s query
  · rw [served]
    exact books.cached query answer found

theorem books_matching (books : s.Books registry) (query : Signature) : (s.matchingBlocks query).2.Books registry := by
  rcases matching_blocks_next s query with same | kept
  · rw [same]
    exact books
  · rw [kept]
    refine ⟨books.pool, books.clean, books.buffers, books.lent, books.budget, books.sizes, books.index,
      fun other answer found => ?_, books.layouts⟩
    rw [Table.find?_insert] at found
    by_cases here : query = other
    · rw [if_pos here] at found
      obtain rfl := Option.some.inj found
      exact scan_ascends s query
    · rw [if_neg here] at found
      exact books.cached other answer found

theorem block_put (found : s.block? id = some b) (nextBlock : Block) (q : BlockId) :
    (s.put id nextBlock).block? q = if q = id then some nextBlock else s.block? q := by
  have pool := Pool.get_set s.pool id nextBlock q
  rw [show s.pool.get? id = some b from found] at pool
  exact pool

theorem put_same (found : s.block? id = some b) : s.put id b = s :=
  congrArg (fun pool => ({ s with pool } : Store)) (Pool.set_same s.pool id b found)

theorem put_put (s : Store) (id : BlockId) (first second : Block) :
    (s.put id first).put id second = s.put id second :=
  congrArg (fun pool => ({ s with pool } : Store)) (Pool.set_set s.pool id first second)

theorem books_put (books : s.Books registry) (found : s.block? id = some b)
    (signature : nextBlock.signature = b.signature)
    (size : nextBlock.payload.size = b.payload.size) : (s.put id nextBlock).Books registry := by
  obtain ⟨slots, allocated, _⟩ := Pool.set_frame s.pool id nextBlock
  have blocks := block_put found nextBlock
  refine ⟨Pool.set_sound books.pool id nextBlock, books.clean, books.buffers,
    books.lent.trans allocated.symm, books.budget.trans slots.symm, fun q other hit => ?_,
    fun wanted q => ?_, books.cached, books.layouts⟩
  · rw [blocks] at hit
    by_cases here : q = id
    · rw [if_pos here] at hit
      exact Option.some.inj hit ▸ size.trans (books.sizes id b found)
    · rw [if_neg here] at hit
      exact books.sizes q other hit
  · refine (books.index wanted q).trans ?_
    rw [blocks]
    by_cases here : q = id
    · rw [if_pos here, here, found]
      simp [signature]
    · rw [if_neg here]

theorem mem_insert_sorted (id other : BlockId) (ids : List BlockId) :
    other ∈ insertSorted id ids ↔ other = id ∨ other ∈ ids := by
  induction ids with
  | nil => simp [insertSorted]
  | cons first rest ih =>
      by_cases before : first < id
      · rw [insertSorted, if_pos before, List.mem_cons, ih, List.mem_cons]
        exact or_left_comm
      · rw [insertSorted, if_neg before, List.mem_cons]

def fullest? : List (BlockId × Block) → Option (BlockId × Block)
  | [] => none
  | first :: rest =>
    match fullest? rest with
    | none => some first
    | some best => some (if first.2.occupied < best.2.occupied then best else first)

theorem fullest_ok (entries : List (BlockId × Block))
    (counted : ∀ entry ∈ entries, entry.2.disabledStart ≤ entry.2.capacity) :
    fullest entries = .ok ((fullest? entries).map fun entry => (entry.1, entry.2.occupied)) := by
  induction entries with
  | nil => rfl
  | cons first rest ih =>
      obtain ⟨here, later⟩ := List.forall_mem_cons.mp counted
      rw [fullest, fullest?, ih later, ok_bind, Block.read_occupied_ok here, ok_bind]
      cases fullest? rest with
      | none => rfl
      | some best =>
          simp only [Option.map_some]
          split <;> rfl

theorem mem_fullest (entries : List (BlockId × Block)) (best : BlockId × Block)
    (chosen : fullest? entries = some best) : best ∈ entries := by
  induction entries generalizing best with
  | nil => simp [fullest?] at chosen
  | cons first rest ih =>
      unfold fullest? at chosen
      cases later : fullest? rest with
      | none =>
          rw [later] at chosen
          exact Option.some.inj chosen ▸ List.mem_cons_self
      | some other =>
          rw [later] at chosen
          by_cases fuller : first.2.occupied < other.2.occupied
          · simp only [if_pos fuller] at chosen
            exact List.mem_cons_of_mem first (ih best (later.trans chosen))
          · simp only [if_neg fuller] at chosen
            exact Option.some.inj chosen ▸ List.mem_cons_self

theorem candidate_eq {entry : BlockId × Block} {other : BlockId}
    (hit : ((s.block? other).bind fun block => if block.hasSpace then some (other, block) else none) =
      some entry) :
    entry.1 = other ∧ s.block? other = some entry.2 ∧ entry.2.entityCount < entry.2.disabledStart := by
  cases found : s.block? other with
  | none =>
      rw [found] at hit
      contradiction
  | some block =>
      rw [found, Option.bind_some] at hit
      by_cases space : block.hasSpace = true
      · rw [if_pos space] at hit
        obtain rfl := Option.some.inj hit
        exact ⟨rfl, rfl, by simpa [Block.hasSpace] using space⟩
      · rw [if_neg space] at hit
        contradiction

theorem candidate_live (books : s.Books registry) {signature : Signature} {entry : BlockId × Block}
    (member : entry ∈ s.candidates signature) : s.block? entry.1 = some entry.2 ∧
      entry.2.signature = signature ∧ entry.2.entityCount < entry.2.disabledStart := by
  obtain ⟨other, listed, hit⟩ := List.mem_filterMap.mp member
  obtain ⟨rfl, found, space⟩ := candidate_eq hit
  obtain ⟨b, there, same⟩ := (books.index signature _).mp listed
  obtain rfl := Option.some.inj (found.symm.trans there)
  exact ⟨found, same, space⟩

def withSpace? (s : Store) (signature : Signature) : Option BlockId :=
  match s.policy with
  | .firstFit => (s.candidates signature).head?.map Prod.fst
  | .mostOccupied => (fullest? (s.candidates signature)).map Prod.fst

theorem with_space_eq (books : s.Books registry)
    (counted : ∀ id b, s.block? id = some b → b.disabledStart ≤ b.capacity) (signature : Signature) :
    s.withSpace signature = .ok (s.withSpace? signature) := by
  unfold withSpace withSpace?
  cases s.policy with
  | firstFit => rfl
  | mostOccupied =>
      have live (entry : BlockId × Block) (member : entry ∈ s.candidates signature) :
          entry.2.disabledStart ≤ entry.2.capacity := counted _ _ (candidate_live books member).1
      simp only [fullest_ok (s.candidates signature) live, ok_bind]
      cases fullest? (s.candidates signature) <;> rfl

theorem with_space_ok (books : s.Books registry) (signature : Signature) (id : BlockId)
    (chosen : s.withSpace? signature = some id) :
    ∃ b, s.block? id = some b ∧ b.signature = signature ∧ b.entityCount < b.disabledStart := by
  unfold withSpace? at chosen
  cases policy : s.policy with
  | firstFit =>
      simp only [policy] at chosen
      obtain ⟨entry, first, rfl⟩ := Option.map_eq_some_iff.mp chosen
      exact ⟨_, candidate_live books (List.mem_of_mem_head? first)⟩
  | mostOccupied =>
      simp only [policy] at chosen
      obtain ⟨entry, best, rfl⟩ := Option.map_eq_some_iff.mp chosen
      exact ⟨_, candidate_live books (mem_fullest _ entry best)⟩

section Create

structure Newborn (s : Store) (registry : Registry) (signature : Signature) (b : Block) : Prop where
  sound : b.Sound registry
  signature : b.signature = signature
  capacity : b.capacity = s.capacity
  payload : b.payload = .zeroed s.blockBytes
  entityCount : b.entityCount = 0
  disabledStart : b.disabledStart = s.capacity

structure Gains (s next : Store) (registry : Registry) (id : BlockId) (b : Block) : Prop where
  books : next.Books registry
  alike : Alike s next
  ages : Ages s next 1
  -- The slot that was freed last.
  takes : s.pool.free = id :: next.pool.free
  vacant : s.block? id = none
  blocks : ∀ q, next.block? q = if q = id then some b else s.block? q
  index : next.index =
    s.index.insert b.signature (insertSorted id (s.blocksWithSignature b.signature))

-- What comes of creating a block: a layout that overflows, an error of the layout, no buffer left,
-- or a block.
inductive Creation (s : Store) (registry : Registry) (signature : Signature) : Prop where
  | overflow (fault : Fault)
      (unmade : Layout.generate signature registry s.capacity s.blockBytes = .error fault)
      (stopped : s.createBlock registry signature = .error fault)
  | layout (error : StoreError)
      (unfit : Layout.generate signature registry s.capacity s.blockBytes = .ok (.error error))
      (refused : s.createBlock registry signature = .ok (.error error, s))
  | slabs (layout : Layout)
      (made : Layout.generate signature registry s.capacity s.blockBytes = .ok (.ok layout))
      (full : s.blockCount = s.pool.capacity) (next : Store) (learns : Learns s next) (books : next.Books registry)
      (refused : s.createBlock registry signature = .ok (.error (.outOfSlabs s.pool.capacity), next))
  | created (layout : Layout)
      (made : Layout.generate signature registry s.capacity s.blockBytes = .ok (.ok layout))
      (room : s.blockCount < s.pool.capacity) (id : BlockId) (b : Block) (next : Store)
      (done : s.createBlock registry signature = .ok (.ok id, next)) (newborn : s.Newborn registry signature b)
      (gains : Gains s next registry id b)

-- The layouts that are kept are the ones that the registry gives.
def Recalls (s : Store) (registry : Registry) : Prop :=
  ∀ signature layout, s.layouts.find? signature = some layout →
    Layout.generate signature registry s.capacity s.blockBytes = .ok (.ok layout)

def build (s : Store) (signature : Signature) (layout : Layout) : Checked (Outcome BlockId × Store) :=
  match s.slab.allocate with
  | none => .ok (.error (.outOfSlabs s.slab.capacity), s)
  | some (payload, slab) => do
    let block ← Block.create layout payload
    match ← s.pool.allocate block with
    | .error block =>
      let slab ← slab.release block.payload
      return (.error (.outOfBlocks s.pool.capacity), { s with slab })
    | .ok (id, pool) =>
      let ids := insertSorted id (s.blocksWithSignature signature)
      return (.ok id, ({ s with slab, pool, index := s.index.insert signature ids } : Store).bump)

section Prepare

variable (recalls : s.Recalls registry) {signature : Signature}

include recalls

theorem prepare_stops {result : Checked (Outcome Layout)} (unmade : ∀ layout, result ≠ .ok (.ok layout))
    (made : Layout.generate signature registry s.capacity s.blockBytes = result) :
    s.prepare registry signature = result.map (·.map fun _ => s) := by
  have unknown : s.layouts.contains signature = false := by
    rw [Table.contains, Option.isSome_eq_false_iff, Option.isNone_iff_eq_none]
    cases found : s.layouts.find? signature with
    | none => rfl
    | some layout => exact absurd (made.symm.trans (recalls signature layout found)) (unmade layout)
  rw [prepare, unknown, if_neg Bool.false_ne_true, made]
  match result, unmade with
  | .error fault, _ => rfl
  | .ok (.error error), _ => rfl
  | .ok (.ok layout), unmade => exact absurd rfl (unmade layout)

theorem prepare_made {layout : Layout}
    (made : Layout.generate signature registry s.capacity s.blockBytes = .ok (.ok layout)) :
    ∃ layouts, s.prepare registry signature = .ok (.ok { s with layouts }) ∧
      layouts.find? signature = some layout ∧ ({ s with layouts } : Store).Recalls registry := by
  cases found : s.layouts.find? signature with
  | some known =>
      obtain rfl := Except.ok.inj (Except.ok.inj (made.symm.trans (recalls signature known found)))
      refine ⟨s.layouts, ?_, found, recalls⟩
      rw [prepare, Table.contains, found]
      rfl
  | none =>
      refine ⟨s.layouts.insert signature layout, ?_, by rw [Table.find?_insert, if_pos rfl], ?_⟩
      · rw [prepare, Table.contains, found, made]
        rfl
      · intro other known hit
        rw [Table.find?_insert] at hit
        by_cases here : signature = other
        · rw [if_pos here] at hit
          obtain rfl := Option.some.inj hit
          exact here ▸ made
        · rw [if_neg here] at hit
          exact recalls other known hit

theorem create_block_built {layout : Layout}
    (made : Layout.generate signature registry s.capacity s.blockBytes = .ok (.ok layout)) :
    ∃ layouts, s.createBlock registry signature = ({ s with layouts } : Store).build signature layout ∧
      ({ s with layouts } : Store).Recalls registry := by
  obtain ⟨layouts, prepared, known, kept⟩ := prepare_made recalls made
  refine ⟨layouts, ?_, kept⟩
  rw [createBlock, prepared]
  simp only [ok_bind, known, entry]
  rfl

end Prepare

theorem listed_insert {pool : Pool Block} (books : s.Books registry) (vacant : s.block? id = none)
    (content : ∀ q, pool.get? q = if q = id then some b else s.block? q)
    (other : Signature) (q : BlockId) :
    q ∈ ((s.index.insert b.signature (insertSorted id (s.blocksWithSignature b.signature))).find?
        other).getD [] ↔ ∃ held, pool.get? q = some held ∧ held.signature = other := by
  rw [Table.find?_insert, content]
  by_cases same : b.signature = other
  · subst same
    rw [if_pos rfl, Option.getD_some, mem_insert_sorted, books.index]
    by_cases here : q = id
    · simp [here]
    · simp [here, block?]
  · rw [if_neg same]
    refine (books.index other q).trans ?_
    by_cases here : q = id
    · simp [here, vacant, same]
    · simp [here, block?]

theorem build_gains (books : s.Books registry) (genuine : registry.Genuine) {signature : Signature}
    {layout : Layout} (made : Layout.generate signature registry s.capacity s.blockBytes = .ok (.ok layout))
    {payload : Buffer} {slab : Slab} (taken : s.slab.allocate = some (payload, slab)) :
    s.blockCount < s.pool.capacity ∧ ∃ id b next, s.build signature layout = .ok (.ok id, next) ∧
      s.Newborn registry signature b ∧ Gains s next registry id b := by
  have lent := books.lent
  have budget := books.budget
  obtain ⟨zeroed, clean, bufferBytes, capacities, out, room⟩ := Slab.allocate_some books.clean payload slab taken
  rw [books.buffers] at zeroed
  obtain ⟨b, opened, sound, signed, capacity, backed, empty, start⟩ :=
    Block.create_ok genuine signature s.capacity s.blockBytes layout made payload zeroed
  rcases Pool.allocate_ok books.pool b with ⟨full, _⟩ |
    ⟨id, pool, allocated, poolSound, slots, takes, count, vacant, content⟩
  -- Each block has a buffer, so the slab runs out first.
  · omega
  subst signed
  let next : Store := ({ s with
    slab, pool, index := s.index.insert b.signature (insertSorted id (s.blocksWithSignature b.signature)) } :
      Store).bump
  have sizes (q : BlockId) (other : Block) (hit : pool.get? q = some other) : other.payload.size = s.blockBytes := by
    rw [content] at hit
    by_cases here : q = id
    · rw [if_pos here] at hit
      obtain rfl := Option.some.inj hit
      rw [backed, zeroed]
      exact Buffer.size_zeroed s.blockBytes
    · rw [if_neg here] at hit
      exact books.sizes q other hit
  refine ⟨by unfold blockCount; omega, id, b, next, ?_, ⟨sound, rfl, capacity, backed.trans zeroed, empty, start⟩,
    ⟨⟨poolSound, clean, bufferBytes.trans books.buffers, ?_, ?_, sizes,
      fun other q => listed_insert books vacant content other q, books.cached, books.layouts⟩,
      ⟨rfl, rfl, rfl, rfl, slots⟩, Ages.of_bump rfl fun _ _ hit => hit, takes, vacant, content, rfl⟩⟩
  · simp only [build, taken, opened, allocated, ok_bind]
    rfl
  · show slab.outstanding = pool.allocated
    rw [out, count, lent]
  · show slab.capacity = pool.capacity
    rw [capacities, slots, budget]

theorem create_block_cases (books : s.Books registry) (genuine : registry.Genuine)
    (signature : Signature) : s.Creation registry signature := by
  cases made : Layout.generate signature registry s.capacity s.blockBytes with
  | error fault =>
      have prepared := prepare_stops books.layouts (fun _ => by simp) made
      exact .overflow fault made (by rw [createBlock, prepared]; rfl)
  | ok outcome =>
      cases outcome with
      | error error =>
          have prepared := prepare_stops books.layouts (fun _ => by simp) made
          exact .layout error made (by rw [createBlock, prepared]; rfl)
      | ok layout =>
          obtain ⟨layouts, built, recalled⟩ := create_block_built books.layouts made
          have informed : ({ s with layouts } : Store).Books registry := { books with layouts := recalled }
          cases taken : s.slab.allocate with
          | none =>
              have spent := Slab.allocate_none taken
              have whole := books.pool.balance
              have lent := books.lent
              have budget := books.budget
              refine .slabs layout made (by unfold blockCount; omega) _ ⟨layouts, rfl⟩ informed ?_
              simp only [built, build, taken, budget]
          | some result =>
              obtain ⟨payload, slab⟩ := result
              obtain ⟨room, id, b, next, done, newborn, gains⟩ := build_gains informed genuine made taken
              -- What is gained does not turn on the layouts that are kept.
              exact .created layout made room id b next (built.trans done) { newborn with }
                { gains with
                  alike := { gains.alike with }
                  ages := ⟨gains.ages.generation, fun before fresh => gains.ages.fresh before { fresh with }⟩ }

end Create

section Free

def unlist (index : Table Signature (List BlockId)) (signature : Signature) (id : BlockId) :
    Table Signature (List BlockId) :=
  match index.find? signature with
  | none => index
  | some ids =>
    let rest := ids.filter (· ≠ id)
    if rest.isEmpty then index.erase signature else index.insert signature rest

theorem listed_unlist (index : Table Signature (List BlockId)) (signature : Signature)
    (id : BlockId) (other : Signature) : ((unlist index signature id).find? other).getD [] =
      if signature = other then ((index.find? other).getD []).filter (· ≠ id)
      else (index.find? other).getD [] := by
  unfold unlist
  cases found : index.find? signature with
  | none =>
      by_cases same : signature = other
      · subst same
        simp [found]
      · rw [if_neg same]
  | some ids =>
      dsimp only
      by_cases empty : (ids.filter (· ≠ id)).isEmpty = true
      · rw [if_pos empty, Table.find?_erase]
        by_cases same : signature = other
        · subst same
          rw [if_pos rfl, if_pos rfl, found]
          exact (List.isEmpty_iff.mp empty).symm
        · rw [if_neg same, if_neg same]
      · rw [if_neg empty, Table.find?_insert]
        by_cases same : signature = other
        · subst same
          rw [if_pos rfl, if_pos rfl, found, Option.getD_some, Option.getD_some]
        · rw [if_neg same, if_neg same]

structure Loses (s next : Store) (registry : Registry) (id : BlockId) (b : Block) : Prop where
  books : next.Books registry
  alike : Alike s next
  ages : Ages s next 1
  blocks : ∀ q, next.block? q = if q = id then none else s.block? q
  index : next.index = unlist s.index b.signature id

theorem destroy_block_live (books : s.Books registry) (found : s.block? id = some b) :
    ∃ next, s.destroyBlock id = .ok next ∧ Loses s next registry id b := by
  obtain ⟨pool, released, poolSound, slots, count, content⟩ :=
    Pool.release_ok books.pool id b found
  have lent := books.lent
  obtain ⟨slab, returned, clean, bytes, capacities, out⟩ := Slab.release_ok books.clean b.payload
    ((books.sizes id b found).trans books.buffers.symm) (by omega)
  have listed := listed_unlist s.index b.signature id
  let index := unlist s.index b.signature id
  let next : Store := { s with pool, index, slab }.bump
  refine ⟨next, ?_,
    ⟨⟨poolSound, clean, bytes.trans books.buffers, ?_, ?_, fun q other hit => ?_,
      fun signature q => ?_, books.cached, books.layouts⟩, ⟨rfl, rfl, rfl, rfl, slots⟩,
      Ages.of_bump rfl fun _ _ hit => hit, content, rfl⟩⟩
  · simp only [destroyBlock, released, ok_bind, returned]
    rfl
  · show slab.outstanding = pool.allocated
    omega
  · show slab.capacity = pool.capacity
    rw [capacities, slots, books.budget]
  · have hit : pool.get? q = some other := hit
    rw [content] at hit
    by_cases here : q = id
    · rw [if_pos here] at hit
      contradiction
    · rw [if_neg here] at hit
      exact books.sizes q other hit
  · show q ∈ (index.find? signature).getD [] ↔
      ∃ held, pool.get? q = some held ∧ held.signature = signature
    have before := books.index signature q
    unfold blocksWithSignature block? at before
    rw [listed, content]
    by_cases here : q = id
    · rw [if_pos here, here]
      rw [here, show s.pool.get? id = some b from found] at before
      by_cases same : b.signature = signature
      · simp [same]
      · rw [if_neg same, before]
        simp [same]
    · rw [if_neg here]
      refine Iff.trans ?_ before
      by_cases same : b.signature = signature
      · simp [same, here]
      · rw [if_neg same]

theorem destroy_block_dead (missing : s.block? id = none) : s.destroyBlock id = .ok s := by
  have released : s.pool.release id = .ok none := by
    rw [Pool.release, show s.pool.get? id = none from missing]
  simp only [destroyBlock, released, ok_bind]
  rfl

theorem release_all_ok (blockBytes : Nat) (blocks : List Block) (slab : Slab) (clean : slab.Clean)
    (buffers : slab.bufferBytes = blockBytes) (lent : slab.outstanding = blocks.length)
    (sizes : ∀ b ∈ blocks, b.payload.size = blockBytes) :
    ∃ next, releaseAll slab blocks = .ok next ∧ next.Clean ∧ next.bufferBytes = blockBytes ∧
      next.capacity = slab.capacity ∧ next.outstanding = 0 := by
  induction blocks generalizing slab with
  | nil => exact ⟨slab, rfl, clean, buffers, rfl, lent⟩
  | cons b rest ih =>
      rw [List.length_cons] at lent
      obtain ⟨middle, released, clean', bytes, capacities, out⟩ := Slab.release_ok clean b.payload
        ((sizes b List.mem_cons_self).trans buffers.symm) (by omega)
      obtain ⟨next, done, nextClean, nextBytes, kept, none⟩ := ih middle clean' (bytes.trans buffers)
        (by omega) fun other member => sizes other (List.mem_cons_of_mem b member)
      refine ⟨next, ?_, nextClean, nextBytes, kept.trans capacities, none⟩
      rw [releaseAll, released]
      exact done

theorem clear_books (books : s.Books registry) :
    ∃ next, s.clear = .ok next ∧ next.Books registry ∧ Alike s next ∧ Ages s next 1 ∧
      (∀ q, next.block? q = none) ∧ next.index = .empty := by
  obtain ⟨values, poolSound, slots, allocated, content⟩ := Pool.drain_ok s.pool
  have sizes : ∀ b ∈ s.pool.drain.1, b.payload.size = s.blockBytes := by
    rw [values]
    intro b member
    obtain ⟨⟨id, b⟩, listed, rfl⟩ := List.mem_map.mp member
    exact books.sizes id b ((Pool.mem_entries s.pool id b).mp listed)
  have lent : s.slab.outstanding = s.pool.drain.1.length := by
    rw [values, List.length_map, ← Pool.allocated_eq books.pool, books.lent]
  obtain ⟨slab, released, clean, bytes, capacities, out⟩ :=
    release_all_ok s.blockBytes _ s.slab books.clean books.buffers lent sizes
  let next : Store :=
    { s with pool := s.pool.drain.2, slab, index := .empty, cache := .empty }.bump
  refine ⟨next, ?_,
    ⟨poolSound, clean, bytes, out.trans allocated.symm,
      capacities.trans (books.budget.trans slots.symm), fun q b hit => ?_, fun signature q => ?_,
      fun _ _ found => by simp [next, bump] at found, books.layouts⟩,
    ⟨rfl, rfl, rfl, rfl, slots⟩, Ages.of_bump rfl fun _ _ hit => ?_, content, rfl⟩
  · simp only [clear, released, ok_bind]
    rfl
  · exact absurd ((content q).symm.trans hit) (by simp)
  · constructor
    · exact fun member => absurd member List.not_mem_nil
    · rintro ⟨b, hit, _⟩
      exact absurd ((content q).symm.trans hit) (by simp)
  · exact absurd hit (by simp [next, bump])

end Free

end EntityStore.Store
