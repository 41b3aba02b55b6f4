import EntityStore.Proofs.Block.Shaped
import EntityStore.Proofs.Store.Books
import EntityStore.Store.Operation

set_option autoImplicit false

namespace EntityStore.Store

open Checked

structure Tidy (index : Table Signature (List BlockId)) : Prop where
  ascending : ∀ signature, ((index.find? signature).getD []).Pairwise (· < ·)
  kept : ∀ signature, index.find? signature ≠ some []

structure Standing (s : Store) (registry : Registry) : Prop extends Books s registry where
  genuine : registry.Genuine
  positive : 0 < s.capacity
  shaped : ∀ id b, s.block? id = some b → b.Shaped registry
  capacities : ∀ id b, s.block? id = some b → b.capacity = s.capacity
  tidy : Tidy s.index

-- Where an operation may stop: the layout of its signature overflows, the operation on the rows is
-- refused, or the copy is from or to a row that no block has.
inductive Operation.Stops (registry : Registry) (capacity blockBytes : Nat) :
    Operation → Fault → Prop where
  | acquire (signature : Signature) (fault : Fault)
      (overflow : Layout.generate signature registry capacity blockBytes = .error fault) :
      Stops registry capacity blockBytes (.acquire signature) fault
  | insert (signature : Signature) (entity : Entity) (fault : Fault)
      (overflow : Layout.generate signature registry capacity blockBytes = .error fault) :
      Stops registry capacity blockBytes (.insert signature entity) fault
  | create (signature : Signature) (fault : Fault)
      (overflow : Layout.generate signature registry capacity blockBytes = .error fault) :
      Stops registry capacity blockBytes (.create signature) fault
  | rows (id : BlockId) (operation : Block.Operation) (fault : Fault)
      (asserted : operation.Asserts fault) :
      Stops registry capacity blockBytes (.rows id operation) fault
  | copy (target : BlockId) (row : Nat) (source : BlockId) (sourceRow : Nat) (fault : Fault)
      (outside : ¬ (row < capacity ∧ sourceRow < capacity)) :
      Stops registry capacity blockBytes (.copy target row source sourceRow) fault

variable {registry : Registry} {s next : Store} {id : BlockId} {b nextBlock : Block}

theorem Standing.counted (standing : s.Standing registry) (id : BlockId) (b : Block)
    (found : s.block? id = some b) : b.disabledStart ≤ b.capacity := (standing.shaped id b found).disabled_le

section Index

variable {index : Table Signature (List BlockId)}

theorem insert_sorted_ascends (id : BlockId) (ids : List BlockId) (ascending : ids.Pairwise (· < ·))
    (away : id ∉ ids) : (insertSorted id ids).Pairwise (· < ·) := by
  induction ids with
  | nil => exact List.pairwise_singleton _ id
  | cons first rest ih =>
      obtain ⟨above, later⟩ := List.pairwise_cons.mp ascending
      rw [List.mem_cons, not_or] at away
      obtain ⟨other, missing⟩ := away
      by_cases before : first < id
      · rw [insertSorted, if_pos before]
        refine List.pairwise_cons.mpr ⟨fun q member => ?_, ih later missing⟩
        rcases (mem_insert_sorted id q rest).mp member with here | there
        · exact here ▸ before
        · exact above q there
      · rw [insertSorted, if_neg before]
        have after : id < first := Nat.lt_of_le_of_ne (Nat.le_of_not_lt before) other
        refine List.pairwise_cons.mpr ⟨fun q member => ?_, ascending⟩
        rcases List.mem_cons.mp member with here | there
        · exact here ▸ after
        · exact Nat.lt_trans after (above q there)

theorem tidy_empty : Tidy .empty := by
  refine ⟨fun signature => ?_, fun signature => ?_⟩ <;> simp

theorem tidy_insert (tidy : Tidy index) (signature : Signature)
    (away : id ∉ (index.find? signature).getD []) :
    Tidy (index.insert signature (insertSorted id ((index.find? signature).getD []))) := by
  refine ⟨fun other => ?_, fun other => ?_⟩
  · rw [Table.find?_insert]
    by_cases same : signature = other
    · rw [if_pos same]
      exact insert_sorted_ascends id _ (tidy.ascending signature) away
    · rw [if_neg same]
      exact tidy.ascending other
  · rw [Table.find?_insert]
    by_cases same : signature = other
    · rw [if_pos same]
      intro nothing
      have member := (mem_insert_sorted id id ((index.find? signature).getD [])).mpr (Or.inl rfl)
      rw [Option.some.inj nothing] at member
      exact absurd member List.not_mem_nil
    · rw [if_neg same]
      exact tidy.kept other

theorem tidy_unlist (tidy : Tidy index) (signature : Signature) (id : BlockId) :
    Tidy (unlist index signature id) := by
  refine ⟨fun other => ?_, fun other => ?_⟩
  · rw [listed_unlist]
    by_cases same : signature = other
    · rw [if_pos same]
      exact (tidy.ascending other).filter _
    · rw [if_neg same]
      exact tidy.ascending other
  · unfold unlist
    cases found : index.find? signature with
    | none => exact tidy.kept other
    | some ids =>
        dsimp only
        by_cases empty : (ids.filter (· ≠ id)).isEmpty = true
        · rw [if_pos empty, Table.find?_erase]
          by_cases same : signature = other
          · simp [same]
          · rw [if_neg same]
            exact tidy.kept other
        · rw [if_neg empty, Table.find?_insert]
          by_cases same : signature = other
          · rw [if_pos same]
            intro nothing
            rw [Option.some.inj nothing] at empty
            exact empty rfl
          · rw [if_neg same]
            exact tidy.kept other

end Index

section Steps

theorem standing_of_books (standing : s.Standing registry) (books : next.Books registry) (alike : Alike s next)
    (blocks : ∀ q b, next.block? q = some b → b.Shaped registry ∧ b.capacity = s.capacity)
    (tidy : Tidy next.index) : next.Standing registry :=
  { books with
    genuine := standing.genuine
    positive := alike.capacity ▸ standing.positive
    shaped := fun q b found => (blocks q b found).1
    capacities := fun q b found => (blocks q b found).2.trans alike.capacity.symm
    tidy }

theorem standing_blocks (standing : s.Standing registry) (q : BlockId) (b : Block)
    (found : s.block? q = some b) : b.Shaped registry ∧ b.capacity = s.capacity :=
  ⟨standing.shaped q b found, standing.capacities q b found⟩

theorem standing_bump (standing : s.Standing registry) : s.bump.Standing registry :=
  standing_of_books standing (books_bump standing.toBooks) (alike_bump s)
    (fun q b (found : s.block? q = some b) => standing_blocks standing q b found) standing.tidy

theorem standing_put (standing : s.Standing registry) (found : s.block? id = some b)
    (shaped : nextBlock.Shaped registry) (planned : Block.Planned b nextBlock) :
    (s.put id nextBlock).Standing registry := by
  refine standing_of_books standing (books_put standing.toBooks found planned.signature planned.size)
    (alike_put s id nextBlock) (fun q other hit => ?_) standing.tidy
  rw [block_put found] at hit
  by_cases here : q = id
  · rw [if_pos here] at hit
    obtain rfl := Option.some.inj hit
    exact ⟨shaped, planned.capacity.trans (standing.capacities id b found)⟩
  · rw [if_neg here] at hit
    exact standing_blocks standing q other hit

theorem standing_gains {signature : Signature} (standing : s.Standing registry)
    (newborn : s.Newborn registry signature b) (gains : Gains s next registry id b) : next.Standing registry := by
  refine standing_of_books standing gains.books gains.alike (fun q other hit => ?_) ?_
  · rw [gains.blocks] at hit
    by_cases here : q = id
    · rw [if_pos here] at hit
      obtain rfl := Option.some.inj hit
      exact ⟨newborn.sound.shaped, newborn.capacity⟩
    · rw [if_neg here] at hit
      exact standing_blocks standing q other hit
  · rw [gains.index]
    refine tidy_insert standing.tidy b.signature fun listed => ?_
    obtain ⟨held, found, _⟩ := (standing.index b.signature id).mp listed
    exact absurd (gains.vacant.symm.trans found) (by simp)

theorem standing_loses (standing : s.Standing registry) (loses : Loses s next registry id b) : next.Standing registry := by
  refine standing_of_books standing loses.books loses.alike (fun q other hit => ?_) ?_
  · rw [loses.blocks] at hit
    by_cases here : q = id
    · rw [if_pos here] at hit
      contradiction
    · rw [if_neg here] at hit
      exact standing_blocks standing q other hit
  · rw [loses.index]
    exact tidy_unlist standing.tidy b.signature id

theorem standing_layouts (standing : s.Standing registry) (layouts : Table Signature Layout)
    (books : ({ s with layouts } : Store).Books registry) : ({ s with layouts } : Store).Standing registry :=
  standing_of_books standing books (alike_layouts s layouts)
    (fun q b (found : s.block? q = some b) => standing_blocks standing q b found) standing.tidy

def Served (s : Store) (registry : Registry) (signature : Signature) : Outcome BlockId × Store → Prop
  | (.error error, next) => next.Standing registry ∧ Alike s next ∧ error.Expected
  | (.ok id, next) => next.Standing registry ∧ Alike s next ∧
      ∃ b, next.block? id = some b ∧ b.signature = signature ∧ b.entityCount < b.disabledStart

theorem create_block_served (standing : s.Standing registry) (signature : Signature) :
    Ensures (Layout.generate signature registry s.capacity s.blockBytes = .error ·)
      (s.createBlock registry signature) (Served s registry signature) := by
  cases create_block_cases standing.toBooks standing.genuine signature with
  | overflow fault unmade stopped =>
      rw [stopped]
      exact unmade
  | layout error unfit refused =>
      rw [refused]
      exact ⟨standing, Alike.refl s, Layout.generate_expected _ _ _ _ unfit⟩
  | slabs layout made full next learns books refused =>
      rw [refused]
      obtain ⟨layouts, rfl⟩ := learns
      exact ⟨standing_layouts standing layouts books, alike_layouts s layouts, fun _ => by simp⟩
  | created layout made room id b next done newborn gains =>
      rw [done]
      refine ⟨standing_gains standing newborn gains, gains.alike, b,
        (gains.blocks id).trans (if_pos rfl), newborn.signature, ?_⟩
      rw [newborn.entityCount, newborn.disabledStart]
      exact standing.positive

theorem acquire_served (standing : s.Standing registry) (signature : Signature) :
    Ensures (Layout.generate signature registry s.capacity s.blockBytes = .error ·)
      (s.acquire registry signature) (Served s registry signature) := by
  rw [acquire, with_space_eq standing.toBooks standing.counted, ok_bind]
  cases chosen : s.withSpace? signature with
  | some id => exact ⟨standing, Alike.refl s, with_space_ok standing.toBooks signature id chosen⟩
  | none => exact create_block_served standing signature

def Stays {α : Type} (s : Store) (registry : Registry) : Outcome α × Store → Prop
  | (outcome, next) =>
    next.Standing registry ∧ Alike s next ∧ ∀ error, outcome = .error error → error.Expected

theorem served_stays {signature : Signature} (result : Outcome BlockId × Store) (served : Served s registry signature result) : Stays s registry result := by
  obtain ⟨outcome, next⟩ := result
  cases outcome with
  | error error =>
      obtain ⟨nextStanding, alike, expected⟩ := served
      exact ⟨nextStanding, alike, fun _ same => Except.error.inj same ▸ expected⟩
  | ok id => exact ⟨served.1, served.2.1, fun _ same => by contradiction⟩

theorem insert_stays (standing : s.Standing registry) (signature : Signature) (entity : Entity) :
    Ensures (Layout.generate signature registry s.capacity s.blockBytes = .error ·)
      (s.insert registry signature entity) (Stays s registry) := by
  unfold insert
  refine ensures_bind _ (acquire_served standing signature) fun result served => ?_
  obtain ⟨outcome, middle⟩ := result
  cases outcome with
  | error error =>
      obtain ⟨middleStanding, alike, expected⟩ := served
      exact ⟨middleStanding, alike, fun _ same => Except.error.inj same ▸ expected⟩
  | ok id =>
      obtain ⟨middleStanding, alike, b, found, _, space⟩ := served
      have shaped := middleStanding.shaped id b found
      rcases Block.push_shaped shaped middleStanding.genuine entity with
        ⟨_, next, done, nextShaped, planned⟩ | ⟨full, _⟩
      · simp only [found, done, ok_bind]
        exact ⟨standing_bump (standing_put middleStanding found nextShaped planned),
          (alike.trans (alike_put middle id next)).trans (alike_bump _),
          fun _ same => by contradiction⟩
      · exact absurd space full

theorem destroy_block_stays (standing : s.Standing registry) (id : BlockId) :
    ∃ next, s.destroyBlock id = .ok next ∧ next.Standing registry ∧ Alike s next := by
  cases found : s.block? id with
  | none => exact ⟨s, destroy_block_dead found, standing, Alike.refl s⟩
  | some b =>
      obtain ⟨next, done, loses⟩ := destroy_block_live standing.toBooks found
      exact ⟨next, done, standing_loses standing loses, loses.alike⟩

theorem release_if_empty_stays (standing : s.Standing registry) (id : BlockId) :
    ∃ told next, s.releaseIfEmpty id = .ok (told, next) ∧ next.Standing registry ∧ Alike s next := by
  rw [releaseIfEmpty]
  cases found : s.block? id with
  | none => exact ⟨false, s, rfl, standing, Alike.refl s⟩
  | some b =>
      simp only [(standing.shaped id b found).read_empty, ok_bind]
      by_cases empty : b.occupied = 0
      · obtain ⟨next, done, nextStanding, alike⟩ := destroy_block_stays standing id
        refine ⟨true, next, ?_, nextStanding, alike⟩
        rw [if_pos (decide_eq_true empty), done]
        rfl
      · refine ⟨false, s, ?_, standing, Alike.refl s⟩
        rw [decide_eq_false empty, if_neg Bool.false_ne_true]
        rfl

theorem clear_stays (standing : s.Standing registry) :
    ∃ next, s.clear = .ok next ∧ next.Standing registry ∧ Alike s next := by
  obtain ⟨next, done, books, alike, _, vacant, index⟩ := clear_books standing.toBooks
  refine ⟨next, done, standing_of_books standing books alike (fun q b hit => ?_) ?_, alike⟩
  · exact absurd ((vacant q).symm.trans hit) (by simp)
  · rw [index]
    exact tidy_empty

theorem matching_blocks_stays (standing : s.Standing registry) (query : Signature) :
    (s.matchingBlocks query).2.Standing registry ∧ Alike s (s.matchingBlocks query).2 := by
  obtain ⟨cache, same⟩ := matching_blocks_store s query
  have books := books_matching standing.toBooks query
  rw [same] at books ⊢
  exact ⟨standing_of_books standing books (alike_cache s cache)
    (fun q b (found : s.block? q = some b) => standing_blocks standing q b found) standing.tidy,
    alike_cache s cache⟩

theorem told_stays {α : Type} (answer : α → Answer) (result : Outcome α × Store)
    (stays : Stays s registry result) : Stays s registry (result.1.map answer, result.2) := by
  obtain ⟨outcome, next⟩ := result
  refine ⟨stays.1, stays.2.1, fun error same => stays.2.2 error ?_⟩
  cases outcome with
  | error other => exact congrArg Except.error (Except.error.inj same)
  | ok value => contradiction

theorem stays_ok (answer : Answer) (standing : next.Standing registry) (alike : Alike s next) :
    Stays s registry ((.ok answer : Outcome Answer), next) :=
  ⟨standing, alike, fun _ same => by contradiction⟩

theorem rows_stays (standing : s.Standing registry) (id : BlockId) (operation : Block.Operation) :
    Ensures ((Operation.rows id operation).Stops registry s.capacity s.blockBytes)
      (s.operate registry (.rows id operation)) (Stays s registry) := by
  rw [operate]
  cases found : s.block? id with
  | none => exact stays_ok (.rows none) standing (Alike.refl s)
  | some b =>
      refine ensures_bind _ (ensures_mono
        (Block.operate_shaped (standing.shaped id b found) standing.genuine operation)
        (fun fault asserted => .rows id operation fault asserted) fun _ holds => holds) ?_
      rintro ⟨answer, next⟩ ⟨shaped, planned⟩
      exact stays_ok (.rows (some answer)) (standing_put standing found shaped planned)
        (alike_put s id next)

theorem copy_stays (standing : s.Standing registry) (target : BlockId) (row : Nat) (source : BlockId)
    (sourceRow : Nat) :
    Ensures ((Operation.copy target row source sourceRow).Stops registry s.capacity s.blockBytes)
      (s.operate registry (.copy target row source sourceRow)) (Stays s registry) := by
  simp only [operate, Pool.get_pair_eq, ok_bind]
  cases pair : s.pool.getPair? target source with
  | none => exact stays_ok (.copied false) standing (Alike.refl s)
  | some blocks =>
      obtain ⟨b, other⟩ := blocks
      obtain ⟨found, sourceFound⟩ : s.block? target = some b ∧ s.block? source = some other :=
        Pool.get_of_pair pair
      refine ensures_bind _ (ensures_mono (Block.copy_shared_shaped
        (standing.shaped target b found) (standing.shaped source other sourceFound))
        (fun fault outside => .copy target row source sourceRow fault ?_) fun _ holds => holds) ?_
      · rw [standing.capacities target b found, standing.capacities source other sourceFound] at outside
        exact outside
      · rintro next ⟨shaped, planned⟩
        exact stays_ok (.copied true) (standing_put standing found shaped planned) (alike_put s target next)

theorem operate_stays (standing : s.Standing registry) (operation : Operation) :
    Ensures (operation.Stops registry s.capacity s.blockBytes) (s.operate registry operation)
      (Stays s registry) := by
  cases operation with
  | acquire signature =>
      exact ensures_map _ (ensures_mono (acquire_served standing signature)
        (fun fault overflow => .acquire signature fault overflow) served_stays)
        (told_stays .block)
  | insert signature entity =>
      exact ensures_map _ (ensures_mono (insert_stays standing signature entity)
        (fun fault overflow => .insert signature entity fault overflow) fun _ stays => stays)
        (told_stays _)
  | create signature =>
      exact ensures_map _ (ensures_mono (create_block_served standing signature)
        (fun fault overflow => .create signature fault overflow) served_stays)
        (told_stays .block)
  | destroy id =>
      obtain ⟨next, done, nextStanding, alike⟩ := destroy_block_stays standing id
      rw [operate, done]
      exact stays_ok .done nextStanding alike
  | releaseIfEmpty id =>
      obtain ⟨told, next, done, nextStanding, alike⟩ := release_if_empty_stays standing id
      rw [operate, done]
      exact stays_ok (.released told) nextStanding alike
  | clear =>
      obtain ⟨next, done, nextStanding, alike⟩ := clear_stays standing
      rw [operate, done]
      exact stays_ok .done nextStanding alike
  | rows id operation => exact rows_stays standing id operation
  | copy target row source sourceRow => exact copy_stays standing target row source sourceRow
  | matching query =>
      obtain ⟨nextStanding, alike⟩ := matching_blocks_stays standing query
      exact stays_ok (.blocks (s.matchingBlocks query).1) nextStanding alike

end Steps

theorem operate_all_stays (standing : s.Standing registry) (operations : List Operation) :
    Ensures (fun fault => ∃ operation ∈ operations,
        operation.Stops registry s.capacity s.blockBytes fault)
      (s.operateAll registry operations) fun (answers, last) => last.Standing registry ∧ Alike s last ∧
        ∀ error, .error error ∈ answers → error.Expected := by
  induction operations generalizing s with
  | nil => exact ⟨standing, Alike.refl s, fun _ member => absurd member List.not_mem_nil⟩
  | cons operation rest ih =>
      rw [operateAll]
      refine ensures_bind _ (ensures_mono (operate_stays standing operation)
        (fun fault stops => ⟨operation, List.mem_cons_self, stops⟩) fun _ stays => stays) ?_
      rintro ⟨answer, middle⟩ ⟨middleStanding, alike, expected⟩
      have others := ih middleStanding
      rw [alike.capacity, alike.blockBytes] at others
      refine ensures_bind _ (ensures_mono others
        (fun fault ⟨later, member, stops⟩ => ⟨later, List.mem_cons_of_mem operation member, stops⟩)
        fun _ stays => stays) ?_
      rintro ⟨answers, last⟩ ⟨lastStanding, same, later⟩
      refine ⟨lastStanding, alike.trans same, fun error member => ?_⟩
      rcases List.mem_cons.mp member with here | there
      · exact expected error here.symm
      · exact later error there

-- What comes of creating a block. A new block is empty over zeroed bytes, whatever its slot and its
-- buffer were used for before.
def Creates (settings : Settings) (registry : Registry) (s : Store) (signature : Signature) :
    Prop :=
  match Layout.generate signature registry settings.blockCapacity settings.blockBytes with
  | .error fault => s.createBlock registry signature = .error fault
  | .ok (.error error) => s.createBlock registry signature = .ok (.error error, s)
  | .ok (.ok _) =>
    if s.blockCount = settings.maxBlocks then
      ∃ next, s.createBlock registry signature = .ok (.error (.outOfSlabs settings.maxBlocks), next) ∧ Learns s next
    else
      ∃ id b next, s.createBlock registry signature = .ok (.ok id, next) ∧ s.block? id = none ∧
        (∀ q, next.block? q = if q = id then some b else s.block? q) ∧
        b.signature = signature ∧ b.occupied = 0 ∧ b.payload = .zeroed settings.blockBytes

structure Booked (settings : Settings) (registry : Registry) (s : Store) : Prop where
  listed : ∀ signature id, id ∈ s.blocksWithSignature signature ↔
    ∃ b, s.block? id = some b ∧ b.signature = signature
  ascending : ∀ signature, (s.blocksWithSignature signature).Pairwise (· < ·)
  kept : ∀ signature, s.index.find? signature ≠ some []
  lent : s.buffersInUse = s.blockCount
  counted : s.blockCount = s.blocks.length
  bounded : s.blockCount ≤ settings.maxBlocks
  payloads : ∀ id b, s.block? id = some b → b.payload.size = settings.blockBytes
  apart : ∀ id operation outcome next, s.operate registry (.rows id operation) = .ok (outcome, next) →
    ∀ other, other ≠ id → next.block? other = s.block? other
  creation : ∀ signature, s.Creates settings registry signature

theorem rows_apart (id : BlockId) (operation : Block.Operation) (outcome : Outcome Answer)
    (done : s.operate registry (.rows id operation) = .ok (outcome, next)) (other : BlockId)
    (away : other ≠ id) : next.block? other = s.block? other := by
  rw [operate] at done
  cases found : s.block? id with
  | none =>
      simp only [found] at done
      obtain ⟨_, rfl⟩ := Prod.mk.inj (Except.ok.inj done)
      rfl
  | some b =>
      simp only [found] at done
      cases result : b.operate operation with
      | error fault => simp [result] at done
      | ok answer =>
          rw [result, ok_bind] at done
          obtain ⟨_, rfl⟩ := Prod.mk.inj (Except.ok.inj done)
          rw [block_put found, if_neg away]

section Booked

variable {settings : Settings} (standing : s.Standing registry)
  (capacity : s.capacity = settings.blockCapacity)
  (blockBytes : s.blockBytes = settings.blockBytes) (slots : s.pool.capacity = settings.maxBlocks)

include standing capacity blockBytes slots

theorem creates_of_standing (signature : Signature) : s.Creates settings registry signature := by
  unfold Creates
  rw [← capacity, ← blockBytes, ← slots]
  cases create_block_cases standing.toBooks standing.genuine signature with
  | overflow fault unmade stopped => simp only [unmade, stopped]
  | layout error unfit refused => simp only [unfit, refused]
  | slabs layout made full next learns _ refused =>
      simp only [made, if_pos full]
      exact ⟨next, refused, learns⟩
  | created layout made room id b next done newborn gains =>
      simp only [made, if_neg (Nat.ne_of_lt room)]
      refine ⟨id, b, next, done, gains.vacant, gains.blocks, newborn.signature, ?_, newborn.payload⟩
      simp [Block.occupied, Block.disabledCount, newborn.entityCount,
        newborn.disabledStart, newborn.capacity]

theorem booked_of_standing : s.Booked settings registry where
  listed := standing.index
  ascending := standing.tidy.ascending
  kept := standing.tidy.kept
  lent := standing.lent
  counted := Pool.allocated_eq standing.pool
  bounded := by
    have whole := standing.pool.balance
    unfold blockCount
    omega
  payloads := fun id b found => (standing.sizes id b found).trans blockBytes
  apart := fun id operation outcome _ done => rows_apart id operation outcome done
  creation := creates_of_standing standing capacity blockBytes slots

end Booked

theorem standing_of_bare {settings : Settings} (valid : settings.validate = .ok ())
    (genuine : registry.Genuine) (bare : Bare settings registry s) : s.Standing registry :=
  { bare.books with
    genuine
    positive := bare.capacity.symm ▸ (settings.valid_bounds valid).1
    shaped := fun id b found => absurd ((bare.vacant id).symm.trans found) (by simp)
    capacities := fun id b found => absurd ((bare.vacant id).symm.trans found) (by simp)
    tidy := bare.index.symm ▸ tidy_empty }

/-- The bookkeeping of blocks. A store of valid settings is always made. A history of its operations
stops only where a layout overflows or where an operation on rows is refused, it never answers that
no block is left, and at its end the books are right. -/
theorem operate_all_booked (settings : Settings) (registry : Registry)
    (valid : settings.validate = .ok ()) (genuine : registry.Genuine) :
    ∃ first, create settings = .ok first ∧ ∀ operations,
      Ensures (fun fault => ∃ operation ∈ operations,
          operation.Stops registry settings.blockCapacity settings.blockBytes fault)
        (first.operateAll registry operations) fun (answers, last) => last.Booked settings registry ∧
          ∀ capacity, .error (.outOfBlocks capacity) ∉ answers := by
  obtain ⟨first, created, bare⟩ := create_bare settings registry valid
  refine ⟨first, created, fun operations => ?_⟩
  have run := operate_all_stays (standing_of_bare valid genuine bare) operations
  rw [bare.capacity, bare.blockBytes] at run
  refine ensures_mono run (fun _ stopped => stopped) ?_
  rintro ⟨answers, last⟩ ⟨lastStanding, alike, expected⟩
  exact ⟨booked_of_standing lastStanding (alike.capacity.trans bare.capacity) (alike.blockBytes.trans bare.blockBytes)
    (alike.slots.trans bare.slots), fun capacity member => expected _ member capacity rfl⟩

theorem least_books : ∃ first last, create .least = .ok first ∧
    first.operateAll .builtins [.create .empty, .create (.ofList [2]), .destroy 0, .create .empty] =
      .ok ([.ok (.block 0), .error (.outOfSlabs 1), .ok .done, .ok (.block 0)], last) ∧
    last.Booked .least .builtins := by
  obtain ⟨first, last, created, ended⟩ : ∃ first last, create .least = .ok first ∧
      first.operateAll .builtins [.create .empty, .create (.ofList [2]), .destroy 0, .create .empty] =
        .ok ([.ok (.block 0), .error (.outOfSlabs 1), .ok .done, .ok (.block 0)], last) :=
    ⟨_, _, rfl, rfl⟩
  obtain ⟨other, made, runs⟩ := operate_all_booked .least .builtins (by decide)
    Registry.builtins_genuine
  obtain rfl := Except.ok.inj (created.symm.trans made)
  have run := runs [.create .empty, .create (.ofList [2]), .destroy 0, .create .empty]
  rw [ended] at run
  exact ⟨first, last, created, ended, run.1⟩

end EntityStore.Store
