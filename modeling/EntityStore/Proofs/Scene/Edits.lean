import EntityStore.Proofs.Scene.Answers

set_option autoImplicit false

namespace EntityStore

namespace World

variable {w : World} {e : Entity} {content : Content}

theorem assign_dead (written : List (Entity × Component)) (dead : w e = none) :
    (w.assign written) e = none := by
  induction written generalizing w with
  | nil => exact dead
  | cons p rest ih =>
      refine ih ?_
      show (w.write p.1 p.2.type.id p.2.bytes) e = none
      rw [write_apply, dead]
      exact ite_self none

theorem assign_component (written : List (Entity × Component)) (id : ComponentId)
    (held : w e = some content) :
    ∃ final, (w.assign written) e = some final ∧ final.enabled = content.enabled ∧
      (content.components id = none → final.components id = none) ∧
      ∀ old bytes, content.components id = some old →
        (∀ p ∈ written, p.1 = e → p.2.type.id = id → p.2.bytes = bytes) →
        (old = bytes ∨ ∃ p ∈ written, p.1 = e ∧ p.2.type.id = id) →
        final.components id = some bytes := by
  induction written generalizing w content with
  | nil =>
      refine ⟨content, held, rfl, fun absent => absent, fun old bytes had _ given => ?_⟩
      rcases given with rfl | ⟨p, member, _⟩
      · exact had
      · exact absurd member List.not_mem_nil
  | cons p rest ih =>
      have after := write_apply w p.1 p.2.type.id p.2.bytes e
      rw [held, Option.map_some] at after
      -- The write is to this entity and to an id that it has, or the content is as before.
      by_cases mine : e = p.1 ∧ content.components p.2.type.id ≠ none
      · obtain ⟨same, present⟩ := mine
        rw [if_pos same, if_neg present] at after
        obtain ⟨final, found, enabled, absent, given⟩ := ih after
        refine ⟨final, found, enabled, fun missing => absent ?_, fun old bytes had only some => ?_⟩
        · rw [Content.set]
          by_cases here : id = p.2.type.id
          · exact absurd (here ▸ missing) present
          · exact (Function.update_of_ne here _ _).trans missing
        · have others := fun q member => only q (List.mem_cons_of_mem p member)
          by_cases here : id = p.2.type.id
          · have written := only p List.mem_cons_self same.symm here.symm
            refine given p.2.bytes bytes ?_ others (Or.inl written)
            rw [Content.set, here]
            exact Function.update_self ..
          · refine given old bytes ((Function.update_of_ne here _ _).trans had) others ?_
            rcases some with equal | ⟨q, member, name, kind⟩
            · exact Or.inl equal
            · rcases List.mem_cons.mp member with rfl | later
              · exact absurd kind.symm here
              · exact Or.inr ⟨q, later, name, kind⟩
      · have still : (w.write p.1 p.2.type.id p.2.bytes) e = Option.some content := by
          rw [after]
          by_cases same : e = p.1
          · rw [if_pos same, if_pos (by_contra fun present => mine ⟨same, present⟩)]
          · rw [if_neg same]
        obtain ⟨final, found, enabled, absent, given⟩ := ih still
        refine ⟨final, found, enabled, absent, fun old bytes had only some => ?_⟩
        refine given old bytes had (fun q member => only q (List.mem_cons_of_mem p member)) ?_
        rcases some with equal | ⟨q, member, name, kind⟩
        · exact Or.inl equal
        · rcases List.mem_cons.mp member with rfl | later
          · refine absurd ⟨name.symm, ?_⟩ mine
            rw [kind, had]
            simp
          · exact Or.inr ⟨q, later, name, kind⟩

end World

namespace Scene

open Checked

variable {s next : Scene} {q : Query} {edit : Store.Edit} {visited : List (Entity × List Component)}

def editedRows (q : Query) (edit : Store.Edit) (visited : List (Entity × List Component)) :
    List (Entity × List Component) :=
  visited.map fun row => (row.1, Term.editedAll q.terms edit row.1 row.2)

theorem get_some (sound : s.Sound) {e : Entity} {type : ComponentType} {value : Component}
    (got : s.get e type = .ok (.ok value)) :
    value.type = type ∧ s.registry.Knows type ∧
      ∃ content, s.world e = some content ∧ content.components type.id = some value.bytes := by
  cases found : s.directory.location? e with
  | none =>
      rw [get_stale found] at got
      simp at got
  | some l =>
      obtain ⟨b, t, home⟩ := home_of sound found
      rcases get_ok sound home type with ⟨other, read, same, known, held⟩ | ⟨missing, _⟩
      · obtain rfl := Except.ok.inj (Except.ok.inj (read.symm.trans got))
        exact ⟨same, known, t.content, home.world, held⟩
      · rw [missing] at got
        simp at got

theorem mem_assigned (p : Entity × Component) :
    p ∈ assignments (editedRows q edit visited) ↔ ∃ row ∈ visited, ∃ pair ∈ q.terms.zip row.2,
      p = (row.1, pair.1.edited edit row.1 pair.2) := by
  simp only [assignments, editedRows, Term.editedAll, List.mem_flatMap, List.mem_map,
    ← List.map_uncurry_zip_eq_zipWith]
  constructor
  · rintro ⟨_, ⟨row, member, rfl⟩, value, listed, rfl⟩
    obtain ⟨pair, zipped, rfl⟩ := List.mem_map.mp listed
    exact ⟨row, member, pair, zipped, rfl⟩
  · rintro ⟨row, member, pair, zipped, rfl⟩
    exact ⟨_, ⟨row, member, rfl⟩, _, List.mem_map_of_mem zipped, rfl⟩

theorem get_of_content (sound : s.Sound) {e : Entity} {content : Content} {type : ComponentType}
    {value : Component} (held : s.world e = some content) (known : s.registry.Knows type)
    (same : value.type = type) (bytes : content.components type.id = some value.bytes) :
    s.get e type = .ok (.ok value) := by
  have whole : Component.ofBytes? type value.bytes = some value := by
    subst same
    exact dif_pos value.length_eq
  rw [get_of_world sound, held]
  simp only [if_pos known, bytes, Option.bind_some, whole]

theorem pair_unique (distinct : q.ids.Nodup) {values : List Component}
    (length : q.terms.length = values.length) {first second : Term × Component}
    (member : first ∈ q.terms.zip values) (memberToo : second ∈ q.terms.zip values)
    (same : first.1.type.id = second.1.type.id) : first = second := by
  have ids : (q.terms.zip values).map (fun pair => pair.1.type.id) = q.ids := by
    have terms : (q.terms.zip values).map Prod.fst = q.terms :=
      List.map_fst_zip (Nat.le_of_eq length)
    rw [Query.ids, ← terms, List.map_map, terms]
    rfl
  exact List.inj_on_of_nodup_map (ids ▸ distinct) member memberToo same

def ReadsOff (s : Scene) (q : Query) (row : Entity × List Component) : Prop :=
  List.Forall₂ (fun (term : Term) value => s.get row.1 term.type = .ok (.ok value)) q.terms row.2

theorem written_after (sound : s.Sound) (nextSound : next.Sound) (registry : next.registry = s.registry)
    (world : next.world = s.world.assign (assignments (editedRows q edit visited)))
    (distinct : q.ids.Nodup) (once : (visited.map Prod.fst).Nodup)
    (reads : ∀ row ∈ visited, s.ReadsOff q row) (row : Entity × List Component) (member : row ∈ visited) :
    List.Forall₂ (fun (term : Term) value =>
      next.get row.1 term.type = .ok (.ok (term.edited edit row.1 value))) q.terms row.2 := by
  obtain ⟨length, pairs⟩ := List.forall₂_iff_zip.mp (reads row member)
  refine List.forall₂_iff_zip.mpr ⟨length, fun {term value} listed => ?_⟩
  obtain ⟨type, known, content, held, had⟩ := get_some sound (pairs listed)
  obtain ⟨final, found, _, _, given⟩ :=
    World.assign_component (assignments (editedRows q edit visited)) term.type.id held
  have typed : (term.edited edit row.1 value).type = term.type :=
    (term.edited_type edit row.1 value).trans type
  refine get_of_content nextSound (world ▸ found) (registry ▸ known) typed (given _ _ had ?_ ?_)
  · intro p assigned owner id
    obtain ⟨other, memberToo, pair, listedToo, rfl⟩ := (mem_assigned p).mp assigned
    obtain rfl := List.inj_on_of_nodup_map once memberToo member owner
    obtain ⟨sameType, _⟩ := get_some sound (pairs listedToo)
    replace id : (pair.1.edited edit other.1 pair.2).type.id = term.type.id := id
    rw [Term.edited_type, sameType] at id
    have equal : pair = (term, value) := pair_unique distinct length listedToo listed id
    subst equal
    rfl
  · exact Or.inr ⟨_, (mem_assigned _).mpr ⟨row, member, (term, value), listed, rfl⟩, rfl,
      congrArg ComponentType.id typed⟩

theorem kept_after (sound : s.Sound) (nextSound : next.Sound) (registry : next.registry = s.registry)
    (world : next.world = s.world.assign (assignments (editedRows q edit visited)))
    (reads : ∀ row ∈ visited, s.ReadsOff q row) (e : Entity) (type : ComponentType)
    (apart : e ∈ visited.map Prod.fst →
      ∀ term ∈ q.terms, term.access = .write → term.type.id ≠ type.id) :
    next.get e type = s.get e type := by
  rw [get_of_world nextSound, get_of_world sound, registry, world]
  cases held : s.world e with
  | none => rw [World.assign_dead _ held]
  | some content =>
      obtain ⟨final, found, _, absent, given⟩ :=
        World.assign_component (assignments (editedRows q edit visited)) type.id held
      have same : final.components type.id = content.components type.id := by
        cases had : content.components type.id with
        | none => exact absent had
        | some old =>
            refine given old old had (fun p assigned owner id => ?_) (Or.inl rfl)
            obtain ⟨row, member, pair, listed, rfl⟩ := (mem_assigned p).mp assigned
            obtain ⟨sameType, _, content', held', had'⟩ :=
              get_some sound ((List.forall₂_iff_zip.mp (reads row member)).2 listed)
            replace owner : row.1 = e := owner
            replace id : (pair.1.edited edit row.1 pair.2).type.id = type.id := id
            rw [Term.edited_type, sameType] at id
            have term := (List.of_mem_zip listed).1
            have visit := List.mem_map.mpr ⟨row, member, owner⟩
            -- What is assigned for a term for reading is the value that was there.
            cases access : pair.1.access with
            | write => exact absurd id (apart visit pair.1 term access)
            | read =>
                rw [owner] at held'
                obtain rfl := Option.some.inj (held.symm.trans held')
                rw [id, had] at had'
                have untouched : pair.1.edited edit row.1 pair.2 = pair.2 := by
                  rw [Term.edited, access]
                show (pair.1.edited edit row.1 pair.2).bytes = old
                rw [untouched]
                exact (Option.some.inj had').symm
      rw [found]
      simp only [same]

structure Edited (s next : Scene) (q : Query) (edit : Store.Edit)
    (visited : List (Entity × List Component)) : Prop where
  written : ∀ row ∈ visited, List.Forall₂ (fun (term : Term) value =>
    next.get row.1 term.type = .ok (.ok (term.edited edit row.1 value))) q.terms row.2
  kept : ∀ e type, (e ∈ visited.map Prod.fst →
    ∀ term ∈ q.terms, term.access = .write → term.type.id ≠ type.id) → next.get e type = s.get e type
  frame : next = { s with store := { s.store with pool := next.store.pool, cache := next.store.cache } }
  allocated : next.store.pool.allocated = s.store.pool.allocated
  free : next.store.pool.free = s.store.pool.free
  vacant : ∀ id, s.store.block? id = none → next.store.block? id = none
  blocks : ∀ id b, s.store.block? id = some b → ∃ payload,
    next.store.block? id = some { b with payload } ∧ payload.size = b.payload.size ∧
    ∀ i, payload.get i ≠ b.payload.get i → ∃ term ∈ q.terms, ∃ c row, term.access = .write ∧
      b.typedColumn? term.type = some c ∧ row < b.entityCount ∧
      b.entitySlot row ∈ visited.map Prod.fst ∧
      c.span.place row ≤ i ∧ i < c.span.place row + c.descriptor.size

-- A byte that a visit changes lies in a visited cell of a term for writing.
theorem touched_cell (sound : s.Sound) (ids : List BlockId) (limit : Option Nat) {id : BlockId} {b : Block}
    {i : Nat} (found : s.store.block? id = some b)
    (touched : ¬ Store.Untouched ((upTo limit (s.store.table ⟨q, ids⟩ Block.cellOf)).flatMap Prod.snd) id i) :
    ∃ term ∈ q.terms, ∃ c row, term.access = .write ∧ b.typedColumn? term.type = some c ∧
      row < b.entityCount ∧ b.entitySlot row ∈ (upTo limit (s.rowsIn q ids)).map Prod.fst ∧
      c.span.place row ≤ i ∧ i < c.span.place row + c.descriptor.size := by
  have names := aligned_names q.terms _ _ (forall_up_to limit _ _ (table_aligned sound ⟨q, ids⟩))
  simp only [Store.Untouched, not_forall, not_or] at touched
  obtain ⟨cell, member, access, block, above, below⟩ := touched
  obtain ⟨⟨e, cells⟩, visited, listed⟩ := List.mem_flatMap.mp member
  have entry := (up_to_sublist limit _).subset visited
  obtain ⟨id', _, b', columns, row, found', offered, enabled, name, rfl⟩ :=
    (Store.mem_table s.store _ _ e cells).mp entry
  obtain ⟨p, column, rfl⟩ := List.mem_map.mp listed
  obtain rfl : id' = id := block
  obtain rfl := Option.some.inj (found.symm.trans found')
  obtain ⟨terms, typed⟩ := (Block.columns_of_some_iff b q.terms columns).mp offered
  refine ⟨p.1, terms ▸ List.mem_map_of_mem column, p.2, row, access, typed p column, enabled, ?_,
    Nat.le_of_not_lt above, Nat.lt_of_not_le below⟩
  rw [rowsIn, ← names, name]
  exact List.mem_map_of_mem visited

theorem visit_edited (sound : s.Sound) (distinct : q.ids.Nodup) {ids : List BlockId}
    (ascending : ids.Pairwise (· < ·)) (limit : Option Nat) (edit : Store.Edit) :
    ∃ next, s.visit ⟨q, ids⟩ limit edit = .ok (editedRows q edit (upTo limit (s.rowsIn q ids)), next) ∧
      Edited s next q edit (upTo limit (s.rowsIn q ids)) := by
  have proper := rows_in_proper sound q ascending
  have visited := up_to_sublist limit (s.rowsIn q ids)
  have once : ((upTo limit (s.rowsIn q ids)).map Prod.fst).Nodup := proper.once.sublist (visited.map Prod.fst)
  have reads : ∀ row ∈ upTo limit (s.rowsIn q ids), s.ReadsOff q row := fun row member =>
    (proper.fits row.1 row.2 (visited.subset member)).2.2
  obtain ⟨rows, store, done, writes, edits⟩ := visit_ok sound ⟨q, ids⟩ distinct ascending limit edit
  obtain rfl : rows = editedRows q edit (upTo limit (s.rowsIn q ids)) := edits once
  have world := writes.becomes.world
  have nextSound := writes.becomes.sound
  have registry : ({ s with store } : Scene).registry = s.registry := writes.becomes.alike.registry
  refine ⟨{ s with store }, done, ?_⟩
  refine ⟨written_after sound nextSound registry world distinct once reads,
    kept_after sound nextSound registry world reads, ?_, writes.touches.allocated, writes.touches.free,
    writes.touches.vacant, fun id b found => ?_⟩
  · have frame : store = { s.store with pool := store.pool } := writes.touches.frame
    have cache : store.cache = s.store.cache := by
      rw [frame]
    refine congrArg (fun store => ({ s with store } : Scene)) ?_
    show store = { s.store with pool := store.pool, cache := store.cache }
    rw [cache]
    exact frame
  · obtain ⟨payload, after, size, same⟩ := writes.touches.blocks id b found
    exact ⟨payload, after, size, fun i changed =>
      touched_cell sound ids limit found fun untouched => changed (same i untouched)⟩

section Answer

def Repeats (q : Query) (id : ComponentId) : Prop :=
  ∃ before after, q.ids = before ++ id :: after ∧ before.Nodup ∧ id ∈ before

theorem first_repeat_none (q : Query) : q.firstRepeat? = none ↔ q.ids.Nodup :=
  Signature.first_repeat_nodup q.ids

theorem first_repeat_some (q : Query) (id : ComponentId) : q.firstRepeat? = some id ↔ Repeats q id :=
  Signature.first_repeat_again q.ids id

structure Answered (s : Scene) (q : Query) (rows : List (Entity × List Component)) (view : View)
    (looked : Scene) : Prop where
  proper : s.Proper q rows
  asked : s.query q = (view, looked)
  cached : ∃ cache, looked = { s with store := { s.store with cache } }
  read : looked.readRows view = .ok rows
  aliased : ¬ q.ids.Nodup → ∃ id, Repeats q id ∧ s.queryMut q = (.error (.aliasedQuery id), s)
  distinct : q.ids.Nodup → s.queryMut q = (.ok view, looked)
  cells : q.ids.Nodup → ∃ cells, looked.store.cellRows view = .ok cells ∧
    List.Forall₂ (fun row values => row.1 = values.1 ∧
      row.2.map looked.store.readCell? = values.2.map Option.some) cells rows
  visited : q.ids.Nodup → ∀ limit edit, ∃ next,
    looked.visit view limit edit = .ok (editedRows q edit (upTo limit rows), next) ∧
      s.Edited next q edit (upTo limit rows)

theorem cells_ok (sound : s.Sound) (v : View) (distinct : v.query.ids.Nodup)
    (ascending : v.blocks.Pairwise (· < ·)) :
    ∃ cells, s.store.cellRows v = .ok cells ∧ List.Forall₂ (fun row values => row.1 = values.1 ∧
      row.2.map s.store.readCell? = values.2.map Option.some) cells (s.store.table v fun _ b => b.valueOf) := by
  refine ⟨_, Store.cell_rows_ok sound.store v distinct ascending, (table_aligned sound v).imp ?_⟩
  rintro ⟨e, cells⟩ ⟨f, values⟩ ⟨⟨name, shows⟩, _⟩
  refine ⟨name.symm, ?_⟩
  have reads := shows.imp fun cell value shown => Store.read_shown sound.store shown
  exact List.forall₂_eq_eq_eq ▸
    List.forall₂_map_left_iff.mpr (List.forall₂_map_right_iff.mpr reads)

theorem answered (sound : s.Sound) (q : Query) :
    s.Answered q (s.rowsIn q (s.blocksMatching q.signature).1) (s.query q).1 (s.query q).2 := by
  have ascending := Store.matching_blocks_ascend sound.store.books q.signature
  obtain ⟨cache, same⟩ := Store.matching_blocks_store s.store q.signature
  have asked : s.query q =
      (⟨q, (s.blocksMatching q.signature).1⟩, { s with store := { s.store with cache } }) :=
    congrArg (fun store => ((⟨q, (s.blocksMatching q.signature).1⟩ : View), ({ s with store } : Scene))) same
  have lookedSound : ({ s with store := { s.store with cache } } : Scene).Sound := by
    have sound := (blocks_matching_ok sound q.signature).sound
    exact congrArg (fun store => ({ s with store } : Scene)) same ▸ sound
  rw [asked]
  refine ⟨rows_in_proper sound q ascending, asked, ⟨cache, rfl⟩, ?_, fun again => ?_, fun distinct => ?_,
    fun distinct => ?_, fun distinct limit edit => ?_⟩
  · exact Store.read_rows_ok lookedSound.store _
  · cases found : q.firstRepeat? with
    | none => exact absurd ((first_repeat_none q).mp found) again
    | some id =>
        refine ⟨id, (first_repeat_some q id).mp found, ?_⟩
        simp only [queryMut, found]
  · simp only [queryMut, (first_repeat_none q).mpr distinct, asked]
  · exact cells_ok lookedSound _ distinct ascending
  · obtain ⟨next, done, edited⟩ := visit_edited lookedSound distinct ascending limit edit
    exact ⟨next, done, edited.written, edited.kept, edited.frame, edited.allocated, edited.free,
      edited.vacant, edited.blocks⟩

def Picked (s : Scene) (id : ComponentId) : Prop :=
  ∃ candidates cache, s.singletonEntity id =
      .ok (firstOf id candidates, { s with store := { s.store with cache } }) ∧
    match s.registry.get? id with
    | none => candidates = []
    | some d => ∀ access, ∃ rows, s.Exact (.one ⟨access, d.type⟩) rows ∧ candidates = rows.map Prod.fst

theorem picked (sound : s.Sound) (id : ComponentId) (looks : s.Looks (Signature.empty.insert id)) :
    s.Picked id := by
  obtain ⟨cache, done⟩ := singleton_ok sound id looks
  refine ⟨s.carriers id, cache, done, ?_⟩
  cases registered : s.registry.get? id with
  | none => exact carriers_unknown sound id registered looks
  | some d =>
      have entry := Registry.genuine_get s.registry sound.store.genuine id d registered
      have own : d.type.id = id :=
        (Registry.entry_type_id entry).trans (Registry.entry_id s.registry sound.store.genuine id d registered)
      have known : s.registry.Knows d.type :=
        (Registry.check_ok s.registry d.type).mpr ⟨d, own ▸ registered, rfl⟩
      intro access
      subst own
      refine ⟨_, rows_exact sound fun term member => ?_, carriers_known sound access d.type known looks⟩
      rw [List.mem_singleton.mp member]
      exact known

/-- After every history of a new scene, queries for reading and for writing agree on their rows, which
are those of enabled entities with all components, in the order of their places, and writing changes
what it should. No row is missing, and a single entity is the first of its rows, unless a list from
2^64 generations ago is taken for a present one. -/
theorem run_queries {name : String} {settings : Settings} {registry : Registry} {first : Scene}
    {commands : List Command} {outcomes : List (Outcome Reply)} (genuine : registry.Genuine)
    (made : create name settings registry = .ok (.ok first))
    (ran : first.performAll commands = .ok (outcomes, s)) :
    (∀ q : Query, (∀ term ∈ q.terms, registry.Knows term.type) → ∃ rows view looked,
      s.Answered q rows view looked ∧
        (settings.cacheQueries = false ∨ first.turns commands < 0x10000000000000000 → s.Exact q rows)) ∧
      ∀ id, settings.cacheQueries = false ∨ first.turns commands < 0x10000000000000000 → s.Picked id := by
  have blank := blank_of_created genuine made
  obtain ⟨sound, alike⟩ := run_sound blank.sound ran
  have known : s.registry = registry := (alike.registry : s.registry = first.registry).trans blank.registry
  have looks (enough : settings.cacheQueries = false ∨ first.turns commands < 0x10000000000000000)
      (signature : Signature) : s.Looks signature := by
    refine looks_ok (run_fresh blank.sound ran 0 blank.fresh) ?_ signature
    rw [alike.cacheQueries, blank.caches, Nat.zero_add]
    exact enough
  refine ⟨fun q types => ⟨_, _, _, answered sound q, fun enough => ?_⟩,
    fun id enough => picked sound id (looks enough _)⟩
  rw [(looks enough q.signature).blocks]
  exact rows_exact sound (known ▸ types)

-- Entities with two components in the blocks 0 and 2, between which a block was freed; one of them is
-- disabled.
def scattered : List Command :=
  [.create (.ofList [ComponentType.renderItem.id, ComponentType.physicsBody.id]),
    .create (.ofList [ComponentType.renderItem.id]),
    .create (.ofList [ComponentType.renderItem.id, ComponentType.physicsBody.id, ComponentType.child.id]),
    .create (.ofList [ComponentType.renderItem.id, ComponentType.physicsBody.id]),
    .disable ⟨0, 1⟩, .destroy ⟨1, 1⟩]

def joined : Query := .join (.one ⟨.read, .renderItem⟩) (.one ⟨.write, .physicsBody⟩)

set_option maxRecDepth 8000 in
theorem run_queries_scattered : ∃ first outcomes s,
    create "world" { blockCapacity := 2, blockBytes := 64, maxBlocks := 3 } .builtins = .ok (.ok first) ∧
    first.performAll scattered = .ok (outcomes, s) ∧ ∃ rows view looked,
      s.Answered joined rows view looked ∧ s.Exact joined rows ∧ view.blocks = [0, 2] ∧
      rows.map Prod.fst = [⟨3, 1⟩, ⟨2, 1⟩] := by
  obtain ⟨first, outcomes, s, made, ran, blocks, listed⟩ : ∃ first outcomes s,
      create "world" { blockCapacity := 2, blockBytes := 64, maxBlocks := 3 } .builtins = .ok (.ok first) ∧
      first.performAll scattered = .ok (outcomes, s) ∧ (s.query joined).1 = ⟨joined, [0, 2]⟩ ∧
      ((s.query joined).2.store.readBlocks joined [0, 2]).map (List.map Prod.fst) = .ok [⟨3, 1⟩, ⟨2, 1⟩] :=
    ⟨_, _, _, rfl, rfl, rfl, rfl⟩
  obtain ⟨rows, view, looked, answered, exact⟩ :=
    (run_queries Registry.builtins_genuine made ran).1 joined (by decide)
  have few : first.turns scattered < 0x10000000000000000 :=
    Nat.lt_of_le_of_lt (turns_le (blank_of_created Registry.builtins_genuine made).sound scattered) (by decide)
  have read := answered.read
  rw [answered.asked] at blocks listed
  obtain rfl : view = _ := blocks
  refine ⟨first, outcomes, s, made, ran, rows, _, looked, answered, exact (Or.inr few), rfl, ?_⟩
  rw [readRows, Store.read_rows_eq] at read
  rw [read] at listed
  exact Except.ok.inj listed

end Answer

end Scene

end EntityStore
