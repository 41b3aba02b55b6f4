import EntityStore.Proofs.Scene.Edits

set_option autoImplicit false

namespace EntityStore

theorem Store.count_rows_eq (s : Store) (v : View) :
    s.countRows v = ((v.blocks.filterMap s.block?).flatMap Block.entities).length := by
  obtain ⟨q, ids⟩ := v
  simp only [countRows]
  induction ids with
  | nil => rfl
  | cons id rest ih =>
      cases found : s.block? id with
      | none =>
          rw [List.filterMap_cons_none (by rw [found]; rfl), List.filterMap_cons_none found]
          exact ih
      | some b =>
          have count : b.entities.length = b.entityCount := by
            rw [Block.entities, List.length_map, List.length_range]
          rw [List.filterMap_cons_some (by rw [found]; rfl), List.filterMap_cons_some found,
            List.foldr_cons, ih, List.flatMap_cons, List.length_append, count]

theorem Store.table_mistyped {α : Type} {registry : Registry} {s : Store} (sound : s.Sound registry) (v : View)
    (item : BlockId → Block → Term × Column → Nat → α) {term : Term} (asked : term ∈ v.query.terms)
    (unknown : ¬ registry.Knows term.type) : s.table v item = [] := by
  rw [table, List.flatMap_eq_nil_iff]
  intro id _
  cases found : s.block? id with
  | none => exact block_table_none found v.query item
  | some b =>
      rw [block_table_some found, Block.table]
      cases offered : b.columnsOf v.query.terms with
      | none => rfl
      | some columns =>
          obtain ⟨terms, typed⟩ := (Block.columns_of_some_iff b v.query.terms columns).mp offered
          rw [← terms] at asked
          obtain ⟨p, member, rfl⟩ := List.mem_map.mp asked
          have laid := (sound.keeps id b found).sound.laid
          exact absurd ((Block.typed_column_known laid p.1.type p.2).mp (typed p member)).2 unknown

namespace Scene

open Checked

variable {s : Scene} {q : Query}

def bearers (s : Scene) (q : Query) : List Entity :=
  ((s.store.scan q.signature).filterMap s.store.block?).flatMap Block.entities

theorem mem_bearers (sound : s.Sound) (q : Query) (e : Entity) :
    e ∈ s.bearers q ↔ s.isEnabled e = .ok true ∧
      ∃ signature, s.signatureOf e = .ok signature ∧ ∀ id ∈ q.ids, signature.contains id = true := by
  rw [carrier_iff sound]
  simp only [bearers, List.mem_flatMap, List.mem_filterMap, Block.entities, List.mem_map, List.mem_range]
  constructor
  · rintro ⟨b, ⟨id, scanned, found⟩, row, enabled, slot⟩
    exact ⟨id, b, row, scanned, found, enabled, slot⟩
  · rintro ⟨id, b, row, scanned, found, enabled, slot⟩
    exact ⟨b, ⟨id, scanned, found⟩, row, enabled, slot⟩

theorem bearers_once (sound : s.Sound) (q : Query) : (s.bearers q).Nodup := by
  have known {id : BlockId} {b : Block} (found : s.store.block? id = some b) {e : Entity}
      (member : e ∈ b.entities) : ∃ row, s.locate e = .ok ⟨id, row, true⟩ := by
    obtain ⟨row, enabled, rfl⟩ := List.mem_map.mp member
    obtain ⟨_, home⟩ := located_row sound found (List.mem_range.mp enabled)
    exact ⟨row, locate_some home.found⟩
  refine List.nodup_flatMap.mpr ⟨fun b member => ?_, ?_⟩
  · obtain ⟨id, _, found⟩ := List.mem_filterMap.mp member
    refine List.Nodup.map_on (fun row inside other insideToo same => ?_) List.nodup_range
    obtain ⟨_, home⟩ := located_row sound found (List.mem_range.mp inside)
    obtain ⟨_, homeToo⟩ := located_row sound found (List.mem_range.mp insideToo)
    have equal := home.found.symm.trans ((congrArg _ same).trans homeToo.found)
    exact (Location.mk.inj (Option.some.inj equal)).2.1
  · refine List.Pairwise.filterMap _ ?_ (Store.scan_ascends s.store q.signature)
    intro id other before b found c foundToo e member memberToo
    obtain ⟨_, here⟩ := known found member
    obtain ⟨_, there⟩ := known foundToo memberToo
    have same := (Location.mk.inj (Except.ok.inj (here.symm.trans there))).1
    exact Nat.ne_of_lt before same

structure Lengths (s : Scene) (q : Query) (view : View) (looked : Scene)
    (rows : List (Entity × List Component)) : Prop where
  asked : s.query q = (view, looked)
  counted : looked.store.countRows view = (s.bearers q).length
  read : looked.readRows view = .ok rows
  typed : (∀ term ∈ q.terms, s.registry.Knows term.type) → rows.map Prod.fst = s.bearers q
  mistyped : ∀ term ∈ q.terms, ¬ s.registry.Knows term.type → rows = []
  writing : q.ids.Nodup → s.queryMut q = (.ok view, looked) ∧
    ∃ cells, looked.store.cellRows view = .ok cells ∧ cells.map Prod.fst = rows.map Prod.fst

theorem lengths_ok (sound : s.Sound) (looks : s.Looks q.signature) :
    ∃ view looked rows, Lengths s q view looked rows := by
  obtain ⟨cache, same⟩ := looks.scene
  have asked : s.query q = (⟨q, s.store.scan q.signature⟩, { s with store := { s.store with cache } }) := by
    simp only [query, looks.blocks, same]
  have lookedSound : ({ s with store := { s.store with cache } } : Scene).Sound :=
    same ▸ (blocks_matching_ok sound q.signature).sound
  have aligned := table_aligned lookedSound ⟨q, s.store.scan q.signature⟩
  refine ⟨_, _, s.rows q, asked, Store.count_rows_eq _ _, Store.read_rows_ok lookedSound.store _,
    fun known => ?_, fun term member unknown => Store.table_mistyped sound.store _ _ member unknown,
    fun distinct => ⟨?_, _, Store.cell_rows_ok lookedSound.store _ distinct
        (Store.scan_ascends s.store q.signature),
      aligned_names q.terms _ _ aligned⟩⟩
  · exact Store.table_entities s.store q _ _ fun id scanned b found =>
      columns_of_scanned sound known found scanned
  · simp only [queryMut, (first_repeat_none q).mpr distinct, asked]

namespace Lengths

variable {view : View} {looked : Scene} {rows : List (Entity × List Component)}

theorem rows_none (lengths : Lengths s q view looked rows)
    (unknown : ¬ ∀ term ∈ q.terms, s.registry.Knows term.type) : rows = [] := by
  obtain ⟨term, found⟩ := not_forall.mp unknown
  obtain ⟨member, other⟩ := Classical.not_imp.mp found
  exact lengths.mistyped term member other

theorem length_iff (lengths : Lengths s q view looked rows) :
    looked.store.countRows view = rows.length ↔
      (∀ term ∈ q.terms, s.registry.Knows term.type) ∨ s.bearers q = [] := by
  rw [lengths.counted]
  by_cases known : ∀ term ∈ q.terms, s.registry.Knows term.type
  · rw [← lengths.typed known, List.length_map]
    exact ⟨fun _ => Or.inl known, fun _ => rfl⟩
  · rw [lengths.rows_none known, List.length_nil, List.length_eq_zero_iff]
    exact ⟨Or.inr, fun either => either.resolve_left known⟩

theorem empty_iff (lengths : Lengths s q view looked rows) :
    (looked.store.countRows view = 0 ↔ rows = []) ↔
      (∀ term ∈ q.terms, s.registry.Knows term.type) ∨ s.bearers q = [] := by
  rw [lengths.counted, List.length_eq_zero_iff]
  by_cases known : ∀ term ∈ q.terms, s.registry.Knows term.type
  · rw [← lengths.typed known, List.map_eq_nil_iff]
    exact ⟨fun _ => Or.inl known, fun _ => Iff.rfl⟩
  · rw [lengths.rows_none known]
    exact ⟨fun same => Or.inr (same.mpr rfl), fun either => ⟨fun _ => rfl, fun _ => either.resolve_left known⟩⟩

end Lengths

/-- After every history of a new scene, as long as the generations of its cache have not wrapped
around, a view counts the enabled entities that carry the ids of its query, and yields one row for each
of them or none at all: length and emptiness are those of the rows exactly if the types of the query are
the registered ones or there is no such entity. -/
theorem run_lengths {name : String} {settings : Settings} {registry : Registry} {first : Scene}
    {commands : List Command} {outcomes : List (Outcome Reply)} (genuine : registry.Genuine)
    (made : create name settings registry = .ok (.ok first))
    (ran : first.performAll commands = .ok (outcomes, s))
    (enough : settings.cacheQueries = false ∨ first.turns commands < 0x10000000000000000) (q : Query) :
    (s.bearers q).Nodup ∧
      (∀ e, e ∈ s.bearers q ↔ s.isEnabled e = .ok true ∧
        ∃ signature, s.signatureOf e = .ok signature ∧ ∀ id ∈ q.ids, signature.contains id = true) ∧
      ∃ view looked rows, Lengths s q view looked rows ∧
        (looked.store.countRows view = rows.length ↔
          (∀ term ∈ q.terms, registry.Knows term.type) ∨ s.bearers q = []) ∧
        ((looked.store.countRows view = 0 ↔ rows = []) ↔
          (∀ term ∈ q.terms, registry.Knows term.type) ∨ s.bearers q = []) := by
  have blank := blank_of_created genuine made
  obtain ⟨sound, alike⟩ := run_sound blank.sound ran
  have known : s.registry = registry := (alike.registry : s.registry = first.registry).trans blank.registry
  have few : s.store.cacheQueries = false ∨ 0 + first.turns commands < 0x10000000000000000 := by
    rw [alike.cacheQueries, blank.caches, Nat.zero_add]
    exact enough
  obtain ⟨view, looked, rows, lengths⟩ :=
    lengths_ok sound (looks_ok (run_fresh blank.sound ran 0 blank.fresh) few q.signature)
  exact ⟨bearers_once sound q, mem_bearers sound q, view, looked, rows, lengths,
    known ▸ lengths.length_iff, known ▸ lengths.empty_iff⟩

theorem run_lengths_light : ∃ first outcomes s, create "world" .least .builtins = .ok (.ok first) ∧
    first.performAll [.create (.ofList [ComponentType.light.id])] = .ok (outcomes, s) ∧
    first.turns [.create (.ofList [ComponentType.light.id])] < 0x10000000000000000 ∧
    ∃ view looked rows, Lengths s (.one ⟨.write, .light⟩) view looked rows ∧
      looked.store.countRows view = rows.length := by
  obtain ⟨first, outcomes, s, made, ran, few⟩ : ∃ first outcomes s,
      create "world" .least .builtins = .ok (.ok first) ∧
        first.performAll [.create (.ofList [ComponentType.light.id])] = .ok (outcomes, s) ∧
        first.turns [.create (.ofList [ComponentType.light.id])] < 0x10000000000000000 :=
    ⟨_, _, _, rfl, rfl, by decide⟩
  obtain ⟨_, _, view, looked, rows, lengths, equal, _⟩ :=
    run_lengths Registry.builtins_genuine made ran (Or.inr few) (.one ⟨.write, .light⟩)
  exact ⟨first, outcomes, s, made, ran, few, view, looked, rows, lengths, equal.mpr (Or.inl (by decide))⟩

def strayLight : ComponentType where
  tag := 9
  id := ComponentType.light.id
  name := "Impostor"
  shape := .record (.ofList [("value", .word)])
  align := ComponentType.light.align
  initial := Bytes.ofNat 4 0
  ownsResource := false
  align_pos := ComponentType.light.align_pos
  align_dvd_size := by decide
  initial_length := by decide

set_option maxRecDepth 4000 in
/-- The length of a view can differ from the number of its rows: a query that names a light by another
type with its id matches the block of a light, and counts it, but reads and writes no row. -/
theorem length_beyond_rows : ∃ first outcomes s view looked,
    create "world" .least .builtins = .ok (.ok first) ∧
      first.performAll [.spawn (.one (.initial .light))] = .ok (outcomes, s) ∧
      s.query (.one ⟨.read, strayLight⟩) = (view, looked) ∧
      s.queryMut (.one ⟨.read, strayLight⟩) = (.ok view, looked) ∧
      looked.store.countRows view = 1 ∧ looked.readRows view = .ok [] ∧
      looked.store.cellRows view = .ok [] := by
  obtain ⟨first, outcomes, s, view, looked, made, ran, asked, askedMut, counted, listed, read, cells⟩ :
      ∃ first outcomes s view looked, create "world" .least .builtins = .ok (.ok first) ∧
      first.performAll [.spawn (.one (.initial .light))] = .ok (outcomes, s) ∧
      s.query (.one ⟨.read, strayLight⟩) = (view, looked) ∧
      s.queryMut (.one ⟨.read, strayLight⟩) = (.ok view, looked) ∧
      looked.store.countRows view = 1 ∧ view.blocks = [0] ∧
      looked.store.readBlocks view.query view.blocks = .ok [] ∧
      looked.store.cellsOfBlocks view.query view.blocks = .ok [] :=
    ⟨_, _, _, _, _, rfl, rfl, rfl, rfl, rfl, rfl, rfl, rfl⟩
  refine ⟨first, outcomes, s, view, looked, made, ran, asked, askedMut, counted, ?_, ?_⟩
  · rw [readRows, Store.read_rows_eq, read]
  · rw [Store.cell_rows_eq looked.store view (by simp [listed]), cells]

end Scene

end EntityStore
