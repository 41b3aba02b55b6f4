import EntityStore.Proofs.Scene.Runs

set_option autoImplicit false

namespace EntityStore

namespace Location

def Before (l m : Location) : Prop := l.block < m.block ∨ l.block = m.block ∧ l.row < m.row

theorem before_asymm {l m : Location} (before : l.Before m) : ¬ m.Before l := by
  rintro (lower | ⟨same, lower⟩) <;> rcases before with less | ⟨equal, less⟩
  · exact Nat.lt_asymm less lower
  · exact Nat.ne_of_gt lower equal
  · exact Nat.ne_of_gt less same
  · exact Nat.lt_asymm less lower

end Location

namespace Scene

open Checked

variable {s next : Scene} {e : Entity} {q : Query}

def Fits (s : Scene) (q : Query) (e : Entity) (values : List Component) : Prop :=
  s.isEnabled e = .ok true ∧
    (∃ signature, s.signatureOf e = .ok signature ∧ ∀ id ∈ q.ids, signature.contains id = true) ∧
    List.Forall₂ (fun (term : Term) value => s.get e term.type = .ok (.ok value)) q.terms values

structure Proper (s : Scene) (q : Query) (rows : List (Entity × List Component)) : Prop where
  fits : ∀ e values, (e, values) ∈ rows → s.Fits q e values
  once : (rows.map Prod.fst).Nodup
  ordered : rows.Pairwise fun first second => ∃ l m, s.locate first.1 = .ok l ∧
    s.locate second.1 = .ok m ∧ l.Before m

structure Exact (s : Scene) (q : Query) (rows : List (Entity × List Component)) : Prop where
  mem : ∀ e values, (e, values) ∈ rows ↔ s.isEnabled e = .ok true ∧
    (∃ signature, s.signatureOf e = .ok signature ∧ ∀ id ∈ q.ids, signature.contains id = true) ∧
    List.Forall₂ (fun (term : Term) value => s.get e term.type = .ok (.ok value)) q.terms values
  once : (rows.map Prod.fst).Nodup
  ordered : rows.Pairwise fun first second => ∃ l m, s.locate first.1 = .ok l ∧
    s.locate second.1 = .ok m ∧ l.Before m

-- The block and row of each entity come in this order, so there is at most one such list.
theorem exact_unique {shown others : List (Entity × List Component)} (first : s.Exact q shown)
    (second : s.Exact q others) : shown = others := by
  have same : shown.Perm others := by
    refine (List.perm_ext_iff_of_nodup first.once.of_map second.once.of_map).mpr ?_
    rintro ⟨e, values⟩
    exact (first.mem e values).trans (second.mem e values).symm
  refine same.eq_of_pairwise ?_ first.ordered second.ordered
  rintro a b _ _ ⟨l, m, located, locatedToo, before⟩ ⟨m', l', again, againToo, after⟩
  obtain rfl := Except.ok.inj (located.symm.trans againToo)
  obtain rfl := Except.ok.inj (locatedToo.symm.trans again)
  exact absurd after (Location.before_asymm before)

def rowsIn (s : Scene) (q : Query) (ids : List BlockId) : List (Entity × List Component) :=
  s.store.table ⟨q, ids⟩ fun _ b => b.valueOf

def rows (s : Scene) (q : Query) : List (Entity × List Component) := s.rowsIn q (s.store.scan q.signature)

section Rows

theorem get_of_shows (sound : s.Sound) {cell : Cell} {value : Component}
    (shows : Store.Shows s.store e cell value) : s.get e cell.term.type = .ok (.ok value) := by
  obtain ⟨l, b, t, home, spot, bytes⟩ := home_of_shows sound shows
  obtain ⟨b', c, t', found, typed, _, _, _, type, _⟩ := shows
  obtain ⟨block, _⟩ := Prod.mk.inj spot
  rw [← block] at found
  obtain rfl := Option.some.inj (found.symm.trans home.block)
  obtain ⟨_, known⟩ := (Block.typed_column_known home.keeps.sound.laid _ c).mp typed
  rcases get_ok sound home cell.term.type with ⟨other, got, same, _, held⟩ | ⟨_, absent⟩
  · rw [got]
    rw [bytes] at held
    exact congrArg (Except.ok ∘ Except.ok)
      (Component.ext_bytes (same.trans type.symm) (Option.some.inj held).symm)
  · exact absurd ⟨known, by simp [bytes]⟩ absent

theorem located_row (sound : s.Sound) {id : BlockId} {b : Block} (found : s.store.block? id = some b)
    {row : Nat} (enabled : row < b.entityCount) :
    ∃ t, Home s (b.entitySlot row) ⟨id, row, true⟩ b t := by
  have held := Block.tenant_some row true ((Block.side_enabled row).mpr enabled)
  have located := sound.matched.known (id, row) _ ((Store.tenant_eq found row).trans held)
  obtain ⟨b', t, home⟩ := home_of sound located
  obtain rfl := Option.some.inj (found.symm.trans home.block)
  exact ⟨t, home⟩

theorem columns_of_matching (sound : s.Sound) {id : BlockId} {b : Block}
    (found : s.store.block? id = some b) (terms : List Term)
    (known : ∀ term ∈ terms, s.registry.Knows term.type)
    (carries : ∀ term ∈ terms, b.signature.contains term.type.id = true) :
    ∃ columns, b.columnsOf terms = some columns := by
  have laid := (sound.store.keeps id b found).sound.laid
  induction terms with
  | nil => exact ⟨[], rfl⟩
  | cons term rest ih =>
      obtain ⟨columns, offered⟩ := ih (fun other member => known other (List.mem_cons_of_mem term member))
        fun other member => carries other (List.mem_cons_of_mem term member)
      have present : (b.column? term.type.id).isSome = true := by
        rw [Block.column_some_iff laid]
        exact carries term List.mem_cons_self
      obtain ⟨c, column⟩ := Option.isSome_iff_exists.mp present
      have typed := (Block.typed_column_known laid term.type c).mpr
        ⟨column, known term List.mem_cons_self⟩
      exact ⟨(term, c) :: columns, by rw [Block.columns_of_cons, typed, offered]; rfl⟩

theorem signature_iff (q : Query) (signature : Signature) :
    signature.isSuperset q.signature = true ↔ ∀ id ∈ q.ids, signature.contains id = true := by
  rw [Signature.superset_iff]
  refine forall_congr' fun id => ?_
  rw [Query.signature, Signature.contains_of_list]

theorem scanned_carries {id : BlockId} {b : Block} (found : s.store.block? id = some b)
    (scanned : id ∈ s.store.scan q.signature) : ∀ other ∈ q.ids, b.signature.contains other = true := by
  obtain ⟨b', found', superset, _⟩ := (Store.mem_scan s.store q.signature id).mp scanned
  obtain rfl := Option.some.inj (found.symm.trans found')
  exact (signature_iff q b.signature).mp superset

theorem columns_of_scanned (sound : s.Sound) (known : ∀ term ∈ q.terms, s.registry.Knows term.type)
    {id : BlockId} {b : Block} (found : s.store.block? id = some b) (scanned : id ∈ s.store.scan q.signature) :
    ∃ columns, b.columnsOf q.terms = some columns :=
  columns_of_matching sound found q.terms known fun term member =>
    scanned_carries found scanned term.type.id (List.mem_map_of_mem member)

theorem carrier_iff (sound : s.Sound) (q : Query) (e : Entity) :
    (s.isEnabled e = .ok true ∧
      ∃ signature, s.signatureOf e = .ok signature ∧ ∀ id ∈ q.ids, signature.contains id = true) ↔
    ∃ id b row, id ∈ s.store.scan q.signature ∧ s.store.block? id = some b ∧ row < b.entityCount ∧
      b.entitySlot row = e := by
  constructor
  · rintro ⟨enabled, signature, signed, carries⟩
    cases located : s.directory.location? e with
    | none =>
        rw [signature_of_stale located] at signed
        contradiction
    | some l =>
        obtain ⟨b, t, home⟩ := home_of sound located
        rw [signature_of_ok home] at signed
        obtain rfl := Except.ok.inj signed
        rw [is_enabled_ok home, home.enabled] at enabled
        have side := home.side
        rw [Except.ok.inj enabled, Block.side_enabled] at side
        obtain ⟨_, name, _⟩ := Block.tenant_side l.row t home.tenant
        have scanned := (Store.mem_scan s.store q.signature l.block).mpr
          ⟨b, home.block, (signature_iff q b.signature).mpr carries, Nat.zero_lt_of_lt side⟩
        exact ⟨l.block, b, l.row, scanned, home.block, side, name.symm.trans home.entity⟩
  · rintro ⟨id, b, row, scanned, found, enabled, rfl⟩
    obtain ⟨t, home⟩ := located_row sound found enabled
    exact ⟨by rw [is_enabled_ok home, home.enabled], b.signature, signature_of_ok home,
      scanned_carries found scanned⟩

theorem row_fits (sound : s.Sound) {id : BlockId} {b : Block} {columns : List (Term × Column)} {row : Nat}
    (found : s.store.block? id = some b) (offered : b.columnsOf q.terms = some columns)
    (enabled : row < b.entityCount) :
    s.Fits q (b.entitySlot row) (columns.map fun p => b.valueOf p row) := by
  obtain ⟨terms, typed⟩ := (Block.columns_of_some_iff b q.terms columns).mp offered
  obtain ⟨t, home⟩ := located_row sound found enabled
  refine ⟨by rw [is_enabled_ok home, home.enabled], ⟨b.signature, signature_of_ok home, fun id member => ?_⟩, ?_⟩
  · obtain ⟨term, asked, rfl⟩ := List.mem_map.mp member
    rw [← terms] at asked
    obtain ⟨p, listed, rfl⟩ := List.mem_map.mp asked
    rw [← Block.column_some_iff home.keeps.sound.laid]
    exact Option.isSome_iff_exists.mpr ⟨p.2, ((Block.typed_column_iff p.1.type p.2).mp (typed p listed)).1⟩
  · rw [← terms]
    refine List.forall₂_map_left_iff.mpr (List.forall₂_map_right_iff.mpr
      (List.forall₂_same.mpr fun p member => ?_))
    exact get_of_shows sound (Store.shows_of_row sound.store found offered enabled p member)

theorem rows_in_fit (sound : s.Sound) (ids : List BlockId) (e : Entity) (values : List Component)
    (member : (e, values) ∈ s.rowsIn q ids) : s.Fits q e values := by
  obtain ⟨id, _, b, columns, row, found, offered, enabled, rfl, rfl⟩ :=
    (Store.mem_table s.store _ _ e values).mp member
  exact row_fits sound found offered enabled

theorem mem_rows (sound : s.Sound) (known : ∀ term ∈ q.terms, s.registry.Knows term.type) (e : Entity)
    (values : List Component) : (e, values) ∈ s.rows q ↔ s.Fits q e values := by
  refine ⟨rows_in_fit sound _ e values, fun ⟨enabled, carries, read⟩ => ?_⟩
  obtain ⟨id, b, row, scanned, found, inside, rfl⟩ := (carrier_iff sound q e).mp ⟨enabled, carries⟩
  obtain ⟨columns, offered⟩ := columns_of_scanned sound known found scanned
  refine (Store.mem_table s.store _ _ _ values).mpr ⟨id, scanned, b, columns, row, found, offered, inside, rfl, ?_⟩
  -- Reading is a function, so the values read off the entity are those of the row.
  refine List.right_unique_forall₂' (fun term first second read other => ?_)
    (row_fits sound found offered inside).2.2 read
  have equal := read.symm.trans other
  exact Except.ok.inj (Except.ok.inj equal)

theorem rows_in_ordered (sound : s.Sound) (q : Query) {ids : List BlockId} (ascending : ids.Pairwise (· < ·)) :
    (s.rowsIn q ids).Pairwise fun first second => ∃ l m, s.locate first.1 = .ok l ∧
      s.locate second.1 = .ok m ∧ l.Before m := by
  have located {id : BlockId} {row : Entity × List Component}
      (member : row ∈ s.store.blockTable q (fun _ b => b.valueOf) id) :
      ∃ l, s.locate row.1 = .ok l ∧ l.block = id := by
    cases found : s.store.block? id with
    | none =>
        rw [Store.block_table_none found] at member
        contradiction
    | some b =>
        rw [Store.block_table_some found, Block.table] at member
        cases offered : b.columnsOf q.terms with
        | none => simp [offered] at member
        | some columns =>
            rw [offered] at member
            obtain ⟨place, inside, rfl⟩ := List.mem_map.mp member
            obtain ⟨t, home⟩ := located_row sound found (List.mem_range.mp inside)
            exact ⟨_, locate_some home.found, rfl⟩
  -- Within a block the rows ascend, and the blocks are visited in ascending order.
  refine List.pairwise_flatMap.mpr ⟨fun id _ => ?_, ?_⟩
  · cases found : s.store.block? id with
    | none =>
        rw [Store.block_table_none found]
        exact List.Pairwise.nil
    | some b =>
        rw [Store.block_table_some found, Block.table]
        cases b.columnsOf q.terms with
        | none => exact List.Pairwise.nil
        | some columns =>
            refine List.pairwise_map.mpr ((List.pairwise_lt_range).imp_of_mem ?_)
            intro first second inside insideToo before
            obtain ⟨_, home⟩ := located_row sound found (List.mem_range.mp inside)
            obtain ⟨_, homeToo⟩ := located_row sound found (List.mem_range.mp insideToo)
            exact ⟨_, _, locate_some home.found, locate_some homeToo.found, Or.inr ⟨rfl, before⟩⟩
  · refine ascending.imp fun {id other} before first member second memberToo => ?_
    obtain ⟨l, place, block⟩ := located member
    obtain ⟨m, placeToo, blockToo⟩ := located memberToo
    exact ⟨l, m, place, placeToo, Or.inl (by rw [block, blockToo]; exact before)⟩

theorem rows_in_proper (sound : s.Sound) (q : Query) {ids : List BlockId} (ascending : ids.Pairwise (· < ·)) :
    s.Proper q (s.rowsIn q ids) := by
  have ordered := rows_in_ordered sound q ascending
  refine ⟨rows_in_fit sound ids, ?_, ordered⟩
  refine List.pairwise_map.mpr (ordered.imp ?_)
  rintro ⟨e, _⟩ ⟨f, _⟩ ⟨l, m, first, second, before⟩ same
  have same : e = f := same
  subst same
  obtain rfl := Except.ok.inj (first.symm.trans second)
  exact Location.before_asymm before before

theorem rows_exact (sound : s.Sound) (known : ∀ term ∈ q.terms, s.registry.Knows term.type) :
    s.Exact q (s.rows q) := by
  have proper := rows_in_proper sound q (Store.scan_ascends s.store q.signature)
  exact ⟨mem_rows sound known, proper.once, proper.ordered⟩

end Rows

section Lookup

structure Looks (s : Scene) (signature : Signature) : Prop where
  blocks : (s.blocksMatching signature).1 = s.store.scan signature
  scene : ∃ cache, (s.blocksMatching signature).2 = { s with store := { s.store with cache } }

theorem looks_ok {turns : Nat} (fresh : s.store.Fresh turns)
    (enough : s.store.cacheQueries = false ∨ turns < 0x10000000000000000) (signature : Signature) :
    s.Looks signature := by
  refine ⟨Store.matching_blocks_eq turns fresh enough signature, ?_⟩
  obtain ⟨cache, same⟩ := Store.matching_blocks_store s.store signature
  exact ⟨cache, congrArg (fun store => { s with store := store }) same⟩

def firstOf (id : ComponentId) (candidates : List Entity) : Outcome Entity :=
  match candidates with
  | [] => .error (.noSingleton id)
  | e :: _ => .ok e

theorem singleton_ok (sound : s.Sound) (id : ComponentId) (looks : s.Looks (Signature.empty.insert id)) :
    ∃ cache, s.singletonEntity id =
      .ok (firstOf id (s.carriers id), { s with store := { s.store with cache } }) := by
  obtain ⟨cache, same⟩ := looks.scene
  rw [singleton_entity_ok sound, same]
  refine ⟨cache, ?_⟩
  cases s.carriers id <;> rfl

theorem carriers_eq (id : ComponentId) (looks : s.Looks (Signature.empty.insert id)) :
    s.carriers id =
      ((s.store.scan (Signature.empty.insert id)).filterMap s.store.block?).flatMap Block.entities := by
  obtain ⟨cache, same⟩ := looks.scene
  have blocks : (s.blocksMatching (Signature.empty.insert id)).2.store.block? = s.store.block? := by
    rw [same]
    rfl
  simp only [carriers, blocks, looks.blocks]

theorem carriers_known (sound : s.Sound) (access : Access) (type : ComponentType)
    (known : s.registry.Knows type) (looks : s.Looks (Signature.empty.insert type.id)) :
    s.carriers type.id = (s.rows (.one ⟨access, type⟩)).map Prod.fst := by
  rw [carriers_eq type.id looks, rows, rowsIn, Store.table_entities]
  · rfl
  · intro id scanned b found
    refine columns_of_scanned (q := .one ⟨access, type⟩) sound (fun term member => ?_) found scanned
    rw [List.mem_singleton.mp member]
    exact known

theorem carriers_unknown (sound : s.Sound) (id : ComponentId) (unregistered : s.registry.get? id = none)
    (looks : s.Looks (Signature.empty.insert id)) :
    s.carriers id = [] := by
  have nothing : s.store.scan (Signature.empty.insert id) = [] := by
    refine List.eq_nil_iff_forall_not_mem.mpr fun block scanned => ?_
    obtain ⟨b, found, superset, _⟩ := (Store.mem_scan s.store _ block).mp scanned
    have laid := (sound.store.keeps block b found).sound.laid
    have carried := (Signature.superset_iff b.signature _).mp superset id (by simp)
    rw [← Block.column_some_iff laid] at carried
    obtain ⟨c, column⟩ := Option.isSome_iff_exists.mp carried
    obtain ⟨member, same⟩ := Block.column_member id c column
    have registered := laid.known c member
    rw [same] at registered
    exact absurd (unregistered.symm.trans registered) (by simp)
  rw [carriers_eq id looks, nothing]
  rfl

end Lookup

end Scene

end EntityStore
