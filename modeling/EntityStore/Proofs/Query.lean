import EntityStore.Proofs.Block.Split
import EntityStore.Proofs.Store.Blocks

set_option autoImplicit false

namespace EntityStore

open Checked

def rowsOf {α : Type} : List Entity → List (List α) → List (Entity × List α)
  | [], _ => []
  | e :: rest, columns =>
    match columns.mapM List.head? with
    | none => []
    | some items => (e, items) :: rowsOf rest (columns.map List.tail)

theorem rows_of_map {α κ : Type} (rows : List κ) (slot : κ → Entity) (columns : List (κ → α)) :
    rowsOf (rows.map slot) (columns.map fun f => rows.map f) =
      rows.map fun row => (slot row, columns.map fun f => f row) := by
  induction rows with
  | nil => rfl
  | cons row rest ih =>
      have heads : (columns.map fun f => (row :: rest).map f).mapM List.head? =
          some (columns.map fun f => f row) := by
        clear ih
        induction columns with
        | nil => rfl
        | cons f others ih =>
            rw [List.map_cons, List.mapM_cons, ih]
            rfl
      have tails : (columns.map fun f => (row :: rest).map f).map List.tail =
          columns.map fun f => rest.map f := by
        rw [List.map_map]
        rfl
      rw [List.map_cons, rowsOf, heads]
      simp only [tails, ih]
      rfl

namespace Fetch

variable {α : Type} {fetch : Fetch α}

def rows (fetch : Fetch α) : List (Entity × List α) :=
  match fetch.columns with
  | none => []
  | some columns => rowsOf fetch.entities columns

theorem rows_end (spent : fetch.next? = none) : fetch.rows = [] := by
  obtain ⟨entities, columns⟩ := fetch
  cases columns with
  | none => rfl
  | some columns =>
      cases entities with
      | nil => rfl
      | cons e rest =>
          show rowsOf (e :: rest) columns = []
          rw [rowsOf, Option.map_eq_none_iff.mp spent]

theorem rows_more {row : Entity × List α} {next : Fetch α} (more : fetch.next? = some (row, next)) :
    fetch.rows = row :: next.rows := by
  obtain ⟨entities, columns⟩ := fetch
  cases entities with
  | nil => simp [next?] at more
  | cons e rest =>
      cases columns with
      | none => simp [next?] at more
      | some columns =>
          obtain ⟨items, heads, given⟩ := Option.map_eq_some_iff.mp more
          obtain ⟨rfl, rfl⟩ := Prod.mk.inj given
          show rowsOf (e :: rest) columns = _
          rw [rowsOf, heads]
          rfl

end Fetch

namespace Cursor

variable {α σ : Type} (entry : Entry α σ) {fetch : Fetch α}

def scan (source : σ) : List BlockId → Checked (List (Entity × List α))
  | [] => .ok []
  | id :: rest => do
    match ← entry source id with
    | none => return []
    | some (fetch, source) => return fetch.elim [] Fetch.rows ++ (← scan source rest)

theorem rows_step (c : Cursor α σ) : c.rows entry =
    match c.next? entry with
    | .error fault => .error fault
    | .ok none => .ok []
    | .ok (some (row, next)) => (next.rows entry).map (row :: ·) := by
  rw [rows]
  split <;> simp only [*]

theorem rows_more {row : Entity × List α} {next : Fetch α} (more : fetch.next? = some (row, next))
    (ids : List BlockId) (source : σ) :
    rows entry ⟨fetch, ids, source⟩ = (rows entry ⟨next, ids, source⟩).map (row :: ·) := by
  rw [rows_step, next?]
  unfold nextIn
  rw [more]

theorem rows_enter (spent : fetch.next? = none) (id : BlockId) (rest : List BlockId) (source : σ) :
    rows entry ⟨fetch, id :: rest, source⟩ = (do
      match ← entry source id with
      | none => return []
      | some (none, source) => rows entry ⟨fetch, rest, source⟩
      | some (some next, source) => rows entry ⟨next, rest, source⟩) := by
  rw [rows_step, next?, nextIn, spent]
  cases entry source id with
  | error fault => rfl
  | ok place =>
      match place with
      | none => rfl
      | some (none, source) => exact (rows_step entry ⟨fetch, rest, source⟩).symm
      | some (some next, source) => exact (rows_step entry ⟨next, rest, source⟩).symm

theorem rows_ahead {ids : List BlockId} {source : σ} {later : Checked (List (Entity × List α))}
    (spent : ∀ fetch : Fetch α, fetch.next? = none → rows entry ⟨fetch, ids, source⟩ = later)
    (fetch : Fetch α) : rows entry ⟨fetch, ids, source⟩ = later.map (fetch.rows ++ ·) := by
  induction length : fetch.entities.length using Nat.strong_induction_on generalizing fetch with
  | h n ih =>
      cases more : fetch.next? with
      | none =>
          rw [spent fetch more, Fetch.rows_end more]
          cases later <;> rfl
      | some given =>
          obtain ⟨row, next⟩ := given
          rw [rows_more entry more, ih _ (length ▸ Fetch.next_shrinks more) next rfl, Fetch.rows_more more]
          cases later <;> rfl

/-- An iterator gives the rest of its block, and then block after block the rows of those still to
come. -/
theorem rows_eq (fetch : Fetch α) (ids : List BlockId) (source : σ) :
    rows entry ⟨fetch, ids, source⟩ = (scan entry source ids).map (fetch.rows ++ ·) := by
  induction ids generalizing fetch source with
  | nil =>
      have spent (fetch : Fetch α) (spent : fetch.next? = none) : rows entry ⟨fetch, [], source⟩ = .ok [] := by
        rw [rows_step, next?, nextIn, spent]
      exact rows_ahead entry spent fetch
  | cons id rest ih =>
      refine rows_ahead entry (fun fetch spent => ?_) fetch
      rw [rows_enter entry spent, scan]
      cases entry source id with
      | error fault => rfl
      | ok place =>
          match place with
          | none => rfl
          | some (none, source) =>
              simp only [ok_bind, ih, Fetch.rows_end spent]
              cases scan entry source rest <;> rfl
          | some (some next, source) =>
              simp only [ok_bind, ih]
              cases scan entry source rest <;> rfl

theorem rows_start (ids : List BlockId) (source : σ) : rows entry ⟨.empty, ids, source⟩ = scan entry source ids := by
  rw [rows_eq]
  cases scan entry source ids <;> rfl

end Cursor

namespace Store

def readBlock (q : Query) (block : Block) : Checked (List (Entity × List Component)) := do
  let entities ← block.readEntities
  return Fetch.rows ⟨entities, ← readTerms block q.terms⟩

def cellsOfBlock (q : Query) (id : BlockId) (block : Block) : Checked (List (Entity × List Cell)) := do
  return (← fetchCells q id block).rows

end Store

namespace Block

variable {registry : Registry} {b : Block}

def columnsOf (b : Block) : List Term → Option (List (Term × Column))
  | [] => some []
  | term :: rest =>
    match b.typedColumn? term.type, columnsOf b rest with
    | some c, some columns => some ((term, c) :: columns)
    | _, _ => none

theorem columns_of_cons (b : Block) (term : Term) (rest : List Term) :
    b.columnsOf (term :: rest) = (b.typedColumn? term.type).bind fun c =>
      (b.columnsOf rest).map fun columns => (term, c) :: columns := by
  rw [columnsOf]
  cases b.typedColumn? term.type with
  | none => rfl
  | some c => cases b.columnsOf rest <;> rfl

theorem columns_of_some_iff (b : Block) (terms : List Term) (columns : List (Term × Column)) :
    b.columnsOf terms = some columns ↔ columns.map Prod.fst = terms ∧
      ∀ p ∈ columns, b.typedColumn? p.1.type = some p.2 := by
  induction terms generalizing columns with
  | nil =>
      constructor
      · intro found
        obtain rfl := Option.some.inj found
        simp
      · rintro ⟨empty, _⟩
        rw [List.map_eq_nil_iff.mp empty]
        rfl
  | cons term rest ih =>
      rw [columns_of_cons, Option.bind_eq_some_iff]
      constructor
      · rintro ⟨c, typed, more⟩
        obtain ⟨others, found, rfl⟩ := Option.map_eq_some_iff.mp more
        obtain ⟨listed, members⟩ := (ih others).mp found
        refine ⟨by rw [List.map_cons, listed], fun p member => ?_⟩
        rcases List.mem_cons.mp member with rfl | later
        · exact typed
        · exact members p later
      · rintro ⟨listed, members⟩
        obtain ⟨first, others, rfl, rfl, same⟩ := List.map_eq_cons_iff.mp listed
        refine ⟨first.2, members first List.mem_cons_self, Option.map_eq_some_iff.mpr ⟨others, ?_, rfl⟩⟩
        exact (ih others).mpr ⟨same, fun p member => members p (List.mem_cons_of_mem first member)⟩

def table {α : Type} (b : Block) (q : Query) (item : Term × Column → Nat → α) :
    List (Entity × List α) :=
  match b.columnsOf q.terms with
  | none => []
  | some columns => (List.range b.entityCount).map fun row =>
      (b.entitySlot row, columns.map fun p => item p row)

def valueOf (b : Block) (p : Term × Column) (row : Nat) : Component :=
  b.valueAt p.1.type (p.2.span.place row)

def cellOf (id : BlockId) (b : Block) (p : Term × Column) (row : Nat) : Cell :=
  ⟨id, p.1, b.pieceOf p.2, row⟩

theorem rows_of_columns {α : Type} (b : Block) (columns : List (Term × Column))
    (item : Term × Column → Nat → α) :
    rowsOf b.entities (columns.map fun p => (List.range b.entityCount).map fun row => item p row) =
      (List.range b.entityCount).map fun row => (b.entitySlot row, columns.map fun p => item p row) := by
  have rows := rows_of_map (List.range b.entityCount) b.entitySlot (columns.map item)
  simp only [List.map_map] at rows
  exact rows

theorem read_terms_ok (genuine : registry.Genuine) (shaped : b.Shaped registry) (terms : List Term) :
    Store.readTerms b terms = .ok ((b.columnsOf terms).map fun columns =>
      columns.map fun p => (List.range b.entityCount).map (b.valueOf p)) := by
  induction terms with
  | nil => rfl
  | cons term rest ih =>
      rw [columns_of_cons, Store.readTerms, read_components_ok genuine shaped, components?]
      cases b.typedColumn? term.type with
      | none => rfl
      | some c =>
          rw [ih]
          cases b.columnsOf rest <;> rfl

theorem read_block_ok (genuine : registry.Genuine) (shaped : b.Shaped registry) (q : Query) :
    Store.readBlock q b = .ok (b.table q b.valueOf) := by
  rw [Store.readBlock, shaped.read_entities, ok_bind, read_terms_ok genuine shaped, table]
  cases b.columnsOf q.terms with
  | none => rfl
  | some columns => exact congrArg Except.ok (rows_of_columns b columns b.valueOf)

theorem take_terms_ok (genuine : registry.Genuine) (laid : b.Laid registry)
    (counted : b.entityCount ≤ b.capacity) (positive : 0 < b.capacity) (id : BlockId) (rows : Nat) (terms : List Term) (taken : List ComponentId)
    (distinct : (terms.map fun term => term.type.id).Nodup)
    (fresh : ∀ term ∈ terms, term.type.id ∉ taken) :
    Store.takeTerms id rows (SplitBlock.left b taken) terms =
      .ok ((b.columnsOf terms).map fun columns =>
        columns.map fun p => (List.range rows).map (cellOf id b p)) := by
  induction terms generalizing taken with
  | nil => rfl
  | cons term rest ih =>
      obtain ⟨alone, tail⟩ := List.nodup_cons.mp distinct
      have next := ih (term.type.id :: taken) tail fun other member => by
        rw [List.mem_cons, not_or]
        exact ⟨fun same => alone (List.mem_map.mpr ⟨other, member, same⟩),
          fresh other (List.mem_cons_of_mem term member)⟩
      rw [columns_of_cons, Store.takeTerms,
        SplitBlock.take_ok genuine laid counted positive taken term.type (fresh term List.mem_cons_self)]
      cases b.typedColumn? term.type with
      | none => rfl
      | some c =>
          simp only [Option.map_some, ok_bind, next, Option.bind_some]
          cases b.columnsOf rest <;> rfl

theorem cells_of_block_ok (genuine : registry.Genuine) (sound : b.Sound registry)
    (positive : 0 < b.capacity) (q : Query) (id : BlockId) (distinct : q.ids.Nodup) :
    Store.cellsOfBlock q id b = .ok (b.table q (cellOf id b)) := by
  -- Nothing is taken from the split block yet.
  have whole : (⟨b.entities, b.columns.map b.pieceOf⟩ : SplitBlock) = SplitBlock.left b [] := by
    rw [SplitBlock.left]
    refine congrArg _ (List.map_congr_left fun c _ => ?_)
    rw [SplitBlock.remaining, if_neg List.not_mem_nil]
  simp only [Store.cellsOfBlock, Store.fetchCells, split_ok sound, ok_bind, whole,
    take_terms_ok genuine sound.laid (Nat.le_trans sound.enabled_le sound.disabled_le) positive id b.entityCount q.terms [] distinct
      (fun _ _ => List.not_mem_nil), table]
  cases b.columnsOf q.terms with
  | none => rfl
  | some columns => exact congrArg Except.ok (rows_of_columns b columns (cellOf id b))

end Block

namespace Store

variable {registry : Registry} {s : Store}

def readBlocks (s : Store) (q : Query) : List BlockId → Checked (List (Entity × List Component))
  | [] => .ok []
  | id :: rest =>
    match s.block? id with
    | none => s.readBlocks q rest
    | some block => do
      let rows ← readBlock q block
      let others ← s.readBlocks q rest
      return rows ++ others

def cellsOfBlocks (s : Store) (q : Query) : List BlockId → Checked (List (Entity × List Cell))
  | [] => .ok []
  | id :: rest =>
    match s.block? id with
    | none => s.cellsOfBlocks q rest
    | some block => do
      let rows ← cellsOfBlock q id block
      let others ← s.cellsOfBlocks q rest
      return rows ++ others

-- The same, up to the first id that is not ahead among the slots.
def cellsAhead (s : Store) (q : Query) : Nat → List BlockId → Checked (List (Entity × List Cell))
  | _, [] => .ok []
  | position, id :: rest =>
    if position ≤ id ∧ id < s.pool.capacity then
      match s.block? id with
      | none => s.cellsAhead q (id + 1) rest
      | some block => do
        let rows ← cellsOfBlock q id block
        let others ← s.cellsAhead q (id + 1) rest
        return rows ++ others
    else .ok []

-- A slot is found as long as the scan of the slots has not passed it.
theorem seek_drop (slots : List (Option Block)) (position id : Nat) :
    seek id ((slots.drop position).zipIdx position) =
      if position ≤ id then slots[id]?.map fun slot => (slot, (slots.drop (id + 1)).zipIdx (id + 1))
      else none := by
  induction ahead : slots.length - position generalizing position with
  | zero =>
      have none : slots.drop position = [] := List.drop_of_length_le (by omega)
      rw [none]
      split
      · rw [List.getElem?_eq_none (by omega)]
        rfl
      · rfl
  | succ n ih =>
      have inside : position < slots.length := by omega
      rw [List.drop_eq_getElem_cons inside, List.zipIdx_cons, seek, ih (position + 1) (by omega)]
      by_cases here : position = id
      · subst here
        rw [if_pos rfl, if_pos (Nat.le_refl position), List.getElem?_eq_getElem inside, Option.map_some]
      · rw [if_neg here]
        by_cases before : position ≤ id
        · rw [if_pos before, if_pos (by omega)]
        · rw [if_neg before, if_neg (by omega)]

theorem read_rows_eq (s : Store) (v : View) : s.readRows v = s.readBlocks v.query v.blocks := by
  rw [readRows, Cursor.rows_start]
  induction v.blocks with
  | nil => rfl
  | cons id rest ih =>
      rw [Cursor.scan, readBlocks, enter]
      cases s.block? id with
      | none =>
          simp only [pure_eq_ok, ok_bind, ih]
          cases s.readBlocks v.query rest <;> rfl
      | some block =>
          simp only [readBlock]
          cases block.readEntities with
          | error fault => rfl
          | ok entities =>
              cases readTerms block v.query.terms with
              | error fault => rfl
              | ok columns =>
                  simp only [pure_eq_ok, ok_bind, ih]
                  rfl

theorem cell_rows_ahead (s : Store) (v : View) : s.cellRows v = s.cellsAhead v.query 0 v.blocks := by
  have scan (position : Nat) (ids : List BlockId) :
      Cursor.scan (enterMut v.query) ((s.pool.slots.toList.drop position).zipIdx position) ids =
        s.cellsAhead v.query position ids := by
    induction ids generalizing position with
    | nil => rfl
    | cons id rest ih =>
        rw [Cursor.scan, cellsAhead, enterMut, seek_drop]
        by_cases ahead : position ≤ id ∧ id < s.pool.capacity
        · have block : s.block? id = (s.pool.slots.toList[id]?).join := by
            rw [Array.getElem?_toList]
            rfl
          have found : s.pool.slots.toList[id]? = some (s.block? id) := by
            have inside : id < s.pool.slots.toList.length := ahead.2
            rw [block, List.getElem?_eq_getElem inside]
            rfl
          rw [if_pos ahead.1, if_pos ahead, found, Option.map_some]
          cases s.block? id with
          | none =>
              simp only [ok_bind, ih]
              cases s.cellsAhead v.query (id + 1) rest <;> rfl
          | some block =>
              simp only [cellsOfBlock]
              cases fetchCells v.query id block with
              | error fault => rfl
              | ok fetch =>
                  simp only [pure_eq_ok, ok_bind, ih]
                  rfl
        · rw [if_neg ahead]
          have missing : (if position ≤ id then s.pool.slots.toList[id]?.map fun slot =>
              (slot, (s.pool.slots.toList.drop (id + 1)).zipIdx (id + 1)) else none) = none := by
            split
            · rw [List.getElem?_eq_none (Nat.not_lt.mp fun inside => ahead ⟨‹_›, inside⟩)]
              rfl
            · rfl
          rw [missing]
          rfl
  rw [cellRows, Cursor.rows_start]
  exact scan 0 v.blocks

/-- A writing view passes over the slots once. In ascending order it comes to each of its blocks, as if
it looked them up one by one. -/
theorem cell_rows_eq (s : Store) (v : View) (ascending : v.blocks.Pairwise (· < ·)) :
    s.cellRows v = s.cellsOfBlocks v.query v.blocks := by
  have each (position : Nat) (ids : List BlockId) (ascending : ids.Pairwise (· < ·))
      (ahead : ∀ id ∈ ids, position ≤ id) : s.cellsAhead v.query position ids = s.cellsOfBlocks v.query ids := by
    induction ids generalizing position with
    | nil => rfl
    | cons id rest ih =>
        obtain ⟨above, later⟩ := List.pairwise_cons.mp ascending
        have others := ih (id + 1) later above
        rw [cellsAhead, cellsOfBlocks]
        by_cases inside : id < s.pool.capacity
        · rw [if_pos ⟨ahead id List.mem_cons_self, inside⟩, others]
        · -- Behind the last slot there are no blocks.
          have vacant (q : BlockId) (beyond : id ≤ q) : s.block? q = none :=
            Pool.get_beyond _ _ (Nat.le_trans (Nat.not_lt.mp inside) beyond)
          have nothing : s.cellsOfBlocks v.query rest = .ok [] := by
            clear ih others later ahead
            induction rest with
            | nil => rfl
            | cons next rest ih =>
                obtain ⟨here, further⟩ := List.forall_mem_cons.mp above
                rw [cellsOfBlocks, vacant next (Nat.le_of_lt here)]
                exact ih (ascending.sublist (.cons_cons id (List.sublist_cons_self next rest))) further
          rw [if_neg fun both => inside both.2, vacant id (Nat.le_refl id)]
          exact nothing.symm
  rw [cell_rows_ahead]
  exact each 0 v.blocks ascending fun _ _ => Nat.zero_le _

def blockTable {α : Type} (s : Store) (q : Query) (item : BlockId → Block → Term × Column → Nat → α)
    (id : BlockId) : List (Entity × List α) :=
  match s.block? id with
  | none => []
  | some b => b.table q (item id b)

theorem block_table_none {α : Type} {id : BlockId} (vacant : s.block? id = none) (q : Query)
    (item : BlockId → Block → Term × Column → Nat → α) : s.blockTable q item id = [] := by
  rw [blockTable, vacant]

theorem block_table_some {α : Type} {id : BlockId} {b : Block} (found : s.block? id = some b) (q : Query)
    (item : BlockId → Block → Term × Column → Nat → α) : s.blockTable q item id = b.table q (item id b) := by
  rw [blockTable, found]

def table {α : Type} (s : Store) (v : View) (item : BlockId → Block → Term × Column → Nat → α) :
    List (Entity × List α) :=
  v.blocks.flatMap (s.blockTable v.query item)

theorem mem_table {α : Type} (s : Store) (v : View) (item : BlockId → Block → Term × Column → Nat → α)
    (e : Entity) (items : List α) :
    (e, items) ∈ s.table v item ↔ ∃ id ∈ v.blocks, ∃ b columns row, s.block? id = some b ∧
      b.columnsOf v.query.terms = some columns ∧ row < b.entityCount ∧ b.entitySlot row = e ∧
      columns.map (fun p => item id b p row) = items := by
  simp only [table, List.mem_flatMap]
  refine exists_congr fun id => and_congr_right fun _ => ?_
  cases held : s.block? id with
  | none =>
      rw [block_table_none held]
      simp
  | some b =>
      rw [block_table_some held, Block.table]
      simp only [Option.some.injEq]
      cases found : b.columnsOf v.query.terms with
      | none => simp [found]
      | some columns => simp [found]

theorem table_entities {α : Type} (s : Store) (q : Query) (ids : List BlockId)
    (item : BlockId → Block → Term × Column → Nat → α)
    (offers : ∀ id ∈ ids, ∀ b, s.block? id = some b → ∃ columns, b.columnsOf q.terms = some columns) :
    (s.table ⟨q, ids⟩ item).map Prod.fst = (ids.filterMap s.block?).flatMap Block.entities := by
  induction ids with
  | nil => rfl
  | cons id rest ih =>
      have others := ih fun other member => offers other (List.mem_cons_of_mem id member)
      simp only [table] at others ⊢
      rw [List.flatMap_cons, List.map_append, others]
      cases found : s.block? id with
      | none =>
          rw [List.filterMap_cons_none found, block_table_none found]
          rfl
      | some b =>
          obtain ⟨columns, offered⟩ := offers id List.mem_cons_self b found
          rw [List.filterMap_cons_some found, List.flatMap_cons, block_table_some found]
          simp only [Block.table, offered, List.map_map]
          rfl

theorem read_rows_ok (sound : s.Sound registry) (v : View) :
    s.readRows v = .ok (s.table v fun _ b => b.valueOf) := by
  obtain ⟨q, ids⟩ := v
  rw [read_rows_eq, table]
  induction ids with
  | nil => rfl
  | cons id rest ih =>
      rw [readBlocks, List.flatMap_cons]
      cases found : s.block? id with
      | none =>
          rw [block_table_none found]
          exact ih
      | some b =>
          have shaped := (sound.keeps id b found).sound.shaped
          rw [block_table_some found]
          simp only [Block.read_block_ok sound.genuine shaped, ok_bind, ih, pure_eq_ok]

theorem cell_rows_ok (sound : s.Sound registry) (v : View) (distinct : v.query.ids.Nodup)
    (ascending : v.blocks.Pairwise (· < ·)) : s.cellRows v = .ok (s.table v Block.cellOf) := by
  rw [cell_rows_eq s v ascending, table]
  obtain ⟨q, ids⟩ := v
  replace distinct : q.ids.Nodup := distinct
  clear ascending
  induction ids with
  | nil => rfl
  | cons id rest ih =>
      rw [cellsOfBlocks, List.flatMap_cons]
      cases found : s.block? id with
      | none =>
          rw [block_table_none found]
          exact ih
      | some b =>
          have kept := sound.keeps id b found
          have positive : 0 < b.capacity := kept.capacity ▸ sound.positive
          rw [block_table_some found]
          simp only [Block.cells_of_block_ok sound.genuine kept.sound positive q id distinct, ok_bind, ih,
            pure_eq_ok]

end Store

end EntityStore
