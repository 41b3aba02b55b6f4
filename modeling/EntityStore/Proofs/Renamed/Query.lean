import EntityStore.Proofs.Renamed.Store
import EntityStore.Proofs.Query

set_option autoImplicit false

namespace EntityStore

open Checked

variable {ρ : Entity → Entity} {α : Type}

def named (ρ : Entity → Entity) (row : Entity × α) : Entity × α := (ρ row.1, row.2)

theorem rows_of_named (es : List Entity) (columns : List (List α)) :
    rowsOf (es.map ρ) columns = (rowsOf es columns).map (named ρ) := by
  induction es generalizing columns with
  | nil => rfl
  | cons e rest ih =>
      rw [List.map_cons, rowsOf, rowsOf]
      cases columns.mapM List.head? with
      | none => rfl
      | some items => exact congrArg (_ :: ·) (ih (columns.map List.tail))

theorem mem_of_heads (columns : List (List α)) {items : List α}
    (heads : columns.mapM List.head? = some items) (item : α) (member : item ∈ items) :
    ∃ column ∈ columns, item ∈ column.head? := by
  induction columns generalizing items with
  | nil =>
      obtain rfl := Option.some.inj heads
      contradiction
  | cons column rest ih =>
      simp only [List.mapM_cons, Option.bind_eq_bind, Option.pure_def, Option.bind_eq_some_iff,
        Option.some.injEq] at heads
      obtain ⟨first, head, others, tails, rfl⟩ := heads
      cases List.mem_cons.mp member with
      | inl here => exact ⟨column, List.mem_cons_self, here ▸ head⟩
      | inr later =>
          obtain ⟨other, there, found⟩ := ih tails later
          exact ⟨other, List.mem_cons_of_mem column there, found⟩

theorem fetch_rows_named (es : List Entity) (columns : Option (List (List α))) :
    Fetch.rows ⟨es.map ρ, columns⟩ = (Fetch.rows ⟨es, columns⟩).map (named ρ) := by
  cases columns with
  | none => rfl
  | some columns => exact rows_of_named es columns

theorem mem_rows_of (es : List Entity) (columns : List (List α)) {row : Entity × List α} {item : α}
    (listed : row ∈ rowsOf es columns) (member : item ∈ row.2) : ∃ column ∈ columns, item ∈ column := by
  induction es generalizing columns with
  | nil => contradiction
  | cons e rest ih =>
      rw [rowsOf] at listed
      cases heads : columns.mapM List.head? with
      | none =>
          rw [heads] at listed
          contradiction
      | some items =>
          simp only [heads, List.mem_cons] at listed
          cases listed with
          | inl first =>
              subst first
              obtain ⟨column, there, head⟩ := mem_of_heads columns heads item member
              exact ⟨column, there, List.mem_of_mem_head? head⟩
          | inr later =>
              obtain ⟨column, inside, held⟩ := ih _ later
              obtain ⟨whole, there, rfl⟩ := List.mem_map.mp inside
              exact ⟨whole, there, List.mem_of_mem_tail held⟩

namespace Block

variable {b other : Block}

def Behind (rows : Nat) (p : ColumnPiece) : Prop := Entity.width * rows ≤ p.start

theorem Renamed.write_piece (renamed : Renamed ρ b other) {piece : ColumnPiece} (behind : Behind b.capacity piece)
    (row : Nat) (bytes : List UInt8) :
    Both ρ (Rewritten ρ b) (b.writePiece piece row bytes) (other.writePiece piece row bytes) := by
  obtain ⟨q, rfl, payload⟩ := renamed.elim
  refine both_bind_same _ fun bytes _ => ?_
  exact both_bind (payload.splice bytes (Nat.le_trans behind (Nat.le_add_right _ _))) fun p q written =>
    .ok ⟨p, q, rfl, rfl, written⟩

theorem cut_behind (capacity size cursor : Nat) (columns : List Column) :
    Ensures (fun _ => True) (cut capacity size cursor columns) fun pieces => ∀ p ∈ pieces, cursor ≤ p.start := by
  induction columns generalizing cursor with
  | nil => exact fun _ member => absurd member List.not_mem_nil
  | cons c rest ih =>
      refine ensures_bind _ (ensures_any _) fun gap _ => ?_
      refine ensures_bind _ (ensures_any _) fun _ _ => ?_
      refine ensures_bind _ (ih _) fun pieces later => List.forall_mem_cons.mpr ⟨?_, fun p member => ?_⟩
      · exact Nat.le_add_right cursor gap
      · have := later p member
        omega

def Parted (ρ : Entity → Entity) (rows : Nat) (x y : SplitBlock) : Prop :=
  y = ⟨x.entities.map ρ, x.pieces⟩ ∧ ∀ p ∈ x.pieces, Behind rows p

theorem Renamed.split (renamed : Renamed ρ b other) : Both ρ (Parted ρ b.capacity) b.split other.split := by
  have entities := renamed.read_entities
  obtain ⟨q, rfl, payload⟩ := renamed.elim
  rw [Block.split, Block.split, payload.check_span, payload.size]
  refine both_bind_same _ fun _ _ => both_bind_same _ fun pieces parted => ?_
  refine both_bind entities fun es others named => .ok ⟨by rw [named], ?_⟩
  have behind := cut_behind b.capacity b.payload.size (Entity.width * b.capacity) b.columns
  rw [parted] at behind
  exact behind

end Block

namespace SplitBlock

variable {rows : Nat}

theorem take_piece_behind (type : ComponentType) (pieces : List ColumnPiece)
    (behind : ∀ p ∈ pieces, Block.Behind rows p) {piece : ColumnPiece} {rest : List ColumnPiece}
    (taken : takePiece type pieces = some (piece, rest)) :
    Block.Behind rows piece ∧ ∀ p ∈ rest, Block.Behind rows p := by
  induction pieces generalizing rest with
  | nil => contradiction
  | cons first others ih =>
      obtain ⟨here, later⟩ := List.forall_mem_cons.mp behind
      rw [takePiece] at taken
      split at taken
      · split at taken
        · contradiction
        · obtain ⟨rfl, rfl⟩ := Prod.mk.inj (Option.some.inj taken)
          exact ⟨here, List.forall_mem_cons.mpr ⟨here, later⟩⟩
      · obtain ⟨⟨found, kept⟩, deeper, same⟩ := Option.map_eq_some_iff.mp taken
        obtain ⟨rfl, rfl⟩ := Prod.mk.inj same
        obtain ⟨inside, rest⟩ := ih later deeper
        exact ⟨inside, List.forall_mem_cons.mpr ⟨here, rest⟩⟩

end SplitBlock

namespace Store

variable {b other : Block} {rows : Nat}

theorem take_terms_named {x y : SplitBlock} (parted : Block.Parted ρ rows x y) (id : BlockId) (count : Nat)
    (terms : List Term) : Both ρ (fun columns others => others = columns ∧ ∀ cells, columns = some cells →
      ∀ column ∈ cells, ∀ c ∈ column, Block.Behind rows c.piece)
      (takeTerms id count x terms) (takeTerms id count y terms) := by
  induction terms generalizing x y with
  | nil =>
      refine .ok ⟨rfl, fun cells none column member => ?_⟩
      obtain rfl := Option.some.inj none
      contradiction
  | cons term rest ih =>
      obtain ⟨rfl, behind⟩ := parted
      rw [takeTerms, takeTerms, SplitBlock.take, SplitBlock.take]
      simp only
      cases taken : SplitBlock.takePiece term.type x.pieces with
      | none => exact .ok ⟨rfl, fun _ some => by contradiction⟩
      | some found =>
          obtain ⟨piece, pieces⟩ := found
          obtain ⟨here, later⟩ := SplitBlock.take_piece_behind term.type x.pieces behind taken
          simp only [bind_assoc, pure_bind, List.length_map]
          refine both_bind_same _ fun _ _ => both_bind_same _ fun _ _ => ?_
          refine both_bind (ih (x := { x with pieces }) ⟨rfl, later⟩) fun columns others both => .ok ⟨?_, ?_⟩
          · rw [both.1]
          · intro cells whole column member c inside
            obtain ⟨rest, found, rfl⟩ := Option.map_eq_some_iff.mp whole
            cases List.mem_cons.mp member with
            | inl first =>
                subst first
                obtain ⟨row, _, rfl⟩ := List.mem_map.mp inside
                exact here
            | inr deeper => exact both.2 rest found column deeper c inside

theorem read_terms_renamed (renamed : Block.Renamed ρ b other) (terms : List Term) :
    readTerms other terms = readTerms b terms := by
  induction terms with
  | nil => rfl
  | cons term rest ih => rw [readTerms, readTerms, renamed.read_components, ih]

theorem read_block_named (renamed : Block.Renamed ρ b other) (q : Query) :
    Both ρ (fun rows others => others = rows.map (named ρ)) (readBlock q b) (readBlock q other) := by
  rw [readBlock, readBlock, read_terms_renamed renamed]
  refine both_bind renamed.read_entities fun es others named => ?_
  exact both_bind_same _ fun columns _ => .ok (named ▸ fetch_rows_named es columns)

def Shown (ρ : Entity → Entity) (rows : Nat) (shown others : List (Entity × List Cell)) : Prop :=
  others = shown.map (named ρ) ∧ ∀ row ∈ shown, ∀ c ∈ row.2, Block.Behind rows c.piece

theorem cells_of_block_named (renamed : Block.Renamed ρ b other) (q : Query) (id : BlockId) :
    Both ρ (Shown ρ b.capacity) (cellsOfBlock q id b) (cellsOfBlock q id other) := by
  have count : other.entityCount = b.entityCount := by rw [renamed.frame]
  rw [cellsOfBlock, cellsOfBlock, fetchCells, fetchCells, count]
  simp only [bind_assoc, pure_bind]
  refine both_bind renamed.split fun x y parted => ?_
  refine both_bind (take_terms_named parted id b.entityCount q.terms) fun _ columns taken => ?_
  obtain ⟨rfl, behind⟩ := taken
  obtain ⟨rfl, -⟩ := parted
  cases columns with
  | none => exact .ok ⟨rfl, fun _ member => absurd member List.not_mem_nil⟩
  | some columns =>
      refine .ok ⟨rows_of_named x.entities columns, fun row listed c member => ?_⟩
      obtain ⟨column, there, held⟩ := mem_rows_of x.entities columns listed member
      exact behind columns rfl column there c held

variable {shift : UInt64} {registry : Registry} {s next : Store}

theorem Renamed.read_rows (renamed : Renamed ρ shift registry s next) (v : View) :
    Both ρ (fun rows others => others = rows.map (named ρ)) (s.readRows v) (next.readRows v) := by
  obtain ⟨q, ids⟩ := v
  rw [read_rows_eq, read_rows_eq]
  simp only
  induction ids with
  | nil => exact .ok rfl
  | cons id rest ih =>
      have blocks := renamed.block id
      rw [readBlocks, readBlocks]
      generalize s.block? id = x at blocks
      generalize next.block? id = y at blocks
      cases blocks with
      | none => exact ih
      | some sized =>
          refine both_bind (read_block_named sized.1 q) fun rows others here => ?_
          exact both_bind ih fun more further there => .ok (by rw [here, there, List.map_append])

theorem Renamed.cell_rows (renamed : Renamed ρ shift registry s next) (v : View) :
    Both ρ (Shown ρ s.capacity) (s.cellRows v) (next.cellRows v) := by
  have nothing : Both ρ (Shown ρ s.capacity) (.ok []) (.ok []) :=
    .ok ⟨rfl, fun _ member => absurd member List.not_mem_nil⟩
  have slots : next.pool.capacity = s.pool.capacity := renamed.pool.capacity
  have ahead (position : Nat) (ids : List BlockId) :
      Both ρ (Shown ρ s.capacity) (s.cellsAhead v.query position ids) (next.cellsAhead v.query position ids) := by
    induction ids generalizing position with
    | nil => exact nothing
    | cons id rest ih =>
        have blocks := renamed.block id
        rw [cellsAhead, cellsAhead, slots]
        by_cases reached : position ≤ id ∧ id < s.pool.capacity
        · rw [if_pos reached, if_pos reached]
          generalize s.block? id = x at blocks
          generalize next.block? id = y at blocks
          cases blocks with
          | none => exact ih (id + 1)
          | some sized =>
              have here := cells_of_block_named sized.1 v.query id
              rw [sized.2] at here
              refine both_bind here fun rows others here =>
                both_bind (ih (id + 1)) fun more further there => .ok ⟨?_, ?_⟩
              · rw [here.1, there.1, List.map_append]
              · exact List.forall_mem_append.mpr ⟨here.2, there.2⟩
        · rw [if_neg reached, if_neg reached]
          exact nothing
  rw [cell_rows_ahead, cell_rows_ahead]
  exact ahead 0 v.blocks

def Visited {β : Type} (ρ : Entity → Entity) (shift : UInt64) (registry : Registry) (s : Store) (x y : β × Store) : Prop :=
  y.1 = x.1 ∧ Renamed ρ shift registry x.2 y.2 ∧ x.2.capacity = s.capacity

theorem Renamed.read_cell (renamed : Renamed ρ shift registry s next) (c : Cell)
    (behind : Block.Behind s.capacity c.piece) :
    next.readCell? c = s.readCell? c := by
  have blocks := renamed.block c.block
  rw [readCell?, readCell?]
  generalize s.block? c.block = x at blocks
  generalize next.block? c.block = y at blocks
  cases blocks with
  | none => rfl
  | some sized =>
      refine congrArg some (sized.1.value_at c.term.type ?_)
      rw [sized.2]
      exact Nat.le_trans behind (Nat.le_add_right _ _)

variable {edit editOther : Edit}

theorem Renamed.visit_cell (renamed : Renamed ρ shift registry s next) {e : Entity} (edits : editOther (ρ e) = edit e)
    (c : Cell) (behind : Block.Behind s.capacity c.piece) :
    Both ρ (Visited ρ shift registry s) (s.visitCell edit e c) (next.visitCell editOther (ρ e) c) := by
  have blocks := renamed.block c.block
  have still : Both ρ (Visited ρ shift registry s) (.ok (s.readCell? c, s)) (.ok (next.readCell? c, next)) :=
    .ok ⟨renamed.read_cell c behind, renamed, rfl⟩
  rw [visitCell, visitCell]
  cases c.term.access with
  | read => exact still
  | write =>
      generalize s.block? c.block = x at blocks
      generalize next.block? c.block = y at blocks
      cases blocks with
      | none => exact still
      | @some b named sized =>
          obtain ⟨block, capacity⟩ := sized
          rw [← capacity] at behind
          have old : named.valueAt c.term.type (c.piece.place c.row) =
              b.valueAt c.term.type (c.piece.place c.row) :=
            block.value_at c.term.type (Nat.le_trans behind (Nat.le_add_right _ _))
          simp only [old, edits]
          refine both_bind (block.write_piece behind c.row _) fun x y written => ?_
          have put := renamed.put c.block (capacity ▸ block.sized written)
          exact .ok ⟨put.read_cell c (capacity ▸ behind), put, rfl⟩

theorem Renamed.visit_row (renamed : Renamed ρ shift registry s next) {e : Entity} (edits : editOther (ρ e) = edit e)
    (cells : List Cell) (behind : ∀ c ∈ cells, Block.Behind s.capacity c.piece) :
    Both ρ (Visited ρ shift registry s) (s.visitRow edit e cells) (next.visitRow editOther (ρ e) cells) := by
  induction cells generalizing s next with
  | nil => exact .ok ⟨rfl, renamed, rfl⟩
  | cons c rest ih =>
      obtain ⟨here, later⟩ := List.forall_mem_cons.mp behind
      refine both_bind (renamed.visit_cell edits c here) fun x y visited => ?_
      obtain ⟨same, stores, capacity⟩ := visited
      refine both_bind (ih stores (capacity ▸ later)) fun z w others => ?_
      refine .ok ⟨?_, others.2.1, others.2.2.trans capacity⟩
      rw [same, others.1]

theorem Renamed.visit_rows (renamed : Renamed ρ shift registry s next) (edits : ∀ e, editOther (ρ e) = edit e)
    (rows : List (Entity × List Cell)) (behind : ∀ row ∈ rows, ∀ c ∈ row.2, Block.Behind s.capacity c.piece) :
    Both ρ (fun x y => y.1 = x.1.map (named ρ) ∧ Renamed ρ shift registry x.2 y.2) (s.visitRows edit rows)
      (next.visitRows editOther (rows.map (named ρ))) := by
  induction rows generalizing s next with
  | nil => exact .ok ⟨rfl, renamed⟩
  | cons row rest ih =>
      obtain ⟨here, later⟩ := List.forall_mem_cons.mp behind
      refine both_bind (renamed.visit_row (edits row.1) row.2 here) fun x y visited => ?_
      obtain ⟨same, stores, capacity⟩ := visited
      refine both_bind (ih stores (capacity ▸ later)) fun z w others => .ok ⟨?_, others.2⟩
      rw [same, others.1]
      rfl

end Store

end EntityStore
