import EntityStore.Bundle
import EntityStore.Block.Rows
import EntityStore.Block.Split
import EntityStore.Proofs.Block.Contents
import EntityStore.Proofs.Buffer
import EntityStore.Proofs.Renamed.Checked

set_option autoImplicit false

namespace EntityStore

open Checked

variable {ρ : Entity → Entity}

namespace Buffer

def slot (p : Buffer) (row : Nat) : Entity :=
  .ofBytes (p.read (Block.entitySpan.place row) Block.entitySpan.size)

structure Renamed (ρ : Entity → Entity) (rows : Nat) (p other : Buffer) : Prop where
  size : other.size = p.size
  slots : ∀ row < rows, other.slot row = ρ (p.slot row)
  rest : ∀ i, Entity.width * rows ≤ i → other.get i = p.get i

variable {rows : Nat} {p other : Buffer}

theorem place_slot (row : Nat) : Block.entitySpan.place row = Entity.width * row := by
  rw [Span.place, Block.entitySpan, Nat.zero_add, Nat.mul_comm]

theorem slot_write_apart (p : Buffer) (row start : Nat) (bytes : List UInt8)
    (apart : Entity.width * row + Entity.width ≤ start ∨ start + bytes.length ≤ Entity.width * row) :
    (p.write start bytes).slot row = p.slot row := by
  rw [slot, slot, place_slot]
  exact congrArg _ (read_write_apart p start bytes _ _ apart)

namespace Renamed

theorem read (renamed : Renamed ρ rows p other) {start : Nat} (length : Nat)
    (behind : Entity.width * rows ≤ start) : other.read start length = p.read start length :=
  read_congr other p start start length fun k _ => renamed.rest (start + k) (by omega)

theorem check_span (renamed : Renamed ρ rows p other) (start length : Nat) :
    other.checkSpan start length = p.checkSpan start length := by
  rw [checkSpan, checkSpan, renamed.size]

theorem slice (renamed : Renamed ρ rows p other) {start : Nat} (length : Nat)
    (behind : Entity.width * rows ≤ start) : other.slice start length = p.slice start length := by
  rw [Buffer.slice, Buffer.slice, renamed.check_span, renamed.read length behind]

theorem write (renamed : Renamed ρ rows p other) {start : Nat} (bytes : List UInt8)
    (behind : Entity.width * rows ≤ start) :
    Renamed ρ rows (p.write start bytes) (other.write start bytes) := by
  refine ⟨by simp [renamed.size], fun row bound => ?_, fun i here => ?_⟩
  · have before : Entity.width * row + Entity.width ≤ start :=
      Nat.le_trans (Nat.mul_le_mul_left Entity.width bound) behind
    rw [slot_write_apart _ row start bytes (.inl before), slot_write_apart _ row start bytes (.inl before),
      renamed.slots row bound]
  · rw [get_write, get_write, renamed.size, renamed.rest i here]

theorem splice (renamed : Renamed ρ rows p other) {start : Nat} (bytes : List UInt8)
    (behind : Entity.width * rows ≤ start) :
    Both ρ (Renamed ρ rows) (p.splice start bytes) (other.splice start bytes) := by
  rw [Buffer.splice, Buffer.splice, renamed.check_span]
  exact both_bind_same _ fun _ _ => .ok (renamed.write bytes behind)

theorem splice_slot (renamed : Renamed ρ rows p other) {row : Nat} (bound : row < rows)
    {handle named : List UInt8} (length : handle.length = Entity.width) (size : named.length = Entity.width)
    (same : Entity.ofBytes named = ρ (.ofBytes handle)) :
    Both ρ (Renamed ρ rows) (p.splice (Block.entitySpan.place row) handle)
      (other.splice (Block.entitySpan.place row) named) := by
  rw [Buffer.splice, Buffer.splice, renamed.check_span, length, size]
  refine both_bind_same _ fun _ checked => .ok ?_
  have inside : Block.entitySpan.place row + Entity.width ≤ p.size := by
    refine Decidable.byContradiction fun outside => ?_
    simp [checkSpan, Checked.require, outside] at checked
  have filled (q : Buffer) (bytes : List UInt8) (width : bytes.length = Entity.width)
      (room : Block.entitySpan.place row + Entity.width ≤ q.size) :
      (q.write (Block.entitySpan.place row) bytes).slot row = .ofBytes bytes := by
    have back := read_write_same q (Block.entitySpan.place row) bytes (width ▸ room)
    rw [width] at back
    exact congrArg Entity.ofBytes back
  have before : Entity.width * row + Entity.width ≤ Entity.width * rows :=
    Nat.mul_le_mul_left Entity.width bound
  refine ⟨by simp [renamed.size], fun r inRange => ?_, fun i behind => ?_⟩
  · by_cases here : r = row
    · rw [here, filled p handle length inside, filled other named size (renamed.size ▸ inside), same]
    · have apart : Entity.width * r + Entity.width ≤ Block.entitySpan.place row ∨
          Block.entitySpan.place row + Entity.width ≤ Entity.width * r := by
        rw [place_slot]
        cases Nat.lt_or_gt_of_ne here with
        | inl less => exact .inl (Nat.mul_le_mul_left Entity.width less)
        | inr more => exact .inr (Nat.mul_le_mul_left Entity.width more)
      rw [slot_write_apart _ r _ handle (length ▸ apart), slot_write_apart _ r _ named (size ▸ apart),
        renamed.slots r inRange]
  · rw [get_write, get_write, length, size, place_slot, if_neg (by omega), if_neg (by omega),
      renamed.rest i behind]

end Renamed

end Buffer

namespace Span

theorem place_of_locate {s : Span} {row place : Nat} (located : s.locate row = .ok place) :
    place = s.place row := by
  unfold locate Checked.mul Checked.add at located
  by_cases first : row * s.size < sizeLimit
  · by_cases second : s.offset + row * s.size < sizeLimit
    · by_cases third : s.offset + row * s.size + s.size < sizeLimit
      · simp only [if_pos first, if_pos second, if_pos third, ok_bind] at located
        exact (Except.ok.inj located).symm
      · simp [first, second, third] at located
    · simp [first, second] at located
  · simp [first] at located

end Span

namespace Block

structure Renamed (ρ : Entity → Entity) (b other : Block) : Prop where
  frame : other = { b with payload := other.payload }
  payload : Buffer.Renamed ρ b.capacity b.payload other.payload
  enabled : b.entityCount ≤ b.disabledStart
  disabled : b.disabledStart ≤ b.capacity
  columns : ∀ c ∈ b.columns, Entity.width * b.capacity ≤ c.offset

variable {b other : Block} {row rows : Nat} {p q : Buffer}

namespace Renamed

theorem elim (renamed : Renamed ρ b other) :
    ∃ p, other = { b with payload := p } ∧ Buffer.Renamed ρ b.capacity b.payload p :=
  ⟨other.payload, renamed.frame, renamed.payload⟩

theorem with_payload (renamed : Renamed ρ b other) {p q : Buffer} (payload : Buffer.Renamed ρ b.capacity p q) :
    Renamed ρ { b with payload := p } { b with payload := q } :=
  ⟨rfl, payload, renamed.enabled, renamed.disabled, renamed.columns⟩

theorem behind (renamed : Renamed ρ b other) {c : Column} (member : c ∈ b.columns) (row : Nat) :
    Entity.width * b.capacity ≤ c.span.place row :=
  Nat.le_trans (renamed.columns c member) (Nat.le_add_right _ _)

theorem entity_slot (renamed : Renamed ρ b other) (bound : row < b.capacity) :
    other.entitySlot row = ρ (b.entitySlot row) := renamed.payload.slots row bound

theorem enabled_bound (renamed : Renamed ρ b other) (enabled : b.isEnabledRow row = true) :
    row < b.entityCount ∧ row < b.capacity := by
  have count := renamed.enabled
  have start := renamed.disabled
  have inside : row < b.entityCount := of_decide_eq_true enabled
  exact ⟨inside, by omega⟩

theorem disabled_bound (disabled : b.isDisabledRow row = true) :
    b.disabledStart ≤ row ∧ row < b.capacity := by
  rw [isDisabledRow, Bool.and_eq_true] at disabled
  exact ⟨of_decide_eq_true disabled.1, of_decide_eq_true disabled.2⟩

end Renamed

section Reading

theorem Renamed.entities (renamed : Renamed ρ b other) : other.entities = b.entities.map ρ := by
  have count := renamed.enabled
  have start := renamed.disabled
  obtain ⟨p, rfl, payload⟩ := renamed.elim
  change (List.range b.entityCount).map _ = _
  rw [Block.entities, List.map_map]
  refine List.map_congr_left fun row member => ?_
  have inside := List.mem_range.mp member
  exact payload.slots row (by omega)

theorem Renamed.read_entities (renamed : Renamed ρ b other) :
    Both ρ (fun es others => others = es.map ρ) b.readEntities other.readEntities := by
  have entities := renamed.entities
  obtain ⟨p, rfl, payload⟩ := renamed.elim
  rw [readEntities, readEntities, readSlots, readSlots, payload.check_span]
  refine both_bind_same _ fun _ _ => both_bind_same _ fun _ _ => .ok ?_
  rw [Nat.sub_zero, ← List.range_eq_range']
  exact entities

theorem Renamed.read_slot (renamed : Renamed ρ b other) (bound : row < b.capacity) :
    Both ρ (fun e other => other = ρ e) (b.readSlot row) (other.readSlot row) := by
  have slot := renamed.entity_slot bound
  obtain ⟨p, rfl, payload⟩ := renamed.elim
  rw [readSlot, readSlot, payload.check_span]
  exact both_bind_same _ fun _ _ => both_bind_same _ fun _ _ => .ok slot

theorem Renamed.value_at (renamed : Renamed ρ b other) (type : ComponentType) {position : Nat}
    (behind : Entity.width * b.capacity ≤ position) :
    other.valueAt type position = b.valueAt type position :=
  Component.ext_bytes rfl (renamed.payload.read type.size behind)

theorem column_mem {id : ComponentId} {c : Column} (found : b.column? id = some c) : c ∈ b.columns :=
  List.mem_of_find?_eq_some found

theorem typed_column_mem {type : ComponentType} {c : Column} (found : b.typedColumn? type = some c) :
    c ∈ b.columns :=
  column_mem (Option.filter_eq_some_iff.mp found).1

theorem Renamed.read_bytes (renamed : Renamed ρ b other) (id : ComponentId) (row : Nat) :
    other.readBytes id row = b.readBytes id row := by
  have cells (c : Column) (member : c ∈ b.columns) : other.payload.slice (c.span.place row) c.span.size =
      b.payload.slice (c.span.place row) c.span.size :=
    renamed.payload.slice c.span.size (renamed.behind member row)
  have columns : other.column? id = b.column? id := by rw [renamed.frame]; rfl
  have rows : other.isOccupied row = b.isOccupied row := by rw [renamed.frame]; rfl
  rw [readBytes, readBytes, columns, rows]
  cases found : b.column? id with
  | none => rfl
  | some c => simp only [cells c (column_mem found)]

theorem Renamed.component (renamed : Renamed ρ b other) (type : ComponentType) (row : Nat) :
    other.component? type row = b.component? type row := by
  have values (c : Column) (member : c ∈ b.columns) :
      other.valueAt type (c.span.place row) = b.valueAt type (c.span.place row) :=
    renamed.value_at type (renamed.behind member row)
  obtain ⟨p, rfl, payload⟩ := renamed.elim
  change (if b.isOccupied row = true then (b.typedColumn? type).map _ else none) = _
  rw [component?]
  cases found : b.typedColumn? type with
  | none => rfl
  | some c => simp only [Option.map_some, values c (typed_column_mem found)]

theorem Renamed.read_component (renamed : Renamed ρ b other) (access : Access) (type : ComponentType)
    (row : Nat) : other.readComponent access type row = b.readComponent access type row := by
  have bytes := renamed.read_bytes type.id row
  have values (c : Column) (member : c ∈ b.columns) :
      other.valueAt type (c.span.place row) = b.valueAt type (c.span.place row) :=
    renamed.value_at type (renamed.behind member row)
  have columns : other.typedColumn? type = b.typedColumn? type := by rw [renamed.frame]; rfl
  rw [readComponent, readComponent, bytes, columns]
  cases found : b.typedColumn? type with
  | none => rfl
  | some c => simp only [values c (typed_column_mem found)]

theorem Renamed.read_components (renamed : Renamed ρ b other) (type : ComponentType) :
    other.readComponents type = b.readComponents type := by
  have values (c : Column) (member : c ∈ b.columns) (row : Nat) :
      other.valueAt type (c.span.place row) = b.valueAt type (c.span.place row) :=
    renamed.value_at type (renamed.behind member row)
  have columns : other.typedColumn? type = b.typedColumn? type := by rw [renamed.frame]; rfl
  have run (c : Column) : other.checkRun .read type c = b.checkRun .read type c := by
    rw [checkRun, checkRun, renamed.payload.check_span, renamed.frame]
  rw [readComponents, readComponents, columns]
  cases found : b.typedColumn? type with
  | none => rfl
  | some c =>
      have count : other.entityCount = b.entityCount := by rw [renamed.frame]
      simp only [run, count, values c (typed_column_mem found)]

end Reading

section Rows

def Rewritten (ρ : Entity → Entity) (b x y : Block) : Prop :=
  ∃ p q, x = { b with payload := p } ∧ y = { b with payload := q } ∧ Buffer.Renamed ρ b.capacity p q

def Cells (ρ : Entity → Entity) (cells others : List (List UInt8)) : Prop :=
  ∃ handle named rest, cells = handle :: rest ∧ others = named :: rest ∧
    handle.length = Entity.width ∧ named.length = Entity.width ∧
    Entity.ofBytes named = ρ (.ofBytes handle)

theorem Renamed.read_row (renamed : Renamed ρ b other) (bound : row < b.capacity) :
    Both ρ (Cells ρ) (b.readRow row) (other.readRow row) := by
  have columns : (b.columns.map Column.span).mapM (fun s => other.payload.slice (s.place row) s.size) =
      (b.columns.map Column.span).mapM (fun s => b.payload.slice (s.place row) s.size) := by
    refine mapM_congr _ fun s member => ?_
    obtain ⟨c, listed, rfl⟩ := List.mem_map.mp member
    exact renamed.payload.slice c.span.size (renamed.behind listed row)
  have spans : other.spans = b.spans := by rw [renamed.frame]; rfl
  have slots := renamed.payload.slots row bound
  rw [readRow, readRow, spans, Block.spans, List.mapM_cons, List.mapM_cons, columns]
  rw [Buffer.slice, Buffer.slice, renamed.payload.check_span, bind_assoc, bind_assoc]
  refine both_bind_same _ fun _ _ => both_bind_same _ fun cells _ => .ok ?_
  exact ⟨_, _, cells, rfl, rfl, Buffer.length_read _ _ _, Buffer.length_read _ _ _, slots⟩

theorem Renamed.write_cells (renamed : Buffer.Renamed ρ rows p q) (row : Nat)
    (cells : List (Span × List UInt8)) (behind : ∀ cell ∈ cells, Entity.width * rows ≤ cell.1.offset) :
    Both ρ (Buffer.Renamed ρ rows) (writeCells row p cells) (writeCells row q cells) := by
  induction cells generalizing p q with
  | nil => exact .ok renamed
  | cons cell rest ih =>
      have start := behind cell List.mem_cons_self
      refine both_bind (renamed.splice cell.2 (Nat.le_trans start (Nat.le_add_right _ _))) fun p q written => ?_
      exact ih written fun cell member => behind cell (List.mem_cons_of_mem _ member)

theorem Renamed.write_row (renamed : Renamed ρ b other) (bound : row < b.capacity)
    {cells others : List (List UInt8)} (same : Cells ρ cells others) :
    Both ρ (Rewritten ρ b) (b.writeRow row cells) (other.writeRow row others) := by
  obtain ⟨handle, named, rest, rfl, rfl, length, size, same⟩ := same
  have behind : ∀ cell ∈ (b.columns.map Column.span).zip rest, Entity.width * b.capacity ≤ cell.1.offset := by
    intro cell member
    obtain ⟨c, listed, same⟩ := List.mem_map.mp (List.of_mem_zip member).1
    rw [← same]
    exact renamed.columns c listed
  obtain ⟨q, rfl, payload⟩ := renamed.elim
  rw [writeRow, writeRow, Block.spans, Block.spans, List.zip_cons_cons, List.zip_cons_cons, writeCells,
    writeCells, bind_assoc, bind_assoc]
  refine both_bind (payload.splice_slot bound length size same) fun p q named => ?_
  exact both_bind (Renamed.write_cells named row _ behind) fun p q written => .ok ⟨p, q, rfl, rfl, written⟩

theorem Renamed.copy_row (renamed : Renamed ρ b other) {source target : Nat} (first : source < b.capacity)
    (second : target < b.capacity) :
    Both ρ (Rewritten ρ b) (b.copyRow source target) (other.copyRow source target) :=
  both_bind (renamed.read_row first) fun _ _ cells => renamed.write_row second cells

theorem Renamed.zero_row (renamed : Renamed ρ b other) (void : ρ ⟨0, 0⟩ = ⟨0, 0⟩) (bound : row < b.capacity) :
    Both ρ (Rewritten ρ b) (b.zeroRow row) (other.zeroRow row) := by
  have spans : other.spans = b.spans := by rw [renamed.frame]; rfl
  rw [zeroRow, zeroRow, spans]
  refine renamed.write_row bound ⟨_, _, _, rfl, rfl, List.length_replicate, List.length_replicate, ?_⟩
  have zero : Entity.ofBytes (List.replicate entitySpan.size 0) = ⟨0, 0⟩ := Entity.ofBytes_replicate_zero
  exact zero.trans (void.symm.trans (congrArg ρ zero.symm))

theorem Renamed.swap_rows (renamed : Renamed ρ b other) {first second : Nat} (one : first < b.capacity)
    (two : second < b.capacity) :
    Both ρ (Rewritten ρ b) (b.swapRows first second) (other.swapRows first second) := by
  refine both_bind (renamed.read_row one) fun _ _ firsts => ?_
  refine both_bind (renamed.read_row two) fun _ _ seconds => ?_
  refine both_bind (renamed.write_row one seconds) fun x y written => ?_
  obtain ⟨p, q, rfl, rfl, payload⟩ := written
  exact (renamed.with_payload payload).write_row two firsts

theorem Renamed.move_row (renamed : Renamed ρ b other) (void : ρ ⟨0, 0⟩ = ⟨0, 0⟩) {source target : Nat}
    (first : source < b.capacity) (second : target < b.capacity) :
    Both ρ (Rewritten ρ b) (b.moveRow source target) (other.moveRow source target) := by
  rw [moveRow, moveRow]
  by_cases same : target = source
  · rw [if_pos same, if_pos same]
    exact .ok ⟨b.payload, other.payload, rfl, renamed.frame, renamed.payload⟩
  · rw [if_neg same, if_neg same]
    refine both_bind (renamed.copy_row first second) fun x y copied => ?_
    obtain ⟨p, q, rfl, rfl, payload⟩ := copied
    exact (renamed.with_payload payload).zero_row void first

theorem Renamed.write_cell (renamed : Renamed ρ b other) {c : Column} (member : c ∈ b.columns) (row : Nat)
    (bytes : List UInt8) : Both ρ (Rewritten ρ b) (b.writeCell c row bytes) (other.writeCell c row bytes) := by
  obtain ⟨q, rfl, payload⟩ := renamed.elim
  refine both_bind_same _ fun bytes _ => ?_
  exact both_bind (payload.splice bytes (renamed.behind member row)) fun p q written =>
    .ok ⟨p, q, rfl, rfl, written⟩

end Rows

section Entities

def Sized (ρ : Entity → Entity) (capacity : Nat) (x y : Block) : Prop := Renamed ρ x y ∧ x.capacity = capacity

theorem Renamed.sized (renamed : Renamed ρ b other) {x y : Block} (rewritten : Rewritten ρ b x y) :
    Sized ρ b.capacity x y := by
  obtain ⟨p, q, rfl, rfl, payload⟩ := rewritten
  exact ⟨renamed.with_payload payload, rfl⟩

theorem Renamed.recount (renamed : Renamed ρ b other) {p q : Buffer}
    (payload : Buffer.Renamed ρ b.capacity p q) {count start : Nat} (ordered : count ≤ start)
    (bound : start ≤ b.capacity) :
    Sized ρ b.capacity { b with entityCount := count, disabledStart := start, payload := p }
      { b with entityCount := count, disabledStart := start, payload := q } :=
  ⟨⟨rfl, payload, ordered, bound, renamed.columns⟩, rfl⟩

def Pushed (ρ : Entity → Entity) (capacity : Nat) (x y : Nat × Block) : Prop :=
  y.1 = x.1 ∧ Sized ρ capacity x.2 y.2

theorem Renamed.push (renamed : Renamed ρ b other) (e : Entity) :
    Both ρ (Option.Rel (Pushed ρ b.capacity)) (b.push e) (other.push (ρ e)) := by
  have start := renamed.disabled
  have others := renamed.frame
  rw [Block.push, Block.push, show other.hasSpace = b.hasSpace by rw [others]; rfl]
  by_cases space : b.hasSpace = true
  · have room : b.entityCount < b.disabledStart := of_decide_eq_true space
    rw [if_pos space, if_pos space, show other.columns = b.columns by rw [others],
      show other.entityCount = b.entityCount by rw [others]]
    refine both_bind_same _ fun defaults _ => ?_
    have cells : Cells ρ (e.bytes :: defaults) ((ρ e).bytes :: defaults) :=
      ⟨_, _, defaults, rfl, rfl, e.length_bytes, (ρ e).length_bytes,
        by rw [Entity.ofBytes_bytes, Entity.ofBytes_bytes]⟩
    refine both_bind (renamed.write_row (by omega) cells) fun x y written => ?_
    obtain ⟨p, q, rfl, rfl, payload⟩ := written
    exact .ok (.some ⟨rfl, renamed.recount payload room start⟩)
  · rw [if_neg space, if_neg space]
    exact .ok .none

def Moved (ρ : Entity → Entity) (capacity : Nat) (x y : Option Entity × Block) : Prop :=
  y.1 = x.1.map ρ ∧ Sized ρ capacity x.2 y.2

theorem Renamed.refill (renamed : Renamed ρ b other) (void : ρ ⟨0, 0⟩ = ⟨0, 0⟩) {source : Nat}
    (first : row < b.capacity) (second : source < b.capacity) :
    Both ρ (fun x y => y.1 = x.1.map ρ ∧ Rewritten ρ b x.2 y.2) (b.refill row source)
      (other.refill row source) := by
  rw [Block.refill, Block.refill]
  by_cases same : row = source
  · rw [if_pos same, if_pos same]
    exact both_bind (renamed.zero_row void second) fun x y zeroed => .ok ⟨rfl, zeroed⟩
  · rw [if_neg same, if_neg same]
    refine both_bind (renamed.copy_row second first) fun x y copied => ?_
    obtain ⟨p, q, rfl, rfl, payload⟩ := copied
    have again := renamed.with_payload payload
    refine both_bind (again.read_slot first) fun e _ named => ?_
    exact both_bind (again.zero_row void second) fun x y zeroed => .ok ⟨congrArg some named, zeroed⟩

theorem Renamed.swap_remove (renamed : Renamed ρ b other) (void : ρ ⟨0, 0⟩ = ⟨0, 0⟩) (row : Nat) :
    Both ρ (Moved ρ b.capacity) (b.swapRemove row) (other.swapRemove row) := by
  have count := renamed.enabled
  have start := renamed.disabled
  obtain ⟨q, rfl, payload⟩ := renamed.elim
  refine both_bind_same _ fun _ checked => ?_
  obtain ⟨inside, bound⟩ := renamed.enabled_bound (of_require checked)
  have difference : sub b.entityCount 1 = .ok (b.entityCount - 1) := sub_ok _ _ (by omega)
  have last : b.entityCount - 1 < b.capacity := by omega
  have ordered : b.entityCount - 1 ≤ b.disabledStart := by omega
  simp only [difference, ok_bind]
  refine both_bind (renamed.refill void bound last) fun x y filled => ?_
  obtain ⟨moved, block⟩ := x
  obtain ⟨other, next⟩ := y
  obtain ⟨same, p, q, rfl, rfl, payload⟩ := filled
  exact .ok ⟨same, renamed.recount payload ordered start⟩

theorem Renamed.remove_disabled (renamed : Renamed ρ b other) (void : ρ ⟨0, 0⟩ = ⟨0, 0⟩) (row : Nat) :
    Both ρ (Moved ρ b.capacity) (b.removeDisabled row) (other.removeDisabled row) := by
  have count := renamed.enabled
  obtain ⟨q, rfl, payload⟩ := renamed.elim
  refine both_bind_same _ fun _ checked => ?_
  obtain ⟨inside, bound⟩ := Renamed.disabled_bound (of_require checked)
  have first : b.disabledStart < b.capacity := by omega
  have ordered : b.entityCount ≤ b.disabledStart + 1 := by omega
  refine both_bind (renamed.refill void bound first) fun x y filled => ?_
  obtain ⟨moved, block⟩ := x
  obtain ⟨other, next⟩ := y
  obtain ⟨same, p, q, rfl, rfl, payload⟩ := filled
  exact .ok ⟨same, renamed.recount payload ordered first⟩

theorem Renamed.bring_to (renamed : Renamed ρ b other) {edge : Nat} (first : row < b.capacity)
    (second : edge < b.capacity) :
    Both ρ (fun x y => y.1 = x.1.map (Prod.map ρ id) ∧ Rewritten ρ b x.2 y.2) (b.bringTo row edge)
      (other.bringTo row edge) := by
  rw [bringTo, bringTo]
  by_cases same : row = edge
  · rw [if_pos same, if_pos same]
    exact .ok ⟨rfl, b.payload, other.payload, rfl, renamed.frame, renamed.payload⟩
  · rw [if_neg same, if_neg same]
    refine both_bind (renamed.swap_rows first second) fun x y swapped => ?_
    obtain ⟨p, q, rfl, rfl, payload⟩ := swapped
    refine both_bind ((renamed.with_payload payload).read_slot first) fun e _ named => ?_
    exact .ok ⟨congrArg (fun e => some (e, row)) named, p, q, rfl, rfl, payload⟩

def Transferred (ρ : Entity → Entity) (capacity : Nat) (x y : RowTransfer × Block) : Prop :=
  y.1.newRow = x.1.newRow ∧ y.1.displaced = x.1.displaced.map (Prod.map ρ id) ∧ Sized ρ capacity x.2 y.2

theorem Renamed.disable (renamed : Renamed ρ b other) (void : ρ ⟨0, 0⟩ = ⟨0, 0⟩) (row : Nat) :
    Both ρ (Transferred ρ b.capacity) (b.disable row) (other.disable row) := by
  have count := renamed.enabled
  have start := renamed.disabled
  obtain ⟨q, rfl, payload⟩ := renamed.elim
  refine both_bind_same _ fun _ checked => ?_
  obtain ⟨inside, bound⟩ := renamed.enabled_bound (of_require checked)
  have difference : sub b.entityCount 1 = .ok (b.entityCount - 1) := sub_ok _ _ (by omega)
  have last : b.entityCount - 1 < b.capacity := by omega
  simp only [difference, ok_bind]
  refine both_bind (renamed.bring_to bound last) fun x y brought => ?_
  obtain ⟨displaced, block⟩ := x
  obtain ⟨other, next⟩ := y
  obtain ⟨same, p, q, rfl, rfl, payload⟩ := brought
  refine both_bind_same (sub b.disabledStart 1) fun target subtracted => ?_
  have less : target = b.disabledStart - 1 := by
    rw [sub_ok _ _ (by omega)] at subtracted
    exact (Except.ok.inj subtracted).symm
  have free : target < b.capacity := by omega
  have ordered : b.entityCount - 1 ≤ target := by omega
  refine both_bind ((renamed.with_payload payload).move_row void last free) fun x y moved => ?_
  obtain ⟨p, q, rfl, rfl, payload⟩ := moved
  exact .ok ⟨rfl, same, renamed.recount payload ordered (Nat.le_of_lt free)⟩

theorem Renamed.enable (renamed : Renamed ρ b other) (void : ρ ⟨0, 0⟩ = ⟨0, 0⟩) (row : Nat) :
    Both ρ (Transferred ρ b.capacity) (b.enable row) (other.enable row) := by
  have count := renamed.enabled
  obtain ⟨q, rfl, payload⟩ := renamed.elim
  refine both_bind_same _ fun _ checked => ?_
  obtain ⟨inside, bound⟩ := Renamed.disabled_bound (of_require checked)
  have first : b.disabledStart < b.capacity := by omega
  refine both_bind (renamed.bring_to bound first) fun x y brought => ?_
  obtain ⟨displaced, block⟩ := x
  obtain ⟨other, next⟩ := y
  obtain ⟨same, p, q, rfl, rfl, payload⟩ := brought
  have target : b.entityCount < b.capacity := by omega
  have ordered : b.entityCount + 1 ≤ b.disabledStart + 1 := by omega
  refine both_bind ((renamed.with_payload payload).move_row void first target) fun x y moved => ?_
  obtain ⟨p, q, rfl, rfl, payload⟩ := moved
  exact .ok ⟨rfl, same, renamed.recount payload ordered first⟩

end Entities

section Writing

theorem Renamed.copy_column (renamed : Renamed ρ b other) {source named : Block}
    (sources : Renamed ρ source named) (row sourceRow : Nat) {c : Column} (member : c ∈ b.columns) :
    Both ρ (Rewritten ρ b) (copyColumn row source sourceRow b c) (copyColumn row named sourceRow other c) := by
  rw [copyColumn, copyColumn, show named.column? c.descriptor.id = source.column? c.descriptor.id by
    rw [sources.frame]; rfl]
  cases found : source.column? c.descriptor.id with
  | none => exact .ok ⟨b.payload, other.payload, rfl, renamed.frame, renamed.payload⟩
  | some d =>
      simp only
      refine both_bind_same _ fun start _ => ?_
      rw [renamed.payload.check_span]
      refine both_bind_same _ fun _ _ => both_bind_same _ fun place located => ?_
      have behind : Entity.width * source.capacity ≤ place :=
        Span.place_of_locate located ▸ sources.behind (column_mem found) sourceRow
      rw [sources.payload.slice _ behind]
      exact both_bind_same _ fun bytes _ => renamed.write_cell member row bytes

theorem Renamed.copy_columns (renamed : Renamed ρ b other) {source named : Block}
    (sources : Renamed ρ source named) (row sourceRow : Nat) (columns : List Column)
    (members : ∀ c ∈ columns, c ∈ b.columns) :
    Both ρ (Rewritten ρ b) (Progress.run (copyColumn row source sourceRow) b columns).finished
      (Progress.run (copyColumn row named sourceRow) other columns).finished := by
  induction columns generalizing b other with
  | nil => exact .ok ⟨b.payload, other.payload, rfl, renamed.frame, renamed.payload⟩
  | cons c rest ih =>
      have copied := renamed.copy_column sources row sourceRow (members c List.mem_cons_self)
      rw [Progress.run, Progress.run]
      generalize copyColumn row source sourceRow b c = x at copied
      generalize copyColumn row named sourceRow other c = y at copied
      cases copied with
      | error faults => exact .error faults
      | ok written =>
          obtain ⟨p, q, rfl, rfl, payload⟩ := written
          exact ih (renamed.with_payload payload) fun c member => members c (List.mem_cons_of_mem _ member)

theorem Renamed.copy_shared (renamed : Renamed ρ b other) {source named : Block}
    (sources : Renamed ρ source named) (row sourceRow : Nat) :
    Both ρ (Rewritten ρ b) (b.copySharedFrom row source sourceRow).finished
      (other.copySharedFrom row named sourceRow).finished := by
  rw [copySharedFrom, copySharedFrom, show other.columns = b.columns by rw [renamed.frame]]
  exact renamed.copy_columns sources row sourceRow b.columns fun _ member => member

theorem Renamed.set_bytes (renamed : Renamed ρ b other) (id : ComponentId) (row : Nat) (bytes : List UInt8) :
    Both ρ (Option.Rel (Rewritten ρ b)) (b.setBytes id row bytes) (other.setBytes id row bytes) := by
  have others := renamed.frame
  rw [setBytes, setBytes, show other.isOccupied row = b.isOccupied row by rw [others]; rfl,
    show other.column? id = b.column? id by rw [others]; rfl]
  by_cases occupied : b.isOccupied row = true
  · rw [if_pos occupied, if_pos occupied]
    cases found : b.column? id with
    | none => exact .ok .none
    | some c => exact both_map (renamed.write_cell (column_mem found) row bytes) fun _ _ written => .some written
  · rw [if_neg occupied, if_neg occupied]
    exact .ok .none

theorem Renamed.set_component (renamed : Renamed ρ b other) (row : Nat) (value : Component) :
    Both ρ (Option.Rel (Rewritten ρ b)) (b.setComponent row value) (other.setComponent row value) := by
  have others := renamed.frame
  rw [setComponent, setComponent, show other.isOccupied row = b.isOccupied row by rw [others]; rfl,
    show other.typedColumn? value.type = b.typedColumn? value.type by rw [others]; rfl]
  by_cases occupied : b.isOccupied row = true
  · rw [if_pos occupied, if_pos occupied]
    cases found : b.typedColumn? value.type with
    | none => exact .ok .none
    | some c =>
        simp only [renamed.payload.check_span]
        refine both_bind_same _ fun _ _ => both_bind_same _ fun _ _ => ?_
        exact both_bind (renamed.write_cell (typed_column_mem found) row value.bytes) fun _ _ written =>
          .ok (.some written)
  · rw [if_neg occupied, if_neg occupied]
    exact .ok .none

theorem Renamed.write_all (renamed : Renamed ρ b other) (row : Nat) (values : List Component) :
    Both ρ (Rewritten ρ b) (Bundle.writeAll row b values) (Bundle.writeAll row other values) := by
  induction values generalizing b other with
  | nil => exact .ok ⟨b.payload, other.payload, rfl, renamed.frame, renamed.payload⟩
  | cons value rest ih =>
      refine both_bind (renamed.set_component row value) fun x y written => ?_
      cases written with
      | none => exact .error (.same _)
      | some written =>
          obtain ⟨p, q, rfl, rfl, payload⟩ := written
          exact ih (renamed.with_payload payload)

end Writing

end Block

end EntityStore
