import EntityStore.Block.Rows
import EntityStore.Proofs.Buffer

set_option autoImplicit false

namespace EntityStore.Block

open Checked

def disabledCount (b : Block) : Nat := b.capacity - b.disabledStart

def occupied (b : Block) : Nat := b.entityCount + b.disabledCount

def entities (b : Block) : List Entity := (List.range b.entityCount).map b.entitySlot

def disabledEntities (b : Block) : List Entity :=
  (List.range' b.disabledStart b.disabledCount).map b.entitySlot

def entityAt? (b : Block) (row : Nat) : Option Entity :=
  if b.isOccupied row then some (b.entitySlot row) else none

def cell (b : Block) (c : Column) (row : Nat) : List UInt8 :=
  b.payload.read (c.span.place row) c.span.size

def components? (b : Block) (type : ComponentType) : Option (List Component) :=
  (b.typedColumn? type).map fun c =>
    (List.range b.entityCount).map fun row => b.valueAt type (c.span.place row)

def bytesAt? (b : Block) (id : ComponentId) (row : Nat) : Option (List UInt8) :=
  if b.isOccupied row then (b.column? id).map fun c => b.cell c row else none

def component? (b : Block) (type : ComponentType) (row : Nat) : Option Component :=
  if b.isOccupied row then
    (b.typedColumn? type).map fun c => b.valueAt type (c.span.place row)
  else none

variable {b : Block} {row start stop : Nat}

theorem read_occupied_ok (bound : b.disabledStart ≤ b.capacity) : b.readOccupied = .ok b.occupied := by
  simp only [readOccupied, readDisabledCount, sub_ok _ _ bound, ok_bind]
  rfl

theorem read_empty_ok (bound : b.disabledStart ≤ b.capacity) : b.readEmpty = .ok (b.occupied = 0 : Bool) := by
  simp only [readEmpty, read_occupied_ok bound, ok_bind]
  rfl

theorem read_slots_ok (fits : Entity.width * b.capacity ≤ b.payload.size) (ordered : start ≤ stop)
    (inside : stop ≤ b.capacity) :
    b.readSlots start stop = .ok ((List.range' start (stop - start)).map b.entitySlot) := by
  have span : b.payload.checkSpan 0 (Entity.width * b.capacity) = .ok () :=
    require_ok _ _ (decide_eq_true (by omega))
  simp only [readSlots, span, ok_bind, require_ok _ _
    (show (start ≤ stop && stop ≤ b.capacity) = true by simp [ordered, inside])]
  rfl

theorem read_slot_ok (fits : Entity.width * b.capacity ≤ b.payload.size) (inside : row < b.capacity) :
    b.readSlot row = .ok (b.entitySlot row) := by
  have span : b.payload.checkSpan 0 (Entity.width * b.capacity) = .ok () :=
    require_ok _ _ (decide_eq_true (by omega))
  simp only [readSlot, span, ok_bind, require_ok _ _ (decide_eq_true inside)]
  rfl

theorem read_entities_ok (fits : Entity.width * b.capacity ≤ b.payload.size)
    (inside : b.entityCount ≤ b.capacity) : b.readEntities = .ok b.entities := by
  rw [readEntities, read_slots_ok fits (Nat.zero_le _) inside, entities, List.range_eq_range', Nat.sub_zero]

theorem read_disabled_ok (fits : Entity.width * b.capacity ≤ b.payload.size)
    (inside : b.disabledStart ≤ b.capacity) : b.readDisabled = .ok b.disabledEntities :=
  read_slots_ok fits inside (Nat.le_refl _)

theorem read_entity_at_ok (fits : Entity.width * b.capacity ≤ b.payload.size)
    (inside : b.isOccupied row = true → row < b.capacity) : b.readEntityAt row = .ok (b.entityAt? row) := by
  rw [readEntityAt, entityAt?]
  by_cases occupied : b.isOccupied row = true
  · rw [if_pos occupied, if_pos occupied, read_slot_ok fits (inside occupied)]
    rfl
  · rw [if_neg occupied, if_neg occupied]

end EntityStore.Block
