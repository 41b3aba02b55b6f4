import EntityStore.Block.Layout
import EntityStore.Buffer

set_option autoImplicit false

namespace EntityStore

structure Span where
  offset : Nat
  size : Nat
deriving DecidableEq, Repr

namespace Span

def place (s : Span) (row : Nat) : Nat := s.offset + row * s.size

/-- The place of any row, in range or not; it and its end must be sizes. -/
def locate (s : Span) (row : Nat) : Checked Nat := do
  let before ← Checked.mul row s.size
  let start ← Checked.add s.offset before
  let _ ← Checked.add start s.size
  return start

end Span

namespace Column

def span (c : Column) : Span := ⟨c.offset, c.descriptor.size⟩

end Column

structure Block where
  signature : Signature
  capacity : Nat
  entityCount : Nat
  disabledStart : Nat
  columns : List Column
  payload : Buffer
deriving DecidableEq

namespace Block

def create (layout : Layout) (payload : Buffer) : Checked Block :=
  if payload.size < layout.totalBytes then .error .undersizedPayload
  else .ok
    { signature := layout.signature
      capacity := layout.capacity
      entityCount := 0
      disabledStart := layout.capacity
      columns := layout.columns
      payload }

/-- The last row that enabled entities may still take, none if every row is disabled. -/
def lastEnabled? (b : Block) : Option Nat :=
  if b.disabledStart = 0 then none else some (b.disabledStart - 1)

def readDisabledCount (b : Block) : Checked Nat := Checked.sub b.capacity b.disabledStart

def readOccupied (b : Block) : Checked Nat := do return b.entityCount + (← b.readDisabledCount)

def hasSpace (b : Block) : Bool := b.entityCount < b.disabledStart

def readEmpty (b : Block) : Checked Bool := do return (← b.readOccupied) = 0

def isEnabledRow (b : Block) (row : Nat) : Bool := row < b.entityCount

def isDisabledRow (b : Block) (row : Nat) : Bool := b.disabledStart ≤ row && row < b.capacity

def isOccupied (b : Block) (row : Nat) : Bool := b.isEnabledRow row || b.isDisabledRow row

def occupiedRows (b : Block) : List Nat := (List.range b.capacity).filter b.isOccupied

def entitySpan : Span := ⟨0, Entity.width⟩

def spans (b : Block) : List Span := entitySpan :: b.columns.map Column.span

def entitySlot (b : Block) (row : Nat) : Entity :=
  .ofBytes (b.payload.read (entitySpan.place row) entitySpan.size)

def readSlots (b : Block) (start stop : Nat) : Checked (List Entity) := do
  b.payload.checkSpan 0 (Entity.width * b.capacity)
  Checked.require (start ≤ stop && stop ≤ b.capacity) (.spanBeyondEnd start stop b.capacity)
  return (List.range' start (stop - start)).map b.entitySlot

def readSlot (b : Block) (row : Nat) : Checked Entity := do
  b.payload.checkSpan 0 (Entity.width * b.capacity)
  Checked.require (row < b.capacity) (.positionBeyondEnd row b.capacity)
  return b.entitySlot row

def readEntities (b : Block) : Checked (List Entity) := b.readSlots 0 b.entityCount

def readDisabled (b : Block) : Checked (List Entity) := b.readSlots b.disabledStart b.capacity

def readEntityAt (b : Block) (row : Nat) : Checked (Option Entity) :=
  if b.isOccupied row then (b.readSlot row).map some else .ok none

def column? (b : Block) (id : ComponentId) : Option Column :=
  b.columns.find? fun c => c.descriptor.id = id

/-- The column of a type, if this type is the one registered under its id. -/
def typedColumn? (b : Block) (type : ComponentType) : Option Column :=
  (b.column? type.id).filter fun c => c.descriptor.is type

def valueAt (b : Block) (type : ComponentType) (position : Nat) : Component :=
  ⟨type, b.payload.read position type.size, Buffer.length_read b.payload position type.size⟩

def checkRun (b : Block) (access : Access) (type : ComponentType) (c : Column) : Checked Unit := do
  let length := c.descriptor.size * b.entityCount
  b.payload.checkSpan c.offset length
  type.checkCast (.run access) c.offset length

def readComponents (b : Block) (type : ComponentType) : Checked (Option (List Component)) :=
  match b.typedColumn? type with
  | none => .ok none
  | some c => do
    b.checkRun .read type c
    return some ((List.range b.entityCount).map fun row => b.valueAt type (c.span.place row))

def readBytes (b : Block) (id : ComponentId) (row : Nat) : Checked (Option (List UInt8)) :=
  if b.isOccupied row then
    match b.column? id with
    | none => .ok none
    | some c => (b.payload.slice (c.span.place row) c.span.size).map some
  else .ok none

def readComponent (b : Block) (access : Access) (type : ComponentType) (row : Nat) :
    Checked (Option Component) := do
  match ← b.readBytes type.id row with
  | none => return none
  | some bytes =>
    match b.typedColumn? type with
    | none => return none
    | some c => do
      type.checkCast (.value access) (c.span.place row) bytes.length
      return some (b.valueAt type (c.span.place row))

def writeCell (b : Block) (c : Column) (row : Nat) (bytes : List UInt8) : Checked Block := do
  let bytes ← c.descriptor.fit bytes
  let payload ← b.payload.splice (c.span.place row) bytes
  return { b with payload }

def setBytes (b : Block) (id : ComponentId) (row : Nat) (bytes : List UInt8) :
    Checked (Option Block) :=
  if b.isOccupied row then
    match b.column? id with
    | some c => (b.writeCell c row bytes).map some
    | none => .ok none
  else .ok none

def setComponent (b : Block) (row : Nat) (value : Component) : Checked (Option Block) :=
  if b.isOccupied row then
    match b.typedColumn? value.type with
    | none => .ok none
    | some c => do
      b.payload.checkSpan (c.span.place row) c.span.size
      value.type.checkCast (.value .write) (c.span.place row) c.span.size
      return some (← b.writeCell c row value.bytes)
  else .ok none

/-- The bytes that come in the place of a value. Bytes of another length leave it as it is. -/
abbrev Change := Component → List UInt8

def changeCell (c : Column) (type : ComponentType) (change : Change) (b : Block) (row : Nat) :
    Checked Block :=
  let old := b.valueAt type (c.span.place row)
  b.writeCell c row (old.withBytes (change old)).bytes

def changeComponents (b : Block) (type : ComponentType) (change : Change) :
    Checked (Option Block) :=
  match b.typedColumn? type with
  | none => .ok none
  | some c => do
    b.checkRun .write type c
    return some (← (List.range b.entityCount).foldlM (changeCell c type change) b)

def text (b : Block) : String :=
  "EntityBlock \x7b signature: " ++ b.signature.text ++ ", capacity: " ++ toString b.capacity ++
    ", entity_count: " ++ toString b.entityCount ++ ", disabled_start: " ++
    toString b.disabledStart ++ ", .. \x7d"

end Block

end EntityStore
