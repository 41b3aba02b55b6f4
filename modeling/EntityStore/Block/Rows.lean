import EntityStore.Block.Basic

set_option autoImplicit false

namespace EntityStore

structure RowTransfer where
  newRow : Nat
  displaced : Option (Entity × Nat)
deriving DecidableEq, Repr

namespace Block

def readRow (b : Block) (row : Nat) : Checked (List (List UInt8)) :=
  b.spans.mapM fun s => b.payload.slice (s.place row) s.size

def writeCells (row : Nat) (payload : Buffer) : List (Span × List UInt8) → Checked Buffer
  | [] => .ok payload
  | (s, bytes) :: rest => do
    let payload ← payload.splice (s.place row) bytes
    writeCells row payload rest

def writeRow (b : Block) (row : Nat) (cells : List (List UInt8)) : Checked Block := do
  let payload ← writeCells row b.payload (b.spans.zip cells)
  return { b with payload }

def copyRow (b : Block) (source target : Nat) : Checked Block := do
  b.writeRow target (← b.readRow source)

def swapRows (b : Block) (first second : Nat) : Checked Block := do
  let firstCells ← b.readRow first
  let secondCells ← b.readRow second
  let b ← b.writeRow first secondCells
  b.writeRow second firstCells

def zeroRow (b : Block) (row : Nat) : Checked Block :=
  b.writeRow row (b.spans.map fun s => List.replicate s.size 0)

def moveRow (b : Block) (source target : Nat) : Checked Block :=
  if target = source then .ok b
  else do (← b.copyRow source target).zeroRow source

def push (b : Block) (entity : Entity) : Checked (Option (Nat × Block)) :=
  if b.hasSpace then do
    let row := b.entityCount
    let defaults ← b.columns.mapM fun c => c.descriptor.initial
    let b ← b.writeRow row (entity.bytes :: defaults)
    return some (row, { b with entityCount := row + 1 })
  else .ok none

def refill (b : Block) (row source : Nat) : Checked (Option Entity × Block) := do
  if row = source then return (none, ← b.zeroRow source)
  else
    let b ← b.copyRow source row
    let moved ← b.readSlot row
    return (some moved, ← b.zeroRow source)

def swapRemove (b : Block) (row : Nat) : Checked (Option Entity × Block) := do
  Checked.require (b.isEnabledRow row) (.rowNotEnabled row)
  let last ← Checked.sub b.entityCount 1
  let (moved, b) ← b.refill row last
  return (moved, { b with entityCount := last })

def removeDisabled (b : Block) (row : Nat) : Checked (Option Entity × Block) := do
  Checked.require (b.isDisabledRow row) (.rowNotDisabled row)
  let first := b.disabledStart
  let (moved, b) ← b.refill row first
  return (moved, { b with disabledStart := first + 1 })

def bringTo (b : Block) (row edge : Nat) : Checked (Option (Entity × Nat) × Block) :=
  if row = edge then .ok (none, b)
  else do
    let b ← b.swapRows row edge
    return (some (← b.readSlot row, row), b)

def disable (b : Block) (row : Nat) : Checked (RowTransfer × Block) := do
  Checked.require (b.isEnabledRow row) (.rowNotEnabled row)
  let last ← Checked.sub b.entityCount 1
  let (displaced, b) ← b.bringTo row last
  let target ← Checked.sub b.disabledStart 1
  let b ← b.moveRow last target
  return (⟨target, displaced⟩, { b with entityCount := last, disabledStart := target })

def enable (b : Block) (row : Nat) : Checked (RowTransfer × Block) := do
  Checked.require (b.isDisabledRow row) (.rowNotDisabled row)
  let first := b.disabledStart
  let (displaced, b) ← b.bringTo row first
  let target := b.entityCount
  let b ← b.moveRow first target
  return (⟨target, displaced⟩, { b with entityCount := target + 1, disabledStart := first + 1 })

def copyColumn (row : Nat) (source : Block) (sourceRow : Nat) (b : Block) (c : Column) :
    Checked Block :=
  match source.column? c.descriptor.id with
  | none => .ok b
  | some sourceColumn => do
    b.payload.checkSpan (← c.span.locate row) c.span.size
    let bytes ← source.payload.slice (← sourceColumn.span.locate sourceRow) sourceColumn.span.size
    b.writeCell c row bytes

/-- Copies every component that both blocks have from a row of another block, column by column. The
rows need not be in range; what a copy beyond the columns meets is overwritten. -/
def copySharedFrom (b : Block) (row : Nat) (source : Block) (sourceRow : Nat) : Progress Block :=
  Progress.run (copyColumn row source sourceRow) b b.columns

end Block

end EntityStore
