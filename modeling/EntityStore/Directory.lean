import EntityStore.Position
import EntityStore.Store

set_option autoImplicit false

namespace EntityStore

structure Record where
  /-- The handle given out last for this index. -/
  entity : Entity
  block : Option BlockId
  row : UInt32
  generation : UInt32
  enabled : Bool
deriving DecidableEq, Repr

namespace Record

def isAlive (r : Record) : Bool := r.block.isSome

def isOf (r : Record) (e : Entity) : Bool := r.isAlive && r.generation = e.generation

def kill (r : Record) : Record :=
  let next := r.generation + 1
  { r with block := none, generation := if next = 0 then 1 else next }

end Record

structure Location where
  block : BlockId
  row : Nat
  enabled : Bool
deriving DecidableEq, Repr

structure Directory where
  records : Array Record
  /-- Indices to be given out again, the next one first. -/
  free : List UInt32
  recycle : Bool
  alive : Nat
deriving DecidableEq, Repr

namespace Directory

def create (recycle : Bool) : Directory := ⟨#[], [], recycle, 0⟩

def size (d : Directory) : Nat := d.records.size

def isEmpty (d : Directory) : Bool := d.size = 0

def get? (d : Directory) (e : Entity) : Option Record :=
  (d.records[e.index.toNat]?).filter fun r => r.isOf e

def isAlive (d : Directory) (e : Entity) : Bool := (d.get? e).isSome

def locate? (d : Directory) (e : Entity) : Option (BlockId × Nat) := do
  let record ← d.get? e
  let block ← record.block
  return (block, record.row.toNat)

def locate (d : Directory) (e : Entity) : Outcome Location :=
  match d.get? e with
  | none => .error (.staleEntity e)
  | some record =>
    match record.block with
    | none => .error (.staleEntity e)
    | some block => .ok ⟨block, record.row.toNat, record.enabled⟩

def update (d : Directory) (index : UInt32) (record : Record) : Directory :=
  { d with records := d.records.setIfInBounds index.toNat record }

def append (d : Directory) : Checked (Entity × Directory) := do
  Checked.require (d.size < 0xffffffff) .indexSpaceExhausted
  let entity : Entity := ⟨UInt32.ofNat d.size, 1⟩
  let record : Record :=
    { entity, block := none, row := 0, generation := 1, enabled := true }
  return (entity, { d with records := d.records.push record })

def reserve (d : Directory) : Checked (Entity × Directory) :=
  match d.recycle, d.free with
  | true, index :: rest =>
    match d.records[index.toNat]? with
    | none => .error (.positionBeyondEnd index.toNat d.size)
    | some record =>
      let entity : Entity := ⟨index, record.generation⟩
      .ok (entity, { d with free := rest }.update index { record with entity })
  | _, _ => d.append

def abandon (d : Directory) (e : Entity) : Checked Directory := do
  Checked.require (!d.isAlive e) .placedHandleAbandoned
  return if d.recycle then { d with free := e.index :: d.free } else d

def place (d : Directory) (e : Entity) (block : BlockId) (row : Nat) : Checked Directory :=
  match d.records[e.index.toNat]? with
  | none => .error (.positionBeyondEnd e.index.toNat d.size)
  | some record => do
    Checked.require (record.entity = e) .unreservedHandlePlaced
    let record : Record :=
      { entity := e, block := some block, row := clip row, generation := e.generation, enabled := true }
    return { d with alive := d.alive + 1 }.update e.index record

def relocate (d : Directory) (e : Entity) (block : BlockId) (row : Nat) : Checked Directory :=
  match d.get? e with
  | none => .error (.deadHandleRelocated e)
  | some record => .ok (d.update e.index { record with block := some block, row := clip row })

def relocateMoved (d : Directory) (moved : Option Entity) (block : BlockId) (row : Nat) :
    Checked Directory :=
  match moved with
  | none => .ok d
  | some e => d.relocate e block row

def setEnabled (d : Directory) (e : Entity) (enabled : Bool) : Directory :=
  match d.get? e with
  | none => d
  | some record => d.update e.index { record with enabled }

def release (d : Directory) (e : Entity) : Checked Directory :=
  match d.get? e with
  | none => .ok d
  | some record => do
    let alive ← Checked.sub d.alive 1
    let free := if d.recycle then e.index :: d.free else d.free
    return { d with alive, free }.update e.index record.kill

def live (d : Directory) : List Record := d.records.toList.filter Record.isAlive

def entities (d : Directory) : List Entity := d.live.map Record.entity

def handles (d : Directory) : List Entity :=
  d.records.toList.zipIdx.filterMap fun (r, i) =>
    if r.isAlive then some ⟨UInt32.ofNat i, r.generation⟩ else none

/-- Kills every live entity. All indices are free afterwards, the lowest going out first. -/
def clear (d : Directory) : Directory :=
  { d with
    records := d.records.map fun r => if r.isAlive then r.kill else r
    free := if d.recycle then (List.range d.size).map UInt32.ofNat else []
    alive := 0 }

end Directory

end EntityStore
