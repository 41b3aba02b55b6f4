import EntityStore.Block.Split

set_option autoImplicit false

namespace EntityStore

structure Slice where
  type : ComponentType
  piece : ColumnPiece
deriving DecidableEq

structure OpenBlock where
  block : Block
  split : SplitBlock
  /-- The slices, the one that was taken first in front. -/
  taken : List Slice
deriving DecidableEq

namespace OpenBlock

inductive Operation where
  | take (type : ComponentType)
  | change (slice row : Nat) (change : Block.Change)

inductive Answer where
  | taken (elements : Option (List Component))
  | changed (done : Bool)
deriving DecidableEq

def ofBlock (b : Block) : Checked OpenBlock := do
  return ⟨b, ← b.split, []⟩

def length (o : OpenBlock) : Nat := o.split.entities.length

def element (o : OpenBlock) (s : Slice) (row : Nat) : Component :=
  o.block.valueAt s.type (s.piece.place row)

def elements (o : OpenBlock) (s : Slice) : List Component := (List.range o.length).map (o.element s)

def take (o : OpenBlock) (type : ComponentType) : Checked (Option (Slice × OpenBlock)) := do
  match ← o.split.take type with
  | none => return none
  | some (piece, split) =>
    return some (⟨type, piece⟩, { o with split, taken := o.taken ++ [⟨type, piece⟩] })

def change (o : OpenBlock) (s : Slice) (row : Nat) (change : Block.Change) : Checked OpenBlock := do
  Checked.require (row < o.length) (.positionBeyondEnd row o.length)
  let old := o.element s row
  let block ← o.block.writePiece s.piece row (old.withBytes (change old)).bytes
  return { o with block }

def operate (o : OpenBlock) : Operation → Checked (Answer × OpenBlock)
  | .take type => do
    match ← o.take type with
    | none => return (.taken none, o)
    | some (slice, o) => return (.taken (some (o.elements slice)), o)
  | .change slice row change =>
    match o.taken[slice]? with
    | none => .ok (.changed false, o)
    | some slice => do
      let o ← o.change slice row change
      return (.changed true, o)

def operateAll (o : OpenBlock) : List Operation → Checked (List Answer × OpenBlock)
  | [] => .ok ([], o)
  | operation :: rest => do
    let (answer, o) ← o.operate operation
    let (answers, o) ← o.operateAll rest
    return (answer :: answers, o)

end OpenBlock

end EntityStore
