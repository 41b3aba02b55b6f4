import EntityStore.Block.Basic

set_option autoImplicit false

namespace EntityStore

structure ColumnPiece where
  descriptor : Descriptor
  start : Nat
  length : Nat
deriving DecidableEq

namespace ColumnPiece

def place (p : ColumnPiece) (row : Nat) : Nat := p.start + row * p.descriptor.size

end ColumnPiece

structure SplitBlock where
  entities : List Entity
  pieces : List ColumnPiece
deriving DecidableEq

namespace Block

def cut (capacity payloadSize cursor : Nat) : List Column → Checked (List ColumnPiece)
  | [] => .ok []
  | c :: rest => do
    let gap ← Checked.sub c.offset cursor
    let start := cursor + gap
    let length := c.descriptor.size * capacity
    Checked.require (start + length ≤ payloadSize)
      (.spanBeyondEnd start (start + length) payloadSize)
    let pieces ← cut capacity payloadSize (start + length) rest
    return ⟨c.descriptor, start, length⟩ :: pieces

def split (b : Block) : Checked SplitBlock := do
  let entityBytes := Entity.width * b.capacity
  b.payload.checkSpan 0 entityBytes
  let pieces ← cut b.capacity b.payload.size entityBytes b.columns
  return ⟨← b.readEntities, pieces⟩

def writePiece (b : Block) (p : ColumnPiece) (row : Nat) (bytes : List UInt8) : Checked Block := do
  let bytes ← p.descriptor.fit bytes
  let payload ← b.payload.splice (p.place row) bytes
  return { b with payload }

end Block

namespace SplitBlock

def takePiece (type : ComponentType) :
    List ColumnPiece → Option (ColumnPiece × List ColumnPiece)
  | [] => none
  | piece :: rest =>
    if piece.descriptor.id = type.id ∧ piece.descriptor.is type = true then
      if piece.length = 0 then none else some (piece, { piece with length := 0 } :: rest)
    else (takePiece type rest).map fun (found, rest) => (found, piece :: rest)

/-- The column of a type, unless it is absent, of another type or already taken. All its rows are
cast to values, and then the free ones are cut off. -/
def take (s : SplitBlock) (type : ComponentType) : Checked (Option (ColumnPiece × SplitBlock)) :=
  match takePiece type s.pieces with
  | none => .ok none
  | some (piece, pieces) => do
    type.checkCast (.run .write) piece.start piece.length
    let rows := piece.length / type.size
    Checked.require (s.entities.length ≤ rows) (.spanBeyondEnd 0 s.entities.length rows)
    return some (piece, { s with pieces })

end SplitBlock

end EntityStore
