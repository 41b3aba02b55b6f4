import EntityStore.Entity
import EntityStore.Single

set_option autoImplicit false

namespace EntityStore

mutual

inductive Shape where
  | byte
  | word
  | long
  | real
  | handle
  | vector (element : Shape) (count : Nat)
  | record (fields : Fields)
deriving DecidableEq, Repr

inductive Fields where
  | nil
  | cons (name : String) (shape : Shape) (rest : Fields)
deriving DecidableEq, Repr

end

inductive Document where
  | real (word : UInt64)
  | integer (value : Int)
  | text (value : String)
  | flag (value : Bool)
  | list (items : List Document)
  | table (entries : List (String × Document))
deriving Repr, Inhabited

namespace Fields

def ofList : List (String × Shape) → Fields
  | [] => nil
  | (name, shape) :: rest => cons name shape (ofList rest)

def toList : Fields → List (String × Shape)
  | nil => []
  | cons name shape rest => (name, shape) :: rest.toList

end Fields

mutual

def Shape.size : Shape → Nat
  | .byte => 1
  | .word => 4
  | .long => 8
  | .real => Single.width
  | .handle => Entity.width
  | .vector element count => element.size * count
  | .record fields => fields.size

def Fields.size : Fields → Nat
  | .nil => 0
  | .cons _ shape rest => shape.size + rest.size

end

namespace Document

def lookup? (name : String) : List (String × Document) → Option Document
  | [] => none
  | (key, value) :: rest => if key = name then some value else lookup? name rest

def unsigned? (width : Nat) : Document → Option Nat
  | .integer value => if 0 ≤ value ∧ value < Bytes.limit width then some value.toNat else none
  | _ => none

def single? : Document → Option Single
  | .real word => some (Single.narrow word)
  | .integer value => some (Single.ofInt value)
  | _ => none

def ofEntity (e : Entity) : Document :=
  .table [("index", .integer e.index.toNat), ("generation", .integer e.generation.toNat)]

def entityOf? (index generation : Document) : Option Entity := do
  let index ← index.unsigned? 4
  let generation ← generation.unsigned? 4
  return ⟨UInt32.ofNat index, UInt32.ofNat generation⟩

def entity? : Document → Option Entity
  | .table entries => do
    let index ← lookup? "index" entries
    let generation ← lookup? "generation" entries
    entityOf? index generation
  | .list [index, generation] => entityOf? index generation
  | _ => none

end Document

mutual

/-- The document of a value. A long beyond the signed 64-bit range has none. -/
def Shape.encode : Shape → List UInt8 → Option Document
  | .byte, bytes => some (.integer (Bytes.toNat bytes))
  | .word, bytes => some (.integer (Bytes.toNat bytes))
  | .long, bytes =>
    if Bytes.toNat bytes < 0x8000000000000000 then some (.integer (Bytes.toNat bytes)) else none
  | .real, bytes => some (.real (Single.ofBytes bytes).widen)
  | .handle, bytes => some (.ofEntity (Entity.ofBytes bytes))
  | .vector element count, bytes => do
    let items ← (Bytes.pieces element.size count bytes).mapM fun piece => element.encode piece
    return .list items
  | .record fields, bytes => do
    let entries ← fields.encode bytes
    return .table entries

def Fields.encode : Fields → List UInt8 → Option (List (String × Document))
  | .nil, _ => some []
  | .cons name shape rest, bytes => do
    let value ← shape.encode (bytes.take shape.size)
    let entries ← rest.encode (bytes.drop shape.size)
    return (name, value) :: entries

end

mutual

/-- The bytes of a document. A record is read from a table that has all its fields, other keys being
ignored, or from a list of exactly its fields in their order. -/
def Shape.decode : Shape → Document → Option (List UInt8)
  | .byte, document => (document.unsigned? 1).map (Bytes.ofNat 1)
  | .word, document => (document.unsigned? 4).map (Bytes.ofNat 4)
  | .long, document => (document.unsigned? 8).map (Bytes.ofNat 8)
  | .real, document => document.single?.map Single.bytes
  | .handle, document => document.entity?.map Entity.bytes
  | .vector element count, .list items => do
    guard (items.length = count)
    let pieces ← items.mapM fun item => element.decode item
    return pieces.flatten
  | .vector _ _, _ => none
  | .record fields, .table entries => fields.decodeTable entries
  | .record fields, .list items => fields.decodeList items
  | .record _, _ => none

def Fields.decodeTable : Fields → List (String × Document) → Option (List UInt8)
  | .nil, _ => some []
  | .cons name shape rest, entries => do
    let value ← Document.lookup? name entries
    let first ← shape.decode value
    let others ← rest.decodeTable entries
    return first ++ others

def Fields.decodeList : Fields → List Document → Option (List UInt8)
  | .nil, [] => some []
  | .nil, _ :: _ => none
  | .cons _ _ _, [] => none
  | .cons _ shape rest, item :: items => do
    let first ← shape.decode item
    let others ← rest.decodeList items
    return first ++ others

end

end EntityStore
