import EntityStore.Component.Basic
import EntityStore.StoreError

set_option autoImplicit false

namespace EntityStore

/-- How a column of one id is laid out. Size, alignment and name need not be those of the type behind it. -/
structure Descriptor where
  id : ComponentId
  name : String
  type : ComponentType
  size : Nat
  align : Nat
  ownsResource : Bool
  serializable : Bool
deriving DecidableEq

namespace Descriptor

def ofType (type : ComponentType) (serializable : Bool) : Descriptor :=
  { id := type.id, name := type.name, type, size := type.size, align := type.align,
    ownsResource := type.ownsResource, serializable }

/-- Whether the descriptor is of a type, and not of another one under the same id. -/
def is (d : Descriptor) (type : ComponentType) : Bool := d.type = type

def fitTo (length : Nat) (bytes : List UInt8) : Checked (List UInt8) :=
  if bytes.length = length then .ok bytes else .error (.lengthMismatch bytes.length length)

def fit (d : Descriptor) (bytes : List UInt8) : Checked (List UInt8) := fitTo d.size bytes

/-- The default value as it is written into a new row. -/
def initial (d : Descriptor) : Checked (List UInt8) := d.fit d.type.initial

/-- The default value as it replaces the bytes of another value. -/
def reset (d : Descriptor) (old : List UInt8) : Checked (List UInt8) :=
  fitTo old.length d.type.initial

def serialize (d : Descriptor) (bytes : List UInt8) : Checked (Outcome Document) :=
  if d.serializable then
    if bytes.length = d.type.size then
      match d.type.shape.encode bytes with
      | some document => .ok (.ok document)
      | none => .ok (.error .serialization)
    else .error (.lengthMismatch bytes.length d.type.size)
  else .ok (.error (.notSerializable d.id))

def deserialize (d : Descriptor) (document : Document) : Checked (Outcome (List UInt8)) :=
  if d.serializable then
    match d.type.shape.decode document with
    | some bytes => (d.fit bytes).map .ok
    | none => .ok (.error .serialization)
  else .ok (.error (.notSerializable d.id))

end Descriptor

structure Registry where
  descriptors : List Descriptor
deriving DecidableEq

namespace Registry

def maxAlign : Nat := 64

def empty : Registry := ⟨[]⟩

def size (r : Registry) : Nat := r.descriptors.length

def isEmpty (r : Registry) : Bool := r.descriptors.isEmpty

def insert (r : Registry) (d : Descriptor) : Outcome Registry :=
  if ComponentId.limit ≤ r.size then .error .registryFull
  else if d.id.val ≠ r.size then .error (.registrationOrder d.name d.id.val r.size)
  else if d.size = 0 ∨ maxAlign < d.align then .error (.unsupportedLayout d.name d.size d.align)
  else .ok ⟨r.descriptors ++ [d]⟩

def get? (r : Registry) (id : ComponentId) : Option Descriptor := r.descriptors[id.val]?

def find (r : Registry) (id : ComponentId) : Outcome Descriptor :=
  match r.get? id with
  | some d => .ok d
  | none => .error (.unregisteredComponent id)

def findByName? (r : Registry) (name : String) : Option Descriptor :=
  r.descriptors.find? fun d => d.name = name

def check (r : Registry) (type : ComponentType) : Outcome Unit := do
  let d ← r.find type.id
  if d.is type then .ok () else .error (.unregisteredComponent type.id)

def builtins : Registry := ⟨ComponentType.builtins.map fun type => .ofType type true⟩

end Registry

end EntityStore
