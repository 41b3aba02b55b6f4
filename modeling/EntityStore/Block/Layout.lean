import EntityStore.Component.Registry

set_option autoImplicit false

namespace EntityStore

structure Column where
  offset : Nat
  descriptor : Descriptor
deriving DecidableEq

structure Layout where
  signature : Signature
  capacity : Nat
  columns : List Column
  totalBytes : Nat
deriving DecidableEq

namespace Layout

def placeColumns (registry : Registry) (capacity offset : Nat) :
    List ComponentId → Checked (Outcome (List Column × Nat))
  | [] => .ok (.ok ([], offset))
  | id :: rest =>
    match registry.find id with
    | .error error => .ok (.error error)
    | .ok descriptor => do
      let start ← Checked.alignUp offset descriptor.align
      let bytes ← Checked.mul descriptor.size capacity
      let stop ← Checked.add start bytes
      let placed ← placeColumns registry capacity stop rest
      return placed.map fun (columns, total) => (⟨start, descriptor⟩ :: columns, total)

def generate (signature : Signature) (registry : Registry) (capacity blockBytes : Nat) :
    Checked (Outcome Layout) := do
  let entityBytes ← Checked.mul Entity.width capacity
  match ← placeColumns registry capacity entityBytes signature.ids with
  | .error error => return .error error
  | .ok (columns, total) =>
    if blockBytes < total then return .error (.layoutTooLarge total blockBytes)
    else return .ok ⟨signature, capacity, columns, total⟩

end Layout

end EntityStore
