import EntityStore.Component.Registry

set_option autoImplicit false

namespace EntityStore.Registry

inductive Operation where
  | insert (d : Descriptor)
  | register (type : ComponentType)
  | registerSerializable (type : ComponentType)
deriving DecidableEq

def Operation.descriptor : Operation → Descriptor
  | .insert d => d
  | .register type => .ofType type false
  | .registerSerializable type => .ofType type true

def operate (r : Registry) (operation : Operation) : Outcome ComponentId × Registry :=
  match r.insert operation.descriptor with
  | .ok next => (.ok operation.descriptor.id, next)
  | .error error => (.error error, r)

def operateAll (r : Registry) : List Operation → List (Outcome ComponentId) × Registry
  | [] => ([], r)
  | operation :: rest =>
    let (answer, r) := r.operate operation
    let (answers, r) := r.operateAll rest
    (answer :: answers, r)

end EntityStore.Registry
