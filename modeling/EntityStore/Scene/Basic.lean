import EntityStore.Hierarchy
import EntityStore.Query
import EntityStore.Text.Quoted

set_option autoImplicit false

namespace EntityStore

inductive Event where
  | enabled (entity : Entity) (signature : Signature)
  | disabled (entity : Entity) (signature : Signature)
  | destroyed (entity : Entity) (signature : Signature)
  | released (entity : Entity) (component : ComponentId) (bytes : List UInt8)
deriving DecidableEq, Repr

structure Delivery where
  listener : Nat
  event : Event
deriving DecidableEq, Repr

structure Scene where
  name : String
  settings : Settings
  registry : Registry
  store : Store
  directory : Directory
  hierarchy : Hierarchy
  listeners : Nat
  /-- What listeners were told since the deliveries were last taken, oldest first. -/
  deliveries : List Delivery
  frame : UInt64

structure Stats where
  aliveEntities : Nat
  directoryRecords : Nat
  blocks : Nat
  slabBuffers : Nat
  generation : UInt64
  cachedQueries : Nat
  hierarchyMembers : Nat
  hierarchyDepth : Nat
  frame : UInt64
deriving DecidableEq, Repr

namespace Stats

def fields (s : Stats) : List (String × Nat) :=
  [("alive_entities", s.aliveEntities), ("directory_records", s.directoryRecords),
    ("blocks", s.blocks), ("slab_buffers", s.slabBuffers), ("generation", s.generation.toNat),
    ("cached_queries", s.cachedQueries), ("hierarchy_members", s.hierarchyMembers),
    ("hierarchy_depth", s.hierarchyDepth), ("frame", s.frame.toNat)]

def text (s : Stats) : String :=
  "SceneStats \x7b " ++
    ", ".intercalate (s.fields.map fun (name, value) => name ++ ": " ++ toString value) ++ " \x7d"

end Stats

namespace Scene

def build (name : String) (settings : Settings) (registry : Registry) : Checked Scene := do
  let store ← Store.create settings
  return {
    name
    settings
    registry
    store
    directory := .create settings.recycleIndices
    hierarchy := .empty
    listeners := 0
    deliveries := []
    frame := 0 }

def create (name : String) (settings : Settings) (registry : Registry) :
    Checked (Outcome Scene) :=
  match settings.validate with
  | .error error => .ok (.error error)
  | .ok () => (build name settings registry).map .ok

def withDefaults (name : String) : Checked Scene := build name {} .builtins

def addListener (s : Scene) : Scene := { s with listeners := s.listeners + 1 }

def announce (s : Scene) (event : Event) : Scene :=
  { s with deliveries := s.deliveries ++ (List.range s.listeners).map fun i => ⟨i, event⟩ }

def takeDeliveries (s : Scene) : List Delivery × Scene :=
  (s.deliveries, { s with deliveries := [] })

def announceAll (s : Scene) (events : List Event) : Scene := events.foldl announce s

def releases (e : Entity) (block : Block) (row : Nat) (kept : Signature) : List Column → Checked (List Event)
  | [] => .ok []
  | c :: rest =>
    let id := c.descriptor.id
    if c.descriptor.ownsResource && !kept.contains id then do
      let bytes ← block.readBytes id row
      let others ← releases e block row kept rest
      return (bytes.map fun bytes => .released e id bytes).toList ++ others
    else releases e block row kept rest

def farewell (e : Entity) (block : Block) (row : Nat) : Checked (List Event) := do
  return .destroyed e block.signature :: (← releases e block row .empty block.columns)

def isAlive (s : Scene) (e : Entity) : Bool := s.directory.isAlive e

def entityCount (s : Scene) : Nat := s.directory.alive

def entities (s : Scene) : List Entity := s.directory.entities

def locate (s : Scene) (e : Entity) : Outcome Location := s.directory.locate e

def blockOf (s : Scene) (e : Entity) : Outcome (Block × Nat) :=
  match s.locate e with
  | .error error => .error error
  | .ok location =>
    match s.store.block? location.block with
    | none => .error (.staleEntity e)
    | some block => .ok (block, location.row)

def isEnabled (s : Scene) (e : Entity) : Outcome Bool := (s.locate e).map Location.enabled

def signatureOf (s : Scene) (e : Entity) : Outcome Signature :=
  (s.blockOf e).map fun (block, _) => block.signature

def hasComponent (s : Scene) (e : Entity) (id : ComponentId) : Outcome Bool :=
  (s.signatureOf e).map fun signature => signature.contains id

def has (s : Scene) (e : Entity) (type : ComponentType) : Bool :=
  match s.hasComponent e type.id with
  | .ok found => found
  | .error _ => false

def stats (s : Scene) : Stats :=
  { aliveEntities := s.directory.alive
    directoryRecords := s.directory.size
    blocks := s.store.blockCount
    slabBuffers := s.store.buffersInUse
    generation := s.store.generation
    cachedQueries := s.store.cachedQueries
    hierarchyMembers := s.hierarchy.size
    hierarchyDepth := s.hierarchy.depth
    frame := s.frame }

def text (s : Scene) : String :=
  "Scene \x7b name: " ++ Text.quoted s.name ++ ", stats: " ++ s.stats.text ++ ", .. \x7d"

end Scene

end EntityStore
