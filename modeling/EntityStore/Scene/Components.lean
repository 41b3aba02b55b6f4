import EntityStore.Scene.Lifecycle

set_option autoImplicit false

namespace EntityStore.Scene

def get (s : Scene) (e : Entity) (type : ComponentType) : Checked (Outcome Component) :=
  match s.blockOf e with
  | .error error => .ok (.error error)
  | .ok (block, row) => do
    match ← block.readComponent .read type row with
    | none => return .error (.missingComponent e type.id)
    | some value => return .ok value

def replace (s : Scene) (e : Entity) (value : Component) :
    Checked (Outcome Component × Scene) :=
  match s.locate e with
  | .error error => .ok (.error error, s)
  | .ok location =>
    let missing : Outcome Component := .error (.missingComponent e value.type.id)
    match s.store.block? location.block with
    | none => .ok (missing, s)
    | some block => do
      match ← block.readComponent .write value.type location.row with
      | none => return (missing, s)
      | some old =>
        match ← block.setComponent location.row value with
        | none => return (missing, s)
        | some block => return (.ok old, { s with store := s.store.put location.block block })

/-- Moves an entity to a block of another signature. Components in both signatures keep their bytes,
new ones get their defaults, and resources of dropped ones are released. -/
def migrate (s : Scene) (e : Entity) (target : Signature) : Checked (Outcome Unit × Scene) :=
  match s.locate e with
  | .error error => .ok (.error error, s)
  | .ok old => do
    match ← s.store.acquire s.registry target with
    | (.error error, store) => return (.error error, { s with store })
    | (.ok newId, store) =>
      match ← store.pool.getPair newId old.block with
      | none => return (.error (.staleEntity e), { s with store })
      | some (newBlock, oldBlock) =>
        match ← newBlock.push e with
        | none => return (.error (.outOfBlocks newBlock.capacity), { s with store })
        | some (pushed, newBlock) =>
          let newBlock ← (newBlock.copySharedFrom pushed oldBlock old.row).finished
          let s := s.announceAll (← releases e oldBlock old.row target oldBlock.columns)
          let (moved, oldBlock) ← removeRow oldBlock old.row old.enabled
          let (newRow, newBlock) ←
            if old.enabled then pure (pushed, newBlock)
            else do
              let (transfer, newBlock) ← newBlock.disable pushed
              pure (transfer.newRow, newBlock)
          let directory ← s.directory.relocateMoved moved old.block old.row
          let store := ((store.put newId newBlock).put old.block oldBlock).bump
          let (_, store) ← store.releaseIfEmpty old.block
          let directory ← directory.relocate e newId newRow
          return (.ok (), { s with store, directory })

def addComponent (s : Scene) (e : Entity) (value : Component) : Checked (Outcome Unit × Scene) :=
  let id := value.type.id
  match s.signatureOf e with
  | .error error => .ok (.error error, s)
  | .ok signature =>
    if signature.contains id then .ok (.error (.componentAlreadyPresent e id), s)
    else
      match s.registry.check value.type with
      | .error error => .ok (.error error, s)
      | .ok () => do
        match ← s.migrate e (signature.insert id) with
        | (.error error, s) => return (.error error, s)
        | (.ok (), s) =>
          let (outcome, s) ← s.replace e value
          return (outcome.map fun _ => (), s)

def removeComponent (s : Scene) (e : Entity) (type : ComponentType) :
    Checked (Outcome Component × Scene) := do
  match ← s.get e type with
  | .error error => return (.error error, s)
  | .ok value =>
    match s.signatureOf e with
    | .error error => return (.error error, s)
    | .ok signature =>
      match ← s.migrate e (signature.erase type.id) with
      | (.error error, s) => return (.error error, s)
      | (.ok (), s) => return (.ok value, s)

def serializeComponent (s : Scene) (e : Entity) (id : ComponentId) :
    Checked (Outcome Document) :=
  match s.registry.find id with
  | .error error => .ok (.error error)
  | .ok descriptor =>
    match s.blockOf e with
    | .error error => .ok (.error error)
    | .ok (block, row) => do
      match ← block.readBytes id row with
      | none => return .error (.missingComponent e id)
      | some bytes => descriptor.serialize bytes

def deserializeComponent (s : Scene) (e : Entity) (id : ComponentId) (document : Document) :
    Checked (Outcome Unit × Scene) :=
  match s.registry.find id with
  | .error error => .ok (.error error, s)
  | .ok descriptor =>
    match s.locate e with
    | .error error => .ok (.error error, s)
    | .ok location =>
      let missing : Outcome Unit := .error (.missingComponent e id)
      match s.store.block? location.block with
      | none => .ok (missing, s)
      | some block => do
        match ← block.readBytes id location.row with
        | none => return (missing, s)
        | some _ =>
          match ← descriptor.deserialize document with
          | .error error => return (.error error, s)
          | .ok bytes =>
            match ← block.setBytes id location.row bytes with
            | none => return (missing, s)
            | some block =>
              return (.ok (), { s with store := s.store.put location.block block })

def inspectColumns (block : Block) (row : Nat) :
    Table String Document → List Column → Checked (Outcome (Table String Document))
  | entries, [] => .ok (.ok entries)
  | entries, c :: rest =>
    if c.descriptor.serializable then do
      match ← block.readBytes c.descriptor.id row with
      | none => inspectColumns block row entries rest
      | some bytes =>
        match ← c.descriptor.serialize bytes with
        | .error error => return .error error
        | .ok document =>
          inspectColumns block row (entries.insert c.descriptor.name document) rest
    else inspectColumns block row entries rest

def inspectEntity (s : Scene) (e : Entity) : Checked (Outcome (Table String Document)) :=
  match s.blockOf e with
  | .error error => .ok (.error error)
  | .ok (block, row) => inspectColumns block row .empty block.columns

end EntityStore.Scene
