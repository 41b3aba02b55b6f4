import EntityStore.Bundle
import EntityStore.Scene.Basic

set_option autoImplicit false

namespace EntityStore.Scene

def placeNew (s : Scene) (signature : Signature) :
    Checked (Outcome (Entity × BlockId × Nat) × Scene) := do
  let (e, directory) ← s.directory.reserve
  match ← s.store.insert s.registry signature e with
  | (.ok (block, row), store) =>
    let directory ← directory.place e block row
    return (.ok (e, block, row), { s with store, directory })
  | (.error error, store) =>
    let directory ← directory.abandon e
    return (.error error, { s with store, directory })

def createEntity (s : Scene) (signature : Signature) : Checked (Outcome Entity × Scene) := do
  let (outcome, s) ← s.placeNew signature
  return (outcome.map Prod.fst, s)

def spawn (s : Scene) (bundle : Bundle) : Checked (Outcome Entity × Scene) :=
  match bundle.repeated? with
  | some id => .ok (.error (.duplicateBundleComponent id), s)
  | none =>
    match bundle.check s.registry with
    | .error error => .ok (.error error, s)
    | .ok () => do
      match ← s.placeNew bundle.signature with
      | (.error error, s) => return (.error error, s)
      | (.ok (e, id, row), s) =>
        match s.store.block? id with
        | none => return (.ok e, s)
        | some block =>
          let block ← bundle.write block row
          return (.ok e, { s with store := s.store.put id block })

def removeRow (block : Block) (row : Nat) (enabled : Bool) : Checked (Option Entity × Block) :=
  if enabled then block.swapRemove row else block.removeDisabled row

def destroy (s : Scene) (e : Entity) : Checked (Outcome Unit × Scene) :=
  match s.locate e with
  | .error error => .ok (.error error, s)
  | .ok location =>
    match s.store.block? location.block with
    | none => .ok (.error (.staleEntity e), s)
    | some block => do
      let s := s.announceAll (← farewell e block location.row)
      let (moved, block) ← removeRow block location.row location.enabled
      let directory ← s.directory.relocateMoved moved location.block location.row
      let directory ← directory.release e
      let store := (s.store.put location.block block).bump
      let (_, store) ← store.releaseIfEmpty location.block
      return (.ok (), { s with store, directory })

def setEnabled (s : Scene) (e : Entity) (enabled : Bool) : Checked (Outcome Unit × Scene) :=
  match s.locate e with
  | .error error => .ok (.error error, s)
  | .ok location =>
    if location.enabled = enabled then .ok (.ok (), s)
    else
      match s.store.block? location.block with
      | none => .ok (.error (.staleEntity e), s)
      | some block => do
        let (transfer, block) ←
          if enabled then block.enable location.row else block.disable location.row
        let directory ←
          match transfer.displaced with
          | none => pure s.directory
          | some (displaced, row) => s.directory.relocate displaced location.block row
        let directory ← directory.relocate e location.block transfer.newRow
        let directory := directory.setEnabled e enabled
        let store := (s.store.put location.block block).bump
        let event : Event :=
          if enabled then .enabled e block.signature else .disabled e block.signature
        return (.ok (), { s with store, directory }.announce event)

def enable (s : Scene) (e : Entity) : Checked (Outcome Unit × Scene) := s.setEnabled e true

def disable (s : Scene) (e : Entity) : Checked (Outcome Unit × Scene) := s.setEnabled e false

def farewellRows (block : Block) : List Nat → Checked (List Event)
  | [] => .ok []
  | row :: rest => do
    match ← block.readEntityAt row with
    | none => farewellRows block rest
    | some e =>
      let events ← farewell e block row
      return events ++ (← farewellRows block rest)

def farewellAll : List Block → Checked (List Event)
  | [] => .ok []
  | block :: rest => do
    let events ← farewellRows block block.occupiedRows
    return events ++ (← farewellAll rest)

/-- Destroys everything in the scene. Registry, settings, listeners and the frame count stay. -/
def unload (s : Scene) : Checked Scene := do
  let s := s.announceAll (← farewellAll (s.store.blocks.map Prod.snd))
  let store ← s.store.clear
  return { s with store, directory := s.directory.clear, hierarchy := .empty }

def addToHierarchy (s : Scene) (e : Entity) : Checked (Outcome Unit × Scene) := do
  match ← s.hierarchy.insert s.store s.directory e with
  | .error error => return (.error error, s)
  | .ok hierarchy => return (.ok (), { s with hierarchy })

def queueHierarchyInsert (s : Scene) (e : Entity) : Scene :=
  { s with hierarchy := s.hierarchy.queue e }

def updateHierarchy (s : Scene) : Checked Scene := do
  let (hierarchy, store) ← s.hierarchy.update s.directory s.store
  return { s with hierarchy, store }

def endFrame (s : Scene) : Checked Scene := do
  let hierarchy ← s.hierarchy.endFrame s.store s.directory
  return { s with hierarchy, frame := ← Checked.next64 s.frame }

end EntityStore.Scene
