import EntityStore.Directory

set_option autoImplicit false

namespace EntityStore

structure Entry where
  /-- Position of the parent in the level above, 0 for a root. -/
  parentIdx : UInt32
  entity : Entity
deriving DecidableEq, Repr

structure Level where
  entries : List Entry
  worlds : List (Option Mat4)
deriving DecidableEq, Repr

structure Hierarchy where
  levels : List Level
  slots : Table Entity (Nat × Nat)
  /-- The matrix before the last one, by entity index and with its owner. -/
  previous : Table UInt32 (Entity × Mat4)
  pending : List Entity
deriving DecidableEq, Repr

namespace Entry

def shift (position : Nat) (entry : Entry) : Checked Entry :=
  if position ≤ entry.parentIdx.toNat then do
    return { entry with parentIdx := ← Checked.next32 entry.parentIdx }
  else .ok entry

end Entry

namespace Level

def empty : Level := ⟨[], []⟩

def push (l : Level) (entry : Entry) : Level := ⟨l.entries ++ [entry], l.worlds ++ [none]⟩

def insertAt (l : Level) (position : Nat) (entry : Entry) : Checked Level := do
  let entries ← Checked.insertAt l.entries position entry
  let worlds ← Checked.insertAt l.worlds position none
  return ⟨entries, worlds⟩

def shift (l : Level) (position : Nat) : Checked Level := do
  return { l with entries := ← l.entries.mapM (Entry.shift position) }

end Level

namespace Hierarchy

def empty : Hierarchy := ⟨[], .empty, .empty, []⟩

def size (h : Hierarchy) : Nat := h.slots.size

def isEmpty (h : Hierarchy) : Bool := h.size = 0

def depth (h : Hierarchy) : Nat := (h.levels.takeWhile fun level => !level.entries.isEmpty).length

def level (h : Hierarchy) (depth : Nat) : List Entry := (h.levels.getD depth .empty).entries

def depthOf? (h : Hierarchy) (e : Entity) : Option Nat := (h.slots.find? e).map Prod.fst

def contains (h : Hierarchy) (e : Entity) : Bool := h.slots.contains e

def world? (h : Hierarchy) (e : Entity) : Option Mat4 := do
  let (depth, position) ← h.slots.find? e
  let level ← h.levels[depth]?
  (level.worlds[position]?).join

def previous? (h : Hierarchy) (e : Entity) : Option Mat4 :=
  ((h.previous.find? e.index).filter fun (owner, _) => owner = e).map Prod.snd

def parentOf (store : Store) (directory : Directory) (e : Entity) : Checked (Option Entity) :=
  match directory.locate? e with
  | none => .ok none
  | some (id, row) =>
    match store.block? id with
    | none => .ok none
    | some block => do
      match ← block.readComponent .read .child row with
      | none => return none
      | some link =>
        let parent := Entity.ofBytes link.bytes
        return if parent.isInvalid then none else some parent

def hasTransform (store : Store) (directory : Directory) (e : Entity) : Bool :=
  ((directory.locate? e).bind fun (id, _) => store.block? id).any fun block =>
    block.signature.contains ComponentType.transform.id

/-- Follows the links from `current` to an entity without a link or with a parent in the hierarchy.
`unvisited` has the live handles that were not met yet; `path` those on the way, `current` last. -/
def climb (h : Hierarchy) (store : Store) (directory : Directory) (unvisited : List Entity)
    (path : List Entity) (current : Entity) : Checked (Outcome (List Entity)) :=
  match parentOf store directory current with
  | .error fault => .error fault
  | .ok none => .ok (.ok path)
  | .ok (some parent) =>
    if directory.isAlive parent then
      if _unmet : parent ∈ unvisited then
        if h.contains parent then .ok (.ok path)
        else climb h store directory (unvisited.erase parent) (path ++ [parent]) parent
      else .ok (.error (.hierarchyCycle parent))
    else .ok (.error (.hierarchyParentNotAlive current parent))
termination_by unvisited.length
decreasing_by
  have bound := List.length_pos_of_mem _unmet
  rw [List.length_erase_of_mem _unmet]
  omega

def modifyLevel (f : Level → Checked Level) : Nat → List Level → Checked (List Level)
  | 0, [] => do return [← f .empty]
  | 0, level :: rest => do return (← f level) :: rest
  | depth + 1, [] => do return .empty :: (← modifyLevel f depth [])
  | depth + 1, level :: rest => do return level :: (← modifyLevel f depth rest)

def shiftLevel (levels : List Level) (depth position : Nat) : Checked (List Level) :=
  match levels[depth]? with
  | none => .ok levels
  | some level => do return levels.set depth (← level.shift position)

def noteSlots (slots : Table Entity (Nat × Nat)) (depth position : Nat) :
    List Entry → Table Entity (Nat × Nat)
  | [] => slots
  | entry :: rest => noteSlots (slots.insert entry.entity (depth, position)) depth (position + 1) rest

def insertRoot (h : Hierarchy) (e : Entity) : Checked Hierarchy := do
  let levels ← modifyLevel (fun level => .ok (level.push ⟨0, e⟩)) 0 h.levels
  return { h with levels, slots := h.slots.insert e (0, (h.level 0).length) }

def insertAt (h : Hierarchy) (depth position : Nat) (entry : Entry) : Checked Hierarchy := do
  let levels ← modifyLevel (fun level => level.insertAt position entry) depth h.levels
  let slots := noteSlots h.slots depth position (entry :: (h.level depth).drop position)
  let levels ← shiftLevel levels (depth + 1) position
  return { h with levels, slots }

/-- Inserts below the member at a position of the level above, after its last child. -/
def insertBelow (h : Hierarchy) (e : Entity) (depth parent : Nat) : Checked Hierarchy :=
  let parentIdx := clip parent
  let position := ((h.level depth).takeWhile fun entry => entry.parentIdx ≤ parentIdx).length
  h.insertAt depth position ⟨parentIdx, e⟩

def insertOne (h : Hierarchy) (e : Entity) (parent : Option Entity) : Checked Hierarchy :=
  match parent.bind h.slots.find? with
  | none => h.insertRoot e
  | some (depth, position) => h.insertBelow e (depth + 1) position

def insertPath (h : Hierarchy) (store : Store) (directory : Directory) :
    List Entity → Checked Hierarchy
  | [] => .ok h
  | e :: rest => do
    let h ← insertPath h store directory rest
    h.insertOne e (← parentOf store directory e)

def insert (h : Hierarchy) (store : Store) (directory : Directory) (e : Entity) :
    Checked (Outcome Hierarchy) :=
  if directory.isAlive e then
    if h.contains e then .ok (.ok h)
    else do
      match ← climb h store directory (directory.handles.erase e) [e] e with
      | .error error => return .error error
      | .ok path =>
        match path.find? fun member => !hasTransform store directory member with
        | some missing => return .error (.hierarchyMissingTransform missing)
        | none => return .ok (← h.insertPath store directory path)
  else .ok (.error (.staleEntity e))

def queue (h : Hierarchy) (e : Entity) : Hierarchy := { h with pending := h.pending ++ [e] }

structure Pass where
  store : Store
  previous : Table UInt32 (Entity × Mat4)

def localMatrix (block : Block) (row : Nat) : Checked Mat4 := do
  match ← block.readComponent .read .transform row with
  | none => return .identity
  | some pose => return (Pose.ofBytes pose.bytes).toMatrix

def updateMember (directory : Directory) (hangs : Bool) (parentWorld : Mat4) (pass : Pass)
    (e : Entity) (world : Option Mat4) : Checked (Option Mat4 × Pass) :=
  match directory.locate? e with
  | none => .ok (some parentWorld, pass)
  | some (id, row) =>
    match pass.store.block? id with
    | none => .ok (world, pass)
    | some block => do
      let own ← localMatrix block row
      let next := if hangs then parentWorld * own else own
      let previous :=
        match world with
        | none => pass.previous
        | some old => pass.previous.insert e.index (e, old)
      match ← block.setComponent row ⟨.worldTransform, next.bytes, rfl⟩ with
      | none => return (some next, ⟨pass.store, previous⟩)
      | some block => return (some next, ⟨pass.store.put id block, previous⟩)

def updateWorlds (directory : Directory) (parents : Option (List (Option Mat4))) :
    Pass → List Entry → List (Option Mat4) → Checked (List (Option Mat4) × Pass)
  | pass, entry :: entries, world :: worlds => do
    let parentWorld : Mat4 :=
      (parents.bind fun above => (above[entry.parentIdx.toNat]?).join).getD .identity
    let (world, pass) ← updateMember directory parents.isSome parentWorld pass entry.entity world
    let (worlds, pass) ← updateWorlds directory parents pass entries worlds
    return (world :: worlds, pass)
  | pass, _, worlds => .ok (worlds, pass)

def updateLevels (directory : Directory) :
    Option (List (Option Mat4)) → Pass → List Level → Checked (List Level × Pass)
  | _, pass, [] => .ok ([], pass)
  | parents, pass, level :: rest => do
    let (worlds, pass) ← updateWorlds directory parents pass level.entries level.worlds
    let (rest, pass) ← updateLevels directory (some worlds) pass rest
    return ({ level with worlds } :: rest, pass)

def update (h : Hierarchy) (directory : Directory) (store : Store) :
    Checked (Hierarchy × Store) := do
  let (levels, pass) ← updateLevels directory none ⟨store, h.previous⟩ h.levels
  return ({ h with levels, previous := pass.previous }, pass.store)

/-- New positions of the entries of a level by their old ones, none for removed entries. -/
abbrev Renumbering := List (Option UInt32)

structure Pruned where
  slots : Table Entity (Nat × Nat)
  previous : Table UInt32 (Entity × Mat4)

def forget (e : Entity) (p : Pruned) : Pruned :=
  { slots := p.slots.erase e
    previous :=
      match p.previous.find? e.index with
      | some (owner, _) => if owner = e then p.previous.erase e.index else p.previous
      | none => p.previous }

/-- A level in the course of its pruning. The entries kept so far stand before `write`. -/
structure Sieve where
  level : Level
  write : Nat
  kept : UInt32
  numbers : Renumbering
  rest : Pruned

def pruneEntry (directory : Directory) (depth : Nat) (parents : Renumbering) (sieve : Sieve)
    (read : Nat) : Checked Sieve := do
  let entry ← Checked.item sieve.level.entries read
  let parent := if depth = 0 then some 0 else (parents[entry.parentIdx.toNat]?).join
  match parent.filter fun _ => directory.isAlive entry.entity with
  | none =>
    return { sieve with
      numbers := sieve.numbers ++ [none]
      rest := forget entry.entity sieve.rest }
  | some parentIdx =>
    let entries ← Checked.put sieve.level.entries sieve.write { entry with parentIdx }
    let world ← Checked.item sieve.level.worlds read
    let worlds ← Checked.put sieve.level.worlds sieve.write world
    return {
      level := ⟨entries, worlds⟩
      write := sieve.write + 1
      kept := ← Checked.next32 sieve.kept
      numbers := sieve.numbers ++ [some sieve.kept]
      rest := { sieve.rest with slots := sieve.rest.slots.insert entry.entity (depth, sieve.write) } }

def pruneLevel (directory : Directory) (depth : Nat) (parents : Renumbering) (p : Pruned)
    (level : Level) : Checked (Level × Renumbering × Pruned) := do
  let sieve ← (List.range level.entries.length).foldlM (pruneEntry directory depth parents)
    ⟨level, 0, 0, [], p⟩
  let { entries, worlds } := sieve.level
  return (⟨entries.take sieve.write, worlds.take sieve.write⟩, sieve.numbers, sieve.rest)

def pruneLevels (directory : Directory) :
    (depth : Nat) → (parents : Renumbering) → Pruned → List Level → Checked (List Level × Pruned)
  | _, _, p, [] => .ok ([], p)
  | depth, parents, p, level :: rest => do
    let (level, numbers, p) ← pruneLevel directory depth parents p level
    let (rest, p) ← pruneLevels directory (depth + 1) numbers p rest
    return (level :: rest, p)

def trim : List Level → List Level
  | [] => []
  | level :: rest =>
    match trim rest with
    | [] => if level.entries.isEmpty then [] else [level]
    | kept => level :: kept

def prune (h : Hierarchy) (directory : Directory) : Checked Hierarchy := do
  let (levels, p) ← pruneLevels directory 0 [] ⟨h.slots, h.previous⟩ h.levels
  return { h with levels := trim levels, slots := p.slots, previous := p.previous }

def flush (store : Store) (directory : Directory) (h : Hierarchy) : List Entity → Checked Hierarchy
  | [] => .ok h
  | e :: rest => do
    match ← h.insert store directory e with
    | .ok h => flush store directory h rest
    | .error _ => flush store directory h rest

def endFrame (h : Hierarchy) (store : Store) (directory : Directory) : Checked Hierarchy := do
  let pruned ← h.prune directory
  flush store directory { pruned with pending := [] } h.pending

end Hierarchy

end EntityStore
