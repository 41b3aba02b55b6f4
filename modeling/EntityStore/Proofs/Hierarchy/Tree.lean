import EntityStore.Hierarchy

set_option autoImplicit false

namespace EntityStore

structure Node where
  parent : Nat
  entity : Entity
  world : Option Mat4

def Node.shift (position : Nat) (node : Node) : Node :=
  if position ≤ node.parent then { node with parent := node.parent + 1 } else node

structure Tree where
  levels : List (List Node)
  slots : Table Entity (Nat × Nat)
  previous : Table UInt32 (Entity × Mat4)
  pending : List Entity

def Entry.node (entry : Entry) (world : Option Mat4) : Node :=
  ⟨entry.parentIdx.toNat, entry.entity, world⟩

def Level.nodes (l : Level) : List Node := List.zipWith Entry.node l.entries l.worlds

namespace Hierarchy

def tree (h : Hierarchy) : Tree := ⟨h.levels.map Level.nodes, h.slots, h.previous, h.pending⟩

def parentOf? (store : Store) (directory : Directory) (e : Entity) : Option Entity :=
  match parentOf store directory e with
  | .error _ => none
  | .ok parent => parent

end Hierarchy

namespace Tree

open Hierarchy (Pass Pruned forget hasTransform parentOf?)

def empty : Tree := ⟨[], .empty, .empty, []⟩

def depth (h : Tree) : Nat := (h.levels.takeWhile fun level => !level.isEmpty).length

def level (h : Tree) (depth : Nat) : List Node := h.levels.getD depth []

def depthOf? (h : Tree) (e : Entity) : Option Nat := (h.slots.find? e).map Prod.fst

def contains (h : Tree) (e : Entity) : Bool := h.slots.contains e

def node? (h : Tree) (e : Entity) : Option Node := do
  let (depth, position) ← h.slots.find? e
  (h.level depth)[position]?

def world? (h : Tree) (e : Entity) : Option Mat4 := (h.node? e).bind Node.world

def previous? (h : Tree) (e : Entity) : Option Mat4 :=
  ((h.previous.find? e.index).filter fun (owner, _) => owner = e).map Prod.snd

def climb (h : Tree) (store : Store) (directory : Directory) (unvisited : List Entity)
    (path : List Entity) (current : Entity) : Outcome (List Entity) :=
  match parentOf? store directory current with
  | none => .ok path
  | some parent =>
    if directory.isAlive parent then
      if _unmet : parent ∈ unvisited then
        if h.contains parent then .ok path
        else climb h store directory (unvisited.erase parent) (path ++ [parent]) parent
      else .error (.hierarchyCycle parent)
    else .error (.hierarchyParentNotAlive current parent)
termination_by unvisited.length
decreasing_by
  have bound := List.length_pos_of_mem _unmet
  rw [List.length_erase_of_mem _unmet]
  omega

def modifyLevel (f : List Node → List Node) : Nat → List (List Node) → List (List Node)
  | 0, [] => [f []]
  | 0, level :: rest => f level :: rest
  | depth + 1, [] => [] :: modifyLevel f depth []
  | depth + 1, level :: rest => level :: modifyLevel f depth rest

def noteSlots (slots : Table Entity (Nat × Nat)) (depth position : Nat) :
    List Node → Table Entity (Nat × Nat)
  | [] => slots
  | node :: rest => noteSlots (slots.insert node.entity (depth, position)) depth (position + 1) rest

def insertRoot (h : Tree) (e : Entity) : Tree :=
  { h with
    levels := modifyLevel (· ++ [⟨0, e, none⟩]) 0 h.levels
    slots := h.slots.insert e (0, (h.level 0).length) }

def insertBetween (h : Tree) (depth : Nat) (before : List Node) (node : Node) (after : List Node) : Tree :=
  let levels := modifyLevel (fun _ => before ++ node :: after) depth h.levels
  { h with
    levels := levels.modify (depth + 1) (List.map (Node.shift before.length))
    slots := noteSlots h.slots depth before.length (node :: after) }

def insertBelow (h : Tree) (e : Entity) (depth parent : Nat) : Tree :=
  let before := (h.level depth).takeWhile fun node => node.parent ≤ parent
  let after := (h.level depth).dropWhile fun node => node.parent ≤ parent
  h.insertBetween depth before ⟨parent, e, none⟩ after

-- A parent at a position that does not fit is mistaken for the last one that does.
def insertOne (h : Tree) (e : Entity) (parent : Option Entity) : Tree :=
  match parent.bind h.slots.find? with
  | none => h.insertRoot e
  | some (depth, position) => h.insertBelow e (depth + 1) (clip position).toNat

def ascent (h : Tree) (store : Store) (directory : Directory) (e : Entity) : Outcome (List Entity) :=
  if directory.isAlive e then
    if h.contains e then .ok []
    else
      match h.climb store directory (directory.handles.erase e) [e] e with
      | .error error => .error error
      | .ok path =>
        match path.find? fun member => !hasTransform store directory member with
        | some missing => .error (.hierarchyMissingTransform missing)
        | none => .ok path
  else .error (.staleEntity e)

def joining (h : Tree) (store : Store) (directory : Directory) (e : Entity) : List Entity :=
  match h.ascent store directory e with
  | .error _ => []
  | .ok path => path

def graft (h : Tree) (link : Entity → Option Entity) (path : List Entity) : Tree :=
  path.foldr (fun e h => h.insertOne e (link e)) h

def tried (h : Tree) (store : Store) (directory : Directory) (e : Entity) : Tree :=
  h.graft (parentOf? store directory) (h.joining store directory e)

def updateNode (directory : Directory) (parents : Option (List Node)) (pass : Pass) (node : Node) :
    Checked (Node × Pass) :=
  let parentWorld : Mat4 :=
    ((parents.bind fun level => level[node.parent]?).bind Node.world).getD .identity
  (Hierarchy.updateMember directory parents.isSome parentWorld pass node.entity node.world).map
    fun (world, pass) => ({ node with world }, pass)

def updateLevel (directory : Directory) (parents : Option (List Node)) :
    Pass → List Node → Checked (List Node × Pass)
  | pass, [] => .ok ([], pass)
  | pass, node :: rest => do
    let (node, pass) ← updateNode directory parents pass node
    let (rest, pass) ← updateLevel directory parents pass rest
    return (node :: rest, pass)

def updateLevels (directory : Directory) :
    Option (List Node) → Pass → List (List Node) → Checked (List (List Node) × Pass)
  | _, pass, [] => .ok ([], pass)
  | parents, pass, level :: rest => do
    let (level, pass) ← updateLevel directory parents pass level
    let (rest, pass) ← updateLevels directory (some level) pass rest
    return (level :: rest, pass)

def update (h : Tree) (directory : Directory) (store : Store) : Checked (Tree × Store) := do
  let (levels, pass) ← updateLevels directory none ⟨store, h.previous⟩ h.levels
  return ({ h with levels, previous := pass.previous }, pass.store)

abbrev Renumbering := List (Option Nat)

def pruneLevel (directory : Directory) (newParent : Nat → Option Nat) (depth : Nat) :
    (position : Nat) → Pruned → List Node → List Node × Renumbering × Pruned
  | _, p, [] => ([], [], p)
  | position, p, node :: rest =>
    match newParent node.parent with
    | some parent =>
      if directory.isAlive node.entity then
        let p := { p with slots := p.slots.insert node.entity (depth, position) }
        let (kept, numbers, p) := pruneLevel directory newParent depth (position + 1) p rest
        ({ node with parent } :: kept, some position :: numbers, p)
      else
        let (kept, numbers, p) :=
          pruneLevel directory newParent depth position (forget node.entity p) rest
        (kept, none :: numbers, p)
    | none =>
      let (kept, numbers, p) :=
        pruneLevel directory newParent depth position (forget node.entity p) rest
      (kept, none :: numbers, p)

def pruneLevels (directory : Directory) :
    (newParent : Nat → Option Nat) → (depth : Nat) → Pruned → List (List Node) →
      List (List Node) × Pruned
  | _, _, p, [] => ([], p)
  | newParent, depth, p, level :: rest =>
    let (level, numbers, p) := pruneLevel directory newParent depth 0 p level
    let (rest, p) := pruneLevels directory (fun i => numbers.getD i none) (depth + 1) p rest
    (level :: rest, p)

def trim : List (List Node) → List (List Node)
  | [] => []
  | level :: rest =>
    match trim rest with
    | [] => if level.isEmpty then [] else [level]
    | kept => level :: kept

def prune (h : Tree) (directory : Directory) : Tree :=
  let (levels, p) := pruneLevels directory (fun _ => some 0) 0 ⟨h.slots, h.previous⟩ h.levels
  { h with levels := trim levels, slots := p.slots, previous := p.previous }

def flush (store : Store) (directory : Directory) (h : Tree) (pending : List Entity) : Tree :=
  pending.foldl (fun h e => h.tried store directory e) h

def endFrame (h : Tree) (store : Store) (directory : Directory) : Tree :=
  flush store directory { h.prune directory with pending := [] } h.pending

end Tree

end EntityStore
