import EntityStore.Proofs.Scene.Writes

set_option autoImplicit false

namespace EntityStore

theorem Mat4.length_bytes (m : Mat4) : m.bytes.length = ComponentType.worldTransform.size := rfl

namespace Hierarchy

def stamped (registry : Registry) (world : Option Mat4) (content : Content) : Content :=
  match world with
  | none => content
  | some matrix =>
    if registry.Knows .worldTransform ∧ content.components ComponentType.worldTransform.id ≠ none then
      content.set ComponentType.worldTransform.id (some matrix.bytes)
    else content

def stamp (registry : Registry) (w : World) (node : Node) : World := fun e =>
  if e = node.entity then (w e).map (stamped registry node.world) else w e

def archived (directory : Directory) (previous : Table UInt32 (Entity × Mat4)) (node : Node) :
    Table UInt32 (Entity × Mat4) :=
  if directory.isAlive node.entity then
    match node.world with
    | none => previous
    | some old => previous.insert node.entity.index (node.entity, old)
  else previous

variable {registry : Registry} {w : World} {node : Node}

theorem stamp_dead (dead : w node.entity = none) : stamp registry w node = w := by
  funext e
  by_cases own : e = node.entity
  · rw [stamp, if_pos own, own, dead, Option.map_none]
  · rw [stamp, if_neg own]

theorem stamp_held {content : Content} (held : w node.entity = some content) :
    stamp registry w node = Function.update w node.entity (some (stamped registry node.world content)) := by
  funext e
  rw [Function.update_apply, stamp]
  by_cases own : e = node.entity
  · rw [if_pos own, if_pos own, own, held, Option.map_some]
  · rw [if_neg own, if_neg own]

theorem stamps_component (registry : Registry) (w : World) (nodes : List Node) (e : Entity) (id : ComponentId)
    (other : id ≠ ComponentType.worldTransform.id) :
    ((nodes.foldl (stamp registry) w) e).map (fun content => content.components id) =
      (w e).map fun content => content.components id := by
  have kept (world : Option Mat4) (content : Content) :
      (stamped registry world content).components id = content.components id := by
    cases world with
    | none => rfl
    | some matrix =>
        rw [stamped]
        split
        · exact Function.update_of_ne other _ _
        · rfl
  induction nodes generalizing w with
  | nil => rfl
  | cons node rest ih =>
      rw [List.foldl_cons, ih, stamp]
      split
      · rw [Option.map_map]
        exact Option.map_congr fun content _ => kept node.world content
      · rfl

end Hierarchy

namespace Scene

open Checked Hierarchy

variable {s next : Scene} {e : Entity} {l : Location} {b : Block} {t : Tenant}

def matrixOf (s : Scene) (e : Entity) : Mat4 :=
  match s.get e .transform with
  | .ok (.ok pose) => (Pose.ofBytes pose.bytes).toMatrix
  | _ => .identity

def worldBelow (s : Scene) (above : Option Mat4) (e : Entity) : Mat4 :=
  if s.isAlive e then
    match above with
    | none => s.matrixOf e
    | some above => above * s.matrixOf e
  else above.getD .identity

def settle (s : Scene) (parents : Option (List Node)) (node : Node) : Node :=
  { node with
    world := some (s.worldBelow
      (parents.map fun level => ((level[node.parent]?).bind Node.world).getD .identity) node.entity) }

def settleAll (s : Scene) : Option (List Node) → List (List Node) → List (List Node)
  | _, [] => []
  | parents, nodes :: rest =>
    nodes.map (s.settle parents) :: s.settleAll (some (nodes.map (s.settle parents))) rest

def amid (s : Scene) (pass : Pass) : Scene := { s with store := pass.store }

structure Updated (s : Scene) (pass next : Pass) (old new : List Node) : Prop where
  stamps : Becomes (s.amid pass) (s.amid next) 0
    (new.foldl (stamp (s.amid pass).registry) (s.amid pass).world) s.slots
  previous : next.previous = old.foldl (archived s.directory) pass.previous
  keeps : next.store = { pass.store with pool := next.store.pool }

variable {pass middle last : Pass} {old new oldRest newRest : List Node}

theorem updated_trans (first : Updated s pass middle old new) (rest : Updated s middle last oldRest newRest) :
    Updated s pass last (old ++ oldRest) (new ++ newRest) := by
  have registry : (s.amid middle).registry = (s.amid pass).registry := first.stamps.alike.registry
  have both := first.stamps.trans rest.stamps
  rw [registry, first.stamps.world, ← List.foldl_append] at both
  refine ⟨both, ?_, ?_⟩
  · rw [rest.previous, first.previous, List.foldl_append]
  · rw [rest.keeps, first.keeps]

theorem updated_nothing (sound : (s.amid pass).Sound) : Updated s pass pass [] [] :=
  ⟨becomes_refl sound, rfl, rfl⟩

-- A pass writes no transforms, so it reads what was there at first.
theorem updated_matrix (sound : (s.amid pass).Sound) (updated : Updated s pass middle old new) (e : Entity) :
    (s.amid middle).matrixOf e = (s.amid pass).matrixOf e := by
  have stamped := updated.stamps
  have registry : (s.amid middle).registry = (s.amid pass).registry := stamped.alike.registry
  have poses := stamps_component (s.amid pass).registry (s.amid pass).world new e ComponentType.transform.id
    (by decide)
  rw [← stamped.world] at poses
  rw [matrixOf, matrixOf, get_of_world stamped.sound, get_of_world sound, registry]
  revert poses
  cases (s.amid middle).world e with
  | none =>
      cases (s.amid pass).world e with
      | none => exact fun _ => rfl
      | some before => exact fun same => by contradiction
  | some after =>
      cases (s.amid pass).world e with
      | none => exact fun same => by contradiction
      | some before =>
          intro same
          have same : after.components _ = before.components _ := Option.some.inj same
          simp only [same]

section Node

theorem local_matrix_ok (sound : s.Sound) (home : Home s e l b t) : localMatrix b l.row = .ok (s.matrixOf e) := by
  simp only [localMatrix, matrixOf, get, home.block_of, home.read_component sound, ok_bind]
  cases b.component? ComponentType.transform l.row <;> rfl

theorem stamp_ok (sound : s.Sound) {node : Node} (home : Home s node.entity l b t) (matrix : Mat4)
    (computed : node.world = some matrix) :
    (∃ nextBlock, b.setComponent l.row ⟨.worldTransform, matrix.bytes, rfl⟩ = .ok (some nextBlock) ∧
        Becomes s { s with store := s.store.put l.block nextBlock } 0 (stamp s.registry s.world node) s.slots) ∨
      b.setComponent l.row ⟨.worldTransform, matrix.bytes, rfl⟩ = .ok none ∧
        stamp s.registry s.world node = s.world := by
  have content : t.content.components = t.components := rfl
  rw [stamp_held home.world, computed, Hierarchy.stamped, content]
  by_cases present : s.registry.Knows .worldTransform ∧ t.components ComponentType.worldTransform.id ≠ none
  · obtain ⟨nextBlock, wrote, change⟩ := Block.set_component_ok sound.store.genuine home.keeps.sound l.row
      ⟨.worldTransform, matrix.bytes, rfl⟩ t home.tenant present.1 present.2
    rw [if_pos present]
    exact Or.inl ⟨nextBlock, wrote, rewrite_ok sound home change⟩
  · have untyped : b.typedColumn? .worldTransform = none := by
      cases typed : b.typedColumn? .worldTransform with
      | none => rfl
      | some c =>
          obtain ⟨column, known⟩ := (Block.typed_column_known home.keeps.sound.laid .worldTransform c).mp typed
          refine absurd ⟨known, ?_⟩ present
          rw [home.components, Block.componentsAt, column]
          exact Option.some_ne_none _
    rw [if_neg present, ← home.world, Function.update_eq_self]
    refine Or.inr ⟨?_, rfl⟩
    rw [Block.set_component_eq sound.store.genuine home.keeps.sound.shaped, untyped]
    exact ite_self _

section Member

variable {node : Node} {matrix : Mat4} {hangs : Bool} {parentWorld : Mat4}

theorem update_dead_ok (sound : (s.amid pass).Sound) (root : hangs = false → parentWorld = .identity)
    (gone : s.directory.location? node.entity = none)
    (expected : s.worldBelow (if hangs then some parentWorld else none) node.entity = matrix) :
    updateMember s.directory hangs parentWorld pass node.entity node.world = .ok (some matrix, pass) ∧
      Updated s pass pass [node] [{ node with world := some matrix }] := by
  have missing : s.directory.locate? node.entity = none := by
    rw [Directory.locate_spot_eq, gone]
    rfl
  have dead : ¬ s.isAlive node.entity = true := by
    rw [isAlive, Directory.alive_eq, gone]
    exact Bool.false_ne_true
  have above : parentWorld = matrix := by
    rw [worldBelow.eq_def, if_neg dead] at expected
    cases hangs with
    | true => exact expected
    | false => exact (root rfl).trans expected
  have nobody : (s.amid pass).world ({ node with world := some matrix } : Node).entity = none :=
    dead_of_stale sound gone
  refine ⟨by rw [updateMember.eq_def, missing, above], ?_, (if_neg dead).symm, rfl⟩
  rw [List.foldl_cons, List.foldl_nil, stamp_dead nobody]
  exact becomes_refl sound

theorem update_live_ok (sound : (s.amid pass).Sound)
    (unmoved : (s.amid pass).matrixOf node.entity = s.matrixOf node.entity) {l : Location}
    (found : s.directory.location? node.entity = some l)
    (expected : s.worldBelow (if hangs then some parentWorld else none) node.entity = matrix) :
    ∃ next, updateMember s.directory hangs parentWorld pass node.entity node.world = .ok (some matrix, next) ∧
      Updated s pass next [node] [{ node with world := some matrix }] := by
  obtain ⟨b, t, home⟩ := home_of (s := s.amid pass) sound found
  have located : s.directory.locate? node.entity = some (l.block, l.row) := by
    rw [Directory.locate_spot_eq, found]
    rfl
  have alive : s.isAlive node.entity = true := (alive_iff s node.entity).mpr ⟨l, found⟩
  have stored : pass.store.block? l.block = some b := home.block
  have own : localMatrix b l.row = .ok (s.matrixOf node.entity) :=
    (local_matrix_ok sound home).trans (congrArg _ unmoved)
  have product : (if hangs = true then parentWorld * s.matrixOf node.entity else s.matrixOf node.entity) =
      matrix := by
    rw [worldBelow.eq_def, if_pos alive] at expected
    cases hangs <;> exact expected
  have archive : archived s.directory pass.previous node = match node.world with
      | none => pass.previous
      | some old => pass.previous.insert node.entity.index (node.entity, old) := if_pos alive
  unfold updateMember
  simp only [located, stored, own, ok_bind, product]
  have here : Home (s.amid pass) ({ node with world := some matrix } : Node).entity l b t := home
  rcases stamp_ok sound here matrix rfl with ⟨nextBlock, wrote, becomes⟩ | ⟨unwritten, still⟩
  · simp only [wrote, ok_bind, pure_eq_ok]
    exact ⟨_, rfl, becomes, archive.symm, rfl⟩
  · simp only [unwritten, ok_bind, pure_eq_ok]
    refine ⟨_, rfl, ?_, archive.symm, rfl⟩
    rw [List.foldl_cons, List.foldl_nil, still]
    exact becomes_refl sound

theorem update_member_ok (sound : (s.amid pass).Sound) (hangs : Bool) (parentWorld : Mat4)
    (root : hangs = false → parentWorld = .identity) (node : Node)
    (unmoved : (s.amid pass).matrixOf node.entity = s.matrixOf node.entity) {matrix : Mat4}
    (expected : s.worldBelow (if hangs then some parentWorld else none) node.entity = matrix) :
    ∃ next, updateMember s.directory hangs parentWorld pass node.entity node.world = .ok (some matrix, next) ∧
      Updated s pass next [node] [{ node with world := some matrix }] := by
  cases found : s.directory.location? node.entity with
  | none => exact ⟨pass, update_dead_ok sound root found expected⟩
  | some l => exact update_live_ok sound unmoved found expected

end Member

theorem update_node_ok (sound : (s.amid pass).Sound) (parents : Option (List Node)) (node : Node)
    (unmoved : (s.amid pass).matrixOf node.entity = s.matrixOf node.entity) :
    ∃ next, Tree.updateNode s.directory parents pass node = .ok (s.settle parents node, next) ∧
      Updated s pass next [node] [s.settle parents node] := by
  obtain ⟨next, done, updated⟩ := update_member_ok sound parents.isSome
    (((parents.bind fun level => level[node.parent]?).bind Node.world).getD .identity)
    (fun root => by rw [Option.isSome_eq_false_iff, Option.isNone_iff_eq_none] at root; rw [root]; rfl) node unmoved rfl
  have settled : s.settle parents node = { node with world := some (s.worldBelow (if parents.isSome then
      some (((parents.bind fun level => level[node.parent]?).bind Node.world).getD .identity) else none)
      node.entity) } := by
    cases parents <;> rfl
  refine ⟨next, ?_, settled ▸ updated⟩
  rw [Tree.updateNode, settled, done]
  rfl

end Node

theorem update_level_ok (sound : (s.amid pass).Sound) (parents : Option (List Node)) (nodes : List Node)
    (unmoved : ∀ e, (s.amid pass).matrixOf e = s.matrixOf e) :
    ∃ next, Tree.updateLevel s.directory parents pass nodes = .ok (nodes.map (s.settle parents), next) ∧
      Updated s pass next nodes (nodes.map (s.settle parents)) := by
  induction nodes generalizing pass with
  | nil => exact ⟨pass, rfl, updated_nothing sound⟩
  | cons node rest ih =>
      obtain ⟨middle, done, here⟩ := update_node_ok sound parents node (unmoved node.entity)
      obtain ⟨next, others, later⟩ := ih here.stamps.sound fun e =>
        (updated_matrix sound here e).trans (unmoved e)
      refine ⟨next, ?_, updated_trans here later⟩
      simp only [Tree.updateLevel, done, others, ok_bind, pure_eq_ok, List.map_cons]

theorem update_levels_ok (sound : (s.amid pass).Sound) (parents : Option (List Node)) (levels : List (List Node))
    (unmoved : ∀ e, (s.amid pass).matrixOf e = s.matrixOf e) :
    ∃ next, Tree.updateLevels s.directory parents pass levels = .ok (s.settleAll parents levels, next) ∧
      Updated s pass next levels.flatten (s.settleAll parents levels).flatten := by
  induction levels generalizing parents pass with
  | nil => exact ⟨pass, rfl, updated_nothing sound⟩
  | cons nodes rest ih =>
      obtain ⟨middle, done, here⟩ := update_level_ok sound parents nodes unmoved
      obtain ⟨next, others, later⟩ := ih here.stamps.sound (some (nodes.map (s.settle parents))) fun e =>
        (updated_matrix sound here e).trans (unmoved e)
      refine ⟨next, ?_, updated_trans here later⟩
      simp only [Tree.updateLevels, done, others, ok_bind, pure_eq_ok, settleAll]

structure Refreshed (s next : Scene) : Prop where
  records : ∀ log, s.hierarchy.Records log → next.hierarchy.Records log
  levels : next.hierarchy.tree.levels = s.settleAll none s.hierarchy.tree.levels
  becomes : Becomes s next 0 (next.hierarchy.tree.levels.flatten.foldl (stamp s.registry) s.world) s.slots
  previous : next.hierarchy.previous =
    s.hierarchy.tree.levels.flatten.foldl (archived s.directory) s.hierarchy.previous
  entries : next.hierarchy.levels.map Level.entries = s.hierarchy.levels.map Level.entries
  frame : next = { s with
    hierarchy := { s.hierarchy with levels := next.hierarchy.levels, previous := next.hierarchy.previous }
    store := { s.store with pool := next.store.pool } }

theorem update_hierarchy_ok (sound : s.Sound) : ∃ next, s.updateHierarchy = .ok next ∧ Refreshed s next := by
  obtain ⟨log, records⟩ := sound.hierarchy
  have soundAmid : (s.amid ⟨s.store, s.hierarchy.previous⟩).Sound := sound
  obtain ⟨pass, done, updated⟩ := update_levels_ok soundAmid none s.hierarchy.tree.levels fun _ => rfl
  have whole : s.hierarchy.tree.update s.directory s.store =
      .ok ({ s.hierarchy.tree with levels := s.settleAll none s.hierarchy.tree.levels, previous := pass.previous },
        pass.store) := by
    have started : s.hierarchy.tree.previous = s.hierarchy.previous := rfl
    rw [Tree.update, started, done]
    rfl
  have alongside := update_alongside records.aligned s.directory s.store
  rw [whole] at alongside
  cases ran : s.hierarchy.update s.directory s.store with
  | error fault =>
      rw [ran] at alongside
      contradiction
  | ok result =>
      obtain ⟨hierarchy, store⟩ := result
      obtain ⟨after, same, entries⟩ := update_done records ran
      obtain ⟨tree, stored⟩ := Prod.mk.inj (Except.ok.inj (same.symm.trans whole))
      subst stored
      have levels : hierarchy.tree.levels = s.settleAll none s.hierarchy.tree.levels := congrArg Tree.levels tree
      have previous : hierarchy.previous = pass.previous := congrArg Tree.previous tree
      have rest : hierarchy = { s.hierarchy with levels := hierarchy.levels, previous := hierarchy.previous } := by
        obtain ⟨result, _, kept⟩ := bind_ok_iff.mp ran
        rw [← (Prod.mk.inj (Except.ok.inj kept)).1]
      have becomes : Becomes s { s with hierarchy, store := pass.store } 0
          ((s.settleAll none s.hierarchy.tree.levels).flatten.foldl (stamp s.registry) s.world) s.slots :=
        updated.stamps.carry rfl rfl rfl ⟨log, after⟩
      rw [← levels] at becomes
      refine ⟨{ s with hierarchy, store := pass.store }, ?_, fun log known => (update_done known ran).1, levels,
        becomes, previous.trans updated.previous, entries, ?_⟩
      · simp only [updateHierarchy, ran, ok_bind, pure_eq_ok]
      · have keeps : pass.store = { s.store with pool := pass.store.pool } := updated.keeps
        simp only
        rw [← rest, ← keeps]

end Scene

end EntityStore
