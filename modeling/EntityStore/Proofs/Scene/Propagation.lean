import EntityStore.Proofs.Scene.Forest
import EntityStore.Proofs.Scene.Refinement

set_option autoImplicit false

namespace EntityStore

namespace Hierarchy

variable {registry : Registry} {w : World} {e : Entity}

theorem stamps_other (nodes : List Node) (other : e ∉ nodes.map Node.entity) :
    (nodes.foldl (stamp registry) w) e = w e := by
  induction nodes generalizing w with
  | nil => rfl
  | cons node rest ih =>
      rw [List.map_cons, List.mem_cons, not_or] at other
      rw [List.foldl_cons, ih other.2, stamp, if_neg other.1]

theorem stamps_own (nodes : List Node) (distinct : (nodes.map Node.entity).Nodup) (node : Node)
    (member : node ∈ nodes) :
    (nodes.foldl (stamp registry) w) node.entity = (w node.entity).map (stamped registry node.world) := by
  induction nodes generalizing w with
  | nil => contradiction
  | cons first rest ih =>
      obtain ⟨other, distinct⟩ := List.nodup_cons.mp distinct
      rw [List.foldl_cons]
      cases List.mem_cons.mp member with
      | inl here => rw [here, stamps_other rest other, stamp, if_pos rfl]
      | inr later =>
          have apart : node.entity ≠ first.entity := fun same => other (same ▸ List.mem_map_of_mem later)
          rw [ih distinct later, stamp, if_neg apart]

end Hierarchy

namespace Tree

variable {h : Tree} {log : Lineage} {e : Entity}

theorem Traces.node_above (traces : Traces h log) {depth position : Nat} {node : Node}
    (found : (h.level (depth + 1))[position]? = some node) :
    ∃ above, (h.level depth)[node.parent]? = some above ∧ (node.entity, some above.entity) ∈ log := by
  have place : (log.generation (depth + 1))[position]? = some node.place := by
    rw [← traces.levels, List.getElem?_map, found, Option.map_some]
  obtain ⟨parent, there, hangs⟩ := (Lineage.mem_generation_succ log depth _ _).mp (List.mem_of_getElem? place)
  rw [← traces.entities, List.getElem?_map] at there
  obtain ⟨above, inside, rfl⟩ := Option.map_eq_some_iff.mp there
  exact ⟨above, inside, hangs⟩

theorem Traces.node_of_peer (traces : Traces h log) {depth : Nat} (peer : e ∈ log.peers depth) :
    ∃ (position : Nat) (node : Node), (h.level depth)[position]? = some node ∧ node.entity = e := by
  rw [← traces.entities] at peer
  obtain ⟨node, inside, rfl⟩ := List.mem_map.mp peer
  obtain ⟨position, found⟩ := List.mem_iff_getElem?.mp inside
  exact ⟨position, node, found, rfl⟩

theorem Traces.node_of_world (traces : Traces h log) {matrix : Mat4} (computed : h.world? e = some matrix) :
    ∃ node ∈ h.levels.flatten, node.entity = e ∧ node.world = some matrix := by
  obtain ⟨node, found, own⟩ := Option.bind_eq_some_iff.mp computed
  obtain ⟨⟨depth, position⟩, slot, there⟩ := Option.bind_eq_some_iff.mp found
  have there : (h.level depth)[position]? = some node := there
  have named := (traces.slots e depth position).mp slot
  rw [← traces.entities, List.getElem?_map, there] at named
  exact ⟨node, mem_flatten_of_level (List.mem_of_getElem? there), Option.some.inj named, own⟩

end Tree

namespace Scene

open Checked Hierarchy

variable {s next last : Scene} {log : Lineage}

theorem settle_all_zero (parents : Option (List Node)) (levels : List (List Node)) :
    (s.settleAll parents levels).getD 0 [] = (levels.getD 0 []).map (s.settle parents) := by
  cases levels <;> rfl

theorem settle_all_succ (parents : Option (List Node)) (levels : List (List Node)) (depth : Nat) :
    (s.settleAll parents levels).getD (depth + 1) [] =
      (levels.getD (depth + 1) []).map (s.settle (some ((s.settleAll parents levels).getD depth []))) := by
  induction levels generalizing parents depth with
  | nil => rfl
  | cons nodes rest ih =>
      cases depth with
      | zero => exact settle_all_zero (some (nodes.map (s.settle parents))) rest
      | succ depth => exact ih (some (nodes.map (s.settle parents))) depth

structure Worlds (s next : Scene) (log : Lineage) : Prop where
  root : ∀ e, (e, none) ∈ log → next.hierarchy.world? e = some (s.worldBelow none e)
  child : ∀ e parent, (e, some parent) ∈ log → ∃ above,
    next.hierarchy.world? parent = some above ∧
      next.hierarchy.world? e = some (s.worldBelow (some above) e)

theorem worlds_of_settled (records : next.hierarchy.Records log)
    (settled : next.hierarchy.tree.levels = s.settleAll none s.hierarchy.tree.levels) : Worlds s next log := by
  have traces := records.traces
  have world (depth position : Nat) (node : Node)
      (found : (next.hierarchy.tree.level depth)[position]? = some node) :
      next.hierarchy.world? node.entity = node.world :=
    (world_tree records.aligned node.entity).symm.trans (traces.world_at found)
  have top (position : Nat) (node : Node) (found : (next.hierarchy.tree.level 0)[position]? = some node) :
      node.world = some (s.worldBelow none node.entity) := by
    rw [Tree.level, settled, settle_all_zero, List.getElem?_map] at found
    obtain ⟨old, _, rfl⟩ := Option.map_eq_some_iff.mp found
    rfl
  have lower (depth position : Nat) (node : Node)
      (found : (next.hierarchy.tree.level (depth + 1))[position]? = some node) :
      node.world = some (s.worldBelow (some ((((next.hierarchy.tree.level depth)[node.parent]?).bind
        Node.world).getD .identity)) node.entity) := by
    rw [Tree.level, settled, settle_all_succ, List.getElem?_map, ← settled] at found
    obtain ⟨old, _, rfl⟩ := Option.map_eq_some_iff.mp found
    rfl
  have computed (depth position : Nat) (node : Node)
      (found : (next.hierarchy.tree.level depth)[position]? = some node) : ∃ matrix, node.world = some matrix := by
    cases depth with
    | zero => exact ⟨_, top position node found⟩
    | succ depth => exact ⟨_, lower depth position node found⟩
  refine ⟨fun e rooted => ?_, fun e parent hangs => ?_⟩
  · obtain ⟨position, node, found, rfl⟩ := traces.node_of_peer ((Lineage.mem_peers_zero log e).mpr rooted)
    rw [world 0 position node found, top position node found]
  · obtain ⟨depth, peer⟩ := traces.grown.exists_depth (traces.grown.known hangs)
    obtain ⟨position, node, found, rfl⟩ := traces.node_of_peer
      ((Lineage.mem_peers_succ log depth e).mpr ⟨parent, peer, hangs⟩)
    obtain ⟨above, there, listed⟩ := traces.node_above found
    obtain rfl := Option.some.inj (traces.grown.parent_unique hangs listed)
    obtain ⟨matrix, known⟩ := computed depth node.parent above there
    refine ⟨matrix, ?_, ?_⟩
    · rw [world depth node.parent above there, known]
    · rw [world (depth + 1) position node found, lower depth position node found, there, Option.bind_some,
        known, Option.getD_some]

-- The product of the matrices on the way from a root to an entity. Nobody dead takes part.
def product (s : Scene) : List Entity → Mat4
  | [] => .identity
  | root :: rest => rest.foldl (fun above e => s.worldBelow (some above) e) (s.worldBelow none root)

theorem product_of_line (worlds : Worlds s next log) {path : List Entity} {e : Entity}
    (line : log.Line path e) : next.hierarchy.world? e = some (s.product path) := by
  induction line with
  | root e rooted => exact worlds.root e rooted
  | child path parent e above hangs ih =>
      obtain ⟨matrix, known, computed⟩ := worlds.child e parent hangs
      obtain rfl := Option.some.inj (ih.symm.trans known)
      cases path with
      | nil => exact absurd rfl above.ne_nil
      | cons root rest =>
          rw [computed, List.cons_append, product, product, List.foldl_append]
          rfl

structure Propagates (s next : Scene) (log : Lineage) : Prop extends Worlds s next log where
  product : ∀ e ∈ log.members, ∃ path, log.Line path e ∧
    next.hierarchy.world? e = some (s.product path)
  -- A member that carries a world transform has its matrix there.
  written : ∀ e content matrix, s.world e = some content →
    content.components ComponentType.worldTransform.id ≠ none →
    next.hierarchy.world? e = some matrix →
    next.world e = some (content.set ComponentType.worldTransform.id (some matrix.bytes))
  read : ∀ e matrix, next.hierarchy.world? e = some matrix →
    s.hasComponent e ComponentType.worldTransform.id = .ok true →
    ∃ value, next.get e .worldTransform = .ok (.ok value) ∧ value.bytes = matrix.bytes
  -- Whoever is no member or carries none is as before.
  kept : ∀ e, e ∉ log.members ∨ s.hasComponent e ComponentType.worldTransform.id ≠ .ok true →
    next.world e = s.world e
  entries : next.hierarchy.levels.map Level.entries = s.hierarchy.levels.map Level.entries
  frame : next = { s with
    hierarchy := { s.hierarchy with
      levels := next.hierarchy.levels
      previous := next.hierarchy.previous }
    store := { s.store with pool := next.store.pool } }

section Refreshed

variable {e : Entity} {matrix : Mat4} (refreshed : Refreshed s next)

include refreshed

-- Each matrix that was computed is written to the entity of its node, if it has a place for it.
theorem refreshed_stamped (after : next.hierarchy.Records log) (computed : next.hierarchy.world? e = some matrix) :
    next.world e = (s.world e).map (Hierarchy.stamped s.registry (some matrix)) := by
  rw [← world_tree after.aligned] at computed
  obtain ⟨node, member, rfl, own⟩ := after.traces.node_of_world computed
  rw [refreshed.becomes.world, stamps_own _ after.traces.nodup_flatten node member, own]

theorem refreshed_written (after : next.hierarchy.Records log) (known : s.registry.Knows .worldTransform)
    {content : Content} (held : s.world e = some content)
    (carries : content.components ComponentType.worldTransform.id ≠ none)
    (computed : next.hierarchy.world? e = some matrix) :
    next.world e = some (content.set ComponentType.worldTransform.id (some matrix.bytes)) := by
  rw [refreshed_stamped refreshed after computed, held, Option.map_some, Hierarchy.stamped,
    if_pos ⟨known, carries⟩]

theorem refreshed_read (sound : s.Sound) (after : next.hierarchy.Records log)
    (known : s.registry.Knows .worldTransform) (computed : next.hierarchy.world? e = some matrix)
    (carries : s.hasComponent e ComponentType.worldTransform.id = .ok true) :
    ∃ value, next.get e .worldTransform = .ok (.ok value) ∧ value.bytes = matrix.bytes := by
  have found := (observes_world sound).carries e ComponentType.worldTransform.id
  rw [carries] at found
  cases held : s.world e with
  | none =>
      rw [held] at found
      contradiction
  | some content =>
      rw [held] at found
      have present := Except.ok.inj found
      have written := refreshed_written refreshed after known held (Option.isSome_iff_ne_none.mp present.symm) computed
      have registry : next.registry = s.registry := refreshed.becomes.alike.registry
      have fits : Component.ofBytes? .worldTransform matrix.bytes =
          some ⟨.worldTransform, matrix.bytes, Mat4.length_bytes matrix⟩ :=
        dif_pos (Mat4.length_bytes matrix)
      refine ⟨⟨.worldTransform, matrix.bytes, Mat4.length_bytes matrix⟩, ?_, rfl⟩
      rw [get_of_world refreshed.becomes.sound, written, registry]
      simp only [if_pos known, Content.set, Function.update_self, Option.bind_some, fits]

theorem refreshed_lacking (sound : s.Sound) (after : next.hierarchy.Records log)
    (computed : next.hierarchy.world? e = some matrix)
    (lacks : s.hasComponent e ComponentType.worldTransform.id ≠ .ok true) : next.world e = s.world e := by
  rw [refreshed_stamped refreshed after computed]
  have found := (observes_world sound).carries e ComponentType.worldTransform.id
  cases held : s.world e with
  | none => rfl
  | some content =>
      rw [held] at found
      have found : _ = Except.ok (content.components _).isSome := found
      have absent : content.components ComponentType.worldTransform.id = none := by
        by_contra present
        refine lacks ?_
        rw [found, Option.isSome_iff_ne_none.mpr present]
      rw [Option.map_some, Hierarchy.stamped, if_neg fun both => both.2 absent]

theorem refreshed_stranger (after : next.hierarchy.Records log) (stranger : e ∉ log.members) :
    next.world e = s.world e := by
  have outside : e ∉ next.hierarchy.tree.levels.flatten.map Node.entity := fun inside =>
    stranger ((after.traces.contains_iff e).mp ((after.traces.mem_flatten_iff e).mp inside))
  rw [refreshed.becomes.world, stamps_other _ outside]

theorem refreshed_propagates (sound : s.Sound) (records : s.hierarchy.Records log)
    (known : s.registry.Knows .worldTransform) : Propagates s next log := by
  have after := refreshed.records log records
  have worlds := worlds_of_settled after refreshed.levels
  have computed (e : Entity) (member : e ∈ log.members) :
      ∃ path, log.Line path e ∧ next.hierarchy.world? e = some (s.product path) := by
    obtain ⟨path, line⟩ := records.traces.grown.exists_line member
    exact ⟨path, line, product_of_line worlds line⟩
  refine ⟨worlds, computed, fun e content matrix => refreshed_written refreshed after known,
    fun e matrix => refreshed_read refreshed sound after known, fun e idle => ?_, refreshed.entries, refreshed.frame⟩
  by_cases member : e ∈ log.members
  · obtain ⟨path, _, world⟩ := computed e member
    exact refreshed_lacking refreshed sound after world (idle.resolve_left fun stranger => stranger member)
  · exact refreshed_stranger refreshed after member

end Refreshed

/-- In every state that a history leads to, an update of the world matrices gives each member the
product of the matrices on its way down, writes it where there is a place for it, and changes nothing
else. -/
theorem run_propagates {name : String} {settings : Settings} {registry : Registry} {first : Scene}
    {commands : List Command} {outcomes : List (Outcome Reply)} (genuine : registry.Genuine)
    (builtin : ∀ type ∈ ComponentType.builtins, registry.Knows type)
    (made : create name settings registry = .ok (.ok first))
    (ran : first.performAll commands = .ok (outcomes, s)) (narrow : first.StaysNarrow commands) :
    ∃ next, s.updateHierarchy = .ok next ∧ Propagates s next (first.lineage [] commands) := by
  have blank := blank_of_created genuine made
  obtain ⟨sound, alike⟩ := run_sound blank.sound ran
  have start : first.hierarchy.Records [] := (vacant_of_created made).1 ▸ records_empty []
  have records := run_records blank.sound start ran narrow
  have same : s.registry = registry := (alike.registry : s.registry = first.registry).trans blank.registry
  have known : s.registry.Knows .worldTransform := by
    rw [same]
    exact builtin .worldTransform (by decide)
  obtain ⟨next, updated, refreshed⟩ := update_hierarchy_ok sound
  exact ⟨next, updated, refreshed_propagates refreshed sound records known⟩

theorem run_propagates_adoption : ∃ first outcomes s next,
    create "world" { blockCapacity := 2, blockBytes := 128, maxBlocks := 1 } .builtins = .ok (.ok first) ∧
      first.performAll adoption = .ok (outcomes, s) ∧ s.updateHierarchy = .ok next ∧
      Propagates s next [(⟨0, 1⟩, none), (⟨1, 1⟩, some ⟨0, 1⟩)] := by
  obtain ⟨first, outcomes, s, made, ran, grown⟩ := adoption_lineage
  have narrow := stays_narrow_of_few (blank_of_created Registry.builtins_genuine made)
    (show adoption.length < 0xffffffff by decide)
  obtain ⟨next, updated, propagates⟩ := run_propagates Registry.builtins_genuine (by decide) made ran narrow
  rw [grown] at propagates
  exact ⟨first, outcomes, s, next, made, ran, updated, propagates⟩

end Scene

end EntityStore
