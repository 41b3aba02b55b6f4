import EntityStore.Proofs.Hierarchy.Order

set_option autoImplicit false

namespace EntityStore

namespace Tree

open Hierarchy (hasTransform parentOf?)

variable {h middle next : Tree} {log : Lineage} {store : Store} {directory : Directory} {e : Entity}

structure Unmoved (h next : Tree) (e : Entity) : Prop where
  depth : next.depthOf? e = h.depthOf? e
  parent : next.above? e = h.above? e
  world : next.world? e = h.world? e
  previous : next.previous? e = h.previous? e

theorem unmoved_refl (h : Tree) (e : Entity) : Unmoved h h e := ⟨rfl, rfl, rfl, rfl⟩

theorem unmoved_trans (first : Unmoved h middle e) (second : Unmoved middle next e) : Unmoved h next e :=
  ⟨second.depth.trans first.depth, second.parent.trans first.parent, second.world.trans first.world,
    second.previous.trans first.previous⟩

theorem contains_of_depth (same : next.depthOf? e = h.depthOf? e) : next.contains e = h.contains e := by
  have found := congrArg Option.isSome same
  rw [depthOf?, depthOf?, Option.isSome_map, Option.isSome_map] at found
  exact found

theorem Unmoved.contains (unmoved : Unmoved h next e) : next.contains e = h.contains e :=
  contains_of_depth unmoved.depth

section Places

theorem Traces.depth_iff (traces : Traces h log) (e : Entity) (depth : Nat) :
    h.depthOf? e = some depth ↔ e ∈ log.peers depth := by
  rw [depthOf?, Option.map_eq_some_iff, List.mem_iff_getElem?]
  constructor
  · rintro ⟨⟨d, position⟩, slot, rfl⟩
    exact ⟨position, (traces.slots e d position).mp slot⟩
  · rintro ⟨position, found⟩
    exact ⟨(depth, position), (traces.slots e depth position).mpr found, rfl⟩

theorem Traces.exists_entry (traces : Traces h log) (member : h.contains e = true) :
    ∃ parent, (e, parent) ∈ log ∧ h.above? e = parent := by
  obtain ⟨⟨_, parent⟩, listed, rfl⟩ := List.mem_map.mp ((traces.contains_iff e).mp member)
  exact ⟨parent, listed, above_eq traces listed⟩

theorem Traces.entry_of_above (traces : Traces h log) {parent : Entity} (hangs : h.above? e = some parent) :
    (e, some parent) ∈ log := by
  have member : h.contains e = true := by
    rw [contains, Table.contains, Option.isSome_iff_ne_none]
    intro gone
    rw [above?, gone] at hangs
    contradiction
  obtain ⟨other, listed, above⟩ := traces.exists_entry member
  exact (above.symm.trans hangs) ▸ listed

theorem Traces.depth_root (traces : Traces h log) (member : h.contains e = true) (root : h.above? e = none) :
    h.depthOf? e = some 0 := by
  obtain ⟨parent, listed, above⟩ := traces.exists_entry member
  rw [traces.depth_iff, Lineage.mem_peers_zero]
  exact (above.symm.trans root) ▸ listed

theorem Traces.depth_child (traces : Traces h log) {parent : Entity} (hangs : h.above? e = some parent) :
    ∃ depth, h.depthOf? parent = some depth ∧ h.depthOf? e = some (depth + 1) := by
  have listed := traces.entry_of_above hangs
  obtain ⟨depth, peer⟩ := traces.grown.exists_depth (traces.grown.known listed)
  refine ⟨depth, (traces.depth_iff parent depth).mpr peer, (traces.depth_iff e (depth + 1)).mpr ?_⟩
  exact (Lineage.mem_peers_succ log depth e).mpr ⟨parent, peer, listed⟩

theorem Traces.world_at (traces : Traces h log) {depth position : Nat} {node : Node}
    (found : (h.level depth)[position]? = some node) : h.world? node.entity = node.world := by
  have slot := (traces.slots node.entity depth position).mpr (by
    rw [← traces.entities, List.getElem?_map, found, Option.map_some])
  simp [world?, node?, slot, found]

theorem Traces.world_of_badge (traces : Traces h log) {depth : Nat} {badge : Entity × Option Mat4}
    (listed : badge ∈ (h.level depth).map Node.badge) : h.world? badge.1 = badge.2 := by
  obtain ⟨node, inside, rfl⟩ := List.mem_map.mp listed
  obtain ⟨position, found⟩ := List.mem_iff_getElem?.mp inside
  exact traces.world_at found

theorem Traces.badge_of_member (traces : Traces h log) (member : h.contains e = true) :
    ∃ depth, (e, h.world? e) ∈ (h.level depth).map Node.badge := by
  obtain ⟨depth, peer⟩ := traces.grown.exists_depth ((traces.contains_iff e).mp member)
  rw [← traces.entities] at peer
  obtain ⟨node, inside, rfl⟩ := List.mem_map.mp peer
  have listed : node.badge ∈ (h.level depth).map Node.badge := List.mem_map_of_mem inside
  exact ⟨depth, (traces.world_of_badge listed) ▸ listed⟩

end Places

section Rest

def Rest (h next : Tree) : Prop := next = { h with levels := next.levels, slots := next.slots }

theorem rest_trans (first : Rest h middle) (second : Rest middle next) : Rest h next := by
  rw [Rest, second, first]

theorem insert_one_rest (h : Tree) (e : Entity) (parent : Option Entity) : Rest h (h.insertOne e parent) := by
  rw [insertOne]
  cases parent.bind h.slots.find? <;> rfl

theorem graft_rest (h : Tree) (link : Entity → Option Entity) (path : List Entity) : Rest h (h.graft link path) := by
  induction path with
  | nil => exact rfl
  | cons e rest ih => exact rest_trans ih (insert_one_rest _ e (link e))

theorem tried_rest (h : Tree) (store : Store) (directory : Directory) (e : Entity) :
    Rest h (h.tried store directory e) := graft_rest h _ _

theorem flush_rest (store : Store) (directory : Directory) (h : Tree) (es : List Entity) :
    Rest h (flush store directory h es) := by
  induction es generalizing h with
  | nil => exact rfl
  | cons e rest ih => exact rest_trans (tried_rest h store directory e) (ih _)

end Rest

section Tried

theorem tried_order (h : Tree) (store : Store) (directory : Directory) (e : Entity) (depth : Nat) :
    ((h.level depth).map Node.entity).Sublist (((h.tried store directory e).level depth).map Node.entity) := by
  rw [← entities_of_badges, ← entities_of_badges]
  exact (tried_badges h store directory e depth).kept.map Prod.fst

theorem joining_fit (sound : directory.Sound) {x : Entity} (new : x ∈ h.joining store directory e) :
    h.contains x = false ∧ directory.isAlive x = true ∧ hasTransform store directory x = true := by
  cases risen : h.ascent store directory e with
  | error error =>
      rw [joining_error risen] at new
      contradiction
  | ok path =>
      rw [joining_ok risen] at new
      obtain ⟨_, fit, _⟩ := ascent_ok sound risen
      exact fit x new

theorem tried_unmoved (store : Store) (sound : directory.Sound) (traces : Traces h log) (e : Entity)
    {x : Entity} (member : h.contains x = true) : Unmoved h (h.tried store directory e) x := by
  have after := tried_traces store sound traces e
  obtain ⟨parent, listed, above⟩ := traces.exists_entry member
  obtain ⟨depth, peer⟩ := traces.grown.exists_depth ((traces.contains_iff x).mp member)
  obtain ⟨level, badge⟩ := traces.badge_of_member member
  refine ⟨?_, ?_, ?_, ?_⟩
  · rw [(traces.depth_iff x depth).mpr peer, after.depth_iff]
    exact Lineage.peers_append log _ depth peer
  · rw [above, above_eq after (List.mem_append_left _ listed)]
  · exact after.world_of_badge ((tried_badges h store directory e level).kept.subset badge)
  · rw [previous?, previous?, tried_rest h store directory e]

theorem tried_above (store : Store) (sound : directory.Sound) (traces : Traces h log) (e : Entity)
    (narrow : (h.tried store directory e).Narrow) {x : Entity} (new : x ∈ h.joining store directory e) :
    (h.tried store directory e).above? x = parentOf? store directory x := by
  have grown := tried_traces store sound traces e
  rw [landed_eq sound traces e narrow] at grown
  exact above_eq grown (List.mem_append_right _ ((mem_grafts_iff h store directory e _).mpr ⟨new, rfl⟩))

theorem tried_world (store : Store) (sound : directory.Sound) (traces : Traces h log) (e : Entity)
    {x : Entity} (new : x ∈ h.joining store directory e) : (h.tried store directory e).world? x = none := by
  have member := (tried_contains store sound traces e x).mpr (Or.inr new)
  obtain ⟨depth, badge⟩ := (tried_traces store sound traces e).badge_of_member member
  obtain old | ⟨_, fresh⟩ := (tried_badges h store directory e depth).added _ badge
  · obtain ⟨node, inside, same⟩ := List.mem_map.mp old
    have named : node.entity = x := congrArg Prod.fst same
    have peer : node.entity ∈ log.peers depth := traces.entities depth ▸ List.mem_map_of_mem inside
    have before := (traces.contains_iff x).mpr (named ▸ Lineage.member_of_peer peer)
    rw [(joining_fit sound new).1] at before
    contradiction
  · exact fresh

end Tried

section Flush

theorem flush_unmoved (store : Store) (sound : directory.Sound) (traces : Traces h log) (es : List Entity)
    {x : Entity} (member : h.contains x = true) : Unmoved h (flush store directory h es) x := by
  induction es generalizing h log with
  | nil => exact unmoved_refl h x
  | cons e rest ih =>
      have still := (tried_contains store sound traces e x).mpr (Or.inl member)
      exact unmoved_trans (tried_unmoved store sound traces e member)
        (ih (tried_traces store sound traces e) still)

theorem flush_world (store : Store) (sound : directory.Sound) (traces : Traces h log) (es : List Entity)
    {x : Entity} (stranger : h.contains x = false)
    (member : (flush store directory h es).contains x = true) :
    (flush store directory h es).world? x = none := by
  induction es generalizing h log with
  | nil =>
      have member : h.contains x = true := member
      rw [stranger] at member
      contradiction
  | cons e rest ih =>
      have after := tried_traces store sound traces e
      by_cases joined : (h.tried store directory e).contains x = true
      · obtain old | new := (tried_contains store sound traces e x).mp joined
        · rw [stranger] at old
          contradiction
        · exact (flush_unmoved store sound after rest joined).world.trans (tried_world store sound traces e new)
      · exact ih after (Bool.eq_false_iff.mpr joined) member

theorem flush_order (store : Store) (directory : Directory) (h : Tree) (es : List Entity) (depth : Nat) :
    ((h.level depth).map Node.entity).Sublist (((flush store directory h es).level depth).map Node.entity) := by
  induction es generalizing h with
  | nil => exact List.Sublist.refl _
  | cons e rest ih =>
      exact (tried_order h store directory e depth).trans (ih _)

-- Nobody dead is inserted, so what holds of the members and of the living holds of all that are members then.
theorem flush_members (store : Store) (sound : directory.Sound) (traces : Traces h log) (es : List Entity)
    {known : Entity → Prop} (old : ∀ x, h.contains x = true → known x)
    (living : ∀ x, directory.isAlive x = true → known x) (x : Entity)
    (member : (flush store directory h es).contains x = true) : known x := by
  induction es generalizing h log with
  | nil => exact old x member
  | cons e rest ih =>
      refine ih (tried_traces store sound traces e) (fun y inside => ?_) member
      exact ((tried_contains store sound traces e y).mp inside).elim (old y) fun new =>
        living y (joining_fit sound new).2.1

end Flush

end Tree

end EntityStore
