import EntityStore.Proofs.Scene.Handles
import EntityStore.Proofs.Scene.Order

set_option autoImplicit false

namespace EntityStore

namespace Hierarchy

variable {directory : Directory} {e : Entity}

def remembered (previous : Table UInt32 (Entity × Mat4)) (e : Entity) : Option Mat4 :=
  ((previous.find? e.index).filter fun (owner, _) => owner = e).map Prod.snd

theorem remembered_insert (previous : Table UInt32 (Entity × Mat4)) (owner e : Entity) (old : Mat4) :
    remembered (previous.insert owner.index (owner, old)) e =
      if owner.index = e.index then if owner = e then some old else none else remembered previous e := by
  rw [remembered, Table.find?_insert]
  by_cases shared : owner.index = e.index
  · rw [if_pos shared, if_pos shared]
    by_cases own : owner = e <;> simp [Option.filter, own]
  · rw [if_neg shared, if_neg shared, remembered]

theorem archived_own (previous : Table UInt32 (Entity × Mat4)) (node : Node)
    (alive : directory.isAlive node.entity = true) :
    remembered (archived directory previous node) node.entity =
      node.world.or (remembered previous node.entity) := by
  rw [archived, if_pos alive]
  cases node.world with
  | none => rfl
  | some old =>
      show remembered (previous.insert node.entity.index (node.entity, old)) node.entity = some old
      rw [remembered_insert, if_pos rfl, if_pos rfl]

theorem archived_apart (previous : Table UInt32 (Entity × Mat4)) (node : Node)
    (apart : directory.isAlive node.entity = true → node.entity.index ≠ e.index) :
    remembered (archived directory previous node) e = remembered previous e := by
  rw [archived]
  by_cases alive : directory.isAlive node.entity = true
  · rw [if_pos alive]
    cases node.world with
    | none => rfl
    | some old =>
        show remembered (previous.insert node.entity.index (node.entity, old)) e = remembered previous e
        rw [remembered_insert, if_neg (apart alive)]
  · rw [if_neg alive]

theorem archived_unknown (previous : Table UInt32 (Entity × Mat4)) (node : Node) (other : e ≠ node.entity)
    (unknown : remembered previous e = none) : remembered (archived directory previous node) e = none := by
  rw [archived]
  by_cases alive : directory.isAlive node.entity = true
  · rw [if_pos alive]
    cases node.world with
    | none => exact unknown
    | some old =>
        show remembered (previous.insert node.entity.index (node.entity, old)) e = none
        rw [remembered_insert, if_neg (Ne.symm other), unknown, ite_self]
  · rw [if_neg alive]
    exact unknown

theorem archive_apart (previous : Table UInt32 (Entity × Mat4)) (nodes : List Node)
    (apart : ∀ node ∈ nodes, directory.isAlive node.entity = true → node.entity.index ≠ e.index) :
    remembered (nodes.foldl (archived directory) previous) e = remembered previous e := by
  induction nodes generalizing previous with
  | nil => rfl
  | cons node rest ih =>
      rw [List.forall_mem_cons] at apart
      rw [List.foldl_cons, ih _ apart.2, archived_apart previous node apart.1]

theorem archive_unknown (previous : Table UInt32 (Entity × Mat4)) (nodes : List Node)
    (stranger : e ∉ nodes.map Node.entity) (unknown : remembered previous e = none) :
    remembered (nodes.foldl (archived directory) previous) e = none := by
  induction nodes generalizing previous with
  | nil => exact unknown
  | cons node rest ih =>
      rw [List.map_cons, List.mem_cons, not_or] at stranger
      exact ih _ stranger.2 (archived_unknown previous node stranger.1 unknown)

-- The living have different indices, so no other node of the pass takes the entry away.
theorem archive_own (previous : Table UInt32 (Entity × Mat4)) (nodes : List Node)
    (distinct : (nodes.map Node.entity).Nodup)
    (single : ∀ x y, directory.isAlive x = true → directory.isAlive y = true → x.index = y.index → x = y)
    (node : Node) (member : node ∈ nodes) (alive : directory.isAlive node.entity = true) :
    remembered (nodes.foldl (archived directory) previous) node.entity =
      node.world.or (remembered previous node.entity) := by
  have apart (other : Node) (differs : other.entity ≠ node.entity)
      (living : directory.isAlive other.entity = true) : other.entity.index ≠ node.entity.index :=
    fun shared => differs (single _ _ living alive shared)
  induction nodes generalizing previous with
  | nil => contradiction
  | cons first rest ih =>
      obtain ⟨fresh, distinct⟩ := List.nodup_cons.mp distinct
      rw [List.foldl_cons]
      cases List.mem_cons.mp member with
      | inl here =>
          rw [archive_apart, ← here, archived_own previous node alive]
          intro other inside
          refine apart other fun same => fresh ?_
          rw [← here, ← same]
          exact List.mem_map_of_mem inside
      | inr later =>
          rw [ih _ distinct later, archived_apart previous first]
          exact apart first fun same => fresh (same ▸ List.mem_map_of_mem later)

end Hierarchy

namespace Scene

open Checked Hierarchy

variable {s next : Scene}

structure Archives (s next : Scene) : Prop where
  computed : ∀ e, s.hierarchy.contains e = true → ∃ matrix, next.hierarchy.world? e = some matrix
  trailing : ∀ e, s.hierarchy.contains e = true → s.isAlive e = true →
    next.hierarchy.previous? e = (s.hierarchy.world? e).or (s.hierarchy.previous? e)
  unknown : ∀ e, s.hierarchy.contains e = false → s.hierarchy.previous? e = none →
    next.hierarchy.previous? e = none

theorem refreshed_archives (sound : s.Sound) (refreshed : Refreshed s next) : Archives s next := by
  obtain ⟨log, records⟩ := sound.hierarchy
  have traces := records.traces
  have archive := refreshed.previous
  refine ⟨fun e member => ?_, fun e member alive => ?_, fun e stranger unknown => ?_⟩
  · obtain ⟨path, line⟩ := traces.grown.exists_line ((traces.contains_iff e).mp member)
    exact ⟨_, (refreshed_world records refreshed).1 path e line⟩
  · obtain ⟨depth, badge⟩ := traces.badge_of_member member
    obtain ⟨node, inside, same⟩ := List.mem_map.mp badge
    obtain ⟨rfl, world⟩ := Prod.mk.inj same
    have own := archive_own s.hierarchy.previous s.hierarchy.tree.levels.flatten traces.nodup_flatten
      (fun x y => live_handle_unique (s := s)) node (Tree.mem_flatten_of_level inside) alive
    rw [← archive, world, world_tree records.aligned] at own
    exact own
  · have outside : e ∉ s.hierarchy.tree.levels.flatten.map Node.entity := fun inside => by
      have member : s.hierarchy.contains e = true := (traces.mem_flatten_iff e).mp inside
      rw [member] at stranger
      contradiction
    have still : remembered (s.hierarchy.tree.levels.flatten.foldl (archived s.directory) s.hierarchy.previous) e =
        none := archive_unknown s.hierarchy.previous _ outside unknown
    rw [← archive] at still
    exact still

end Scene

end EntityStore
