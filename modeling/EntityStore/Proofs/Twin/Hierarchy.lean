import EntityStore.Hierarchy
import EntityStore.Proofs.Twin.Directory

set_option autoImplicit false

namespace EntityStore.Hierarchy

variable {d other : Directory} (twin : d.Twin other) (store : Store)

include twin

theorem parent_of_twin (e : Entity) : parentOf store other e = parentOf store d e := by
  rw [parentOf, twin.locate_spot, parentOf]

theorem has_transform_twin (e : Entity) : hasTransform store other e = hasTransform store d e := by
  rw [hasTransform, twin.locate_spot, hasTransform]

section Insertion

theorem climb_twin (h : Hierarchy) (unvisited path : List Entity) (current : Entity) :
    h.climb store other unvisited path current = h.climb store d unvisited path current := by
  have same := parent_of_twin twin store
  induction unvisited, path, current using climb.induct h store d with
  | case1 unvisited path current fault stopped => rw [climb, climb, same, stopped]
  | case2 unvisited path current orphan => rw [climb, climb, same, orphan]
  | case3 unvisited path current parent named alive unmet member =>
      rw [climb, climb, same, named]
      simp only [twin.is_alive, if_pos alive, dif_pos unmet, if_pos member]
  | case4 unvisited path current parent named alive unmet stranger ih =>
      rw [climb, climb, same, named]
      simp only [twin.is_alive, if_pos alive, dif_pos unmet, if_neg stranger, ih]
  | case5 unvisited path current parent named alive met =>
      rw [climb, climb, same, named]
      simp only [twin.is_alive, if_pos alive, dif_neg met]
  | case6 unvisited path current parent named dead =>
      rw [climb, climb, same, named]
      simp only [twin.is_alive, if_neg dead]

theorem insert_path_twin (h : Hierarchy) (path : List Entity) :
    h.insertPath store other path = h.insertPath store d path := by
  induction path with
  | nil => rfl
  | cons e rest ih => rw [insertPath, ih, parent_of_twin twin, insertPath]

theorem insert_twin (h : Hierarchy) (e : Entity) : h.insert store other e = h.insert store d e := by
  simp only [insert, twin.is_alive, twin.handles, climb_twin twin, has_transform_twin twin, insert_path_twin twin]

theorem flush_twin (h : Hierarchy) (pending : List Entity) :
    flush store other h pending = flush store d h pending := by
  induction pending generalizing h with
  | nil => rfl
  | cons e rest ih => simp only [flush, insert_twin twin, ih]

end Insertion

section Pruning

omit store

theorem prune_entry_twin (depth : Nat) (parents : Renumbering) :
    pruneEntry other depth parents = pruneEntry d depth parents := by
  funext sieve read
  simp only [pruneEntry, twin.is_alive]

theorem prune_levels_twin (depth : Nat) (parents : Renumbering) (p : Pruned) (levels : List Level) :
    pruneLevels other depth parents p levels = pruneLevels d depth parents p levels := by
  induction levels generalizing depth parents p with
  | nil => rfl
  | cons level rest ih => simp only [pruneLevels, pruneLevel, prune_entry_twin twin, ih]

theorem prune_twin (h : Hierarchy) : h.prune other = h.prune d := by
  simp only [prune, prune_levels_twin twin]

end Pruning

theorem end_frame_twin (h : Hierarchy) : h.endFrame store other = h.endFrame store d := by
  simp only [endFrame, prune_twin twin, flush_twin twin]

section Update

omit store

theorem update_member_twin (hangs : Bool) (parentWorld : Mat4) (pass : Pass) (e : Entity) (world : Option Mat4) :
    updateMember other hangs parentWorld pass e world = updateMember d hangs parentWorld pass e world := by
  unfold updateMember
  rw [twin.locate_spot]

theorem update_worlds_twin (parents : Option (List (Option Mat4))) (pass : Pass) (entries : List Entry)
    (worlds : List (Option Mat4)) :
    updateWorlds other parents pass entries worlds = updateWorlds d parents pass entries worlds := by
  induction entries generalizing pass worlds with
  | nil => rfl
  | cons entry entries ih =>
      cases worlds with
      | nil => rfl
      | cons world worlds => simp only [updateWorlds, update_member_twin twin, ih]

theorem update_levels_twin (parents : Option (List (Option Mat4))) (pass : Pass) (levels : List Level) :
    updateLevels other parents pass levels = updateLevels d parents pass levels := by
  induction levels generalizing parents pass with
  | nil => rfl
  | cons level rest ih => simp only [updateLevels, update_worlds_twin twin, ih]

theorem update_twin (h : Hierarchy) (store : Store) : h.update other store = h.update d store := by
  rw [update, update_levels_twin twin, update]

end Update

end EntityStore.Hierarchy
