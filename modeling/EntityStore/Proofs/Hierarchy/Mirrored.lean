import EntityStore.Hierarchy
import EntityStore.Proofs.Store.Mirrors

set_option autoImplicit false

namespace EntityStore.Hierarchy

open Checked

variable {registry : Registry} {R : Store → Store → Prop} (mirrors : Store.Mirrors registry R)

section Insertion

variable {store other : Store} (related : R store other) (directory : Directory)

include mirrors related

theorem parent_of_mirrored (e : Entity) : parentOf other directory e = parentOf store directory e := by
  unfold parentOf
  simp only [Store.block_mirrored mirrors related]

theorem has_transform_mirrored (e : Entity) : hasTransform other directory e = hasTransform store directory e := by
  simp only [hasTransform, Store.block_mirrored mirrors related]

theorem climb_mirrored (h : Hierarchy) (unvisited path : List Entity) (current : Entity) :
    h.climb other directory unvisited path current = h.climb store directory unvisited path current := by
  have same := parent_of_mirrored mirrors related directory
  induction unvisited, path, current using climb.induct h store directory with
  | case1 unvisited path current fault stopped => rw [climb, climb, same, stopped]
  | case2 unvisited path current orphan => rw [climb, climb, same, orphan]
  | case3 unvisited path current parent named alive unmet member =>
      rw [climb, climb, same, named]
      simp only [if_pos alive, dif_pos unmet, if_pos member]
  | case4 unvisited path current parent named alive unmet stranger ih =>
      rw [climb, climb, same, named]
      simp only [if_pos alive, dif_pos unmet, if_neg stranger, ih]
  | case5 unvisited path current parent named alive met =>
      rw [climb, climb, same, named]
      simp only [if_pos alive, dif_neg met]
  | case6 unvisited path current parent named dead =>
      rw [climb, climb, same, named]
      simp only [if_neg dead]

theorem insert_path_mirrored (h : Hierarchy) (path : List Entity) :
    h.insertPath other directory path = h.insertPath store directory path := by
  induction path with
  | nil => rfl
  | cons e rest ih => rw [insertPath, ih, parent_of_mirrored mirrors related, insertPath]

theorem insert_mirrored (h : Hierarchy) (e : Entity) :
    h.insert other directory e = h.insert store directory e := by
  simp only [insert, climb_mirrored mirrors related, has_transform_mirrored mirrors related,
    insert_path_mirrored mirrors related]

theorem flush_mirrored (h : Hierarchy) (pending : List Entity) :
    flush other directory h pending = flush store directory h pending := by
  induction pending generalizing h with
  | nil => rfl
  | cons e rest ih => simp only [flush, insert_mirrored mirrors related, ih]

theorem end_frame_mirrored (h : Hierarchy) : h.endFrame other directory = h.endFrame store directory := by
  simp only [endFrame, flush_mirrored mirrors related]

end Insertion

section Update

inductive Abreast {α : Type} (R : Store → Store → Prop) : α × Pass → α × Pass → Prop where
  | both (worlds : α) {store other : Store} (related : R store other) (previous : Table UInt32 (Entity × Mat4)) :
      Abreast R (worlds, ⟨store, previous⟩) (worlds, ⟨other, previous⟩)

variable {store other : Store} (related : R store other) (directory : Directory)
  (previous : Table UInt32 (Entity × Mat4))

include mirrors related

theorem update_member_mirrored (hangs : Bool) (parentWorld : Mat4) (e : Entity) (world : Option Mat4) :
    Alongside (Abreast R) (updateMember directory hangs parentWorld ⟨store, previous⟩ e world)
      (updateMember directory hangs parentWorld ⟨other, previous⟩ e world) := by
  unfold updateMember
  cases directory.locate? e with
  | none => exact .ok (.both _ related _)
  | some spot =>
      simp only [Store.block_mirrored mirrors related]
      cases store.block? spot.1 with
      | none => exact .ok (.both _ related _)
      | some block =>
          refine alongside_bind_same _ fun own => alongside_bind_same _ fun written => ?_
          cases written with
          | none => exact .ok (.both _ related _)
          | some block => exact .ok (.both _ (mirrors.put _ _ related) _)

theorem update_worlds_mirrored (parents : Option (List (Option Mat4))) (entries : List Entry)
    (worlds : List (Option Mat4)) :
    Alongside (Abreast R) (updateWorlds directory parents ⟨store, previous⟩ entries worlds)
      (updateWorlds directory parents ⟨other, previous⟩ entries worlds) := by
  induction entries generalizing store other previous worlds with
  | nil => exact .ok (.both _ related _)
  | cons entry entries ih =>
      cases worlds with
      | nil => exact .ok (.both _ related _)
      | cons world worlds =>
          refine alongside_bind (update_member_mirrored mirrors related directory previous _ _ _ _) fun _ _ updated => ?_
          obtain ⟨world, related, previous⟩ := updated
          refine alongside_bind (ih related previous worlds) fun _ _ others => ?_
          obtain ⟨worlds, related, previous⟩ := others
          exact .ok (.both _ related _)

theorem update_levels_mirrored (parents : Option (List (Option Mat4))) (levels : List Level) :
    Alongside (Abreast R) (updateLevels directory parents ⟨store, previous⟩ levels)
      (updateLevels directory parents ⟨other, previous⟩ levels) := by
  induction levels generalizing store other previous parents with
  | nil => exact .ok (.both _ related _)
  | cons level rest ih =>
      refine alongside_bind (update_worlds_mirrored mirrors related directory previous _ _ _) fun _ _ updated => ?_
      obtain ⟨worlds, related, previous⟩ := updated
      refine alongside_bind (ih related previous (some worlds)) fun _ _ others => ?_
      obtain ⟨levels, related, previous⟩ := others
      exact .ok (.both _ related _)

theorem update_mirrored (h : Hierarchy) :
    Alongside (Store.Abreast R) (h.update directory store) (h.update directory other) := by
  refine alongside_bind (update_levels_mirrored mirrors related directory h.previous none h.levels) fun _ _ updated => ?_
  obtain ⟨levels, related, previous⟩ := updated
  exact .ok (.both _ related)

end Update

end EntityStore.Hierarchy
