import EntityStore.Proofs.Hierarchy.Climb

set_option autoImplicit false

namespace EntityStore.Tree

variable {h : Tree} {log : Lineage}

section Prune

open Lineage
open Hierarchy (Pruned forget)

variable (directory : Directory)

theorem prune_level_places (newParent : Nat → Option Nat) (depth position : Nat) (p : Pruned) (nodes : List Node) :
    (pruneLevel directory newParent depth position p nodes).1.map Node.place =
      renumber newParent directory.isAlive (nodes.map Node.place) := by
  induction nodes generalizing position p with
  | nil => rfl
  | cons node rest ih =>
      rw [pruneLevel, List.map_cons, renumber, List.filterMap_cons, renumberOne, ← renumber]
      cases named : newParent node.parent with
      | none => simp [Node.place, named, ih]
      | some parent => cases alive : directory.isAlive node.entity <;> simp [Node.place, named, alive, ih]

theorem prune_level_ranks (newParent : Nat → Option Nat) (depth position : Nat) (p : Pruned) (nodes : List Node) :
    (pruneLevel directory newParent depth position p nodes).2.1 =
      ranks (fun place : Nat × Entity => (newParent place.1).isSome && directory.isAlive place.2) position
        (nodes.map Node.place) := by
  induction nodes generalizing position p with
  | nil => rfl
  | cons node rest ih =>
      rw [pruneLevel, List.map_cons, ranks]
      cases named : newParent node.parent with
      | none => simp [Node.place, named, ih]
      | some parent => cases alive : directory.isAlive node.entity <;> simp [Node.place, named, alive, ih]

theorem prune_level_badges (newParent : Nat → Option Nat) (depth position : Nat) (p : Pruned)
    (nodes : List Node) : ((pruneLevel directory newParent depth position p nodes).1.map Node.badge).Sublist
      (nodes.map Node.badge) := by
  induction nodes generalizing position p with
  | nil => exact List.Sublist.refl _
  | cons node rest ih =>
      rw [pruneLevel]
      cases newParent node.parent with
      | none => exact (ih _ _).cons _
      | some parent =>
          by_cases alive : directory.isAlive node.entity = true
          · simp only [if_pos alive]
            exact (ih _ _).cons_cons _
          · simp only [if_neg alive]
            exact (ih _ _).cons _

theorem prune_level_sublist (newParent : Nat → Option Nat) (depth position : Nat) (p : Pruned)
    (nodes : List Node) : ((pruneLevel directory newParent depth position p nodes).1.map Node.entity).Sublist
      (nodes.map Node.entity) := by
  rw [← entities_of_badges, ← entities_of_badges]
  exact (prune_level_badges directory newParent depth position p nodes).map Prod.fst

theorem prune_level_slots (newParent : Nat → Option Nat) (depth position : Nat) (p : Pruned) (nodes : List Node)
    (distinct : (nodes.map Node.entity).Nodup) (x : Entity) :
    (pruneLevel directory newParent depth position p nodes).2.2.slots.find? x =
      if x ∈ nodes.map Node.entity then
        (((pruneLevel directory newParent depth position p nodes).1.map Node.entity).idxOf? x).map
          fun i => (depth, position + i)
      else p.slots.find? x := by
  induction nodes generalizing position p with
  | nil => rfl
  | cons node rest ih =>
      obtain ⟨other, distinct⟩ := List.nodup_cons.mp distinct
      have gone (position : Nat) (p : Pruned) : node.entity ∉
          (pruneLevel directory newParent depth position p rest).1.map Node.entity := fun member =>
        other ((prune_level_sublist directory newParent depth position p rest).subset member)
      have dropped :
          (pruneLevel directory newParent depth position (forget node.entity p) rest).2.2.slots.find? x =
          if x ∈ (node :: rest).map Node.entity then
            (((pruneLevel directory newParent depth position (forget node.entity p) rest).1.map
              Node.entity).idxOf? x).map fun i => (depth, position + i)
          else p.slots.find? x := by
        rw [ih _ _ distinct, List.map_cons]
        by_cases own : x = node.entity
        · subst own
          rw [if_neg other, if_pos List.mem_cons_self, List.idxOf?_eq_none_iff.mpr (gone position _), forget,
            Table.find?_erase, if_pos rfl]
          rfl
        · simp [own, forget, Table.find?_erase, Ne.symm own]
      rw [pruneLevel]
      cases newParent node.parent with
      | none => exact dropped
      | some parent =>
          by_cases alive : directory.isAlive node.entity = true
          · simp only [if_pos alive]
            rw [ih _ _ distinct, List.map_cons, List.map_cons, List.idxOf?_cons, Table.find?_insert]
            by_cases own : node.entity = x
            · subst own
              rw [if_neg other, if_pos rfl, if_pos List.mem_cons_self, if_pos (beq_self_eq_true _)]
              rfl
            · have behind (i : Nat) : position + 1 + i = position + (i + 1) := by omega
              simp [own, Ne.symm own, Function.comp_def, behind]
          · simp only [if_neg alive]
            exact dropped

theorem prune_levels_places (grown : log.Grown) (newParent : Nat → Option Nat) (depth : Nat) (p : Pruned)
    (levels : List (List Node)) (places : ∀ i, (levels.getD i []).map Node.place = log.generation (depth + i))
    (numbers : Numbers directory.isAlive log depth newParent) (i : Nat) :
    ((pruneLevels directory newParent depth p levels).1.getD i []).map Node.place =
      (log.pruned directory.isAlive).generation (depth + i) := by
  induction levels generalizing newParent depth p i with
  | nil => exact (generation_pruned_nil directory.isAlive grown _ (places i).symm).symm
  | cons nodes rest ih =>
      have first : nodes.map Node.place = log.generation depth := places 0
      have ranked : (pruneLevel directory newParent depth 0 p nodes).2.1 =
          ranks (log.stays directory.isAlive) 0 (log.peers depth) := by
        rw [prune_level_ranks, first, ranks_congr _ _ 0 _ numbers.kept, peers, ranks_map]
      rw [pruneLevels]
      cases i with
      | zero =>
          exact (prune_level_places directory newParent depth 0 p nodes).trans (first ▸ numbers.renumbered)
      | succ i =>
          have below (i : Nat) : (rest.getD i []).map Node.place = log.generation (depth + 1 + i) := by
            rw [Nat.add_assoc, Nat.add_comm 1]
            exact places (i + 1)
          have final := ih _ (depth + 1) (pruneLevel directory newParent depth 0 p nodes).2.2 below
            (numbers_succ directory.isAlive grown depth) i
          rw [← ranked, Nat.add_assoc, Nat.add_comm 1] at final
          exact final

structure Settles (depth : Nat) (p next : Pruned) (met : List Entity) (final : List (List Node)) : Prop where
  others : ∀ x, x ∉ met → next.slots.find? x = p.slots.find? x
  right : ∀ x ∈ met, ∀ d position, next.slots.find? x = some (d, position) →
    ∃ i, d = depth + i ∧ ((final.getD i []).map Node.entity)[position]? = some x
  total : ∀ x ∈ final.flatten.map Node.entity, x ∈ met ∧ next.slots.find? x ≠ none

theorem prune_levels_slots (newParent : Nat → Option Nat) (depth : Nat) (p : Pruned) (levels : List (List Node))
    (distinct : (levels.flatten.map Node.entity).Nodup) :
    Settles depth p (pruneLevels directory newParent depth p levels).2 (levels.flatten.map Node.entity)
      (pruneLevels directory newParent depth p levels).1 := by
  induction levels generalizing newParent depth p with
  | nil => exact ⟨fun _ _ => rfl, fun _ member => by contradiction, fun _ member => by contradiction⟩
  | cons nodes rest ih =>
      rw [List.flatten_cons, List.map_append] at distinct ⊢
      obtain ⟨here, there, apart⟩ := List.nodup_append.mp distinct
      have slots := prune_level_slots directory newParent depth 0 p nodes here
      have kept := prune_level_sublist directory newParent depth 0 p nodes
      rw [pruneLevels]
      generalize pruneLevel directory newParent depth 0 p nodes = first at slots kept ⊢
      have settles := ih (fun i => first.2.1.getD i none) (depth + 1) first.2.2 there
      refine ⟨fun x other => ?_, fun x member d position slot => ?_, fun x member => ?_⟩
      · rw [List.mem_append, not_or] at other
        rw [settles.others x other.2, slots, if_neg other.1]
      · by_cases later : x ∈ rest.flatten.map Node.entity
        · obtain ⟨i, deep, found⟩ := settles.right x later d position slot
          exact ⟨i + 1, by omega, found⟩
        · have own := (List.mem_append.mp member).resolve_right later
          rw [settles.others x later, slots, if_pos own] at slot
          obtain ⟨i, found, same⟩ := Option.map_eq_some_iff.mp slot
          obtain ⟨rfl, rfl⟩ := Prod.mk.inj same
          obtain ⟨bound, here, _⟩ := List.idxOf?_eq_some_iff.mp found
          rw [Nat.zero_add]
          exact ⟨0, rfl, (List.getElem?_eq_getElem bound).trans (congrArg some here)⟩
      · rw [List.flatten_cons, List.map_append, List.mem_append] at member
        cases member with
        | inl own =>
            have old := kept.subset own
            have later : x ∉ rest.flatten.map Node.entity := fun later => apart x old x later rfl
            refine ⟨List.mem_append_left _ old, ?_⟩
            rw [settles.others x later, slots, if_pos old, ne_eq, Option.map_eq_none_iff,
              List.idxOf?_eq_none_iff, not_not]
            exact own
        | inr later => exact ⟨List.mem_append_right _ (settles.total x later).1, (settles.total x later).2⟩

theorem trim_eq (levels : List (List Node)) (depth : Nat) : (trim levels).getD depth [] = levels.getD depth [] := by
  induction levels generalizing depth with
  | nil => rfl
  | cons level rest ih =>
      rw [trim]
      cases trimmed : trim rest with
      | nil =>
          rw [trimmed] at ih
          cases level with
          | nil =>
              cases depth with
              | zero => rfl
              | succ depth => exact ih depth
          | cons node others =>
              cases depth with
              | zero => rfl
              | succ depth => exact ih depth
      | cons kept others =>
          rw [trimmed] at ih
          cases depth with
          | zero => rfl
          | succ depth => exact ih depth

-- If all levels below an empty level are empty, no empty level is left.
theorem trim_filled (levels : List (List Node))
    (closed : ∀ depth, levels.getD depth [] = [] → levels.getD (depth + 1) [] = []) :
    ∀ level ∈ trim levels, level ≠ [] := by
  induction levels with
  | nil => exact fun _ member => by contradiction
  | cons level rest ih =>
      have filled := ih fun depth => closed (depth + 1)
      rw [trim]
      cases trimmed : trim rest with
      | nil =>
          cases level with
          | nil => exact fun _ member => by contradiction
          | cons node others =>
              exact fun kept member => List.mem_singleton.mp member ▸ List.cons_ne_nil node others
      | cons kept others =>
          rw [trimmed] at filled
          refine List.forall_mem_cons.mpr ⟨?_, filled⟩
          rintro rfl
          have gone : rest.getD 0 [] = [] := closed 0 rfl
          rw [← trim_eq, trimmed] at gone
          exact filled kept List.mem_cons_self gone

theorem mem_flatten_of_level {levels : List (List Node)} {depth : Nat} {node : Node}
    (member : node ∈ levels.getD depth []) : node ∈ levels.flatten := by
  rw [List.getD_eq_getElem?_getD] at member
  cases found : levels[depth]? with
  | none =>
      rw [found] at member
      contradiction
  | some nodes =>
      rw [found] at member
      exact List.mem_flatten.mpr ⟨nodes, List.mem_of_getElem? found, member⟩

theorem Traces.nodup_flatten (traces : Traces h log) : (h.levels.flatten.map Node.entity).Nodup := by
  have peers (depth : Nat) (bound : depth < h.levels.length) :
      h.levels[depth].map Node.entity = log.peers depth := by
    rw [← traces.entities, level, List.getD_eq_getElem?_getD, List.getElem?_eq_getElem bound, Option.getD_some]
  rw [List.map_flatten, List.nodup_flatten]
  constructor
  · intro entities member
    obtain ⟨depth, bound, rfl⟩ := List.getElem_of_mem member
    rw [List.length_map] at bound
    rw [List.getElem_map, peers depth bound]
    exact traces.grown.nodup_peers depth
  · refine List.pairwise_iff_getElem.mpr fun i j first second less => ?_
    rw [List.length_map] at first second
    rw [List.getElem_map, List.getElem_map, peers i first, peers j second]
    intro e one other
    have same := traces.grown.depth_unique one other
    omega

theorem prune_traces (traces : Traces h log) :
    Traces (h.prune directory) (log.pruned directory.isAlive) := by
  have places := prune_levels_places directory traces.grown (fun _ => some 0) 0
    ⟨h.slots, h.previous⟩ h.levels (fun i => (traces.levels i).trans (by rw [Nat.zero_add]))
    (numbers_zero directory.isAlive traces.grown)
  have settles := prune_levels_slots directory (fun _ => some 0) 0 ⟨h.slots, h.previous⟩
    h.levels traces.nodup_flatten
  let final := pruneLevels directory (fun _ => some 0) 0 ⟨h.slots, h.previous⟩ h.levels
  have entities (depth : Nat) :
      (final.1.getD depth []).map Node.entity = (log.pruned directory.isAlive).peers depth := by
    rw [peers, ← Nat.zero_add depth, ← places, List.map_map, Nat.zero_add]
    rfl
  refine Traces.of_slots (grown_pruned directory.isAlive traces.grown) (fun depth => ?_)
    (fun x depth position slot => ?_) (fun x member => ?_) (trim_filled final.1 fun depth nobody => ?_)
  · rw [level, prune, trim_eq, places, Nat.zero_add]
  · by_cases met : x ∈ h.levels.flatten.map Node.entity
    · obtain ⟨i, rfl, found⟩ := settles.right x met depth position slot
      rw [Nat.zero_add, ← entities]
      exact found
    · have old := (traces.slots x depth position).mp ((settles.others x met).symm.trans slot)
      rw [← traces.entities] at old
      obtain ⟨node, inside, rfl⟩ := List.mem_map.mp (List.mem_of_getElem? old)
      exact absurd (List.mem_map_of_mem (mem_flatten_of_level inside)) met
  · obtain ⟨depth, peer⟩ := (grown_pruned directory.isAlive traces.grown).exists_depth member
    rw [← entities] at peer
    obtain ⟨node, inside, rfl⟩ := List.mem_map.mp peer
    exact (settles.total node.entity (List.mem_map_of_mem (mem_flatten_of_level inside))).2
  · have above := entities depth
    rw [nobody] at above
    have below := places (depth + 1)
    rw [Nat.zero_add, generation_succ, ← above] at below
    exact List.map_eq_nil_iff.mp below

end Prune

section EndFrame

variable {directory : Directory}

theorem flush_length (store : Store) (h : Tree) (pending : List Entity) (depth : Nat) :
    (h.level depth).length ≤ ((flush store directory h pending).level depth).length := by
  induction pending generalizing h with
  | nil => exact Nat.le_refl _
  | cons e rest ih => exact (tried_length h store directory e depth).trans (ih _)

def flushed (store : Store) (directory : Directory) : Tree → Lineage → List Entity → Lineage
  | _, log, [] => log
  | h, log, e :: rest =>
    flushed store directory (h.tried store directory e) (log ++ h.grafts store directory e) rest

theorem flush_traced (store : Store) (sound : directory.Sound) (traces : Traces h log)
    (pending : List Entity) : ∃ more, Traces (flush store directory h pending) (log ++ more) := by
  induction pending generalizing h log with
  | nil => exact ⟨[], (List.append_nil log).symm ▸ traces⟩
  | cons e rest ih =>
      obtain ⟨more, final⟩ := ih (tried_traces store sound traces e)
      exact ⟨h.landed store directory e ++ more, List.append_assoc log _ more ▸ final⟩

theorem flush_traces (store : Store) (sound : directory.Sound) (traces : Traces h log)
    (pending : List Entity) (narrow : (flush store directory h pending).Narrow) :
    Traces (flush store directory h pending) (flushed store directory h log pending) := by
  induction pending generalizing h log with
  | nil => exact traces
  | cons e rest ih =>
      have fits : (h.tried store directory e).Narrow := fun depth =>
        Nat.lt_of_le_of_lt (flush_length store _ rest depth) (narrow depth)
      have step := tried_traces store sound traces e
      rw [landed_eq sound traces e fits] at step
      exact ih step narrow

def closed (store : Store) (directory : Directory) (h : Tree) (log : Lineage) : Lineage :=
  flushed store directory { h.prune directory with pending := [] } (log.pruned directory.isAlive) h.pending

variable (directory) in
theorem cleared_traces (traces : Traces h log) :
    Traces { h.prune directory with pending := [] } (log.pruned directory.isAlive) :=
  have pruned := prune_traces directory traces
  ⟨pruned.grown, pruned.levels, pruned.slots, pruned.filled⟩

end EndFrame

end EntityStore.Tree
