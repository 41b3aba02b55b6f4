import EntityStore.Proofs.Hierarchy.Unmoved
import Mathlib.Logic.Relation

set_option autoImplicit false

namespace EntityStore

namespace Lineage

variable {log : Lineage} {alive : Entity → Bool} {e : Entity}

theorem stays_ancestor (grown : Grown log) (stayed : log.stays alive e = true) {x : Entity}
    (above : Relation.ReflTransGen (fun child parent => (child, some parent) ∈ log) e x) :
    log.stays alive x = true := by
  induction above with
  | refl => exact stayed
  | tail above hangs ih =>
      rw [stays_child grown hangs, Bool.and_eq_true] at ih
      exact ih.1

theorem alive_of_stays (grown : Grown log) (stayed : log.stays alive e = true) : alive e = true := by
  obtain ⟨⟨_, parent⟩, listed, rfl⟩ := List.mem_map.mp (member_of_pruned (of_decide_eq_true stayed))
  rw [stays_child grown listed, Bool.and_eq_true] at stayed
  exact stayed.2

-- The induction is on the generations, so the parent is known to stay before its children are looked at.
theorem stays_of_ancestors (grown : Grown log) {depth : Nat} (peer : e ∈ log.peers depth)
    (living : ∀ x, Relation.ReflTransGen (fun child parent => (child, some parent) ∈ log) e x →
      alive x = true) : log.stays alive e = true := by
  induction depth generalizing e with
  | zero =>
      rw [stays_child grown ((mem_peers_zero log e).mp peer), living e .refl]
      rfl
  | succ depth ih =>
      obtain ⟨parent, above, hangs⟩ := (mem_peers_succ log depth e).mp peer
      rw [stays_child grown hangs, living e .refl, Option.all_some,
        ih above fun x further => living x (.head hangs further)]
      rfl

theorem stays_iff (grown : Grown log) (e : Entity) : log.stays alive e = true ↔ e ∈ log.members ∧
    ∀ x, Relation.ReflTransGen (fun child parent => (child, some parent) ∈ log) e x → alive x = true := by
  constructor
  · intro stayed
    exact ⟨member_of_pruned (of_decide_eq_true stayed), fun x above =>
      alive_of_stays grown (stays_ancestor grown stayed above)⟩
  · rintro ⟨member, living⟩
    obtain ⟨depth, peer⟩ := grown.exists_depth member
    exact stays_of_ancestors grown peer living

end Lineage

def Hierarchy.Pruned.previous? (p : Hierarchy.Pruned) (e : Entity) : Option Mat4 :=
  ((p.previous.find? e.index).filter fun (owner, _) => owner = e).map Prod.snd

namespace Tree

open Hierarchy (Pruned forget)

variable {h : Tree} {log : Lineage} {e : Entity}

def Hangs (h : Tree) (child parent : Entity) : Prop := h.above? child = some parent

theorem hangs_iff (traces : Traces h log) (child parent : Entity) :
    h.Hangs child parent ↔ (child, some parent) ∈ log :=
  ⟨traces.entry_of_above, above_eq traces⟩

theorem mem_flatten_iff_level (levels : List (List Node)) (e : Entity) :
    e ∈ levels.flatten.map Node.entity ↔ ∃ depth, e ∈ (levels.getD depth []).map Node.entity := by
  simp only [List.mem_map]
  constructor
  · rintro ⟨node, inside, rfl⟩
    obtain ⟨nodes, listed, member⟩ := List.mem_flatten.mp inside
    obtain ⟨depth, found⟩ := List.mem_iff_getElem?.mp listed
    refine ⟨depth, node, ?_, rfl⟩
    rw [List.getD_eq_getElem?_getD, found]
    exact member
  · rintro ⟨depth, node, inside, rfl⟩
    exact ⟨node, mem_flatten_of_level inside, rfl⟩

theorem Traces.mem_flatten_iff (traces : Traces h log) (e : Entity) :
    e ∈ h.levels.flatten.map Node.entity ↔ h.contains e = true := by
  rw [mem_flatten_iff_level, traces.contains_iff]
  constructor
  · rintro ⟨depth, inside⟩
    have peer : e ∈ (h.level depth).map Node.entity := inside
    rw [traces.entities] at peer
    exact Lineage.member_of_peer peer
  · intro member
    obtain ⟨depth, peer⟩ := traces.grown.exists_depth member
    rw [← traces.entities] at peer
    exact ⟨depth, peer⟩

theorem Traces.depth_eq (traces : Traces h log) : h.depth = h.levels.length := by
  rw [depth, List.takeWhile_eq_self_iff.mpr]
  intro nodes listed
  cases nodes with
  | nil => exact absurd rfl (traces.filled [] listed)
  | cons node rest => rfl

section Previous

-- An entry is erased only if the entity itself owns it.
theorem forget_previous (e x : Entity) (p : Pruned) :
    (forget e p).previous? x = if x = e then none else p.previous? x := by
  rw [Pruned.previous?, Pruned.previous?, forget]
  simp only
  by_cases own : x = e
  · subst own
    rw [if_pos rfl]
    cases found : p.previous.find? x.index with
    | none => simp [found]
    | some entry =>
        by_cases owned : entry.1 = x
        · simp [owned, Table.find?_erase]
        · simp [owned, found]
  · rw [if_neg own]
    cases found : p.previous.find? e.index with
    | none => rfl
    | some entry =>
        by_cases owned : entry.1 = e
        · simp only [if_pos owned, Table.find?_erase]
          by_cases shared : e.index = x.index
          · rw [if_pos shared, ← shared, found]
            have other : ¬ entry.1 = x := fun same => own (same.symm.trans owned)
            simp [Option.filter, other]
          · rw [if_neg shared]
        · simp only [if_neg owned]

structure Forgets (p next : Pruned) (met kept : List Entity) : Prop where
  removed : ∀ x ∈ met, x ∉ kept → next.previous? x = none
  others : ∀ x, (x ∈ met → x ∈ kept) → next.previous? x = p.previous? x

variable {p middle next : Pruned} {met kept metLater keptLater : List Entity}

theorem forgets_kept (forgets : Forgets p next met kept) (other : e ∉ met) :
    Forgets p next (e :: met) (e :: kept) := by
  refine ⟨fun x inside gone => ?_, fun x still => ?_⟩
  · rw [List.mem_cons, not_or] at gone
    exact forgets.removed x ((List.mem_cons.mp inside).resolve_left gone.1) gone.2
  · refine forgets.others x fun inside => ?_
    have different : x ≠ e := fun same => other (same ▸ inside)
    exact (List.mem_cons.mp (still (List.mem_cons_of_mem e inside))).resolve_left different

theorem forgets_dropped (forgets : Forgets (forget e p) next met kept) (other : e ∉ met) (part : kept ⊆ met) :
    Forgets p next (e :: met) kept := by
  refine ⟨fun x inside gone => ?_, fun x still => ?_⟩
  · cases List.mem_cons.mp inside with
    | inl here =>
        subst here
        rw [forgets.others x fun later => absurd later other, forget_previous, if_pos rfl]
    | inr later => exact forgets.removed x later gone
  · have different : x ≠ e := by
      rintro rfl
      exact other (part (still List.mem_cons_self))
    rw [forgets.others x fun inside => still (List.mem_cons_of_mem e inside), forget_previous, if_neg different]

theorem forgets_append (first : Forgets p middle met kept) (second : Forgets middle next metLater keptLater)
    (part : kept ⊆ met) (partLater : keptLater ⊆ metLater) (apart : ∀ x ∈ met, x ∉ metLater) :
    Forgets p next (met ++ metLater) (kept ++ keptLater) := by
  refine ⟨fun x inside gone => ?_, fun x still => ?_⟩
  · rw [List.mem_append, not_or] at gone
    cases List.mem_append.mp inside with
    | inl early =>
        rw [second.others x fun later => absurd later (apart x early)]
        exact first.removed x early gone.1
    | inr later => exact second.removed x later gone.2
  · rw [List.mem_append, List.mem_append] at still
    rw [second.others x fun later => (still (Or.inr later)).resolve_left fun early =>
      apart x (part early) later]
    exact first.others x fun early => (still (Or.inl early)).resolve_right fun later =>
      apart x early (partLater later)

variable (directory : Directory)

theorem prune_level_previous (newParent : Nat → Option Nat) (depth position : Nat) (p : Pruned)
    (nodes : List Node) (distinct : (nodes.map Node.entity).Nodup) :
    Forgets p (pruneLevel directory newParent depth position p nodes).2.2 (nodes.map Node.entity)
      ((pruneLevel directory newParent depth position p nodes).1.map Node.entity) := by
  induction nodes generalizing position p with
  | nil => exact ⟨fun _ inside => by contradiction, fun _ _ => rfl⟩
  | cons node rest ih =>
      obtain ⟨other, distinct⟩ := List.nodup_cons.mp distinct
      have dropped := forgets_dropped (ih position (forget node.entity p) distinct) other
        (prune_level_sublist directory newParent depth position _ rest).subset
      rw [pruneLevel]
      cases newParent node.parent with
      | none => exact dropped
      | some parent =>
          by_cases alive : directory.isAlive node.entity = true
          · simp only [if_pos alive]
            have kept := ih (position + 1) { p with slots := p.slots.insert node.entity (depth, position) } distinct
            exact forgets_kept ⟨kept.removed, kept.others⟩ other
          · simp only [if_neg alive]
            exact dropped

theorem prune_levels_previous (newParent : Nat → Option Nat) (depth : Nat) (p : Pruned) (levels : List (List Node))
    (distinct : (levels.flatten.map Node.entity).Nodup) :
    Forgets p (pruneLevels directory newParent depth p levels).2 (levels.flatten.map Node.entity)
      ((pruneLevels directory newParent depth p levels).1.flatten.map Node.entity) := by
  induction levels generalizing newParent depth p with
  | nil => exact ⟨fun _ inside => by contradiction, fun _ _ => rfl⟩
  | cons nodes rest ih =>
      rw [List.flatten_cons, List.map_append] at distinct ⊢
      obtain ⟨here, there, apart⟩ := List.nodup_append.mp distinct
      have first := prune_level_previous directory newParent depth 0 p nodes here
      have part := (prune_level_sublist directory newParent depth 0 p nodes).subset
      rw [pruneLevels]
      generalize pruneLevel directory newParent depth 0 p nodes = pruned at first part ⊢
      have second := ih (fun i => pruned.2.1.getD i none) (depth + 1) pruned.2.2 there
      have settles := prune_levels_slots directory (fun i => pruned.2.1.getD i none) (depth + 1) pruned.2.2
        rest there
      simp only [List.flatten_cons, List.map_append]
      exact forgets_append first second part (fun x inside => (settles.total x inside).1)
        fun x early later => apart x early x later rfl

end Previous

section Prune

variable (directory : Directory)

theorem prune_levels_badges (newParent : Nat → Option Nat) (depth : Nat) (p : Pruned) (levels : List (List Node))
    (i : Nat) : (((pruneLevels directory newParent depth p levels).1.getD i []).map Node.badge).Sublist
      ((levels.getD i []).map Node.badge) := by
  induction levels generalizing newParent depth p i with
  | nil => exact List.Sublist.refl _
  | cons nodes rest ih =>
      rw [pruneLevels]
      cases i with
      | zero => exact prune_level_badges directory newParent depth 0 p nodes
      | succ i => exact ih _ _ _ i

theorem prune_badges (h : Tree) (depth : Nat) :
    (((h.prune directory).level depth).map Node.badge).Sublist ((h.level depth).map Node.badge) := by
  rw [level, prune, trim_eq]
  exact prune_levels_badges directory (fun _ => some 0) 0 ⟨h.slots, h.previous⟩ h.levels depth

theorem prune_stays (traces : Traces h log) (e : Entity) :
    (h.prune directory).contains e = log.stays directory.isAlive e := by
  rw [Bool.eq_iff_iff, (prune_traces directory traces).contains_iff, Lineage.stays, decide_eq_true_iff]

theorem prune_contains_iff (traces : Traces h log) (e : Entity) :
    (h.prune directory).contains e = true ↔
      h.contains e = true ∧ ∀ x, Relation.ReflTransGen h.Hangs e x → directory.isAlive x = true := by
  have same : h.Hangs = fun child parent => (child, some parent) ∈ log :=
    funext fun child => funext fun parent => propext (hangs_iff traces child parent)
  rw [prune_stays directory traces, Lineage.stays_iff traces.grown, traces.contains_iff, same]

theorem prune_order (traces : Traces h log) (depth : Nat) :
    ((h.prune directory).level depth).map Node.entity =
      ((h.level depth).map Node.entity).filter (h.prune directory).contains := by
  rw [(prune_traces directory traces).entities, Lineage.peers_pruned _ traces.grown, traces.entities,
    funext (prune_stays directory traces)]

theorem prune_forgets (traces : Traces h log) (e : Entity) :
    (h.contains e = true → (h.prune directory).contains e = false → (h.prune directory).previous? e = none) ∧
      ((h.contains e = true → (h.prune directory).contains e = true) →
        (h.prune directory).previous? e = h.previous? e) := by
  have forgets := prune_levels_previous directory (fun _ => some 0) 0 ⟨h.slots, h.previous⟩ h.levels
    traces.nodup_flatten
  have kept : e ∈ (pruneLevels directory (fun _ => some 0) 0 ⟨h.slots, h.previous⟩ h.levels).1.flatten.map
      Node.entity ↔ (h.prune directory).contains e = true := by
    rw [← (prune_traces directory traces).mem_flatten_iff, mem_flatten_iff_level, mem_flatten_iff_level, prune]
    simp only [trim_eq]
  refine ⟨fun member gone => ?_, fun still => ?_⟩
  · refine forgets.removed e ((traces.mem_flatten_iff e).mpr member) fun inside => ?_
    rw [kept.mp inside] at gone
    contradiction
  · exact forgets.others e fun met => kept.mpr (still ((traces.mem_flatten_iff e).mp met))

theorem prune_unmoved (traces : Traces h log) (survived : (h.prune directory).contains e = true) :
    Unmoved h (h.prune directory) e := by
  have after := prune_traces directory traces
  obtain ⟨parent, listed, above⟩ := after.exists_entry survived
  obtain ⟨depth, badge⟩ := after.badge_of_member survived
  obtain ⟨level, peer⟩ := after.grown.exists_depth ((after.contains_iff e).mp survived)
  refine ⟨?_, ?_, ?_, ?_⟩
  · rw [(after.depth_iff e level).mpr peer, eq_comm, traces.depth_iff]
    rw [Lineage.peers_pruned _ traces.grown] at peer
    exact (List.mem_filter.mp peer).1
  · rw [above, above_eq traces ((Lineage.pruned_sublist _ log).subset listed)]
  · exact (traces.world_of_badge ((prune_badges directory h depth).subset badge)).symm
  · exact (prune_forgets directory traces e).2 fun _ => survived

end Prune

end Tree

end EntityStore
