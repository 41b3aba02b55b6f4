import EntityStore.Proofs.Hierarchy.Lineage
import Mathlib.Data.List.Induction

set_option autoImplicit false

namespace EntityStore.Lineage

variable {log : Lineage} {alive : Entity → Bool} {e parent : Entity}

section Pruned

def keep (alive : Entity → Bool) (kept : Lineage) (entry : Entity × Option Entity) : Lineage :=
  if alive entry.1 && entry.2.all (fun parent => parent ∈ kept.members) then kept ++ [entry] else kept

def pruned (alive : Entity → Bool) (log : Lineage) : Lineage := log.foldl (keep alive) []

def stays (alive : Entity → Bool) (log : Lineage) (e : Entity) : Bool := e ∈ (log.pruned alive).members

theorem pruned_snoc (alive : Entity → Bool) (log : Lineage) (entry : Entity × Option Entity) :
    pruned alive (log ++ [entry]) = keep alive (log.pruned alive) entry := by
  rw [pruned, List.foldl_append, List.foldl_cons, List.foldl_nil, pruned]

theorem pruned_sublist (alive : Entity → Bool) (log : Lineage) : (log.pruned alive).Sublist log := by
  induction log using List.reverseRecOn with
  | nil => exact List.Sublist.refl []
  | append_singleton log entry ih =>
      rw [pruned_snoc, keep]
      split
      · exact ih.append (List.Sublist.refl [entry])
      · exact ih.trans (List.sublist_append_left log [entry])

theorem member_of_pruned (member : e ∈ (log.pruned alive).members) : e ∈ log.members :=
  ((pruned_sublist alive log).map Prod.fst).subset member

theorem grown_pruned (alive : Entity → Bool) (grown : Grown log) : Grown (log.pruned alive) := by
  induction grown with
  | nil => exact Grown.nil
  | root log e grown fresh ih =>
      rw [pruned_snoc, keep]
      split
      · exact .root _ e ih fun member => fresh (member_of_pruned member)
      · exact ih
  | child log e parent grown fresh known ih =>
      rw [pruned_snoc, keep]
      split
      · rename_i kept
        have stayed : parent ∈ (log.pruned alive).members := by simpa using (Bool.and_eq_true_iff.mp kept).2
        exact .child _ e parent ih (fun member => fresh (member_of_pruned member)) stayed
      · exact ih

theorem stays_snoc (alive : Entity → Bool) (log : Lineage) (entry : Entity × Option Entity)
    (other : e ≠ entry.1) : stays alive (log ++ [entry]) e = log.stays alive e := by
  rw [stays, pruned_snoc, keep]
  split
  · rw [show pruned alive log ++ [entry] = log.pruned alive ++ [(entry.1, entry.2)] from rfl, members_snoc]
    simp [stays, other]
  · rfl

-- Of the children of one who stays those stay that are alive.
theorem children_pruned (alive : Entity → Bool) (grown : Grown log) (parent : Option Entity) :
    (log.pruned alive).childrenOf parent =
      if parent.all (log.stays alive) then (log.childrenOf parent).filter alive else [] := by
  -- One who has just been inserted has no children, so it does not matter whether it stays.
  have step (log : Lineage) (e : Entity) (own : Option Entity) (grown : Grown log)
      (fresh : e ∉ log.members) (known : own.all (fun parent => parent ∈ log.members))
      (ih : (log.pruned alive).childrenOf parent =
        if parent.all (log.stays alive) then (log.childrenOf parent).filter alive else []) :
      (pruned alive (log ++ [(e, own)])).childrenOf parent =
        if parent.all (stays alive (log ++ [(e, own)])) then
          (childrenOf (log ++ [(e, own)]) parent).filter alive else [] := by
    by_cases self : parent = some e
    · subst self
      have other : own ≠ some e := by
        rintro rfl
        exact fresh (of_decide_eq_true known)
      have gone : (pruned alive (log ++ [(e, own)])).childrenOf (some e) = [] := by
        rw [pruned_snoc, keep]
        have before := (grown_pruned alive grown).childless fun member => fresh (member_of_pruned member)
        split
        · rw [children_snoc, before, if_neg other, List.append_nil]
        · exact before
      rw [gone, children_snoc, grown.childless fresh, if_neg other]
      exact (ite_self []).symm
    · have same : parent.all (stays alive (log ++ [(e, own)])) = parent.all (log.stays alive) := by
        cases parent with
        | none => rfl
        | some parent => exact stays_snoc alive log (e, own) fun equal => self (congrArg some equal)
      rw [same, children_snoc, pruned_snoc, keep, show own.all (fun parent => decide (parent ∈
        (log.pruned alive).members)) = own.all (log.stays alive) from rfl]
      by_cases here : own = parent
      · subst here
        cases living : alive e <;> cases staying : own.all (log.stays alive) <;>
          simp [children_snoc, ih, living, staying]
      · rw [if_neg here, List.append_nil, ← ih]
        split
        · rw [children_snoc, if_neg here, List.append_nil]
        · rfl
  induction grown with
  | nil => simp [pruned, childrenOf]
  | root log e grown fresh ih => exact step log e none grown fresh rfl ih
  | child log e above grown fresh known ih =>
      exact step log e (some above) grown fresh (decide_eq_true known) ih

theorem stays_child (grown : Grown log) {parent : Option Entity} (child : (e, parent) ∈ log) :
    log.stays alive e = (parent.all (log.stays alive) && alive e) := by
  have kept : log.stays alive e = true ↔ e ∈ (log.pruned alive).childrenOf parent := by
    rw [mem_children_iff, stays, decide_eq_true_iff]
    constructor
    · intro member
      obtain ⟨⟨_, other⟩, listed, rfl⟩ := List.mem_map.mp member
      have same := grown.parent_unique child ((pruned_sublist alive log).subset listed)
      exact same ▸ listed
    · intro listed
      exact List.mem_map.mpr ⟨_, listed, rfl⟩
  rw [Bool.eq_iff_iff, kept, children_pruned alive grown, Bool.and_eq_true]
  have listed := (mem_children_iff log parent e).mpr child
  split
  · rename_i good
    simp [listed, good]
  · rename_i bad
    simp [bad]

end Pruned

section Ranks

variable {α : Type}

def ranks (kept : α → Bool) : Nat → List α → List (Option Nat)
  | _, [] => []
  | position, a :: rest =>
    if kept a then some position :: ranks kept (position + 1) rest else none :: ranks kept position rest

theorem ranks_map {β : Type} (kept : α → Bool) (f : β → α) (position : Nat) (items : List β) :
    ranks kept position (items.map f) = ranks (fun b => kept (f b)) position items := by
  induction items generalizing position with
  | nil => rfl
  | cons b rest ih => rw [List.map_cons, ranks, ranks, ih, ih]

theorem ranks_congr (kept other : α → Bool) (position : Nat) (items : List α)
    (same : ∀ a ∈ items, kept a = other a) : ranks kept position items = ranks other position items := by
  induction items generalizing position with
  | nil => rfl
  | cons a rest ih =>
      have rest_same := fun b member => same b (List.mem_cons_of_mem a member)
      rw [ranks, ranks, same a List.mem_cons_self, ih _ rest_same, ih _ rest_same]

theorem ranks_isSome (kept : α → Bool) (position : Nat) (items : List α) (i : Nat) (a : α)
    (found : items[i]? = some a) : ((ranks kept position items).getD i none).isSome = kept a := by
  induction items generalizing position i with
  | nil => contradiction
  | cons b rest ih =>
      rw [ranks]
      cases i with
      | zero =>
          obtain rfl := Option.some.inj found
          cases kept b <;> rfl
      | succ i =>
          have found : rest[i]? = some a := found
          cases kept b
          · exact ih position i found
          · exact ih (position + 1) i found

def renumberOne (newParent : Nat → Option Nat) (alive : Entity → Bool) (place : Nat × Entity) :
    Option (Nat × Entity) :=
  (newParent place.1).bind fun parent => if alive place.2 then some (parent, place.2) else none

def renumber (newParent : Nat → Option Nat) (alive : Entity → Bool) (places : List (Nat × Entity)) :
    List (Nat × Entity) :=
  places.filterMap (renumberOne newParent alive)

theorem renumber_children (newParent : Nat → Option Nat) (alive : Entity → Bool) (i : Nat)
    (es : List Entity) : renumber newParent alive (es.map (Prod.mk i)) =
      match newParent i with
      | none => []
      | some parent => (es.filter alive).map (Prod.mk parent) := by
  induction es with
  | nil => cases newParent i <;> rfl
  | cons e rest ih =>
      rw [List.map_cons, renumber, List.filterMap_cons, ← renumber, ih, renumberOne]
      cases newParent i with
      | none => rfl
      | some parent => cases living : alive e <;> simp [living]

theorem renumber_below (alive : Entity → Bool) (grown : Grown log) (newParent : Nat → Option Nat)
    (position rank : Nat) (es : List Entity)
    (ranked : ∀ i, newParent (position + i) = (ranks (log.stays alive) rank es).getD i none) :
    renumber newParent alive (log.below position es) =
      (log.pruned alive).below rank (es.filter (log.stays alive)) := by
  induction es generalizing position rank with
  | nil => rfl
  | cons e rest ih =>
      have first := ranked 0
      have others (i : Nat) := ranked (i + 1)
      simp only [← Nat.add_assoc, Nat.add_right_comm position _ 1] at others
      have children := children_pruned alive grown (some e)
      rw [below, renumber, List.filterMap_append, ← renumber, ← renumber, renumber_children]
      rw [ranks] at first others
      cases staying : log.stays alive e with
      | true =>
          rw [staying, if_pos rfl] at first others
          have named : newParent position = some rank := first
          rw [named, List.filter_cons_of_pos staying, below, children, ih _ _ others]
          simp [staying]
      | false =>
          rw [staying, if_neg Bool.false_ne_true] at first others
          have named : newParent position = none := first
          rw [named, List.filter_cons_of_neg (Bool.eq_false_iff.mp staying), ih _ _ others]
          rfl

end Ranks

theorem generation_pruned_zero (alive : Entity → Bool) (grown : Grown log) :
    renumber (fun _ => some 0) alive (log.generation 0) = (log.pruned alive).generation 0 := by
  rw [generation, renumber_children, generation, children_pruned alive grown]
  rfl

theorem renumbered_isSome (alive : Entity → Bool) (grown : Grown log) (depth i : Nat) (e : Entity)
    (listed : (i, e) ∈ log.generation (depth + 1)) :
    (((ranks (log.stays alive) 0 (log.peers depth)).getD i none).isSome && alive e) =
      log.stays alive e := by
  obtain ⟨parent, above, hangs⟩ := (mem_generation_succ log depth i e).mp listed
  rw [ranks_isSome (log.stays alive) 0 (log.peers depth) i parent above, stays_child grown hangs]
  rfl

theorem map_snd_renumber (newParent : Nat → Option Nat) (alive kept : Entity → Bool)
    (places : List (Nat × Entity))
    (same : ∀ place ∈ places, ((newParent place.1).isSome && alive place.2) = kept place.2) :
    (renumber newParent alive places).map Prod.snd = (places.map Prod.snd).filter kept := by
  induction places with
  | nil => rfl
  | cons place rest ih =>
      have here := same place List.mem_cons_self
      rw [List.map_cons, List.filter_cons, ← here, ← ih fun other member =>
        same other (List.mem_cons_of_mem place member), renumber, List.filterMap_cons, renumberOne]
      cases newParent place.1 <;> cases alive place.2 <;> simp [renumber]

theorem peers_pruned (alive : Entity → Bool) (grown : Grown log) (depth : Nat) :
    (log.pruned alive).peers depth = (log.peers depth).filter (log.stays alive) := by
  induction depth with
  | zero =>
      rw [peers, ← generation_pruned_zero alive grown]
      refine map_snd_renumber _ alive _ _ fun place member => ?_
      have rooted := ((mem_generation_zero log place.1 place.2).mp member).2
      rw [stays_child grown rooted]
      rfl
  | succ depth ih =>
      have step := renumber_below alive grown _ 0 0 (log.peers depth) fun i => by rw [Nat.zero_add]
      rw [peers, generation_succ, ih, ← step]
      refine map_snd_renumber _ alive _ _ fun place member => ?_
      exact renumbered_isSome alive grown depth place.1 place.2 member

theorem generation_pruned_nil (alive : Entity → Bool) (grown : Grown log) (depth : Nat)
    (nobody : log.generation depth = []) : (log.pruned alive).generation depth = [] := by
  have gone := peers_pruned alive grown depth
  rw [peers, peers, nobody] at gone
  exact List.map_eq_nil_iff.mp gone

structure Numbers (alive : Entity → Bool) (log : Lineage) (depth : Nat) (newParent : Nat → Option Nat) :
    Prop where
  renumbered : renumber newParent alive (log.generation depth) = (log.pruned alive).generation depth
  kept : ∀ place ∈ log.generation depth,
    ((newParent place.1).isSome && alive place.2) = log.stays alive place.2

theorem numbers_zero (alive : Entity → Bool) (grown : Grown log) :
    Numbers alive log 0 fun _ => some 0 := by
  refine ⟨generation_pruned_zero alive grown, fun place member => ?_⟩
  rw [stays_child grown ((mem_generation_zero log place.1 place.2).mp member).2]
  rfl

theorem numbers_succ (alive : Entity → Bool) (grown : Grown log) (depth : Nat) :
    Numbers alive log (depth + 1) fun i => (ranks (log.stays alive) 0 (log.peers depth)).getD i none := by
  refine ⟨?_, fun place member => renumbered_isSome alive grown depth place.1 place.2 member⟩
  rw [generation_succ, renumber_below alive grown _ 0 0 _ fun i => by rw [Nat.zero_add], generation_succ,
    peers_pruned alive grown]

end EntityStore.Lineage
