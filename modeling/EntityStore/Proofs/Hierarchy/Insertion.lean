import EntityStore.Proofs.Hierarchy.Pruned
import EntityStore.Proofs.Hierarchy.Tree
import Mathlib.Data.List.TakeWhile

set_option autoImplicit false

namespace EntityStore

def Node.place (node : Node) : Nat × Entity := (node.parent, node.entity)

def Node.badge (node : Node) : Entity × Option Mat4 := (node.entity, node.world)

namespace Tree

theorem entities_of_badges (level : List Node) : (level.map Node.badge).map Prod.fst = level.map Node.entity := by
  rw [List.map_map]
  rfl

structure Traces (h : Tree) (log : Lineage) : Prop where
  grown : log.Grown
  levels : ∀ depth, (h.level depth).map Node.place = log.generation depth
  slots : ∀ e depth position,
    h.slots.find? e = some (depth, position) ↔ (log.peers depth)[position]? = some e
  filled : ∀ level ∈ h.levels, level ≠ []

variable {h : Tree} {log : Lineage} {e parent : Entity}

namespace Traces

theorem entities (traces : Traces h log) (depth : Nat) :
    (h.level depth).map Node.entity = log.peers depth := by
  rw [Lineage.peers, ← traces.levels, List.map_map]
  rfl

theorem slot_ne_none (traces : Traces h log) (member : e ∈ log.members) : h.slots.find? e ≠ none := by
  obtain ⟨depth, peer⟩ := traces.grown.exists_depth member
  obtain ⟨position, found⟩ := List.mem_iff_getElem?.mp peer
  rw [(traces.slots e depth position).mpr found]
  exact Option.some_ne_none _

theorem contains_iff (traces : Traces h log) (e : Entity) :
    h.contains e = true ↔ e ∈ log.members := by
  rw [contains, Table.contains, Option.isSome_iff_exists]
  constructor
  · rintro ⟨⟨depth, position⟩, found⟩
    exact Lineage.member_of_peer (List.mem_of_getElem? ((traces.slots e depth position).mp found))
  · intro member
    exact Option.ne_none_iff_exists'.mp (traces.slot_ne_none member)

-- Members have one place, so it is enough that each has a slot and that slots are right.
theorem of_slots (grown : log.Grown) (levels : ∀ depth, (h.level depth).map Node.place = log.generation depth)
    (right : ∀ e depth position, h.slots.find? e = some (depth, position) →
      (log.peers depth)[position]? = some e)
    (total : ∀ e ∈ log.members, h.slots.find? e ≠ none) (filled : ∀ level ∈ h.levels, level ≠ []) :
    Traces h log := by
  refine ⟨grown, levels, fun e depth position => ⟨right e depth position, fun found => ?_⟩, filled⟩
  have member := Lineage.member_of_peer (List.mem_of_getElem? found)
  obtain ⟨⟨depth', position'⟩, slot⟩ := Option.ne_none_iff_exists'.mp (total e member)
  obtain ⟨rfl, rfl⟩ := grown.place_unique (right e depth' position' slot) found
  exact slot

end Traces

theorem generation_nil (depth : Nat) : Lineage.generation [] depth = [] := by
  induction depth with
  | zero => rfl
  | succ depth ih => rw [Lineage.generation_succ, Lineage.peers, ih]; rfl

theorem traces_empty (previous : Table UInt32 (Entity × Mat4)) (pending : List Entity) :
    Traces { empty with previous, pending } [] := by
  refine Traces.of_slots .nil (fun depth => ?_) (fun e depth position slot => ?_) (fun e member => ?_)
    (fun level member => ?_)
  · rw [generation_nil]
    rfl
  · contradiction
  · contradiction
  · contradiction

section Insert

theorem modify_level_eq (f : List Node → List Node) (depth : Nat) (levels : List (List Node)) (d : Nat) :
    (modifyLevel f depth levels).getD d [] =
      if d = depth then f (levels.getD depth []) else levels.getD d [] := by
  induction depth, levels using modifyLevel.induct generalizing d with
  | case1 => cases d <;> simp [modifyLevel]
  | case2 level rest => cases d <;> simp [modifyLevel]
  | case3 depth ih =>
      cases d with
      | zero => simp [modifyLevel]
      | succ d => simpa [modifyLevel] using ih d
  | case4 depth level rest ih =>
      cases d with
      | zero => simp [modifyLevel]
      | succ d => simpa [modifyLevel] using ih d

theorem modify_level_filled (f : List Node → List Node) (depth : Nat) (levels : List (List Node))
    (bound : depth ≤ levels.length) (filled : ∀ level ∈ levels, level ≠ [])
    (new : f (levels.getD depth []) ≠ []) : ∀ level ∈ modifyLevel f depth levels, level ≠ [] := by
  induction depth, levels using modifyLevel.induct with
  | case1 => simpa [modifyLevel] using new
  | case2 level rest =>
      simp only [modifyLevel, List.forall_mem_cons] at filled ⊢
      exact ⟨new, filled.2⟩
  | case3 depth ih => simp at bound
  | case4 depth level rest ih =>
      simp only [modifyLevel, List.forall_mem_cons] at filled ⊢
      exact ⟨filled.1, ih (by simpa using bound) filled.2 (by simpa using new)⟩

theorem note_slots_other (slots : Table Entity (Nat × Nat)) (depth position : Nat) (level : List Node)
    (other : e ∉ level.map Node.entity) :
    (noteSlots slots depth position level).find? e = slots.find? e := by
  induction level generalizing slots position with
  | nil => rfl
  | cons node rest ih =>
      rw [List.map_cons, List.mem_cons, not_or] at other
      rw [noteSlots, ih _ _ other.2, Table.find?_insert, if_neg (Ne.symm other.1)]

theorem note_slots_own (slots : Table Entity (Nat × Nat)) (depth position : Nat) (level : List Node)
    (distinct : (level.map Node.entity).Nodup) (i : Nat) (own : (level.map Node.entity)[i]? = some e) :
    (noteSlots slots depth position level).find? e = some (depth, position + i) := by
  induction level generalizing slots position i with
  | nil => contradiction
  | cons node rest ih =>
      rw [List.map_cons, List.nodup_cons] at distinct
      rw [noteSlots]
      cases i with
      | zero =>
          obtain rfl := Option.some.inj own
          rw [note_slots_other _ _ _ _ distinct.1, Table.find?_insert, if_pos rfl]
          rfl
      | succ i =>
          rw [ih _ _ distinct.2 i own]
          exact congrArg some (congrArg _ (by omega))

theorem note_slots_cases (slots : Table Entity (Nat × Nat)) (depth position : Nat) (level : List Node)
    (distinct : (level.map Node.entity).Nodup) (e : Entity) :
    (∃ i, (level.map Node.entity)[i]? = some e ∧
        (noteSlots slots depth position level).find? e = some (depth, position + i)) ∨
      (e ∉ level.map Node.entity ∧ (noteSlots slots depth position level).find? e = slots.find? e) := by
  by_cases own : e ∈ level.map Node.entity
  · obtain ⟨i, found⟩ := List.mem_iff_getElem?.mp own
    exact Or.inl ⟨i, found, note_slots_own slots depth position level distinct i found⟩
  · exact Or.inr ⟨own, note_slots_other slots depth position level own⟩

theorem insert_root_traces (traces : Traces h log) (fresh : e ∉ log.members) :
    Traces (h.insertRoot e) (log ++ [(e, none)]) := by
  have grown := Lineage.Grown.root log e traces.grown fresh
  have generations := Lineage.generation_root traces.grown fresh
  have peers (depth : Nat) : Lineage.peers (log ++ [(e, none)]) depth =
      log.peers depth ++ if depth = 0 then [e] else [] := by
    rw [Lineage.peers, generations, List.map_append, Lineage.peers]
    split <;> rfl
  refine Traces.of_slots grown (fun depth => ?_) (fun x depth position slot => ?_) (fun x member => ?_) ?_
  · rw [generations, ← traces.levels, level, insertRoot, modify_level_eq]
    by_cases root : depth = 0
    · subst root
      simp [Node.place, level]
    · simp [root, level]
  · rw [insertRoot, Table.find?_insert] at slot
    rw [peers]
    by_cases own : e = x
    · rw [if_pos own] at slot
      obtain ⟨rfl, rfl⟩ := Prod.mk.inj (Option.some.inj slot)
      rw [← own, ← traces.entities, if_pos rfl]
      simp
    · rw [if_neg own] at slot
      have found := (traces.slots x depth position).mp slot
      obtain ⟨bound, _⟩ := List.getElem?_eq_some_iff.mp found
      exact (List.getElem?_append_left bound).trans found
  · rw [insertRoot, Table.find?_insert]
    by_cases own : e = x
    · rw [if_pos own]
      exact Option.some_ne_none _
    · rw [if_neg own]
      rw [Lineage.members_snoc, List.mem_append, List.mem_singleton] at member
      exact traces.slot_ne_none (member.resolve_right (Ne.symm own))
  · exact modify_level_filled _ 0 h.levels (Nat.zero_le _) traces.filled (by simp)

theorem level_split {depth position : Nat} {before after : List (Nat × Entity)} (traces : Traces h log)
    (splits : log.Splits depth position before after) :
    (((h.level (depth + 1)).takeWhile fun node => node.parent ≤ position).map Node.place = before) ∧
      ((h.level (depth + 1)).dropWhile fun node => node.parent ≤ position).map Node.place = after := by
  have whole := (traces.levels (depth + 1)).trans splits.whole
  have left (place : Nat × Entity) (member : place ∈ before) : decide (place.1 ≤ position) = true :=
    decide_eq_true (splits.left place member)
  have right (bound : 0 < after.length) : ¬ decide (after[0].1 ≤ position) = true := by
    rw [decide_eq_true_iff, Nat.not_le]
    exact splits.right after[0] (List.getElem_mem bound)
  have early : (before ++ after).takeWhile (fun place => place.1 ≤ position) = before := by
    rw [List.takeWhile_append_of_pos left, List.takeWhile_eq_nil_iff.mpr right, List.append_nil]
  have late : (before ++ after).dropWhile (fun place => place.1 ≤ position) = after := by
    rw [List.dropWhile_append_of_pos left, List.dropWhile_eq_self_iff.mpr right]
  rw [← whole] at early late
  rw [List.takeWhile_map] at early
  rw [List.dropWhile_map] at late
  exact ⟨early, late⟩

theorem modify_shift_eq (start : Nat) (depth : Nat) (levels : List (List Node)) (d : Nat) :
    ((levels.modify depth (List.map (Node.shift start))).getD d []).map Node.place =
      if d = depth then ((levels.getD d []).map Node.place).map (Lineage.shift start)
      else (levels.getD d []).map Node.place := by
  have shifted : Node.place ∘ Node.shift start = Lineage.shift start ∘ Node.place := by
    funext node
    by_cases later : start ≤ node.parent <;> simp [Node.shift, Lineage.shift, Node.place, later]
  rw [List.getD_eq_getElem?_getD, List.getElem?_modify, List.getD_eq_getElem?_getD]
  by_cases here : d = depth
  · subst here
    cases levels[d]? with
    | none => simp
    | some level => simp [shifted]
  · cases levels[d]? with
    | none => simp [here]
    | some level => simp [here, Ne.symm here]

theorem modify_map_filled (f : Node → Node) (depth : Nat) (levels : List (List Node))
    (filled : ∀ level ∈ levels, level ≠ []) : ∀ level ∈ levels.modify depth (List.map f), level ≠ [] := by
  intro level member
  obtain ⟨d, found⟩ := List.mem_iff_getElem?.mp member
  rw [List.getElem?_modify] at found
  obtain ⟨old, there, rfl⟩ := Option.map_eq_some_iff.mp found
  have nonempty := filled old (List.mem_of_getElem? there)
  split
  · exact fun empty => nonempty (List.map_eq_nil_iff.mp empty)
  · exact nonempty

section Between

variable {depth : Nat} {early late : List Node} {node : Node}

theorem insert_between_level (h : Tree) (depth : Nat) (early : List Node) (node : Node) (late : List Node)
    (d : Nat) : ((h.insertBetween depth early node late).level d).map Node.place =
      if d = depth + 1 then ((h.level d).map Node.place).map (Lineage.shift early.length)
      else if d = depth then early.map Node.place ++ node.place :: late.map Node.place
      else (h.level d).map Node.place := by
  rw [level, insertBetween, modify_shift_eq, modify_level_eq]
  by_cases below : d = depth + 1
  · rw [if_pos below, if_pos below, if_neg (by omega)]
    rfl
  · rw [if_neg below, if_neg below]
    by_cases here : d = depth
    · rw [if_pos here, if_pos here, List.map_append, List.map_cons]
    · rw [if_neg here, if_neg here]
      rfl

theorem insert_between_slot (traces : Traces h log) (whole : log.peers depth = (early ++ late).map Node.entity)
    (distinct : ((node :: late).map Node.entity).Nodup) {x : Entity} {d p : Nat}
    (slot : (h.insertBetween depth early node late).slots.find? x = some (d, p)) :
    (if d = depth then (early ++ node :: late).map Node.entity else log.peers d)[p]? = some x := by
  rw [List.map_append] at whole ⊢
  have size : (early.map Node.entity).length = early.length := List.length_map Node.entity
  rcases note_slots_cases h.slots depth early.length (node :: late) distinct x with
    ⟨i, found, noted⟩ | ⟨other, kept⟩
  · obtain ⟨rfl, rfl⟩ := Prod.mk.inj (Option.some.inj (noted.symm.trans slot))
    rw [if_pos rfl, List.getElem?_append_right (by omega), size, Nat.add_sub_cancel_left]
    exact found
  · have found := (traces.slots x d p).mp (kept.symm.trans slot)
    by_cases here : d = depth
    -- Those before the new node keep their positions.
    · rw [here, whole] at found
      rw [if_pos here]
      by_cases small : p < (early.map Node.entity).length
      · rw [List.getElem?_append_left small] at found ⊢
        exact found
      · rw [List.getElem?_append_right (by omega)] at found
        exact absurd (List.mem_cons_of_mem node.entity (List.mem_of_getElem? found)) other
    · rw [if_neg here]
      exact found

theorem insert_between_total (traces : Traces h log) (distinct : ((node :: late).map Node.entity).Nodup)
    {x : Entity} (known : x ∈ log.members ∨ x = node.entity) :
    (h.insertBetween depth early node late).slots.find? x ≠ none := by
  show (noteSlots h.slots depth early.length (node :: late)).find? x ≠ none
  rcases note_slots_cases h.slots depth early.length (node :: late) distinct x with
    ⟨i, _, noted⟩ | ⟨other, kept⟩
  · rw [noted]
    exact Option.some_ne_none _
  · rw [List.map_cons, List.mem_cons, not_or] at other
    rw [kept]
    exact traces.slot_ne_none (known.resolve_right other.1)

theorem insert_between_filled (bound : depth ≤ h.levels.length) (filled : ∀ level ∈ h.levels, level ≠ []) :
    ∀ level ∈ (h.insertBetween depth early node late).levels, level ≠ [] :=
  modify_map_filled _ _ _ (modify_level_filled _ _ _ bound filled (by simp))

end Between

theorem Traces.depth_lt (traces : Traces h log) {depth : Nat} (peer : e ∈ log.peers depth) :
    depth < h.levels.length := by
  by_contra short
  have gone : h.level depth = [] := by
    rw [level, List.getD_eq_getElem?_getD, List.getElem?_eq_none (by omega), Option.getD_none]
  rw [← traces.entities, gone] at peer
  contradiction

theorem insert_below_traces (traces : Traces h log) (fresh : e ∉ log.members) {depth position : Nat}
    (there : (log.peers depth)[position]? = some parent) :
    Traces (h.insertBelow e (depth + 1) position) (log ++ [(e, some parent)]) := by
  have peer := List.mem_of_getElem? there
  have grown := Lineage.Grown.child log e parent traces.grown fresh (Lineage.member_of_peer peer)
  obtain ⟨before, after, splits, generations⟩ := Lineage.generation_child traces.grown fresh there
  obtain ⟨earlyPlaces, latePlaces⟩ := level_split traces splits
  rw [insertBelow]
  generalize (h.level (depth + 1)).takeWhile (fun node => node.parent ≤ position) = early at earlyPlaces ⊢
  generalize (h.level (depth + 1)).dropWhile (fun node => node.parent ≤ position) = late at latePlaces ⊢
  have names (nodes : List Node) : nodes.map Node.entity = (nodes.map Node.place).map Prod.snd := by
    rw [List.map_map]
    rfl
  have old : log.peers (depth + 1) = (early ++ late).map Node.entity := by
    rw [names, List.map_append, earlyPlaces, latePlaces, ← splits.whole, Lineage.peers]
  have peers (d : Nat) : Lineage.peers (log ++ [(e, some parent)]) d =
      if d = depth + 1 then (early ++ ⟨position, e, none⟩ :: late).map Node.entity else log.peers d := by
    rw [Lineage.peers, generations]
    split
    · rw [List.map_append, List.map_append, List.map_cons, List.map_cons, names early, names late,
        earlyPlaces, latePlaces]
    · split
      · rw [Lineage.map_snd_shift, Lineage.peers]
      · rfl
  have distinct : ((⟨position, e, none⟩ :: late : List Node).map Node.entity).Nodup := by
    have whole := grown.nodup_peers (depth + 1)
    rw [peers, if_pos rfl, List.map_append] at whole
    exact (List.nodup_append.mp whole).2.1
  refine Traces.of_slots grown (fun d => ?_) (fun x d p slot => ?_) (fun x member => ?_) ?_
  · rw [insert_between_level, generations, ← earlyPlaces, ← latePlaces, List.length_map, traces.levels]
    by_cases below : d = depth + 1 + 1
    · rw [if_pos below, if_neg (by omega), if_pos below]
    · rw [if_neg below, if_neg below]
      rfl
  · rw [peers]
    exact insert_between_slot traces old distinct slot
  · rw [Lineage.members_snoc, List.mem_append, List.mem_singleton] at member
    exact insert_between_total traces distinct member
  · exact insert_between_filled (traces.depth_lt peer) traces.filled

-- Who a new entity comes to hang on. It is its parent if the position of the parent fits.
def hung (h : Tree) (parent : Option Entity) : Option Entity :=
  (parent.bind h.slots.find?).bind fun (depth, position) =>
    ((h.level depth)[(clip position).toNat]?).map Node.entity

theorem insert_one_traces (traces : Traces h log) (fresh : e ∉ log.members) (parent : Option Entity) :
    Traces (h.insertOne e parent) (log ++ [(e, h.hung parent)]) := by
  rw [insertOne, hung]
  cases slot : parent.bind h.slots.find? with
  | none => exact insert_root_traces traces fresh
  | some place =>
      obtain ⟨depth, position⟩ := place
      obtain ⟨p, _, above⟩ := Option.bind_eq_some_iff.mp slot
      have there := (traces.slots p depth position).mp above
      obtain ⟨bound, _⟩ := List.getElem?_eq_some_iff.mp there
      have inside := Nat.lt_of_le_of_lt (clip_le position) bound
      have hangs : (log.peers depth)[(clip position).toNat]? = some (log.peers depth)[(clip position).toNat] :=
        List.getElem?_eq_getElem inside
      simp only [Option.bind_some]
      rw [← List.getElem?_map, traces.entities, hangs]
      exact insert_below_traces traces fresh hangs

def Narrow (h : Tree) : Prop := ∀ depth, (h.level depth).length < UInt32.size

theorem Traces.hung_eq (traces : Traces h log) (narrow : h.Narrow) (parent : Option Entity)
    (known : ∀ p, parent = some p → p ∈ log.members) : h.hung parent = parent := by
  cases parent with
  | none => rfl
  | some p =>
      have slot := traces.slot_ne_none (known p rfl)
      obtain ⟨⟨depth, position⟩, above⟩ := Option.ne_none_iff_exists'.mp slot
      have there := (traces.slots p depth position).mp above
      rw [← traces.entities, List.getElem?_map] at there
      obtain ⟨node, found, _⟩ := Option.map_eq_some_iff.mp there
      obtain ⟨bound, _⟩ := List.getElem?_eq_some_iff.mp found
      have fits := toNat_clip (Nat.lt_trans bound (narrow depth))
      simp only [hung, Option.bind_some, above, fits]
      exact there

end Insert

section Badges

structure Widens (new : List Entity) (old badges : List (Entity × Option Mat4)) : Prop where
  kept : old.Sublist badges
  added : ∀ badge ∈ badges, badge ∈ old ∨ badge.1 ∈ new ∧ badge.2 = none

theorem widens_refl (new : List Entity) (badges : List (Entity × Option Mat4)) : Widens new badges badges :=
  ⟨List.Sublist.refl badges, fun _ listed => Or.inl listed⟩

theorem widens_put (e : Entity) (front back : List (Entity × Option Mat4)) :
    Widens [e] (front ++ back) (front ++ (e, none) :: back) := by
  refine ⟨(List.Sublist.refl front).append (List.sublist_cons_self (e, none) back), fun badge listed => ?_⟩
  rw [List.mem_append, List.mem_cons] at listed
  rw [List.mem_append, List.mem_singleton]
  rcases listed with before | rfl | after
  · exact Or.inl (Or.inl before)
  · exact Or.inr ⟨rfl, rfl⟩
  · exact Or.inl (Or.inr after)

theorem insert_root_badges (h : Tree) (e : Entity) (depth : Nat) :
    Widens [e] ((h.level depth).map Node.badge) (((h.insertRoot e).level depth).map Node.badge) := by
  rw [insertRoot, level, level, modify_level_eq]
  by_cases root : depth = 0
  · subst root
    rw [if_pos rfl, List.map_append]
    have put := widens_put e ((h.levels.getD 0 []).map Node.badge) []
    rw [List.append_nil] at put
    exact put
  · rw [if_neg root]
    exact widens_refl [e] _

theorem shift_badges (start depth d : Nat) (levels : List (List Node)) :
    ((levels.modify depth (List.map (Node.shift start))).getD d []).map Node.badge = (levels.getD d []).map Node.badge := by
  have shifted : Node.badge ∘ Node.shift start = Node.badge := by
    funext node
    by_cases later : start ≤ node.parent <;> simp [Node.shift, Node.badge, later]
  rw [List.getD_eq_getElem?_getD, List.getElem?_modify, List.getD_eq_getElem?_getD]
  by_cases here : depth = d
  · subst here
    cases levels[depth]? with
    | none => simp
    | some level => simp [shifted]
  · cases levels[d]? with
    | none => simp [here]
    | some level => simp [here]

theorem insert_below_badges (h : Tree) (e : Entity) (depth position d : Nat) :
    Widens [e] ((h.level d).map Node.badge) (((h.insertBelow e depth position).level d).map Node.badge) := by
  rw [insertBelow, insertBetween, level, level, shift_badges, modify_level_eq]
  by_cases here : d = depth
  · subst here
    rw [if_pos rfl, List.map_append, List.map_cons]
    have put := widens_put e (((h.levels.getD d []).takeWhile fun node => node.parent ≤ position).map Node.badge)
      (((h.levels.getD d []).dropWhile fun node => node.parent ≤ position).map Node.badge)
    rw [← List.map_append, List.takeWhile_append_dropWhile] at put
    exact put
  · rw [if_neg here]
    exact widens_refl [e] _

theorem insert_one_badges (h : Tree) (e : Entity) (parent : Option Entity) (depth : Nat) :
    Widens [e] ((h.level depth).map Node.badge) (((h.insertOne e parent).level depth).map Node.badge) := by
  rw [insertOne]
  cases parent.bind h.slots.find? with
  | none => exact insert_root_badges h e depth
  | some slot => exact insert_below_badges h e (slot.1 + 1) (clip slot.2).toNat depth

end Badges

end Tree

end EntityStore
