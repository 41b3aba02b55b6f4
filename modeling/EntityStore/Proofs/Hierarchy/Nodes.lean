import EntityStore.Proofs.Checked
import EntityStore.Proofs.Hierarchy.EndFrame
import Mathlib.Data.List.Forall2

set_option autoImplicit false

namespace EntityStore

namespace Checked

theorem ensures_mapM {α β : Type} {stops : Fault → Prop} {f : α → Checked β} {related : α → β → Prop}
    (items : List α) (each : ∀ a ∈ items, Ensures stops (f a) (related a)) :
    Ensures stops (items.mapM f) (List.Forall₂ related items) := by
  induction items with
  | nil => exact .nil
  | cons first rest ih =>
      rw [List.mapM_cons]
      refine ensures_bind _ (each first List.mem_cons_self) fun b here => ?_
      refine ensures_bind _ (ih fun a member => each a (List.mem_cons_of_mem first member)) fun bs others => ?_
      exact .cons here others

theorem next32_ok (n : UInt32) :
    Ensures (fun fault => fault = .sumOverflow ∧ n.toNat + 1 = UInt32.size) (next32 n) fun next =>
      next.toNat = n.toNat + 1 := by
  have bound : n.toNat < UInt32.size := n.toNat_lt
  have sum : (n + 1).toNat = (n.toNat + 1) % UInt32.size := UInt32.toNat_add n 1
  rw [next32]
  by_cases last : n.toNat + 1 = UInt32.size
  · rw [last, Nat.mod_self] at sum
    rw [if_pos (UInt32.toNat_inj.mp sum)]
    exact ⟨rfl, last⟩
  · rw [Nat.mod_eq_of_lt (by omega)] at sum
    rw [if_neg fun zero => absurd sum (by rw [zero]; exact (Nat.succ_ne_zero _).symm)]
    exact sum

end Checked

open Checked

namespace Level

def Aligned (l : Level) : Prop := l.worlds.length = l.entries.length

variable {l : Level}

theorem nodes_map {α : Type} (f : Node → α) (g : Entry → α) (aligned : l.Aligned)
    (same : ∀ entry world, f (Entry.node entry world) = g entry) : l.nodes.map f = l.entries.map g := by
  have firsts : (l.entries.zip l.worlds).map Prod.fst = l.entries := List.map_fst_zip (Nat.le_of_eq aligned.symm)
  conv_rhs => rw [← firsts, List.map_map]
  rw [nodes, List.map_zipWith, ← List.map_uncurry_zip_eq_zipWith]
  exact List.map_congr_left fun place _ => same place.1 place.2

theorem nodes_entities (aligned : l.Aligned) : l.nodes.map Node.entity = l.entries.map Entry.entity :=
  nodes_map _ _ aligned fun _ _ => rfl

theorem nodes_parents (aligned : l.Aligned) :
    l.nodes.map Node.parent = l.entries.map fun entry => entry.parentIdx.toNat :=
  nodes_map _ _ aligned fun _ _ => rfl

theorem nodes_worlds (aligned : l.Aligned) : l.nodes.map Node.world = l.worlds := by
  have seconds : (l.entries.zip l.worlds).map Prod.snd = l.worlds := List.map_snd_zip (Nat.le_of_eq aligned)
  conv_rhs => rw [← seconds]
  rw [nodes, List.map_zipWith, ← List.map_uncurry_zip_eq_zipWith]
  exact List.map_congr_left fun place _ => rfl

theorem length_nodes (aligned : l.Aligned) : l.nodes.length = l.entries.length := by
  rw [← List.length_map (f := Node.entity), nodes_entities aligned, List.length_map]

theorem split_nodes (aligned : l.Aligned) (k : UInt32) :
    (l.nodes.takeWhile fun node => node.parent ≤ k.toNat) =
        l.nodes.take (l.entries.takeWhile fun entry => entry.parentIdx ≤ k).length ∧
      (l.nodes.dropWhile fun node => node.parent ≤ k.toNat) =
        l.nodes.drop (l.entries.takeWhile fun entry => entry.parentIdx ≤ k).length := by
  have sized : (l.nodes.takeWhile fun node => node.parent ≤ k.toNat).length =
      (l.entries.takeWhile fun entry => entry.parentIdx ≤ k).length := by
    have same := congrArg (fun parents => (parents.takeWhile (· ≤ k.toNat)).length) (nodes_parents aligned)
    simp only [List.takeWhile_map, List.length_map] at same
    exact same
  have parts := List.takeWhile_append_dropWhile (p := fun node : Node => node.parent ≤ k.toNat) (l := l.nodes)
  constructor
  · conv_rhs => rw [← parts]
    exact (List.take_left' sized).symm
  · conv_rhs => rw [← parts]
    exact (List.drop_left' sized).symm

theorem push_aligned (aligned : l.Aligned) (entry : Entry) : (l.push entry).Aligned := by
  rw [Aligned, push, List.length_append, List.length_append, aligned]
  rfl

theorem push_nodes (aligned : l.Aligned) (entry : Entry) :
    (l.push entry).nodes = l.nodes ++ [entry.node none] :=
  List.zipWith_append (Eq.symm aligned)

theorem insert_at_ok (aligned : l.Aligned) (position : Nat) (bound : position ≤ l.entries.length)
    (entry : Entry) : ∃ next, l.insertAt position entry = .ok next ∧ next.Aligned ∧
      next.nodes = l.nodes.take position ++ entry.node none :: l.nodes.drop position := by
  have same : l.worlds.length = l.entries.length := aligned
  refine ⟨⟨l.entries.take position ++ entry :: l.entries.drop position,
    l.worlds.take position ++ none :: l.worlds.drop position⟩, ?_, ?_, ?_⟩
  · simp only [insertAt, Checked.insertAt, Checked.part_ok bound, Checked.part_ok (same ▸ bound), Checked.ok_bind,
      Checked.pure_eq_ok]
  · simp [Aligned, same]
  · rw [nodes, List.zipWith_append (by simp [same]), List.zipWith_cons_cons, nodes, List.take_zipWith,
      List.drop_zipWith]

end Level

namespace Entry

theorem shift_ok (position : Nat) (entry : Entry) :
    Ensures (fun fault => fault = .sumOverflow ∧ entry.parentIdx.toNat + 1 = UInt32.size)
      (entry.shift position) fun next => ∀ world, next.node world = (entry.node world).shift position := by
  rw [shift]
  by_cases later : position ≤ entry.parentIdx.toNat
  · rw [if_pos later]
    refine ensures_bind _ (next32_ok entry.parentIdx) fun next moved world => ?_
    rw [Node.shift, node, node, if_pos later, moved]
  · rw [if_neg later]
    exact fun world => (if_neg later).symm

end Entry

namespace Level

variable {l : Level}

theorem shift_ok (aligned : l.Aligned) (position : Nat) :
    Ensures (fun fault => fault = .sumOverflow ∧ ∃ node ∈ l.nodes, node.parent + 1 = UInt32.size)
      (l.shift position) fun next => next.Aligned ∧ next.nodes = l.nodes.map (Node.shift position) := by
  have each (entry : Entry) (member : entry ∈ l.entries) :
      Ensures (fun fault => fault = .sumOverflow ∧ ∃ node ∈ l.nodes, node.parent + 1 = UInt32.size)
        (entry.shift position) fun next =>
          ∀ world, next.node world = (entry.node world).shift position := by
    refine ensures_mono (Entry.shift_ok position entry) ?_ fun _ moved => moved
    rintro fault ⟨rfl, last⟩
    have listed := List.mem_map_of_mem (f := fun entry : Entry => entry.parentIdx.toNat) member
    rw [← nodes_parents aligned] at listed
    obtain ⟨node, inside, same⟩ := List.mem_map.mp listed
    exact ⟨rfl, node, inside, same ▸ last⟩
  refine ensures_bind _ (ensures_mapM _ each) fun entries moved => ⟨?_, ?_⟩
  · exact Eq.trans aligned moved.length_eq
  · show List.zipWith Entry.node entries l.worlds = (List.zipWith Entry.node l.entries l.worlds).map _
    generalize l.worlds = worlds
    generalize l.entries = old at moved
    induction moved generalizing worlds with
    | nil => rfl
    | cons first rest ih =>
        cases worlds with
        | nil => rfl
        | cons world worlds => exact congrArg₂ List.cons (first world) (ih worlds)

end Level

namespace Hierarchy

def Aligned (h : Hierarchy) : Prop := ∀ level ∈ h.levels, level.Aligned

variable {h next : Hierarchy} {store : Store} {directory : Directory} {e : Entity}

theorem aligned_at (aligned : h.Aligned) (depth : Nat) : (h.levels.getD depth .empty).Aligned := by
  rw [List.getD_eq_getElem?_getD]
  cases found : h.levels[depth]? with
  | none => rfl
  | some level => exact aligned level (List.mem_of_getElem? found)

theorem tree_level (h : Hierarchy) (depth : Nat) :
    h.tree.level depth = (h.levels.getD depth .empty).nodes := by
  rw [Tree.level, tree, List.getD_eq_getElem?_getD, List.getElem?_map, List.getD_eq_getElem?_getD]
  cases h.levels[depth]? <;> rfl

theorem tree_entities (aligned : h.Aligned) (depth : Nat) :
    (h.tree.level depth).map Node.entity = (h.level depth).map Entry.entity := by
  rw [tree_level, Level.nodes_entities (aligned_at aligned depth)]
  rfl

theorem length_tree_level (aligned : h.Aligned) (depth : Nat) :
    (h.tree.level depth).length = (h.level depth).length := by
  rw [tree_level, Level.length_nodes (aligned_at aligned depth)]
  rfl

def Readable (store : Store) (directory : Directory) : Prop :=
  ∀ e, parentOf store directory e = .ok (parentOf? store directory e)

section Insertion

theorem modify_level_ok (f : Level → Checked Level) (g : List Node → List Node) (depth : Nat)
    (levels : List Level) {level : Level} (changed : f (levels.getD depth .empty) = .ok level)
    (nodes : level.nodes = g (levels.getD depth .empty).nodes) (aligned : level.Aligned)
    (others : ∀ other ∈ levels, other.Aligned) :
    ∃ final, modifyLevel f depth levels = .ok final ∧ final[depth + 1]? = levels[depth + 1]? ∧
      (∀ other ∈ final, other.Aligned) ∧
      final.map Level.nodes = Tree.modifyLevel g depth (levels.map Level.nodes) := by
  induction depth, levels using modifyLevel.induct with
  | case1 =>
      have here : f .empty = .ok level := changed
      refine ⟨[level], by simp only [modifyLevel, here, ok_bind, pure_eq_ok], rfl, ?_, ?_⟩
      · exact fun other single => List.mem_singleton.mp single ▸ aligned
      · exact congrArg (· :: []) nodes
  | case2 first rest =>
      have here : f first = .ok level := changed
      refine ⟨level :: rest, by simp only [modifyLevel, here, ok_bind, pure_eq_ok], rfl, ?_, ?_⟩
      · exact List.forall_mem_cons.mpr ⟨aligned, (List.forall_mem_cons.mp others).2⟩
      · exact congrArg (· :: rest.map Level.nodes) nodes
  | case3 depth ih =>
      obtain ⟨final, done, below, alignedRest, same⟩ := ih changed nodes others
      refine ⟨.empty :: final, by simp only [modifyLevel, done, ok_bind, pure_eq_ok], ?_, ?_, ?_⟩
      · exact below
      · exact List.forall_mem_cons.mpr ⟨rfl, alignedRest⟩
      · exact congrArg ([] :: ·) same
  | case4 depth first rest ih =>
      obtain ⟨head, tail⟩ := List.forall_mem_cons.mp others
      obtain ⟨final, done, below, alignedRest, same⟩ := ih changed nodes tail
      refine ⟨first :: final, by simp only [modifyLevel, done, ok_bind, pure_eq_ok], below, ?_, ?_⟩
      · exact List.forall_mem_cons.mpr ⟨head, alignedRest⟩
      · exact congrArg (first.nodes :: ·) same

theorem note_slots_eq (slots : Table Entity (Nat × Nat)) (depth position : Nat) (entries : List Entry)
    (nodes : List Node) (same : nodes.map Node.entity = entries.map Entry.entity) :
    Tree.noteSlots slots depth position nodes = noteSlots slots depth position entries := by
  induction entries generalizing slots position nodes with
  | nil => rw [List.map_eq_nil_iff.mp same]; rfl
  | cons entry rest ih =>
      cases nodes with
      | nil => contradiction
      | cons node others =>
          obtain ⟨first, behind⟩ := List.cons.inj same
          rw [Tree.noteSlots, noteSlots, first, ih _ _ others behind]

theorem shift_level_ok (levels : List Level) (depth position : Nat)
    (aligned : ∀ level ∈ levels, level.Aligned) :
    Ensures (fun fault => fault = .sumOverflow ∧
        ∃ level, levels[depth]? = some level ∧ ∃ node ∈ level.nodes, node.parent + 1 = UInt32.size)
      (shiftLevel levels depth position) fun final => (∀ level ∈ final, level.Aligned) ∧
        final.map Level.nodes = (levels.map Level.nodes).modify depth (List.map (Node.shift position)) := by
  rw [shiftLevel, List.modify_eq_set_getElem?, List.getElem?_map]
  cases found : levels[depth]? with
  | none => exact ⟨aligned, rfl⟩
  | some level =>
      have member := List.mem_of_getElem? found
      refine ensures_bind _ (ensures_mono (Level.shift_ok (aligned level member) position) ?_ fun _ moved => moved)
        fun final moved => ⟨fun other listed => ?_, ?_⟩
      · rintro fault ⟨rfl, last⟩
        exact ⟨rfl, level, rfl, last⟩
      · cases List.mem_or_eq_of_mem_set listed with
        | inl old => exact aligned other old
        | inr new => exact new ▸ moved.1
      · rw [List.map_set, moved.2]
        rfl

theorem insert_root_ok (aligned : h.Aligned) (e : Entity) :
    ∃ next, h.insertRoot e = .ok next ∧ next.Aligned ∧ next.tree = h.tree.insertRoot e := by
  have first := aligned_at aligned 0
  obtain ⟨levels, done, -, final, same⟩ := modify_level_ok (fun level => .ok (level.push ⟨0, e⟩))
    (· ++ [⟨0, e, none⟩]) 0 h.levels rfl (Level.push_nodes first _) (Level.push_aligned first _) aligned
  refine ⟨{ h with levels, slots := h.slots.insert e (0, (h.level 0).length) }, ?_, final, ?_⟩
  · simp only [insertRoot, done, ok_bind, pure_eq_ok]
  · rw [Tree.insertRoot, length_tree_level aligned, tree, same]
    rfl

theorem insert_at_ok (aligned : h.Aligned) (depth position : Nat) (bound : position ≤ (h.level depth).length)
    (entry : Entry) :
    Ensures (fun fault => fault = .sumOverflow ∧
        ∃ node ∈ h.tree.level (depth + 1), node.parent + 1 = UInt32.size)
      (h.insertAt depth position entry) fun next => next.Aligned ∧
        next.tree = h.tree.insertBetween depth ((h.tree.level depth).take position) (entry.node none)
          ((h.tree.level depth).drop position) := by
  have here := aligned_at aligned depth
  obtain ⟨level, put, alignedLevel, nodes⟩ := Level.insert_at_ok here position bound entry
  obtain ⟨levels, done, below, final, same⟩ := modify_level_ok (fun level => level.insertAt position entry)
    (fun _ => level.nodes) depth h.levels put rfl alignedLevel aligned
  have sized : ((h.tree.level depth).take position).length = position := by
    rw [List.length_take, length_tree_level aligned, Nat.min_eq_left bound]
  have slots : Tree.noteSlots h.slots depth position (entry.node none :: (h.tree.level depth).drop position) =
      noteSlots h.slots depth position (entry :: (h.level depth).drop position) := by
    refine note_slots_eq _ _ _ _ _ (congrArg (entry.entity :: ·) ?_)
    rw [List.map_drop, tree_entities aligned, List.map_drop]
  simp only [insertAt, done, ok_bind]
  refine ensures_bind _ (ensures_mono (shift_level_ok levels (depth + 1) position final) ?_ fun _ moved => moved)
    fun shifted moved => ⟨moved.1, ?_⟩
  · rintro fault ⟨rfl, level, found, last⟩
    rw [below] at found
    refine ⟨rfl, ?_⟩
    rw [tree_level, List.getD_eq_getElem?_getD, found]
    exact last
  · rw [Tree.insertBetween, sized, tree_level, ← nodes, tree, moved.2, same, ← slots, tree_level]
    rfl

theorem insert_below_ok (aligned : h.Aligned) (e : Entity) (depth parent : Nat) :
    Ensures (fun fault => fault = .sumOverflow ∧
        ∃ node ∈ h.tree.level (depth + 1), node.parent + 1 = UInt32.size)
      (h.insertBelow e depth parent) fun next => next.Aligned ∧
        next.tree = h.tree.insertBelow e depth (clip parent).toNat := by
  obtain ⟨early, late⟩ := Level.split_nodes (aligned_at aligned depth) (clip parent)
  rw [Tree.insertBelow, tree_level h depth, early, late, ← tree_level]
  exact insert_at_ok aligned depth _ (List.takeWhile_sublist _).length_le ⟨clip parent, e⟩

theorem insert_one_ok (aligned : h.Aligned) (e : Entity) (parent : Option Entity) :
    Ensures (fun fault => fault = .sumOverflow ∧
        ∃ depth, ∃ node ∈ h.tree.level depth, node.parent + 1 = UInt32.size)
      (h.insertOne e parent) fun next => next.Aligned ∧ next.tree = h.tree.insertOne e parent := by
  have slots : h.tree.slots = h.slots := rfl
  rw [insertOne, Tree.insertOne, slots]
  cases parent.bind h.slots.find? with
  | none =>
      obtain ⟨next, done, final⟩ := insert_root_ok aligned e
      exact ensures_of_eq done final
  | some place =>
      refine ensures_mono (insert_below_ok aligned e (place.1 + 1) place.2) ?_ fun _ final => final
      rintro fault ⟨stopped, last⟩
      exact ⟨stopped, _, last⟩

theorem insert_path_ok {log : Lineage} (aligned : h.Aligned) (traces : h.tree.Traces log)
    (readable : Readable store directory) (path : List Entity) (distinct : path.Nodup)
    (strangers : ∀ e ∈ path, h.contains e = false) :
    Ensures (fun fault => fault = .sumOverflow ∧ ¬ (h.tree.graft (parentOf? store directory) path).Narrow)
      (h.insertPath store directory path) fun next => next.Aligned ∧
        next.tree = h.tree.graft (parentOf? store directory) path := by
  induction path with
  | nil => exact ⟨aligned, rfl⟩
  | cons e rest ih =>
      have distinct := (List.nodup_cons.mp distinct).2
      have strangers (x : Entity) (member : x ∈ rest) := strangers x (List.mem_cons_of_mem e member)
      have wider (wide : ¬ (h.tree.graft (parentOf? store directory) rest).Narrow) :
          ¬ (h.tree.graft (parentOf? store directory) (e :: rest)).Narrow := fun narrow =>
        wide fun depth => Nat.lt_of_le_of_lt (Tree.grafted_length _ _ [e] depth) (narrow depth)
      refine ensures_bind _ (ensures_mono (ih distinct strangers) ?_ fun _ grown => grown) ?_
      · rintro fault ⟨stopped, wide⟩
        exact ⟨stopped, wider wide⟩
      · rintro middle ⟨alignedMiddle, same⟩
        rw [readable e]
        refine ensures_mono (insert_one_ok alignedMiddle e (parentOf? store directory e)) ?_ ?_
        · rintro fault ⟨stopped, last⟩
          rw [same] at last
          exact ⟨stopped, wider ((Tree.graft_traces _ rest traces distinct strangers).wide last)⟩
        · rintro next ⟨alignedNext, grown⟩
          exact ⟨alignedNext, grown.trans (by rw [same]; rfl)⟩

theorem climb_eq (h : Hierarchy) (readable : Readable store directory) (unvisited path : List Entity)
    (current : Entity) : h.climb store directory unvisited path current =
      .ok (h.tree.climb store directory unvisited path current) := by
  induction unvisited, path, current using Tree.climb.induct h.tree store directory with
  | case1 unvisited path current orphan =>
      rw [climb, Tree.climb, readable, orphan]
  | case2 unvisited path current parent named alive unmet member =>
      have inside : h.contains parent = true := member
      rw [climb, Tree.climb, readable, named]
      simp only [if_pos alive, dif_pos unmet, if_pos member, if_pos inside]
  | case3 unvisited path current parent named alive unmet stranger ih =>
      have outside : ¬ h.contains parent = true := stranger
      rw [climb, Tree.climb, readable, named]
      simp only [if_pos alive, dif_pos unmet, if_neg stranger, if_neg outside, ih]
  | case4 unvisited path current parent named alive met =>
      rw [climb, Tree.climb, readable, named]
      simp only [if_pos alive, dif_neg met]
  | case5 unvisited path current parent named dead =>
      rw [climb, Tree.climb, readable, named]
      simp only [if_neg dead]

-- An insertion comes to what it comes to in the tree, unless a position is needed that does not fit.
def Comes (h : Hierarchy) (store : Store) (directory : Directory) (e : Entity) (outcome : Outcome Hierarchy) :
    Prop :=
  ∃ next : Hierarchy, outcome = (h.tree.ascent store directory e).map (fun _ => next) ∧ next.Aligned ∧
    next.tree = h.tree.tried store directory e ∧ (h.tree.joining store directory e = [] → next = h)

theorem comes_refused (aligned : h.Aligned) {error : StoreError}
    (risen : h.tree.ascent store directory e = .error error) : h.Comes store directory e (.error error) := by
  refine ⟨h, by rw [risen]; rfl, aligned, ?_, fun _ => rfl⟩
  rw [Tree.tried, Tree.joining_error risen]
  rfl

theorem comes_member (aligned : h.Aligned) (risen : h.tree.ascent store directory e = .ok []) :
    h.Comes store directory e (.ok h) := by
  refine ⟨h, by rw [risen]; rfl, aligned, ?_, fun _ => rfl⟩
  rw [Tree.tried, Tree.joining_ok risen]
  rfl

theorem insert_path_tried {log : Lineage} (aligned : h.Aligned) (traces : h.tree.Traces log)
    (sound : directory.Sound) (readable : Readable store directory) {path : List Entity}
    (risen : h.tree.ascent store directory e = .ok path) :
    Ensures (fun fault => fault = .sumOverflow ∧ ¬ (h.tree.tried store directory e).Narrow)
      (h.insertPath store directory path) fun next => next.Aligned ∧
        next.tree = h.tree.tried store directory e := by
  obtain ⟨route, _⟩ := Tree.joining_route sound h.tree store e
  rw [Tree.joining_ok risen] at route
  rw [Tree.tried, Tree.joining_ok risen]
  exact insert_path_ok aligned traces readable path route.nodup route.strangers

theorem insert_ok {log : Lineage} (aligned : h.Aligned) (traces : h.tree.Traces log)
    (sound : directory.Sound) (readable : Readable store directory) (e : Entity) :
    Ensures (fun fault => fault = .sumOverflow ∧ ¬ (h.tree.tried store directory e).Narrow)
      (h.insert store directory e) (h.Comes store directory e) := by
  rw [insert]
  have ascent := Tree.ascent.eq_def h.tree store directory e
  by_cases alive : directory.isAlive e = true
  · rw [if_pos alive] at ascent ⊢
    by_cases member : h.contains e = true
    · have inside : h.tree.contains e = true := member
      rw [if_pos inside] at ascent
      rw [if_pos member]
      exact comes_member aligned ascent
    · have outside : ¬ h.tree.contains e = true := member
      rw [if_neg outside] at ascent
      rw [if_neg member, climb_eq h readable, ok_bind]
      cases climbed : h.tree.climb store directory (directory.handles.erase e) [e] e with
      | error error =>
          rw [climbed] at ascent
          exact comes_refused aligned ascent
      | ok whole =>
          rw [climbed] at ascent
          simp only at ascent ⊢
          cases lacking : whole.find? fun member => !hasTransform store directory member with
          | some missing =>
              rw [lacking] at ascent
              exact comes_refused aligned ascent
          | none =>
              rw [lacking] at ascent
              refine ensures_bind _ (insert_path_tried aligned traces sound readable ascent) fun next grown => ?_
              refine ⟨next, by rw [ascent]; rfl, grown.1, grown.2, fun idle => ?_⟩
              -- A climb passes at least the entity that it starts from.
              have passed := (Tree.joining_ok ascent).symm.trans idle
              exact absurd (passed ▸ Tree.climb_start List.mem_cons_self climbed) List.not_mem_nil
  · rw [if_neg alive] at ascent ⊢
    exact comes_refused aligned ascent

theorem flush_ok {log : Lineage} (aligned : h.Aligned) (traces : h.tree.Traces log) (sound : directory.Sound)
    (readable : Readable store directory) (pending : List Entity) :
    Ensures (fun fault => fault = .sumOverflow ∧ ¬ (Tree.flush store directory h.tree pending).Narrow)
      (flush store directory h pending) fun next => next.Aligned ∧
        next.tree = Tree.flush store directory h.tree pending := by
  induction pending generalizing h log with
  | nil => exact ⟨aligned, rfl⟩
  | cons e rest ih =>
      refine ensures_bind _ (ensures_mono (insert_ok aligned traces sound readable e) ?_ fun _ tried => tried) ?_
      · rintro fault ⟨stopped, wide⟩
        refine ⟨stopped, fun narrow => wide fun depth => ?_⟩
        exact Nat.lt_of_le_of_lt (Tree.flush_length store _ rest depth) (narrow depth)
      · rintro outcome ⟨next, rfl, alignedNext, same, idle⟩
        have after := Tree.tried_traces store sound traces e
        rw [← same] at after
        have final := ih alignedNext after
        rw [same] at final
        cases risen : h.tree.ascent store directory e with
        | error error =>
            obtain rfl := idle (Tree.joining_error risen)
            exact final
        | ok path => exact final

end Insertion

end Hierarchy

end EntityStore
