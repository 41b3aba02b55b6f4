import EntityStore.Proofs.Hierarchy.Passes
import EntityStore.Proofs.Hierarchy.Survivors

set_option autoImplicit false

namespace EntityStore

namespace Hierarchy

open Checked

variable {h next last : Hierarchy} {log : Lineage} {store : Store} {directory : Directory} {e : Entity}

structure Records (h : Hierarchy) (log : Lineage) : Prop where
  aligned : h.Aligned
  traces : h.tree.Traces log

def Sound (h : Hierarchy) : Prop := ∃ log, h.Records log

theorem records_empty (pending : List Entity) : Records { empty with pending } [] :=
  ⟨fun _ member => by contradiction, Tree.traces_empty .empty pending⟩

-- Every level has fewer entries than there are positions of 32 bits.
def Narrow (h : Hierarchy) : Prop := ∀ depth, (h.level depth).length < UInt32.size

theorem narrow_tree (aligned : h.Aligned) : h.tree.Narrow ↔ h.Narrow :=
  forall_congr' fun depth => by rw [length_tree_level aligned]

def members (h : Hierarchy) : List Entity := h.levels.flatMap fun level => level.entries.map Entry.entity

theorem members_tree (aligned : h.Aligned) : h.tree.levels.flatten.map Node.entity = h.members := by
  rw [tree, List.map_flatten, List.map_map, ← List.flatMap_def, members]
  exact List.flatMap_congr fun level member => Level.nodes_entities (aligned level member)

namespace Records

variable (records : Records h log)

include records

theorem mem_members (e : Entity) : e ∈ h.members ↔ h.contains e = true := by
  rw [← members_tree records.aligned]
  exact records.traces.mem_flatten_iff e

theorem nodup_members : h.members.Nodup := by
  rw [← members_tree records.aligned]
  exact records.traces.nodup_flatten

theorem peers_at (depth position : Nat) :
    (log.peers depth)[position]? = ((h.level depth)[position]?).map Entry.entity := by
  rw [← records.traces.entities, tree_entities records.aligned, List.getElem?_map]

theorem place_at {depth position : Nat} {entry : Entry} (found : (h.level depth)[position]? = some entry) :
    (log.generation depth)[position]? = some (entry.parentIdx.toNat, entry.entity) := by
  rw [← records.traces.levels, tree_level, Level.nodes_map Node.place
    (fun entry => (entry.parentIdx.toNat, entry.entity)) (aligned_at records.aligned depth) fun _ _ => rfl,
    List.getElem?_map]
  exact congrArg _ found

end Records

section Lookups

def above? (h : Hierarchy) (e : Entity) : Option Entity :=
  match h.slots.find? e with
  | some (depth + 1, position) => do
    let entry ← (h.level (depth + 1))[position]?
    let above ← (h.level depth)[entry.parentIdx.toNat]?
    return above.entity
  | _ => none

theorem contains_tree (h : Hierarchy) (e : Entity) : h.tree.contains e = h.contains e := rfl

theorem above_tree (aligned : h.Aligned) (e : Entity) : h.tree.above? e = h.above? e := by
  have entities (depth position : Nat) : ((h.tree.level depth)[position]?).map Node.entity =
      ((h.level depth)[position]?).map Entry.entity := by
    rw [← List.getElem?_map, tree_entities aligned, List.getElem?_map]
  have parents (depth position : Nat) : ((h.tree.level depth)[position]?).map Node.parent =
      ((h.level depth)[position]?).map fun entry => entry.parentIdx.toNat := by
    rw [← List.getElem?_map, tree_level, Level.nodes_parents (aligned_at aligned depth), List.getElem?_map]
    rfl
  rw [Tree.above?, above?]
  have slots : h.tree.slots = h.slots := rfl
  rw [slots]
  rcases h.slots.find? e with _ | ⟨_ | depth, position⟩
  · rfl
  · rfl
  · have upward := parents (depth + 1) position
    simp only
    cases there : (h.tree.level (depth + 1))[position]? with
    | none =>
        rw [there] at upward
        rw [Option.map_eq_none_iff.mp upward.symm]
        rfl
    | some node =>
        rw [there] at upward
        obtain ⟨entry, found, same⟩ := Option.map_eq_some_iff.mp upward.symm
        have named := entities depth node.parent
        rw [← same] at named
        rw [found]
        simp only [Option.bind_eq_bind, Option.bind_some, ← same]
        exact (Option.map_eq_bind ..).symm.trans (named.trans (Option.map_eq_bind ..))

theorem world_tree (aligned : h.Aligned) (e : Entity) : h.tree.world? e = h.world? e := by
  have slots : h.tree.slots = h.slots := rfl
  rw [Tree.world?, Tree.node?, world?, slots]
  cases h.slots.find? e with
  | none => rfl
  | some slot =>
      obtain ⟨depth, position⟩ := slot
      have worlds := congrArg (fun worlds : List (Option Mat4) => (worlds[position]?).join)
        (Level.nodes_worlds (aligned_at aligned depth))
      simp only [List.getElem?_map] at worlds
      simp only [Option.bind_eq_bind, Option.bind_some]
      rw [tree_level]
      rw [List.getD_eq_getElem?_getD] at worlds ⊢
      revert worlds
      cases h.levels[depth]? with
      | none => exact fun _ => rfl
      | some level =>
          intro worlds
          have join : (level.nodes[position]?).bind Node.world = ((level.nodes[position]?).map Node.world).join := by
            cases level.nodes[position]? <;> rfl
          exact join.trans worlds

theorem Records.filled (records : h.Records log) (level : Level) (member : level ∈ h.levels) :
    level.entries ≠ [] := by
  intro empty
  have nodes := records.traces.filled level.nodes (List.mem_map_of_mem member)
  have length := Level.length_nodes (records.aligned level member)
  rw [empty] at length
  exact nodes (List.length_eq_zero_iff.mp length)

theorem Records.depth_eq (records : h.Records log) : h.depth = h.levels.length := by
  rw [depth, List.takeWhile_eq_self_iff.mpr]
  intro level member
  simpa using records.filled level member

end Lookups

structure Forest (h : Hierarchy) (log : Lineage) : Prop where
  once : log.members.Nodup
  member : ∀ e, h.contains e = true ↔ e ∈ log.members
  -- The slots are the inverse of the levels, so nobody is at two places.
  placed : ∀ e depth position, h.slots.find? e = some (depth, position) ↔
    ((h.level depth)[position]?).map Entry.entity = some e
  root : ∀ e, (∃ position, h.slots.find? e = some (0, position)) ↔ (e, none) ∈ log
  hangs : ∀ (depth position : Nat) (entry : Entry), (h.level (depth + 1))[position]? = some entry →
    ∃ above : Entry, (h.level depth)[entry.parentIdx.toNat]? = some above ∧
      (entry.entity, some above.entity) ∈ log
  sorted : ∀ depth, ((h.level depth).map Entry.parentIdx).Pairwise (· ≤ ·)
  roots : (h.level 0).map Entry.entity = log.childrenOf none
  siblings : ∀ (depth position : Nat) (above : Entry), (h.level depth)[position]? = some above →
    ((h.level (depth + 1)).filter fun entry => entry.parentIdx.toNat = position).map Entry.entity =
      log.childrenOf (some above.entity)
  worlds : ∀ level ∈ h.levels, level.worlds.length = level.entries.length
  -- The world of a member is the one at its own position.
  world : ∀ (depth position : Nat) (level : Level) (entry : Entry), h.levels[depth]? = some level →
    level.entries[position]? = some entry → h.world? entry.entity = (level.worlds[position]?).join
  filled : ∀ level ∈ h.levels, level.entries ≠ []

theorem Records.forest (records : h.Records log) : h.Forest log := by
  have traces := records.traces
  have peers := records.peers_at
  have slots (e : Entity) (depth position : Nat) : h.slots.find? e = some (depth, position) ↔
      (log.peers depth)[position]? = some e := traces.slots e depth position
  have places (depth : Nat) : log.generation depth =
      (h.level depth).map fun entry => (entry.parentIdx.toNat, entry.entity) := by
    rw [← traces.levels, tree_level]
    exact Level.nodes_map _ _ (aligned_at records.aligned depth) fun _ _ => rfl
  refine ⟨traces.grown.nodup, traces.contains_iff, fun e depth position => ?_, fun e => ?_,
    fun depth position entry found => ?_, fun depth => ?_, ?_, fun depth position above found => ?_,
    records.aligned, fun depth position level entry listed found => ?_, records.filled⟩
  · rw [slots, peers]
  · simp only [slots]
    rw [← List.mem_iff_getElem?, Lineage.mem_peers_zero]
  · have listed := List.mem_of_getElem? (records.place_at found)
    obtain ⟨parent, there, hangs⟩ := (Lineage.mem_generation_succ log depth _ _).mp listed
    rw [peers] at there
    obtain ⟨above, inside, rfl⟩ := Option.map_eq_some_iff.mp there
    exact ⟨above, inside, hangs⟩
  · have sorted := Lineage.generation_sorted log depth
    rw [places, List.map_map, List.pairwise_map] at sorted
    rw [List.pairwise_map]
    exact sorted.imp UInt32.le_iff_toNat_le.mpr
  · have top := congrArg (List.map Prod.snd) (places 0)
    rw [List.map_map] at top
    rw [Lineage.generation, List.map_map] at top
    exact top.symm.trans (List.map_id _)
  · have there : (log.peers depth)[position]? = some above.entity := by
      rw [peers, found, Option.map_some]
    have children := Lineage.below_at log 0 position (log.peers depth) there
    rw [← Lineage.generation_succ, places, Nat.zero_add, List.filter_map] at children
    have names := congrArg (List.map Prod.snd) children
    rw [List.map_map, List.map_map] at names
    exact names.trans (List.map_id _)
  · have here : (h.level depth)[position]? = some entry := by
      rw [Hierarchy.level, List.getD_eq_getElem?_getD, listed]
      exact found
    have slot := (slots entry.entity depth position).mpr (by rw [peers, here, Option.map_some])
    simp [world?, slot, listed]

section Comparison

structure Unmoved (h next : Hierarchy) (e : Entity) : Prop where
  depth : next.depthOf? e = h.depthOf? e
  parent : next.above? e = h.above? e
  world : next.world? e = h.world? e
  previous : next.previous? e = h.previous? e

theorem unmoved_of_tree (aligned : h.Aligned) (others : next.Aligned) (unmoved : h.tree.Unmoved next.tree e) :
    Unmoved h next e := by
  refine ⟨unmoved.depth, ?_, ?_, unmoved.previous⟩
  · rw [← above_tree aligned, ← above_tree others, unmoved.parent]
  · rw [← world_tree aligned, ← world_tree others, unmoved.world]

theorem Unmoved.contains (unmoved : Unmoved h next e) : next.contains e = h.contains e := by
  have depth : next.tree.depthOf? e = h.tree.depthOf? e := unmoved.depth
  exact Tree.contains_of_depth depth

structure Agrees (one other : Hierarchy) : Prop where
  members : ∀ e, one.contains e = other.contains e
  depths : ∀ e, one.depthOf? e = other.depthOf? e
  parents : ∀ e, one.above? e = other.above? e
  levels : ∀ depth, ((one.level depth).map Entry.entity).Perm ((other.level depth).map Entry.entity)

theorem agrees_of_tree (aligned : h.Aligned) (others : next.Aligned) (agrees : h.tree.Agrees next.tree) :
    Agrees h next := by
  refine ⟨agrees.members, agrees.depths, fun e => ?_, fun depth => ?_⟩
  · rw [← above_tree aligned, ← above_tree others, agrees.parents]
  · rw [← tree_entities aligned, ← tree_entities others]
    exact agrees.levels depth

def Hangs (h : Hierarchy) (child parent : Entity) : Prop := h.above? child = some parent

theorem hangs_tree (aligned : h.Aligned) : h.tree.Hangs = h.Hangs :=
  funext fun child => funext fun parent => congrArg (· = some parent) (above_tree aligned child)

end Comparison

section Growth

theorem records_of_entries (records : h.Records log) (aligned : next.Aligned)
    (entries : next.levels.map Level.entries = h.levels.map Level.entries) (slots : next.slots = h.slots) :
    next.Records log := by
  have traces := records.traces
  have level (depth : Nat) : next.level depth = h.level depth := by
    have same := congrArg (fun levels : List (List Entry) => levels[depth]?.getD []) entries
    simp only [List.getElem?_map] at same
    rw [Hierarchy.level, Hierarchy.level, List.getD_eq_getElem?_getD, List.getD_eq_getElem?_getD]
    revert same
    cases next.levels[depth]? <;> cases h.levels[depth]? <;> exact fun same => same
  have places (h : Hierarchy) (aligned : h.Aligned) (depth : Nat) : (h.tree.level depth).map Node.place =
      (h.level depth).map fun entry => (entry.parentIdx.toNat, entry.entity) := by
    rw [tree_level]
    exact Level.nodes_map _ _ (aligned_at aligned depth) fun _ _ => rfl
  have slotsTree : next.tree.slots = h.tree.slots := slots
  refine ⟨aligned, traces.grown, fun depth => ?_, slotsTree ▸ traces.slots, fun nodes member empty => ?_⟩
  · rw [places next aligned, level, ← places h records.aligned]
    exact traces.levels depth
  · obtain ⟨level, inside, rfl⟩ := List.mem_map.mp member
    have listed := List.mem_map_of_mem (f := Level.entries) inside
    rw [entries] at listed
    obtain ⟨old, before, same⟩ := List.mem_map.mp listed
    have length := Level.length_nodes (aligned level inside)
    rw [empty, ← same] at length
    exact records.filled old before (List.length_eq_zero_iff.mp length.symm)

theorem sound_queue (sound : h.Sound) (e : Entity) : (h.queue e).Sound := by
  obtain ⟨log, records⟩ := sound
  exact ⟨log, records_of_entries records records.aligned rfl rfl⟩

def way (h : Hierarchy) (store : Store) (directory : Directory) (e : Entity) : List Entity :=
  match h.climb store directory (directory.handles.erase e) [e] e with
  | .ok (.ok path) => path
  | _ => []

def grafts (h : Hierarchy) (store : Store) (directory : Directory) (e : Entity) : Lineage :=
  match h.insert store directory e with
  | .ok (.ok _) =>
    if h.contains e then [] else .chain (parentOf? store directory) (h.way store directory e).reverse
  | _ => []

def flushed (store : Store) (directory : Directory) : Hierarchy → Lineage → List Entity → Lineage
  | _, log, [] => log
  | h, log, e :: rest =>
    match h.insert store directory e with
    | .ok (.ok next) => flushed store directory next (log ++ h.grafts store directory e) rest
    | _ => flushed store directory h log rest

def closed (store : Store) (directory : Directory) (h : Hierarchy) (log : Lineage) : Lineage :=
  match h.prune directory with
  | .error _ => log
  | .ok pruned =>
    flushed store directory { pruned with pending := [] } (log.pruned directory.isAlive) h.pending

theorem insert_done (records : h.Records log) (sound : directory.Sound) (readable : Readable store directory)
    {outcome : Outcome Hierarchy} (inserted : h.insert store directory e = .ok outcome) : ∃ next : Hierarchy,
      outcome = (h.tree.ascent store directory e).map (fun _ => next) ∧ next.Aligned ∧
        next.tree = h.tree.tried store directory e ∧ (h.tree.joining store directory e = [] → next = h) := by
  have done := insert_ok records.aligned records.traces sound readable e
  rw [inserted] at done
  exact done

theorem grafts_tree (records : h.Records log) (sound : directory.Sound) (readable : Readable store directory)
    {outcome : Outcome Hierarchy} (inserted : h.insert store directory e = .ok outcome) :
    h.grafts store directory e = h.tree.grafts store directory e := by
  obtain ⟨next, rfl, -, -, -⟩ := insert_done records sound readable inserted
  rw [grafts, inserted, Tree.grafts]
  cases risen : h.tree.ascent store directory e with
  | error error =>
      rw [Tree.joining_error risen]
      rfl
  | ok path =>
      rw [Tree.joining_ok risen]
      simp only [Except.map]
      rw [Tree.ascent] at risen
      by_cases member : h.contains e = true
      · have inside : h.tree.contains e = true := member
        rw [if_pos inside] at risen
        rw [if_pos member]
        split at risen
        · obtain rfl := Except.ok.inj risen
          rfl
        · contradiction
      · have outside : ¬ h.tree.contains e = true := member
        rw [if_neg outside] at risen
        rw [if_neg member, way, climb_eq h readable]
        split at risen
        · cases climbed : h.tree.climb store directory (directory.handles.erase e) [e] e with
          | error error =>
              rw [climbed] at risen
              contradiction
          | ok whole =>
              rw [climbed] at risen
              simp only at risen ⊢
              split at risen
              · contradiction
              · rw [Except.ok.inj risen]
        · contradiction

theorem insert_sound (records : h.Records log) (sound : directory.Sound) (readable : Readable store directory)
    (inserted : h.insert store directory e = .ok (.ok next)) :
    next.Records (log ++ h.tree.landed store directory e) := by
  obtain ⟨next', same, aligned, tree, -⟩ := insert_done records sound readable inserted
  cases risen : h.tree.ascent store directory e with
  | error error =>
      rw [risen] at same
      contradiction
  | ok path =>
      rw [risen] at same
      obtain rfl := Except.ok.inj same
      exact ⟨aligned, tree ▸ Tree.tried_traces store sound records.traces e⟩

theorem insert_records (records : h.Records log) (sound : directory.Sound) (readable : Readable store directory)
    (inserted : h.insert store directory e = .ok (.ok next)) (narrow : next.Narrow) :
    next.Records (log ++ h.grafts store directory e) := by
  have after := insert_sound records sound readable inserted
  obtain ⟨next', same, -, tree, -⟩ := insert_done records sound readable inserted
  cases risen : h.tree.ascent store directory e with
  | error error =>
      rw [risen] at same
      contradiction
  | ok path =>
      rw [risen] at same
      obtain rfl := Except.ok.inj same
      have fits := (narrow_tree after.aligned).mpr narrow
      rw [tree] at fits
      rw [grafts_tree records sound readable inserted, ← Tree.landed_eq sound records.traces e fits]
      exact after

theorem flushed_tree (records : h.Records log) (sound : directory.Sound) (readable : Readable store directory)
    {pending : List Entity} (done : flush store directory h pending = .ok next) (past : Lineage) :
    flushed store directory h past pending = Tree.flushed store directory h.tree past pending := by
  induction pending generalizing h log past with
  | nil => rfl
  | cons e rest ih =>
      obtain ⟨outcome, inserted, went⟩ := bind_ok_iff.mp done
      obtain ⟨middle, rfl, -, tree, idle⟩ := insert_done records sound readable inserted
      have grafts := grafts_tree records sound readable inserted
      rw [flushed, Tree.flushed, inserted]
      cases risen : h.tree.ascent store directory e with
      | error error =>
          have nobody := Tree.joining_error risen
          obtain rfl := idle nobody
          rw [risen] at went
          have none : middle.tree.grafts store directory e = [] := by
            rw [Tree.grafts, nobody]
            rfl
          rw [← tree, none, List.append_nil]
          exact ih records went past
      | ok path =>
          rw [risen] at inserted went
          rw [← tree, ← grafts]
          exact ih (insert_sound records sound readable inserted) went _

theorem prune_done (records : h.Records log) {pruned : Hierarchy} (done : h.prune directory = .ok pruned) :
    Records { pruned with pending := [] } (log.pruned directory.isAlive) ∧
      pruned.tree = h.tree.prune directory := by
  have same := prune_ok records.aligned directory
  rw [done] at same
  refine ⟨⟨same.1, ?_⟩, same.2⟩
  have cleared : ({ pruned with pending := [] } : Hierarchy).tree =
      { h.tree.prune directory with pending := [] } := by
    rw [← same.2]
    rfl
  rw [cleared]
  exact Tree.cleared_traces _ records.traces

theorem flush_done (records : h.Records log) (sound : directory.Sound) (readable : Readable store directory)
    {pending : List Entity} (done : flush store directory h pending = .ok next) :
    next.Aligned ∧ next.tree = Tree.flush store directory h.tree pending := by
  have same := flush_ok records.aligned records.traces sound readable pending
  rw [done] at same
  exact same

theorem flush_sound (records : h.Records log) (sound : directory.Sound) (readable : Readable store directory)
    {pending : List Entity} (done : flush store directory h pending = .ok next) : next.Sound := by
  obtain ⟨aligned, tree⟩ := flush_done records sound readable done
  obtain ⟨more, traces⟩ := Tree.flush_traced store sound records.traces pending
  exact ⟨log ++ more, aligned, tree ▸ traces⟩

theorem end_frame_sound (records : h.Records log) (sound : directory.Sound) (readable : Readable store directory)
    (done : h.endFrame store directory = .ok next) : next.Sound := by
  obtain ⟨pruned, sifted, went⟩ := bind_ok_iff.mp done
  exact flush_sound (prune_done records sifted).1 sound readable went

theorem end_frame_records (records : h.Records log) (sound : directory.Sound)
    (readable : Readable store directory) (done : h.endFrame store directory = .ok next) (narrow : next.Narrow) :
    next.Records (h.closed store directory log) := by
  obtain ⟨pruned, sifted, went⟩ := bind_ok_iff.mp done
  obtain ⟨recordsPruned, -⟩ := prune_done records sifted
  obtain ⟨aligned, tree⟩ := flush_done recordsPruned sound readable went
  refine ⟨aligned, ?_⟩
  have fits := (narrow_tree aligned).mpr narrow
  rw [tree] at fits ⊢
  rw [closed, sifted]
  simp only
  rw [flushed_tree recordsPruned sound readable went]
  exact Tree.flush_traces store sound recordsPruned.traces h.pending fits

theorem update_done (records : h.Records log) {final : Store}
    (done : h.update directory store = .ok (next, final)) :
    next.Records log ∧ h.tree.update directory store = .ok (next.tree, final) ∧
      next.levels.map Level.entries = h.levels.map Level.entries := by
  have same := update_alongside records.aligned directory store
  rw [done] at same
  generalize h.tree.update directory store = result at same ⊢
  obtain ⟨aligned, entries, tree, stored⟩ | _ := same
  refine ⟨records_of_entries records aligned entries ?_, congrArg Except.ok (Prod.ext tree stored), entries⟩
  obtain ⟨_, _, kept⟩ := bind_ok_iff.mp done
  exact (congrArg (fun result => result.1.slots) (Except.ok.inj kept)).symm

end Growth

end Hierarchy

end EntityStore
