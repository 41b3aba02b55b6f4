import EntityStore.Proofs.Scene.Updates
import Mathlib.Data.List.Perm.Subperm

set_option autoImplicit false

namespace EntityStore.Scene

open Checked Hierarchy

variable {s next : Scene} {e : Entity}

section Links

def link? (s : Scene) (e : Entity) : Option Entity :=
  match s.get e .child with
  | .ok (.ok child) =>
    if (Entity.ofBytes child.bytes).isInvalid then none else some (Entity.ofBytes child.bytes)
  | _ => none

theorem parent_of_ok (sound : s.Sound) (e : Entity) : parentOf s.store s.directory e = .ok (s.link? e) := by
  rw [parentOf, Directory.locate_spot_eq, link?]
  cases found : s.directory.location? e with
  | none =>
      rw [get_stale found]
      rfl
  | some l =>
      obtain ⟨b, t, home⟩ := home_of sound found
      simp only [get, home.block_of, home.read_component sound, ok_bind, Option.map_some, home.block]
      cases b.component? ComponentType.child l.row <;> rfl

theorem link_eq (sound : s.Sound) (e : Entity) : parentOf? s.store s.directory e = s.link? e := by
  rw [parentOf?, parent_of_ok sound]

theorem readable (sound : s.Sound) : Readable s.store s.directory := fun e => by
  rw [parentOf?, parent_of_ok sound]

end Links

section Room

theorem mem_roll (sound : s.Sound) (e : Entity) :
    e ∈ s.roll ↔ s.isAlive e = true ∨ s.hierarchy.contains e = true := by
  obtain ⟨log, records⟩ := sound.hierarchy
  rw [roll, List.mem_append, Directory.mem_handles sound.directory, List.mem_filter, records.mem_members]
  show s.isAlive e = true ∨ _ ↔ _
  cases s.isAlive e <;> simp

theorem nodup_roll (sound : s.Sound) : s.roll.Nodup := by
  obtain ⟨log, records⟩ := sound.hierarchy
  refine List.nodup_append.mpr ⟨Directory.nodup_handles sound.directory, records.nodup_members.filter _, ?_⟩
  rintro e living _ member rfl
  have dead := (List.mem_filter.mp member).2
  have alive : s.isAlive e = true := (Directory.mem_handles sound.directory e).mp living
  rw [alive] at dead
  contradiction

theorem narrow_of_few {tree : Tree} {log : Lineage} (few : s.roll.length < UInt32.size) (traces : tree.Traces log)
    (known : ∀ e, tree.contains e = true → e ∈ s.roll) : tree.Narrow := by
  intro depth
  refine Nat.lt_of_le_of_lt ?_ few
  have inside : (tree.level depth).map Node.entity ⊆ s.roll := by
    intro e listed
    obtain ⟨node, member, rfl⟩ := List.mem_map.mp listed
    exact known _ ((traces.mem_flatten_iff _).mp (List.mem_map_of_mem (Tree.mem_flatten_of_level member)))
  have distinct : ((tree.level depth).map Node.entity).Nodup := by
    rw [traces.entities]
    exact traces.grown.nodup_peers depth
  have fits := (distinct.subperm inside).length_le
  rwa [List.length_map] at fits

theorem tried_narrow (sound : s.Sound) (few : s.roll.length < UInt32.size) (e : Entity) :
    (s.hierarchy.tree.tried s.store s.directory e).Narrow := by
  obtain ⟨log, records⟩ := sound.hierarchy
  refine narrow_of_few few (Tree.tried_traces s.store sound.directory records.traces e) fun x member => ?_
  rw [mem_roll sound]
  exact ((Tree.tried_contains s.store sound.directory records.traces e x).mp member).symm.imp_left fun new =>
    (Tree.joining_fit sound.directory new).2.1

theorem flush_narrow (sound : s.Sound) (few : s.roll.length < UInt32.size) {tree : Tree} {log : Lineage}
    (traces : tree.Traces log) (known : ∀ e, tree.contains e = true → s.hierarchy.contains e = true)
    (es : List Entity) : (Tree.flush s.store s.directory tree es).Narrow := by
  obtain ⟨more, flushed⟩ := Tree.flush_traced s.store sound.directory traces es
  refine narrow_of_few few flushed ?_
  exact Tree.flush_members s.store sound.directory traces es (fun x member => (mem_roll sound x).mpr (Or.inr (known x member)))
    fun x alive => (mem_roll sound x).mpr (Or.inl alive)

theorem hierarchy_narrow (sound : s.Sound) (few : s.roll.length < UInt32.size) : s.hierarchy.Narrow := by
  obtain ⟨log, records⟩ := sound.hierarchy
  rw [← narrow_tree records.aligned]
  exact narrow_of_few few records.traces fun x member => (mem_roll sound x).mpr (Or.inr member)

theorem end_frame_narrow (sound : s.Sound) (few : s.roll.length < UInt32.size) :
    (s.hierarchy.tree.endFrame s.store s.directory).Narrow := by
  obtain ⟨log, records⟩ := sound.hierarchy
  exact flush_narrow sound few (Tree.cleared_traces _ records.traces)
    (fun x left => ((Tree.prune_contains_iff s.directory records.traces x).mp left).1) s.hierarchy.pending

end Room

section Insert

theorem hierarchy_insert_stale (gone : s.directory.location? e = none) :
    s.addToHierarchy e = .ok (.error (.staleEntity e), s) := by
  have dead : s.directory.isAlive e = false := by
    rw [Directory.alive_eq, gone]
    rfl
  simp only [addToHierarchy, Hierarchy.insert, dead, Bool.false_eq_true, if_false, ok_bind]
  rfl

structure Inserted (s : Scene) (e : Entity) (outcome : Outcome Unit) (next : Scene) : Prop where
  answer : outcome = s.hierarchy.tree.fate s.store s.directory e
  aligned : next.hierarchy.Aligned
  tree : next.hierarchy.tree = s.hierarchy.tree.tried s.store s.directory e
  refused : ∀ error, outcome = .error error → next = s
  idle : s.hierarchy.tree.joining s.store s.directory e = [] → next = s
  frame : next = { s with
    hierarchy := { s.hierarchy with levels := next.hierarchy.levels, slots := next.hierarchy.slots } }

theorem add_to_hierarchy_ok (sound : s.Sound) (e : Entity) :
    Ensures (fun fault => fault = .sumOverflow ∧ UInt32.size ≤ s.roll.length) (s.addToHierarchy e) fun (outcome, next) =>
      Inserted s e outcome next := by
  obtain ⟨log, records⟩ := sound.hierarchy
  have inserts := insert_ok records.aligned records.traces sound.directory (readable sound) e
  refine ensures_bind _ (ensures_mono inserts ?_ fun _ inserted => inserted) ?_
  · rintro fault ⟨stopped, wide⟩
    exact ⟨stopped, Nat.le_of_not_lt fun few => wide (tried_narrow sound few e)⟩
  · rintro outcome ⟨hierarchy, rfl, aligned, tree, idle⟩
    have rest := Tree.tried_rest s.hierarchy.tree s.store s.directory e
    cases risen : s.hierarchy.tree.ascent s.store s.directory e with
    | error error =>
        have nobody := Tree.joining_error risen
        obtain rfl := idle nobody
        refine ⟨?_, records.aligned, tree, fun _ _ => rfl, fun _ => rfl, rfl⟩
        rw [Tree.fate, risen]
        rfl
    | ok path =>
        refine ⟨?_, aligned, tree, fun _ refused => by contradiction, fun none => ?_, ?_⟩
        · rw [Tree.fate, risen]
          rfl
        · rw [idle none]
        · have previous : hierarchy.previous = s.hierarchy.previous := by
            have same := congrArg Tree.previous (tree.trans rest)
            exact same
          have pending : hierarchy.pending = s.hierarchy.pending := by
            have same := congrArg Tree.pending (tree.trans rest)
            exact same
          obtain ⟨levels, slots, _, _⟩ := hierarchy
          obtain rfl : _ = _ := previous
          obtain rfl : _ = _ := pending
          rfl

theorem Inserted.becomes {outcome : Outcome Unit} (sound : s.Sound) (inserted : Inserted s e outcome next) :
    Becomes s next 0 s.world s.slots := by
  obtain ⟨log, records⟩ := sound.hierarchy
  have grown := Tree.tried_traces s.store sound.directory records.traces e
  rw [← inserted.tree] at grown
  have frame := inserted.frame
  exact becomes_same sound (by rw [frame]) (by rw [frame]) (by rw [frame]) ⟨_, inserted.aligned, grown⟩

end Insert

section EndFrame

structure Ended (s next : Scene) : Prop where
  hierarchy : s.hierarchy.endFrame s.store s.directory = .ok next.hierarchy
  frame : next = { s with hierarchy := next.hierarchy, frame := s.frame + 1 }

theorem end_frame_ok (sound : s.Sound) :
    Ensures (fun fault => fault = .sumOverflow ∧ ¬ s.Sparse) s.endFrame fun next => Ended s next := by
  obtain ⟨log, records⟩ := sound.hierarchy
  have ends := Hierarchy.end_frame_ok records.aligned records.traces sound.directory (readable sound)
  rw [endFrame]
  cases done : s.hierarchy.endFrame s.store s.directory with
  | error fault =>
      rw [done] at ends
      obtain ⟨stopped, wide⟩ := ends
      refine ⟨stopped, fun sparse => wide ⟨?_, end_frame_narrow sound sparse.few⟩⟩
      exact (narrow_tree records.aligned).mpr (hierarchy_narrow sound sparse.few)
  | ok hierarchy =>
      rw [ok_bind]
      refine ensures_bind _ (ensures_mono (next64_ok s.frame) ?_ fun _ counted => counted) ?_
      · rintro fault ⟨stopped, last⟩
        exact ⟨stopped, fun sparse => sparse.early last⟩
      · rintro frame rfl
        exact ⟨done, rfl⟩

theorem Ended.becomes (sound : s.Sound) (ended : Ended s next) : Becomes s next 0 s.world s.slots := by
  obtain ⟨log, records⟩ := sound.hierarchy
  have frame := ended.frame
  exact becomes_same sound (by rw [frame]) (by rw [frame]) (by rw [frame])
    (end_frame_sound records sound.directory (readable sound) ended.hierarchy)

end EndFrame

end EntityStore.Scene
