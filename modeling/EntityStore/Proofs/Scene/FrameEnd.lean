import EntityStore.Proofs.Scene.Order

set_option autoImplicit false

namespace EntityStore.Scene

open Checked Hierarchy

variable {s calm last : Scene} {log : Lineage} {es : List Entity}

structure Prunes (s pruned : Scene) : Prop where
  members : ∀ e, pruned.hierarchy.contains e = true ↔
    s.hierarchy.contains e = true ∧ ∀ x, Relation.ReflTransGen s.hierarchy.Hangs e x → s.isAlive x = true
  unmoved : ∀ e, pruned.hierarchy.contains e = true → Unmoved s.hierarchy pruned.hierarchy e
  order : ∀ depth, (pruned.hierarchy.level depth).map Entry.entity =
    ((s.hierarchy.level depth).map Entry.entity).filter pruned.hierarchy.contains
  forgotten : ∀ e, s.hierarchy.contains e = true → pruned.hierarchy.contains e = false →
    pruned.hierarchy.previous? e = none
  -- An index says nothing: what is known of others with the index of a removed member stays.
  remembered : ∀ e, (s.hierarchy.contains e = true → pruned.hierarchy.contains e = true) →
    pruned.hierarchy.previous? e = s.hierarchy.previous? e
  filled : pruned.hierarchy.depth = pruned.hierarchy.levels.length
  frame : pruned = { s with frame := s.frame + 1, hierarchy := { pruned.hierarchy with pending := [] } }

-- Entities are inserted one after the other. One that is refused changes nothing.
inductive Flushes : Scene → List Entity → Scene → Prop where
  | done (s : Scene) : Flushes s [] s
  | added (s next last : Scene) (e : Entity) (rest : List Entity)
      (added : s.addToHierarchy e = .ok (.ok (), next)) (flushed : Flushes next rest last) :
      Flushes s (e :: rest) last
  | refused (s last : Scene) (e : Entity) (rest : List Entity) (error : StoreError)
      (refused : s.addToHierarchy e = .ok (.error error, s)) (flushed : Flushes s rest last) :
      Flushes s (e :: rest) last

structure Closes (s pruned last : Scene) : Prop where
  prunes : Prunes s pruned
  flushes : Flushes pruned s.hierarchy.pending last
  unmoved : ∀ e, pruned.hierarchy.contains e = true → Unmoved pruned.hierarchy last.hierarchy e
  order : ∀ depth, ((pruned.hierarchy.level depth).map Entry.entity).Sublist
    ((last.hierarchy.level depth).map Entry.entity)
  previous : ∀ e, last.hierarchy.previous? e = pruned.hierarchy.previous? e
  pending : last.hierarchy.pending = []
  living : ∀ e, last.hierarchy.contains e = true → last.isAlive e = true
  fresh : ∀ e, pruned.hierarchy.contains e = false → last.hierarchy.contains e = true →
    last.hierarchy.world? e = none
  filled : last.hierarchy.depth = last.hierarchy.levels.length

theorem calms_prunes (sound : s.Sound) (calms : Calms s calm) : Prunes s calm := by
  obtain ⟨log, records⟩ := sound.hierarchy
  obtain ⟨pruned, sifted, -, rfl⟩ := calms.pruned
  obtain ⟨left, tree⟩ := prune_done records sifted
  have hangs := hangs_tree records.aligned
  have members := Tree.prune_contains_iff s.directory records.traces
  have unmoved := fun e => Tree.prune_unmoved s.directory records.traces (e := e)
  have order := Tree.prune_order s.directory records.traces
  have forgets := Tree.prune_forgets s.directory records.traces
  rw [← tree] at members unmoved order forgets
  rw [hangs] at members
  refine ⟨members, fun e survived => ?_, fun depth => ?_, fun e => (forgets e).1, fun e => (forgets e).2,
    left.depth_eq, rfl⟩
  · obtain ⟨depth, parent, world, previous⟩ := unmoved e survived
    exact unmoved_of_tree records.aligned left.aligned ⟨depth, parent, world, previous⟩
  · have levels : (Tree.level { pruned with pending := [] }.tree depth).map Node.entity =
        ((s.hierarchy.tree.level depth).map Node.entity).filter pruned.contains := order depth
    rw [tree_entities left.aligned, tree_entities records.aligned] at levels
    exact levels

theorem flushes_of_flush {hierarchy : Hierarchy}
    (done : flush s.store s.directory s.hierarchy es = .ok hierarchy) : Flushes s es { s with hierarchy } := by
  induction es generalizing s with
  | nil =>
      obtain rfl := Except.ok.inj done
      exact .done s
  | cons e rest ih =>
      obtain ⟨result, inserted, went⟩ := bind_ok_iff.mp done
      cases result with
      | error error =>
          refine .refused s _ e rest error ?_ (ih went)
          rw [addToHierarchy, inserted]
          rfl
      | ok middle =>
          let next : Scene := { s with hierarchy := middle }
          have flushed : Flushes next rest { next with hierarchy } := ih went
          refine .added s next _ e rest ?_ flushed
          rw [addToHierarchy, inserted]
          rfl

theorem calms_of_ended (done : s.endFrame = .ok last) : ∃ calm, Calms s calm ∧
    flush calm.store calm.directory calm.hierarchy s.hierarchy.pending = .ok last.hierarchy ∧
      last = { calm with hierarchy := last.hierarchy } := by
  obtain ⟨hierarchy, ended, rest⟩ := bind_ok_iff.mp done
  obtain ⟨frame, counted, same⟩ := bind_ok_iff.mp rest
  obtain rfl := Except.ok.inj same
  obtain ⟨pruned, sifted, went⟩ := bind_ok_iff.mp ended
  refine ⟨{ s with hierarchy := { pruned with pending := [] }, frame }, ?_, went, rfl⟩
  simp only [Calms, endFrame, Hierarchy.endFrame, prune_pending, sifted, counted, ok_map, ok_bind, pure_eq_ok]
  rfl

theorem end_frame_closes (sound : s.Sound) (done : s.endFrame = .ok last) :
    ∃ calm, Calms s calm ∧ Closes s calm last := by
  obtain ⟨log, records⟩ := sound.hierarchy
  obtain ⟨calm, calms, flushed, same⟩ := calms_of_ended done
  have prunes := calms_prunes sound calms
  have becomes : Becomes s calm 0 s.world s.slots := by
    obtain ⟨pruned, sifted, -, rfl⟩ := calms.pruned
    exact becomes_same sound rfl rfl rfl ⟨_, (prune_done records sifted).1⟩
  obtain ⟨left, recordsLeft⟩ := becomes.sound.hierarchy
  have directory := becomes.sound.directory
  obtain ⟨aligned, tree⟩ := flush_done recordsLeft directory (readable becomes.sound) flushed
  obtain ⟨_, final⟩ := flush_sound recordsLeft directory (readable becomes.sound) flushed
  have unmoved := fun e => Tree.flush_unmoved calm.store directory recordsLeft.traces s.hierarchy.pending (x := e)
  have order := Tree.flush_order calm.store calm.directory calm.hierarchy.tree s.hierarchy.pending
  have rest := Tree.flush_rest calm.store calm.directory calm.hierarchy.tree s.hierarchy.pending
  have living : ∀ x, (Tree.flush calm.store calm.directory calm.hierarchy.tree s.hierarchy.pending).contains x = true →
      calm.directory.isAlive x = true :=
    Tree.flush_members calm.store directory recordsLeft.traces s.hierarchy.pending
      (fun x left => by
        rw [prunes.frame]
        exact ((prunes.members x).mp left).2 x .refl)
      fun x alive => alive
  have fresh := fun e => Tree.flush_world calm.store directory recordsLeft.traces s.hierarchy.pending (x := e)
  rw [← tree] at unmoved order rest living fresh
  refine ⟨calm, calms, prunes, same ▸ flushes_of_flush flushed, fun e member => ?_, fun depth => ?_, fun e => ?_, ?_,
    fun e member => ?_, fun e stranger member => ?_, final.depth_eq⟩
  · exact unmoved_of_tree recordsLeft.aligned aligned (unmoved e member)
  · rw [← tree_entities recordsLeft.aligned, ← tree_entities aligned]
    exact order depth
  · have previous : last.hierarchy.previous = calm.hierarchy.previous := congrArg Tree.previous rest
    rw [previous?, previous?, previous]
  · have pending : last.hierarchy.pending = calm.hierarchy.pending := congrArg Tree.pending rest
    rw [pending, prunes.frame]
  · rw [isAlive, same]
    exact living e member
  · rw [← world_tree aligned]
    exact fresh e stranger member

/-- In every state that a history leads to, with positions for all that are alive or members, the end of a
frame removes exactly the members that are dead or below somebody dead, leaves all others as they are, and
then inserts the pending entities. -/
theorem run_frame_ends {name : String} {settings : Settings} {registry : Registry} {first : Scene}
    {commands : List Command} {outcomes : List (Outcome Reply)} (genuine : registry.Genuine)
    (made : create name settings registry = .ok (.ok first))
    (ran : first.performAll commands = .ok (outcomes, s)) (sparse : s.Sparse) :
    ∃ pruned last, s.endFrame = .ok last ∧ Closes s pruned last := by
  have sound := (run_sound (blank_of_created genuine made).sound ran).1
  obtain ⟨last, done, _⟩ := ended_of_sparse sound sparse
  obtain ⟨pruned, _, closes⟩ := end_frame_closes sound done
  exact ⟨pruned, last, done, closes⟩

theorem run_frame_ends_orphan : ∃ first outcomes s pruned last,
    create "world" { blockCapacity := 2, blockBytes := 128, maxBlocks := 1 } .builtins = .ok (.ok first) ∧
      first.performAll (adoption ++ [.queueHierarchyInsert ⟨1, 1⟩, .destroy ⟨0, 1⟩]) = .ok (outcomes, s) ∧
      s.hierarchy.pending = [⟨1, 1⟩] ∧ s.hierarchy.contains ⟨1, 1⟩ = true ∧ s.endFrame = .ok last ∧
      Closes s pruned last ∧ pruned.hierarchy.contains ⟨1, 1⟩ = false := by
  obtain ⟨first, outcomes, start, made, ran, verdict, named, living, calm⟩ := adoption_verdict
  have blank := blank_of_created Registry.builtins_genuine made
  have sparse := sparse_of_few blank (by decide) (reaches_end ran)
  have sound := (run_sound blank.sound ran).1
  obtain ⟨outcome, next, path, added, joins, only⟩ := add_to_hierarchy_joins sound sparse.few ⟨1, 1⟩
  obtain ⟨rfl, rfl⟩ := (only _ _).mp verdict
  have prepared := perform_all_append ran
    (show start.performAll [.addToHierarchy ⟨1, 1⟩, .queueHierarchyInsert ⟨1, 1⟩] =
      .ok ([.ok .done, .ok .done], next.queueHierarchyInsert ⟨1, 1⟩) by
        simp only [performAll, perform, perform.told, added, ok_map, ok_bind, pure_eq_ok]
        rfl)
  have waiting := (run_sound blank.sound prepared).1
  have alive : (next.queueHierarchyInsert ⟨1, 1⟩).isAlive ⟨0, 1⟩ = true := by
    rw [joins.frame]
    exact living
  obtain ⟨l, found⟩ := (alive_iff _ _).mp alive
  obtain ⟨s, destroyed, becomes⟩ := destroy_ok waiting found
  have performed : (next.queueHierarchyInsert ⟨1, 1⟩).perform (.destroy ⟨0, 1⟩) = .ok (.ok .done, s) := by
    rw [perform, destroyed]
    rfl
  have speaks := destroy_speaks waiting ⟨0, 1⟩
  rw [performed] at speaks
  obtain ⟨_, _, aside⟩ := speaks
  have dead : s.isAlive ⟨0, 1⟩ = false := by
    rw [alive_iff_world becomes.sound, becomes.world, Function.update_self]
    rfl
  have whole := perform_all_append prepared ((perform_all_cons_iff _ []).mpr ⟨_, _, _, performed, rfl, rfl⟩)
  obtain ⟨pruned, last, ended, closes⟩ := run_frame_ends Registry.builtins_genuine made whole
    (sparse_of_few blank (by decide) (reaches_end whole))
  refine ⟨first, _, s, pruned, last, made, whole, ?_, ?_, ended, closes, Bool.eq_false_iff.mpr fun left => ?_⟩
  · rw [aside.hierarchy, joins.frame]
    exact congrArg (· ++ [_]) calm
  · rw [aside.hierarchy]
    exact (joins.members ⟨1, 1⟩).mpr (Or.inr List.mem_cons_self)
  · have hangs : s.hierarchy.Hangs ⟨1, 1⟩ ⟨0, 1⟩ := by
      rw [aside.hierarchy]
      exact (joins.parents ⟨1, 1⟩ List.mem_cons_self).trans named
    have spared := ((closes.prunes.members ⟨1, 1⟩).mp left).2 ⟨0, 1⟩ (.single hangs)
    rw [dead] at spared
    contradiction

end EntityStore.Scene
