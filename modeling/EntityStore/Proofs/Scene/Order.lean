import EntityStore.Proofs.Scene.Joining
import EntityStore.Proofs.Scene.Propagation

set_option autoImplicit false

namespace EntityStore

namespace Hierarchy

open Checked

theorem prune_pending (h : Hierarchy) (directory : Directory) (pending : List Entity) :
    ({ h with pending } : Hierarchy).prune directory =
      (h.prune directory).map fun pruned => { pruned with pending } :=
  bind_related _ _ _ _ fun _ => rfl

end Hierarchy

namespace Scene

open Checked Hierarchy

variable {s one other next last calm : Scene} {log : Lineage} {es others : List Entity}

section Insertions

theorem Inserted.roll {e : Entity} {outcome : Outcome Unit} (sound : s.Sound) (inserted : Inserted s e outcome next) :
    next.roll.length ≤ s.roll.length := by
  have later := (inserted.becomes sound).sound
  have directory : next.directory = s.directory := by rw [inserted.frame]
  have grown := roll_le sound later [] (fun x alive => Or.inl ?_) fun x => course_members sound (.insert e outcome inserted)
  · rwa [List.length_nil, Nat.zero_add] at grown
  · rwa [isAlive, directory] at alive

def Fated (s : Scene) (fate : Entity → Outcome Reply) : Prop :=
  ∀ e, ∃ next, s.perform (.addToHierarchy e) = .ok (fate e, next)

theorem fated (sound : s.Sound) (few : s.roll.length < UInt32.size) :
    s.Fated fun e => (s.hierarchy.tree.fate s.store s.directory e).map perform.noted := by
  intro e
  obtain ⟨outcome, next, added, inserted⟩ := inserted_of_few sound few e
  refine ⟨next, ?_⟩
  rw [perform, added, inserted.answer]
  rfl

theorem flush_added {e : Entity} {outcome : Outcome Unit} (added : s.addToHierarchy e = .ok (outcome, next))
    (rest : List Entity) : flush s.store s.directory s.hierarchy (e :: rest) =
      flush next.store next.directory next.hierarchy rest := by
  rw [addToHierarchy] at added
  rw [flush]
  cases inserted : s.hierarchy.insert s.store s.directory e with
  | error fault =>
      rw [inserted] at added
      contradiction
  | ok result =>
      rw [inserted] at added
      cases result <;>
      · obtain ⟨-, rfl⟩ := Prod.mk.inj (Except.ok.inj added)
        rfl

structure Added (s : Scene) (es : List Entity) (last : Scene) : Prop where
  ran : s.performAll (es.map .addToHierarchy) =
    .ok (es.map fun e => (s.hierarchy.tree.fate s.store s.directory e).map perform.noted, last)
  flushed : flush s.store s.directory s.hierarchy es = .ok last.hierarchy
  frame : last = { s with
    hierarchy := { s.hierarchy with levels := last.hierarchy.levels, slots := last.hierarchy.slots } }

theorem add_all_ok (sound : s.Sound) (few : s.roll.length < UInt32.size) (es : List Entity) :
    ∃ last, Added s es last := by
  obtain ⟨log, records⟩ := sound.hierarchy
  induction es generalizing s log with
  | nil => exact ⟨s, rfl, rfl, rfl⟩
  | cons e rest ih =>
      obtain ⟨outcome, middle, added, inserted⟩ := inserted_of_few sound few e
      have later := (inserted.becomes sound).sound
      obtain ⟨more, after⟩ := later.hierarchy
      obtain ⟨last, ran, flushed, frame⟩ := ih later (Nat.lt_of_le_of_lt (inserted.roll sound) few) more after
      have still := inserted.frame
      have same (x : Entity) : (middle.hierarchy.tree.fate middle.store middle.directory x).map perform.noted =
          (s.hierarchy.tree.fate s.store s.directory x).map perform.noted := by
        rw [inserted.tree, still]
        exact congrArg _ (Tree.fate_tried sound.directory records.traces e x)
      have first : s.perform (.addToHierarchy e) = .ok (outcome.map perform.noted, middle) := by
        rw [perform, added]
        rfl
      refine ⟨last, ?_, ?_, by rw [frame, still]⟩
      · refine (perform_all_cons_iff _ _).mpr ⟨_, middle, _, first, ran, ?_⟩
        rw [List.map_cons, inserted.answer]
        exact congrArg _ (List.map_congr_left fun x _ => (same x).symm)
      · rw [flush_added added, flushed]

end Insertions

section Reordering

structure Reordered (one other : Scene) : Prop where
  frame : other = { one with
    hierarchy := { one.hierarchy with levels := other.hierarchy.levels, slots := other.hierarchy.slots } }
  agrees : one.hierarchy.Agrees other.hierarchy
  worlds : ∃ next last, one.updateHierarchy = .ok next ∧ other.updateHierarchy = .ok last ∧
    ∀ e, next.hierarchy.world? e = last.hierarchy.world? e

-- The members and whom they hang on decide all world matrices.
theorem refreshed_world (records : s.hierarchy.Records log) (refreshed : Refreshed s next) :
    (∀ path e, log.Line path e → next.hierarchy.world? e = some (s.product path)) ∧
      ∀ e, e ∉ log.members → next.hierarchy.world? e = none := by
  have after := refreshed.records log records
  refine ⟨fun path e line => product_of_line (worlds_of_settled after refreshed.levels) line, fun e stranger => ?_⟩
  rw [← world_tree after.aligned]
  exact after.traces.world_none stranger

theorem Added.sound (sound : s.Sound) (added : Added s es last) : last.Sound := (run_sound sound added.ran).1

theorem Added.records (sound : s.Sound) (few : s.roll.length < UInt32.size) (records : s.hierarchy.Records log)
    (added : Added s es last) :
    last.hierarchy.Records (Tree.flushed s.store s.directory s.hierarchy.tree log es) := by
  obtain ⟨aligned, tree⟩ := flush_done records sound.directory (readable sound) added.flushed
  have narrow := flush_narrow sound few records.traces (fun _ member => member) es
  exact ⟨aligned, tree ▸ Tree.flush_traces s.store sound.directory records.traces es narrow⟩

theorem reordered_of_perm (sound : s.Sound) (few : s.roll.length < UInt32.size) (perm : es.Perm others)
    (ones : Added s es one) (twos : Added s others other) : Reordered one other := by
  obtain ⟨log, records⟩ := sound.hierarchy
  have same := Tree.mem_flushed_perm s.store sound.directory records.traces log perm
  have first := ones.records sound few records
  have second := twos.records sound few records
  obtain ⟨next, updated, refreshed⟩ := update_hierarchy_ok (ones.sound sound)
  obtain ⟨last, renewed, refreshedToo⟩ := update_hierarchy_ok (twos.sound sound)
  obtain ⟨worlds, strangers⟩ := refreshed_world first refreshed
  obtain ⟨worldsToo, strangersToo⟩ := refreshed_world second refreshedToo
  have product (path : List Entity) : one.product path = other.product path := by
    rw [ones.frame, twos.frame]
    rfl
  refine ⟨?_, agrees_of_tree first.aligned second.aligned (Tree.agrees_of_entries first.traces second.traces same),
    next, last, updated, renewed, fun e => ?_⟩
  · have frame := twos.frame
    rw [ones.frame]
    exact frame
  · by_cases member : e ∈ (Tree.flushed s.store s.directory s.hierarchy.tree log es).members
    · obtain ⟨path, line⟩ := first.traces.grown.exists_line member
      rw [worlds path e line, worldsToo path e (line.congr same), product]
    · have outside : e ∉ (Tree.flushed s.store s.directory s.hierarchy.tree log others).members := fun inside => by
        obtain ⟨entry, listed, named⟩ := List.mem_map.mp inside
        exact member (List.mem_map.mpr ⟨entry, (same entry).mpr listed, named⟩)
      rw [strangers e member, strangersToo e outside]

end Reordering

section Frames

theorem queue_all_eq (s : Scene) (es : List Entity) : s.performAll (es.map .queueHierarchyInsert) =
    .ok (es.map fun _ => .ok .done,
      { s with hierarchy := { s.hierarchy with pending := s.hierarchy.pending ++ es } }) := by
  induction es generalizing s with
  | nil =>
      rw [List.append_nil]
      rfl
  | cons e rest ih =>
      simp only [List.map_cons, performAll, perform, queueHierarchyInsert, queue, ok_bind, ih, pure_eq_ok,
        List.append_assoc, List.singleton_append]

def Calms (s calm : Scene) : Prop := { s with hierarchy := { s.hierarchy with pending := [] } }.endFrame = .ok calm

theorem Calms.pruned (calms : Calms s calm) : ∃ pruned, s.hierarchy.prune s.directory = .ok pruned ∧
    next64 s.frame = .ok (s.frame + 1) ∧
      calm = { s with hierarchy := { pruned with pending := [] }, frame := s.frame + 1 } := by
  rw [Calms, endFrame] at calms
  obtain ⟨hierarchy, ended, rest⟩ := bind_ok_iff.mp calms
  obtain ⟨frame, counted, same⟩ := bind_ok_iff.mp rest
  have step := next64_ok s.frame
  rw [counted] at step
  obtain rfl : frame = s.frame + 1 := step
  rw [Hierarchy.endFrame, prune_pending] at ended
  cases sifted : s.hierarchy.prune s.directory with
  | error fault =>
      rw [sifted] at ended
      contradiction
  | ok pruned =>
      rw [sifted] at ended
      obtain rfl := Except.ok.inj ended
      exact ⟨pruned, rfl, counted, (Except.ok.inj same).symm⟩

theorem end_frame_eq (calms : Calms s calm) (pending : List Entity) :
    { s with hierarchy := { s.hierarchy with pending } }.endFrame =
      (flush calm.store calm.directory calm.hierarchy pending).map fun hierarchy => { calm with hierarchy } := by
  obtain ⟨pruned, sifted, counted, rfl⟩ := calms.pruned
  simp only [endFrame, Hierarchy.endFrame, prune_pending, sifted, counted, ok_map, ok_bind, pure_eq_ok]
  cases flush s.store s.directory { pruned with pending := [] } pending <;> rfl

theorem calms_of_sparse (sound : s.Sound) (sparse : s.Sparse) :
    ∃ calm, Calms s calm ∧ Becomes s calm 0 s.world s.slots ∧ calm.roll.length ≤ s.roll.length := by
  let waiting : Scene := { s with hierarchy := { s.hierarchy with pending := [] } }
  obtain ⟨log, records⟩ := sound.hierarchy
  have waits : Becomes s waiting 0 s.world s.slots :=
    becomes_same sound rfl rfl rfl ⟨log, records_of_entries records records.aligned rfl rfl⟩
  have few : waiting.Sparse := ⟨sparse.few, sparse.early⟩
  obtain ⟨calm, done, ended⟩ := ended_of_sparse waits.sound few
  have short : calm.roll.length ≤ waiting.roll.length := ended.roll waits.sound
  exact ⟨calm, done, waits.trans (ended.becomes waits.sound), short⟩

theorem Added.scene (added : Added s es last) : last = { s with hierarchy := last.hierarchy } := by
  rw [added.frame]

theorem queue_end_frame_eq (calms : Calms s calm) (added : Added calm (s.hierarchy.pending ++ es) last) :
    s.performAll (es.map .queueHierarchyInsert ++ [.endFrame]) =
      .ok ((es.map fun _ => .ok .done) ++ [.ok .done], last) := by
  have ended := end_frame_eq calms (s.hierarchy.pending ++ es)
  rw [added.flushed, ok_map, ← added.scene] at ended
  refine perform_all_append (queue_all_eq s es) ?_
  rw [performAll, perform, ended]
  rfl

end Frames

-- In two orders of the same entities each has the same outcome, and the scenes come out as one but for
-- the order of roots and of siblings.
structure Orderless (s : Scene) (es others : List Entity) : Prop where
  added : ∃ fate one other, s.Fated fate ∧
    s.performAll (es.map .addToHierarchy) = .ok (es.map fate, one) ∧
    s.performAll (others.map .addToHierarchy) = .ok (others.map fate, other) ∧ Reordered one other
  -- At the end of a frame, entities are inserted after those that were pending before.
  queued : ∃ calm fate one other, Calms s calm ∧ calm.Fated fate ∧
    s.performAll (es.map .queueHierarchyInsert ++ [.endFrame]) =
      .ok ((es.map fun _ => .ok .done) ++ [.ok .done], one) ∧
    s.performAll (others.map .queueHierarchyInsert ++ [.endFrame]) =
      .ok ((others.map fun _ => .ok .done) ++ [.ok .done], other) ∧
    calm.performAll ((s.hierarchy.pending ++ es).map .addToHierarchy) =
      .ok ((s.hierarchy.pending ++ es).map fate, one) ∧
    calm.performAll ((s.hierarchy.pending ++ others).map .addToHierarchy) =
      .ok ((s.hierarchy.pending ++ others).map fate, other) ∧ Reordered one other

theorem orderless_of_perm (sound : s.Sound) (sparse : s.Sparse) (perm : es.Perm others) :
    Orderless s es others := by
  obtain ⟨one, ones⟩ := add_all_ok sound sparse.few es
  obtain ⟨other, twos⟩ := add_all_ok sound sparse.few others
  obtain ⟨calm, calms, becomes, short⟩ := calms_of_sparse sound sparse
  have few := Nat.lt_of_le_of_lt short sparse.few
  obtain ⟨first, firsts⟩ := add_all_ok becomes.sound few (s.hierarchy.pending ++ es)
  obtain ⟨second, seconds⟩ := add_all_ok becomes.sound few (s.hierarchy.pending ++ others)
  have reordered := reordered_of_perm becomes.sound few (perm.append_left s.hierarchy.pending) firsts seconds
  exact ⟨⟨_, one, other, fated sound sparse.few, ones.ran, twos.ran,
      reordered_of_perm sound sparse.few perm ones twos⟩,
    calm, _, first, second, calms, fated becomes.sound few, queue_end_frame_eq calms firsts,
    queue_end_frame_eq calms seconds, firsts.ran, seconds.ran, reordered⟩

/-- In every state that a history leads to, with positions for all that are alive or members, the order
in which entities are inserted into the hierarchy, at once or at the end of the frame, changes no outcome,
no member, no depth, no parent and no world matrix. -/
theorem run_orderless {name : String} {settings : Settings} {registry : Registry} {first : Scene}
    {commands : List Command} {outcomes : List (Outcome Reply)} (genuine : registry.Genuine)
    (made : create name settings registry = .ok (.ok first))
    (ran : first.performAll commands = .ok (outcomes, s)) (sparse : s.Sparse) (perm : es.Perm others) :
    Orderless s es others :=
  orderless_of_perm (run_sound (blank_of_created genuine made).sound ran).1 sparse perm

set_option maxRecDepth 4000 in
theorem run_orderless_adoption : ∃ first outcomes s,
    create "world" { blockCapacity := 2, blockBytes := 128, maxBlocks := 1 } .builtins = .ok (.ok first) ∧
      first.performAll (adoption.take 3) = .ok (outcomes, s) ∧
      [⟨1, 1⟩, ⟨5, 1⟩, ⟨0, 1⟩, ⟨5, 1⟩].Perm [⟨5, 1⟩, ⟨0, 1⟩, ⟨5, 1⟩, (⟨1, 1⟩ : Entity)] ∧
      Orderless s [⟨1, 1⟩, ⟨5, 1⟩, ⟨0, 1⟩, ⟨5, 1⟩] [⟨5, 1⟩, ⟨0, 1⟩, ⟨5, 1⟩, ⟨1, 1⟩] := by
  obtain ⟨first, outcomes, s, made, ran⟩ : ∃ first outcomes s,
      create "world" { blockCapacity := 2, blockBytes := 128, maxBlocks := 1 } .builtins = .ok (.ok first) ∧
        first.performAll (adoption.take 3) = .ok (outcomes, s) := ⟨_, _, _, rfl, rfl⟩
  have sparse := sparse_of_few (blank_of_created Registry.builtins_genuine made) (by decide) (reaches_end ran)
  exact ⟨first, outcomes, s, made, ran, by decide,
    run_orderless Registry.builtins_genuine made ran sparse (by decide)⟩

end Scene

end EntityStore
