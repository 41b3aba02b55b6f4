import EntityStore.Proofs.Scene.Capacity

set_option autoImplicit false

namespace EntityStore.Scene

open Checked Hierarchy

variable {s next last : Scene} {log : Lineage} {commands : List Command} {outcomes : List (Outcome Reply)}

-- The lineage after a command: what was inserted is added, and the end of a frame drops the dead.
def lineageAfter (s : Scene) (log : Lineage) : Command → Lineage
  | .addToHierarchy e => log ++ s.hierarchy.grafts s.store s.directory e
  | .endFrame => s.hierarchy.closed s.store s.directory log
  | .unload => []
  | _ => log

def lineage (s : Scene) (log : Lineage) : List Command → Lineage
  | [] => log
  | command :: rest =>
    match s.perform command with
    | .error _ => log
    | .ok (_, next) => next.lineage (s.lineageAfter log command) rest

-- In every scene on the way, no level has as many members as there are positions.
def StaysNarrow (s : Scene) (commands : List Command) : Prop :=
  ∀ middle, s.Reaches commands middle → middle.hierarchy.Narrow

theorem stays_narrow_cons {command : Command} {rest : List Command} {outcome : Outcome Reply}
    (performed : s.perform command = .ok (outcome, next)) (narrow : s.StaysNarrow (command :: rest)) :
    next.StaysNarrow rest :=
  fun middle reaches => narrow middle (reaches_later performed reaches)

theorem insert_scene_records (sound : s.Sound) (records : s.hierarchy.Records log) (e : Entity)
    {outcome : Outcome Reply} (performed : s.perform (.addToHierarchy e) = .ok (outcome, next))
    (narrow : next.hierarchy.Narrow) :
    next.hierarchy.Records (log ++ s.hierarchy.grafts s.store s.directory e) := by
  rw [perform, addToHierarchy] at performed
  cases inserted : s.hierarchy.insert s.store s.directory e with
  | error fault =>
      rw [inserted] at performed
      contradiction
  | ok result =>
      rw [inserted] at performed
      cases result with
      | error error =>
          obtain ⟨-, rfl⟩ := Prod.mk.inj (Except.ok.inj performed)
          rw [grafts, inserted, List.append_nil]
          exact records
      | ok hierarchy =>
          obtain ⟨-, rfl⟩ := Prod.mk.inj (Except.ok.inj performed)
          exact insert_records records sound.directory (readable sound) inserted narrow

theorem perform_records (sound : s.Sound) (records : s.hierarchy.Records log) {command : Command}
    {outcome : Outcome Reply} (performed : s.perform command = .ok (outcome, next))
    (narrow : next.hierarchy.Narrow) : next.hierarchy.Records (s.lineageAfter log command) := by
  cases perform_course sound performed with
  | aside _ _ settled _ _ aside =>
      rw [aside.hierarchy]
      cases command <;> first | exact records | exact absurd trivial settled
  | insert e => exact insert_scene_records sound records e performed narrow
  | queue e same =>
      rw [same]
      exact records_of_entries records records.aligned rfl rfl
  | update refreshed => exact refreshed.records log records
  | endFrame ended => exact end_frame_records records sound.directory (readable sound) ended.hierarchy narrow
  | unload unloads =>
      rw [unloads.hierarchy]
      exact records_empty []
  | listen same =>
      rw [same]
      exact records

theorem run_records (sound : s.Sound) (records : s.hierarchy.Records log)
    (ran : s.performAll commands = .ok (outcomes, last)) (narrow : s.StaysNarrow commands) :
    last.hierarchy.Records (s.lineage log commands) := by
  induction commands generalizing s log outcomes with
  | nil =>
      obtain ⟨_, rfl⟩ := Prod.mk.inj (Except.ok.inj ran)
      exact records
  | cons command rest ih =>
      obtain ⟨outcome, middle, following, performed, went, rfl⟩ := (perform_all_cons_iff command rest).mp ran
      have narrows := stays_narrow_cons performed narrow
      rw [lineage, performed]
      exact ih (performed_step sound performed).sound
        (perform_records sound records performed (narrows middle (reaches_start middle rest))) went narrows

theorem stays_narrow_of_few {settings : Settings} {registry : Registry} (blank : Blank settings registry s)
    (few : commands.length < 0xffffffff) : s.StaysNarrow commands := by
  intro middle reaches
  have sparse := sparse_of_few blank few reaches
  obtain ⟨before, outcomes, -, ran⟩ := reaches
  exact hierarchy_narrow (run_sound blank.sound ran).1 sparse.few

theorem vacant_of_created {name : String} {settings : Settings} {registry : Registry}
    (made : create name settings registry = .ok (.ok s)) :
    s.hierarchy = .empty ∧ s.listeners = 0 ∧ s.deliveries = [] := by
  cases valid : settings.validate with
  | error error => simp [create, valid] at made
  | ok done =>
      cases stored : Store.create settings with
      | error fault =>
          simp only [create, valid, build, stored] at made
          contradiction
      | ok store =>
          simp only [create, valid, build, stored] at made
          obtain rfl := Except.ok.inj (Except.ok.inj made)
          exact ⟨rfl, rfl, rfl⟩

/-- After every history of a new scene the levels of the hierarchy are the forest of the insertions
that the history made, each below the entity that its link named at the time. -/
theorem run_forest {name : String} {settings : Settings} {registry : Registry} {first : Scene}
    {commands : List Command} {outcomes : List (Outcome Reply)} (genuine : registry.Genuine)
    (made : create name settings registry = .ok (.ok first))
    (ran : first.performAll commands = .ok (outcomes, last)) (narrow : first.StaysNarrow commands) :
    last.hierarchy.Forest (first.lineage [] commands) := by
  have blank := blank_of_created genuine made
  have start : first.hierarchy.Records [] := (vacant_of_created made).1 ▸ records_empty []
  exact (run_records blank.sound start ran narrow).forest

def adoption : List Command :=
  [.create (.ofList [ComponentType.transform.id, ComponentType.child.id]),
    .create (.ofList [ComponentType.transform.id, ComponentType.child.id]),
    .replace ⟨1, 1⟩ ⟨.child, Entity.bytes ⟨0, 1⟩, rfl⟩, .addToHierarchy ⟨1, 1⟩]

set_option maxRecDepth 4000 in
theorem adoption_lineage : ∃ first outcomes last,
    create "world" { blockCapacity := 2, blockBytes := 128, maxBlocks := 1 } .builtins = .ok (.ok first) ∧
      first.performAll adoption = .ok (outcomes, last) ∧
      first.lineage [] adoption = [(⟨0, 1⟩, none), (⟨1, 1⟩, some ⟨0, 1⟩)] := by
  obtain ⟨first, outcomes, middle, final, made, ran, vacant, handles, alive, above, named, orphan, moves,
      aboveMoves, grown, started⟩ : ∃ first outcomes middle final,
      create "world" { blockCapacity := 2, blockBytes := 128, maxBlocks := 1 } .builtins = .ok (.ok first) ∧
      first.performAll (adoption.take 3) = .ok (outcomes, middle) ∧ middle.hierarchy = .empty ∧
      middle.directory.handles = [⟨0, 1⟩, ⟨1, 1⟩] ∧ middle.directory.isAlive ⟨1, 1⟩ = true ∧
      middle.directory.isAlive ⟨0, 1⟩ = true ∧
      parentOf middle.store middle.directory ⟨1, 1⟩ = .ok (some ⟨0, 1⟩) ∧
      parentOf middle.store middle.directory ⟨0, 1⟩ = .ok none ∧
      hasTransform middle.store middle.directory ⟨1, 1⟩ = true ∧
      hasTransform middle.store middle.directory ⟨0, 1⟩ = true ∧
      Hierarchy.empty.insertPath middle.store middle.directory [⟨1, 1⟩, ⟨0, 1⟩] = .ok final ∧
      first.lineage [] adoption = middle.lineage [] [.addToHierarchy ⟨1, 1⟩] :=
    ⟨_, _, _, _, rfl, rfl, rfl, rfl, rfl, rfl, rfl, rfl, rfl, rfl, rfl, rfl⟩
  have climbed : Hierarchy.empty.climb middle.store middle.directory [⟨0, 1⟩] [⟨1, 1⟩] ⟨1, 1⟩ =
      .ok (.ok [⟨1, 1⟩, ⟨0, 1⟩]) := by
    rw [climb, named]
    simp only [if_pos above]
    rw [dif_pos List.mem_cons_self, if_neg (by decide), climb, orphan]
    rfl
  have others : middle.directory.handles.erase ⟨1, 1⟩ = [⟨0, 1⟩] := by
    rw [handles]
    rfl
  have stranger : Hierarchy.empty.contains ⟨1, 1⟩ = false := rfl
  have inserted : middle.hierarchy.insert middle.store middle.directory ⟨1, 1⟩ = .ok (.ok final) := by
    simp only [Hierarchy.insert, vacant, if_pos alive, stranger, others, climbed, Bool.false_eq_true, if_false,
      ok_bind, List.find?_cons, moves, aboveMoves, Bool.not_true, List.find?_nil, grown, pure_eq_ok]
  have performed : middle.perform (.addToHierarchy ⟨1, 1⟩) = .ok (.ok .done, { middle with hierarchy := final }) := by
    simp only [perform, perform.told, addToHierarchy, inserted, ok_bind, pure_eq_ok, ok_map]
    rfl
  have whole := perform_all_append ran ((perform_all_cons_iff _ []).mpr ⟨_, _, _, performed, rfl, rfl⟩)
  refine ⟨first, _, _, made, whole, started.trans ?_⟩
  simp only [lineage, performed, lineageAfter, grafts, inserted, way, others]
  simp [vacant, stranger, climbed, Lineage.chain, parentOf?, named, orphan]

theorem run_forest_adoption : ∃ first outcomes last,
    create "world" { blockCapacity := 2, blockBytes := 128, maxBlocks := 1 } .builtins = .ok (.ok first) ∧
      first.performAll adoption = .ok (outcomes, last) ∧
      last.hierarchy.Forest [(⟨0, 1⟩, none), (⟨1, 1⟩, some ⟨0, 1⟩)] := by
  obtain ⟨first, outcomes, last, made, ran, grown⟩ := adoption_lineage
  have narrow := stays_narrow_of_few (blank_of_created Registry.builtins_genuine made)
    (show adoption.length < 0xffffffff by decide)
  have forest := run_forest Registry.builtins_genuine made ran narrow
  rw [grown] at forest
  exact ⟨first, outcomes, last, made, ran, forest⟩

end EntityStore.Scene
