import EntityStore.Proofs.Scene.Forest

set_option autoImplicit false

namespace EntityStore.Scene

open Checked Hierarchy

variable {s next : Scene} {e : Entity}

theorem has_transform_eq (sound : s.Sound) (e : Entity) :
    hasTransform s.store s.directory e = s.has e .transform := by
  rw [hasTransform, Directory.locate_spot_eq, has, hasComponent]
  cases found : s.directory.location? e with
  | none =>
      rw [signature_of_stale found]
      rfl
  | some l =>
      obtain ⟨b, t, home⟩ := home_of sound found
      rw [signature_of_ok home, Option.map_some, Option.bind_some]
      simp only [home.block]
      rfl

-- A way from an entity up along the links, among live entities that are no members and all different.
inductive Trail (s : Scene) (e : Entity) : List Entity → Entity → Prop where
  | start (alive : s.isAlive e = true) (stranger : s.hierarchy.contains e = false) : Trail s e [e] e
  | step (path : List Entity) (child parent : Entity) (trail : Trail s e path child)
      (named : s.link? child = some parent) (alive : s.isAlive parent = true) (new : parent ∉ path)
      (stranger : s.hierarchy.contains parent = false) : Trail s e (path ++ [parent]) parent

-- Where the way ends, or which link cannot be followed.
inductive Walks (s : Scene) (e : Entity) : Outcome (List Entity) → Prop where
  | orphan (path : List Entity) (top : Entity) (trail : Trail s e path top) (orphan : s.link? top = none) :
      Walks s e (.ok path)
  | hanging (path : List Entity) (top parent : Entity) (trail : Trail s e path top)
      (named : s.link? top = some parent) (alive : s.isAlive parent = true)
      (member : s.hierarchy.contains parent = true) : Walks s e (.ok path)
  | dead (path : List Entity) (child parent : Entity) (trail : Trail s e path child)
      (named : s.link? child = some parent) (dead : s.isAlive parent = false) :
      Walks s e (.error (.hierarchyParentNotAlive child parent))
  | cycle (path : List Entity) (child parent : Entity) (trail : Trail s e path child)
      (named : s.link? child = some parent) (alive : s.isAlive parent = true) (met : parent ∈ path) :
      Walks s e (.error (.hierarchyCycle parent))

inductive Verdict (s : Scene) (e : Entity) : Outcome Unit → List Entity → Prop where
  | stale (dead : s.isAlive e = false) : Verdict s e (.error (.staleEntity e)) []
  | member (alive : s.isAlive e = true) (member : s.hierarchy.contains e = true) : Verdict s e (.ok ()) []
  | blocked (error : StoreError) (walks : Walks s e (.error error)) : Verdict s e (.error error) []
  | bare (before after : List Entity) (missing : Entity) (walks : Walks s e (.ok (before ++ missing :: after)))
      (fit : ∀ x ∈ before, s.has x .transform = true) (lacks : s.has missing .transform = false) :
      Verdict s e (.error (.hierarchyMissingTransform missing)) []
  | joined (path : List Entity) (walks : Walks s e (.ok path)) (fit : ∀ x ∈ path, s.has x .transform = true) :
      Verdict s e (.ok ()) path

section Walk

theorem trail_start {path : List Entity} {child : Entity} (trail : Trail s e path child) :
    s.isAlive e = true ∧ s.hierarchy.contains e = false := by
  induction trail with
  | start alive stranger => exact ⟨alive, stranger⟩
  | step path child parent trail named alive new stranger ih => exact ih

theorem walks_start {outcome : Outcome (List Entity)} (walks : Walks s e outcome) :
    s.isAlive e = true ∧ s.hierarchy.contains e = false := by
  cases walks with
  | orphan path top trail => exact trail_start trail
  | hanging path top parent trail => exact trail_start trail
  | dead path child parent trail => exact trail_start trail
  | cycle path child parent trail => exact trail_start trail

theorem climb_trail (sound : s.Sound) {path : List Entity} {child : Entity} (trail : Trail s e path child) :
    ∃ unvisited, Tree.Midway s.hierarchy.tree s.directory unvisited path ∧
      s.hierarchy.tree.climb s.store s.directory (s.directory.handles.erase e) [e] e =
        s.hierarchy.tree.climb s.store s.directory unvisited path child := by
  induction trail with
  | start alive stranger => exact ⟨_, Tree.midway_start sound.directory stranger, rfl⟩
  | step path child parent trail named alive new stranger ih =>
      obtain ⟨unvisited, midway, climbed⟩ := ih
      have unmet : parent ∈ unvisited := (midway.unmet parent).mpr ⟨alive, new⟩
      have living : s.directory.isAlive parent = true := alive
      refine ⟨_, Tree.midway_step midway stranger, climbed.trans ?_⟩
      rw [Tree.climb, link_eq sound, named]
      simp only [if_pos living, dif_pos unmet, contains_tree, stranger, Bool.false_eq_true, if_false]

theorem climb_of_walks (sound : s.Sound) {outcome : Outcome (List Entity)} (walks : Walks s e outcome) :
    s.hierarchy.tree.climb s.store s.directory (s.directory.handles.erase e) [e] e = outcome := by
  cases walks with
  | orphan path top trail orphan =>
      obtain ⟨unvisited, midway, climbed⟩ := climb_trail sound trail
      rw [climbed, Tree.climb, link_eq sound, orphan]
  | hanging path top parent trail named alive member =>
      obtain ⟨unvisited, midway, climbed⟩ := climb_trail sound trail
      have living : s.directory.isAlive parent = true := alive
      have member : s.hierarchy.tree.contains parent = true := member
      have unmet : parent ∈ unvisited := (midway.unmet parent).mpr ⟨alive, fun inside => by
        rw [midway.strangers parent inside] at member
        contradiction⟩
      rw [climbed, Tree.climb, link_eq sound, named]
      simp only [if_pos living, dif_pos unmet, if_pos member]
  | dead path child parent trail named dead =>
      obtain ⟨unvisited, midway, climbed⟩ := climb_trail sound trail
      have gone : s.directory.isAlive parent = false := dead
      rw [climbed, Tree.climb, link_eq sound, named]
      simp only [gone, Bool.false_eq_true, if_false]
  | cycle path child parent trail named alive met =>
      obtain ⟨unvisited, midway, climbed⟩ := climb_trail sound trail
      have living : s.directory.isAlive parent = true := alive
      have visited : parent ∉ unvisited := fun unmet => ((midway.unmet parent).mp unmet).2 met
      rw [climbed, Tree.climb, link_eq sound, named]
      simp only [if_pos living, dif_neg visited]

theorem walks_of_midway (sound : s.Sound) (unvisited path : List Entity) (child : Entity)
    (midway : Tree.Midway s.hierarchy.tree s.directory unvisited path) (trail : Trail s e path child) :
    Walks s e (s.hierarchy.tree.climb s.store s.directory unvisited path child) := by
  induction unvisited, path, child using Tree.climb.induct s.hierarchy.tree s.store s.directory with
  | case1 unvisited path child orphan =>
      rw [Tree.climb, orphan]
      exact .orphan path child trail (link_eq sound child ▸ orphan)
  | case2 unvisited path child parent named alive unmet member =>
      rw [Tree.climb, named]
      simp only [if_pos alive, dif_pos unmet, if_pos member]
      exact .hanging path child parent trail (link_eq sound child ▸ named) alive member
  | case3 unvisited path child parent named alive unmet stranger ih =>
      have outside := Bool.eq_false_iff.mpr stranger
      rw [Tree.climb, named]
      simp only [if_pos alive, dif_pos unmet, if_neg stranger]
      exact ih (Tree.midway_step midway outside) (.step path child parent trail (link_eq sound child ▸ named) alive
        ((midway.unmet parent).mp unmet).2 outside)
  | case4 unvisited path child parent named alive met =>
      have inside : parent ∈ path := by
        by_contra new
        exact met ((midway.unmet parent).mpr ⟨alive, new⟩)
      rw [Tree.climb, named]
      simp only [if_pos alive, dif_neg met]
      exact .cycle path child parent trail (link_eq sound child ▸ named) alive inside
  | case5 unvisited path child parent named dead =>
      rw [Tree.climb, named]
      simp only [if_neg dead]
      exact .dead path child parent trail (link_eq sound child ▸ named) (Bool.eq_false_iff.mpr dead)

end Walk

section Verdict

theorem ascent_of_walks (sound : s.Sound) {path : List Entity} (walks : Walks s e (.ok path)) :
    s.hierarchy.tree.ascent s.store s.directory e =
      match path.find? fun x => !s.has x .transform with
      | some missing => .error (.hierarchyMissingTransform missing)
      | none => .ok path := by
  obtain ⟨alive, stranger⟩ := walks_start walks
  have living : s.directory.isAlive e = true := alive
  have same : path.find? (fun x => !hasTransform s.store s.directory x) =
      path.find? fun x => !s.has x .transform := by
    simp only [has_transform_eq sound]
  rw [Tree.ascent, contains_tree, if_pos living, if_neg (Bool.eq_false_iff.mp stranger), climb_of_walks sound walks]
  cases lacking : path.find? fun x => !s.has x .transform with
  | none => simp only [same, lacking]
  | some missing => simp only [same, lacking]

theorem ascent_of_verdict (sound : s.Sound) {outcome : Outcome Unit} {path : List Entity}
    (verdict : Verdict s e outcome path) :
    s.hierarchy.tree.ascent s.store s.directory e = outcome.map fun _ => path := by
  cases verdict with
  | stale dead =>
      have gone : s.directory.isAlive e = false := dead
      rw [Tree.ascent, if_neg (Bool.eq_false_iff.mp gone)]
      rfl
  | member alive member =>
      have living : s.directory.isAlive e = true := alive
      rw [Tree.ascent, contains_tree, if_pos living, if_pos member]
      rfl
  | blocked error walks =>
      obtain ⟨alive, stranger⟩ := walks_start walks
      have living : s.directory.isAlive e = true := alive
      rw [Tree.ascent, contains_tree, if_pos living, if_neg (Bool.eq_false_iff.mp stranger), climb_of_walks sound walks]
      rfl
  | bare before after missing walks fit lacks =>
      have first : (before ++ missing :: after).find? (fun x => !s.has x .transform) = some missing := by
        rw [List.find?_append, List.find?_eq_none.mpr fun x inside => by simp [fit x inside], Option.none_or]
        simp [lacks]
      rw [ascent_of_walks sound walks, first]
      rfl
  | joined path walks fit =>
      have complete : path.find? (fun x => !s.has x .transform) = none :=
        List.find?_eq_none.mpr fun x inside => by simp [fit x inside]
      rw [ascent_of_walks sound walks, complete]
      rfl

theorem verdict_exists (sound : s.Sound) (e : Entity) : ∃ outcome path, Verdict s e outcome path := by
  by_cases alive : s.isAlive e = true
  · by_cases member : s.hierarchy.contains e = true
    · exact ⟨_, _, .member alive member⟩
    · have stranger := Bool.eq_false_iff.mpr member
      have walks := walks_of_midway sound _ _ _ (Tree.midway_start sound.directory stranger) (.start alive stranger)
      cases climbed : s.hierarchy.tree.climb s.store s.directory (s.directory.handles.erase e) [e] e with
      | error error => exact ⟨_, _, .blocked error (climbed ▸ walks)⟩
      | ok whole =>
          rw [climbed] at walks
          cases lacking : whole.find? fun x => !s.has x .transform with
          | none =>
              refine ⟨_, _, .joined whole walks fun x inside => ?_⟩
              simpa using List.find?_eq_none.mp lacking x inside
          | some missing =>
              obtain ⟨lacks, before, after, rfl, fit⟩ := List.find?_eq_some_iff_append.mp lacking
              refine ⟨_, _, .bare before after missing walks (fun x inside => ?_) ?_⟩
              · simpa using fit x inside
              · simpa using lacks
  · exact ⟨_, _, .stale (Bool.eq_false_iff.mpr alive)⟩

theorem verdict_iff (sound : s.Sound) (e : Entity) (outcome : Outcome Unit) (path : List Entity) :
    Verdict s e outcome path ↔ outcome = s.hierarchy.tree.fate s.store s.directory e ∧
      path = s.hierarchy.tree.joining s.store s.directory e := by
  have answers {outcome : Outcome Unit} {path : List Entity} (verdict : Verdict s e outcome path) :
      outcome = s.hierarchy.tree.fate s.store s.directory e ∧
        path = s.hierarchy.tree.joining s.store s.directory e := by
    rw [Tree.fate, Tree.joining, ascent_of_verdict sound verdict]
    cases verdict <;> exact ⟨rfl, rfl⟩
  refine ⟨answers, ?_⟩
  rintro ⟨rfl, rfl⟩
  obtain ⟨outcome, path, verdict⟩ := verdict_exists sound e
  obtain ⟨rfl, rfl⟩ := answers verdict
  exact verdict

end Verdict

-- What an insertion does. Members keep what they had, and who is refused changes nothing at all.
structure Joins (s : Scene) (outcome : Outcome Unit) (next : Scene) (path : List Entity) : Prop where
  refused : ∀ error, outcome = .error error → next = s
  idle : path = [] → next = s
  members : ∀ x, next.hierarchy.contains x = true ↔ s.hierarchy.contains x = true ∨ x ∈ path
  parents : ∀ x ∈ path, next.hierarchy.above? x = s.link? x
  roots : ∀ x ∈ path, s.link? x = none → next.hierarchy.depthOf? x = some 0
  below : ∀ x ∈ path, ∀ parent, s.link? x = some parent → ∃ depth,
    next.hierarchy.depthOf? parent = some depth ∧ next.hierarchy.depthOf? x = some (depth + 1)
  worlds : ∀ x ∈ path, next.hierarchy.world? x = none
  unmoved : ∀ x, s.hierarchy.contains x = true → Unmoved s.hierarchy next.hierarchy x
  order : ∀ depth, ((s.hierarchy.level depth).map Entry.entity).Sublist
    ((next.hierarchy.level depth).map Entry.entity)
  frame : next = { s with
    hierarchy := { s.hierarchy with levels := next.hierarchy.levels, slots := next.hierarchy.slots } }

section Inserted

variable {outcome : Outcome Unit} {x : Entity}

theorem Inserted.members (sound : s.Sound) (inserted : Inserted s e outcome next) (x : Entity) :
    next.hierarchy.contains x = true ↔
      s.hierarchy.contains x = true ∨ x ∈ s.hierarchy.tree.joining s.store s.directory e := by
  obtain ⟨log, records⟩ := sound.hierarchy
  have contains := Tree.tried_contains s.store sound.directory records.traces e x
  rw [← inserted.tree] at contains
  exact contains

theorem Inserted.unmoved (sound : s.Sound) (inserted : Inserted s e outcome next)
    (member : s.hierarchy.contains x = true) : Unmoved s.hierarchy next.hierarchy x := by
  obtain ⟨log, records⟩ := sound.hierarchy
  have unmoved := Tree.tried_unmoved s.store sound.directory records.traces e member
  rw [← inserted.tree] at unmoved
  exact unmoved_of_tree records.aligned inserted.aligned unmoved

theorem Inserted.world (sound : s.Sound) (inserted : Inserted s e outcome next)
    (new : x ∈ s.hierarchy.tree.joining s.store s.directory e) : next.hierarchy.world? x = none := by
  obtain ⟨log, records⟩ := sound.hierarchy
  rw [← world_tree inserted.aligned, inserted.tree]
  exact Tree.tried_world s.store sound.directory records.traces e new

theorem Inserted.joins (sound : s.Sound) (few : s.roll.length < UInt32.size) (inserted : Inserted s e outcome next) :
    Joins s outcome next (s.hierarchy.tree.joining s.store s.directory e) := by
  obtain ⟨log, records⟩ := sound.hierarchy
  have narrow := tried_narrow sound few e
  have after := Tree.tried_traces s.store sound.directory records.traces e
  have order := Tree.tried_order s.hierarchy.tree s.store s.directory e
  have above (x : Entity) (new : x ∈ s.hierarchy.tree.joining s.store s.directory e) :
      (s.hierarchy.tree.tried s.store s.directory e).above? x = s.link? x :=
    (Tree.tried_above s.store sound.directory records.traces e narrow new).trans (link_eq sound x)
  have members := inserted.members sound
  rw [← inserted.tree] at after order above
  refine ⟨inserted.refused, inserted.idle, members, fun x new => ?_, fun x new orphan => ?_,
    fun x new parent named => ?_, fun x => inserted.world sound, fun x => inserted.unmoved sound, fun depth => ?_,
    inserted.frame⟩
  · rw [← above_tree inserted.aligned, above x new]
  · exact after.depth_root ((members x).mpr (Or.inr new)) ((above x new).trans orphan)
  · exact after.depth_child ((above x new).trans named)
  · rw [← tree_entities records.aligned, ← tree_entities inserted.aligned]
    exact order depth

end Inserted

theorem inserted_of_few (sound : s.Sound) (few : s.roll.length < UInt32.size) (e : Entity) :
    ∃ outcome next, s.addToHierarchy e = .ok (outcome, next) ∧ Inserted s e outcome next := by
  have done := add_to_hierarchy_ok sound e
  cases added : s.addToHierarchy e with
  | error fault =>
      rw [added] at done
      exact absurd few (Nat.not_lt.mpr done.2)
  | ok result =>
      rw [added] at done
      exact ⟨result.1, result.2, rfl, done⟩

theorem add_to_hierarchy_joins (sound : s.Sound) (few : s.roll.length < UInt32.size) (e : Entity) :
    ∃ outcome next path, s.addToHierarchy e = .ok (outcome, next) ∧ Joins s outcome next path ∧
      ∀ answer way, Verdict s e answer way ↔ answer = outcome ∧ way = path := by
  obtain ⟨outcome, next, added, inserted⟩ := inserted_of_few sound few e
  refine ⟨outcome, next, _, added, inserted.joins sound few, ?_⟩
  rw [inserted.answer]
  exact verdict_iff sound e

/-- In every state that a history leads to, with positions for all that are alive or members, inserting
an entity has the one outcome and adds the members that the links above it decide, each one level below
its parent, and leaves all other members as they are. -/
theorem run_joins {name : String} {settings : Settings} {registry : Registry} {first : Scene}
    {commands : List Command} {outcomes : List (Outcome Reply)} (genuine : registry.Genuine)
    (made : create name settings registry = .ok (.ok first))
    (ran : first.performAll commands = .ok (outcomes, s)) (few : s.roll.length < UInt32.size) (e : Entity) :
    ∃ outcome next path, s.addToHierarchy e = .ok (outcome, next) ∧ Joins s outcome next path ∧
      ∀ answer way, Verdict s e answer way ↔ answer = outcome ∧ way = path :=
  add_to_hierarchy_joins (run_sound (blank_of_created genuine made).sound ran).1 few e

set_option maxRecDepth 4000 in
theorem adoption_verdict : ∃ first outcomes s,
    create "world" { blockCapacity := 2, blockBytes := 128, maxBlocks := 1 } .builtins = .ok (.ok first) ∧
      first.performAll (adoption.take 3) = .ok (outcomes, s) ∧
      Verdict s ⟨1, 1⟩ (.ok ()) [⟨1, 1⟩, ⟨0, 1⟩] ∧ s.link? ⟨1, 1⟩ = some ⟨0, 1⟩ ∧
      s.isAlive ⟨0, 1⟩ = true ∧ s.hierarchy.pending = [] := by
  obtain ⟨first, outcomes, s, made, ran, alive, stranger, named, living, outside, orphan, moves, carries, calm⟩ :
      ∃ first outcomes s,
      create "world" { blockCapacity := 2, blockBytes := 128, maxBlocks := 1 } .builtins = .ok (.ok first) ∧
      first.performAll (adoption.take 3) = .ok (outcomes, s) ∧
      s.isAlive ⟨1, 1⟩ = true ∧ s.hierarchy.contains ⟨1, 1⟩ = false ∧ s.link? ⟨1, 1⟩ = some ⟨0, 1⟩ ∧
      s.isAlive ⟨0, 1⟩ = true ∧ s.hierarchy.contains ⟨0, 1⟩ = false ∧ s.link? ⟨0, 1⟩ = none ∧
      s.has ⟨1, 1⟩ .transform = true ∧ s.has ⟨0, 1⟩ .transform = true ∧ s.hierarchy.pending = [] :=
    ⟨_, _, _, rfl, rfl, rfl, rfl, rfl, rfl, rfl, rfl, rfl, rfl, rfl⟩
  have trail : Trail s ⟨1, 1⟩ [⟨1, 1⟩, ⟨0, 1⟩] ⟨0, 1⟩ :=
    .step [⟨1, 1⟩] ⟨1, 1⟩ ⟨0, 1⟩ (.start alive stranger) named living (by decide) outside
  exact ⟨first, outcomes, s, made, ran, .joined _ (.orphan _ _ trail orphan) (by simp [moves, carries]), named,
    living, calm⟩

theorem run_joins_adoption : ∃ first outcomes s next,
    create "world" { blockCapacity := 2, blockBytes := 128, maxBlocks := 1 } .builtins = .ok (.ok first) ∧
      first.performAll (adoption.take 3) = .ok (outcomes, s) ∧
      s.addToHierarchy ⟨1, 1⟩ = .ok (.ok (), next) ∧ Joins s (.ok ()) next [⟨1, 1⟩, ⟨0, 1⟩] := by
  obtain ⟨first, outcomes, s, made, ran, verdict, -⟩ := adoption_verdict
  have sparse := sparse_of_few (blank_of_created Registry.builtins_genuine made) (by decide) (reaches_end ran)
  obtain ⟨outcome, next, path, added, joins, only⟩ :=
    run_joins Registry.builtins_genuine made ran sparse.few ⟨1, 1⟩
  obtain ⟨rfl, rfl⟩ := (only _ _).mp verdict
  exact ⟨first, outcomes, s, next, made, ran, added, joins⟩

end EntityStore.Scene
