import EntityStore.Proofs.Scene.Runs

set_option autoImplicit false

namespace EntityStore

def Event.Parting : Event → Prop
  | .destroyed _ _ | .released _ _ _ => True
  | _ => False

def Command.Parts : Command → Prop
  | .destroy _ | .remove _ _ | .unload => True
  | _ => False

def Command.Rearranges : Command → Prop
  | .addToHierarchy _ | .queueHierarchyInsert _ | .updateHierarchy | .endFrame | .unload | .listen => True
  | _ => False

namespace Scene

open Checked

variable {s next last : Scene} {e : Entity} {l : Location} {b : Block} {t : Tenant}

structure Tells (s next : Scene) (events : List Event) : Prop where
  listeners : next.listeners = s.listeners
  deliveries : next.deliveries =
    s.deliveries ++ events.flatMap fun event => (List.range s.listeners).map fun i => ⟨i, event⟩

structure Aside (s next : Scene) (events : List Event) : Prop extends Tells s next events where
  hierarchy : next.hierarchy = s.hierarchy
  frame : next.frame = s.frame

theorem tells_same (listeners : next.listeners = s.listeners) (deliveries : next.deliveries = s.deliveries) :
    Tells s next [] :=
  ⟨listeners, by rw [deliveries, List.flatMap_nil, List.append_nil]⟩

theorem aside_same (listeners : next.listeners = s.listeners) (deliveries : next.deliveries = s.deliveries)
    (hierarchy : next.hierarchy = s.hierarchy) (frame : next.frame = s.frame) : Aside s next [] :=
  ⟨tells_same listeners deliveries, hierarchy, frame⟩

theorem Tells.trans {first second : List Event} (start : Tells s next first) (rest : Tells next last second) :
    Tells s last (first ++ second) := by
  refine ⟨rest.listeners.trans start.listeners, ?_⟩
  rw [rest.deliveries, start.deliveries, start.listeners, List.flatMap_append, List.append_assoc]

theorem Aside.trans {first second : List Event} (start : Aside s next first) (rest : Aside next last second) :
    Aside s last (first ++ second) :=
  ⟨start.toTells.trans rest.toTells, rest.hierarchy.trans start.hierarchy, rest.frame.trans start.frame⟩

theorem announce_aside (s : Scene) (event : Event) : Aside s (s.announce event) [event] :=
  ⟨⟨rfl, by rw [List.flatMap_singleton]; rfl⟩, rfl, rfl⟩

theorem announce_all_aside (s : Scene) (events : List Event) : Aside s (s.announceAll events) events := by
  induction events generalizing s with
  | nil => exact aside_same rfl rfl rfl rfl
  | cons event rest ih => exact (announce_aside s event).trans (ih (s.announce event))

abbrev Quietly {α : Type} (s : Scene) (result : Checked (α × Scene)) : Prop :=
  Ensures (fun _ => True) result fun (_, next) => Aside s next []

abbrev Mildly {α : Type} (s : Scene) (result : Checked (α × Scene)) : Prop :=
  Ensures (fun _ => True) result fun (_, next) =>
    ∃ events, (∀ event ∈ events, ¬ event.Parting) ∧ Aside s next events

theorem mildly_of_quietly {α : Type} {result : Checked (α × Scene)} (quietly : Quietly s result) :
    Mildly s result :=
  ensures_mono quietly (fun _ stopped => stopped) fun _ aside => ⟨[], fun _ member => by contradiction, aside⟩

section Quiet

theorem place_new_aside (s : Scene) (signature : Signature) : Quietly s (s.placeNew signature) := by
  apply ensures_bind _ (ensures_any _)
  intro reserved _
  apply ensures_bind _ (ensures_any _)
  intro inserted _
  obtain ⟨outcome, store⟩ := inserted
  cases outcome with
  | error error => exact ensures_bind _ (ensures_any _) fun directory _ => aside_same rfl rfl rfl rfl
  | ok spot => exact ensures_bind _ (ensures_any _) fun directory _ => aside_same rfl rfl rfl rfl

theorem create_entity_aside (s : Scene) (signature : Signature) : Quietly s (s.createEntity signature) :=
  ensures_bind _ (place_new_aside s signature) fun _ placed => placed

theorem spawn_aside (s : Scene) (bundle : Bundle) : Quietly s (s.spawn bundle) := by
  rw [spawn]
  cases bundle.repeated? with
  | some id => exact aside_same rfl rfl rfl rfl
  | none =>
      cases bundle.check s.registry with
      | error error => exact aside_same rfl rfl rfl rfl
      | ok checked =>
          apply ensures_bind _ (place_new_aside s bundle.signature)
          intro placed aside
          obtain ⟨outcome, next⟩ := placed
          cases outcome with
          | error error => exact aside
          | ok home =>
              simp only
              cases next.store.block? home.2.1 with
              | none => exact aside
              | some block =>
                  exact ensures_bind _ (ensures_any _) fun written _ =>
                    ⟨⟨aside.listeners, aside.deliveries⟩, aside.hierarchy, aside.frame⟩

theorem replace_aside (s : Scene) (e : Entity) (value : Component) : Quietly s (s.replace e value) := by
  rw [replace]
  cases s.locate e with
  | error error => exact aside_same rfl rfl rfl rfl
  | ok l =>
      simp only
      cases s.store.block? l.block with
      | none => exact aside_same rfl rfl rfl rfl
      | some block =>
          apply ensures_bind _ (ensures_any _)
          intro found _
          cases found with
          | none => exact aside_same rfl rfl rfl rfl
          | some old =>
              apply ensures_bind _ (ensures_any _)
              intro written _
              cases written <;> exact aside_same rfl rfl rfl rfl

theorem deserialize_component_aside (s : Scene) (e : Entity) (id : ComponentId) (document : Document) :
    Quietly s (s.deserializeComponent e id document) := by
  rw [deserializeComponent]
  cases s.registry.find id with
  | error error => exact aside_same rfl rfl rfl rfl
  | ok descriptor =>
      simp only
      cases s.locate e with
      | error error => exact aside_same rfl rfl rfl rfl
      | ok l =>
          simp only
          cases s.store.block? l.block with
          | none => exact aside_same rfl rfl rfl rfl
          | some block =>
              apply ensures_bind _ (ensures_any _)
              intro found _
              cases found with
              | none => exact aside_same rfl rfl rfl rfl
              | some old =>
                  apply ensures_bind _ (ensures_any _)
                  intro decoded _
                  cases decoded with
                  | error error => exact aside_same rfl rfl rfl rfl
                  | ok bytes =>
                      apply ensures_bind _ (ensures_any _)
                      intro written _
                      cases written <;> exact aside_same rfl rfl rfl rfl

theorem query_mut_aside (s : Scene) (q : Query) : Aside s (s.queryMut q).2 [] := by
  rw [queryMut]
  cases q.firstRepeat? <;> exact aside_same rfl rfl rfl rfl

theorem singleton_aside (s : Scene) (id : ComponentId) : Quietly s (s.singletonEntity id) := by
  apply ensures_bind _ (ensures_any _)
  intro found _
  cases found.flatten <;> exact aside_same rfl rfl rfl rfl

theorem visit_aside (s : Scene) (v : View) (limit : Option Nat) (edit : Store.Edit) :
    Quietly s (s.visit v limit edit) := by
  apply ensures_bind _ (ensures_any _)
  intro rows _
  exact ensures_bind _ (ensures_any _) fun visited _ => aside_same rfl rfl rfl rfl

end Quiet

section Parting

theorem set_enabled_aside (s : Scene) (e : Entity) (enabled : Bool) : Mildly s (s.setEnabled e enabled) := by
  have nothing : ∃ events : List Event, (∀ event ∈ events, ¬ event.Parting) ∧ Aside s s events :=
    ⟨[], fun _ member => by contradiction, aside_same rfl rfl rfl rfl⟩
  rw [setEnabled]
  cases s.locate e with
  | error error => exact nothing
  | ok l =>
      by_cases still : l.enabled = enabled
      · simp only [if_pos still]
        exact nothing
      · simp only [if_neg still]
        cases s.store.block? l.block with
        | none => exact nothing
        | some block =>
            cases enabled <;>
            apply ensures_bind _ (ensures_any _) <;>
            intro crossed _ <;>
            cases crossed.1.displaced <;>
            · apply ensures_bind _ (ensures_any _)
              intro noted _
              apply ensures_bind _ (ensures_any _)
              intro landed _
              refine ⟨[_], fun event single => ?_, ⟨rfl, by rw [List.flatMap_singleton]; rfl⟩, rfl, rfl⟩
              exact List.mem_singleton.mp single ▸ not_false

theorem destroy_aside (home : Home s e l b t) :
    Ensures (fun _ => True) (s.destroy e) fun (outcome, next) =>
      outcome = .ok () ∧ Aside s next (farewellOf e b l.row) := by
  simp only [destroy, locate_some home.found, home.block, farewell_ok home.keeps.sound.shaped, ok_bind]
  have told := announce_all_aside s (farewellOf e b l.row)
  apply ensures_bind _ (ensures_any _)
  intro removed _
  apply ensures_bind _ (ensures_any _)
  intro noted _
  apply ensures_bind _ (ensures_any _)
  intro released _
  apply ensures_bind _ (ensures_any _)
  intro final _
  exact ⟨rfl, ⟨told.listeners, told.deliveries⟩, told.hierarchy, told.frame⟩

theorem migrate_aside (sound : s.Sound) (home : Home s e l b t) (target : Signature)
    (other : target ≠ b.signature) :
    Ensures (fun _ => True) (s.migrate e target) fun (outcome, next) =>
      Aside s next (match outcome with
        | .error _ => []
        | .ok () => releasesOf e b l.row target) := by
  simp only [migrate, locate_some home.found]
  refine ensures_bind _ (ensures_mono (Store.acquire_ok sound.store target) (fun _ _ => trivial)
    fun _ post => post) ?_
  rintro ⟨outcome, store⟩ ⟨storeSound, alike, _, acquired⟩
  cases outcome with
  | error error => exact aside_same rfl rfl rfl rfl
  | ok newId =>
      obtain ⟨newBlock, room⟩ := acquired
      have pair := room_pair home room other
      simp only [pair, ok_bind]
      apply ensures_bind _ (ensures_any _)
      intro pushed _
      cases pushed with
      | none => exact aside_same rfl rfl rfl rfl
      | some arrived =>
          have told := announce_all_aside s (releasesOf e b l.row target)
          apply ensures_bind _ (ensures_any _)
          intro copied _
          rw [releases_ok home.keeps.sound.shaped, ok_bind, ← releasesOf]
          apply ensures_bind _ (ensures_any _)
          intro removed _
          cases l.enabled
          case' false =>
            apply ensures_bind _ (ensures_any _)
            intro crossed _
          all_goals
            apply ensures_bind _ (ensures_any _)
            intro settled _
            apply ensures_bind _ (ensures_any _)
            intro noted _
            apply ensures_bind _ (ensures_any _)
            intro final _
            apply ensures_bind _ (ensures_any _)
            intro directory _
            exact ⟨⟨told.listeners, told.deliveries⟩, told.hierarchy, told.frame⟩

theorem releases_kept (e : Entity) (b : Block) (row : Nat) (kept : Signature)
    (whole : ∀ c ∈ b.columns, kept.contains c.descriptor.id = true) : releasesOf e b row kept = [] := by
  rw [releasesOf, releasesIn, List.filterMap_eq_nil_iff]
  intro c member
  simp [whole c member]

theorem add_component_aside (sound : s.Sound) (e : Entity) (value : Component) :
    Quietly s (s.addComponent e value) := by
  cases found : s.directory.location? e with
  | none => exact ensures_of_eq (add_component_stale found value) (aside_same rfl rfl rfl rfl)
  | some l =>
      obtain ⟨b, t, home⟩ := home_of sound found
      simp only [addComponent, signature_of_ok home]
      by_cases present : b.signature.contains value.type.id = true
      · rw [if_pos present]
        exact aside_same rfl rfl rfl rfl
      · rw [if_neg present]
        cases s.registry.check value.type with
        | error error => exact aside_same rfl rfl rfl rfl
        | ok done =>
            have grows : b.signature.insert value.type.id ≠ b.signature := by
              intro same
              rw [← same, Signature.contains_insert] at present
              simp at present
            have nothing : releasesOf e b l.row (b.signature.insert value.type.id) = [] := by
              refine releases_kept e b l.row _ fun c member => ?_
              rw [Signature.contains_insert, ← Block.column_some_iff home.keeps.sound.laid,
                Block.column_of_member home.keeps.sound.laid c member]
              simp
            refine ensures_bind _ (migrate_aside sound home _ grows) ?_
            rintro ⟨outcome, middle⟩ aside
            cases outcome with
            | error error => exact aside
            | ok moved =>
                have aside : Aside s middle (releasesOf e b l.row (b.signature.insert value.type.id)) := aside
                rw [nothing] at aside
                exact ensures_bind _ (replace_aside middle e value) fun replaced rest => aside.trans rest

theorem remove_component_aside (sound : s.Sound) (home : Home s e l b t) (type : ComponentType) :
    Ensures (fun _ => True) (s.removeComponent e type) fun (outcome, next) =>
      Aside s next (match outcome with
        | .error _ => []
        | .ok _ => releasesOf e b l.row (b.signature.erase type.id)) := by
  unfold removeComponent
  rcases get_ok sound home type with ⟨value, got, same, known, bytes⟩ | ⟨missing, _⟩
  · simp only [got, ok_bind, signature_of_ok home]
    have present : b.signature.contains type.id = true := by
      rw [signed home, bytes]
      rfl
    have shrinks : b.signature.erase type.id ≠ b.signature := by
      intro same
      rw [← same, Signature.contains_erase] at present
      simp at present
    refine ensures_bind _ (migrate_aside sound home _ shrinks) ?_
    rintro ⟨outcome, next⟩ aside
    cases outcome <;> exact aside
  · simp only [missing, ok_bind]
    exact aside_same rfl rfl rfl rfl

structure Unloads (s next : Scene) : Prop
    extends Tells s next ((s.store.blocks.map Prod.snd).flatMap farewellsOf) where
  hierarchy : next.hierarchy = .empty
  frame : next.frame = s.frame

theorem unload_tells (sound : s.Sound) : Ensures (fun _ => True) s.unload fun next => Unloads s next := by
  have told := announce_all_aside s ((s.store.blocks.map Prod.snd).flatMap farewellsOf)
  rw [unload_eq sound]
  exact ensures_map _ (ensures_any _) fun store _ => ⟨⟨told.listeners, told.deliveries⟩, rfl, told.frame⟩

end Parting

section Perform

-- What a command tells: the end of an entity or of components is told by three commands only.
inductive Says (s : Scene) : Command → Outcome Reply → List Event → Prop where
  | destroy (e : Entity) (l : Location) (b : Block) (t : Tenant) (home : Home s e l b t) :
      Says s (.destroy e) (.ok .done) (farewellOf e b l.row)
  | remove (e : Entity) (type : ComponentType) (value : Component) (l : Location) (b : Block) (t : Tenant)
      (home : Home s e l b t) :
      Says s (.remove e type) (.ok (.value value)) (releasesOf e b l.row (b.signature.erase type.id))
  | unload : Says s .unload (.ok .done) ((s.store.blocks.map Prod.snd).flatMap farewellsOf)
  | other (command : Command) (outcome : Outcome Reply) (told : List Event)
      (lasting : ∀ reply, outcome = .ok reply → ¬ command.Parts)
      (mild : ∀ event ∈ told, ¬ event.Parting) : Says s command outcome told

theorem says_nothing (command : Command) (outcome : Outcome Reply)
    (lasting : ∀ reply, outcome = .ok reply → ¬ command.Parts) : Says s command outcome [] :=
  .other command outcome [] lasting fun _ member => by contradiction

abbrev Speaks (s : Scene) (command : Command) (result : Checked (Outcome Reply × Scene)) : Prop :=
  Ensures (fun _ => True) result fun (outcome, next) => ∃ told, Says s command outcome told ∧ Aside s next told

theorem speaks_nothing {command : Command} {outcome : Outcome Reply} {result : Checked (Outcome Reply × Scene)}
    (done : result = .ok (outcome, s)) (lasting : ∀ reply, outcome = .ok reply → ¬ command.Parts) :
    Speaks s command result :=
  ensures_of_eq done ⟨[], says_nothing command outcome lasting, aside_same rfl rfl rfl rfl⟩

theorem mildly_speaks {α : Type} {result : Checked (Outcome α × Scene)} (mildly : Mildly s result)
    (reply : α → Reply) (command : Command) (lasting : ¬ command.Parts) :
    Speaks s command (perform.told reply result) :=
  ensures_map _ mildly fun _ ⟨events, mild, aside⟩ =>
    ⟨events, .other command _ events (fun _ _ => lasting) mild, aside⟩

theorem quietly_speaks {α : Type} {result : Checked (Outcome α × Scene)} (quietly : Quietly s result)
    (reply : α → Reply) (command : Command) (lasting : ¬ command.Parts) :
    Speaks s command (perform.told reply result) :=
  mildly_speaks (mildly_of_quietly quietly) reply command lasting

theorem quiet_speaks {command : Command} {result : Checked (Outcome Reply × Scene)} (quietly : Quietly s result)
    (lasting : ¬ command.Parts) : Speaks s command result :=
  ensures_mono quietly (fun _ stopped => stopped) fun _ aside =>
    ⟨[], says_nothing command _ fun _ _ => lasting, aside⟩

theorem destroy_speaks (sound : s.Sound) (e : Entity) : Speaks s (.destroy e) (s.perform (.destroy e)) := by
  cases found : s.directory.location? e with
  | none =>
      exact speaks_nothing (congrArg (perform.told perform.noted) (destroy_stale found)) fun _ same => by
        contradiction
  | some l =>
      obtain ⟨b, t, home⟩ := home_of sound found
      refine ensures_map _ (destroy_aside home) ?_
      rintro ⟨_, next⟩ ⟨rfl, aside⟩
      exact ⟨_, .destroy e l b t home, aside⟩

theorem remove_speaks (sound : s.Sound) (e : Entity) (type : ComponentType) :
    Speaks s (.remove e type) (s.perform (.remove e type)) := by
  cases found : s.directory.location? e with
  | none =>
      exact speaks_nothing (congrArg (perform.told .value) (remove_component_stale found type)) fun _ same => by
        contradiction
  | some l =>
      obtain ⟨b, t, home⟩ := home_of sound found
      refine ensures_map _ (remove_component_aside sound home type) ?_
      rintro ⟨outcome, next⟩ aside
      cases outcome with
      | error error => exact ⟨[], says_nothing _ _ fun _ same => by contradiction, aside⟩
      | ok value => exact ⟨_, .remove e type value l b t home, aside⟩

theorem visit_quietly (s : Scene) (q : Query) (limit : Option Nat) (edit : Store.Edit) :
    Quietly s (s.perform (.visit q limit edit)) := by
  have looked := query_mut_aside s q
  simp only [perform]
  generalize s.queryMut q = asked at looked
  obtain ⟨answer, middle⟩ := asked
  cases answer with
  | error error => exact looked
  | ok view => exact ensures_bind _ (visit_aside middle view limit edit) fun _ visited => looked.trans visited

theorem perform_speaks (sound : s.Sound) (command : Command) (settled : ¬ command.Rearranges) :
    Speaks s command (s.perform command) := by
  cases command with
  | create signature => exact quietly_speaks (create_entity_aside s signature) .entity _ not_false
  | spawn bundle => exact quietly_speaks (spawn_aside s bundle) .entity _ not_false
  | destroy e => exact destroy_speaks sound e
  | enable e => exact mildly_speaks (set_enabled_aside s e true) perform.noted (.enable e) not_false
  | disable e => exact mildly_speaks (set_enabled_aside s e false) perform.noted (.disable e) not_false
  | add e value => exact quietly_speaks (add_component_aside sound e value) perform.noted _ not_false
  | remove e type => exact remove_speaks sound e type
  | replace e value => exact quietly_speaks (replace_aside s e value) .value _ not_false
  | deserialize e id document =>
      exact quietly_speaks (deserialize_component_aside s e id document) perform.noted _ not_false
  | matching signature => exact ⟨[], says_nothing _ _ fun _ _ => not_false, aside_same rfl rfl rfl rfl⟩
  | query q => exact quiet_speaks (ensures_map _ (ensures_any _) fun _ _ => aside_same rfl rfl rfl rfl) not_false
  | visit q limit edit => exact quiet_speaks (visit_quietly s q limit edit) not_false
  | singleton id => exact quietly_speaks (singleton_aside s id) .entity _ not_false
  | addToHierarchy | queueHierarchyInsert | updateHierarchy | endFrame | unload | listen =>
      exact absurd trivial settled

inductive Course (s next : Scene) : Command → Outcome Reply → Prop where
  | aside (command : Command) (outcome : Outcome Reply) (settled : ¬ command.Rearranges) (told : List Event)
      (spoken : Says s command outcome told) (aside : Aside s next told) : Course s next command outcome
  | insert (e : Entity) (result : Outcome Unit) (inserted : Inserted s e result next) :
      Course s next (.addToHierarchy e) (result.map perform.noted)
  | queue (e : Entity) (same : next = s.queueHierarchyInsert e) :
      Course s next (.queueHierarchyInsert e) (.ok .done)
  | update (refreshed : Refreshed s next) : Course s next .updateHierarchy (.ok .done)
  | endFrame (ended : Ended s next) : Course s next .endFrame (.ok .done)
  | unload (unloads : Unloads s next) : Course s next .unload (.ok .done)
  | listen (same : next = s.addListener) : Course s next .listen (.ok (.listener s.listeners))

theorem course_ok (sound : s.Sound) (command : Command) :
    Ensures (fun _ => True) (s.perform command) fun (outcome, next) => Course s next command outcome := by
  by_cases settled : command.Rearranges
  · cases command with
    | addToHierarchy e =>
        refine ensures_map _ (ensures_mono (add_to_hierarchy_ok sound e) (fun _ _ => trivial) fun _ post => post) ?_
        exact fun result inserted => .insert e result.1 inserted
    | queueHierarchyInsert e => exact .queue e rfl
    | updateHierarchy =>
        obtain ⟨final, done, refreshed⟩ := update_hierarchy_ok sound
        exact ensures_of_eq (congrArg (Except.map _) done) (.update refreshed)
    | endFrame =>
        refine ensures_map _ (ensures_mono (end_frame_ok sound) (fun _ _ => trivial) fun _ post => post) ?_
        exact fun final ended => .endFrame ended
    | unload => exact ensures_map _ (unload_tells sound) fun final unloads => .unload unloads
    | listen => exact .listen rfl
    | _ => exact False.elim settled
  · refine ensures_mono (perform_speaks sound command settled) (fun _ _ => trivial) ?_
    rintro ⟨_, final⟩ ⟨told, spoken, aside⟩
    exact .aside command _ settled told spoken aside

theorem perform_course (sound : s.Sound) {command : Command} {outcome : Outcome Reply}
    (performed : s.perform command = .ok (outcome, next)) : Course s next command outcome := by
  have course := course_ok sound command
  rw [performed] at course
  exact course

end Perform

end Scene

end EntityStore
