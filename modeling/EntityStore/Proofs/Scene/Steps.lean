import EntityStore.Proofs.Scene.Lifecycle
import EntityStore.Proofs.Scene.Visits
import EntityStore.Scene.Command

set_option autoImplicit false

namespace EntityStore

def Command.Quiet : Command → Prop
  | .matching _ | .query _ | .singleton _ | .addToHierarchy _ | .queueHierarchyInsert _ | .endFrame
  | .listen => True
  | _ => False

def Command.Creates : Command → Prop
  | .create _ | .spawn _ => True
  | _ => False

-- The commands that succeed whenever the world grants it. The others may lack room in the store or
-- depend on the hierarchy.
def Command.Sure : Command → Prop
  | .create _ | .spawn _ | .add _ _ | .remove _ _ | .singleton _ | .addToHierarchy _ => False
  | _ => True

-- What the world must have been for a command to succeed with a reply.
def World.Grants (registry : Registry) (w : World) : Command → Reply → Prop
  | .create _, reply | .spawn _, reply => ∃ e, reply = .entity e ∧ w e = none
  | .destroy e, _ | .enable e, _ | .disable e, _ => (w e).isSome = true
  | .add e value, _ => registry.Knows value.type ∧
      ∃ content, w e = some content ∧ content.components value.type.id = none
  | .remove e type, reply => registry.Knows type ∧ ∃ content old, reply = .value old ∧
      old.type = type ∧ w e = some content ∧ content.components type.id = some old.bytes
  | .replace e value, reply => registry.Knows value.type ∧ ∃ content old, reply = .value old ∧
      old.type = value.type ∧ w e = some content ∧ content.components value.type.id = some old.bytes
  | .deserialize e id document, _ => ∃ content d bytes, w e = some content ∧
      content.components id ≠ none ∧ registry.get? id = some d ∧ d.serializable = true ∧
      d.type.shape.decode document = some bytes
  | .visit q _ _, reply => q.ids.Nodup ∧ ∃ v rows, reply = .rows v rows
  | _, _ => True

namespace Scene

open Checked

variable {s next : Scene} {e : Entity}

inductive Steps (s next : Scene) : Command → Outcome Reply → World → Slots → Prop where
  | refused (command : Command) (error : StoreError)
      (denied : command.Sure → ∀ reply, ¬ s.world.Grants s.registry command reply) :
      Steps s next command (.error error) s.world s.slots
  | uncreated (command : Command) (creates : command.Creates) (error : StoreError) (e : Entity)
      (reserves : Reserves s.slots e) :
      Steps s next command (.error error) s.world
        (Function.update s.slots e.index.toNat (some (e.generation, false)))
  | create (signature : Signature) (e : Entity) (unused : s.world e = none)
      (reserves : Reserves s.slots e) :
      Steps s next (.create signature) (.ok (.entity e))
        (Function.update s.world e (some ⟨true, s.registry.defaults signature⟩))
        (Function.update s.slots e.index.toNat (some (e.generation, true)))
  | spawn (bundle : Bundle) (e : Entity) (unused : s.world e = none)
      (reserves : Reserves s.slots e) :
      Steps s next (.spawn bundle) (.ok (.entity e))
        (Function.update s.world e (some ⟨true, bundle.components⟩))
        (Function.update s.slots e.index.toNat (some (e.generation, true)))
  | destroy (e : Entity) (content : Content) (held : s.world e = some content) :
      Steps s next (.destroy e) (.ok .done) (Function.update s.world e none)
        (Function.update s.slots e.index.toNat (some (Record.nextGeneration e.generation, false)))
  | enable (e : Entity) (content : Content) (held : s.world e = some content) :
      Steps s next (.enable e) (.ok .done)
        (Function.update s.world e (some { content with enabled := true })) s.slots
  | disable (e : Entity) (content : Content) (held : s.world e = some content) :
      Steps s next (.disable e) (.ok .done)
        (Function.update s.world e (some { content with enabled := false })) s.slots
  | add (e : Entity) (value : Component) (content : Content) (held : s.world e = some content)
      (absent : content.components value.type.id = none) (known : s.registry.Knows value.type) :
      Steps s next (.add e value) (.ok .done)
        (Function.update s.world e (some (content.set value.type.id (some value.bytes)))) s.slots
  | remove (e : Entity) (type : ComponentType) (content : Content) (old : Component)
      (held : s.world e = some content) (same : old.type = type) (known : s.registry.Knows type)
      (had : content.components type.id = some old.bytes) :
      Steps s next (.remove e type) (.ok (.value old))
        (Function.update s.world e (some (content.set type.id none))) s.slots
  | replace (e : Entity) (value : Component) (content : Content) (old : Component)
      (held : s.world e = some content) (same : old.type = value.type)
      (known : s.registry.Knows value.type) (had : content.components value.type.id = some old.bytes) :
      Steps s next (.replace e value) (.ok (.value old))
        (Function.update s.world e (some (content.set value.type.id (some value.bytes)))) s.slots
  | deserialize (e : Entity) (id : ComponentId) (document : Document) (content : Content)
      (d : Descriptor) (bytes : List UInt8) (held : s.world e = some content)
      (present : content.components id ≠ none) (registered : s.registry.get? id = some d)
      (serializable : d.serializable = true) (decoded : d.type.shape.decode document = some bytes) :
      Steps s next (.deserialize e id document) (.ok .done)
        (Function.update s.world e (some (content.set id (some bytes)))) s.slots
  | quiet (command : Command) (reply : Reply) (quiet : command.Quiet) :
      Steps s next command (.ok reply) s.world s.slots
  | visit (q : Query) (limit : Option Nat) (edit : Store.Edit) (distinct : q.ids.Nodup) (v : View)
      (rows : List (Entity × List Component)) :
      Steps s next (.visit q limit edit) (.ok (.rows v rows)) (s.world.assign (assignments rows)) s.slots
  | updateHierarchy :
      Steps s next .updateHierarchy (.ok .done)
        (next.hierarchy.tree.levels.flatten.foldl (Hierarchy.stamp s.registry) s.world) s.slots
  | unload : Steps s next .unload (.ok .done) (fun _ => none) (cleared s.slots)

def Stepped (s : Scene) (command : Command) (outcome : Outcome Reply) (next : Scene) : Prop :=
  ∃ world slots, Steps s next command outcome world slots ∧ Becomes s next 3 world slots

theorem refused_step {limit : Nat} (becomes : Becomes s next limit s.world s.slots) (bound : limit ≤ 3)
    (command : Command) (error : StoreError)
    (denied : command.Sure → ∀ reply, ¬ s.world.Grants s.registry command reply) :
    Stepped s command (.error error) next :=
  ⟨_, _, .refused command error denied, becomes.mono bound⟩

theorem quiet_step (command : Command) (quiet : command.Quiet)
    (becomes : Becomes s next 0 s.world s.slots) (outcome : Outcome Reply)
    (sure : command.Sure → ∃ reply, outcome = .ok reply) : Stepped s command outcome next := by
  cases outcome with
  | error error =>
      refine refused_step becomes (by omega) command error fun certain => ?_
      obtain ⟨_, succeeded⟩ := sure certain
      contradiction
  | ok reply => exact ⟨_, _, .quiet command reply quiet, becomes.mono (by omega)⟩

theorem uncreated_step (uncreated : Uncreated s next e) (command : Command) (creates : command.Creates)
    (error : StoreError) : Stepped s command (.error error) next :=
  ⟨_, _, .uncreated command creates error e uncreated.reserves, uncreated.becomes.mono (by omega)⟩

theorem blocks_matching_ok (sound : s.Sound) (signature : Signature) :
    Becomes s (s.blocksMatching signature).2 0 s.world s.slots := by
  obtain ⟨cache, same⟩ := Store.matching_blocks_store s.store signature
  have ages := Store.ages_matching_blocks (s := s.store) signature
  rw [same] at ages
  have found := Store.sound_matching sound.store signature
  rw [same] at found
  have becomes := becomes_of_store sound _ found (Store.alike_cache s.store cache) 0 ⟨0, Nat.le_refl 0, ages⟩
    fun _ => rfl
  rw [← same] at becomes
  exact becomes

def carriers (s : Scene) (id : ComponentId) : List Entity :=
  let (blocks, next) := s.blocksMatching (Signature.empty.insert id)
  (blocks.filterMap next.store.block?).flatMap Block.entities

theorem singleton_entity_ok (sound : s.Sound) (id : ComponentId) : s.singletonEntity id =
    .ok (match s.carriers id with
      | [] => .error (.noSingleton id)
      | e :: _ => .ok e, (s.blocksMatching (Signature.empty.insert id)).2) := by
  have looked := (blocks_matching_ok sound (Signature.empty.insert id)).sound
  rw [singletonEntity, carriers]
  generalize s.blocksMatching (Signature.empty.insert id) = found at looked ⊢
  have readable (b : Block) (member : b ∈ found.1.filterMap found.2.store.block?) :
      b.readEntities = .ok b.entities := by
    obtain ⟨q, _, held⟩ := List.mem_filterMap.mp member
    exact (looked.store.keeps q b held).sound.shaped.read_entities
  simp only [mapM_ok _ _ _ readable, ok_bind, List.flatMap_def]
  cases ((found.1.filterMap found.2.store.block?).map Block.entities).flatten <;> rfl

theorem singleton_step (sound : s.Sound) (id : ComponentId) :
    ∃ outcome next, s.perform (.singleton id) = .ok (outcome, next) ∧
      Stepped s (.singleton id) outcome next := by
  refine ⟨_, _, congrArg (Except.map _) (singleton_entity_ok sound id), ?_⟩
  exact quiet_step (.singleton id) trivial (blocks_matching_ok sound _) _ fun sure => False.elim sure

theorem query_step (sound : s.Sound) (q : Query) :
    ∃ outcome next, s.perform (.query q) = .ok (outcome, next) ∧ Stepped s (.query q) outcome next := by
  have looked := blocks_matching_ok sound q.signature
  have read := Store.read_rows_ok looked.sound.store ⟨q, (s.blocksMatching q.signature).1⟩
  exact ⟨_, _, congrArg (Except.map _) read, quiet_step (.query q) trivial looked _ fun _ => ⟨_, rfl⟩⟩

theorem set_enabled_step (sound : s.Sound) (e : Entity) (enabled : Bool) :
    ∃ outcome next, s.setEnabled e enabled = .ok (outcome, next) ∧
      Stepped s (if enabled then .enable e else .disable e) (outcome.map perform.noted) next := by
  cases found : s.directory.location? e with
  | none =>
      refine ⟨_, s, set_enabled_stale found enabled, refused_step (becomes_refl sound) (by omega) _ _ ?_⟩
      have dead := dead_of_stale sound found
      cases enabled <;> exact fun _ reply granted => by simp [World.Grants, dead] at granted
  | some l =>
      obtain ⟨b, t, home⟩ := home_of sound found
      have crossed (next : Scene) (becomes : Becomes s next 1
          (Function.update s.world e (some { t.content with enabled })) s.slots) :
          Stepped s (if enabled then .enable e else .disable e) (.ok .done) next := by
        cases enabled with
        | true => exact ⟨_, _, .enable e t.content home.world, becomes.mono (by omega)⟩
        | false => exact ⟨_, _, .disable e t.content home.world, becomes.mono (by omega)⟩
      by_cases same : l.enabled = enabled
      · subst same
        refine ⟨.ok (), s, set_enabled_same found, crossed s ?_⟩
        have still : ({ t.content with enabled := l.enabled } : Content) = t.content := by
          rw [← home.enabled]
          rfl
        rw [still, ← home.world, Function.update_eq_self]
        exact (becomes_refl sound).mono (by omega)
      · obtain ⟨next, done, becomes⟩ := set_enabled_ok sound home enabled (Bool.eq_not_of_ne same)
        exact ⟨.ok (), next, done, crossed next becomes⟩

theorem destroy_step (sound : s.Sound) (e : Entity) :
    ∃ outcome next, s.destroy e = .ok (outcome, next) ∧
      Stepped s (.destroy e) (outcome.map perform.noted) next := by
  cases found : s.directory.location? e with
  | none =>
      refine ⟨_, s, destroy_stale found, refused_step (becomes_refl sound) (by omega) _ _ ?_⟩
      have dead := dead_of_stale sound found
      exact fun _ reply granted => by simp [World.Grants, dead] at granted
  | some l =>
      obtain ⟨b, t, home⟩ := home_of sound found
      obtain ⟨next, destroyed, becomes⟩ := destroy_ok sound found
      exact ⟨.ok (), next, destroyed, _, _, .destroy e t.content home.world, becomes.mono (by omega)⟩

theorem add_step (sound : s.Sound) (e : Entity) (value : Component) :
    Ensures s.Stops (s.addComponent e value) fun (outcome, next) =>
      Stepped s (.add e value) (outcome.map perform.noted) next := by
  cases found : s.directory.location? e with
  | none =>
      exact ensures_of_eq (add_component_stale found value)
        (refused_step (becomes_refl sound) (by omega) _ _ fun sure => False.elim sure)
  | some l =>
      obtain ⟨b, t, home⟩ := home_of sound found
      refine ensures_mono (add_component_ok sound home value) (fun _ stopped => stopped) ?_
      rintro ⟨outcome, next⟩ result
      cases outcome with
      | error error => exact refused_step result.2.1 (by omega) _ _ fun sure => False.elim sure
      | ok done =>
          obtain ⟨absent, known, becomes⟩ := result
          exact ⟨_, _, .add e value t.content home.world absent known, becomes⟩

theorem remove_step (sound : s.Sound) (e : Entity) (type : ComponentType) :
    Ensures s.Stops (s.removeComponent e type) fun (outcome, next) =>
      Stepped s (.remove e type) (outcome.map Reply.value) next := by
  cases found : s.directory.location? e with
  | none =>
      exact ensures_of_eq (remove_component_stale found type)
        (refused_step (becomes_refl sound) (by omega) _ _ fun sure => False.elim sure)
  | some l =>
      obtain ⟨b, t, home⟩ := home_of sound found
      refine ensures_mono (remove_component_ok sound home type) (fun _ stopped => stopped) ?_
      rintro ⟨outcome, next⟩ result
      cases outcome with
      | error error => exact refused_step result.2.1 (by omega) _ _ fun sure => False.elim sure
      | ok old =>
          obtain ⟨same, had, known, becomes⟩ := result
          exact ⟨_, _, .remove e type t.content old home.world same known had, becomes⟩

theorem replace_step (sound : s.Sound) (e : Entity) (value : Component) :
    ∃ outcome next, s.replace e value = .ok (outcome, next) ∧
      Stepped s (.replace e value) (outcome.map Reply.value) next := by
  cases found : s.directory.location? e with
  | none =>
      refine ⟨_, s, replace_stale found value, refused_step (becomes_refl sound) (by omega) _ _ ?_⟩
      rintro _ reply ⟨_, content, old, _, _, held, _⟩
      rw [dead_of_stale sound found] at held
      contradiction
  | some l =>
      obtain ⟨b, t, home⟩ := home_of sound found
      rcases replace_ok sound home value with ⟨old, next, replaced, known, same, had, becomes⟩ |
        ⟨refused, lacking⟩
      · exact ⟨.ok old, next, replaced, _, _, .replace e value t.content old home.world same known had,
          becomes.mono (by omega)⟩
      · refine ⟨_, s, refused, refused_step (becomes_refl sound) (by omega) _ _ ?_⟩
        rintro _ reply ⟨known, content, old, _, _, held, had⟩
        obtain rfl := Option.some.inj (home.world.symm.trans held)
        exact lacking ⟨known, fun absent => by simp [Tenant.content, absent] at had⟩

theorem deserialize_step (sound : s.Sound) (e : Entity) (id : ComponentId) (document : Document) :
    ∃ outcome next, s.deserializeComponent e id document = .ok (outcome, next) ∧
      Stepped s (.deserialize e id document) (outcome.map perform.noted) next := by
  obtain ⟨outcome, next, done, result⟩ := deserialize_component_ok sound e id document
  refine ⟨outcome, next, done, ?_⟩
  cases outcome with
  | error error =>
      obtain ⟨rfl, _, denied⟩ := result
      exact refused_step (becomes_refl sound) (by omega) _ error fun _ _ => denied
  | ok done =>
      obtain ⟨enabled, components, d, bytes, held, present, registered, serializable, decoded, becomes⟩ :=
        result
      exact ⟨_, _, .deserialize e id document ⟨enabled, components⟩ d bytes held present registered
        serializable decoded, becomes.mono (by omega)⟩

theorem visit_step (sound : s.Sound) (q : Query) (limit : Option Nat) (edit : Store.Edit) :
    ∃ outcome next, s.perform (.visit q limit edit) = .ok (outcome, next) ∧
      Stepped s (.visit q limit edit) outcome next := by
  cases repeated : q.firstRepeat? with
  | some id =>
      refine ⟨.error (.aliasedQuery id), s, ?_, refused_step (becomes_refl sound) (by omega) _ _ ?_⟩
      · simp only [perform, queryMut, repeated]
      · rintro _ reply ⟨distinct, _⟩
        have once : q.firstRepeat? = none :=
          (Signature.first_repeat_none_iff q.ids .empty).mpr ⟨distinct, fun id _ => by simp⟩
        rw [repeated] at once
        contradiction
  | none =>
      obtain ⟨distinct, _⟩ := (Signature.first_repeat_none_iff q.ids .empty).mp repeated
      have looked := blocks_matching_ok sound q.signature
      obtain ⟨rows, store, visited, writes, _⟩ := visit_ok looked.sound
        ⟨q, (s.blocksMatching q.signature).1⟩ distinct
        (Store.matching_blocks_ascend sound.store.books q.signature) limit edit
      have becomes := looked.trans writes.becomes
      rw [looked.world, looked.slots] at becomes
      refine ⟨_, _, ?_, _, _, .visit q limit edit distinct ⟨q, (s.blocksMatching q.signature).1⟩ rows,
        becomes.mono (by omega)⟩
      simp only [perform, queryMut, repeated, query, visited, ok_bind, pure_eq_ok]

theorem update_hierarchy_step (sound : s.Sound) :
    ∃ next, s.perform .updateHierarchy = .ok (.ok .done, next) ∧
      Stepped s .updateHierarchy (.ok .done) next := by
  obtain ⟨next, done, refreshed⟩ := update_hierarchy_ok sound
  exact ⟨next, congrArg (Except.map _) done, _, _, .updateHierarchy, refreshed.becomes.mono (by omega)⟩

theorem unload_step (sound : s.Sound) :
    ∃ next, s.perform .unload = .ok (.ok .done, next) ∧ Stepped s .unload (.ok .done) next := by
  obtain ⟨next, done, becomes⟩ := unload_ok sound
  exact ⟨next, congrArg (Except.map _) done, _, _, .unload, becomes.mono (by omega)⟩

theorem create_step (sound : s.Sound) (signature : Signature) :
    Ensures s.Stops (s.createEntity signature) fun (outcome, next) =>
      Stepped s (.create signature) (outcome.map Reply.entity) next := by
  refine ensures_mono (create_entity_ok sound signature) (fun _ stopped => stopped) ?_
  rintro ⟨outcome, next⟩ result
  cases outcome with
  | error error =>
      obtain ⟨_, _, uncreated⟩ := result
      exact uncreated_step uncreated (.create signature) trivial error
  | ok e =>
      have created : Created s next 2 e _ := result
      exact ⟨_, _, .create signature e created.unused created.reserves, created.becomes.mono (by omega)⟩

theorem spawn_step (sound : s.Sound) (bundle : Bundle) :
    Ensures s.Stops (s.spawn bundle) fun (outcome, next) =>
      Stepped s (.spawn bundle) (outcome.map Reply.entity) next := by
  refine ensures_mono (spawn_ok sound bundle) (fun _ stopped => stopped) ?_
  rintro ⟨outcome, next⟩ result
  cases outcome with
  | error error =>
      rcases result with ⟨rfl, _⟩ | ⟨_, _, uncreated⟩
      · exact refused_step (becomes_refl sound) (by omega) _ error fun sure => False.elim sure
      · exact uncreated_step uncreated (.spawn bundle) trivial error
  | ok e =>
      have created : Created s next 2 e _ := result
      exact ⟨_, _, .spawn bundle e created.unused created.reserves, created.becomes.mono (by omega)⟩

theorem perform_ok (sound : s.Sound) (command : Command) :
    Ensures s.Stops (s.perform command) fun (outcome, next) => Stepped s command outcome next := by
  cases command with
  | create signature => exact ensures_map _ (create_step sound signature) fun _ step => step
  | spawn bundle => exact ensures_map _ (spawn_step sound bundle) fun _ step => step
  | destroy e =>
      obtain ⟨outcome, next, done, step⟩ := destroy_step sound e
      exact ensures_map _ (ensures_of_eq done step) fun _ step => step
  | enable e =>
      obtain ⟨outcome, next, done, step⟩ := set_enabled_step sound e true
      exact ensures_map _ (ensures_of_eq done step) fun _ step => step
  | disable e =>
      obtain ⟨outcome, next, done, step⟩ := set_enabled_step sound e false
      exact ensures_map _ (ensures_of_eq done step) fun _ step => step
  | add e value => exact ensures_map _ (add_step sound e value) fun _ step => step
  | remove e type => exact ensures_map _ (remove_step sound e type) fun _ step => step
  | replace e value =>
      obtain ⟨outcome, next, done, step⟩ := replace_step sound e value
      exact ensures_map _ (ensures_of_eq done step) fun _ step => step
  | deserialize e id document =>
      obtain ⟨outcome, next, done, step⟩ := deserialize_step sound e id document
      exact ensures_map _ (ensures_of_eq done step) fun _ step => step
  | matching signature =>
      exact quiet_step (.matching signature) trivial (blocks_matching_ok sound signature) _ fun _ => ⟨_, rfl⟩
  | query q =>
      obtain ⟨outcome, next, done, step⟩ := query_step sound q
      exact ensures_of_eq done step
  | visit q limit edit =>
      obtain ⟨outcome, next, done, step⟩ := visit_step sound q limit edit
      exact ensures_of_eq done step
  | singleton id =>
      obtain ⟨outcome, next, done, step⟩ := singleton_step sound id
      exact ensures_of_eq done step
  | addToHierarchy e =>
      refine ensures_map _ (ensures_mono (add_to_hierarchy_ok sound e) (fun _ stopped => ?_)
        fun _ inserted => inserted) fun _ inserted => ?_
      · exact Or.inr (Or.inl (stopped.imp_right fun many sparse => Nat.not_lt.mpr many sparse.few))
      exact quiet_step (.addToHierarchy e) trivial (inserted.becomes sound) _ fun sure => False.elim sure
  | queueHierarchyInsert e =>
      have becomes : Becomes s (s.queueHierarchyInsert e) 0 s.world s.slots :=
        becomes_same sound rfl rfl rfl (Hierarchy.sound_queue sound.hierarchy e)
      exact quiet_step (.queueHierarchyInsert e) trivial becomes (.ok .done) fun _ => ⟨_, rfl⟩
  | updateHierarchy =>
      obtain ⟨next, done, step⟩ := update_hierarchy_step sound
      exact ensures_of_eq done step
  | endFrame =>
      refine ensures_map _ (ensures_mono (end_frame_ok sound) (fun _ stopped => Or.inr (Or.inl stopped))
        fun _ ended => ended) fun _ ended => ?_
      exact quiet_step .endFrame trivial (ended.becomes sound) (.ok .done) fun _ => ⟨_, rfl⟩
  | unload =>
      obtain ⟨next, done, step⟩ := unload_step sound
      exact ensures_of_eq done step
  | listen =>
      have becomes : Becomes s s.addListener 0 s.world s.slots :=
        becomes_same sound rfl rfl rfl sound.hierarchy
      exact quiet_step .listen trivial becomes (.ok (.listener s.listeners)) fun _ => ⟨_, rfl⟩

end Scene

end EntityStore
