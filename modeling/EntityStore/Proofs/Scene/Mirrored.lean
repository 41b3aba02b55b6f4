import EntityStore.Proofs.Hierarchy.Mirrored
import EntityStore.Proofs.Scene.Sound
import EntityStore.Scene.Command

set_option autoImplicit false

namespace EntityStore.Scene

open Checked

def rebased (s : Scene) (f : Settings → Settings) (store : Store) : Scene :=
  { s with settings := f s.settings, store }

inductive Beside {α : Type} (f : Settings → Settings) (R : Store → Store → Prop) : α × Scene → α × Scene → Prop where
  | both (answer : α) (s : Scene) {store : Store} (related : R s.store store) :
      Beside f R (answer, s) (answer, s.rebased f store)

variable {registry : Registry} {R : Store → Store → Prop} {f : Settings → Settings} {s : Scene} {other : Store}

section Parts

variable (s : Scene) (f : Settings → Settings) (other : Store)

@[simp] theorem rebased_store : (s.rebased f other).store = other := rfl

@[simp] theorem rebased_directory : (s.rebased f other).directory = s.directory := rfl

@[simp] theorem rebased_hierarchy : (s.rebased f other).hierarchy = s.hierarchy := rfl

@[simp] theorem rebased_registry : (s.rebased f other).registry = s.registry := rfl

@[simp] theorem rebased_locate (e : Entity) : (s.rebased f other).locate e = s.locate e := rfl

theorem announce_all_rebased (events : List Event) :
    (s.rebased f other).announceAll events = (s.announceAll events).rebased f other := by
  induction events generalizing s with
  | nil => rfl
  | cons event rest ih => exact ih (s.announce event)

end Parts

variable (mirrors : Store.Mirrors registry R) (related : R s.store other)

include mirrors related

section Answers

theorem block_of_rebased (e : Entity) : (s.rebased f other).blockOf e = s.blockOf e := by
  simp only [blockOf, rebased_locate, rebased_store, Store.block_mirrored mirrors related]

theorem signature_rebased (e : Entity) : (s.rebased f other).signatureOf e = s.signatureOf e := by
  rw [signatureOf, block_of_rebased mirrors related, signatureOf]

theorem get_rebased (e : Entity) (type : ComponentType) : (s.rebased f other).get e type = s.get e type := by
  rw [get, block_of_rebased mirrors related, get]

end Answers

section Lifecycle

theorem place_new_beside (known : s.registry = registry) (signature : Signature) :
    Alongside (Beside f R) (s.placeNew signature) ((s.rebased f other).placeNew signature) := by
  subst known
  refine alongside_bind_same _ fun reserved => ?_
  refine alongside_bind (Store.insert_mirrored mirrors related signature reserved.1) fun _ _ inserted => ?_
  obtain ⟨outcome, related⟩ := inserted
  cases outcome with
  | error error => exact alongside_bind_same _ fun directory => .ok (.both _ _ related)
  | ok spot => exact alongside_bind_same _ fun directory => .ok (.both _ _ related)

theorem create_entity_beside (known : s.registry = registry) (signature : Signature) :
    Alongside (Beside f R) (s.createEntity signature) ((s.rebased f other).createEntity signature) := by
  refine alongside_bind (place_new_beside mirrors related known signature) fun _ _ placed => ?_
  obtain ⟨outcome, next, related⟩ := placed
  exact .ok (.both _ _ related)

theorem spawn_beside (known : s.registry = registry) (bundle : Bundle) :
    Alongside (Beside f R) (s.spawn bundle) ((s.rebased f other).spawn bundle) := by
  rw [spawn, spawn, rebased_registry]
  cases bundle.repeated? with
  | some id => exact .ok (.both _ _ related)
  | none =>
      cases bundle.check s.registry with
      | error error => exact .ok (.both _ _ related)
      | ok checked =>
          refine alongside_bind (place_new_beside mirrors related known bundle.signature) fun _ _ placed => ?_
          obtain ⟨outcome, next, related⟩ := placed
          cases outcome with
          | error error => exact .ok (.both _ _ related)
          | ok home =>
              simp only [rebased_store, Store.block_mirrored mirrors related]
              cases next.store.block? home.2.1 with
              | none => exact .ok (.both _ _ related)
              | some block =>
                  exact alongside_bind_same _ fun written => .ok (.both _ { next with store := _ } (mirrors.put _ _ related))

theorem release_put_mirrored (id : BlockId) (block : Block) :
    Alongside (Store.Abreast R) ((s.store.put id block).bump.releaseIfEmpty id)
      ((other.put id block).bump.releaseIfEmpty id) :=
  Store.release_if_empty_mirrored mirrors (mirrors.bump (mirrors.put id block related)) id

theorem destroy_beside (e : Entity) : Alongside (Beside f R) (s.destroy e) ((s.rebased f other).destroy e) := by
  rw [destroy, destroy, rebased_locate]
  cases s.locate e with
  | error error => exact .ok (.both _ _ related)
  | ok l =>
      simp only [rebased_store, Store.block_mirrored mirrors related]
      cases s.store.block? l.block with
      | none => exact .ok (.both _ _ related)
      | some block =>
          refine alongside_bind_same _ fun events => ?_
          obtain ⟨deliveries, told⟩ := announce_all_eq s events
          simp only [announce_all_rebased, told, rebased_directory, rebased_store]
          refine alongside_bind_same _ fun removed => alongside_bind_same _ fun noted => ?_
          refine alongside_bind_same _ fun released => ?_
          refine alongside_bind (release_put_mirrored mirrors related l.block removed.2) fun _ _ freed => ?_
          obtain ⟨emptied, related⟩ := freed
          exact .ok (.both _ { s with store := _, directory := released, deliveries } related)

theorem set_enabled_beside (e : Entity) (enabled : Bool) :
    Alongside (Beside f R) (s.setEnabled e enabled) ((s.rebased f other).setEnabled e enabled) := by
  rw [setEnabled, setEnabled, rebased_locate]
  cases s.locate e with
  | error error => exact .ok (.both _ _ related)
  | ok l =>
      by_cases still : l.enabled = enabled
      · simp only [if_pos still]
        exact .ok (.both _ _ related)
      · simp only [if_neg still, rebased_store, rebased_directory, Store.block_mirrored mirrors related]
        cases s.store.block? l.block with
        | none => exact .ok (.both _ _ related)
        | some block =>
            cases enabled
            all_goals
              refine alongside_bind_same _ fun crossed => ?_
              have put := mirrors.bump (mirrors.put l.block crossed.2 related)
              cases crossed.1.displaced with
              | none =>
                  simp only [pure_eq_ok, ok_bind]
                  refine alongside_bind_same _ fun landed => ?_
                  exact .ok (.both _ (announce { s with store := _, directory := _ } _) put)
              | some displaced =>
                  refine alongside_bind_same _ fun noted => alongside_bind_same _ fun landed => ?_
                  exact .ok (.both _ (announce { s with store := _, directory := _ } _) put)

theorem unload_beside : Alongside (fun x y => ∃ store, R x.store store ∧ y = x.rebased f store) s.unload
    (s.rebased f other).unload := by
  have blocks : other.blocks = s.store.blocks := by
    rw [Store.blocks, mirrors.pool related, Store.blocks]
  rw [unload, unload, rebased_store, blocks]
  refine alongside_bind_same _ fun events => ?_
  obtain ⟨deliveries, told⟩ := announce_all_eq s events
  simp only [announce_all_rebased, told, rebased_directory, rebased_store]
  exact alongside_bind (mirrors.clear related) fun _ _ cleared => .ok ⟨_, cleared, rfl⟩

end Lifecycle

section Components

theorem replace_beside (e : Entity) (value : Component) :
    Alongside (Beside f R) (s.replace e value) ((s.rebased f other).replace e value) := by
  rw [replace, replace, rebased_locate]
  cases s.locate e with
  | error error => exact .ok (.both _ _ related)
  | ok l =>
      simp only [rebased_store, Store.block_mirrored mirrors related]
      cases s.store.block? l.block with
      | none => exact .ok (.both _ _ related)
      | some block =>
          refine alongside_bind_same _ fun found => ?_
          cases found with
          | none => exact .ok (.both _ _ related)
          | some old =>
              refine alongside_bind_same _ fun written => ?_
              cases written with
              | none => exact .ok (.both _ _ related)
              | some block => exact .ok (.both _ { s with store := _ } (mirrors.put _ _ related))

theorem migrate_beside (known : s.registry = registry) (e : Entity) (target : Signature) :
    Alongside (Beside f R) (s.migrate e target) ((s.rebased f other).migrate e target) := by
  subst known
  rw [migrate, migrate, rebased_locate]
  cases s.locate e with
  | error error => exact .ok (.both _ _ related)
  | ok old =>
      refine alongside_bind (mirrors.acquire target related) fun _ _ acquired => ?_
      obtain ⟨outcome, related⟩ := acquired
      cases outcome with
      | error error => exact .ok (.both _ { s with store := _ } related)
      | ok newId =>
          simp only [mirrors.pool related]
          refine alongside_bind_same _ fun pair => ?_
          cases pair with
          | none => exact .ok (.both _ { s with store := _ } related)
          | some pair =>
              refine alongside_bind_same _ fun pushed => ?_
              cases pushed with
              | none => exact .ok (.both _ { s with store := _ } related)
              | some arrived =>
                  refine alongside_bind_same _ fun copied => alongside_bind_same _ fun events => ?_
                  obtain ⟨deliveries, told⟩ := announce_all_eq s events
                  simp only [announce_all_rebased, told, rebased_directory]
                  refine alongside_bind_same _ fun removed => ?_
                  cases old.enabled
                  -- A disabled entity crosses over in its new block.
                  case' false => refine alongside_bind_same _ fun crossed => ?_
                  all_goals
                    refine alongside_bind_same _ fun settled => alongside_bind_same _ fun noted => ?_
                    have put := mirrors.bump (mirrors.put old.block removed.2 (mirrors.put newId settled.2 related))
                    refine alongside_bind (Store.release_if_empty_mirrored mirrors put old.block) fun _ _ freed => ?_
                    obtain ⟨emptied, related⟩ := freed
                    exact alongside_bind_same _ fun landed =>
                      .ok (.both _ { s with store := _, directory := landed, deliveries } related)

theorem add_component_beside (known : s.registry = registry) (e : Entity) (value : Component) :
    Alongside (Beside f R) (s.addComponent e value) ((s.rebased f other).addComponent e value) := by
  rw [addComponent, addComponent, signature_rebased mirrors related, rebased_registry]
  cases s.signatureOf e with
  | error error => exact .ok (.both _ _ related)
  | ok signature =>
      simp only
      by_cases present : signature.contains value.type.id = true
      · simp only [if_pos present]
        exact .ok (.both _ _ related)
      · simp only [if_neg present]
        cases s.registry.check value.type with
        | error error => exact .ok (.both _ _ related)
        | ok checked =>
            refine alongside_bind (migrate_beside mirrors related known e _) fun _ _ migrated => ?_
            obtain ⟨outcome, next, related⟩ := migrated
            cases outcome with
            | error error => exact .ok (.both _ _ related)
            | ok done =>
                refine alongside_bind (replace_beside mirrors related e value) fun _ _ replaced => ?_
                obtain ⟨outcome, last, related⟩ := replaced
                exact .ok (.both _ _ related)

theorem remove_component_beside (known : s.registry = registry) (e : Entity) (type : ComponentType) :
    Alongside (Beside f R) (s.removeComponent e type) ((s.rebased f other).removeComponent e type) := by
  rw [removeComponent, removeComponent, get_rebased mirrors related, signature_rebased mirrors related]
  refine alongside_bind_same _ fun got => ?_
  cases got with
  | error error => exact .ok (.both _ _ related)
  | ok value =>
      simp only
      cases s.signatureOf e with
      | error error => exact .ok (.both _ _ related)
      | ok signature =>
          refine alongside_bind (migrate_beside mirrors related known e _) fun _ _ migrated => ?_
          obtain ⟨outcome, next, related⟩ := migrated
          cases outcome with
          | error error => exact .ok (.both _ _ related)
          | ok done => exact .ok (.both _ _ related)

theorem deserialize_component_beside (e : Entity) (id : ComponentId) (document : Document) :
    Alongside (Beside f R) (s.deserializeComponent e id document)
      ((s.rebased f other).deserializeComponent e id document) := by
  rw [deserializeComponent, deserializeComponent, rebased_registry]
  cases s.registry.find id with
  | error error => exact .ok (.both _ _ related)
  | ok descriptor =>
      simp only [rebased_locate]
      cases s.locate e with
      | error error => exact .ok (.both _ _ related)
      | ok l =>
          simp only [rebased_store, Store.block_mirrored mirrors related]
          cases s.store.block? l.block with
          | none => exact .ok (.both _ _ related)
          | some block =>
              refine alongside_bind_same _ fun found => ?_
              cases found with
              | none => exact .ok (.both _ _ related)
              | some old =>
                  refine alongside_bind_same _ fun decoded => ?_
                  cases decoded with
                  | error error => exact .ok (.both _ _ related)
                  | ok bytes =>
                      refine alongside_bind_same _ fun written => ?_
                      cases written with
                      | none => exact .ok (.both _ _ related)
                      | some block => exact .ok (.both _ { s with store := _ } (mirrors.put _ _ related))

end Components

section Queries

theorem visit_beside (v : View) (limit : Option Nat) (edit : Store.Edit) :
    Alongside (Beside f R) (s.visit v limit edit) ((s.rebased f other).visit v limit edit) := by
  rw [visit, visit, rebased_store, Store.cell_rows_mirrored mirrors related]
  refine alongside_bind_same _ fun rows => ?_
  refine alongside_bind (Store.visit_rows_mirrored mirrors related edit _) fun _ _ visited => ?_
  obtain ⟨rows, related⟩ := visited
  exact .ok (.both _ { s with store := _ } related)

variable (asked : ∀ signature, Store.Abreast R (s.store.matchingBlocks signature) (other.matchingBlocks signature))

include asked

omit mirrors related

theorem blocks_matching_beside (signature : Signature) :
    Beside f R (s.blocksMatching signature) ((s.rebased f other).blocksMatching signature) := by
  rw [blocksMatching, blocksMatching, rebased_store]
  generalize here : s.store.matchingBlocks signature = x
  generalize there : other.matchingBlocks signature = y
  have both := asked signature
  rw [here, there] at both
  obtain ⟨blocks, related⟩ := both
  exact .both blocks { s with store := _ } related

theorem query_beside (q : Query) : Beside f R (s.query q) ((s.rebased f other).query q) := by
  have matching := blocks_matching_beside (f := f) asked q.signature
  rw [query, query]
  generalize s.blocksMatching q.signature = x at matching ⊢
  generalize (s.rebased f other).blocksMatching q.signature = y at matching ⊢
  obtain ⟨blocks, next, related⟩ := matching
  exact .both _ next related

include related in
theorem query_mut_beside (q : Query) : Beside f R (s.queryMut q) ((s.rebased f other).queryMut q) := by
  have queried := query_beside (f := f) asked q
  rw [queryMut, queryMut]
  cases q.firstRepeat? with
  | some id => exact .both _ _ related
  | none =>
      simp only
      generalize s.query q = x at queried ⊢
      generalize (s.rebased f other).query q = y at queried ⊢
      obtain ⟨view, next, related⟩ := queried
      exact .both _ next related

include mirrors in
theorem singleton_entity_beside (id : ComponentId) :
    Alongside (Beside f R) (s.singletonEntity id) ((s.rebased f other).singletonEntity id) := by
  have matching := blocks_matching_beside (f := f) asked (Signature.empty.insert id)
  rw [singletonEntity, singletonEntity]
  generalize s.blocksMatching (Signature.empty.insert id) = x at matching ⊢
  generalize (s.rebased f other).blocksMatching (Signature.empty.insert id) = y at matching ⊢
  obtain ⟨blocks, next, related⟩ := matching
  rename_i store
  have found : store.block? = next.store.block? := funext (Store.block_mirrored mirrors related)
  simp only [rebased_store, found]
  refine alongside_bind_same _ fun candidates => ?_
  cases candidates.flatten with
  | nil => exact .ok (.both _ next related)
  | cons e rest => exact .ok (.both _ next related)

end Queries

section Hierarchy

theorem add_to_hierarchy_beside (e : Entity) :
    Alongside (Beside f R) (s.addToHierarchy e) ((s.rebased f other).addToHierarchy e) := by
  rw [addToHierarchy, addToHierarchy, rebased_hierarchy, rebased_store, rebased_directory,
    Hierarchy.insert_mirrored mirrors related]
  refine alongside_bind_same _ fun inserted => ?_
  cases inserted with
  | error error => exact .ok (.both _ _ related)
  | ok hierarchy => exact .ok (.both _ { s with hierarchy } related)

theorem update_hierarchy_beside : Alongside (fun x y => ∃ store, R x.store store ∧ y = x.rebased f store)
    s.updateHierarchy (s.rebased f other).updateHierarchy := by
  rw [updateHierarchy, updateHierarchy, rebased_hierarchy, rebased_store, rebased_directory]
  refine alongside_bind (Hierarchy.update_mirrored mirrors related _ _) fun _ _ updated => ?_
  obtain ⟨hierarchy, related⟩ := updated
  exact .ok ⟨_, related, rfl⟩

theorem end_frame_beside : Alongside (fun x y => ∃ store, R x.store store ∧ y = x.rebased f store)
    s.endFrame (s.rebased f other).endFrame := by
  rw [endFrame, endFrame, rebased_hierarchy, rebased_store, rebased_directory, Hierarchy.end_frame_mirrored mirrors related]
  exact alongside_bind_same _ fun hierarchy => alongside_bind_same _ fun frame => .ok ⟨other, related, rfl⟩

end Hierarchy

omit mirrors related

theorem told_beside {α : Type} (reply : α → Reply) {x y : Checked (Outcome α × Scene)}
    (answered : Alongside (Beside f R) x y) :
    Alongside (Beside f R) (perform.told reply x) (perform.told reply y) := by
  refine alongside_map answered fun _ _ beside => ?_
  obtain ⟨outcome, next, related⟩ := beside
  exact .both _ _ related

theorem done_beside {x y : Checked Scene} (passed : Alongside (fun x y => ∃ store, R x.store store ∧ y = x.rebased f store) x y) :
    Alongside (Beside f R) (x.map fun s => ((.ok .done : Outcome Reply), s)) (y.map fun s => (.ok .done, s)) := by
  refine alongside_map passed fun _ _ changed => ?_
  obtain ⟨store, related, rfl⟩ := changed
  exact .both _ _ related

include mirrors related

theorem perform_beside (known : s.registry = registry)
    (asked : ∀ signature, Store.Abreast R (s.store.matchingBlocks signature) (other.matchingBlocks signature))
    (command : Command) : Alongside (Beside f R) (s.perform command) ((s.rebased f other).perform command) := by
  cases command with
  | create signature => exact told_beside _ (create_entity_beside mirrors related known signature)
  | spawn bundle => exact told_beside _ (spawn_beside mirrors related known bundle)
  | destroy e => exact told_beside _ (destroy_beside mirrors related e)
  | enable e => exact told_beside _ (set_enabled_beside mirrors related e true)
  | disable e => exact told_beside _ (set_enabled_beside mirrors related e false)
  | add e value => exact told_beside _ (add_component_beside mirrors related known e value)
  | remove e type => exact told_beside _ (remove_component_beside mirrors related known e type)
  | replace e value => exact told_beside _ (replace_beside mirrors related e value)
  | deserialize e id document => exact told_beside _ (deserialize_component_beside mirrors related e id document)
  | matching signature =>
      have matching := blocks_matching_beside (f := f) asked signature
      rw [perform, perform]
      generalize s.blocksMatching signature = x at matching ⊢
      generalize (s.rebased f other).blocksMatching signature = y at matching ⊢
      obtain ⟨blocks, next, related⟩ := matching
      exact .ok (.both _ next related)
  | query q =>
      have queried := query_beside (f := f) asked q
      rw [perform, perform]
      generalize s.query q = x at queried ⊢
      generalize (s.rebased f other).query q = y at queried ⊢
      obtain ⟨view, next, related⟩ := queried
      simp only [readRows, rebased_store, Store.read_rows_mirrored mirrors related]
      cases next.store.readRows view with
      | error fault => exact .error fault
      | ok rows => exact .ok (.both _ next related)
  | visit q limit edit =>
      have queried := query_mut_beside (f := f) related asked q
      rw [perform, perform]
      generalize s.queryMut q = x at queried ⊢
      generalize (s.rebased f other).queryMut q = y at queried ⊢
      obtain ⟨outcome, next, related⟩ := queried
      cases outcome with
      | error error => exact .ok (.both _ _ related)
      | ok view =>
          refine alongside_bind (visit_beside mirrors related view limit edit) fun _ _ visited => ?_
          obtain ⟨rows, last, related⟩ := visited
          exact .ok (.both _ _ related)
  | singleton id => exact told_beside _ (singleton_entity_beside mirrors asked id)
  | addToHierarchy e => exact told_beside _ (add_to_hierarchy_beside mirrors related e)
  | updateHierarchy => exact done_beside (update_hierarchy_beside mirrors related)
  | endFrame => exact done_beside (end_frame_beside mirrors related)
  | unload => exact done_beside (unload_beside mirrors related)
  | queueHierarchyInsert e => exact .ok (.both _ (s.queueHierarchyInsert e) related)
  | listen => exact .ok (.both _ s.addListener related)

end EntityStore.Scene
