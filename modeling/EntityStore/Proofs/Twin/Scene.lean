import EntityStore.Proofs.Scene.Sound
import EntityStore.Proofs.Twin.Hierarchy
import EntityStore.Scene.Command

set_option autoImplicit false

namespace EntityStore.Scene

open Checked

def under (s : Scene) (d : Directory) : Scene := { s with directory := d }

inductive Follows {α : Type} : α × Scene → α × Scene → Prop where
  | along (answer : α) (s : Scene) {d : Directory} (twin : s.directory.Twin d) :
      Follows (answer, s) (answer, s.under d)

section Under

variable (s : Scene) (d : Directory)

@[simp] theorem under_store : (s.under d).store = s.store := rfl

@[simp] theorem under_directory : (s.under d).directory = d := rfl

@[simp] theorem under_hierarchy : (s.under d).hierarchy = s.hierarchy := rfl

@[simp] theorem under_registry : (s.under d).registry = s.registry := rfl

theorem announce_all_under (events : List Event) :
    (s.under d).announceAll events = (s.announceAll events).under d := by
  induction events generalizing s with
  | nil => rfl
  | cons event rest ih => exact ih (s.announce event)

end Under

variable {s other : Scene} {d : Directory} (twin : s.directory.Twin d)

include twin

section Answers

theorem locate_under (e : Entity) : (s.under d).locate e = s.locate e := twin.locate e

theorem block_of_under (e : Entity) : (s.under d).blockOf e = s.blockOf e := by
  rw [blockOf, locate_under twin, blockOf]
  rfl

theorem signature_under (e : Entity) : (s.under d).signatureOf e = s.signatureOf e := by
  rw [signatureOf, block_of_under twin, signatureOf]

theorem get_under (e : Entity) (type : ComponentType) : (s.under d).get e type = s.get e type := by
  rw [get, block_of_under twin, get]

end Answers

section Lifecycle

theorem place_new_twin (signature : Signature) :
    Both id Follows (s.placeNew signature) ((s.under d).placeNew signature) := by
  refine both_bind twin.reserve fun x y issued => ?_
  obtain ⟨e, next⟩ := x
  obtain ⟨_, nextOther⟩ := y
  obtain ⟨rfl, twins, here, there⟩ := issued
  refine both_bind_same _ fun inserted _ => ?_
  obtain ⟨outcome, store⟩ := inserted
  cases outcome with
  | error error => exact both_bind (twins.abandon here) fun _ _ final => .ok (.along _ _ final)
  | ok spot => exact both_bind (twins.place here there spot.1 spot.2) fun _ _ final => .ok (.along _ _ final)

theorem create_entity_twin (signature : Signature) :
    Both id Follows (s.createEntity signature) ((s.under d).createEntity signature) := by
  refine both_bind (place_new_twin twin signature) fun _ _ placed => ?_
  obtain ⟨outcome, next, twins⟩ := placed
  exact .ok (.along _ _ twins)

theorem spawn_twin (bundle : Bundle) : Both id Follows (s.spawn bundle) ((s.under d).spawn bundle) := by
  rw [spawn, spawn, under_registry]
  cases bundle.repeated? with
  | some id => exact .ok (.along _ _ twin)
  | none =>
      cases bundle.check s.registry with
      | error error => exact .ok (.along _ _ twin)
      | ok checked =>
          refine both_bind (place_new_twin twin bundle.signature) fun _ _ placed => ?_
          obtain ⟨outcome, next, twins⟩ := placed
          cases outcome with
          | error error => exact .ok (.along _ _ twins)
          | ok home =>
              simp only [under_store]
              cases next.store.block? home.2.1 with
              | none => exact .ok (.along _ _ twins)
              | some block => exact both_bind_same _ fun written _ => .ok (.along _ _ twins)

theorem destroy_twin (e : Entity) : Both id Follows (s.destroy e) ((s.under d).destroy e) := by
  rw [destroy, destroy, locate_under twin]
  cases s.locate e with
  | error error => exact .ok (.along _ _ twin)
  | ok l =>
      simp only [under_store]
      cases s.store.block? l.block with
      | none => exact .ok (.along _ _ twin)
      | some block =>
          refine both_bind_same _ fun events _ => ?_
          obtain ⟨deliveries, told⟩ := announce_all_eq s events
          simp only [announce_all_under, told, under_directory, under_store]
          refine both_bind_same _ fun removed _ => ?_
          refine both_bind (twin.relocate_moved removed.1 l.block l.row) fun _ _ noted => ?_
          refine both_bind (noted.release e) fun _ _ released => ?_
          exact both_bind_same _ fun emptied _ => .ok (.along _ _ released)

theorem set_enabled_twin (e : Entity) (enabled : Bool) :
    Both id Follows (s.setEnabled e enabled) ((s.under d).setEnabled e enabled) := by
  rw [setEnabled, setEnabled, locate_under twin]
  cases s.locate e with
  | error error => exact .ok (.along _ _ twin)
  | ok l =>
      by_cases still : l.enabled = enabled
      · simp only [if_pos still]
        exact .ok (.along _ _ twin)
      · simp only [if_neg still, under_store, under_directory]
        cases s.store.block? l.block with
        | none => exact .ok (.along _ _ twin)
        | some block =>
            cases enabled
            all_goals
              refine both_bind_same _ fun crossed _ => ?_
              cases crossed.1.displaced with
              | none =>
                  refine both_bind (.ok twin) fun _ _ noted => ?_
                  exact both_bind (noted.relocate e l.block crossed.1.newRow) fun _ _ landed =>
                    .ok (.along _ _ (landed.set_enabled e _))
              | some displaced =>
                  refine both_bind (twin.relocate displaced.1 l.block displaced.2) fun _ _ noted => ?_
                  exact both_bind (noted.relocate e l.block crossed.1.newRow) fun _ _ landed =>
                    .ok (.along _ _ (landed.set_enabled e _))

theorem unload_twin : Both id (fun x y => ∃ d, x.directory.Twin d ∧ y = x.under d) s.unload (s.under d).unload := by
  rw [unload, unload, under_store]
  refine both_bind_same _ fun events _ => ?_
  obtain ⟨deliveries, told⟩ := announce_all_eq s events
  simp only [announce_all_under, told, under_directory, under_store]
  exact both_bind_same _ fun store _ => .ok ⟨_, twin.clear, rfl⟩

end Lifecycle

section Components

theorem replace_twin (e : Entity) (value : Component) :
    Both id Follows (s.replace e value) ((s.under d).replace e value) := by
  rw [replace, replace, locate_under twin]
  cases s.locate e with
  | error error => exact .ok (.along _ _ twin)
  | ok l =>
      simp only [under_store]
      cases s.store.block? l.block with
      | none => exact .ok (.along _ _ twin)
      | some block =>
          refine both_bind_same _ fun found _ => ?_
          cases found with
          | none => exact .ok (.along _ _ twin)
          | some old =>
              refine both_bind_same _ fun written _ => ?_
              cases written with
              | none => exact .ok (.along _ _ twin)
              | some block => exact .ok (.along _ _ twin)

theorem migrate_twin (e : Entity) (target : Signature) :
    Both id Follows (s.migrate e target) ((s.under d).migrate e target) := by
  rw [migrate, migrate, locate_under twin]
  cases s.locate e with
  | error error => exact .ok (.along _ _ twin)
  | ok old =>
      simp only [under_store]
      refine both_bind_same _ fun acquired _ => ?_
      obtain ⟨outcome, store⟩ := acquired
      cases outcome with
      | error error => exact .ok (.along _ _ twin)
      | ok newId =>
          refine both_bind_same _ fun pair _ => ?_
          cases pair with
          | none => exact .ok (.along _ _ twin)
          | some pair =>
              refine both_bind_same _ fun pushed _ => ?_
              cases pushed with
              | none => exact .ok (.along _ _ twin)
              | some arrived =>
                  refine both_bind_same _ fun copied _ => ?_
                  refine both_bind_same _ fun events _ => ?_
                  obtain ⟨deliveries, told⟩ := announce_all_eq s events
                  simp only [announce_all_under, told, under_directory]
                  refine both_bind_same _ fun removed _ => ?_
                  cases old.enabled
                  -- A disabled entity crosses over in its new block.
                  case' false => refine both_bind_same _ fun crossed _ => ?_
                  all_goals
                    refine both_bind_same _ fun settled _ => ?_
                    refine both_bind (twin.relocate_moved removed.1 old.block old.row) fun _ _ noted => ?_
                    refine both_bind_same _ fun emptied _ => ?_
                    exact both_bind (noted.relocate e newId settled.1) fun _ _ landed =>
                      .ok (.along _ _ landed)

theorem add_component_twin (e : Entity) (value : Component) :
    Both id Follows (s.addComponent e value) ((s.under d).addComponent e value) := by
  rw [addComponent, addComponent, signature_under twin, under_registry]
  cases s.signatureOf e with
  | error error => exact .ok (.along _ _ twin)
  | ok signature =>
      simp only
      by_cases present : signature.contains value.type.id = true
      · simp only [if_pos present]
        exact .ok (.along _ _ twin)
      · simp only [if_neg present]
        cases s.registry.check value.type with
        | error error => exact .ok (.along _ _ twin)
        | ok checked =>
            refine both_bind (migrate_twin twin e (signature.insert value.type.id)) fun _ _ migrated => ?_
            obtain ⟨outcome, next, twins⟩ := migrated
            cases outcome with
            | error error => exact .ok (.along _ _ twins)
            | ok done =>
                refine both_bind (replace_twin twins e value) fun _ _ replaced => ?_
                obtain ⟨outcome, last, twins⟩ := replaced
                exact .ok (.along _ _ twins)

theorem remove_component_twin (e : Entity) (type : ComponentType) :
    Both id Follows (s.removeComponent e type) ((s.under d).removeComponent e type) := by
  rw [removeComponent, removeComponent, get_under twin, signature_under twin]
  refine both_bind_same _ fun got _ => ?_
  cases got with
  | error error => exact .ok (.along _ _ twin)
  | ok value =>
      simp only
      cases s.signatureOf e with
      | error error => exact .ok (.along _ _ twin)
      | ok signature =>
          refine both_bind (migrate_twin twin e (signature.erase type.id)) fun _ _ migrated => ?_
          obtain ⟨outcome, next, twins⟩ := migrated
          cases outcome with
          | error error => exact .ok (.along _ _ twins)
          | ok done => exact .ok (.along _ _ twins)

theorem deserialize_component_twin (e : Entity) (id : ComponentId) (document : Document) :
    Both (fun e => e) Follows (s.deserializeComponent e id document)
      ((s.under d).deserializeComponent e id document) := by
  rw [deserializeComponent, deserializeComponent, under_registry]
  cases s.registry.find id with
  | error error => exact .ok (.along _ _ twin)
  | ok descriptor =>
      simp only [locate_under twin]
      cases s.locate e with
      | error error => exact .ok (.along _ _ twin)
      | ok l =>
          simp only [under_store]
          cases s.store.block? l.block with
          | none => exact .ok (.along _ _ twin)
          | some block =>
              refine both_bind_same _ fun found _ => ?_
              cases found with
              | none => exact .ok (.along _ _ twin)
              | some old =>
                  refine both_bind_same _ fun decoded _ => ?_
                  cases decoded with
                  | error error => exact .ok (.along _ _ twin)
                  | ok bytes =>
                      refine both_bind_same _ fun written _ => ?_
                      cases written with
                      | none => exact .ok (.along _ _ twin)
                      | some block => exact .ok (.along _ _ twin)

end Components

section Queries

theorem query_mut_twin (q : Query) : Follows (s.queryMut q) ((s.under d).queryMut q) := by
  rw [queryMut, queryMut]
  cases q.firstRepeat? with
  | some id => exact .along _ _ twin
  | none => exact .along _ (s.query q).2 twin

theorem singleton_entity_twin (id : ComponentId) :
    Both (fun e => e) Follows (s.singletonEntity id) ((s.under d).singletonEntity id) := by
  have blocks : (s.under d).blocksMatching (Signature.empty.insert id) =
      ((s.blocksMatching (Signature.empty.insert id)).1,
        (s.blocksMatching (Signature.empty.insert id)).2.under d) := rfl
  simp only [singletonEntity, blocks, under_store]
  refine both_bind_same _ fun candidates _ => ?_
  cases candidates.flatten with
  | nil => exact .ok (.along _ (s.blocksMatching (Signature.empty.insert id)).2 twin)
  | cons e rest => exact .ok (.along _ (s.blocksMatching (Signature.empty.insert id)).2 twin)

theorem visit_twin (v : View) (limit : Option Nat) (edit : Store.Edit) :
    Both id Follows (s.visit v limit edit) ((s.under d).visit v limit edit) := by
  refine both_bind_same _ fun rows _ => ?_
  exact both_bind_same _ fun visited _ => .ok (.along _ _ twin)

end Queries

section Commands

omit twin in
theorem told_twin {α : Type} (reply : α → Reply) {x y : Checked (Outcome α × Scene)}
    (answered : Both id Follows x y) :
    Both id Follows (perform.told reply x) (perform.told reply y) := by
  refine both_map answered fun _ _ follows => ?_
  obtain ⟨outcome, next, twins⟩ := follows
  exact .along _ _ twins

theorem perform_twin (command : Command) : Both id Follows (s.perform command) ((s.under d).perform command) := by
  cases command with
  | create signature => exact told_twin _ (create_entity_twin twin signature)
  | spawn bundle => exact told_twin _ (spawn_twin twin bundle)
  | destroy e => exact told_twin _ (destroy_twin twin e)
  | enable e => exact told_twin _ (set_enabled_twin twin e true)
  | disable e => exact told_twin _ (set_enabled_twin twin e false)
  | add e value => exact told_twin _ (add_component_twin twin e value)
  | remove e type => exact told_twin _ (remove_component_twin twin e type)
  | replace e value => exact told_twin _ (replace_twin twin e value)
  | deserialize e id document => exact told_twin _ (deserialize_component_twin twin e id document)
  | query q =>
      show Both id Follows (Except.map _ ((s.query q).2.readRows (s.query q).1))
        (Except.map _ ((s.query q).2.readRows (s.query q).1))
      cases (s.query q).2.readRows (s.query q).1 with
      | error fault => exact .error (.same fault)
      | ok rows => exact .ok (.along _ (s.query q).2 twin)
  | visit q limit edit =>
      have asked := query_mut_twin twin q
      rw [perform, perform]
      generalize s.queryMut q = x at asked ⊢
      generalize (s.under d).queryMut q = y at asked ⊢
      obtain ⟨outcome, next, twins⟩ := asked
      cases outcome with
      | error error => exact .ok (.along _ _ twins)
      | ok view =>
          refine both_bind (visit_twin twins view limit edit) fun _ _ visited => ?_
          obtain ⟨rows, last, twins⟩ := visited
          exact .ok (.along _ _ twins)
  | singleton id => exact told_twin _ (singleton_entity_twin twin id)
  | addToHierarchy e =>
      rw [perform, perform, addToHierarchy, addToHierarchy, under_hierarchy, under_store, under_directory,
        Hierarchy.insert_twin twin]
      refine told_twin _ (both_bind_same _ fun inserted _ => ?_)
      cases inserted with
      | error error => exact .ok (.along _ _ twin)
      | ok hierarchy => exact .ok (.along _ _ twin)
  | updateHierarchy =>
      rw [perform, perform, updateHierarchy, updateHierarchy, under_hierarchy, under_store, under_directory,
        Hierarchy.update_twin twin]
      cases s.hierarchy.update s.directory s.store with
      | error fault => exact .error (.same fault)
      | ok updated => exact .ok (.along _ _ twin)
  | endFrame =>
      rw [perform, perform, endFrame, endFrame, under_hierarchy, under_store, under_directory,
        Hierarchy.end_frame_twin twin]
      refine both_map (both_bind_same _ fun hierarchy _ => both_bind_same _ fun frame _ => .ok ?_) fun _ _ ended => ended
      exact .along _ _ twin
  | unload =>
      refine both_map (unload_twin twin) fun _ _ unloaded => ?_
      obtain ⟨_, twins, rfl⟩ := unloaded
      exact .along _ _ twins
  | matching | queueHierarchyInsert | listen => exact .ok (.along _ _ twin)

end Commands

end EntityStore.Scene
